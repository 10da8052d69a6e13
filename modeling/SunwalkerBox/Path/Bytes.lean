import SunwalkerBox.Basic
import Mathlib.Data.List.Infix
/-!
# Paths as bytes

`resolve_abs` in `src/linux/rootfs.rs` works on the bytes of a path: the
components of its argument come from `Path::components`, and its accumulator
is a `Vec<u8>` that starts at a declared root and grows by `/` and a
component's bytes. This file fixes that vocabulary: `Segment`, a
`Component::Normal` part with the invariant `Path::components` gives it on
Unix; `Component`; and `pathBytes`, the accumulator that a stack of segments
stands for.

The two facts everything else reads are `pathBytes_injective` (different
stacks are different byte strings, so a `read_link` oracle on bytes is an
oracle on stacks) and `rposition_sep_pathBytes` (the last `/` of an
accumulator is where its last segment starts, so `ParentDir` pops it).
-/

namespace SunwalkerBox

/-- `b'/'`. -/
def sep : UInt8 := 47

/-- `Iterator::rposition` over a slice: the index, counted from the front, of
the last element satisfying `p`. -/
def rposition {α : Type} (p : α → Bool) : List α → Option Nat
  | [] => none
  | x :: xs =>
    match rposition p xs with
    | some i => some (i + 1)
    | none => if p x then some 0 else none

/-- A `Component::Normal` part as `Path::components` yields it on Unix: never
empty, never holding a `/`, and never `.` or `..`, which come as `CurDir` and
`ParentDir`. -/
@[ext] structure Segment where
  bytes : Bytes
  ne_nil : bytes ≠ []
  sep_not_mem : sep ∉ bytes
  ne_dot : bytes ≠ byteString "."
  ne_dotDot : bytes ≠ byteString ".."

instance : DecidableEq Segment := fun a b =>
  decidable_of_iff (a.bytes = b.bytes) Segment.ext_iff.symm

/-- `std::path::Component` on Unix. `Prefix` is Windows-only, and the arm the
code has for it is `unreachable!()`. -/
inductive Component
  | rootDir
  | curDir
  | parentDir
  | normal (part : Segment)
deriving DecidableEq

/-- The accumulator a stack of segments stands for: `root`, then `/` and the
segment for each segment of the stack. -/
def pathBytes (root : Bytes) (st : List Segment) : Bytes :=
  st.foldl (fun acc s => acc ++ sep :: s.bytes) root

variable {root : Bytes} {st : List Segment}

@[simp] theorem pathBytes_nil : pathBytes root [] = root := rfl

@[simp] theorem pathBytes_concat (s : Segment) :
    pathBytes root (st ++ [s]) = pathBytes root st ++ sep :: s.bytes := by
  simp [pathBytes]

/-- The root is a prefix of every accumulator over it. -/
theorem pathBytes_eq_append (root : Bytes) (st : List Segment) :
    pathBytes root st = root ++ pathBytes [] st := by
  induction st using List.reverseRecOn with
  | nil => simp
  | append_singleton st s ih => simp [ih]

theorem root_length_lt_iff : root.length < (pathBytes root st).length ↔ st ≠ [] := by
  induction st using List.reverseRecOn with
  | nil => simp
  | append_singleton st s ih =>
    simp only [pathBytes_concat, List.length_append, List.length_cons, ne_eq,
      List.append_eq_nil, List.cons_ne_nil, and_false, not_false_eq_true, iff_true]
    by_cases h : st = [] <;> simp_all; omega

@[simp] theorem take_root_pathBytes : (pathBytes root st).take root.length = root := by
  rw [pathBytes_eq_append, List.take_left' rfl]

/-! ## The last separator -/

theorem rposition_eq_none {α : Type} {p : α → Bool} {xs : List α} (h : ∀ x ∈ xs, p x = false) :
    rposition p xs = none := by
  induction xs with
  | nil => rfl
  | cons x xs ih =>
    simp only [List.mem_cons, forall_eq_or_imp] at h
    simp [rposition, ih h.2, h.1]

theorem rposition_append_of_eq_some {α : Type} {p : α → Bool} {ys : List α} {i : Nat}
    (h : rposition p ys = some i) (xs : List α) :
    rposition p (xs ++ ys) = some (xs.length + i) := by
  induction xs with
  | nil => simpa using h
  | cons x xs ih => simp [rposition, ih]; omega

/-- **`ParentDir` pops the last segment**: the last `/` of a nonempty stack's
accumulator is where its last segment starts. -/
theorem rposition_sep_pathBytes_concat (s : Segment) :
    rposition (· == sep) (pathBytes root (st ++ [s])) = some (pathBytes root st).length := by
  have hs : rposition (· == sep) s.bytes = none :=
    rposition_eq_none fun x hx => by
      simpa using fun h : x = sep => s.sep_not_mem (h ▸ hx)
  have : rposition (· == sep) (sep :: s.bytes) = some 0 := by simp [rposition, hs]
  simpa using rposition_append_of_eq_some this (pathBytes root st)

/-! ## Different stacks, different bytes -/

theorem pathBytes_cons (s : Segment) :
    pathBytes root (s :: st) = root ++ sep :: (s.bytes ++ pathBytes [] st) := by
  rw [pathBytes, List.foldl_cons, ← pathBytes, pathBytes_eq_append]; simp

/-- What follows a segment in an accumulator is empty or starts a new segment. -/
theorem head_pathBytes_nil (st : List Segment) : ∀ c ∈ (pathBytes [] st).head?, c = sep := by
  cases st <;> simp [pathBytes_cons]

/-- Two separator-free words followed by separator-led tails split alike. -/
theorem eq_of_append_eq_append {x x' y y' : Bytes} (hx : sep ∉ x) (hx' : sep ∉ x')
    (hy : ∀ c ∈ y.head?, c = sep) (hy' : ∀ c ∈ y'.head?, c = sep) (h : x ++ y = x' ++ y') :
    x = x' := by
  induction x generalizing x' with
  | nil =>
    cases x' with
    | nil => rfl
    | cons c x' =>
      cases y with
      | nil => simp at h
      | cons d y => simp_all
  | cons c x ih =>
    cases x' with
    | nil =>
      cases y' with
      | nil => simp at h
      | cons d y' => simp_all
    | cons c' x' =>
      simp only [List.cons_append, List.cons.injEq] at h
      simp only [List.mem_cons, not_or] at hx hx'
      rw [h.1, ih hx.2 hx'.2 h.2]

theorem pathBytes_injective {a b : List Segment} (h : pathBytes root a = pathBytes root b) :
    a = b := by
  rw [pathBytes_eq_append, pathBytes_eq_append root b, List.append_cancel_left_eq] at h
  induction a generalizing b with
  | nil => cases b <;> simp_all [pathBytes_cons]
  | cons s a ih =>
    cases b with
    | nil => simp [pathBytes_cons] at h
    | cons t b =>
      simp only [pathBytes_cons, List.nil_append, List.cons.injEq, true_and] at h
      have hst := eq_of_append_eq_append s.sep_not_mem t.sep_not_mem
        (head_pathBytes_nil a) (head_pathBytes_nil b) h
      rw [Segment.ext hst, ih (List.append_cancel_left (hst ▸ h))]

@[simp] theorem pathBytes_inj {a b : List Segment} : pathBytes root a = pathBytes root b ↔ a = b :=
  ⟨pathBytes_injective, congrArg _⟩

/-! ## Prefixes at segment boundaries -/

/-- `q` is a prefix of `acc` ending where a segment of `acc` ends: at the end
of `acc`, or before a `/`. -/
def IsBoundaryPrefix (q acc : Bytes) : Prop := q = acc ∨ q ++ [sep] <+: acc

variable {q acc : Bytes}

theorem IsBoundaryPrefix.isPrefix (h : IsBoundaryPrefix q acc) : q <+: acc := by
  rcases h with rfl | h
  · exact List.prefix_refl q
  · exact (List.prefix_append q [sep]).trans h

/-- A boundary prefix of a cut made before a `/` is followed by a `/`. -/
theorem IsBoundaryPrefix.append_sep_of_take {i : Nat} (h : IsBoundaryPrefix q (acc.take i))
    (hi : acc.take i ++ [sep] <+: acc) : q ++ [sep] <+: acc := by
  rcases h with rfl | h
  · exact hi
  · exact h.trans (List.take_prefix i acc)

/-- A boundary prefix of `acc ++ /p` is that path, or a boundary prefix of
`acc`: a `/` after anything longer would fall inside `p`. -/
theorem IsBoundaryPrefix.of_push {p : Bytes} (hp : sep ∉ p)
    (h : IsBoundaryPrefix q (acc ++ sep :: p)) : q = acc ++ sep :: p ∨ IsBoundaryPrefix q acc := by
  rcases h with rfl | ⟨t, ht⟩
  · exact .inl rfl
  rw [List.append_assoc] at ht
  rcases Nat.lt_trichotomy q.length acc.length with hl | hl | hl
  · have hq : q ++ [sep] <+: acc ++ sep :: p := ⟨t, by rw [List.append_assoc, ht]⟩
    refine .inr (.inr (List.prefix_of_prefix_length_le hq (List.prefix_append acc _) ?_))
    simp only [List.length_append, List.length_singleton]; omega
  · exact .inr (.inl (List.append_inj ht hl).1)
  · exfalso
    obtain ⟨c, rfl, hc⟩ := (List.append_eq_append_iff.1 ht).resolve_left
      (fun ⟨a', ha, _⟩ => by rw [ha, List.length_append] at hl; omega)
    cases c with
    | nil => simp at hl
    | cons d c =>
      simp only [List.cons_append, List.cons.injEq, List.singleton_append] at hc
      exact hp (by rw [hc.2]; simp)

/-- `rposition` finds a `/`, so the cut before it is followed by one. -/
theorem take_rposition_sep {i : Nat} (h : rposition (· == sep) acc = some i) :
    acc.take i ++ [sep] <+: acc := by
  induction acc generalizing i with
  | nil => cases h
  | cons x xs ih =>
    simp only [rposition] at h
    split at h
    · cases h
      exact (List.prefix_cons_inj x).2 (ih ‹_›)
    · split at h
      · cases h; simp_all
      · cases h

end SunwalkerBox
