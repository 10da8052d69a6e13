import SunwalkerBox.Basic
/-!
# The mount table

The part of the kernel that `reset` and `create_rootfs` read and write:
the mount targets of the namespace, in the order `/proc/self/mounts` lists
them, which is the order they were mounted in. `mount(2)` and a bind mount
list the new mount last; `umount(2)` takes away the mount on top at its
target, the last-listed one, and fails with `EINVAL` (`InvalidInput`)
where nothing is mounted. `MountTable.umount` leaves out the other ways it
fails (`EBUSY` while something is mounted on it, among them); Mount/Fallible
covers kernels that fail so.

Errors come in two layers, as in the code: the `std::io::ErrorKind` of a
failed system call, and the `anyhow` error a caller makes of it with
`context`.
-/

namespace SunwalkerBox

/-- `str::starts_with`. -/
def startsWith (s pre : String) : Bool := pre.toList.isPrefixOf s.toList

/-- The `std::io::ErrorKind`s the model tells apart. -/
inductive ErrorKind
  | invalidInput
  | invalidData
  | notFound
  | alreadyExists
  | permissionDenied
  | resourceBusy
  | other
deriving DecidableEq, Repr

/-- An `anyhow::Error`: the context it was given, over the `io::Error` it
wraps (none for an error made from a message). -/
structure Error where
  context : String
  kind : Option ErrorKind
deriving DecidableEq, Repr

/-- `.context(msg)` on the result of a system call. -/
def context {α : Type} (msg : String) : Except ErrorKind α → Except Error α
  | .ok a => .ok a
  | .error e => .error ⟨msg, some e⟩

@[simp] theorem context_ok {α : Type} (msg : String) (a : α) :
    context msg (.ok a : Except ErrorKind α) = .ok a := rfl

/-- The last-listed occurrence of `x` removed. -/
def eraseLast {α : Type} [DecidableEq α] (x : α) (l : List α) : List α :=
  (l.reverse.erase x).reverse

/-- Mount targets, in the order `/proc/self/mounts` lists them. -/
abbrev MountTable := List String

namespace MountTable

/-- A new mount at `target`, listed last. -/
def mount (t : MountTable) (target : String) : MountTable := t ++ [target]

/-- `umount(target)`: the last-listed mount there goes; with none, `EINVAL`. -/
def umount (t : MountTable) (target : String) : Except ErrorKind MountTable :=
  if target ∈ t then .ok (eraseLast target t) else .error .invalidInput

end MountTable

/-! ## Removing the last occurrence -/

variable {α : Type} [DecidableEq α] {x y : α} {l : List α}

@[simp] theorem eraseLast_concat_self (l : List α) (x : α) : eraseLast x (l ++ [x]) = l := by
  simp [eraseLast]

theorem eraseLast_concat_of_ne (h : y ≠ x) (l : List α) :
    eraseLast x (l ++ [y]) = eraseLast x l ++ [y] := by
  simp [eraseLast, List.erase_cons, h]

theorem eraseLast_of_not_mem (h : x ∉ l) : eraseLast x l = l := by
  rw [eraseLast, List.erase_of_not_mem (by simpa using h), List.reverse_reverse]

/-- The last `x` goes, and what came after it closes up. -/
theorem eraseLast_append_cons {m : List α} (h : x ∉ m) (l : List α) :
    eraseLast x (l ++ x :: m) = l ++ m := by
  simp only [eraseLast, List.reverse_append, List.reverse_cons, List.append_assoc,
    List.singleton_append]
  rw [List.erase_append_right _ (by simpa using h), List.erase_cons_head]
  simp

@[simp] theorem count_eraseLast (a : α) :
    (eraseLast x l).count a = l.count a - if x = a then 1 else 0 := by
  simp [eraseLast, List.count_erase]

theorem filter_eraseLast {p : α → Bool} (hx : p x = false) :
    (eraseLast x l).filter p = l.filter p := by
  induction l using List.reverseRecOn with
  | nil => rfl
  | append_singleton l y ih =>
    by_cases hy : y = x
    · subst hy; simp [hx]
    · rw [eraseLast_concat_of_ne hy, List.filter_append, List.filter_append, ih]

end SunwalkerBox
