import Mathlib.Data.List.Nodup
/-!
# Shared vocabulary

Bytes, as the resolver sees paths, and `str::from_utf8` on them, which
decodes a concatenation piece by piece (`decodeUtf8_append`). Then the facts
about loops in `Except` that every loop of the model is proved with: a fold
whose step keeps an invariant keeps it (`foldlM_invariant`) and, if the step
always succeeds, succeeds (`foldlM_eq_ok_of_step`), a fold whose
step commutes with a map commutes with it (`foldlM_map_comm`), and a `mapM`
succeeds when each call does and returns only what the calls return.
-/

namespace SunwalkerBox

/-- The bytes of an `OsStr` or a `Vec<u8>`. -/
abbrev Bytes := List UInt8

/-- The bytes of an ASCII literal, as a Rust byte string `b"..."` has them. -/
def byteString (s : String) : Bytes := s.toList.map Char.toUInt8

/-- A continuation byte, `10xxxxxx`. -/
def isCont (b : UInt8) : Bool := 0x80 ≤ b && b ≤ 0xBF

/-- `str::from_utf8`: the characters of a byte string that is well-formed
UTF-8, by the Unicode standard's table of well-formed byte sequences (no
overlong forms, no surrogates, nothing past `U+10FFFF`), and `none` for any
other. -/
def decodeUtf8 : Bytes → Option (List Char)
  | [] => some []
  | b₀ :: bs =>
    if b₀ < 0x80 then (decodeUtf8 bs).map (Char.ofNat b₀.toNat :: ·)
    else match bs with
      | [] => none
      | b₁ :: bs =>
        if 0xC2 ≤ b₀ && b₀ ≤ 0xDF && isCont b₁ then
          (decodeUtf8 bs).map (Char.ofNat (b₀.toNat % 32 * 64 + b₁.toNat % 64) :: ·)
        else match bs with
          | [] => none
          | b₂ :: bs =>
            if ((b₀ == 0xE0 && 0xA0 ≤ b₁ && b₁ ≤ 0xBF) || (0xE1 ≤ b₀ && b₀ ≤ 0xEC && isCont b₁) ||
                (b₀ == 0xED && 0x80 ≤ b₁ && b₁ ≤ 0x9F) || (0xEE ≤ b₀ && b₀ ≤ 0xEF && isCont b₁)) &&
                isCont b₂ then
              (decodeUtf8 bs).map
                (Char.ofNat (b₀.toNat % 16 * 4096 + b₁.toNat % 64 * 64 + b₂.toNat % 64) :: ·)
            else match bs with
              | [] => none
              | b₃ :: bs =>
                if ((b₀ == 0xF0 && 0x90 ≤ b₁ && b₁ ≤ 0xBF) || (0xF1 ≤ b₀ && b₀ ≤ 0xF3 && isCont b₁) ||
                    (b₀ == 0xF4 && 0x80 ≤ b₁ && b₁ ≤ 0x8F)) && isCont b₂ && isCont b₃ then
                  (decodeUtf8 bs).map (Char.ofNat (b₀.toNat % 8 * 262144 + b₁.toNat % 64 * 4096 +
                    b₂.toNat % 64 * 64 + b₃.toNat % 64) :: ·)
                else none

/-- Well-formed UTF-8 followed by more bytes decodes to its characters,
then to those of the rest: a character never straddles the seam. -/
theorem decodeUtf8_append (b : Bytes) (a : Bytes) :
    ∀ cs, decodeUtf8 a = some cs → decodeUtf8 (a ++ b) = (decodeUtf8 b).map (cs ++ ·) := by
  induction a using decodeUtf8.induct with
  | case1 => rintro cs ⟨⟩; simp
  | case2 b₀ bs h ih | case4 b₀ h0 b₁ bs h ih | case6 b₀ h0 b₁ h1 b₂ bs h ih
  | case8 b₀ h0 b₁ h1 b₂ h2 b₃ bs h ih =>
    intro cs hcs
    rw [decodeUtf8.eq_def (_ :: _)] at hcs
    rw [List.cons_append, decodeUtf8.eq_def (_ :: _)]
    simp only [List.cons_append, *, if_true, if_false] at hcs ⊢
    obtain ⟨cs', hcs', rfl⟩ := Option.map_eq_some'.1 hcs
    rw [ih cs' hcs', Option.map_map]; rfl
  | _ => intro cs hcs; simp [decodeUtf8, *] at hcs

@[simp] theorem except_ok_bind {ε α β : Type} (a : α) (f : α → Except ε β) :
    (Except.ok a >>= f) = f a := rfl

@[simp] theorem except_pure {ε α : Type} (a : α) : (pure a : Except ε α) = .ok a := rfl

@[simp] theorem except_error_bind {ε α β : Type} (e : ε) (f : α → Except ε β) :
    (Except.error e >>= f) = Except.error e := rfl

/-- Appending to a common prefix is injective. -/
@[simp] theorem string_append_left_cancel_iff {p a b : String} : p ++ a = p ++ b ↔ a = b := by
  refine ⟨fun h => String.ext ?_, fun h => h ▸ rfl⟩
  simpa only [String.data_append, List.append_cancel_left_eq] using congrArg String.data h

/-- A fold whose step keeps `P` keeps `P`. -/
theorem foldlM_invariant {ε α β : Type} {P : β → Prop} {g : β → α → Except ε β}
    (hg : ∀ b a b', P b → g b a = .ok b' → P b') :
    ∀ (l : List α) {b b' : β}, P b → l.foldlM g b = .ok b' → P b'
  | [], _, _, hb, h => by cases h; exact hb
  | a :: l, b, b', hb, h => by
    rw [List.foldlM_cons] at h
    cases hga : g b a with
    | error e => rw [hga] at h; cases h
    | ok c => rw [hga] at h; exact foldlM_invariant hg l (hg b a c hb hga) h

/-- A fold whose step succeeds and keeps `P` on each element succeeds and
keeps `P`. -/
theorem foldlM_eq_ok_of_step {ε α β : Type} {P : β → Prop} {g : β → α → Except ε β} :
    ∀ {l : List α}, (∀ a ∈ l, ∀ b, P b → ∃ b', g b a = .ok b' ∧ P b') →
      ∀ {b : β}, P b → ∃ b', l.foldlM g b = .ok b' ∧ P b'
  | [], _, b, hb => ⟨b, rfl, hb⟩
  | a :: _, hg, b, hb => by
    obtain ⟨c, hc, hPc⟩ := hg a (List.mem_cons_self _ _) b hb
    rw [List.foldlM_cons, hc, except_ok_bind]
    exact foldlM_eq_ok_of_step (fun a ha => hg a (List.mem_cons_of_mem _ ha)) hPc

/-- A fold whose step commutes with `f` commutes with `f`. -/
theorem foldlM_map_comm {ε α β γ : Type} {f : β → γ} {g : γ → α → Except ε γ}
    {h : β → α → Except ε β} (hc : ∀ b a, g (f b) a = f <$> h b a) (l : List α) (b : β) :
    l.foldlM g (f b) = f <$> l.foldlM h b := by
  induction l generalizing b with
  | nil => rfl
  | cons a l ih =>
    simp only [List.foldlM_cons, hc]
    cases h b a with
    | error e => rfl
    | ok b' => exact ih b'

/-- A bind in `Except` succeeds exactly when both of its steps do. -/
theorem except_bind_eq_ok {ε α β : Type} {x : Except ε α} {f : α → Except ε β} {b : β} :
    x >>= f = .ok b ↔ ∃ a, x = .ok a ∧ f a = .ok b := by
  cases x <;> simp

/-- What a successful `mapM` returns comes from its list. -/
theorem mem_of_mapM_eq_ok {ε α β : Type} {f : α → Except ε β} {b : β} :
    ∀ {l : List α} {bs : List β}, l.mapM f = .ok bs → b ∈ bs → ∃ a ∈ l, f a = .ok b
  | [], _, h, hb => by cases h; cases hb
  | a :: l, _, h, hb => by
    simp only [List.mapM_cons, except_bind_eq_ok] at h
    obtain ⟨b', ha, bs', hl, ⟨⟩⟩ := h
    rcases List.mem_cons.1 hb with rfl | hb
    · exact ⟨a, List.mem_cons_self _ _, ha⟩
    · obtain ⟨a', ha', h'⟩ := mem_of_mapM_eq_ok hl hb
      exact ⟨a', List.mem_cons_of_mem _ ha', h'⟩

/-! ## Lists of bindings -/

section Lookup

variable {α β γ : Type}

theorem lookup_of_mem [DecidableEq α] {l : List (α × β)} (h : (l.map Prod.fst).Nodup) {a : α} {b : β}
    (hab : (a, b) ∈ l) : l.lookup a = some b := by
  obtain ⟨l₁, l₂, rfl⟩ := List.append_of_mem hab
  rw [List.lookup_eq_some_iff]
  refine ⟨l₁, l₂, rfl, fun p hp => ?_⟩
  have : a ∉ l₁.map Prod.fst := by
    simp only [List.map_append, List.map_cons] at h
    exact fun ha => List.disjoint_of_nodup_append h ha (List.mem_cons_self _ _)
  exact bne_iff_ne.2 fun he => this (he ▸ List.mem_map_of_mem Prod.fst hp)

theorem mapM_map_eq_some {l : List γ} {h : γ → α} {f : α → Option β} {g : γ → β}
    (hf : ∀ c ∈ l, f (h c) = some (g c)) : (l.map h).mapM f = some (l.map g) := by
  induction l with
  | nil => rfl
  | cons c l ih =>
    rw [List.forall_mem_cons] at hf
    rw [List.map_cons, List.mapM_cons, hf.1, ih hf.2]
    rfl

/-- A `mapM` in `Option` succeeds exactly when each call does. -/
theorem isSome_mapM_iff {f : α → Option β} : ∀ {l : List α}, (l.mapM f).isSome ↔ ∀ a ∈ l, (f a).isSome
  | [] => ⟨fun _ _ h => (nomatch h), fun _ => rfl⟩
  | a :: l => by
    rw [List.mapM_cons, List.forall_mem_cons, ← isSome_mapM_iff]
    cases f a <;> cases l.mapM f <;> simp

/-- What a successful `mapM` returns, seen through `g`, is its list seen
through `k`, when each call's result is. -/
theorem map_of_mapM_eq_some {f : α → Option β} {g : β → γ} {k : α → γ}
    (hf : ∀ a b, f a = some b → g b = k a) :
    ∀ {l : List α} {l' : List β}, l.mapM f = some l' → l'.map g = l.map k
  | [], _, h => by cases h; rfl
  | a :: l, l', h => by
    rw [List.mapM_cons] at h
    cases ha : f a with
    | none => rw [ha] at h; cases h
    | some b =>
      cases hl : l.mapM f with
      | none => rw [ha, hl] at h; cases h
      | some bs =>
        rw [ha, hl] at h; cases h
        rw [List.map_cons, List.map_cons, hf a b ha, map_of_mapM_eq_some hf hl]

theorem length_of_mapM_eq_some {f : α → Option β} {l : List α} {l' : List β}
    (h : l.mapM f = some l') : l'.length = l.length := by
  simpa using congrArg List.length (map_of_mapM_eq_some (g := fun _ => ()) (k := fun _ => ())
    (fun _ _ _ => rfl) h)

end Lookup

end SunwalkerBox
