import SunwalkerBox.Basic
/-!
# UTF-8 back from characters

`decodeUtf8` loses nothing: the bytes it accepts are exactly the UTF-8 of
the characters it returns (`decodeUtf8_eq_some`), so two byte strings that
decode alike are the same (`decodeUtf8_inj`). This is what makes
`into_string` injective, and two distinct file names of a directory two
distinct `String`s.

`utf8Bytes` is the encoder, by the width of the code point. Each
multi-byte branch of the decoder is inverted by one lemma over the byte
values as numbers (`utf8Bytes_two`, `_three`, `_four`), whose hypotheses
are the decoder's own range checks: with the lead byte's and each
continuation's payload named, the arithmetic is a few divisions by 64.

An ASCII byte never falls inside a character, so text cut at one decodes
piece by piece (`decodeUtf8_append_sep`), failing where a piece fails: this
is how a line of `/proc/self/mounts` decodes field by field.
-/

namespace SunwalkerBox

/-- The bytes UTF-8 writes a character as. -/
def utf8Bytes (c : Char) : Bytes :=
  let n := c.toNat
  if n < 0x80 then [n.toUInt8]
  else if n < 0x800 then [(0xC0 + n / 64).toUInt8, (0x80 + n % 64).toUInt8]
  else if n < 0x10000 then
    [(0xE0 + n / 64 / 64).toUInt8, (0x80 + n / 64 % 64).toUInt8, (0x80 + n % 64).toUInt8]
  else [(0xF0 + n / 64 / 64 / 64).toUInt8, (0x80 + n / 64 / 64 % 64).toUInt8,
    (0x80 + n / 64 % 64).toUInt8, (0x80 + n % 64).toUInt8]

example : [0xC3, 0xA9] = utf8Bytes 'é' := by decide

theorem toNat_ofNat_of_isValidChar {n : Nat} (h : n.isValidChar) : (Char.ofNat n).toNat = n := by
  rw [Char.ofNat, dif_pos h]; rfl

theorem eq_toUInt8 {b : UInt8} {m : Nat} (h : b.toNat = m) : b = m.toUInt8 := by
  have hlt := UInt8.toNat_lt_size b
  rw [h] at hlt
  apply UInt8.toNat.inj
  rw [Nat.toUInt8, UInt8.toNat_ofNat_of_lt hlt, h]

theorem uint8_le_iff {a b : UInt8} : a ≤ b ↔ a.toNat ≤ b.toNat := .rfl

theorem uint8_lt_iff {a b : UInt8} : a < b ↔ a.toNat < b.toNat := .rfl

theorem uint8_eq_iff {a b : UInt8} : a = b ↔ a.toNat = b.toNat := ⟨congrArg _, UInt8.toNat.inj⟩

/-- A number written as base-64 digits, read back. -/
theorem div_mod_sixtyFour (a c : Nat) (hc : c < 64) : (a * 64 + c) / 64 = a ∧ (a * 64 + c) % 64 = c :=
  ⟨by rw [Nat.add_comm, Nat.add_mul_div_right _ _ (by decide), Nat.div_eq_of_lt hc, Nat.zero_add],
    by rw [Nat.add_comm, Nat.add_mul_mod_self_right, Nat.mod_eq_of_lt hc]⟩

/-! ## One lemma per width -/

theorem utf8Bytes_two {x₀ x₁ : Nat} (h₀ : 194 ≤ x₀ ∧ x₀ ≤ 223) (h₁ : 128 ≤ x₁ ∧ x₁ ≤ 191) :
    utf8Bytes (Char.ofNat (x₀ % 32 * 64 + x₁ % 64)) = [x₀.toUInt8, x₁.toUInt8] := by
  obtain ⟨c₀, rfl, hc₀⟩ : ∃ c, x₀ = 192 + c ∧ 2 ≤ c ∧ c < 32 := ⟨x₀ - 192, by omega, by omega⟩
  obtain ⟨c₁, rfl, hc₁⟩ : ∃ c, x₁ = 128 + c ∧ c < 64 := ⟨x₁ - 128, by omega, by omega⟩
  rw [show (192 + c₀) % 32 = c₀ by omega, show (128 + c₁) % 64 = c₁ by omega, utf8Bytes,
    toNat_ofNat_of_isValidChar (by omega), if_neg (by omega), if_pos (by omega),
    (div_mod_sixtyFour c₀ c₁ hc₁).1, (div_mod_sixtyFour c₀ c₁ hc₁).2]

/-- Three bytes: `hlo` and `hhi` are the decoder's checks against overlong
forms and surrogates. -/
theorem utf8Bytes_three {x₀ x₁ x₂ : Nat} (h₀ : 224 ≤ x₀ ∧ x₀ ≤ 239) (h₁ : 128 ≤ x₁ ∧ x₁ ≤ 191)
    (h₂ : 128 ≤ x₂ ∧ x₂ ≤ 191) (hlo : x₀ = 224 → 160 ≤ x₁) (hhi : x₀ = 237 → x₁ ≤ 159) :
    utf8Bytes (Char.ofNat (x₀ % 16 * 4096 + x₁ % 64 * 64 + x₂ % 64)) =
      [x₀.toUInt8, x₁.toUInt8, x₂.toUInt8] := by
  obtain ⟨c₀, rfl, hc₀⟩ : ∃ c, x₀ = 224 + c ∧ c < 16 := ⟨x₀ - 224, by omega, by omega⟩
  obtain ⟨c₁, rfl, hc₁⟩ : ∃ c, x₁ = 128 + c ∧ c < 64 := ⟨x₁ - 128, by omega, by omega⟩
  obtain ⟨c₂, rfl, hc₂⟩ : ∃ c, x₂ = 128 + c ∧ c < 64 := ⟨x₂ - 128, by omega, by omega⟩
  have hn : (224 + c₀) % 16 * 4096 + (128 + c₁) % 64 * 64 + (128 + c₂) % 64 =
      (c₀ * 64 + c₁) * 64 + c₂ := by
    omega
  rw [hn]
  clear hn
  rw [utf8Bytes, toNat_ofNat_of_isValidChar (by omega), if_neg (by omega), if_neg (by omega),
    if_pos (by omega), (div_mod_sixtyFour _ c₂ hc₂).1, (div_mod_sixtyFour _ c₂ hc₂).2,
    (div_mod_sixtyFour c₀ c₁ hc₁).1, (div_mod_sixtyFour c₀ c₁ hc₁).2]

/-- Four bytes: `hlo` and `hhi` are the decoder's checks against overlong
forms and code points past `U+10FFFF`. -/
theorem utf8Bytes_four {x₀ x₁ x₂ x₃ : Nat} (h₀ : 240 ≤ x₀ ∧ x₀ ≤ 244) (h₁ : 128 ≤ x₁ ∧ x₁ ≤ 191)
    (h₂ : 128 ≤ x₂ ∧ x₂ ≤ 191) (h₃ : 128 ≤ x₃ ∧ x₃ ≤ 191) (hlo : x₀ = 240 → 144 ≤ x₁)
    (hhi : x₀ = 244 → x₁ ≤ 143) :
    utf8Bytes (Char.ofNat (x₀ % 8 * 262144 + x₁ % 64 * 4096 + x₂ % 64 * 64 + x₃ % 64)) =
      [x₀.toUInt8, x₁.toUInt8, x₂.toUInt8, x₃.toUInt8] := by
  obtain ⟨c₀, rfl, hc₀⟩ : ∃ c, x₀ = 240 + c ∧ c ≤ 4 := ⟨x₀ - 240, by omega, by omega⟩
  obtain ⟨c₁, rfl, hc₁⟩ : ∃ c, x₁ = 128 + c ∧ c < 64 := ⟨x₁ - 128, by omega, by omega⟩
  obtain ⟨c₂, rfl, hc₂⟩ : ∃ c, x₂ = 128 + c ∧ c < 64 := ⟨x₂ - 128, by omega, by omega⟩
  obtain ⟨c₃, rfl, hc₃⟩ : ∃ c, x₃ = 128 + c ∧ c < 64 := ⟨x₃ - 128, by omega, by omega⟩
  have hn : (240 + c₀) % 8 * 262144 + (128 + c₁) % 64 * 4096 + (128 + c₂) % 64 * 64 +
      (128 + c₃) % 64 = ((c₀ * 64 + c₁) * 64 + c₂) * 64 + c₃ := by
    omega
  rw [hn]
  clear hn
  rw [utf8Bytes, toNat_ofNat_of_isValidChar (by omega), if_neg (by omega), if_neg (by omega),
    if_neg (by omega), (div_mod_sixtyFour _ c₃ hc₃).1, (div_mod_sixtyFour _ c₃ hc₃).2,
    (div_mod_sixtyFour _ c₂ hc₂).1, (div_mod_sixtyFour _ c₂ hc₂).2,
    (div_mod_sixtyFour c₀ c₁ hc₁).1, (div_mod_sixtyFour c₀ c₁ hc₁).2]

/-! ## The decoder inverted -/

/-- **What `decodeUtf8` accepts is the UTF-8 of what it returns.** One case
per branch of the decoder that accepts a character: its range checks are
the hypotheses of the width's lemma. -/
theorem decodeUtf8_eq_some {a : Bytes} : ∀ {cs}, decodeUtf8 a = some cs → a = cs.flatMap utf8Bytes := by
  induction a using decodeUtf8.induct with
  | case1 => rintro cs ⟨⟩; rfl
  | case2 b₀ bs h ih =>
    intro cs hcs
    rw [decodeUtf8.eq_def (_ :: _)] at hcs
    simp only [h, if_true] at hcs
    obtain ⟨cs', hcs', rfl⟩ := Option.map_eq_some'.1 hcs
    simp only [uint8_lt_iff, UInt8.reduceToNat] at h
    rw [List.flatMap_cons, ← ih hcs', utf8Bytes, toNat_ofNat_of_isValidChar (by omega), if_pos h,
      ← eq_toUInt8 rfl]
    rfl
  | case4 b₀ h0 b₁ bs h ih =>
    intro cs hcs
    rw [decodeUtf8.eq_def (_ :: _)] at hcs
    simp only [h0, h, if_true, if_false] at hcs
    obtain ⟨cs', hcs', rfl⟩ := Option.map_eq_some'.1 hcs
    simp only [Bool.and_eq_true, decide_eq_true_eq, isCont, uint8_le_iff, UInt8.reduceToNat] at h
    rw [List.flatMap_cons, ← ih hcs', utf8Bytes_two ⟨h.1.1, h.1.2⟩ h.2, ← eq_toUInt8 rfl,
      ← eq_toUInt8 rfl]
    rfl
  | case6 b₀ h0 b₁ h1 b₂ bs h ih =>
    intro cs hcs
    rw [decodeUtf8.eq_def (_ :: _)] at hcs
    simp only [h0, h1, h, if_true, if_false] at hcs
    obtain ⟨cs', hcs', rfl⟩ := Option.map_eq_some'.1 hcs
    simp only [Bool.and_eq_true, Bool.or_eq_true, decide_eq_true_eq, beq_iff_eq, isCont,
      uint8_le_iff, uint8_eq_iff, UInt8.reduceToNat] at h
    rw [List.flatMap_cons, ← ih hcs', utf8Bytes_three (by omega) (by omega) h.2 (by omega) (by omega),
      ← eq_toUInt8 rfl, ← eq_toUInt8 rfl, ← eq_toUInt8 rfl]
    rfl
  | case8 b₀ h0 b₁ h1 b₂ h2 b₃ bs h ih =>
    intro cs hcs
    rw [decodeUtf8.eq_def (_ :: _)] at hcs
    simp only [h0, h1, h2, h, if_true, if_false] at hcs
    obtain ⟨cs', hcs', rfl⟩ := Option.map_eq_some'.1 hcs
    simp only [Bool.and_eq_true, Bool.or_eq_true, decide_eq_true_eq, beq_iff_eq, isCont,
      uint8_le_iff, uint8_eq_iff, UInt8.reduceToNat] at h
    rw [List.flatMap_cons, ← ih hcs', utf8Bytes_four (by omega) (by omega) h.1.2 h.2 (by omega)
      (by omega), ← eq_toUInt8 rfl, ← eq_toUInt8 rfl, ← eq_toUInt8 rfl, ← eq_toUInt8 rfl]
    rfl
  | _ => intro cs hcs; simp [decodeUtf8, *] at hcs

/-- Two byte strings that decode to the same characters are the same. -/
theorem decodeUtf8_inj {a b : Bytes} {cs : List Char} (ha : decodeUtf8 a = some cs)
    (hb : decodeUtf8 b = some cs) : a = b :=
  (decodeUtf8_eq_some ha).trans (decodeUtf8_eq_some hb).symm

/-- A character of a decoded string: its bytes are among the input's. -/
theorem utf8Bytes_subset_of_mem {a : Bytes} {cs : List Char} (h : decodeUtf8 a = some cs) {c : Char}
    (hc : c ∈ cs) : ∀ b ∈ utf8Bytes c, b ∈ a := fun b hb => by
  rw [decodeUtf8_eq_some h]
  exact List.mem_flatMap.2 ⟨c, hc, hb⟩

/-! ## Text cut at ASCII bytes -/

section Ascii
variable {x : UInt8} (hx : x < 0x80)
include hx

/-- An ASCII byte is a character of its own. -/
theorem decodeUtf8_ascii_cons (rest : Bytes) :
    decodeUtf8 (x :: rest) = (decodeUtf8 rest).map (Char.ofNat x.toNat :: ·) := by
  rw [decodeUtf8.eq_def (_ :: _)]
  exact if_pos hx

/-- An ASCII byte completes no truncated character: bytes that are not
UTF-8 stay so whatever follows them from an ASCII byte on. -/
theorem decodeUtf8_append_ascii (b : Bytes) {a : Bytes} (ha : decodeUtf8 a = none) :
    decodeUtf8 (a ++ x :: b) = none := by
  have hx' : x.toNat < 128 := hx
  have hc : isCont x = false := by
    simp only [isCont, uint8_le_iff, show (0x80 : UInt8).toNat = 128 from rfl, Bool.and_eq_false_iff,
      decide_eq_false_iff_not]
    omega
  have h1 : ¬(128 : UInt8) ≤ x := by rw [uint8_le_iff, show (128 : UInt8).toNat = 128 from rfl]; omega
  have h2 : ¬(144 : UInt8) ≤ x := by rw [uint8_le_iff, show (144 : UInt8).toNat = 144 from rfl]; omega
  have h3 : ¬(160 : UInt8) ≤ x := by rw [uint8_le_iff, show (160 : UInt8).toNat = 160 from rfl]; omega
  induction a using decodeUtf8.induct with
  | case1 => simp [decodeUtf8] at ha
  | case2 b₀ bs h ih | case4 b₀ h0 _ bs h ih | case6 b₀ h0 _ _ _ bs h ih
  | case8 b₀ h0 _ _ _ _ _ bs h ih =>
    rw [decodeUtf8.eq_def (_ :: _)] at ha
    rw [List.cons_append, decodeUtf8.eq_def (_ :: _)]
    simp only [List.cons_append, *, Bool.false_eq_true, if_true, if_false, Option.map_eq_none']
      at ha ⊢
    exact ih ha
  | case3 b₀ h0 => rcases b with _ | ⟨y, _ | ⟨z, b⟩⟩ <;> simp [decodeUtf8, *]
  | case5 b₀ h0 b₁ h => rcases b with _ | ⟨y, b⟩ <;> simp [decodeUtf8, *]
  | case7 b₀ h0 b₁ h b₂ h' => simp [decodeUtf8, *]
  | case9 b₀ h0 b₁ h b₂ h' b₃ bs h'' => simp [decodeUtf8, *]

/-- **Text cut at an ASCII byte decodes piece by piece**: the part before
it, the byte's character, then the rest, and fails where a part fails. -/
theorem decodeUtf8_append_sep (a rest : Bytes) :
    decodeUtf8 (a ++ x :: rest) =
      (decodeUtf8 a).bind fun cs => (decodeUtf8 rest).map (cs ++ Char.ofNat x.toNat :: ·) := by
  cases ha : decodeUtf8 a with
  | none => exact decodeUtf8_append_ascii hx rest ha
  | some cs =>
    rw [decodeUtf8_append _ _ cs ha, decodeUtf8_ascii_cons hx, Option.map_map]
    rfl

/-- The character of an ASCII byte a string lacks is not in its text. -/
theorem ascii_not_mem_of_decodeUtf8 {a : Bytes} {cs : List Char} (h : decodeUtf8 a = some cs)
    (ha : x ∉ a) : Char.ofNat x.toNat ∉ cs := fun hc => by
  have hx' : x.toNat < 128 := hx
  refine ha (utf8Bytes_subset_of_mem h hc x ?_)
  rw [utf8Bytes, toNat_ofNat_of_isValidChar (by unfold Nat.isValidChar; omega), if_pos hx',
    ← eq_toUInt8 rfl]
  exact List.mem_singleton_self x

end Ascii

end SunwalkerBox
