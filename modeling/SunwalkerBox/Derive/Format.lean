import SunwalkerBox.Derive.Eval
/-!
# The wire format of a derived `Object`

What `serialize_self` and `deserialize_self` agree on, said without the
code the macro emits. A value is written as its variant number, a `usize`,
for an enum (nothing for a struct), then its fields in declaration order,
each through its type's impl (`encodeValue`); `readValue` reads that back,
and reads nothing for a number that names no variant.

The format round-trips where the field types' and `usize`'s impls do
(`readValue_encodeValue`), and reads only values of the declared type,
followed by a suffix of its input, where their impls read only values of
their types (`readValue_sound`). The generated code is shown to write and
read exactly this format in `Derive.Read` and `Derive.RoundTrip`.
-/

namespace SunwalkerBox

variable {Ty V : Type} (codec : Ty → Codec V) (usize : Codec Nat)

/-- The bytes of field values at their types, in order. -/
def encodeFields (tys : List Ty) (vs : List V) : Bytes :=
  (tys.zip vs).flatMap fun p => (codec p.1).serialize p.2

/-- The bytes of a value: an enum's variant number, then the fields; `none`
for a number that names no variant. -/
def encodeValue (input : DeriveInput Ty) (v : Value V) : Option Bytes := do
  let variant ← input.variants[v.variant]?
  let tag := (match input.data with
    | .enum _ => usize.serialize v.variant
    | _ => [])
  pure (tag ++ encodeFields codec variant.fields.tys v.fields)

/-- The value a declaration's bytes start with, and the bytes after it. -/
def readValue (input : DeriveInput Ty) (bytes : Bytes) : Option (Value V × Bytes) := do
  let (i, rest) ← (match input.data with
    | .enum _ => usize.deserialize bytes
    | _ => some (0, bytes))
  let variant ← input.variants[i]?
  let (vs, rest) ← readFields codec variant.fields.tys rest
  pure (⟨i, vs⟩, rest)

/-- `deserialize` reads only values satisfying `P`, and leaves a suffix of
the bytes it is handed. -/
def Codec.Sound {α : Type} (c : Codec α) (P : α → Prop) : Prop :=
  ∀ bytes a rest, c.deserialize bytes = some (a, rest) → P a ∧ rest <:+ bytes

variable {HasType : Ty → V → Prop}

/-! ## The fields -/

theorem readFields_encodeFields (hcodec : ∀ ty, (codec ty).RoundTrips (HasType ty)) {tys : List Ty}
    {vs : List V} (h : List.Forall₂ HasType tys vs) (r : Bytes) :
    readFields codec tys (encodeFields codec tys vs ++ r) = some (vs, r) := by
  induction h with
  | nil => rfl
  | cons hty _ ih =>
    simp only [encodeFields, List.zip_cons_cons, List.flatMap_cons, List.append_assoc] at ih ⊢
    simp [readFields, hcodec _ _ hty, ih]

theorem length_of_readFields {tys : List Ty} {bytes : Bytes} {vs : List V} {rest : Bytes}
    (h : readFields codec tys bytes = some (vs, rest)) : vs.length = tys.length := by
  induction tys generalizing bytes vs with
  | nil => cases h; rfl
  | cons ty tys ih =>
    obtain ⟨⟨v, r⟩, -, h⟩ := Option.bind_eq_some.1 h
    obtain ⟨⟨vs', r'⟩, hr, h⟩ := Option.bind_eq_some.1 h
    cases h
    simp [ih hr]

theorem readFields_sound (hcodec : ∀ ty, (codec ty).Sound (HasType ty)) {tys : List Ty} {bytes : Bytes}
    {vs : List V} {rest : Bytes} (h : readFields codec tys bytes = some (vs, rest)) :
    List.Forall₂ HasType tys vs ∧ rest <:+ bytes := by
  induction tys generalizing bytes vs with
  | nil => cases h; exact ⟨.nil, List.suffix_refl _⟩
  | cons ty tys ih =>
    obtain ⟨⟨v, r⟩, hv, h⟩ := Option.bind_eq_some.1 h
    obtain ⟨⟨vs', r'⟩, hr, h⟩ := Option.bind_eq_some.1 h
    cases h
    obtain ⟨hty, hsuf⟩ := hcodec ty _ _ _ hv
    obtain ⟨htys, hsuf'⟩ := ih hr
    exact ⟨.cons hty htys, hsuf'.trans hsuf⟩

/-! ## A value -/

/-- A struct has one variant, number 0, named after the type. -/
theorem eq_of_variants_struct {ident : String} {f : Fields Ty} {nodup : (Data.struct f).Nodup}
    {i : Nat} {variant : Variant Ty}
    (h : (⟨ident, .struct f, nodup⟩ : DeriveInput Ty).variants[i]? = some variant) :
    i = 0 ∧ variant = ⟨ident, f⟩ := by
  rcases i with _ | i <;> simp only [DeriveInput.variants, List.getElem?_cons_zero,
    List.getElem?_cons_succ, List.getElem?_nil, Option.some.injEq, reduceCtorEq] at h
  exact ⟨rfl, h.symm⟩

/-- **The format round-trips.** A value of the declared type is written,
and read back from its bytes followed by any `r`, leaving exactly `r`. -/
theorem readValue_encodeValue (hcodec : ∀ ty, (codec ty).RoundTrips (HasType ty))
    {input : DeriveInput Ty} (husize : usize.RoundTrips (· < input.variants.length)) {v : Value V}
    (hv : input.HasValue HasType v) (r : Bytes) :
    ∃ out, encodeValue codec usize input v = some out ∧
      readValue codec usize input (out ++ r) = some (v, r) := by
  obtain ⟨variant, hget, hty⟩ := hv
  obtain ⟨i, vs⟩ := v
  have hread := readFields_encodeFields codec hcodec hty r
  refine ⟨_, by simp only [encodeValue, hget, Option.bind_eq_bind, Option.some_bind]; rfl, ?_⟩
  obtain ⟨ident, data, nodup⟩ := input
  cases data with
  | struct f =>
    obtain ⟨rfl, rfl⟩ := eq_of_variants_struct hget
    simp [readValue, DeriveInput.variants, hread]
  | enum variants =>
    have hi : i < variants.length := (List.getElem?_eq_some_iff.1 hget).1
    simp only [DeriveInput.variants] at hget husize
    simp [readValue, DeriveInput.variants, List.append_assoc, husize i hi, hget, hread]
  | union => simp [DeriveInput.variants] at hget

/-- **The format reads only values of the declared type.** What `readValue`
reads is one of the declaration's variants with a value of each field's
type, followed by a suffix of its input. -/
theorem readValue_sound (hcodec : ∀ ty, (codec ty).Sound (HasType ty))
    (husize : usize.Sound fun _ => True) {input : DeriveInput Ty} {bytes : Bytes} {v : Value V}
    {rest : Bytes} (h : readValue codec usize input bytes = some (v, rest)) :
    input.HasValue HasType v ∧ rest <:+ bytes := by
  unfold readValue at h
  obtain ⟨⟨i, r⟩, hir, h⟩ := Option.bind_eq_some.1 h
  obtain ⟨variant, hget, h⟩ := Option.bind_eq_some.1 h
  obtain ⟨⟨vs, r'⟩, hread, h⟩ := Option.bind_eq_some.1 h
  cases h
  obtain ⟨htys, hsuf⟩ := readFields_sound codec hcodec hread
  have hr : r <:+ bytes := by
    split at hir
    · exact (husize _ _ _ hir).2
    · cases hir; exact List.suffix_refl _
  exact ⟨⟨variant, hget, htys⟩, hsuf.trans hr⟩

/-! ## `u8` -/

/-- `u8`: one byte. -/
def byteCodec : Codec Nat where
  serialize n := [n.toUInt8]
  deserialize
    | b :: rest => some (b.toNat, rest)
    | [] => none

theorem byteCodec_roundTrips : byteCodec.RoundTrips (· < 256) := fun n hn r => by
  simp [byteCodec, Nat.toUInt8, UInt8.toNat, UInt8.ofNat, Fin.ofNat, Nat.mod_eq_of_lt hn]

theorem byteCodec_sound : byteCodec.Sound (· < 256)
  | b :: r, _, _, h => by
    simp only [byteCodec, Option.some.injEq, Prod.mk.injEq] at h
    obtain ⟨rfl, rfl⟩ := h
    exact ⟨UInt8.toNat_lt_size b, List.suffix_cons b r⟩
  | [], _, _, h => by simp [byteCodec] at h

end SunwalkerBox
