import SunwalkerBox.Derive.Read
/-!
# The round trip of `#[derive(Object)]`

`serializeSelf_eq_encodeValue`: for every declaration the macro accepts in
which no named variant has a field `s`, and every value of it, the
`serialize_self` it emits writes the format of `Derive.Format`. A struct
writes its fields in declaration order through `self.#member`
(`runStmts_serializeFields`); an enum's arm writes the variant number, then
the fields through the names its pattern binds (`runArm_serializeVariant`).
With `deserializeSelf_eq_readValue` and the format's own round trip, this is
`deserializeSelf_serializeSelf`: `deserialize_self` reads back what
`serialize_self` wrote, with anything after it left unread. What it assumes
of the rest of the crate is that each field type's `Object` impl
round-trips, and `usize`'s on the variant numbers. It follows that the
bytes lose nothing and delimit themselves (`serializeSelf_unambiguous`): two
values whose bytes start one stream are the same.

Where a named variant has a field `s`, the arm calls the field instead of
the serializer, and the code does not type-check (`serializeSelf_shadowed`).
-/

namespace SunwalkerBox

variable {Ty V : Type} (codec : Ty → Codec V) (usize : Codec Nat)

theorem runStmts_map {α : Type} (env : List (String × Binding Ty V)) (self : List (Member × Ty × V))
    (xs : List α) (mk : α → SerializeStmt) (enc : α → Bytes)
    (h : ∀ x ∈ xs, (mk x).run codec usize env self = some (enc x)) :
    runStmts codec usize env self (xs.map mk) = some (xs.flatMap enc) := by
  induction xs with
  | nil => rfl
  | cons x xs ih =>
    rw [List.forall_mem_cons] at h
    simp [runStmts, h.1, ih h.2]

variable {HasType : Ty → V → Prop}

/-! ## The fields of a value -/

/-- The fields of a value of a struct or variant, each with the name an
enum arm binds it to, its member, its type and its value. -/
def Fields.entries : Fields Ty → List V → List (String × Member × Ty × V)
  | .named fs, vs => (fs.zip vs).map fun e => (e.1.1, .named e.1.1, e.1.2, e.2)
  | .unnamed tys, vs => (tys.zip vs).enum.map fun e => (tupleBinding e.1, .unnamed e.1, e.2.1, e.2.2)
  | .unit, _ => []

section Entries

variable {f : Fields Ty} {vs : List V}

theorem Fields.self_eq : f.self vs = (f.entries vs).map (·.2) := by
  cases f
  case unit => rfl
  all_goals
    refine List.ext_getElem ?_ fun n _ _ => ?_
    · simp only [Fields.self, Fields.members, Fields.tys, Fields.entries, List.length_zip, List.length_map,
        List.enum_length, List.length_range]
      omega
    · simp [Fields.self, Fields.members, Fields.tys, Fields.entries]

/-- The names an enum arm binds the fields to. -/
def Fields.binders : Fields Ty → List String
  | .named fs => fs.map Prod.fst
  | .unnamed tys => (List.range tys.length).map tupleBinding
  | .unit => []

theorem Fields.map_entries_binder (hlen : f.tys.length = vs.length) :
    (f.entries vs).map (·.1) = f.binders := by
  cases f
  case unit => rfl
  all_goals
    simp only [Fields.tys, List.length_map] at hlen
    refine List.ext_getElem ?_ fun n _ _ => ?_ <;> simp [Fields.entries, Fields.binders, hlen]

theorem Fields.map_entries_member (hlen : f.tys.length = vs.length) :
    (f.entries vs).map (·.2.1) = f.members := by
  cases f
  case unit => rfl
  all_goals
    simp only [Fields.tys, List.length_map] at hlen
    refine List.ext_getElem ?_ fun n _ _ => ?_ <;> simp [Fields.entries, Fields.members, hlen]

theorem Fields.nodup_binders (hf : f.Nodup) : f.binders.Nodup := by
  cases f with
  | named fs => exact hf
  | unnamed tys => exact (List.nodup_range _).map tupleBinding_injective
  | unit => exact List.nodup_nil

theorem Fields.nodup_members (hf : f.Nodup) : f.members.Nodup := by
  cases f with
  | named fs => simpa [Fields.members, List.map_map, Function.comp_def] using hf.map fun _ _ => Member.named.inj
  | unnamed tys => exact (List.nodup_range _).map fun _ _ => Member.unnamed.inj
  | unit => exact List.nodup_nil

theorem Fields.map_entries_field : (f.entries vs).map (·.2.2) = f.tys.zip vs := by
  cases f
  case unit => rfl
  all_goals
    refine List.ext_getElem ?_ fun n _ _ => ?_ <;> simp [Fields.entries, Fields.tys]

theorem Fields.flatMap_entries :
    (f.entries vs).flatMap (fun e => (codec e.2.2.1).serialize e.2.2.2) = encodeFields codec f.tys vs := by
  rw [encodeFields, ← f.map_entries_field, List.flatMap_map]

theorem Fields.nodup_self (hf : f.Nodup) (hlen : f.tys.length = vs.length) :
    ((f.self vs).map Prod.fst).Nodup := by
  rw [f.self_eq, List.map_map]
  exact (f.map_entries_member hlen).symm ▸ f.nodup_members hf

theorem Fields.lookup_self (hf : f.Nodup) (hlen : f.tys.length = vs.length) {e : String × Member × Ty × V}
    (he : e ∈ f.entries vs) : (f.self vs).lookup e.2.1 = some e.2.2 :=
  lookup_of_mem (f.nodup_self hf hlen) (f.self_eq ▸ List.mem_map_of_mem _ he)

end Entries

/-! ## A struct -/

theorem serializeFields_eq (f : Fields Ty) :
    serializeFields f = f.members.map fun m => ⟨"s", .selfField m⟩ := by
  cases f <;> simp [serializeFields, Fields.members, List.map_map, Function.comp_def]

/-- **A struct writes its fields in declaration order.** -/
theorem runStmts_serializeFields {f : Fields Ty} (hf : f.Nodup) {vs : List V}
    (hlen : f.tys.length = vs.length) :
    runStmts codec usize [("s", .serializer)] (f.self vs) (serializeFields f) =
      some (encodeFields codec f.tys vs) := by
  rw [serializeFields_eq, ← f.map_entries_member hlen, List.map_map, ← f.flatMap_entries codec]
  exact runStmts_map codec usize _ _ _ _ _ fun e he => by
    simp [SerializeStmt.run, Arg.run, f.lookup_self hf hlen he]

/-! ## An enum -/

section Variants

variable {variants : List (Variant Ty)} {i : Nat} {variant : Variant Ty}

theorem serializeVariant_variant (i : Nat) (variant : Variant Ty) :
    (serializeVariant i variant).variant = variant.ident := by
  unfold serializeVariant
  split <;> rfl

theorem find?_serializeVariant (hnd : (variants.map Variant.ident).Nodup)
    (hi : variants[i]? = some variant) :
    (variants.enum.map fun p => serializeVariant p.1 p.2).find? (·.variant == variant.ident) =
      some (serializeVariant i variant) := by
  rw [List.find?_map]
  simp only [Function.comp_def, serializeVariant_variant, find?_enum_ident hnd hi, Option.map_some']

end Variants

/-- The bindings an arm makes for the fields `E`. -/
def armBindings (E : List (String × Member × Ty × V)) : List (String × Binding Ty V) :=
  E.map fun e => (e.1, .ref e.2.2.1 e.2.2.2)

/-- **An arm writes the variant number, then each field through its
binding**, as long as no binding is called `s`. -/
theorem runStmts_arm (E : List (String × Member × Ty × V)) (hnd : (E.map (·.1)).Nodup)
    (hs : "s" ∉ E.map (·.1)) (i : Nat) :
    runStmts codec usize (armBindings E ++ [("s", .serializer)]) []
        (⟨"s", .index i⟩ :: E.map fun e => ⟨"s", .binding e.1⟩) =
      some (usize.serialize i ++ E.flatMap fun e => (codec e.2.2.1).serialize e.2.2.2) := by
  have hkeys : ((armBindings E).map Prod.fst).Nodup := by
    simpa [armBindings, List.map_map, Function.comp_def] using hnd
  have hser : (armBindings E ++ [("s", Binding.serializer)]).lookup "s" = some .serializer := by
    have : (armBindings E).lookup "s" = none := List.lookup_eq_none_iff.2 fun p hp => by
      simp only [armBindings, List.mem_map] at hp
      obtain ⟨e, he, rfl⟩ := hp
      exact bne_iff_ne.2 fun h => hs (h ▸ List.mem_map_of_mem _ he)
    rw [List.lookup_append, this]
    rfl
  have hfield : ∀ e ∈ E, SerializeStmt.run codec usize (armBindings E ++ [("s", .serializer)]) []
      ⟨"s", .binding e.1⟩ = some ((codec e.2.2.1).serialize e.2.2.2) := fun e he => by
    have : (armBindings E).lookup e.1 = some (.ref e.2.2.1 e.2.2.2) :=
      lookup_of_mem hkeys (List.mem_map_of_mem (fun e => (e.1, Binding.ref e.2.2.1 e.2.2.2)) he)
    simp [SerializeStmt.run, hser, Arg.run, List.lookup_append, this]
  simp [runStmts, SerializeStmt.run, hser, Arg.run, runStmts_map codec usize _ _ E _ _ hfield]

section Arm

variable {f : Fields Ty} {vs : List V}

theorem body_serializeVariant (i : Nat) (x : String) (hlen : f.tys.length = vs.length) :
    (serializeVariant i ⟨x, f⟩).body = ⟨"s", .index i⟩ :: (f.entries vs).map fun e => ⟨"s", .binding e.1⟩ := by
  have : ((f.entries vs).map fun e => (⟨"s", .binding e.1⟩ : SerializeStmt)) =
      f.binders.map fun b => ⟨"s", .binding b⟩ := by
    rw [← f.map_entries_binder hlen, List.map_map]
    rfl
  rw [this]
  cases f <;> simp [serializeVariant, Fields.binders, List.map_map, Function.comp_def]

theorem bind_serializeVariant (i : Nat) (x : String) (hf : f.Nodup) (hlen : f.tys.length = vs.length) :
    (serializeVariant i ⟨x, f⟩).pat.bind (f.self vs) = some (armBindings (f.entries vs)) := by
  cases f with
  | named fs =>
    have hrefs : fs.map Prod.fst = ((Fields.named fs).entries vs).map (·.1) :=
      (Fields.map_entries_binder hlen).symm
    simp only [serializeVariant, Pat.bind, armBindings]
    rw [hrefs]
    refine mapM_map_eq_some fun e he => ?_
    obtain ⟨p, -, rfl⟩ := List.mem_map.1 he
    simp [Fields.lookup_self hf hlen he]
  | unnamed tys =>
    have hlen' : tys.length = vs.length := hlen
    have hrefs : ((List.range tys.length).map tupleBinding).enum =
        (tys.zip vs).enum.map fun e => (e.1, tupleBinding e.1) :=
      List.ext_getElem (by simp [hlen']) fun n _ _ => by simp
    simp only [serializeVariant, Pat.bind, armBindings]
    rw [hrefs]
    refine (mapM_map_eq_some fun e he => ?_).trans (by rw [Fields.entries, List.map_map])
    have hmem : (tupleBinding e.1, Member.unnamed e.1, e.2.1, e.2.2) ∈ (Fields.unnamed tys).entries vs :=
      List.mem_map_of_mem _ he
    simp [Fields.lookup_self hf hlen hmem]
  | unit => rfl

theorem Fields.s_not_mem_binders (hs : "s" ∉ f.names) : "s" ∉ f.binders := by
  cases f with
  | named fs => exact hs
  | unnamed tys =>
    simp only [Fields.binders, List.mem_map, not_exists, not_and]
    exact fun j _ => tupleBinding_ne_s j
  | unit => exact List.not_mem_nil _

/-- **The arm of a variant writes its number, then its fields.** -/
theorem runArm_serializeVariant (i : Nat) (x : String) (hf : f.Nodup) (hs : "s" ∉ f.names)
    (hlen : f.tys.length = vs.length) :
    ((serializeVariant i ⟨x, f⟩).pat.bind (f.self vs)).bind
        (fun binds => runStmts codec usize (binds ++ [("s", .serializer)]) []
          (serializeVariant i ⟨x, f⟩).body) =
      some (usize.serialize i ++ encodeFields codec f.tys vs) := by
  rw [bind_serializeVariant i x hf hlen, Option.some_bind, body_serializeVariant i x hlen,
    runStmts_arm codec usize _ (f.map_entries_binder hlen ▸ f.nodup_binders hf)
      (f.map_entries_binder hlen ▸ f.s_not_mem_binders hs), f.flatMap_entries]

end Arm

/-! ## The round trip -/

/-- **The generated `serialize_self` writes the format.** For every
declaration the macro accepts in which no named variant has a field `s`,
and every value of it, it writes what `encodeValue` writes. -/
theorem serializeSelf_eq_encodeValue {HasType : Ty → V → Prop} (input : DeriveInput Ty)
    (impl : ObjectImpl) (himpl : deriveObject input = some impl) (hyg : input.Hygienic)
    {v : Value V} (hv : input.HasValue HasType v) :
    impl.serializeSelf.run codec usize input v = encodeValue codec usize input v := by
  obtain ⟨variant, hget, hty⟩ := hv
  obtain ⟨i, vs⟩ := v
  obtain ⟨ident, data, nodup⟩ := input
  cases data with
  | struct f =>
    simp only [deriveObject, Option.some.injEq] at himpl
    subst himpl
    obtain ⟨rfl, rfl⟩ := eq_of_variants_struct hget
    simp [SerializeBody.run, encodeValue, hget, runStmts_serializeFields codec usize nodup hty.length_eq]
  | enum variants =>
    simp only [deriveObject, Option.some.injEq] at himpl
    subst himpl
    have hmem : variant ∈ variants := List.getElem?_mem hget
    obtain ⟨x, f⟩ := variant
    simp only [SerializeBody.run, encodeValue, DeriveInput.variants] at hget ⊢
    simp only [hget, Option.bind_eq_bind, Option.some_bind, find?_serializeVariant nodup.1 hget]
    exact runArm_serializeVariant codec usize i x (nodup.2 _ hmem) (hyg _ hmem) hty.length_eq
  | union => simp [deriveObject] at himpl

/-- **`deserialize_self` inverts `serialize_self`.** For every declaration
the macro accepts, every value of it and every trailing bytes `r`,
`serialize_self` writes some bytes, and `deserialize_self` reads the value
back from them followed by `r`, leaving exactly `r`. -/
theorem deserializeSelf_serializeSelf (input : DeriveInput Ty) (impl : ObjectImpl)
    (himpl : deriveObject input = some impl) (hyg : input.Hygienic)
    (hcodec : ∀ ty, (codec ty).RoundTrips (HasType ty))
    (husize : usize.RoundTrips (· < input.variants.length))
    (v : Value V) (hv : input.HasValue HasType v) (r : Bytes) :
    ∃ out, impl.serializeSelf.run codec usize input v = some out ∧
      impl.deserializeSelf.run codec usize input (out ++ r) = some (v, r) := by
  obtain ⟨out, henc, hread⟩ := readValue_encodeValue codec usize hcodec husize hv r
  exact ⟨out, (serializeSelf_eq_encodeValue codec usize input impl himpl hyg hv).trans henc,
    (deserializeSelf_eq_readValue codec usize input impl himpl _).trans hread⟩

/-- `Message::Data { len: 3, tag: 7 }` comes back, with a trailing byte left,
when `u8` and `usize` are written as one byte. -/
theorem message_roundTrip :
    ∃ impl, deriveObject message = some impl ∧
      ∃ out, impl.serializeSelf.run (fun _ => byteCodec) byteCodec message ⟨0, [3, 7]⟩ = some out ∧
        impl.deserializeSelf.run (fun _ => byteCodec) byteCodec message (out ++ [9]) =
          some (⟨0, [3, 7]⟩, [9]) :=
  ⟨_, rfl, deserializeSelf_serializeSelf (fun _ => byteCodec) byteCodec
    message _ rfl (by simp [DeriveInput.Hygienic, message, Fields.names])
    (fun _ => byteCodec_roundTrips)
    (fun n hn r => byteCodec_roundTrips n (by simp [message, DeriveInput.variants] at hn; omega) r)
    ⟨0, [3, 7]⟩ ⟨_, rfl, by simp [Fields.tys, message, DeriveInput.variants]⟩ [9]⟩

example : (deriveObject message).bind (fun impl =>
    impl.serializeSelf.run (fun _ => byteCodec) byteCodec message ⟨1, [5]⟩) = some [1, 5] := rfl

/-! ## The format is self-delimiting -/

/-- What `serialize_self` writes of a value of the declared type, followed by
any `r`, is read back as that value, leaving `r`. -/
theorem readValue_of_serializeSelf (input : DeriveInput Ty) (impl : ObjectImpl)
    (himpl : deriveObject input = some impl) (hyg : input.Hygienic)
    (hcodec : ∀ ty, (codec ty).RoundTrips (HasType ty))
    (husize : usize.RoundTrips (· < input.variants.length)) {v : Value V}
    (hv : input.HasValue HasType v) {out : Bytes} (hout : impl.serializeSelf.run codec usize input v = some out)
    (r : Bytes) : readValue codec usize input (out ++ r) = some (v, r) := by
  obtain ⟨out', henc, hread⟩ := readValue_encodeValue codec usize hcodec husize hv r
  rw [serializeSelf_eq_encodeValue codec usize input impl himpl hyg hv, henc] at hout
  cases hout
  exact hread

/-- **`serialize_self` is lossless and self-delimiting.** For every
declaration the macro accepts in which no named variant has a field `s`,
two values of it whose bytes, each followed by more, make the same stream
are the same value with the same bytes after it: no value's bytes are a
proper prefix of another's, and values written back to back are read
apart one way only. -/
theorem serializeSelf_unambiguous (input : DeriveInput Ty) (impl : ObjectImpl)
    (himpl : deriveObject input = some impl) (hyg : input.Hygienic)
    (hcodec : ∀ ty, (codec ty).RoundTrips (HasType ty))
    (husize : usize.RoundTrips (· < input.variants.length)) (v₁ v₂ : Value V)
    (hv₁ : input.HasValue HasType v₁) (hv₂ : input.HasValue HasType v₂) {out₁ out₂ r₁ r₂ : Bytes}
    (h₁ : impl.serializeSelf.run codec usize input v₁ = some out₁)
    (h₂ : impl.serializeSelf.run codec usize input v₂ = some out₂) (h : out₁ ++ r₁ = out₂ ++ r₂) :
    v₁ = v₂ ∧ r₁ = r₂ := by
  have e := readValue_of_serializeSelf codec usize input impl himpl hyg hcodec husize hv₁ h₁ r₁
  rw [h, readValue_of_serializeSelf codec usize input impl himpl hyg hcodec husize hv₂ h₂ r₂] at e
  obtain ⟨rfl, rfl⟩ := Prod.mk.inj (Option.some.inj e)
  exact ⟨rfl, rfl⟩

/-- `Message::Data { len: 3, tag: 7 }` is read off the front of
`[0, 3, 7, 1, 5]` one way only. -/
theorem message_unambiguous :
    ∃ impl, deriveObject message = some impl ∧
      impl.serializeSelf.run (fun _ => byteCodec) byteCodec message ⟨0, [3, 7]⟩ = some [0, 3, 7] ∧
        ((⟨0, [3, 7]⟩ : Value Nat) = ⟨0, [3, 7]⟩ ∧ ([1, 5] : Bytes) = [1, 5]) :=
  ⟨_, rfl, rfl, serializeSelf_unambiguous (fun _ => byteCodec) byteCodec message _ rfl
    (by simp [DeriveInput.Hygienic, message, Fields.names]) (fun _ => byteCodec_roundTrips)
    (fun n hn r => byteCodec_roundTrips n (by simp [message, DeriveInput.variants] at hn; omega) r)
    ⟨0, [3, 7]⟩ ⟨0, [3, 7]⟩ ⟨_, rfl, by simp [Fields.tys, message, DeriveInput.variants]⟩
    ⟨_, rfl, by simp [Fields.tys, message, DeriveInput.variants]⟩ rfl rfl rfl⟩

/-! ## A field called `s` -/

theorem Fields.s_mem_binders {f : Fields Ty} (hs : "s" ∈ f.names) : "s" ∈ f.binders := by
  cases f with
  | named fs => exact hs
  | _ => simp [Fields.names] at hs

/-- **A field called `s` shadows the serializer.** In the arm of a named
variant with a field `s`, `s.serialize(..)` calls a method of that field:
the generated code does not type-check, and no value of the variant
serializes. -/
theorem serializeSelf_shadowed {input : DeriveInput Ty} {variants : List (Variant Ty)}
    (hdata : input.data = .enum variants) {impl : ObjectImpl} (himpl : deriveObject input = some impl)
    {v : Value V} {x : String} {f : Fields Ty} (hget : variants[v.variant]? = some ⟨x, f⟩)
    (hlen : f.tys.length = v.fields.length) (hs : "s" ∈ f.names) :
    impl.serializeSelf.run codec usize input v = none := by
  obtain ⟨ident, data, nodup⟩ := input
  obtain rfl : data = .enum variants := hdata
  simp only [deriveObject, Option.some.injEq] at himpl
  subst himpl
  have hf : f.Nodup := nodup.2 _ (List.getElem?_mem hget)
  have hb : "s" ∈ (f.entries v.fields).map (·.1) := (f.map_entries_binder hlen).symm ▸ f.s_mem_binders hs
  obtain ⟨e, he, hes⟩ := List.mem_map.1 hb
  have hkeys : ((armBindings (f.entries v.fields)).map Prod.fst).Nodup := by
    simpa [armBindings, List.map_map, Function.comp_def] using
      (f.map_entries_binder hlen).symm ▸ f.nodup_binders hf
  have hlookup : (armBindings (f.entries v.fields)).lookup "s" = some (.ref e.2.2.1 e.2.2.2) :=
    lookup_of_mem hkeys (hes ▸ List.mem_map_of_mem (fun e => (e.1, Binding.ref e.2.2.1 e.2.2.2)) he)
  simp only [SerializeBody.run, DeriveInput.variants, hget, Option.bind_eq_bind, Option.some_bind,
    find?_serializeVariant nodup.1 hget, bind_serializeVariant _ x hf hlen, body_serializeVariant _ x hlen]
  simp [runStmts, SerializeStmt.run, List.lookup_append, hlookup]

/-- `enum Shadowed { V { s: u8 } }`. -/
def shadowed : DeriveInput Unit := ⟨"Shadowed", .enum [⟨"V", .named [("s", ())]⟩], by decide⟩

/-- `Shadowed::V { s: 1 }` does not serialize. -/
theorem shadowed_serializeSelf :
    ∃ impl, deriveObject shadowed = some impl ∧
      impl.serializeSelf.run (fun _ => byteCodec) byteCodec shadowed ⟨0, [1]⟩ = none :=
  ⟨_, rfl, serializeSelf_shadowed (fun _ => byteCodec) byteCodec (rfl : shadowed.data = _) rfl rfl rfl
    (by decide)⟩

end SunwalkerBox
