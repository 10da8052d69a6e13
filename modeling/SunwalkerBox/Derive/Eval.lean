import SunwalkerBox.Derive.Macro
/-!
# Running the generated code

What the code `deriveObject` emits does with a value. The `Object` impls of
the field types and of `usize` are in the `multiprocessing` crate, not in
this repository: each is a `Codec`, a parameter of everything below, and
what the round trip needs of them is the hypothesis `Codec.RoundTrips`.

`serialize_self` appends bytes to a `Serializer`; `SerializeBody.run` gives
them. Each `s.serialize(..)` looks `s` up among the names in scope: the
match arm's `ref` bindings, in front of the method's parameter `s`. Where a
binding shadows the parameter, `s` is a field, whose own methods the model
does not know: the code does not type-check there, and the run is `none`.
`deserialize_self` reads from a `Deserializer`; `DeserializeBody.run` gives
the value and the bytes left, and `none` where it panics.
-/

namespace SunwalkerBox

/-- A type's `Object` impl as the generated code calls it: `serialize`
gives the bytes `serialize_self` appends, `deserialize` reads a value off
the front of the stream (`none` where it panics). -/
structure Codec (α : Type) where
  serialize : α → Bytes
  deserialize : Bytes → Option (α × Bytes)

/-- `deserialize` reads back a value satisfying `P` from what `serialize`
wrote of it, and consumes exactly those bytes. -/
def Codec.RoundTrips {α : Type} (c : Codec α) (P : α → Prop) : Prop :=
  ∀ a, P a → ∀ r, c.deserialize (c.serialize a ++ r) = some (a, r)

/-- A value of a derived type: the number of its variant (0 for a struct)
and the values of its fields, in declaration order. -/
structure Value (V : Type) where
  variant : Nat
  fields : List V

variable {Ty V : Type}

/-! ## Declarations and values -/

/-- The members of a struct or variant, in declaration order. -/
def Fields.members : Fields Ty → List Member
  | .named fs => fs.map fun f => .named f.1
  | .unnamed tys => (List.range tys.length).map .unnamed
  | .unit => []

/-- The field types, in declaration order. -/
def Fields.tys : Fields Ty → List Ty
  | .named fs => fs.map Prod.snd
  | .unnamed tys => tys
  | .unit => []

/-- The variants of a declaration; a struct is one, named after the type. -/
def DeriveInput.variants (input : DeriveInput Ty) : List (Variant Ty) :=
  match input.data with
  | .struct fields => [⟨input.ident, fields⟩]
  | .enum variants => variants
  | .union => []

/-- A value of the declared type: one of its variants, with a value of each
field's type. -/
def DeriveInput.HasValue (HasType : Ty → V → Prop) (input : DeriveInput Ty) (v : Value V) : Prop :=
  ∃ variant, input.variants[v.variant]? = some variant ∧
    List.Forall₂ HasType variant.fields.tys v.fields

/-- The names the fields of a named variant bind in its arm. -/
def Fields.names : Fields Ty → List String
  | .named fs => fs.map Prod.fst
  | _ => []

/-- No named variant of an enum has a field called `s`, whose `ref s` would
shadow the serializer `s` in the variant's arm. -/
def DeriveInput.Hygienic (input : DeriveInput Ty) : Prop :=
  match input.data with
  | .enum variants => ∀ v ∈ variants, "s" ∉ v.fields.names
  | _ => True

/-! ## `serialize_self` -/

/-- What a name in the body of `serialize_self` stands for: the serializer
`s`, or a field bound by a `ref` pattern. -/
inductive Binding (Ty V : Type)
  | serializer
  | ref (ty : Ty) (v : V)

/-- The fields of a value by member, with their types: what `self.#member`
reaches. -/
def Fields.self (fields : Fields Ty) (vs : List V) : List (Member × Ty × V) :=
  fields.members.zip (fields.tys.zip vs)

section Run

variable (codec : Ty → Codec V) (usize : Codec Nat)

/-- The bytes `s.serialize(arg)` writes, in scope `env` with fields `self`. -/
def Arg.run (env : List (String × Binding Ty V)) (self : List (Member × Ty × V)) :
    Arg → Option Bytes
  | .selfField m => (self.lookup m).map fun p => (codec p.1).serialize p.2
  | .binding x => match env.lookup x with
    | some (.ref ty v) => some ((codec ty).serialize v)
    | _ => none
  | .index i => some (usize.serialize i)

/-- `#recv.serialize(#arg);`: a call of the serializer's method only when
`recv` names the serializer. -/
def SerializeStmt.run (env : List (String × Binding Ty V)) (self : List (Member × Ty × V))
    (st : SerializeStmt) : Option Bytes :=
  match env.lookup st.recv with
  | some .serializer => st.arg.run codec usize env self
  | _ => none

/-- A block of statements, each appending to the serializer. -/
def runStmts (env : List (String × Binding Ty V)) (self : List (Member × Ty × V)) :
    List SerializeStmt → Option Bytes
  | [] => some []
  | st :: sts => do
    let b ← st.run codec usize env self
    let bs ← runStmts env self sts
    pure (b ++ bs)

/-- The bindings a `match self` pattern makes, against the fields `self`. -/
def Pat.bind (self : List (Member × Ty × V)) : Pat → Option (List (String × Binding Ty V))
  | .named refs => refs.mapM fun x => (self.lookup (.named x)).map fun p => (x, .ref p.1 p.2)
  | .unnamed refs => refs.enum.mapM fun a =>
      (self.lookup (.unnamed a.1)).map fun p => (a.2, .ref p.1 p.2)
  | .unit => some []

/-- `serialize_self(&self, s)` on `v`: the bytes written. An enum takes the
first arm whose path names `v`'s variant. -/
def SerializeBody.run (input : DeriveInput Ty) (v : Value V) : SerializeBody → Option Bytes
  | .stmts body => do
    let variant ← input.variants[v.variant]?
    runStmts codec usize [("s", .serializer)] (variant.fields.self v.fields) body
  | .matchSelf arms => do
    let variant ← input.variants[v.variant]?
    let arm ← arms.find? (·.variant == variant.ident)
    let binds ← arm.pat.bind (variant.fields.self v.fields)
    runStmts codec usize (binds ++ [("s", .serializer)]) [] arm.body

/-! ## `deserialize_self` -/

/-- `d.deserialize()` once for each of `tys`, in order. -/
def readFields : List Ty → Bytes → Option (List V × Bytes)
  | [], bytes => some ([], bytes)
  | ty :: tys, bytes => do
    let (v, rest) ← (codec ty).deserialize bytes
    let (vs, rest) ← readFields tys rest
    pure (v :: vs, rest)

/-- The fields of a constructor expression of a variant with `fields`:
initializers run in the order written, each at its field's type, and the
value is laid out by field name. -/
def CtorArgs.run (fields : Fields Ty) (bytes : Bytes) : CtorArgs → Option (List V × Bytes)
  | .named idents => match fields with
    | .named fs => do
      let tys ← idents.mapM fun x => fs.lookup x
      let (vs, rest) ← readFields codec tys bytes
      let vals ← fs.mapM fun f => (idents.zip vs).lookup f.1
      pure (vals, rest)
    | _ => none
  | .unnamed count => match fields with
    | .unnamed tys => if count = tys.length then readFields codec tys bytes else none
    | _ => none
  | .unit => match fields with
    | .unit => some ([], bytes)
    | _ => none

/-- The variant a constructor path names, with its number: `Self` is the
struct, `Self::#v` the enum's variant `v`. -/
def DeriveInput.resolve (input : DeriveInput Ty) : Option String → Option (Nat × Variant Ty)
  | none => match input.data with
    | .struct fields => some (0, ⟨input.ident, fields⟩)
    | _ => none
  | some x => match input.data with
    | .enum variants => variants.enum.find? (·.2.ident == x)
    | _ => none

/-- A constructor expression, evaluated. -/
def Ctor.run (input : DeriveInput Ty) (c : Ctor) (bytes : Bytes) : Option (Value V × Bytes) := do
  let (i, variant) ← input.resolve c.path
  let (vs, rest) ← c.args.run codec variant.fields bytes
  pure (⟨i, vs⟩, rest)

/-- `deserialize_self(d)` on the bytes of the stream: the value read and
the bytes left. A number with no arm is `panic!("Unexpected enum variant")`. -/
def DeserializeBody.run (input : DeriveInput Ty) (bytes : Bytes) :
    DeserializeBody → Option (Value V × Bytes)
  | .ctor c => c.run codec input bytes
  | .matchIndex arms => do
    let (i, rest) ← usize.deserialize bytes
    let arm ← arms.find? (·.1 == i)
    arm.2.run codec input rest

end Run

end SunwalkerBox
