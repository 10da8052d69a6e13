import SunwalkerBox.Basic
import Mathlib.Data.List.Nodup
import Mathlib.Data.Nat.Digits
/-!
# `#[derive(Object)]`

The `multiprocessing` crate sends values between processes through its
`Object` trait, and `multiprocessing-derive` writes the trait's
`serialize_self` and `deserialize_self` for a struct or an enum. The macro
is a small compiler: it reads the declaration as `syn` parses it
(`DeriveInput`) and emits code with `quote!` (`ObjectImpl`). `deriveObject`
is that translation, one case per shape the source distinguishes.

* A struct serializes its fields in declaration order, `s.serialize(&self.x)`
  or `s.serialize(&self.0)`, and deserializes into `Self { x: d.deserialize(), .. }`,
  `Self(d.deserialize(), ..)` or `Self`.
* An enum matches `self` with one arm per variant, binding the fields with
  `ref` patterns (a tuple variant's as `a0`, `a1`, ..), and writes the
  variant's number as a `usize` before the fields. Deserialization matches on
  a `usize` read first, and panics on a number with no variant.
* A union stops the macro at `unimplemented!()`.

Generics and where clauses are copied through untouched and are left out,
as are `deserialize_on_heap` and the `TransmissibleObject` impl, which only
forward to the two methods above.

The names the enum arms bind are the field names and `format_ident!("a{}", i)`.
`tupleBinding_injective` says the latter are distinct, which the arms need
for each `s.serialize(a{i})` to reach its own field.
-/

namespace SunwalkerBox

/-! ## What `syn` parses -/

/-- `syn::Member`: a field as `self.#member` names it. -/
inductive Member
  | named (ident : String)
  | unnamed (index : Nat)
deriving DecidableEq

/-- `syn::Fields`, over field types `Ty`. -/
inductive Fields (Ty : Type)
  | named (named : List (String × Ty))
  | unnamed (unnamed : List Ty)
  | unit

/-- `syn::Variant`. -/
structure Variant (Ty : Type) where
  ident : String
  fields : Fields Ty

/-- `syn::Data`. -/
inductive Data (Ty : Type)
  | struct (fields : Fields Ty)
  | enum (variants : List (Variant Ty))
  | union

variable {Ty : Type}

/-- The field names of a struct or a variant are distinct. -/
def Fields.Nodup : Fields Ty → Prop
  | .named fs => (fs.map Prod.fst).Nodup
  | _ => True

instance : DecidablePred (@Fields.Nodup Ty)
  | .named fs => inferInstanceAs (Decidable (fs.map Prod.fst).Nodup)
  | .unnamed _ => isTrue trivial
  | .unit => isTrue trivial

/-- The names a declaration binds are distinct, as rustc requires of it: the
variants of an enum, and the fields of each struct or variant. -/
def Data.Nodup : Data Ty → Prop
  | .struct fields => fields.Nodup
  | .enum variants => (variants.map Variant.ident).Nodup ∧ ∀ v ∈ variants, v.fields.Nodup
  | .union => True

instance : DecidablePred (@Data.Nodup Ty)
  | .struct fields => inferInstanceAs (Decidable fields.Nodup)
  | .enum variants =>
    inferInstanceAs (Decidable ((variants.map Variant.ident).Nodup ∧ ∀ v ∈ variants, v.fields.Nodup))
  | .union => isTrue trivial

/-- `syn::DeriveInput`, for a declaration rustc accepts. -/
structure DeriveInput (Ty : Type) where
  ident : String
  data : Data Ty
  nodup : data.Nodup

/-! ## What `quote!` emits -/

/-- What `s.serialize(..)` is handed: `&self.#member`, a binding of the
match arm, or `&(#i as usize)`. -/
inductive Arg
  | selfField (member : Member)
  | binding (ident : String)
  | index (i : Nat)

/-- The statement `#recv.serialize(#arg);`. -/
structure SerializeStmt where
  recv : String
  arg : Arg

/-- The pattern after `Self::#ident` in a `match self` arm:
`{ ref x, .. }`, `(ref a0, ..)`, or none. -/
inductive Pat
  | named (refs : List String)
  | unnamed (refs : List String)
  | unit

/-- An arm `Self::#variant #pat => { #body }` of `match self`. -/
structure SerializeArm where
  variant : String
  pat : Pat
  body : List SerializeStmt

/-- The body of `serialize_self`. -/
inductive SerializeBody
  | stmts (body : List SerializeStmt)
  | matchSelf (arms : List SerializeArm)

/-- The fields of a constructor expression, each `d.deserialize()`:
`{ x: d.deserialize(), .. }`, `(d.deserialize(), ..)` with `count` of them,
or none. -/
inductive CtorArgs
  | named (idents : List String)
  | unnamed (count : Nat)
  | unit

/-- A constructor expression: `Self` with `path = none`, `Self::#v` with
`path = some v`. -/
structure Ctor where
  path : Option String
  args : CtorArgs

/-- The body of `deserialize_self`: a constructor, or
`match d.deserialize::<usize>() { #i => .., _ => panic!(..) }`. -/
inductive DeserializeBody
  | ctor (c : Ctor)
  | matchIndex (arms : List (Nat × Ctor))

/-- The `Object` impl the macro writes. -/
structure ObjectImpl where
  serializeSelf : SerializeBody
  deserializeSelf : DeserializeBody

/-! ## The macro -/

/-- `serialize_fields` of a struct. -/
def serializeFields : Fields Ty → List SerializeStmt
  | .named fs => fs.map fun f => ⟨"s", .selfField (.named f.1)⟩
  | .unnamed tys => (List.range tys.length).map fun i => ⟨"s", .selfField (.unnamed i)⟩
  | .unit => []

/-- `deserialize_fields` of a struct; a variant's constructor has the same
fields after `Self::#ident`. -/
def deserializeFields : Fields Ty → CtorArgs
  | .named fs => .named (fs.map Prod.fst)
  | .unnamed tys => .unnamed tys.length
  | .unit => .unit

/-- `format_ident!("a{}", i)`: the binding of a tuple variant's field `i`. -/
def tupleBinding (i : Nat) : String := "a" ++ toString i

/-- The arm of `serialize_variants` for variant number `i`. -/
def serializeVariant (i : Nat) (variant : Variant Ty) : SerializeArm :=
  match variant.fields with
  | .named fs => ⟨variant.ident, .named (fs.map Prod.fst),
      ⟨"s", .index i⟩ :: fs.map fun f => ⟨"s", .binding f.1⟩⟩
  | .unnamed tys => ⟨variant.ident, .unnamed ((List.range tys.length).map tupleBinding),
      ⟨"s", .index i⟩ :: (List.range tys.length).map fun j => ⟨"s", .binding (tupleBinding j)⟩⟩
  | .unit => ⟨variant.ident, .unit, [⟨"s", .index i⟩]⟩

/-- The arm of `deserialize_variants` for variant number `i`. -/
def deserializeVariant (i : Nat) (variant : Variant Ty) : Nat × Ctor :=
  (i, ⟨some variant.ident, deserializeFields variant.fields⟩)

/-- `derive_object`: `none` for a union, where the macro stops at
`unimplemented!()`. -/
def deriveObject (input : DeriveInput Ty) : Option ObjectImpl :=
  match input.data with
  | .struct fields => some ⟨.stmts (serializeFields fields), .ctor ⟨none, deserializeFields fields⟩⟩
  | .enum variants => some ⟨.matchSelf (variants.enum.map fun p => serializeVariant p.1 p.2),
      .matchIndex (variants.enum.map fun p => deserializeVariant p.1 p.2)⟩
  | .union => none

/-! ## The generated names -/

/-- One decimal digit onto a number read so far. -/
def decimalStep (n : Nat) (c : Char) : Nat := 10 * n + (c.toNat - 48)

theorem digitChar_toNat : ∀ d < 10, (Nat.digitChar d).toNat - 48 = d := by decide

theorem digitChar_isDigit : ∀ d < 10, (Nat.digitChar d).isDigit := by decide

/-- `Nat.toDigitsCore` puts the digits of `n` in front of `ds`: decimal
digits, which read back as `n`. -/
theorem toDigitsCore_ten (fuel n : Nat) (ds : List Char) (hn : n < fuel) :
    ∃ pre, Nat.toDigitsCore 10 fuel n ds = pre ++ ds ∧ (∀ c ∈ pre, c.isDigit) ∧
      ∀ a, pre.foldl decimalStep a = 10 ^ pre.length * a + n := by
  induction fuel generalizing n ds with
  | zero => omega
  | succ fuel ih =>
    have hlt : n % 10 < 10 := Nat.mod_lt _ (by omega)
    have hd := digitChar_toNat (n % 10) hlt
    rw [Nat.toDigitsCore]
    by_cases h0 : n / 10 = 0
    · refine ⟨[Nat.digitChar (n % 10)], by simp [h0], by simp [digitChar_isDigit _ hlt], fun a => ?_⟩
      simp only [List.foldl, decimalStep, hd, List.length_singleton, Nat.pow_one]
      omega
    · obtain ⟨pre, hpre, hdig, hval⟩ := ih (n / 10) (Nat.digitChar (n % 10) :: ds) (by omega)
      refine ⟨pre ++ [Nat.digitChar (n % 10)], by simp [h0, hpre], ?_, fun a => ?_⟩
      · intro c hc
        rcases List.mem_append.1 hc with hc | hc
        · exact hdig c hc
        · rw [List.mem_singleton.1 hc]; exact digitChar_isDigit _ hlt
      rw [List.foldl_append, hval, List.foldl, List.foldl, decimalStep, hd, List.length_append,
        List.length_singleton, Nat.pow_succ]
      have := Nat.div_add_mod n 10
      rw [Nat.mul_add, ← Nat.mul_assoc, Nat.mul_comm 10 (10 ^ pre.length)]
      omega

theorem toString_eq_toDigits (n : Nat) : (toString n).data = Nat.toDigits 10 n := by
  simp [toString, Nat.repr, List.asString]

theorem foldl_decimalStep_toDigits (n : Nat) : (Nat.toDigits 10 n).foldl decimalStep 0 = n := by
  obtain ⟨pre, hpre, -, hval⟩ := toDigitsCore_ten (n + 1) n [] (by omega)
  rw [Nat.toDigits, hpre, List.append_nil, hval]
  simp

/-- A number prints as decimal digits. -/
theorem isDigit_of_mem_toString {n : Nat} {c : Char} (h : c ∈ (toString n).data) : c.isDigit := by
  obtain ⟨pre, hpre, hdig, -⟩ := toDigitsCore_ten (n + 1) n [] (by omega)
  rw [toString_eq_toDigits, Nat.toDigits, hpre, List.append_nil] at h
  exact hdig c h

/-- **Names `{p}{i}` for distinct `i` are distinct**, as `format_ident!`
writes them. -/
theorem append_toString_injective (p : String) : Function.Injective fun i : Nat => p ++ toString i := by
  intro i j h
  have h' : Nat.toDigits 10 i = Nat.toDigits 10 j := by
    rw [← toString_eq_toDigits, ← toString_eq_toDigits, string_append_left_cancel_iff.1 h]
  rw [← foldl_decimalStep_toDigits i, ← foldl_decimalStep_toDigits j, h']

/-- **The tuple bindings are distinct.** -/
theorem tupleBinding_injective : Function.Injective tupleBinding := append_toString_injective "a"

theorem tupleBinding_ne_s (i : Nat) : tupleBinding i ≠ "s" := fun h => by
  simpa [tupleBinding, toString, Nat.repr, List.asString] using congrArg String.data h

end SunwalkerBox
