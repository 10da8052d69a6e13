import SunwalkerBox.Path.ResolveAbs
/-!
# What the resolver has checked

`resolve_abs` hands its result to the kernel, which will follow any symlink
on the way. The resolver is only sound if it asked `read_link` about every
directory of the result that it did not inherit from its seed. `Checked`
says so of an accumulator: each of its prefixes that ends at a segment
boundary and is longer than the root is a boundary prefix of the seed, or a
path on which `read_link` reports no symlink.

Every arm of the loop keeps `Checked`: `RootDir` cuts to the root, which has
no such prefixes; `ParentDir` cuts before a `/`, which keeps only boundary
prefixes of the old accumulator; a `Normal` part that is no symlink adds one
boundary prefix, the one `read_link` just declined; and a symlink's target
is resolved from the accumulator as it was. `resolveAbs_checked` is the
result, for every oracle, path, seed and level.
-/

namespace SunwalkerBox

/-- Every boundary prefix of `acc` longer than the root is one of `seed`, or
no symlink. -/
def Checked (readLink : Bytes → Option (List Component)) (root seed acc : Bytes) : Prop :=
  ∀ q, IsBoundaryPrefix q acc → root.length < q.length → IsBoundaryPrefix q seed ∨ readLink q = none

variable {readLink : Bytes → Option (List Component)} {root seed acc : Bytes}

namespace Checked

theorem seed_self : Checked readLink root seed seed :=
  fun _ hq _ => .inl hq

theorem take_root : Checked readLink root seed (acc.take root.length) :=
  fun _ hq hl => absurd (hq.isPrefix.length_le.trans (List.length_take_le _ _)) (by omega)

theorem take_of_sep {i : Nat} (h : Checked readLink root seed acc)
    (hi : acc.take i ++ [sep] <+: acc) : Checked readLink root seed (acc.take i) :=
  fun q hq hl => h q (.inr (hq.append_sep_of_take hi)) hl

theorem push {p : Bytes} (h : Checked readLink root seed acc) (hp : sep ∉ p)
    (hl : readLink (acc ++ sep :: p) = none) : Checked readLink root seed (acc ++ sep :: p) := by
  intro q hq hlen
  rcases hq.of_push hp with rfl | hq
  · exact .inr hl
  · exact h q hq hlen

end Checked

/-- One component keeps `Checked`, if the nested resolution does. -/
theorem resolveComponent_checked {recur : List Component → Bytes → Except Failure Bytes}
    (hrec : ∀ t a r, Checked readLink root seed a → recur t a = .ok r → Checked readLink root seed r)
    {r : Bytes} (c : Component) (hacc : Checked readLink root seed acc)
    (h : resolveComponent readLink root recur acc c = .ok r) : Checked readLink root seed r := by
  cases c with
  | rootDir => cases h; exact Checked.take_root
  | curDir => cases h; exact hacc
  | parentDir =>
    simp only [resolveComponent] at h
    split at h
    · split at h
      · cases h; exact hacc.take_of_sep (take_rposition_sep ‹_›)
      · cases h
    · cases h; exact hacc
  | normal part =>
    simp only [resolveComponent, List.take_left' rfl] at h
    split at h
    · exact hrec _ _ _ hacc h
    · cases h; exact hacc.push part.sep_not_mem ‹_›

theorem resolveAbs_checked_of_checked (path : List Component) (linkLevel : Nat) {r : Bytes}
    (hacc : Checked readLink root seed acc) (h : resolveAbs readLink root path acc linkLevel = .ok r) :
    Checked readLink root seed r := by
  induction path, acc, linkLevel using resolveAbs.induct readLink root generalizing r with
  | case1 path acc lvl hgt => rw [resolveAbs_of_gt hgt] at h; cases h
  | case2 path acc lvl hle ih =>
    rw [resolveAbs_of_le (by omega)] at h
    exact foldlM_invariant (fun a c b ha hc => resolveComponent_checked
      (fun t a' r' ha' hr' => ih t a' ha' hr') c ha hc) path hacc h

/-- **Nothing the kernel will follow went unchecked.** If `resolve_abs`
returns `r`, every prefix of `r` that ends at a segment boundary and is
longer than the root is one of the seed, ending at a boundary there too, or
a path at which `read_link` reports no symlink. -/
theorem resolveAbs_checked (readLink : Bytes → Option (List Component)) (root seed : Bytes)
    (path : List Component) (linkLevel : Nat) {r : Bytes}
    (h : resolveAbs readLink root path seed linkLevel = .ok r) :
    ∀ q, IsBoundaryPrefix q r → root.length < q.length → IsBoundaryPrefix q seed ∨ readLink q = none :=
  resolveAbs_checked_of_checked path linkLevel Checked.seed_self h

/-- The oracle of a tree without symlinks. -/
def noLinks : Bytes → Option (List Component) := fun _ => none

/-- From `/newroot`, `space` resolves to `/newroot/space`, every boundary
prefix of which was checked. -/
theorem resolveAbs_checked_space :
    resolveAbs noLinks newroot [.normal spaceSegment] newroot 0 = .ok (byteString "/newroot/space") ∧
      ∀ q, IsBoundaryPrefix q (byteString "/newroot/space") → newroot.length < q.length →
        IsBoundaryPrefix q newroot ∨ noLinks q = none := by
  have h : resolveAbs noLinks newroot [.normal spaceSegment] newroot 0 =
      .ok (byteString "/newroot/space") := by
    rw [resolveAbs_of_le (by omega)]; rfl
  exact ⟨h, resolveAbs_checked _ _ _ _ _ h⟩

end SunwalkerBox
