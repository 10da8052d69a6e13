import SunwalkerBox.Path.Bytes
/-!
# `resolve_abs`

The resolver of `src/linux/rootfs.rs`, as the code computes it: the
components of a path are folded into a byte accumulator seeded at a logical
root, a `ParentDir` truncates at the last `/` but never below the root, and
a `Normal` part that `read_link` finds to be a symlink is replaced by the
resolution of the link's target, one `link_level` deeper. The recursion is
by the level, which grows to 256 at most.

`read_link` is the oracle `readLink`: the components of a link's target
where the accumulator names a symlink, `none` where `std::fs::read_link`
fails. Besides the `FilesystemLoop` error, the code can end in a panic, the
`unwrap()` of the `ParentDir` arm; `Failure` keeps the two apart.
-/

namespace SunwalkerBox

/-- How `resolve_abs` ends when it returns no path. -/
inductive Failure
  /-- `Err(std::io::Error::from(ErrorKind::FilesystemLoop))`. -/
  | filesystemLoop
  /-- A panic of `rposition(..).unwrap()` in the `ParentDir` arm. -/
  | unwrapNone
deriving DecidableEq, Repr

/-- The body of `for component in path.components()` on one component.
`recur` is the nested `resolve_abs(&link_target, root, acc, link_level + 1)`. -/
def resolveComponent (readLink : Bytes → Option (List Component)) (root : Bytes)
    (recur : List Component → Bytes → Except Failure Bytes) (acc : Bytes) :
    Component → Except Failure Bytes
  | .rootDir => pure (acc.take root.length)
  | .curDir => pure acc
  | .parentDir =>
    if acc.length > root.length then
      match rposition (· == sep) acc with
      | some i => pure (acc.take i)
      | none => throw .unwrapNone
    else pure acc
  | .normal part =>
    let cwdAccLen := acc.length
    let acc := acc ++ sep :: part.bytes
    match readLink acc with
    | some linkTarget => recur linkTarget (acc.take cwdAccLen)
    | none => pure acc

/-- `resolve_abs(path, root, acc, link_level)`. -/
def resolveAbs (readLink : Bytes → Option (List Component)) (root : Bytes)
    (path : List Component) (acc : Bytes) (linkLevel : Nat) : Except Failure Bytes :=
  if linkLevel > 255 then throw .filesystemLoop
  else path.foldlM
    (resolveComponent readLink root fun t a => resolveAbs readLink root t a (linkLevel + 1)) acc
termination_by 256 - linkLevel

/-- `b"/newroot"`, the confined root. -/
def newroot : Bytes := byteString "/newroot"

/-- `b"/oldroot"`, the host root before the switch. -/
def oldroot : Bytes := byteString "/oldroot"

/-- `space`, the quota-bound writable directory under the confined root. -/
def spaceSegment : Segment :=
  ⟨byteString "space", by decide, by decide, by decide, by decide⟩

/-- `resolve_abs_box_root`: resolution against the confined root, seeded at
`/newroot/space`. -/
def resolveAbsBoxRoot (readLink : Bytes → Option (List Component)) (path : List Component) :
    Except Failure Bytes :=
  resolveAbs readLink newroot path (byteString "/newroot/space") 0

/-- `resolve_abs_old_root`: resolution against the host root. -/
def resolveAbsOldRoot (readLink : Bytes → Option (List Component)) (path : List Component) :
    Except Failure Bytes :=
  resolveAbs readLink oldroot path oldroot 0

theorem newroot_space_eq : byteString "/newroot/space" = pathBytes newroot [spaceSegment] := by
  decide

/-! ## The equations of the resolver -/

variable {readLink : Bytes → Option (List Component)} {root : Bytes}

theorem resolveAbs_of_gt {path : List Component} {acc : Bytes} {linkLevel : Nat}
    (h : linkLevel > 255) : resolveAbs readLink root path acc linkLevel = .error .filesystemLoop := by
  rw [resolveAbs, if_pos h]; rfl

theorem resolveAbs_of_le {path : List Component} {acc : Bytes} {linkLevel : Nat}
    (h : linkLevel ≤ 255) :
    resolveAbs readLink root path acc linkLevel = path.foldlM
      (resolveComponent readLink root fun t a => resolveAbs readLink root t a (linkLevel + 1)) acc := by
  rw [resolveAbs, if_neg (by omega)]

end SunwalkerBox
