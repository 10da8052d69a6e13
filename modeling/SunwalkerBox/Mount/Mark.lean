import SunwalkerBox.Mount.Table
import Mathlib.Logic.Function.Basic
/-!
# Which mounts `reset` takes down

`create_rootfs` ends by counting, per target, the mounts under `/newroot/`:
that is the baseline `RootfsState`. `reset` walks the current listing once,
with a copy of those counters: an entry whose counter is spent is marked for
unmounting, any other entry spends one. `/newroot/proc`, everything below
it, and `/newroot/dev/mqueue` are skipped.

`pathsToUmount_spec` says what the loop computes: the subsequence of the
listing made of the entries that are not skipped and are preceded by at
least their baseline count of occurrences of themselves. Hence a path is
marked `count - baseline` times, always on its last occurrences, and the
listing the baseline was counted from marks nothing. The loop invariant
(`foldl_markStep`) is that each counter is its baseline less the
occurrences seen so far.
-/

namespace SunwalkerBox

/-- What `reset` never unmounts: `/newroot/proc`, everything under it, and
`/newroot/dev/mqueue`. -/
def isExcluded (path : String) : Bool :=
  path == "/newroot/proc" || startsWith path "/newroot/proc/" || path == "/newroot/dev/mqueue"

/-- `RootfsState`: how many mounts each target under `/newroot/` had when
`create_rootfs` finished. The `HashMap` is only read through
`entry(path).or_insert(0)`, so it is its lookup with 0 for a missing key. -/
structure RootfsState where
  mountPoints : String → Nat

/-- The loop that ends `create_rootfs`:
`*state.mount_points.entry(path).or_insert(0) += 1` for each listed path. -/
def countMountPoints (paths : List String) : RootfsState :=
  ⟨paths.foldl (fun m path => Function.update m path (m path + 1)) fun _ => 0⟩

/-- The state of the marking loop of `reset`. -/
structure MarkState where
  mountPoints : String → Nat
  pathsToUmount : List String

/-- One listed path through the marking loop. -/
def markStep (st : MarkState) (path : String) : MarkState :=
  if !isExcluded path then
    if st.mountPoints path = 0 then ⟨st.mountPoints, st.pathsToUmount ++ [path]⟩
    else ⟨Function.update st.mountPoints path (st.mountPoints path - 1), st.pathsToUmount⟩
  else st

/-- A counter is spent at the path of a step that is not excluded, and
stays at zero once spent. -/
@[simp] theorem markStep_mountPoints (st : MarkState) (path y : String) :
    (markStep st path).mountPoints y =
      if isExcluded path = false ∧ y = path then st.mountPoints y - 1 else st.mountPoints y := by
  unfold markStep
  by_cases hex : isExcluded path
  · simp [hex]
  · by_cases hy : y = path
    · subst hy; by_cases h0 : st.mountPoints y = 0 <;> simp [hex, h0]
    · by_cases h0 : st.mountPoints path = 0 <;> simp [hex, h0, hy, Function.update_noteq hy]

/-- A step marks its path when it is not excluded and its counter is spent. -/
@[simp] theorem markStep_pathsToUmount (st : MarkState) (path : String) :
    (markStep st path).pathsToUmount =
      st.pathsToUmount ++ if isExcluded path = false ∧ st.mountPoints path = 0 then [path] else [] := by
  unfold markStep
  by_cases hex : isExcluded path <;> by_cases h0 : st.mountPoints path = 0 <;> simp [hex, h0]

/-- `paths_to_umount` as the marking loop of `reset` leaves it. -/
def pathsToUmount (state : RootfsState) (currentMounts : List String) : List String :=
  (currentMounts.foldl markStep ⟨state.mountPoints, []⟩).pathsToUmount

/-- The entries of `M` that are not excluded and are preceded in `M` by at
least `B x` occurrences of the same path. -/
def markedSpec (B : String → Nat) (M : List String) : List String :=
  (M.enum.filter fun e => !isExcluded e.2 && decide (B e.2 ≤ (M.take e.1).count e.2)).map (·.2)

/-! ## The baseline -/

theorem foldl_update_count (paths : List String) (m : String → Nat) (x : String) :
    paths.foldl (fun m path => Function.update m path (m path + 1)) m x = m x + paths.count x := by
  induction paths generalizing m with
  | nil => rfl
  | cons p ps ih =>
    rw [List.foldl_cons, ih, List.count_cons]
    by_cases h : x = p
    · subst h; simp; omega
    · simp [Function.update_noteq h, Ne.symm h]

@[simp] theorem countMountPoints_mountPoints (paths : List String) (x : String) :
    (countMountPoints paths).mountPoints x = paths.count x := by
  simp [countMountPoints, foldl_update_count]

/-! ## The marking loop -/

variable {B : String → Nat}

theorem markedSpec_concat (M : List String) (x : String) :
    markedSpec B (M ++ [x]) =
      markedSpec B M ++ if !isExcluded x && decide (B x ≤ M.count x) then [x] else [] := by
  have hM : ∀ e ∈ M.enum, (!isExcluded e.2 && decide (B e.2 ≤ ((M ++ [x]).take e.1).count e.2)) =
      (!isExcluded e.2 && decide (B e.2 ≤ (M.take e.1).count e.2)) := by
    intro e he
    rw [List.take_append_of_le_length (List.mem_enum he).1.le]
  simp only [markedSpec, List.enum_append, List.enumFrom_singleton, List.filter_append,
    List.filter_congr hM, List.map_append, List.take_left' rfl]
  split <;> simp_all

/-- **The loop invariant**: each counter is its baseline less the
occurrences seen so far, and the marked paths are `markedSpec`'s. -/
theorem foldl_markStep (M : List String) :
    (∀ y, (M.foldl markStep ⟨B, []⟩).mountPoints y =
        if isExcluded y then B y else B y - M.count y) ∧
      (M.foldl markStep ⟨B, []⟩).pathsToUmount = markedSpec B M := by
  induction M using List.reverseRecOn with
  | nil => simp [markedSpec]
  | append_singleton M x ih =>
    obtain ⟨hc, hp⟩ := ih
    rw [List.foldl_concat, markedSpec_concat]
    refine ⟨fun y => ?_, ?_⟩
    · rw [markStep_mountPoints, hc, List.count_append, List.count_singleton']
      by_cases hy : y = x
      · subst hy; cases isExcluded y <;> simp; omega
      · simp [hy, Ne.symm hy]
    · rw [markStep_pathsToUmount, hp, hc x]
      cases isExcluded x <;> simp [Nat.sub_eq_zero_iff_le]

theorem count_markedSpec (M : List String) (x : String) :
    (markedSpec B M).count x = if isExcluded x then 0 else M.count x - B x := by
  induction M using List.reverseRecOn with
  | nil => simp [markedSpec]
  | append_singleton M y ih =>
    rw [markedSpec_concat, List.count_append, ih]
    by_cases hy : y = x
    · subst hy
      by_cases hex : isExcluded y <;> by_cases hB : B y ≤ M.count y <;> simp [hex, hB] <;> omega
    · have h0 : (if (!isExcluded y && decide (B y ≤ M.count y)) then [y] else []).count x = 0 := by
        split <;> simp [List.count_singleton', hy]
      rw [h0, Nat.add_zero, List.count_append, List.count_singleton', if_neg hy, Nat.add_zero]

theorem pathsToUmount_eq_markedSpec (state : RootfsState) (M : List String) :
    pathsToUmount state M = markedSpec state.mountPoints M :=
  (foldl_markStep M).2

/-- **What the marking loop computes.** The marked paths are the entries of
the listing that are not excluded and are preceded by at least their
baseline count of occurrences of themselves; so a path that is not excluded
is marked `count - baseline` times (zero when the baseline covers it), and
the listing `create_rootfs` counted into the baseline marks nothing. -/
theorem pathsToUmount_spec (state : RootfsState) (M : List String) :
    pathsToUmount state M = markedSpec state.mountPoints M ∧
      (∀ x, isExcluded x = false →
        (pathsToUmount state M).count x = M.count x - state.mountPoints x) ∧
      pathsToUmount (countMountPoints M) M = [] := by
  have hspec : ∀ s : RootfsState, pathsToUmount s M = markedSpec s.mountPoints M :=
    fun s => pathsToUmount_eq_markedSpec s M
  refine ⟨hspec state, fun x hx => by rw [hspec, count_markedSpec, hx]; rfl, ?_⟩
  rw [hspec, List.eq_nil_iff_forall_not_mem]
  intro x hx
  have := List.count_pos_iff.2 hx
  rw [count_markedSpec] at this
  split at this <;> simp at this

end SunwalkerBox
