import SunwalkerBox.Mount.Reset
/-!
# `reset` restores the baseline

On the mount table, the marking loop and the reversed unmounts leave
`survivors`: the table without exactly the marked entries
(`foldlM_umount_markedSpec`). The reverse order is what makes this so:
a marked path's marked occurrences are its last ones, and each `umount`
takes the last-listed occurrence, so going from the back every unmount
removes the marked entry it was issued for. Then `/newroot/space` is
mounted and `/newroot/dev/shm` and `/newroot/tmp` are rebound
(`mountEphemeral`); `reset_mountTableKernel` is the whole of `reset` in
closed form.

From it, `reset_contains`: on a table holding the baseline, `reset`
succeeds and leaves each listed path exactly its baseline count, except
`/newroot/space` one more and `/newroot/dev/shm`, `/newroot/tmp` at least
one; what is not listed stays, in order; and this holds again after any
number of further resets, whatever is mounted in between. And
`reset_idempotent`: a second reset changes nothing.
-/

namespace SunwalkerBox

/-- Under `/newroot/` and not excluded: what the marking loop may take down. -/
def isListed (x : String) : Bool := startsWith x "/newroot/" && !isExcluded x

/-- The table without the entries the marking loop marks: a listed entry
preceded by at least its baseline count of occurrences of itself goes. -/
def survivors (B : String → Nat) (T : MountTable) : MountTable :=
  (T.enum.filter fun e => !(isListed e.2 && decide (B e.2 ≤ (T.take e.1).count e.2))).map (·.2)

/-- `/dev/shm` or `/tmp` after its pass of `reset`: the last mount there, if
any, gone, and the bind mount listed last. -/
def MountTable.rebind (t : MountTable) (target : String) : MountTable :=
  MountTable.mount (eraseLast target t) target

/-- The mounts `reset` makes after its unmounts. -/
def mountEphemeral (t : MountTable) : MountTable :=
  ((t.mount "/newroot/space").rebind "/newroot/dev/shm").rebind "/newroot/tmp"

/-- The table holds the baseline: every path at least as often as counted. -/
def Contains (t : MountTable) (state : RootfsState) : Prop :=
  ∀ x, state.mountPoints x ≤ t.count x

variable {B : String → Nat}

/-! ## The unmounts -/

theorem survivors_concat (T : MountTable) (x : String) :
    survivors B (T ++ [x]) =
      survivors B T ++ if isListed x && decide (B x ≤ T.count x) then [] else [x] := by
  have hT : ∀ e ∈ T.enum,
      (!(isListed e.2 && decide (B e.2 ≤ ((T ++ [x]).take e.1).count e.2))) =
      (!(isListed e.2 && decide (B e.2 ≤ (T.take e.1).count e.2))) := by
    intro e he
    rw [List.take_append_of_le_length (List.mem_enum he).1.le]
  simp only [survivors, List.enum_append, List.enumFrom_singleton, List.filter_append,
    List.filter_congr hT, List.map_append, List.filter_singleton, List.take_left]
  cases isListed x && decide (B x ≤ T.count x) <;> rfl

theorem mem_of_mem_markedSpec {M : List String} {x : String} (h : x ∈ markedSpec B M) : x ∈ M := by
  obtain ⟨e, he, rfl⟩ := List.mem_map.1 h
  obtain ⟨hi, hx⟩ := List.mem_enum (List.mem_filter.1 he).1
  rw [hx]; exact List.getElem_mem hi

/-- A marked path is not excluded and is listed more often than its baseline. -/
theorem lt_count_of_mem_markedSpec {M : List String} {x : String} (h : x ∈ markedSpec B M) :
    isExcluded x = false ∧ B x < M.count x := by
  have hpos := List.count_pos_iff.2 h
  rw [count_markedSpec] at hpos
  split at hpos
  · omega
  · rename_i hex
    exact ⟨Bool.eq_false_iff.2 hex, by omega⟩

/-- Unmounts of other paths commute with a mount listed last. -/
theorem foldlM_umount_concat {x : String} :
    ∀ {ps : List String}, x ∉ ps → ∀ {T T' : MountTable}, ps.foldlM MountTable.umount T = .ok T' →
      ps.foldlM MountTable.umount (T ++ [x]) = .ok (T' ++ [x])
  | [], _, _, _, h => by cases h; rfl
  | p :: ps, hx, T, T', h => by
    simp only [List.mem_cons, not_or] at hx
    rw [List.foldlM_cons] at h ⊢
    simp only [MountTable.umount] at h ⊢
    by_cases hp : p ∈ T
    · rw [if_pos hp, except_ok_bind] at h
      rw [if_pos (List.mem_append_left _ hp), eraseLast_concat_of_ne hx.1, except_ok_bind]
      exact foldlM_umount_concat hx.2 h
    · rw [if_neg hp] at h; cases h

/-- **Each unmount, in reverse, removes exactly a marked entry.** -/
theorem foldlM_umount_markedSpec (T : MountTable) :
    (markedSpec B (T.filter fun x => startsWith x "/newroot/")).reverse.foldlM
      MountTable.umount T = .ok (survivors B T) := by
  induction T using List.reverseRecOn with
  | nil => rfl
  | append_singleton T x ih =>
    rw [survivors_concat, List.filter_append]
    by_cases hpre : startsWith x "/newroot/"
    · have hcount : (T.filter fun x => startsWith x "/newroot/").count x = T.count x :=
        List.count_filter hpre
      rw [List.filter_singleton, hpre, cond_true, markedSpec_concat, hcount]
      by_cases hm : isListed x && decide (B x ≤ T.count x)
      · have hm' : (!isExcluded x && decide (B x ≤ T.count x)) = true := by
          simpa [isListed, hpre] using hm
        rw [if_pos hm', if_pos hm, List.reverse_append, List.reverse_singleton,
          List.singleton_append, List.foldlM_cons]
        simp only [MountTable.umount, List.mem_append, List.mem_singleton, or_true, if_true,
          eraseLast_concat_self, except_ok_bind, List.append_nil]
        exact ih
      · have hm' : (!isExcluded x && decide (B x ≤ T.count x)) = false := by
          simpa [isListed, hpre] using hm
        rw [if_neg (by simp [hm']), if_neg hm, List.append_nil]
        refine foldlM_umount_concat (fun hx => ?_) ih
        obtain ⟨hex, hlt⟩ := lt_count_of_mem_markedSpec (List.mem_reverse.1 hx)
        rw [hcount] at hlt
        simp [hex, hlt.le] at hm'
    · have hpre' : startsWith x "/newroot/" = false := by simpa using hpre
      rw [List.filter_singleton, hpre', cond_false, List.append_nil,
        if_neg (by simp [isListed, hpre'])]
      refine foldlM_umount_concat (fun hx => hpre ?_) ih
      exact (List.mem_filter.1 (mem_of_mem_markedSpec (List.mem_reverse.1 hx))).2

/-! ## What survives -/

theorem count_survivors (T : MountTable) (x : String) :
    (survivors B T).count x = if isListed x then min (T.count x) (B x) else T.count x := by
  induction T using List.reverseRecOn with
  | nil => simp [survivors]
  | append_singleton T y ih =>
    rw [survivors_concat, List.count_append, ih, List.count_append]
    by_cases hy : y = x
    · subst hy
      by_cases hl : isListed y <;> by_cases hB : B y ≤ T.count y <;> simp [hl, hB] <;> omega
    · have : (if (isListed y && decide (B y ≤ T.count y)) then [] else [y]).count x = 0 := by
        split <;> simp [List.count_singleton', hy]
      simp only [this, List.count_singleton', if_neg hy, Nat.add_zero]

theorem filter_survivors (T : MountTable) :
    (survivors B T).filter (fun x => !isListed x) = T.filter (fun x => !isListed x) := by
  induction T using List.reverseRecOn with
  | nil => rfl
  | append_singleton T x ih =>
    rw [survivors_concat, List.filter_append, List.filter_append, ih]
    by_cases hl : isListed x <;> by_cases hB : B x ≤ T.count x <;> simp [hl, hB]

/-- Nothing goes from a table within the baseline. -/
theorem survivors_eq_self {T : MountTable} (h : ∀ x, isListed x → T.count x ≤ B x) :
    survivors B T = T := by
  induction T using List.reverseRecOn with
  | nil => rfl
  | append_singleton T x ih =>
    have hT : ∀ y, isListed y → T.count y ≤ B y := fun y hy =>
      (List.Sublist.count_le (List.sublist_append_left T [x]) y).trans (h y hy)
    rw [survivors_concat, ih hT]
    by_cases hl : isListed x
    · have := h x hl
      simp only [List.count_append, List.count_singleton_self] at this
      simp [hl]; omega
    · simp [hl]

/-! ## The mounts after the unmounts -/

theorem count_rebind (t : MountTable) (target x : String) :
    (t.rebind target).count x = if target = x then max (t.count x) 1 else t.count x := by
  simp only [MountTable.rebind, MountTable.mount, List.count_append, count_eraseLast,
    List.count_singleton']
  split
  · subst target
    by_cases h : x ∈ t
    · have := List.count_pos_iff.2 h; omega
    · simp [List.count_eq_zero.2 h]
  · simp

theorem filter_rebind {t : MountTable} {target : String} (h : isListed target) :
    (t.rebind target).filter (fun x => !isListed x) = t.filter (fun x => !isListed x) := by
  simp [MountTable.rebind, MountTable.mount, List.filter_append, filter_eraseLast, h]

/-- `rebind` of a path listed once more last: the extra occurrence goes. -/
theorem isListed_space : isListed "/newroot/space" = true := by decide
theorem isListed_shm : isListed "/newroot/dev/shm" = true := by decide
theorem isListed_tmp : isListed "/newroot/tmp" = true := by decide

theorem count_mountEphemeral (t : MountTable) (x : String) :
    (mountEphemeral t).count x =
      if x = "/newroot/tmp" ∨ x = "/newroot/dev/shm" then max (t.count x) 1
      else if x = "/newroot/space" then t.count x + 1
      else t.count x := by
  simp only [mountEphemeral, count_rebind, MountTable.mount, List.count_append,
    List.count_singleton']
  by_cases h1 : x = "/newroot/tmp"
  · subst h1; simp
  by_cases h2 : x = "/newroot/dev/shm"
  · subst h2; simp
  by_cases h3 : x = "/newroot/space"
  · subst h3; simp
  simp [Ne.symm h1, Ne.symm h2, Ne.symm h3, h1, h2, h3]

theorem filter_mountEphemeral (t : MountTable) :
    (mountEphemeral t).filter (fun x => !isListed x) = t.filter (fun x => !isListed x) := by
  rw [mountEphemeral, filter_rebind isListed_tmp, filter_rebind isListed_shm,
    MountTable.mount, List.filter_append]
  simp [isListed_space]

/-! ## `reset` in closed form -/

theorem foldlM_context_umount :
    ∀ {ps : List String} {T T' : MountTable}, ps.foldlM MountTable.umount T = .ok T' →
      ps.foldlM (fun s path => context ("Failed to unmount " ++ path)
        (mountTableKernel.umount path s)) T = .ok T'
  | [], _, _, h => by cases h; rfl
  | p :: ps, T, T', h => by
    rw [List.foldlM_cons] at h ⊢
    cases hp : MountTable.umount T p with
    | error e => rw [hp] at h; cases h
    | ok T₁ =>
      rw [hp, except_ok_bind] at h
      show (context _ (MountTable.umount T p) >>= _) = _
      rw [hp, context_ok, except_ok_bind]
      exact foldlM_context_umount h

theorem rebind_mountTableKernel (ids : Ids) (t : MountTable) (path origPath : String) :
    rebind mountTableKernel ids t (path, origPath) = .ok (t.rebind path) := by
  simp only [rebind, mountTableKernel_createDir, mountTableKernel_chown,
    mountTableKernel_setPermissions, mountTableKernel_umount, mountTableKernel_bindMount,
    context_ok, except_ok_bind, MountTable.umount, MountTable.rebind]
  by_cases h : path ∈ t
  · simp [h]
  · simp [h, eraseLast_of_not_mem h]

/-- **`reset` on the mount table**: the survivors of the marking, then the
fresh `/newroot/space` and the two rebinds. -/
theorem reset_mountTableKernel (ids : Ids) (state : RootfsState) (quotas : DiskQuotas)
    (T : MountTable) :
    reset mountTableKernel ids state quotas T =
      .ok (mountEphemeral (survivors state.mountPoints T)) := by
  have hu := foldlM_context_umount (foldlM_umount_markedSpec (B := state.mountPoints) T)
  rw [← pathsToUmount_eq_markedSpec] at hu
  simp only [reset, mountTableKernel_childMounts, except_ok_bind, hu, mountTableKernel_mount,
    mountTableKernel_chown, context_ok, List.foldlM_cons, List.foldlM_nil,
    rebind_mountTableKernel, resetPts_mountTableKernel]
  rfl

/-! ## The baseline is restored -/

/-- The table holds the baseline, and no listed path more than once over it. -/
def Restored (t : MountTable) (state : RootfsState) : Prop :=
  Contains t state ∧ ∀ x, isListed x → t.count x ≤ state.mountPoints x + 1

variable {state : RootfsState} {T : MountTable}

/-- Mounting more keeps the baseline. -/
theorem Contains.append (hT : Contains T state) (extra : MountTable) : Contains (T ++ extra) state :=
  fun x => by rw [List.count_append]; exact (hT x).trans (Nat.le_add_right _ _)

/-- After one reset of a table holding the baseline: each listed path at its
baseline count, `/newroot/space` one more, `/newroot/dev/shm` and
`/newroot/tmp` at least one; the rest as it was. -/
theorem count_reset_of_contains (hT : Contains T state) (x : String) :
    (mountEphemeral (survivors state.mountPoints T)).count x =
      if isListed x then
        (if x = "/newroot/tmp" ∨ x = "/newroot/dev/shm" then max (state.mountPoints x) 1
        else if x = "/newroot/space" then state.mountPoints x + 1
        else state.mountPoints x)
      else T.count x := by
  have hS : ∀ y, isListed y → (survivors state.mountPoints T).count y = state.mountPoints y :=
    fun y hy => by rw [count_survivors, if_pos hy, Nat.min_eq_right (hT y)]
  rw [count_mountEphemeral]
  by_cases hl : isListed x
  · simp only [hl, if_true, hS x hl]
  · have h1 : x ≠ "/newroot/tmp" := fun h => by simp [h, isListed_tmp] at hl
    have h2 : x ≠ "/newroot/dev/shm" := fun h => by simp [h, isListed_shm] at hl
    have h3 : x ≠ "/newroot/space" := fun h => by simp [h, isListed_space] at hl
    simp [h1, h2, h3, hl, count_survivors]

theorem restored_reset (hT : Contains T state) :
    Restored (mountEphemeral (survivors state.mountPoints T)) state := by
  constructor
  · intro x
    rw [count_reset_of_contains hT]
    split
    · split
      · exact le_max_left _ _
      · split <;> omega
    · exact hT x
  · intro x hx
    rw [count_reset_of_contains hT, if_pos hx]
    split
    · exact Nat.max_le.2 ⟨by omega, by omega⟩
    · split <;> omega

/-- Any number of further resets keep the baseline restored, whatever is
mounted before each. -/
theorem restored_resetRun (ids : Ids) :
    ∀ (steps : List (MountTable × DiskQuotas)) {T : MountTable}, Restored T state →
      ∃ T', steps.foldlM (fun t step => reset mountTableKernel ids state step.2 (t ++ step.1)) T =
        .ok T' ∧ Restored T' state :=
  fun _ _ hT => foldlM_eq_ok_of_step (fun step _ T hT =>
    ⟨_, reset_mountTableKernel ids state step.2 (T ++ step.1), restored_reset (hT.1.append step.1)⟩) hT

/-- **`reset` restores the baseline.** On a table holding the baseline, the
unmounts in reverse take away exactly the marked entries; `reset` succeeds;
every listed path other than `/newroot/space`, `/newroot/dev/shm` and
`/newroot/tmp` is then mounted exactly as often as the baseline counts it,
`/newroot/space` once more, `/newroot/dev/shm` and `/newroot/tmp` at least
once; the excluded entries, and those outside `/newroot/`, are all still
there in their order; and any number of further resets, whatever is mounted
before each, keep the baseline and leave no listed path more than once
over it. -/
theorem reset_contains (ids : Ids) (state : RootfsState) (quotas : DiskQuotas) (T : MountTable)
    (hT : Contains T state) :
    (pathsToUmount state (T.filter fun x => startsWith x "/newroot/")).reverse.foldlM
        MountTable.umount T = .ok (survivors state.mountPoints T) ∧
      ∃ T', reset mountTableKernel ids state quotas T = .ok T' ∧
        (∀ x, isListed x → x ≠ "/newroot/space" → x ≠ "/newroot/dev/shm" → x ≠ "/newroot/tmp" →
          T'.count x = state.mountPoints x) ∧
        T'.count "/newroot/space" = state.mountPoints "/newroot/space" + 1 ∧
        T'.count "/newroot/dev/shm" = max (state.mountPoints "/newroot/dev/shm") 1 ∧
        T'.count "/newroot/tmp" = max (state.mountPoints "/newroot/tmp") 1 ∧
        T'.filter (fun x => !isListed x) = T.filter (fun x => !isListed x) ∧
        ∀ steps : List (MountTable × DiskQuotas), ∃ T'',
          steps.foldlM (fun t step => reset mountTableKernel ids state step.2 (t ++ step.1)) T' =
            .ok T'' ∧ Contains T'' state ∧
            ∀ x, isListed x → T''.count x ≤ state.mountPoints x + 1 := by
  refine ⟨by rw [pathsToUmount_eq_markedSpec]; exact foldlM_umount_markedSpec T,
    _, reset_mountTableKernel ids state quotas T, fun x hx h1 h2 h3 => ?_, ?_, ?_, ?_,
    by rw [filter_mountEphemeral, filter_survivors],
    fun steps => restored_resetRun ids steps (restored_reset hT)⟩
  · rw [count_reset_of_contains hT, if_pos hx]; simp [h1, h2, h3]
  · rw [count_reset_of_contains hT, if_pos isListed_space]; simp
  · rw [count_reset_of_contains hT, if_pos isListed_shm]; simp
  · rw [count_reset_of_contains hT, if_pos isListed_tmp]; simp

/-- The table `create_rootfs` leaves with a recursive bind of `/dev`. -/
def freshTable : MountTable :=
  ["/newroot/bin", "/newroot/lib", "/newroot/dev", "/newroot/dev/shm", "/newroot/dev/mqueue",
    "/newroot/dev/pts"]

/-- Identities for the examples. -/
def sampleIds : Ids := ⟨1000, 1000, 0, 0⟩

theorem contains_countMountPoints (T : MountTable) : Contains T (countMountPoints T) :=
  fun x => by rw [countMountPoints_mountPoints]

/-- `reset_contains` on the fresh table, with its own baseline. -/
theorem reset_contains_fresh :
    Contains freshTable (countMountPoints freshTable) ∧
      ((pathsToUmount (countMountPoints freshTable)
          (freshTable.filter fun x => startsWith x "/newroot/")).reverse.foldlM
          MountTable.umount freshTable = .ok (survivors (countMountPoints freshTable).mountPoints freshTable) ∧
        ∃ T', reset mountTableKernel sampleIds (countMountPoints freshTable) ⟨104857600, 1000⟩
            freshTable = .ok T' ∧
          (∀ x, isListed x → x ≠ "/newroot/space" → x ≠ "/newroot/dev/shm" →
            x ≠ "/newroot/tmp" → T'.count x = (countMountPoints freshTable).mountPoints x) ∧
          T'.count "/newroot/space" = (countMountPoints freshTable).mountPoints "/newroot/space" + 1 ∧
          T'.count "/newroot/dev/shm" =
            max ((countMountPoints freshTable).mountPoints "/newroot/dev/shm") 1 ∧
          T'.count "/newroot/tmp" = max ((countMountPoints freshTable).mountPoints "/newroot/tmp") 1 ∧
          T'.filter (fun x => !isListed x) = freshTable.filter (fun x => !isListed x) ∧
          ∀ steps : List (MountTable × DiskQuotas), ∃ T'',
            steps.foldlM (fun t step => reset mountTableKernel sampleIds (countMountPoints freshTable)
              step.2 (t ++ step.1)) T' = .ok T'' ∧ Contains T'' (countMountPoints freshTable) ∧
              ∀ x, isListed x → T''.count x ≤ (countMountPoints freshTable).mountPoints x + 1) :=
  ⟨contains_countMountPoints freshTable, reset_contains sampleIds (countMountPoints freshTable)
    ⟨104857600, 1000⟩ freshTable (contains_countMountPoints freshTable)⟩

/-! ## A second reset changes nothing -/

/-- After the unmounts, `reset` leaves the table with the last `/newroot/dev/shm`
and `/newroot/tmp` taken out and the three mounts listed last. -/
theorem mountEphemeral_eq (t : MountTable) :
    mountEphemeral t = eraseLast "/newroot/tmp" (eraseLast "/newroot/dev/shm" t) ++
      ["/newroot/space", "/newroot/dev/shm", "/newroot/tmp"] := by
  simp only [mountEphemeral, MountTable.rebind, MountTable.mount]
  rw [eraseLast_concat_of_ne (show "/newroot/space" ≠ "/newroot/dev/shm" by decide),
    eraseLast_concat_of_ne (show "/newroot/dev/shm" ≠ "/newroot/tmp" by decide),
    eraseLast_concat_of_ne (show "/newroot/space" ≠ "/newroot/tmp" by decide)]
  simp

/-- What survives the marking of a reset table: all but the three mounts
`reset` made, and of those the rebinds of `/newroot/dev/shm` and
`/newroot/tmp` where the baseline has a mount there. -/
theorem survivors_mountEphemeral {S : MountTable} (hS : ∀ y, isListed y → S.count y = B y) :
    survivors B (mountEphemeral S) =
      eraseLast "/newroot/tmp" (eraseLast "/newroot/dev/shm" S) ++
        (if 1 ≤ B "/newroot/dev/shm" then ["/newroot/dev/shm"] else []) ++
        (if 1 ≤ B "/newroot/tmp" then ["/newroot/tmp"] else []) := by
  have hc : ∀ y, (eraseLast "/newroot/tmp" (eraseLast "/newroot/dev/shm" S)).count y =
      S.count y - (if "/newroot/dev/shm" = y then 1 else 0) -
        (if "/newroot/tmp" = y then 1 else 0) := fun y => by simp
  have hW : ∀ y, isListed y →
      (eraseLast "/newroot/tmp" (eraseLast "/newroot/dev/shm" S)).count y ≤ B y :=
    fun y hy => by rw [hc, hS y hy]; omega
  -- `/newroot/space` goes; the rebinds stay where the baseline has a mount
  have hsp : (isListed "/newroot/space" && decide (B "/newroot/space" ≤
      (eraseLast "/newroot/tmp" (eraseLast "/newroot/dev/shm" S)).count "/newroot/space")) = true := by
    simp [hc, hS _ isListed_space, isListed_space]
  have hsh : (isListed "/newroot/dev/shm" && decide (B "/newroot/dev/shm" ≤
      (eraseLast "/newroot/tmp" (eraseLast "/newroot/dev/shm" S) ++ ["/newroot/space"]).count
        "/newroot/dev/shm")) = !decide (1 ≤ B "/newroot/dev/shm") := by
    simp [hc, hS _ isListed_shm, isListed_shm]; cases B "/newroot/dev/shm" <;> simp
  have htm : (isListed "/newroot/tmp" && decide (B "/newroot/tmp" ≤
      (eraseLast "/newroot/tmp" (eraseLast "/newroot/dev/shm" S) ++ ["/newroot/space"] ++
        ["/newroot/dev/shm"]).count "/newroot/tmp")) = !decide (1 ≤ B "/newroot/tmp") := by
    simp [hc, hS _ isListed_tmp, isListed_tmp]; cases B "/newroot/tmp" <;> simp
  rw [mountEphemeral_eq, show ∀ l : MountTable, l ++ ["/newroot/space", "/newroot/dev/shm",
      "/newroot/tmp"] = l ++ ["/newroot/space"] ++ ["/newroot/dev/shm"] ++ ["/newroot/tmp"]
      from fun l => by simp, survivors_concat, survivors_concat, survivors_concat,
    survivors_eq_self hW, hsp, hsh, htm]
  by_cases h1 : 1 ≤ B "/newroot/dev/shm" <;> by_cases h2 : 1 ≤ B "/newroot/tmp" <;> simp [h1, h2]

/-- Taking the last `/newroot/dev/shm` and `/newroot/tmp` from the survivors
gives back what the first reset kept. -/
theorem mountEphemeral_survivors_mountEphemeral {S : MountTable}
    (hS : ∀ y, isListed y → S.count y = B y) :
    mountEphemeral (survivors B (mountEphemeral S)) = mountEphemeral S := by
  rw [survivors_mountEphemeral hS, mountEphemeral_eq, mountEphemeral_eq S]
  rw [List.append_left_inj]
  have hnot : ∀ y, isListed y → B y = 0 →
      y ∉ eraseLast "/newroot/tmp" (eraseLast "/newroot/dev/shm" S) := fun y hy h0 hm => by
    have := List.count_pos_iff.2 hm
    simp only [count_eraseLast, hS y hy, h0] at this; omega
  have hshm : "/newroot/dev/shm" ∉ ["/newroot/tmp"] := by decide
  by_cases h1 : 1 ≤ B "/newroot/dev/shm" <;> by_cases h2 : 1 ≤ B "/newroot/tmp" <;>
    simp only [h1, h2, if_true, if_false, List.append_nil, List.append_assoc,
      List.singleton_append]
  · rw [eraseLast_append_cons hshm, eraseLast_concat_self]
  · rw [eraseLast_concat_self, eraseLast_of_not_mem (hnot _ isListed_tmp (by omega))]
  · have hn : "/newroot/dev/shm" ∉
        eraseLast "/newroot/tmp" (eraseLast "/newroot/dev/shm" S) ++ ["/newroot/tmp"] := by
      simp only [List.mem_append, List.mem_singleton, not_or]
      exact ⟨hnot _ isListed_shm (by omega), by decide⟩
    rw [eraseLast_of_not_mem hn, eraseLast_concat_self]
  · rw [eraseLast_of_not_mem (hnot _ isListed_shm (by omega)),
      eraseLast_of_not_mem (hnot _ isListed_tmp (by omega))]

/-- **`reset` is idempotent.** On a table holding the baseline, a second
reset, with any quotas, leaves exactly the table the first one left, as an
ordered list of mount targets. -/
theorem reset_idempotent (ids : Ids) (state : RootfsState) (q₁ q₂ : DiskQuotas) (T : MountTable)
    (hT : Contains T state) :
    (reset mountTableKernel ids state q₁ T >>= reset mountTableKernel ids state q₂) =
      reset mountTableKernel ids state q₁ T := by
  rw [reset_mountTableKernel, except_ok_bind, reset_mountTableKernel,
    mountEphemeral_survivors_mountEphemeral]
  intro y hy
  rw [count_survivors, if_pos hy, Nat.min_eq_right (hT y)]

/-- Two resets of the fresh table, with different quotas, leave one table. -/
theorem reset_idempotent_fresh :
    Contains freshTable (countMountPoints freshTable) ∧
      (reset mountTableKernel sampleIds (countMountPoints freshTable) ⟨104857600, 1000⟩ freshTable >>=
          reset mountTableKernel sampleIds (countMountPoints freshTable) ⟨1048576, 64⟩) =
        reset mountTableKernel sampleIds (countMountPoints freshTable) ⟨104857600, 1000⟩ freshTable :=
  ⟨contains_countMountPoints freshTable, reset_idempotent sampleIds (countMountPoints freshTable)
    ⟨104857600, 1000⟩ ⟨1048576, 64⟩ freshTable (contains_countMountPoints freshTable)⟩

end SunwalkerBox
