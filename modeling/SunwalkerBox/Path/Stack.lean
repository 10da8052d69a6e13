import SunwalkerBox.Path.ResolveAbs
/-!
# The resolver on stacks of segments

What `resolve_abs` does, said without bytes: a resolved path is a stack of
segments under the root, `RootDir` empties it, `ParentDir` pops it (an empty
stack stays empty), and a `Normal` part is pushed unless the pushed stack is
a symlink, whose target is resolved from the stack as it was.
`resolveStack` is that resolver.

`resolveAbs_pathBytes` is the simulation: on an accumulator of the form
`pathBytes root st` the byte resolver computes exactly the accumulator of the
stack resolver's result, with `read_link` seen through `pathBytes`. Since the
stack resolver can only fail with `FilesystemLoop`, `resolveAbs_confined`
follows: from a well-formed accumulator `resolve_abs` never panics, and what
it returns is the root followed by `/`-separated proper segments. Every
later fact about the resolver is proved on stacks and carried over by it.
-/

namespace SunwalkerBox

/-- One component of the resolution, on a stack of segments. -/
def stackComponent (linkAt : List Segment → Option (List Component))
    (recur : List Component → List Segment → Except Failure (List Segment)) (st : List Segment) :
    Component → Except Failure (List Segment)
  | .rootDir => pure []
  | .curDir => pure st
  | .parentDir => pure st.dropLast
  | .normal part =>
    match linkAt (st ++ [part]) with
    | some t => recur t st
    | none => pure (st ++ [part])

/-- The resolver on stacks, with the level bound of `resolve_abs`. -/
def resolveStack (linkAt : List Segment → Option (List Component)) (path : List Component)
    (st : List Segment) (linkLevel : Nat) : Except Failure (List Segment) :=
  if linkLevel > 255 then throw .filesystemLoop
  else path.foldlM (stackComponent linkAt fun t s => resolveStack linkAt t s (linkLevel + 1)) st
termination_by 256 - linkLevel

variable {linkAt : List Segment → Option (List Component)}

theorem resolveStack_of_gt {path : List Component} {st : List Segment} {linkLevel : Nat}
    (h : linkLevel > 255) : resolveStack linkAt path st linkLevel = .error .filesystemLoop := by
  rw [resolveStack, if_pos h]; rfl

theorem resolveStack_of_le {path : List Component} {st : List Segment} {linkLevel : Nat}
    (h : linkLevel ≤ 255) :
    resolveStack linkAt path st linkLevel = path.foldlM
      (stackComponent linkAt fun t s => resolveStack linkAt t s (linkLevel + 1)) st := by
  rw [resolveStack, if_neg (by omega)]

theorem resolveStack_nil {st : List Segment} {linkLevel : Nat} (h : linkLevel ≤ 255) :
    resolveStack linkAt [] st linkLevel = .ok st := by
  rw [resolveStack_of_le h]; rfl

/-- Below the bound the resolver is one component, then the rest. -/
theorem resolveStack_cons {c : Component} {path : List Component} {st : List Segment}
    {linkLevel : Nat} (h : linkLevel ≤ 255) :
    resolveStack linkAt (c :: path) st linkLevel =
      (stackComponent linkAt (fun t s => resolveStack linkAt t s (linkLevel + 1)) st c >>=
        fun st' => resolveStack linkAt path st' linkLevel) := by
  rw [resolveStack_of_le h, List.foldlM_cons]
  simp only [resolveStack_of_le h]

/-- **The stack resolver fails only with a loop.** -/
theorem resolveStack_error {path : List Component} {st : List Segment} {linkLevel : Nat}
    {e : Failure} (h : resolveStack linkAt path st linkLevel = .error e) :
    e = .filesystemLoop := by
  induction path, st, linkLevel using resolveStack.induct linkAt with
  | case1 path st lvl hgt => rw [resolveStack_of_gt hgt] at h; cases h; rfl
  | case2 path st lvl hle ih =>
    rw [resolveStack_of_le (by omega)] at h
    induction path generalizing st with
    | nil => cases h
    | cons c path ihp =>
      rw [List.foldlM_cons] at h
      cases hc : stackComponent linkAt (fun t s => resolveStack linkAt t s (lvl + 1)) st c with
      | error e' =>
        rw [hc] at h; cases h
        cases c with
        | normal part =>
          simp only [stackComponent] at hc
          split at hc
          · exact ih _ _ hc
          · cases hc
        | _ => cases hc
      | ok st' => rw [hc] at h; exact ihp st' h

/-! ## The simulation -/

variable {readLink : Bytes → Option (List Component)} {root : Bytes}

/-- One component, on an accumulator of the form `pathBytes root st`. -/
theorem resolveComponent_pathBytes
    {recB : List Component → Bytes → Except Failure Bytes}
    {recS : List Component → List Segment → Except Failure (List Segment)}
    (hrec : ∀ t s, recB t (pathBytes root s) = pathBytes root <$> recS t s)
    (st : List Segment) (c : Component) :
    resolveComponent readLink root recB (pathBytes root st) c =
      pathBytes root <$> stackComponent (readLink ∘ pathBytes root) recS st c := by
  cases c with
  | rootDir => simp only [resolveComponent, take_root_pathBytes]; rfl
  | curDir => rfl
  | parentDir =>
    rcases List.eq_nil_or_concat st with rfl | ⟨st, s, rfl⟩
    · simp only [resolveComponent, pathBytes_nil, gt_iff_lt, lt_self_iff_false, if_false]; rfl
    · have hlt : root.length < (pathBytes root (st ++ [s])).length :=
        root_length_lt_iff.2 (by simp)
      simp only [List.concat_eq_append, resolveComponent, gt_iff_lt, hlt, if_true,
        rposition_sep_pathBytes_concat]
      rw [pathBytes_concat, List.take_left' rfl]
      simp [stackComponent]
  | normal part =>
    simp only [resolveComponent, stackComponent, Function.comp, pathBytes_concat,
      List.take_left' rfl]
    split <;> simp_all

/-- **The byte resolver simulates the stack resolver.** -/
theorem resolveAbs_pathBytes (readLink : Bytes → Option (List Component)) (root : Bytes)
    (path : List Component) (st : List Segment) (linkLevel : Nat) :
    resolveAbs readLink root path (pathBytes root st) linkLevel =
      pathBytes root <$> resolveStack (readLink ∘ pathBytes root) path st linkLevel := by
  induction path, st, linkLevel using resolveStack.induct (readLink ∘ pathBytes root) with
  | case1 path st lvl h => rw [resolveAbs_of_gt h, resolveStack_of_gt h]; rfl
  | case2 path st lvl h ih =>
    rw [resolveAbs_of_le (by omega), resolveStack_of_le (by omega)]
    exact foldlM_map_comm (resolveComponent_pathBytes ih) path st

/-! ## Confinement -/

/-- From a well-formed accumulator, a loop error or a well-formed result. -/
theorem resolveAbs_loop_or_pathBytes (path : List Component) (st : List Segment)
    (linkLevel : Nat) :
    resolveAbs readLink root path (pathBytes root st) linkLevel = .error .filesystemLoop ∨
      ∃ st', resolveAbs readLink root path (pathBytes root st) linkLevel = .ok (pathBytes root st') := by
  rw [resolveAbs_pathBytes]
  cases h : resolveStack (readLink ∘ pathBytes root) path st linkLevel with
  | error e => exact .inl (by rw [resolveStack_error h]; rfl)
  | ok st' => exact .inr ⟨st', rfl⟩

/-- An accumulator is its root, or lies beneath `root/`. -/
theorem pathBytes_eq_root_or_under (root : Bytes) (st : List Segment) :
    pathBytes root st = root ∨ root ++ [sep] <+: pathBytes root st := by
  cases st with
  | nil => exact .inl rfl
  | cons s st => exact .inr ⟨s.bytes ++ pathBytes [] st, by simp [pathBytes_cons]⟩

theorem resolveAbs_under {seed : Bytes} (hseed : ∃ st, seed = pathBytes root st)
    (path : List Component) :
    resolveAbs readLink root path seed 0 = .error .filesystemLoop ∨
      ∃ r, resolveAbs readLink root path seed 0 = .ok r ∧ (r = root ∨ root ++ [sep] <+: r) := by
  obtain ⟨st, rfl⟩ := hseed
  rcases resolveAbs_loop_or_pathBytes path st 0 with h | ⟨st', h⟩
  · exact .inl h
  · exact .inr ⟨_, h, pathBytes_eq_root_or_under root st'⟩

/-- **`resolve_abs` stays under its root.** From an accumulator of the form
root-then-segments it never panics: it fails with `FilesystemLoop`, or it
returns the root followed by `/`-separated proper segments. So the confined
resolver yields `/newroot` or a path beneath `/newroot/`, and the host
resolver `/oldroot` or a path beneath `/oldroot/`. -/
theorem resolveAbs_confined :
    (∀ (readLink : Bytes → Option (List Component)) (root : Bytes) (path : List Component)
        (st : List Segment) (linkLevel : Nat),
      resolveAbs readLink root path (pathBytes root st) linkLevel = .error .filesystemLoop ∨
        ∃ st', resolveAbs readLink root path (pathBytes root st) linkLevel =
          .ok (pathBytes root st')) ∧
    (∀ (readLink : Bytes → Option (List Component)) (path : List Component),
      resolveAbsBoxRoot readLink path = .error .filesystemLoop ∨
        ∃ r, resolveAbsBoxRoot readLink path = .ok r ∧ (r = newroot ∨ newroot ++ [sep] <+: r)) ∧
    (∀ (readLink : Bytes → Option (List Component)) (path : List Component),
      resolveAbsOldRoot readLink path = .error .filesystemLoop ∨
        ∃ r, resolveAbsOldRoot readLink path = .ok r ∧ (r = oldroot ∨ oldroot ++ [sep] <+: r)) :=
  ⟨fun _ _ => resolveAbs_loop_or_pathBytes,
    fun _ => resolveAbs_under ⟨[spaceSegment], newroot_space_eq⟩,
    fun _ => resolveAbs_under ⟨[], rfl⟩⟩

end SunwalkerBox
