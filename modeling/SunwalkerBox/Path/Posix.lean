import SunwalkerBox.Path.Stack
/-!
# `resolve_abs` against POSIX resolution

The resolver exists to compute, without trusting the kernel's own symlink
following, the path the kernel would reach. This file states that against a
filesystem tree. `Fs` is a finite tree below a root directory, each entry at
the names leading to it; its `read_link` (`Fs.readLink`) answers a symlink's
target at the symlink's path and fails everywhere else. `Resolves` is POSIX
resolution over it, with the root directory `root` and a working directory:
symlinks are followed in every component, the last included, a relative
target from the directory holding the link; `..` at the root stays there;
and nested expansions go at most 255 deep.

`resolveAbs_eq_of_resolves` is the refinement: where POSIX resolution
reaches an entry, `resolve_abs` returns that entry's path. The proof runs
on stacks (`resolveStack_of_resolves`, by induction on the resolution) and
is carried to bytes by `resolveAbs_pathBytes`, with
`Fs.readLink_pathBytes` to see the oracle through the accumulator.
-/

namespace SunwalkerBox

/-- What is at a path, as `lstat` classifies it. -/
inductive Entry
  | dir
  | file
  | symlink (target : List Component)
deriving DecidableEq

/-- A symlink's target. -/
def Entry.target? : Entry → Option (List Component)
  | .symlink t => some t
  | _ => none

/-- A finite filesystem tree: each entry at the names from the root
directory to it. -/
structure Fs where
  entries : List (List Segment × Entry)

namespace Fs

/-- The entry at `ns`. -/
def get (fs : Fs) (ns : List Segment) : Option Entry :=
  (fs.entries.find? fun e => e.1 = ns).map (·.2)

/-- The root directory, or a directory entry. -/
def IsDir (fs : Fs) (ns : List Segment) : Prop := ns = [] ∨ fs.get ns = some .dir

/-- The target of the symlink at `ns`. -/
def linkAt (fs : Fs) (ns : List Segment) : Option (List Component) :=
  (fs.get ns).bind Entry.target?

/-- `std::fs::read_link` on the tree mounted at `root`: a symlink's target
at its path, failure on every other path. -/
def readLink (fs : Fs) (root : Bytes) (p : Bytes) : Option (List Component) :=
  ((fs.entries.find? fun e => pathBytes root e.1 = p).map (·.2)).bind Entry.target?

/-- Through the accumulator the oracle is the tree's own. -/
theorem readLink_pathBytes (fs : Fs) (root : Bytes) :
    fs.readLink root ∘ pathBytes root = fs.linkAt := by
  funext ns
  simp only [Function.comp, readLink, linkAt, get, pathBytes_inj]

end Fs

/-- POSIX resolution of a component list from the directory `cur`, `depth`
symlinks deep, reaching `e`. -/
inductive Resolves (fs : Fs) : Nat → List Segment → List Component → List Segment → Prop
  /-- Nothing left: the walk is where it stands. -/
  | nil {d : Nat} {cur : List Segment} : Resolves fs d cur [] cur
  /-- `/` restarts at the root directory. -/
  | rootDir {d : Nat} {cur e : List Segment} {cs : List Component} :
      Resolves fs d [] cs e → Resolves fs d cur (.rootDir :: cs) e
  /-- `.` stays in the directory. -/
  | curDir {d : Nat} {cur e : List Segment} {cs : List Component} :
      fs.IsDir cur → Resolves fs d cur cs e → Resolves fs d cur (.curDir :: cs) e
  /-- `..` goes to the parent directory; at the root, the root. -/
  | parentDir {d : Nat} {cur e : List Segment} {cs : List Component} :
      fs.IsDir cur → Resolves fs d cur.dropLast cs e → Resolves fs d cur (.parentDir :: cs) e
  /-- A name that is no symlink steps to its entry. -/
  | entry {d : Nat} {cur e : List Segment} {n : Segment} {k : Entry} {cs : List Component} :
      fs.IsDir cur → fs.get (cur ++ [n]) = some k → k.target? = none →
      Resolves fs d (cur ++ [n]) cs e → Resolves fs d cur (.normal n :: cs) e
  /-- A symlink's target is resolved, one level deeper, from the directory
  holding it, and the walk goes on from where that ends. -/
  | link {d : Nat} {cur mid e : List Segment} {n : Segment} {t cs : List Component} :
      fs.IsDir cur → fs.get (cur ++ [n]) = some (.symlink t) → d < 255 →
      Resolves fs (d + 1) cur t mid → Resolves fs d mid cs e → Resolves fs d cur (.normal n :: cs) e

/-- **The stack resolver follows POSIX resolution**, from any depth within
the bound. -/
theorem resolveStack_of_resolves {fs : Fs} {d : Nat} {cur e : List Segment}
    {path : List Component} (h : Resolves fs d cur path e) (hd : d ≤ 255) :
    resolveStack fs.linkAt path cur d = .ok e := by
  induction h with
  | nil => exact resolveStack_nil hd
  | rootDir _ ih => rw [resolveStack_cons hd]; exact ih hd
  | curDir _ _ ih => rw [resolveStack_cons hd]; exact ih hd
  | parentDir _ _ ih => rw [resolveStack_cons hd]; exact ih hd
  | entry _ hget hk _ ih =>
    rw [resolveStack_cons hd]
    simp only [stackComponent, Fs.linkAt, hget, Option.some_bind, hk]
    exact ih hd
  | link _ hget hlt _ _ iht ih =>
    rw [resolveStack_cons hd]
    simp only [stackComponent, Fs.linkAt, hget, Option.some_bind, Entry.target?]
    rw [iht (by omega)]
    exact ih hd

/-- **`resolve_abs` refines POSIX resolution.** Where POSIX resolution from
the working directory `cwd` reaches `e` within 255 nested expansions,
`resolve_abs`, seeded at `cwd`'s path, returns `e`'s path. -/
theorem resolveAbs_eq_of_resolves {fs : Fs} {root : Bytes} {path : List Component}
    {cwd e : List Segment} (h : Resolves fs 0 cwd path e) :
    resolveAbs (fs.readLink root) root path (pathBytes root cwd) 0 = .ok (pathBytes root e) := by
  rw [resolveAbs_pathBytes, Fs.readLink_pathBytes, resolveStack_of_resolves h (by omega)]
  rfl

/-- `bin`, `lib` and `init`. -/
def binSegment : Segment := ⟨byteString "bin", by decide, by decide, by decide, by decide⟩
def libSegment : Segment := ⟨byteString "lib", by decide, by decide, by decide, by decide⟩
def initSegment : Segment := ⟨byteString "init", by decide, by decide, by decide, by decide⟩

/-- An image with `bin/init`, `lib/` and `init -> /bin/init`. -/
def imageFs : Fs :=
  ⟨[([binSegment], .dir), ([binSegment, initSegment], .file), ([libSegment], .dir),
    ([initSegment], .symlink [.rootDir, .normal binSegment, .normal initSegment])]⟩

theorem resolves_init : Resolves imageFs 0 [] [.normal initSegment] [binSegment, initSegment] :=
  .link (.inl rfl) (by decide) (by decide)
    (.rootDir (.entry (k := .dir) (.inl rfl) (by decide) rfl
      (.entry (k := .file) (.inr (by decide)) (by decide) rfl .nil))) .nil

/-- `/init` resolves, through its link, to `/newroot/bin/init`. -/
theorem resolveAbs_init :
    Resolves imageFs 0 [] [.normal initSegment] [binSegment, initSegment] ∧
      resolveAbs (imageFs.readLink newroot) newroot [.normal initSegment] (pathBytes newroot []) 0 =
        .ok (pathBytes newroot [binSegment, initSegment]) :=
  ⟨resolves_init, resolveAbs_eq_of_resolves resolves_init⟩

end SunwalkerBox
