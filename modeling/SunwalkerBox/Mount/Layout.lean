import SunwalkerBox.Mount.Create
import SunwalkerBox.Utf8
/-!
# `create_rootfs` on the file system

`Mount.Create` follows `create_rootfs` on the mount table alone, where a
`mkdir` cannot fail. Here the host is its mount table and its file tree
(`Host`): `mkdir`, `symlink` and `File::create` make a node, and fail
with `EEXIST` where one is, or `ENOENT` where the parent is no directory;
a mount needs its target to exist.

**The tree adds no failure and makes the layout** (`createRootfs_layout`).
On a host with nothing at or under `/newroot` and an image whose names are
file names, as `read_dir` gives them (distinct, without `/`),
`create_rootfs` on the host does what it does on the table alone, the same
mounts or the same error, and leaves the tree with `/newroot`, a node for
each entry it clones (a directory, an empty file, or a symlink to the
image's link target) and the four ephemeral directories
(`rootfsLayout`). Three facts of the code carry this: distinct names stay
distinct through `into_string` (`intoString_inj`); the names it skips
include the four it makes afterwards, so no `mkdir` meets a clone; and each
mount's target is made before the mount.

**It runs once** (`createRootfs_twice`): every call it makes only adds to
the tree (`SetupKernel.Grows`), so after a run `/newroot` is there, and a
second run on the same host stops at its first `mkdir`.
-/

namespace SunwalkerBox

/-! ## The file tree -/

/-- What a path names. -/
inductive Node
  | dir
  | file
  | symlink (target : Bytes)
deriving DecidableEq, Repr

/-- The nodes of a file system by absolute path, oldest first; the root `/`
is not listed. -/
abbrev FileTree := List (String × Node)

/-- The directory a path is in: what stands before its last `/`, or `/`. -/
def parentPath (p : String) : String :=
  match ((p.toList.reverse.dropWhile (· != '/')).drop 1).reverse with
  | [] => "/"
  | cs => String.mk cs

example : parentPath "/newroot/bin" = "/newroot" ∧ parentPath "/newroot" = "/" := by decide

namespace FileTree

/-- The node at a path; the root is a directory. -/
def find (t : FileTree) (p : String) : Option Node := if p = "/" then some .dir else t.lookup p

/-- `mkdir`, `symlink`, or `open` with `O_CREAT` of a path that names
nothing: `EEXIST` if it names a node, `ENOENT` unless its parent is a
directory (`ENOTDIR` folded in). -/
def create (t : FileTree) (p : String) (n : Node) : Except ErrorKind FileTree :=
  match t.find p, t.find (parentPath p) with
  | some _, _ => .error .alreadyExists
  | none, some .dir => .ok (t ++ [(p, n)])
  | none, _ => .error .notFound

/-- `File::create`, `open` with `O_CREAT | O_TRUNC`: a file is truncated (the
tree keeps no contents), a directory refused (`EISDIR`); a symlink is not
followed. -/
def createFile (t : FileTree) (p : String) : Except ErrorKind FileTree :=
  match t.find p with
  | some .file => .ok t
  | some .dir => .error .other
  | _ => t.create p .file

variable {t : FileTree} {p : String} {n : Node}

theorem find_append (t' : FileTree) (p : String) : (t ++ t').find p = (t.find p).or (t'.find p) := by
  unfold find
  split <;> simp [List.lookup_append]

@[simp] theorem find_root : t.find "/" = some .dir := if_pos rfl

theorem create_eq_ok (hp : t.find p = none) (hd : t.find (parentPath p) = some .dir) :
    t.create p n = .ok (t ++ [(p, n)]) := by
  simp only [create, hp, hd]

theorem create_of_isSome (hp : (t.find p).isSome) : t.create p n = .error .alreadyExists := by
  obtain ⟨m, hm⟩ := Option.isSome_iff_exists.1 hp
  simp only [create, hm]

/-- A node made is the last one listed, at a path that named nothing. -/
theorem eq_of_create_eq_ok {t' : FileTree} (h : t.create p n = .ok t') :
    t.find p = none ∧ t' = t ++ [(p, n)] := by
  unfold create at h
  split at h <;> cases h
  exact ⟨‹_›, rfl⟩

theorem find_of_prefix {t' : FileTree} (ht : t <+: t') (h : t.find p = some n) : t'.find p = some n := by
  unfold find at h ⊢
  split
  · simpa [*] using h
  · rw [if_neg ‹_›] at h; exact ht.lookup_eq_some h

theorem prefix_of_createFile {t' : FileTree} (h : t.createFile p = .ok t') : t <+: t' := by
  unfold createFile at h
  split at h
  · cases h; exact List.prefix_refl t
  · cases h
  · exact (eq_of_create_eq_ok h).2 ▸ List.prefix_append t _

end FileTree

@[simp] theorem except_map_ok {ε α β : Type} (f : α → β) (a : α) :
    f <$> (Except.ok a : Except ε α) = .ok (f a) := rfl

theorem except_map_eq_ok {ε α β : Type} {f : α → β} {x : Except ε α} {b : β} :
    f <$> x = .ok b ↔ ∃ a, x = .ok a ∧ f a = b := by
  cases x <;> simp [Except.map]

theorem context_eq_ok {α : Type} {msg : String} {x : Except ErrorKind α} {a : α} :
    context msg x = .ok a ↔ x = .ok a := by
  cases x <;> simp [context]

/-! ## Paths under `/newroot` -/

theorem newroot_append_ne_root (name : String) : "/newroot/" ++ name ≠ "/" := fun h => by
  have h' := congrArg String.length h
  rw [String.length_append] at h'
  exact absurd h' (by simp only [show "/newroot/".length = 9 from rfl,
    show "/".length = 1 from rfl]; omega)

theorem newroot_ne_append (name : String) : "/newroot" ≠ "/newroot/" ++ name := fun h => by
  have h' := congrArg String.length h
  rw [String.length_append] at h'
  exact absurd h' (by simp only [show "/newroot/".length = 9 from rfl,
    show "/newroot".length = 8 from rfl]; omega)

theorem startsWith_newroot_append (name : String) : startsWith ("/newroot/" ++ name) "/newroot/" :=
  List.isPrefixOf_iff_prefix.2 ⟨name.toList, by simp [String.toList, String.data_append]⟩

/-- A name without `/` is a child of `/newroot`. -/
theorem parentPath_newroot {name : String} (h : '/' ∉ name.toList) :
    parentPath ("/newroot/" ++ name) = "/newroot" := by
  have hp : ∀ c ∈ name.data.reverse, (c != '/') = true := fun c hc => by
    simpa using fun hc' : c = '/' => h (hc' ▸ List.mem_reverse.1 hc)
  simp only [parentPath, String.toList, String.data_append, List.reverse_append,
    List.dropWhile_append_of_pos hp]
  rfl

/-- `into_string` is injective: distinct names of a directory are distinct
strings. -/
theorem intoString_inj {a b : Bytes} {s : String} (ha : intoString a = some s)
    (hb : intoString b = some s) : a = b := by
  obtain ⟨cs, hcs, rfl⟩ := Option.map_eq_some'.1 ha
  obtain ⟨cs', hcs', ⟨⟩⟩ := Option.map_eq_some'.1 hb
  exact decodeUtf8_inj hcs hcs'

/-- A name whose bytes hold no `/` holds no `/`. -/
theorem slash_not_mem_of_intoString {a : Bytes} {s : String} (h : intoString a = some s)
    (ha : 47 ∉ a) : '/' ∉ s.toList := fun hs => by
  obtain ⟨cs, hcs, rfl⟩ := Option.map_eq_some'.1 h
  exact ha (utf8Bytes_subset_of_mem hcs hs 47 (List.mem_singleton_self _))

/-! ## The host -/

/-- The host as `create_rootfs` changes it: its mount table and its file tree. -/
structure Host where
  mounts : MountTable
  tree : FileTree

/-- A mount of `target` that leaves the table `mounts`: `ENOENT` unless the
target exists. -/
def Host.mountOn (h : Host) (target : String) (mounts : MountTable) : Except ErrorKind Host :=
  if (h.tree.find target).isSome then .ok { h with mounts } else .error .notFound

/-- The host with an image at `root` whose symlinks point at `links`.
`chown`, `set_permissions`, `read_dir` and `remove_file`, which only `reset`
calls, leave it as it is, as in `mountTableKernel`: the tree holds what
`create_rootfs` makes. -/
def hostSetupKernel (root : Bytes) (image : List DirEntry) (links : String → Bytes) :
    SetupKernel Host where
  childMounts pre h := .ok (h.mounts.filter fun x => startsWith x pre)
  mount _ target _ _ _ h := h.mountOn target (h.mounts.mount target)
  bindMount _ target h := h.mountOn target (h.mounts.mount target)
  umount target h := (fun mounts => { h with mounts }) <$> h.mounts.umount target
  chown _ _ _ h := .ok h
  createDir path h := (fun tree => { h with tree }) <$> h.tree.create path .dir
  setPermissions _ _ h := .ok h
  readDir _ _ := .ok []
  removeFile _ h := .ok h
  readDirEntries path _ := if path = root then .ok (image.map .ok) else .error .notFound
  readLink path _ := .ok (links path)
  symlink target link h := (fun tree => { h with tree }) <$> h.tree.create link (.symlink target)
  createFile path h := (fun tree => { h with tree }) <$> h.tree.createFile path
  bindMountOpt source target flags h := h.mountOn target (h.mounts.bindMountOpt source target flags)

/-- The node one image entry adds under `/newroot`, if `create_rootfs`
clones it. -/
def entryNode (root : Bytes) (links : String → Bytes) (e : DirEntry) : Option (String × Node) :=
  match intoString e.fileName with
  | none => none
  | some name =>
    if isCloned name then
      match intoString (joinPath root e.fileName), e.fileType with
      | some path, .ok .symlink => some ("/newroot/" ++ name, .symlink (links path))
      | some _, .ok .dir => some ("/newroot/" ++ name, .dir)
      | some _, .ok .other => some ("/newroot/" ++ name, .file)
      | _, _ => none
    else none

/-- What `create_rootfs` adds to the tree: `/newroot`, the node of each
image entry it clones, then the four ephemeral directories. -/
def rootfsLayout (root : Bytes) (image : List DirEntry) (links : String → Bytes) : FileTree :=
  ("/newroot", .dir) :: image.filterMap (entryNode root links) ++
    ["space", "dev", "proc", "tmp"].map fun name => ("/newroot/" ++ name, .dir)

theorem Host.mountOn_of_isSome {tree : FileTree} {target : String} (ms m : MountTable)
    (ht : (tree.find target).isSome) : (⟨ms, tree⟩ : Host).mountOn target m = .ok ⟨m, tree⟩ :=
  if_pos ht

section
variable (root : Bytes) (image : List DirEntry) (links : String → Bytes) (h : Host) (u : CharTables)

@[simp] theorem hostSetupKernel_createDir (path : String) :
    (hostSetupKernel root image links).createDir path h =
      (fun tree => { h with tree }) <$> h.tree.create path .dir := rfl
@[simp] theorem hostSetupKernel_symlink (target : Bytes) (link : String) :
    (hostSetupKernel root image links).symlink target link h =
      (fun tree => { h with tree }) <$> h.tree.create link (.symlink target) := rfl
@[simp] theorem hostSetupKernel_createFile (path : String) :
    (hostSetupKernel root image links).createFile path h =
      (fun tree => { h with tree }) <$> h.tree.createFile path := rfl
@[simp] theorem hostSetupKernel_bindMount (source target : String) :
    (hostSetupKernel root image links).bindMount source target h =
      h.mountOn target (h.mounts.mount target) := rfl
@[simp] theorem hostSetupKernel_bindMountOpt (source target : String) (flags : List MountFlag) :
    (hostSetupKernel root image links).bindMountOpt source target flags h =
      h.mountOn target (h.mounts.bindMountOpt source target flags) := rfl
@[simp] theorem hostSetupKernel_readLink (path : String) :
    (hostSetupKernel root image links).readLink path h = .ok (links path) := rfl
@[simp] theorem hostSetupKernel_readDirEntries :
    (hostSetupKernel root image links).readDirEntries root h = .ok (image.map .ok) := if_pos rfl
@[simp] theorem hostSetupKernel_childMounts (pre : String) :
    (hostSetupKernel root image links).childMounts pre h =
      .ok (h.mounts.filter fun x => startsWith x pre) := rfl

/-- One pass of the loop on the host, for an entry whose target names
nothing yet: the table gets the entry's mount, the tree its node. -/
theorem cloneEntry_hostSetupKernel (root' : Bytes) (e : DirEntry)
    (hdir : h.tree.find "/newroot" = some .dir) (hslash : 47 ∉ e.fileName)
    (hfree : ∀ name, intoString e.fileName = some name → h.tree.find ("/newroot/" ++ name) = none) :
    cloneEntry (hostSetupKernel root image links) u root' h (.ok e) =
      (fun o => (⟨h.mounts ++ o.toList, h.tree ++ (entryNode root' links e).toList⟩ : Host)) <$>
        entryMount u root' e := by
  simp only [cloneEntry, entryMount, entryNode, context_ok, except_ok_bind]
  cases hname : intoString e.fileName with
  | none => rfl
  | some name =>
    have hcreate : ∀ n, h.tree.create ("/newroot/" ++ name) n =
        .ok (h.tree ++ [("/newroot/" ++ name, n)]) := fun n =>
      FileTree.create_eq_ok (hfree name hname)
        (by rw [parentPath_newroot (slash_not_mem_of_intoString hname hslash)]; exact hdir)
    have hmade : ∀ n ms m, (⟨ms, h.tree ++ [("/newroot/" ++ name, n)]⟩ : Host).mountOn
        ("/newroot/" ++ name) m = .ok ⟨m, h.tree ++ [("/newroot/" ++ name, n)]⟩ := fun n ms m =>
      Host.mountOn_of_isSome ms m
        (by simp [FileTree.find_append, hfree name hname, FileTree.find, newroot_append_ne_root])
    dsimp only
    cases isCloned name with
    | false => simp
    | true =>
      cases intoString (joinPath root' e.fileName) with
      | none => rfl
      | some path =>
        cases e.fileType with
        | error k => rfl
        | ok ft =>
          cases ft <;> simp [bindReadOnly, hcreate, FileTree.createFile, hfree name hname,
            hmade, MountTable.bindMountOpt_remount, MountTable.mount]

end

theorem entryNode_eq_some {root : Bytes} {links : String → Bytes} {e : DirEntry} {x : String × Node}
    (h : entryNode root links e = some x) :
    ∃ name, intoString e.fileName = some name ∧ isCloned name ∧ x.1 = "/newroot/" ++ name := by
  unfold entryNode at h
  split at h
  · cases h
  · split at h
    · split at h <;> cases h <;> exact ⟨_, ‹_›, ‹_›, rfl⟩
    · cases h

/-- A node `create_rootfs` makes for an entry is at no path `/newroot/{name}`
of another name. -/
theorem find_entryNodes {root : Bytes} {links : String → Bytes} {l : List DirEntry} {name : String}
    (hl : ∀ e ∈ l, ∀ name', intoString e.fileName = some name' → isCloned name' → name' ≠ name) :
    FileTree.find (l.filterMap (entryNode root links)) ("/newroot/" ++ name) = none := by
  rw [FileTree.find, if_neg (newroot_append_ne_root name), List.lookup_eq_none_iff]
  intro x hx
  obtain ⟨e, he, hex⟩ := List.mem_filterMap.1 hx
  obtain ⟨name', hname', hc, hx1⟩ := entryNode_eq_some hex
  simpa [hx1] using (hl e he name' hname' hc).symm

section
variable (root : Bytes) (image : List DirEntry) (links : String → Bytes) (u : CharTables)

/-- The loop on the host, for entries of distinct names without `/` whose
targets name nothing yet: the table gets the entries' mounts, the tree
their nodes. -/
theorem foldlM_cloneEntry_host (root' : Bytes) :
    ∀ (l : List DirEntry) (h : Host), h.tree.find "/newroot" = some .dir →
      (l.map DirEntry.fileName).Nodup → (∀ e ∈ l, 47 ∉ e.fileName) →
      (∀ e ∈ l, ∀ name, intoString e.fileName = some name → h.tree.find ("/newroot/" ++ name) = none) →
      (l.map .ok).foldlM (cloneEntry (hostSetupKernel root image links) u root') h =
        (fun os => (⟨h.mounts ++ os.reduceOption, h.tree ++ l.filterMap (entryNode root' links)⟩ : Host)) <$>
          l.mapM (entryMount u root')
  | [], h, _, _, _, _ => by rw [List.mapM_nil]; simp
  | e :: l, h, hdir, hnd, hslash, hfree => by
    rw [List.map_cons, List.nodup_cons] at hnd
    have hfree' : ∀ e' ∈ l, ∀ name, intoString e'.fileName = some name →
        (h.tree ++ (entryNode root' links e).toList).find ("/newroot/" ++ name) = none := by
      intro e' he' name hname
      rw [FileTree.find_append, hfree e' (.tail _ he') name hname, Option.none_or]
      refine find_entryNodes (l := [e]) fun e'' he'' name' hname' _ hne => hnd.1 ?_
      obtain rfl := List.mem_singleton.1 he''
      subst hne
      rw [intoString_inj hname' hname]
      exact List.mem_map_of_mem _ he'
    rw [List.map_cons, List.foldlM_cons, cloneEntry_hostSetupKernel root image links h u root' e hdir
      (hslash e (.head _)) (hfree e (.head _)), List.mapM_cons]
    cases entryMount u root' e with
    | error err => rfl
    | ok o =>
      show (l.map Except.ok).foldlM _
        (⟨h.mounts ++ o.toList, h.tree ++ (entryNode root' links e).toList⟩ : Host) = _
      rw [foldlM_cloneEntry_host root' l _ (by rw [FileTree.find_append, hdir]; rfl) hnd.2
        (fun e he => hslash e (.tail _ he)) hfree']
      cases l.mapM (entryMount u root') with
      | error err => rfl
      | ok os =>
        cases o <;> cases hn : entryNode root' links e <;>
          simp [List.filterMap_cons, hn, List.reduceOption_cons_of_some, List.reduceOption_cons_of_none]

/-- The `mkdir` loop of the ephemeral directories on the host, for distinct
names without `/` that name nothing yet in `/newroot`. -/
theorem foldlM_mkdir_host :
    ∀ (names : List String) (h : Host), h.tree.find "/newroot" = some .dir → names.Nodup →
      (∀ n ∈ names, '/' ∉ n.toList) → (∀ n ∈ names, h.tree.find ("/newroot/" ++ n) = none) →
      names.foldlM (fun s name => context ("Failed to mkdir " ++ ("/newroot/" ++ name))
        ((hostSetupKernel root image links).createDir ("/newroot/" ++ name) s)) h =
        .ok { h with tree := h.tree ++ names.map fun n => ("/newroot/" ++ n, .dir) }
  | [], h, _, _, _, _ => by simp
  | n :: names, h, hdir, hnd, hslash, hfree => by
    rw [List.nodup_cons] at hnd
    have hfree' : ∀ n' ∈ names,
        (h.tree ++ [("/newroot/" ++ n, Node.dir)]).find ("/newroot/" ++ n') = none := by
      intro n' hn'
      rw [FileTree.find_append, hfree n' (.tail _ hn'), Option.none_or, FileTree.find,
        if_neg (newroot_append_ne_root n')]
      simpa using fun heq : n' = n => hnd.1 (heq ▸ hn')
    rw [List.foldlM_cons, hostSetupKernel_createDir, FileTree.create_eq_ok (hfree n (.head _))
      (by rw [parentPath_newroot (hslash n (.head _))]; exact hdir)]
    show names.foldlM _ ({ h with tree := h.tree ++ [("/newroot/" ++ n, Node.dir)] } : Host) = _
    rw [foldlM_mkdir_host names _ (by rw [FileTree.find_append, hdir]; rfl) hnd.2
      (fun n' hn' => hslash n' (.tail _ hn')) hfree']
    simp

end

/-- The four ephemeral directories are among the names `create_rootfs` does
not clone. -/
theorem isCloned_ephemeral {name : String} (h : name ∈ ["space", "dev", "proc", "tmp"]) :
    isCloned name = false := by
  simp only [List.mem_cons, List.mem_singleton, List.not_mem_nil, or_false] at h
  rcases h with rfl | rfl | rfl | rfl <;> rfl

/-- `/newroot` is at no path `/newroot/{name}`. -/
theorem find_newroot_append (name : String) :
    FileTree.find [("/newroot", Node.dir)] ("/newroot/" ++ name) = none := by
  rw [FileTree.find, if_neg (newroot_append_ne_root name)]
  simpa using (newroot_ne_append name).symm

/-- A tree with nothing at or under `/newroot` has no `/newroot` and no
`/newroot/{name}`. -/
theorem find_newroot_of_fresh {tr : FileTree}
    (hfresh : ∀ x ∈ tr, x.1 ≠ "/newroot" ∧ ¬startsWith x.1 "/newroot/") :
    tr.find "/newroot" = none ∧ ∀ name, tr.find ("/newroot/" ++ name) = none := by
  refine ⟨?_, fun name => ?_⟩
  · rw [FileTree.find, if_neg (by decide), List.lookup_eq_none_iff]
    exact fun x hx => by simpa using (hfresh x hx).1.symm
  · rw [FileTree.find, if_neg (newroot_append_ne_root name), List.lookup_eq_none_iff]
    intro x hx
    simpa using fun heq : "/newroot/" ++ name = x.1 =>
      (hfresh x hx).2 (heq ▸ startsWith_newroot_append name)

section
variable (root : Bytes) (image : List DirEntry) (links : String → Bytes) (u : CharTables)

/-- **`create_rootfs` on the host**, in closed form, for a host with nothing
at or under `/newroot` and an image of distinct names without `/`. -/
theorem createRootfs_hostSetupKernel (t : MountTable) (tr : FileTree)
    (hfresh : ∀ x ∈ tr, x.1 ≠ "/newroot" ∧ ¬startsWith x.1 "/newroot/")
    (hnames : (image.map DirEntry.fileName).Nodup) (hslash : ∀ e ∈ image, 47 ∉ e.fileName) :
    createRootfs (hostSetupKernel root image links) u root ⟨t, tr⟩ =
      (fun os =>
        let T := (t ++ os.reduceOption).bindMountOpt "/dev" "/newroot/dev" [.msRec]
        (countMountPoints (T.filter fun x => startsWith x "/newroot/"),
          (⟨T, tr ++ rootfsLayout root image links⟩ : Host))) <$>
        image.mapM (entryMount u root) := by
  obtain ⟨hnew, hchild⟩ := find_newroot_of_fresh hfresh
  have hdir : (tr ++ [("/newroot", Node.dir)]).find "/newroot" = some .dir := by
    rw [FileTree.find_append, hnew]; rfl
  have hfree : ∀ name, (tr ++ [("/newroot", Node.dir)]).find ("/newroot/" ++ name) = none := fun name => by
    rw [FileTree.find_append, hchild, find_newroot_append]; rfl
  simp only [createRootfs]
  rw [hostSetupKernel_createDir, FileTree.create_eq_ok hnew
      (show tr.find (parentPath "/newroot") = some .dir from FileTree.find_root)]
  simp only [except_map_ok, context_ok, except_ok_bind, hostSetupKernel_readDirEntries,
    foldlM_cloneEntry_host root image links u root image ⟨t, tr ++ [("/newroot", Node.dir)]⟩ hdir hnames
      hslash fun _ _ name _ => hfree name]
  cases image.mapM (entryMount u root) with
  | error err => rfl
  | ok os =>
    have hclones : ∀ n ∈ ["space", "dev", "proc", "tmp"],
        (tr ++ [("/newroot", Node.dir)] ++ image.filterMap (entryNode root links)).find ("/newroot/" ++ n) =
          none := fun n hn => by
      rw [FileTree.find_append, hfree, Option.none_or]
      exact find_entryNodes fun _ _ name' _ hc heq => by
        rw [heq, isCloned_ephemeral hn] at hc; cases hc
    simp only [except_map_ok, except_ok_bind]
    rw [foldlM_mkdir_host root image links _ _ (by rw [FileTree.find_append, hdir]; rfl) (by decide)
      (by decide) hclones]
    have hlayout : tr ++ [("/newroot", Node.dir)] ++ image.filterMap (entryNode root links) ++
        ["space", "dev", "proc", "tmp"].map (fun n => ("/newroot/" ++ n, Node.dir)) =
          tr ++ rootfsLayout root image links := by
      simp [rootfsLayout]
    have hdev : ((tr ++ rootfsLayout root image links).find "/newroot/dev").isSome := by
      rw [← hlayout, FileTree.find_append, show "/newroot/dev" = "/newroot/" ++ "dev" from rfl,
        hclones "dev" (by decide), Option.none_or]
      rfl
    simp only [except_ok_bind, hostSetupKernel_bindMountOpt, hlayout, Host.mountOn_of_isSome _ _ hdev,
      context_ok,
      MountTable.bindMountOpt_remount (show MountFlag.msRemount ∈ [.msRemount, .msRdonly] from .head _),
      hostSetupKernel_childMounts, except_pure, except_map_ok]

end

/-- **The file tree adds no failure and makes the layout.** On a host with
nothing at or under `/newroot`, and an image whose names are file names
(distinct, without `/`), `create_rootfs` on the host does to the mount
table what it does on the table alone (the same mounts and baseline, or
the same error), and adds to the tree `/newroot`, the node of each entry it
clones and the four ephemeral directories. -/
theorem createRootfs_layout (root : Bytes) (image : List DirEntry) (links : String → Bytes)
    (u : CharTables) (t : MountTable) (tr : FileTree) (hfresh : ∀ x ∈ tr, x.1 ≠ "/newroot" ∧ ¬startsWith x.1 "/newroot/")
    (hnames : (image.map DirEntry.fileName).Nodup) (hslash : ∀ e ∈ image, 47 ∉ e.fileName) :
    createRootfs (hostSetupKernel root image links) u root ⟨t, tr⟩ =
      (fun r => (r.1, (⟨r.2, tr ++ rootfsLayout root image links⟩ : Host))) <$>
        createRootfs (mountTableSetupKernel root image links) u root t := by
  rw [createRootfs_hostSetupKernel root image links u t tr hfresh hnames hslash,
    createRootfs_mountTableSetupKernel]
  cases image.mapM (entryMount u root) <;> rfl

/-- A host tree with `/dev` and the image's directory. -/
def hostTree : FileTree := [("/dev", .dir), ("/srv", .dir), ("/srv/image", .dir)]

/-- The host with `sampleImage` at `sampleRoot`. -/
def sampleHostKernel : SetupKernel Host :=
  hostSetupKernel sampleRoot sampleImage fun _ => byteString "usr/lib"

theorem sampleImage_layout :
    (∀ x ∈ hostTree, x.1 ≠ "/newroot" ∧ ¬startsWith x.1 "/newroot/") ∧
      (sampleImage.map DirEntry.fileName).Nodup ∧ (∀ e ∈ sampleImage, 47 ∉ e.fileName) ∧
      createRootfs sampleHostKernel sampleTables sampleRoot ⟨hostTable, hostTree⟩ =
        (fun r => (r.1, (⟨r.2, hostTree ++ rootfsLayout sampleRoot sampleImage
          fun _ => byteString "usr/lib"⟩ : Host))) <$> createRootfs sampleSetupKernel sampleTables sampleRoot hostTable :=
  ⟨by decide, by decide, by decide, createRootfs_layout sampleRoot sampleImage (fun _ => byteString "usr/lib")
    sampleTables hostTable hostTree (by decide) (by decide) (by decide)⟩

example : (·.2.tree) <$> createRootfs sampleHostKernel sampleTables sampleRoot ⟨hostTable, hostTree⟩ =
    .ok (hostTree ++ [("/newroot", .dir), ("/newroot/bin", .dir),
      ("/newroot/lib", .symlink (byteString "usr/lib")), ("/newroot/etc", .dir), ("/newroot/space", .dir),
      ("/newroot/dev", .dir), ("/newroot/proc", .dir), ("/newroot/tmp", .dir)]) := rfl

/-! ## It runs once -/

/-- The calls of `create_rootfs` that change the state only add nodes to
the tree `tree` reads off it. -/
structure SetupKernel.Grows {σ : Type} (k : SetupKernel σ) (tree : σ → FileTree) : Prop where
  createDir : ∀ p s s', k.createDir p s = .ok s' → tree s <+: tree s'
  symlink : ∀ target link s s', k.symlink target link s = .ok s' → tree s <+: tree s'
  createFile : ∀ p s s', k.createFile p s = .ok s' → tree s <+: tree s'
  bindMount : ∀ source target s s', k.bindMount source target s = .ok s' → tree s <+: tree s'
  bindMountOpt : ∀ source target flags s s',
    k.bindMountOpt source target flags s = .ok s' → tree s <+: tree s'

theorem Host.tree_of_mountOn {h h' : Host} {target : String} {m : MountTable}
    (hm : h.mountOn target m = .ok h') : h'.tree = h.tree := by
  unfold Host.mountOn at hm
  split at hm <;> cases hm
  rfl

theorem hostSetupKernel_grows (root : Bytes) (image : List DirEntry) (links : String → Bytes) :
    (hostSetupKernel root image links).Grows Host.tree where
  createDir _ _ _ h := by
    obtain ⟨_, ht, rfl⟩ := except_map_eq_ok.1 h
    exact (FileTree.eq_of_create_eq_ok ht).2 ▸ List.prefix_append _ _
  symlink _ _ _ _ h := by
    obtain ⟨_, ht, rfl⟩ := except_map_eq_ok.1 h
    exact (FileTree.eq_of_create_eq_ok ht).2 ▸ List.prefix_append _ _
  createFile _ _ _ h := by
    obtain ⟨_, ht, rfl⟩ := except_map_eq_ok.1 h
    exact FileTree.prefix_of_createFile ht
  bindMount _ _ _ _ h := (Host.tree_of_mountOn h).symm ▸ List.prefix_refl _
  bindMountOpt _ _ _ _ _ h := (Host.tree_of_mountOn h).symm ▸ List.prefix_refl _

section
variable {σ : Type} {k : SetupKernel σ} {tree : σ → FileTree} (hk : k.Grows tree)
include hk

theorem SetupKernel.Grows.bindReadOnly {source target : String} {s s' : σ}
    (h : bindReadOnly k source target s = .ok s') : tree s <+: tree s' := by
  obtain ⟨s₁, h₁, h₂⟩ := except_bind_eq_ok.1 h
  exact (hk.bindMount _ _ _ _ (context_eq_ok.1 h₁)).trans (hk.bindMountOpt _ _ _ _ _ (context_eq_ok.1 h₂))

theorem SetupKernel.Grows.cloneEntry {u : CharTables} {root : Bytes} {s s' : σ} {e : Except ErrorKind DirEntry}
    (h : cloneEntry k u root s e = .ok s') : tree s <+: tree s' := by
  unfold SunwalkerBox.cloneEntry at h
  obtain ⟨entry, -, h⟩ := except_bind_eq_ok.1 h
  split at h
  · split at h
    · dsimp only at h
      split at h
      · obtain ⟨ft, -, h⟩ := except_bind_eq_ok.1 h
        split at h
        · obtain ⟨_, -, h⟩ := except_bind_eq_ok.1 h
          exact hk.symlink _ _ _ _ (context_eq_ok.1 h)
        · obtain ⟨s₁, h₁, h⟩ := except_bind_eq_ok.1 h
          exact (hk.createDir _ _ _ (context_eq_ok.1 h₁)).trans (hk.bindReadOnly h)
        · obtain ⟨s₁, h₁, h⟩ := except_bind_eq_ok.1 h
          exact (hk.createFile _ _ _ (context_eq_ok.1 h₁)).trans (hk.bindReadOnly h)
      · cases h
    · cases h; exact List.prefix_refl _
  · cases h

/-- A run of `create_rootfs` makes `/newroot` first, and then only adds to
the tree. -/
theorem SetupKernel.Grows.createRootfs {u : CharTables} {root : Bytes} {s s' : σ} {st : RootfsState}
    (h : createRootfs k u root s = .ok (st, s')) :
    ∃ s₁, k.createDir "/newroot" s = .ok s₁ ∧ tree s₁ <+: tree s' := by
  unfold SunwalkerBox.createRootfs at h
  obtain ⟨s₁, h₁, h⟩ := except_bind_eq_ok.1 h
  refine ⟨s₁, context_eq_ok.1 h₁, ?_⟩
  obtain ⟨_, -, h⟩ := except_bind_eq_ok.1 h
  obtain ⟨s₂, h₂, h⟩ := except_bind_eq_ok.1 h
  obtain ⟨s₃, h₃, h⟩ := except_bind_eq_ok.1 h
  obtain ⟨s₄, h₄, h⟩ := except_bind_eq_ok.1 h
  obtain ⟨s₅, h₅, h⟩ := except_bind_eq_ok.1 h
  obtain ⟨_, -, h⟩ := except_bind_eq_ok.1 h
  cases h
  have hp₂ := foldlM_invariant (P := fun s => tree s₁ <+: tree s)
    (fun _ _ _ hb hs => hb.trans (hk.cloneEntry hs)) _ (List.prefix_refl _) h₂
  have hp₃ := foldlM_invariant (P := fun s => tree s₁ <+: tree s)
    (fun _ _ _ hb hs => hb.trans (hk.createDir _ _ _ (context_eq_ok.1 hs))) _ hp₂ h₃
  exact (hp₃.trans (hk.bindMountOpt _ _ _ _ _ (context_eq_ok.1 h₄))).trans
    (hk.bindMountOpt _ _ _ _ _ (context_eq_ok.1 h₅))

end

/-- **`create_rootfs` runs once.** Whatever the host and the image, a second
run on the host a successful run leaves stops at its first step: `/newroot`
is there, and `mkdir` fails with `EEXIST`. -/
theorem createRootfs_twice (root : Bytes) (image : List DirEntry) (links : String → Bytes)
    (u : CharTables) (h : Host) (st : RootfsState) (h' : Host)
    (hrun : createRootfs (hostSetupKernel root image links) u root h = .ok (st, h')) :
    createRootfs (hostSetupKernel root image links) u root h' =
      .error ⟨"Failed to mkdir /newroot", some .alreadyExists⟩ := by
  obtain ⟨h₁, hmk, hpre⟩ := (hostSetupKernel_grows root image links).createRootfs hrun
  obtain ⟨t₁, ht₁, rfl⟩ := except_map_eq_ok.1 hmk
  obtain ⟨hnone, rfl⟩ := FileTree.eq_of_create_eq_ok ht₁
  have hnew : (h'.tree.find "/newroot").isSome := by
    rw [FileTree.find_of_prefix hpre (n := .dir) (by rw [FileTree.find_append, hnone]; rfl)]; rfl
  simp only [createRootfs, hostSetupKernel_createDir, FileTree.create_of_isSome hnew]
  rfl

theorem sampleImage_twice : ∃ st h', createRootfs sampleHostKernel sampleTables sampleRoot ⟨hostTable, hostTree⟩ =
    .ok (st, h') ∧ createRootfs sampleHostKernel sampleTables sampleRoot h' =
      .error ⟨"Failed to mkdir /newroot", some .alreadyExists⟩ := by
  obtain ⟨st, h', hrun⟩ : ∃ st h', createRootfs sampleHostKernel sampleTables sampleRoot ⟨hostTable, hostTree⟩ =
    .ok (st, h') := ⟨_, _, rfl⟩
  exact ⟨st, h', hrun, createRootfs_twice sampleRoot sampleImage _ _ _ st h' hrun⟩

end SunwalkerBox
