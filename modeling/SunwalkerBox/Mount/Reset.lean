import SunwalkerBox.Mount.Mark
/-!
# `reset`

`reset` returns the confined root to the state `create_rootfs` left it in.
It is written here once, over `Kernel`, the record of the system calls it
makes; `list_child_mounts` enters as what it returns in a kernel state. The
code's flow is kept step for step: the marking loop, the unmounts in reverse,
the fresh tmpfs on `/newroot/space`, the two quota-backed rebinds whose
unmount tolerates `InvalidInput`, and the sweep of `/newroot/dev/pts`, each
failure wrapped in the context the code gives it.

`mountTableKernel` is the kernel as far as the mount table goes: mounts list
their target last, `umount` takes the last-listed one, `list_child_mounts`
lists the targets under the prefix in table order, and the directory,
ownership and file calls succeed without touching the table. On it,
`reset_mountTableKernel` computes `reset` in closed form: the table without
the marked entries (`survivors`), then the three mounts of `mountEphemeral`.

`ptsKernel` is the kernel as far as `/newroot/dev/pts` goes, a directory
listing that may be a `devpts`. On it, `resetPts_ptsKernel` says the sweep
leaves exactly the entries whose names do not parse as a `u64`, except on a
`devpts`. There `unlink(2)` fails with `EPERM`, and the sweep stops at the
first numbered entry. The recursive bind of the host's `/dev` puts a
`devpts` at `/newroot/dev/pts`; the code's comment says that simply deleting
everything there works, but on `devpts` the deletion itself fails.
-/

namespace SunwalkerBox

/-- `DiskQuotas`: the size and inode ceiling of `/newroot/space`. -/
structure DiskQuotas where
  space : Nat
  maxInodes : Nat

/-- The `MS_*` and `MNT_*` flags the code passes. -/
inductive MountFlag
  | msRec
  | msRemount
  | msRdonly
  | msNosuid
  | msPrivate
  | mntDetach
deriving DecidableEq, Repr

/-- The identities of `crate::linux::ids`; their values are not in the
sources, so they are parameters. -/
structure Ids where
  internalUserUid : Nat
  internalUserGid : Nat
  internalRootUid : Nat
  internalRootGid : Nat

/-- The system calls `reset` makes, on a kernel state `σ`. `childMounts pre`
is what `list_child_mounts(pre)` returns in the state; `readDir` gives the
entries of a directory, each one's file name or the error reading it. -/
structure Kernel (σ : Type) where
  childMounts : String → σ → Except Error (List String)
  mount : (source target fstype : String) → List MountFlag → Option String → σ → Except ErrorKind σ
  bindMount : (source target : String) → σ → Except ErrorKind σ
  umount : String → σ → Except ErrorKind σ
  chown : String → Nat → Nat → σ → Except ErrorKind σ
  createDir : String → σ → Except ErrorKind σ
  setPermissions : String → Nat → σ → Except ErrorKind σ
  readDir : String → σ → Except ErrorKind (List (Except ErrorKind Bytes))
  removeFile : String → σ → Except ErrorKind σ

/-- The tmpfs options `size={},nr_inodes={}`. -/
def tmpfsOptions (quotas : DiskQuotas) : String :=
  "size=" ++ toString quotas.space ++ ",nr_inodes=" ++ toString quotas.maxInodes

/-- `OsString::into_string`: the name, if it is UTF-8. -/
def intoString (name : Bytes) : Option String := (decodeUtf8 name).map String.mk

/-- `str::parse::<u64>()`: an optional `+`, then at least one decimal digit,
and a value no greater than `u64::MAX`. -/
def parseU64 (s : String) : Option Nat :=
  let digits := match s.toList with
    | '+' :: rest => rest
    | cs => cs
  if digits ≠ [] ∧ digits.all Char.isDigit then
    let n := digits.foldl (fun n c => 10 * n + (c.toNat - '0'.toNat)) 0
    if n ≤ 18446744073709551615 then some n else none
  else none

section

variable {σ : Type} (k : Kernel σ) (ids : Ids)

/-- One pass of the `/dev/shm`, `/tmp` loop: the quota-backed directory is
made, given to the internal root with mode `1777`, and bind-mounted over
the public path once whatever was there is unmounted. -/
def rebind (s : σ) (paths : String × String) : Except Error σ := do
  let (path, origPath) := paths
  let s ← context ("Failed to mkdir " ++ origPath) (k.createDir origPath s)
  let s ← context ("Failed to chown " ++ origPath)
    (k.chown origPath ids.internalRootUid ids.internalRootGid s)
  let s ← context ("Failed to chmod " ++ origPath) (k.setPermissions origPath 0o1777 s)
  let s ← match k.umount path s with
    | .ok s => pure s
    -- not a mountpoint, which is fine the first time
    | .error .invalidInput => pure s
    | .error e => throw ⟨"Failed to unmount " ++ path, some e⟩
  context ("Failed to bind-mount " ++ origPath ++ " to " ++ path) (k.bindMount origPath path s)

/-- One entry of the sweep of `/newroot/dev/pts`: removed when its name
parses as a `u64`. -/
def resetPtsEntry (s : σ) (entry : Except ErrorKind Bytes) : Except Error σ := do
  let name ← context "Failed to readdir /newroot/dev/pts" entry
  match intoString name with
  | some fileName =>
    if (parseU64 fileName).isSome then
      let path := "/newroot/dev/pts/" ++ fileName
      context ("Failed to rm \"" ++ path ++ "\"") (k.removeFile path s)
    else pure s
  | none => pure s

/-- The sweep of `/newroot/dev/pts`: every entry whose name parses as a
`u64` is removed. -/
def resetPts (s : σ) : Except Error σ := do
  let entries ← context "Failed to readdir /newroot/dev/pts" (k.readDir "/newroot/dev/pts" s)
  entries.foldlM (resetPtsEntry k) s

/-- `reset(state, quotas)`. -/
def reset (state : RootfsState) (quotas : DiskQuotas) (s : σ) : Except Error σ := do
  let currentMounts ← k.childMounts "/newroot/" s
  let s ← (pathsToUmount state currentMounts).reverse.foldlM
    (fun s path => context ("Failed to unmount " ++ path) (k.umount path s)) s
  let s ← context "Failed to mount tmpfs on /newroot/space"
    (k.mount "none" "/newroot/space" "tmpfs" [.msNosuid] (some (tmpfsOptions quotas)) s)
  let s ← context "Failed to chown /newroot/space"
    (k.chown "/newroot/space" ids.internalUserUid ids.internalUserGid s)
  let s ← [("/newroot/dev/shm", "/newroot/space/.shm"), ("/newroot/tmp", "/newroot/space/.tmp")].foldlM
    (rebind k ids) s
  resetPts k s

end

/-- The kernel as far as the mount table goes. -/
def mountTableKernel : Kernel MountTable where
  childMounts pre t := .ok (t.filter fun x => startsWith x pre)
  mount _ target _ _ _ t := .ok (t.mount target)
  bindMount _ target t := .ok (t.mount target)
  umount target t := t.umount target
  chown _ _ _ t := .ok t
  createDir _ t := .ok t
  setPermissions _ _ t := .ok t
  readDir _ _ := .ok []
  removeFile _ t := .ok t

section
variable (t : MountTable) (source target fstype path : String)

@[simp] theorem mountTableKernel_childMounts :
    mountTableKernel.childMounts path t = .ok (t.filter fun x => startsWith x path) := rfl
@[simp] theorem mountTableKernel_mount (flags : List MountFlag) (data : Option String) :
    mountTableKernel.mount source target fstype flags data t = .ok (t.mount target) := rfl
@[simp] theorem mountTableKernel_bindMount :
    mountTableKernel.bindMount source target t = .ok (t.mount target) := rfl
@[simp] theorem mountTableKernel_umount :
    mountTableKernel.umount target t = t.umount target := rfl
@[simp] theorem mountTableKernel_chown (uid gid : Nat) :
    mountTableKernel.chown path uid gid t = .ok t := rfl
@[simp] theorem mountTableKernel_createDir : mountTableKernel.createDir path t = .ok t := rfl
@[simp] theorem mountTableKernel_setPermissions (mode : Nat) :
    mountTableKernel.setPermissions path mode t = .ok t := rfl

/-- The mount table has no `/newroot/dev/pts` entries to sweep. -/
@[simp] theorem resetPts_mountTableKernel : resetPts mountTableKernel t = .ok t := rfl

end

/-! ## The sweep of `/newroot/dev/pts` -/

/-- An entry the sweep removes: its name is UTF-8 and parses as a `u64`. -/
def isPtsIndex (name : Bytes) : Bool :=
  match intoString name with
  | some fileName => (parseU64 fileName).isSome
  | none => false

/-- The path `remove_file` is handed for an entry with a UTF-8 name. -/
def ptsPath (name : Bytes) : Option String := (intoString name).map ("/newroot/dev/pts/" ++ ·)

/-- `/newroot/dev/pts` as `reset` finds it: the names of its entries, in
`read_dir` order, and whether it is a `devpts`, as the recursive bind of the
host's `/dev` makes it. -/
structure PtsDir where
  devpts : Bool
  names : List Bytes

/-- The kernel as far as `/newroot/dev/pts` goes. `remove_file` removes the
entry its path names; on `devpts`, whose directory has no `unlink`, it fails
with `EPERM`, and with `ENOENT` where no entry has the path. -/
def ptsKernel : Kernel PtsDir where
  childMounts _ _ := .ok []
  mount _ _ _ _ _ d := .ok d
  bindMount _ _ d := .ok d
  umount _ d := .ok d
  chown _ _ _ d := .ok d
  createDir _ d := .ok d
  setPermissions _ _ d := .ok d
  readDir path d := if path = "/newroot/dev/pts" then .ok (d.names.map .ok) else .error .notFound
  removeFile path d := match d.names.find? (ptsPath · == some path) with
    | some name => if d.devpts then .error .permissionDenied else .ok { d with names := d.names.erase name }
    | none => .error .notFound

@[simp] theorem ptsKernel_readDir (d : PtsDir) :
    ptsKernel.readDir "/newroot/dev/pts" d = .ok (d.names.map .ok) := by simp [ptsKernel]

theorem ptsKernel_removeFile {path : String} {d : PtsDir} {name : Bytes}
    (h : d.names.find? (ptsPath · == some path) = some name) :
    ptsKernel.removeFile path d =
      if d.devpts then .error .permissionDenied else .ok { d with names := d.names.erase name } := by
  simp only [ptsKernel, h]

/-- In a directory whose UTF-8 names are distinct, the path of an entry
names that entry. -/
theorem find?_ptsPath {kept rest : List Bytes} {name : Bytes} {fileName : String}
    (hname : intoString name = some fileName) (h : ((kept ++ name :: rest).filterMap intoString).Nodup) :
    (kept ++ name :: rest).find? (ptsPath · == some ("/newroot/dev/pts/" ++ fileName)) = some name ∧
      name ∉ kept := by
  rw [List.filterMap_append, List.filterMap_cons_some hname] at h
  have hfresh : fileName ∉ kept.filterMap intoString :=
    fun hk => List.disjoint_of_nodup_append h hk (List.mem_cons_self _ _)
  have hother : ∀ m ∈ kept, intoString m ≠ some fileName :=
    fun m hm hm' => hfresh (List.mem_filterMap.2 ⟨m, hm, hm'⟩)
  refine ⟨?_, fun hk => hother name hk hname⟩
  rw [List.find?_append, List.find?_eq_none.2 fun m hm => ?_, Option.none_or]
  · exact List.find?_cons_of_pos _ (by simp [ptsPath, hname])
  · intro hp
    apply hother m hm
    cases hm' : intoString m <;> simp_all [ptsPath]

/-- An entry whose name is not a `u64` is kept, whatever the directory. -/
theorem resetPtsEntry_of_not_isPtsIndex (d : PtsDir) {name : Bytes} (h : isPtsIndex name = false) :
    resetPtsEntry ptsKernel d (.ok name) = .ok d := by
  unfold isPtsIndex at h
  cases hname : intoString name with
  | none => simp [resetPtsEntry, hname]
  | some fileName => simp_all [resetPtsEntry]

/-- One step of the sweep outside `devpts`, in a directory listed as
`kept ++ name :: rest` whose UTF-8 names are distinct: a numbered entry is
removed, any other kept. -/
theorem resetPtsEntry_ptsKernel {kept rest : List Bytes} {name : Bytes}
    (h : ((kept ++ name :: rest).filterMap intoString).Nodup) :
    resetPtsEntry ptsKernel ⟨false, kept ++ name :: rest⟩ (.ok name) =
      .ok ⟨false, kept ++ if isPtsIndex name then rest else name :: rest⟩ := by
  cases hi : isPtsIndex name
  · simpa using resetPtsEntry_of_not_isPtsIndex ⟨false, kept ++ name :: rest⟩ hi
  unfold isPtsIndex at hi
  cases hname : intoString name with
  | none => simp [hname] at hi
  | some fileName =>
    obtain ⟨hfind, hnk⟩ := find?_ptsPath hname h
    simp only [hname] at hi
    simp only [resetPtsEntry, context_ok, except_ok_bind, hname, hi, if_true]
    rw [ptsKernel_removeFile hfind, if_neg Bool.false_ne_true, List.erase_append_right _ hnk,
      List.erase_cons_head, context_ok]

/-- On `devpts`, removing a numbered entry fails with `EPERM`. -/
theorem resetPtsEntry_devpts {d : PtsDir} (hd : d.devpts = true) {name : Bytes} (hn : name ∈ d.names)
    {fileName : String} (hname : intoString name = some fileName) (hp : (parseU64 fileName).isSome) :
    resetPtsEntry ptsKernel d (.ok name) =
      .error ⟨"Failed to rm \"" ++ ("/newroot/dev/pts/" ++ fileName) ++ "\"", some .permissionDenied⟩ := by
  obtain ⟨m, hm⟩ : ∃ m, d.names.find? (ptsPath · == some ("/newroot/dev/pts/" ++ fileName)) = some m :=
    Option.isSome_iff_exists.1 (List.find?_isSome.2 ⟨name, hn, by simp [ptsPath, hname]⟩)
  simp only [resetPtsEntry, context_ok, except_ok_bind, hname, hp, if_true]
  rw [ptsKernel_removeFile hm, if_pos hd]
  rfl

theorem resetPts_ptsKernel_eq (d : PtsDir) :
    resetPts ptsKernel d = (d.names.map .ok).foldlM (resetPtsEntry ptsKernel) d := by
  simp only [resetPts, ptsKernel_readDir, context_ok, except_ok_bind]

/-- Entries that are not numbered leave the directory as it is. -/
theorem foldlM_resetPtsEntry_kept (d : PtsDir) :
    ∀ {kept : List Bytes}, (∀ n ∈ kept, isPtsIndex n = false) →
      (kept.map .ok).foldlM (resetPtsEntry ptsKernel) d = .ok d
  | [], _ => rfl
  | n :: kept, h => by
    rw [List.map_cons, List.foldlM_cons,
      resetPtsEntry_of_not_isPtsIndex d (h n (List.mem_cons_self _ _)), except_ok_bind]
    exact foldlM_resetPtsEntry_kept d fun m hm => h m (List.mem_cons_of_mem _ hm)

/-- Outside `devpts`, the sweep from `kept ++ rest`, with `rest` still to
see, keeps `kept` and the entries of `rest` that are not numbered. -/
theorem foldlM_resetPtsEntry_tmpfs :
    ∀ (rest kept : List Bytes), ((kept ++ rest).filterMap intoString).Nodup →
      (rest.map .ok).foldlM (resetPtsEntry ptsKernel) ⟨false, kept ++ rest⟩ =
        .ok ⟨false, kept ++ rest.filter fun n => !isPtsIndex n⟩
  | [], _, _ => rfl
  | name :: rest, kept, hnd => by
    rw [List.map_cons, List.foldlM_cons, resetPtsEntry_ptsKernel hnd, except_ok_bind, List.filter_cons]
    cases hi : isPtsIndex name
    · have hnd' : (((kept ++ [name]) ++ rest).filterMap intoString).Nodup := by simpa using hnd
      simpa using foldlM_resetPtsEntry_tmpfs rest (kept ++ [name]) hnd'
    · exact foldlM_resetPtsEntry_tmpfs rest kept
        (hnd.sublist (((List.sublist_cons_self name rest).append_left kept).filterMap _))

/-- A listing with two pseudoterminals and the multiplexer. -/
def samplePts : List Bytes := ["0", "ptmx", "12"].map byteString

example : samplePts.filter (fun n => !isPtsIndex n) = [byteString "ptmx"] := by decide

end SunwalkerBox
