import SunwalkerBox.Mount.Restore
import Mathlib.Data.List.ReduceOption
/-!
# `create_rootfs`

`create_rootfs` builds the box's root under `/newroot`: it binds every
top-level entry of the image read-only at `/newroot/{name}`, except
`space`, `dev`, `proc` and `tmp`, which it mounts over itself, and `sys`,
which is too dangerous to show; a symlink is copied instead of bound. It
then makes the four ephemeral directories, binds the host's `/dev`
recursively and read-only, and counts the mounts under `/newroot/`: that
count is the baseline `reset` restores.

It is written over `SetupKernel`, the calls of `reset`'s `Kernel` and the
few more this one makes. `mountTableSetupKernel` extends
`mountTableKernel` to them: a remount changes no entry, and a recursive
bind lists its target and then a copy of every mount under the source.

On it, `createRootfs_mountTableSetupKernel` computes `create_rootfs` in
closed form, each image entry by `entryMount`: the mount it adds, or the
error it stops at. **It exposes nothing else** (`createRootfs_exposes`):
every mount it adds is `/newroot/dev`, under `/newroot/dev/`, or
`/newroot/{name}` for an image entry it clones, so never `/newroot/sys`;
and the table it leaves holds the baseline it counts
(`restored_countMountPoints`).

A name or a path that is not UTF-8 is printed in the error with `{:?}`,
whose escapes read Unicode tables of `core` that are not in the sources:
they enter as `CharTables`.
-/

namespace SunwalkerBox

/-- What `DirEntry::file_type` tells apart. -/
inductive FileType
  | symlink
  | dir
  | other
deriving DecidableEq, Repr

/-- A `read_dir` entry: its file name, and its type or the error reading it. -/
structure DirEntry where
  fileName : Bytes
  fileType : Except ErrorKind FileType

/-- The system calls `create_rootfs` makes besides those of `reset`. A link
target is a path, so bytes. -/
structure SetupKernel (σ : Type) extends Kernel σ where
  readDirEntries : Bytes → σ → Except ErrorKind (List (Except ErrorKind DirEntry))
  readLink : String → σ → Except ErrorKind Bytes
  symlink : (target : Bytes) → (link : String) → σ → Except ErrorKind σ
  createFile : String → σ → Except ErrorKind σ
  bindMountOpt : (source target : String) → List MountFlag → σ → Except ErrorKind σ

/-! ## `{:?}` of an `OsStr` -/

/-- The Unicode tables of `core` that `char::escape_debug` reads. They are
not in the sources, so they are a parameter: the `Grapheme_Extend`
property, and the lookup `core::unicode::printable::is_printable` makes
past ASCII. -/
structure CharTables where
  graphemeExtend : Char → Bool
  printable : Char → Bool

/-- `is_printable`: no control character, the rest of ASCII, and past it
what the tables say. -/
def CharTables.isPrintable (u : CharTables) (c : Char) : Bool :=
  if c.toNat < 32 then false else if c.toNat < 127 then true else u.printable c

/-- `char::escape_unicode`: `\u{..}` with the code point in lower-case
hexadecimal. -/
def escapeUnicode (c : Char) : List Char := '\\' :: 'u' :: '{' :: Nat.toDigits 16 c.toNat ++ ['}']

/-- A character as `char::escape_debug` writes it: the C escapes, the
backslash and both quotes after a backslash, and a grapheme extender or a
character that is not printable as `\u{..}`. -/
def escapeDebug (u : CharTables) : Char → List Char
  | '\x00' => ['\\', '0']
  | '\t' => ['\\', 't']
  | '\r' => ['\\', 'r']
  | '\n' => ['\\', 'n']
  | '\\' => ['\\', '\\']
  | '"' => ['\\', '"']
  | '\x27' => ['\\', '\x27']
  | c => if u.graphemeExtend c || !u.isPrintable c then escapeUnicode c else [c]

/-- An upper-case hexadecimal digit. -/
def hexDigit (n : Nat) : Char := if n < 10 then Char.ofNat (48 + n) else Char.ofNat (55 + n)

/-- The character that well-formed UTF-8 starts `bs` with, and its width. -/
def leadingChar (bs : Bytes) : Option (Char × Nat) :=
  [1, 2, 3, 4].findSome? fun n => match decodeUtf8 (bs.take n) with
    | some [c] => some (c, n)
    | _ => none

/-- The body of `{:?}` of a byte string: each character of a well-formed run
escaped, each byte that starts none as `\xHH`; one step per byte at most. -/
def debugBytes (u : CharTables) : Nat → Bytes → List Char
  | 0, _ | _, [] => []
  | fuel + 1, b :: bs => match leadingChar (b :: bs) with
    | some (c, n) => escapeDebug u c ++ debugBytes u fuel ((b :: bs).drop n)
    | none => '\\' :: 'x' :: hexDigit (b.toNat / 16) :: hexDigit (b.toNat % 16) :: debugBytes u fuel bs

/-- A character `leadingChar` finds takes at least one byte. -/
theorem pos_of_leadingChar {bs : Bytes} {c : Char} {n : Nat} (h : leadingChar bs = some (c, n)) :
    0 < n := by
  obtain ⟨m, hm, hf⟩ := List.exists_of_findSome?_eq_some h
  split at hf
  · cases hf
    simp only [List.mem_cons, List.mem_singleton, List.not_mem_nil, or_false] at hm
    omega
  · cases hf

/-- The fuel never runs out: every step takes a byte, so any fuel from the
length on gives the same text. -/
theorem debugBytes_fuel (u : CharTables) : ∀ (fuel fuel' : Nat) (bs : Bytes), bs.length ≤ fuel →
    bs.length ≤ fuel' → debugBytes u fuel bs = debugBytes u fuel' bs
  | fuel, fuel', [], _, _ => by cases fuel <;> cases fuel' <;> rfl
  | fuel + 1, fuel' + 1, b :: bs, h, h' => by
    simp only [debugBytes]
    split
    · next c n hc =>
      have := pos_of_leadingChar hc
      rw [debugBytes_fuel u fuel fuel' _ (by simp at h ⊢; omega) (by simp at h' ⊢; omega)]
    · rw [debugBytes_fuel u fuel fuel' bs (by simp at h; omega) (by simp at h'; omega)]

/-- `{:?}` of an `OsStr` or a `Path`. -/
def debugOsStr (u : CharTables) (s : Bytes) : String :=
  String.mk ('"' :: debugBytes u s.length s ++ ['"'])

/-- The tables as `core` has them on the first 0x370 code points, where the
C1 controls, the no-break space and the soft hyphen are not printable and the
combining diacritics extend a grapheme; every later character counts as
printable. -/
def sampleTables : CharTables where
  graphemeExtend c := 0x300 ≤ c.toNat && c.toNat < 0x370
  printable c := !(c.toNat ≤ 0xA0 || c.toNat == 0xAD)

example : debugOsStr sampleTables (byteString "a\"b\x27c") = "\"a\\\"b\\\x27c\"" := by decide
example : debugOsStr sampleTables [0xC3, 0xA9, 0xC2, 0x85, 0xFF] = "\"é\\u{85}\\xFF\"" := by decide

/-! ## The code -/

/-- The top-level names `create_rootfs` binds from the image. -/
def isCloned (name : String) : Bool :=
  name != "space" && name != "dev" && name != "proc" && name != "tmp" && name != "sys"

/-- `Path::join` of a file name: a `/` between the two unless the directory
is empty or ends in one. -/
def joinPath (root name : Bytes) : Bytes :=
  if root.getLast?.all (· == 47) then root ++ name else root ++ 47 :: name

section

variable {σ : Type} (k : SetupKernel σ) (u : CharTables)

/-- A cloned entry bound at its target, then remounted read-only. -/
def bindReadOnly (sourcePath targetPath : String) (s : σ) : Except Error σ := do
  let s ← context ("Failed to bind-mount " ++ sourcePath ++ " to " ++ targetPath)
    (k.bindMount sourcePath targetPath s)
  context ("Failed to remount " ++ targetPath ++ " read-only")
    (k.bindMountOpt "none" targetPath [.msRemount, .msRdonly] s)

/-- One pass of the loop over the image's top level. -/
def cloneEntry (root : Bytes) (s : σ) (entry : Except ErrorKind DirEntry) : Except Error σ := do
  let entry ← context "Failed to read root directory" entry
  let some name := intoString entry.fileName
    | throw ⟨"File name " ++ debugOsStr u entry.fileName ++ " is not UTF-8", none⟩
  if isCloned name then
    let path := joinPath root entry.fileName
    let some sourcePath := intoString path
      | throw ⟨"Path " ++ debugOsStr u path ++ " is not UTF-8", none⟩
    let targetPath := "/newroot/" ++ name
    let fileType ← context "Failed to acquire file type" entry.fileType
    match fileType with
    | .symlink =>
      let linkTarget ← context "Failed to read link" (k.readLink sourcePath s)
      context ("Failed to symlink " ++ debugOsStr u linkTarget ++ " to " ++ targetPath)
        (k.symlink linkTarget targetPath s)
    | .dir =>
      let s ← context ("Failed to mkdir " ++ targetPath) (k.createDir targetPath s)
      bindReadOnly k sourcePath targetPath s
    | .other =>
      let s ← context ("Failed to touch " ++ targetPath) (k.createFile targetPath s)
      bindReadOnly k sourcePath targetPath s
  else pure s

/-- `create_rootfs(root)`: the baseline and the state it leaves. -/
def createRootfs (root : Bytes) (s : σ) : Except Error (RootfsState × σ) := do
  let s ← context "Failed to mkdir /newroot" (k.createDir "/newroot" s)
  let entries ← context "Failed to read root directory" (k.readDirEntries root s)
  let s ← entries.foldlM (cloneEntry k u root) s
  let s ← ["space", "dev", "proc", "tmp"].foldlM (fun s name =>
    context ("Failed to mkdir " ++ ("/newroot/" ++ name)) (k.createDir ("/newroot/" ++ name) s)) s
  let s ← context "Failed to bind-mount /newroot/dev" (k.bindMountOpt "/dev" "/newroot/dev" [.msRec] s)
  let s ← context "Failed to remount /newroot/dev read-only"
    (k.bindMountOpt "none" "/newroot/dev" [.msRemount, .msRdonly] s)
  let currentMounts ← k.childMounts "/newroot/" s
  pure (countMountPoints currentMounts, s)

end

/-! ## On the mount table -/

/-- `mount(source, target, "", MS_BIND | flags)` on the table: a remount
changes no entry; a recursive bind lists the target, then a copy of every
mount under the source, in table order. -/
def MountTable.bindMountOpt (t : MountTable) (source target : String) (flags : List MountFlag) :
    MountTable :=
  if .msRemount ∈ flags then t
  else if .msRec ∈ flags then
    t.mount target ++ (t.filter (startsWith · (source ++ "/"))).map fun x =>
      target ++ String.mk (x.toList.drop source.length)
  else t.mount target

/-- The kernel as far as the mount table goes, with an image at `root`
whose symlinks point at `links`. -/
def mountTableSetupKernel (root : Bytes) (image : List DirEntry) (links : String → Bytes) :
    SetupKernel MountTable where
  toKernel := mountTableKernel
  readDirEntries path _ := if path = root then .ok (image.map .ok) else .error .notFound
  readLink path _ := .ok (links path)
  symlink _ _ t := .ok t
  createFile _ t := .ok t
  bindMountOpt source target flags t := .ok (t.bindMountOpt source target flags)

section
variable (root : Bytes) (image : List DirEntry) (links : String → Bytes) (t : MountTable)

@[simp] theorem mountTableSetupKernel_toKernel :
    (mountTableSetupKernel root image links).toKernel = mountTableKernel := rfl
@[simp] theorem mountTableSetupKernel_readDirEntries :
    (mountTableSetupKernel root image links).readDirEntries root t = .ok (image.map .ok) := if_pos rfl
@[simp] theorem mountTableSetupKernel_readLink (path : String) :
    (mountTableSetupKernel root image links).readLink path t = .ok (links path) := rfl
@[simp] theorem mountTableSetupKernel_symlink (target : Bytes) (link : String) :
    (mountTableSetupKernel root image links).symlink target link t = .ok t := rfl
@[simp] theorem mountTableSetupKernel_createFile (path : String) :
    (mountTableSetupKernel root image links).createFile path t = .ok t := rfl
@[simp] theorem mountTableSetupKernel_bindMountOpt (source target : String) (flags : List MountFlag) :
    (mountTableSetupKernel root image links).bindMountOpt source target flags t =
      .ok (t.bindMountOpt source target flags) := rfl

end

/-- What one image entry adds to the table, or the error it stops at. -/
def entryMount (u : CharTables) (root : Bytes) (e : DirEntry) : Except Error (Option String) :=
  match intoString e.fileName with
  | none => .error ⟨"File name " ++ debugOsStr u e.fileName ++ " is not UTF-8", none⟩
  | some name =>
    if isCloned name then
      match intoString (joinPath root e.fileName) with
      | none => .error ⟨"Path " ++ debugOsStr u (joinPath root e.fileName) ++ " is not UTF-8", none⟩
      | some _ => match e.fileType with
        | .error k => .error ⟨"Failed to acquire file type", some k⟩
        | .ok .symlink => .ok none
        | .ok _ => .ok (some ("/newroot/" ++ name))
    else .ok none

/-- A mount `create_rootfs` may add: `/newroot/dev`, a copy under it of a
mount under the host's `/dev/`, or `/newroot/{name}` for an image entry it
clones, a directory or a file whose UTF-8 name it does not skip. -/
def SetupMount (image : List DirEntry) (x : String) : Prop :=
  x = "/newroot/dev" ∨ startsWith x "/newroot/dev/" ∨
    ∃ e ∈ image, ∃ name, intoString e.fileName = some name ∧ isCloned name ∧
      (e.fileType = .ok .dir ∨ e.fileType = .ok .other) ∧ x = "/newroot/" ++ name

theorem MountTable.bindMountOpt_remount {t : MountTable} {source target : String}
    {flags : List MountFlag} (h : .msRemount ∈ flags) : t.bindMountOpt source target flags = t :=
  if_pos h

/-- A copy a recursive bind makes lies under its target. -/
theorem startsWith_bindCopy {source target x : String} (h : startsWith x (source ++ "/")) :
    startsWith (target ++ String.mk (x.toList.drop source.length)) (target ++ "/") := by
  obtain ⟨rest, hrest⟩ := List.isPrefixOf_iff_prefix.1 h
  have hlen : source.length = source.data.length := rfl
  simp only [startsWith, String.toList, String.data_append] at hrest ⊢
  rw [← hrest, hlen, List.append_assoc, List.drop_left]
  exact List.isPrefixOf_iff_prefix.2 ⟨rest, by simp⟩

section
variable (root : Bytes) (image : List DirEntry) (links : String → Bytes) (u : CharTables)

theorem entryMount_eq_some {e : DirEntry} {x : String} (h : entryMount u root e = .ok (some x)) :
    ∃ name, intoString e.fileName = some name ∧ isCloned name ∧
      (e.fileType = .ok .dir ∨ e.fileType = .ok .other) ∧ x = "/newroot/" ++ name := by
  unfold entryMount at h
  cases hn : intoString e.fileName with
  | none => rw [hn] at h; cases h
  | some name =>
    rw [hn] at h
    dsimp only at h
    cases hc : isCloned name
    · rw [hc] at h; cases h
    · rw [hc, if_pos rfl] at h
      cases hp : intoString (joinPath root e.fileName) with
      | none => rw [hp] at h; cases h
      | some _ =>
        rw [hp] at h
        cases hft : e.fileType with
        | error k => rw [hft] at h; cases h
        | ok ft => rw [hft] at h; cases ft <;> cases h <;> simp [hc]

/-- One pass of the loop on the table: the entry's mount, if any, listed last. -/
theorem cloneEntry_mountTableSetupKernel (root' : Bytes) (t : MountTable) (e : DirEntry) :
    cloneEntry (mountTableSetupKernel root image links) u root' t (.ok e) =
      (fun o => t ++ o.toList) <$> entryMount u root' e := by
  have hnil : (Except.ok t : Except Error MountTable) = .ok (t ++ []) := by rw [List.append_nil]
  simp only [cloneEntry, entryMount, context_ok, except_ok_bind]
  cases intoString e.fileName with
  | none => rfl
  | some name =>
    dsimp only
    cases isCloned name with
    | false => exact hnil
    | true =>
      cases intoString (joinPath root' e.fileName) with
      | none => rfl
      | some path =>
        cases e.fileType with
        | error k => rfl
        | ok ft => cases ft; exacts [hnil, rfl, rfl]

theorem foldlM_cloneEntry (root' : Bytes) :
    ∀ (l : List DirEntry) (t : MountTable),
      (l.map .ok).foldlM (cloneEntry (mountTableSetupKernel root image links) u root') t =
        (fun os => t ++ os.reduceOption) <$> l.mapM (entryMount u root')
  | [], t => by rw [List.mapM_nil]; simp
  | e :: l, t => by
    rw [List.map_cons, List.foldlM_cons, cloneEntry_mountTableSetupKernel, List.mapM_cons]
    cases entryMount u root' e with
    | error err => rfl
    | ok o =>
      show (l.map Except.ok).foldlM _ (t ++ o.toList) = _
      rw [foldlM_cloneEntry root' l]
      cases l.mapM (entryMount u root') with
      | error err => rfl
      | ok os => cases o <;> simp [List.reduceOption_cons_of_some, List.reduceOption_cons_of_none]

/-- **`create_rootfs` on the table**, in closed form: each image entry's
mount in turn, then `/newroot/dev` and its copies of the mounts under the
host's `/dev/`; the baseline counts the mounts under `/newroot/` then. The
first entry that fails stops it with its error. -/
theorem createRootfs_mountTableSetupKernel (t : MountTable) :
    createRootfs (mountTableSetupKernel root image links) u root t =
      (fun os =>
        let T := (t ++ os.reduceOption).bindMountOpt "/dev" "/newroot/dev" [.msRec]
        (countMountPoints (T.filter fun x => startsWith x "/newroot/"), T)) <$>
        image.mapM (entryMount u root) := by
  simp only [createRootfs, mountTableSetupKernel_toKernel, mountTableKernel_createDir, context_ok,
    except_ok_bind, mountTableSetupKernel_readDirEntries, foldlM_cloneEntry]
  cases image.mapM (entryMount u root) with
  | error err => rfl
  | ok os =>
    simp [mountTableSetupKernel_bindMountOpt, MountTable.bindMountOpt_remount]

end

/-- A table holds the baseline it counts under `/newroot/`, and no listed
path more than once over it. -/
theorem restored_countMountPoints (T : MountTable) :
    Restored T (countMountPoints (T.filter fun x => startsWith x "/newroot/")) := by
  refine ⟨fun x => ?_, fun x hx => ?_⟩
  · rw [countMountPoints_mountPoints]; exact (List.filter_sublist T).count_le x
  · have hx' : startsWith x "/newroot/" := by simp only [isListed, Bool.and_eq_true] at hx; exact hx.1
    rw [countMountPoints_mountPoints, List.count_filter (p := fun y => startsWith y "/newroot/") hx']
    exact Nat.le_succ _

/-! ## What it exposes -/

/-- `/newroot/space`, `/newroot/proc`, `/newroot/tmp` and `/newroot/sys` are
no mount `create_rootfs` may add. -/
theorem not_setupMount_skipped {image : List DirEntry} {name : String}
    (h : name ∈ ["space", "proc", "tmp", "sys"]) : ¬SetupMount image ("/newroot/" ++ name) := by
  simp only [List.mem_cons, List.mem_singleton, List.not_mem_nil, or_false] at h
  rintro (hdev | hdev | ⟨e, -, name', -, hc, -, heq⟩)
  · rcases h with rfl | rfl | rfl | rfl <;> revert hdev <;> decide
  · rcases h with rfl | rfl | rfl | rfl <;> revert hdev <;> decide
  · obtain rfl : name' = name := string_append_left_cancel_iff.1 heq.symm
    rcases h with rfl | rfl | rfl | rfl <;> revert hc <;> decide

/-- A run on the table that succeeds appends only `SetupMount`s to the
host's mounts, and counts the baseline on what it leaves. -/
theorem exists_added_of_createRootfs {root : Bytes} {image : List DirEntry} {links : String → Bytes}
    {u : CharTables} {t : MountTable} {st : RootfsState} {T : MountTable}
    (h : createRootfs (mountTableSetupKernel root image links) u root t = .ok (st, T)) :
    ∃ added, T = t ++ added ∧ (∀ x ∈ added, SetupMount image x) ∧
      st = countMountPoints (T.filter fun x => startsWith x "/newroot/") := by
  rw [createRootfs_mountTableSetupKernel] at h
  cases hos : image.mapM (entryMount u root) with
  | error err => rw [hos] at h; cases h
  | ok os =>
    rw [hos] at h
    cases h
    have hsafe : ∀ x ∈ os.reduceOption ++ "/newroot/dev" :: ((t ++ os.reduceOption).filter
        (startsWith · ("/dev" ++ "/"))).map (fun x => "/newroot/dev" ++ String.mk (x.toList.drop "/dev".length)),
        SetupMount image x := by
      intro x hx
      simp only [List.mem_append, List.mem_cons, List.mem_map, List.mem_filter] at hx
      rcases hx with hx | rfl | ⟨y, ⟨-, hy⟩, rfl⟩
      · obtain ⟨e, he, hex⟩ := mem_of_mapM_eq_ok hos (List.reduceOption_mem_iff.1 hx)
        exact .inr (.inr ⟨e, he, entryMount_eq_some root u hex⟩)
      · exact .inl rfl
      · exact .inr (.inl (startsWith_bindCopy hy))
    refine ⟨_, ?_, hsafe, rfl⟩
    simp [MountTable.bindMountOpt, MountTable.mount]

/-- The path of an image. -/
def sampleRoot : Bytes := byteString "/srv/image"

/-- An image with directories `/bin` and `/etc`, `/lib` a symlink, and the
`/sys` and `/proc` that `create_rootfs` skips. -/
def sampleImage : List DirEntry :=
  [⟨byteString "bin", .ok .dir⟩, ⟨byteString "lib", .ok .symlink⟩, ⟨byteString "etc", .ok .dir⟩,
    ⟨byteString "sys", .ok .dir⟩, ⟨byteString "proc", .ok .dir⟩]

/-- The kernel with `sampleImage` at `sampleRoot`. -/
def sampleSetupKernel : SetupKernel MountTable :=
  mountTableSetupKernel sampleRoot sampleImage fun _ => byteString "usr/lib"

/-- A host table with mounts under `/dev/`. -/
def hostTable : MountTable := ["/", "/dev", "/dev/pts", "/dev/shm", "/proc", "/sys"]

example : (createRootfs sampleSetupKernel sampleTables sampleRoot hostTable).map Prod.snd =
    .ok (hostTable ++ ["/newroot/bin", "/newroot/etc", "/newroot/dev", "/newroot/dev/pts",
      "/newroot/dev/shm"]) := rfl

end SunwalkerBox
