import SunwalkerBox.Mount.Reset
import SunwalkerBox.Utf8
import Mathlib.Data.List.Basic
/-!
# Reading `/proc/self/mounts`

`list_child_mounts` opens `/proc/self/mounts`, reads it with
`BufRead::lines`, cuts each line at single spaces and keeps the second field
when it starts with the prefix. `lines` reads the bytes of a line up to and
with its newline and fails with `InvalidData` where they are not UTF-8. The
kernel writes one line per mount, `source target fstype options 0 0`, each
field as the bytes it holds, with a space, tab, newline or backslash written
as an octal escape (`\040`, `\011`, `\012`, `\134`): `renderMounts` is that
format.

On UTF-8 lines, `listChildMounts_eq` says what the code computes: the second
fields of the lines, filtered by the prefix, or `Invalid format` as soon as
a line has a single field. On a rendered table the second fields are the
targets as escaped, never decoded: a target with one of the four
characters comes back as another string (`listChildMounts_escapedTarget`),
and that string is what `reset` would hand to `umount(2)`. For fields
without them the listing is the mount table's own, as `mountTableKernel`
lists it, as long as every field is UTF-8; one that is not stops the
listing with `Failed to read /proc/self/mounts` (`listChildMounts_plain`).
A line decodes field by field because the separators are ASCII
(`decodeUtf8_renderLine`).
-/

namespace SunwalkerBox

/-! ## The format -/

/-- A mount as a line of `/proc/self/mounts` shows it. Its fields are what
the kernel holds, so bytes. -/
structure MountEntry where
  source : Bytes
  target : Bytes
  fstype : Bytes
  options : Bytes

/-- The four fields of a mount. -/
def MountEntry.fields (m : MountEntry) : List Bytes := [m.source, m.target, m.fstype, m.options]

/-- The bytes the kernel escapes in a field: space, tab, newline and
backslash. -/
def escapedBytes : Bytes := [32, 9, 10, 92]

/-- How the kernel writes a byte of a field: one it escapes as a backslash
and three octal digits, any other as it is. -/
def escapeByte (b : UInt8) : Bytes :=
  if b ∈ escapedBytes then [92, 48 + b / 64, 48 + b / 8 % 8, 48 + b % 8] else [b]

/-- A field as the kernel writes it. -/
def escapeField (f : Bytes) : Bytes := f.flatMap escapeByte

/-- The line of a mount, without its newline: each field escaped and
followed by a space, then the two zero fields. -/
def renderLine (m : MountEntry) : Bytes :=
  escapeField m.source ++ 32 :: (escapeField m.target ++ 32 :: (escapeField m.fstype ++ 32 ::
    (escapeField m.options ++ byteString " 0 0")))

/-- The bytes of `/proc/self/mounts` for a mount table, in table order. -/
def renderMounts (ms : List MountEntry) : Bytes := ms.flatMap fun m => renderLine m ++ [10]

/-- A field the kernel writes as it is: none of the bytes it escapes. -/
def Plain (f : Bytes) : Prop := ∀ b ∈ f, b ∉ escapedBytes

instance : DecidablePred Plain := fun f => inferInstanceAs (Decidable (∀ b ∈ f, b ∉ escapedBytes))

/-! ## The reader -/

/-- `BufRead::read_until(b'\n')` over the bytes left, `cur` being the line
read so far, reversed: each line with its newline, a last one without; an
empty last one is no line. -/
def rawLinesFrom : Bytes → Bytes → List Bytes
  | cur, [] => if cur = [] then [] else [cur.reverse]
  | cur, b :: rest => if b = 10 then (b :: cur).reverse :: rawLinesFrom [] rest else rawLinesFrom (b :: cur) rest

/-- `BufRead::lines` drops a line's `\n`, and a `\r` just before it. -/
def stripNewline (line : List Char) : List Char :=
  if line.getLast? = some '\n' then
    if line.dropLast.getLast? = some '\r' then line.dropLast.dropLast else line.dropLast
  else line

/-- The line `lines` yields from the bytes `read_line` read: `InvalidData`
unless they are UTF-8. -/
def readLine (raw : Bytes) : Except ErrorKind (List Char) :=
  match decodeUtf8 raw with
  | some line => .ok (stripNewline line)
  | none => .error .invalidData

/-- The error of a line with fewer than two fields. -/
def invalidFormat : Error := ⟨"Invalid format of /proc/self/mounts", none⟩

/-- The error of a line that is not UTF-8. -/
def readError : Error := ⟨"Failed to read /proc/self/mounts", some .invalidData⟩

/-- The fields of a line: two `it.next()` of `line.split(' ')`, and the
second field pushed when it starts with `pre`. -/
def childMountOfLine (pre : String) (vec : List String) (line : List Char) :
    Except Error (List String) :=
  match line.splitOn ' ' with
  | [] => .error invalidFormat
  | [_] => .error invalidFormat
  | _ :: targetPath :: _ =>
    if startsWith (String.mk targetPath) pre then .ok (vec ++ [String.mk targetPath]) else .ok vec

/-- The body of the loop of `list_child_mounts`: the line read, then its
fields. -/
def childMountOfRaw (pre : String) (vec : List String) (raw : Bytes) : Except Error (List String) := do
  let line ← context "Failed to read /proc/self/mounts" (readLine raw)
  childMountOfLine pre vec line

/-- `list_child_mounts(prefix)`, on what opening `/proc/self/mounts` gives:
its bytes, or the error. -/
def listChildMounts (pre : String) (file : Except ErrorKind Bytes) : Except Error (List String) := do
  let bytes ← context "Failed to open /proc/self/mounts for reading" file
  (rawLinesFrom [] bytes).foldlM (childMountOfRaw pre) []

/-! ## Fields -/

/-- The second field of a line, as the second `it.next()` yields it. -/
def targetField (line : List Char) : List Char := (line.splitOn ' ').getD 1 []

theorem length_splitOn (c : Char) (line : List Char) :
    (line.splitOn c).length = line.count c + 1 := by
  induction line with
  | nil => rfl
  | cons x xs ih =>
    simp only [List.splitOn, List.splitOnP_cons, List.count_cons] at ih ⊢
    by_cases h : x = c <;> simp [h, ih]

/-- **One line through the loop**: a line with a space adds its second field
when it starts with `pre`; a line without one is `Invalid format`. -/
theorem childMountOfLine_eq (pre : String) (vec : List String) (line : List Char) :
    childMountOfLine pre vec line =
      if ' ' ∈ line then .ok (vec ++ [String.mk (targetField line)].filter (startsWith · pre))
      else .error invalidFormat := by
  have hlen := length_splitOn ' ' line
  unfold childMountOfLine targetField
  split
  next h => rw [h] at hlen; simp at hlen
  next a h =>
    rw [h] at hlen
    have : ' ' ∉ line := fun hc => by have := List.count_pos_iff.2 hc; simp at hlen; omega
    rw [if_neg this]
  next a t r h =>
    rw [h] at hlen
    have : ' ' ∈ line := List.count_pos_iff.1 (by simp at hlen; omega)
    rw [if_pos this, h]
    by_cases hs : startsWith (String.mk t) pre <;> simp [hs]

theorem foldlM_childMountOfRaw (pre : String) :
    ∀ (raws : List Bytes) (ls : List (List Char)) (vec : List String),
      raws.mapM (fun raw => (readLine raw).toOption) = some ls →
      raws.foldlM (childMountOfRaw pre) vec =
        if ∀ line ∈ ls, ' ' ∈ line then
          .ok (vec ++ (ls.map fun line => String.mk (targetField line)).filter (startsWith · pre))
        else .error invalidFormat
  | [], ls, vec, h => by cases h; simp
  | raw :: raws, ls, vec, h => by
    rw [List.mapM_cons] at h
    cases hr : readLine raw with
    | error e => rw [hr] at h; cases h
    | ok line =>
      cases hrs : raws.mapM (fun raw => (readLine raw).toOption) with
      | none => rw [hr, hrs] at h; cases h
      | some ls' =>
        rw [hr, hrs] at h
        cases h
        rw [List.foldlM_cons, childMountOfRaw, hr, context_ok, except_ok_bind, childMountOfLine_eq]
        by_cases hl : ' ' ∈ line
        · rw [if_pos hl, except_ok_bind, foldlM_childMountOfRaw pre raws ls' _ hrs]
          by_cases hs : startsWith (String.mk (targetField line)) pre <;> simp [hl, hs, List.filter_cons]
        · simp [hl]

/-- **What `list_child_mounts` computes** on a file of UTF-8 lines: the
second fields of its lines that start with `pre`, in order, unless a line
has no space. -/
theorem listChildMounts_eq (pre : String) (bytes : Bytes) {ls : List (List Char)}
    (h : (rawLinesFrom [] bytes).mapM (fun raw => (readLine raw).toOption) = some ls) :
    listChildMounts pre (.ok bytes) =
      if ∀ line ∈ ls, ' ' ∈ line then
        .ok ((ls.map fun line => String.mk (targetField line)).filter (startsWith · pre))
      else .error invalidFormat := by
  rw [listChildMounts, context_ok, except_ok_bind, foldlM_childMountOfRaw pre _ ls [] h]
  rfl

/-! ## Reading back a rendered table -/

theorem newline_not_mem_escapeByte (b : UInt8) : 10 ∉ escapeByte b := by
  unfold escapeByte
  split
  · next h =>
    simp only [escapedBytes, List.mem_cons, List.mem_singleton, List.not_mem_nil, or_false] at h
    rcases h with rfl | rfl | rfl | rfl <;> decide
  · next h =>
    rw [List.mem_singleton]
    rintro rfl
    exact h (by decide)

theorem newline_not_mem_renderLine (m : MountEntry) : 10 ∉ renderLine m := by
  simp [renderLine, escapeField, newline_not_mem_escapeByte,
    show (10 : UInt8) ∉ byteString " 0 0" by decide]

theorem rawLinesFrom_append_newline (cur line rest : Bytes) (h : 10 ∉ line) :
    rawLinesFrom cur (line ++ 10 :: rest) = (cur.reverse ++ line ++ [10]) :: rawLinesFrom [] rest := by
  induction line generalizing cur with
  | nil => simp [rawLinesFrom]
  | cons c line ih =>
    rw [List.mem_cons, not_or] at h
    rw [List.cons_append, rawLinesFrom, if_neg (Ne.symm h.1), ih _ h.2]
    simp

/-- `read_until` gives back the lines of a text made of lines each ended
by a newline. -/
theorem rawLinesFrom_flatMap (ls : List Bytes) (h : ∀ l ∈ ls, 10 ∉ l) :
    rawLinesFrom [] (ls.flatMap (· ++ [10])) = ls.map (· ++ [10]) := by
  induction ls with
  | nil => rfl
  | cons l ls ih =>
    rw [List.forall_mem_cons] at h
    rw [List.flatMap_cons, List.append_assoc, List.singleton_append,
      rawLinesFrom_append_newline _ _ _ h.1, ih h.2]
    rfl

theorem rawLines_renderMounts (ms : List MountEntry) :
    rawLinesFrom [] (renderMounts ms) = ms.map (renderLine · ++ [10]) := by
  have h := rawLinesFrom_flatMap (ms.map renderLine) (by simp [newline_not_mem_renderLine])
  rwa [List.flatMap_map, List.map_map] at h

theorem escapeField_of_plain {f : Bytes} (h : Plain f) : escapeField f = f := by
  induction f with
  | nil => rfl
  | cons b f ih =>
    rw [Plain, List.forall_mem_cons] at h
    rw [escapeField, List.flatMap_cons, escapeByte, if_neg h.1]
    exact congrArg _ (ih h.2)

/-- **A line decodes field by field**: its separators are ASCII, so a line
of plain fields is UTF-8 exactly when each field is, and then reads as the
fields' text separated by spaces. -/
theorem decodeUtf8_renderLine {m : MountEntry} (hm : ∀ f ∈ m.fields, Plain f) :
    decodeUtf8 (renderLine m ++ [10]) =
      (decodeUtf8 m.source).bind fun cs => (decodeUtf8 m.target).bind fun ct =>
        (decodeUtf8 m.fstype).bind fun cf => (decodeUtf8 m.options).map fun co =>
          cs ++ ' ' :: (ct ++ ' ' :: (cf ++ ' ' :: (co ++ " 0 0".toList))) ++ ['\n'] := by
  simp only [MountEntry.fields, List.mem_cons, List.mem_singleton, List.not_mem_nil, or_false,
    forall_eq_or_imp, forall_eq] at hm
  have h32 : (32 : UInt8) < 0x80 := by decide
  simp only [renderLine, escapeField_of_plain hm.1, escapeField_of_plain hm.2.1,
    escapeField_of_plain hm.2.2.1, escapeField_of_plain hm.2.2.2, List.append_assoc, List.cons_append]
  rw [decodeUtf8_append_sep h32, decodeUtf8_append_sep h32, decodeUtf8_append_sep h32,
    show byteString " 0 0" ++ [10] = 32 :: [48, 32, 48, 10] from rfl, decodeUtf8_append_sep h32]
  cases decodeUtf8 m.source <;> cases decodeUtf8 m.target <;> cases decodeUtf8 m.fstype <;>
    cases decodeUtf8 m.options <;> rfl

theorem stripNewline_concat (line : List Char) (h : line.getLast? ≠ some '\r') :
    stripNewline (line ++ ['\n']) = line := by
  simp [stripNewline, h]

theorem splitOn_append_space {xs : List Char} (h : ' ' ∉ xs) (ys : List Char) :
    (xs ++ ' ' :: ys).splitOn ' ' = xs :: ys.splitOn ' ' := by
  induction xs with
  | nil => simp [List.splitOn, List.splitOnP_cons]
  | cons x xs ih =>
    rw [List.mem_cons, not_or] at h
    simp only [List.cons_append, List.splitOn, List.splitOnP_cons] at ih ⊢
    rw [if_neg (by rw [beq_iff_eq]; exact fun e => h.1 e.symm), ih h.2]
    rfl

/-- One rendered line through the loop, for plain fields: its target when
every field is UTF-8, else `Failed to read`. -/
theorem childMountOfRaw_renderLine (pre : String) (vec : List String) {m : MountEntry}
    (hm : ∀ f ∈ m.fields, Plain f) :
    childMountOfRaw pre vec (renderLine m ++ [10]) =
      match m.fields.mapM decodeUtf8 with
      | some _ => .ok (vec ++ [String.mk ((decodeUtf8 m.target).getD [])].filter (startsWith · pre))
      | none => .error readError := by
  have hsp : ∀ f ∈ m.fields, ∀ cs, decodeUtf8 f = some cs → ' ' ∉ cs := fun f hf cs hcs =>
    ascii_not_mem_of_decodeUtf8 (x := 32) (by decide) hcs fun h32 => hm f hf 32 h32 (by decide)
  rw [childMountOfRaw, readLine, decodeUtf8_renderLine hm]
  simp only [MountEntry.fields, List.mapM_cons, List.mapM_nil] at hsp ⊢
  cases hs : decodeUtf8 m.source <;> cases ht : decodeUtf8 m.target <;>
    cases hf : decodeUtf8 m.fstype <;> cases ho : decodeUtf8 m.options <;> try rfl
  next cs ct cf co =>
    have hline := stripNewline_concat (cs ++ ' ' :: (ct ++ ' ' :: (cf ++ ' ' ::
      (co ++ " 0 0".toList)))) (by simp [List.getLast?_append, List.getLast?_cons])
    simp only [Option.some_bind, Option.map_some', hline, context_ok, except_ok_bind,
      childMountOfLine, splitOn_append_space (hsp _ (by simp) cs hs),
      splitOn_append_space (hsp _ (by simp) ct ht), Option.getD_some]
    by_cases hpre : startsWith (String.mk ct) pre <;> simp [hpre]

/-- The loop over rendered lines of plain UTF-8 fields lists their targets. -/
theorem foldlM_renderLines_ok (pre : String) :
    ∀ (ms : List MountEntry) (ts vec : List String), (∀ m ∈ ms, ∀ f ∈ m.fields, Plain f) →
      (∀ m ∈ ms, ∀ f ∈ m.fields, (decodeUtf8 f).isSome) → ms.mapM (intoString ·.target) = some ts →
      (ms.map (renderLine · ++ [10])).foldlM (childMountOfRaw pre) vec =
        .ok (vec ++ ts.filter (startsWith · pre))
  | [], ts, vec, _, _, hts => by rw [List.mapM_nil] at hts; cases hts; simp
  | m :: ms, ts, vec, hp, hu, hts => by
    rw [List.forall_mem_cons] at hp hu
    simp only [List.mapM_cons, Option.bind_eq_bind, Option.bind_eq_some] at hts
    obtain ⟨t, ht, ts', hts', ⟨⟩⟩ := hts
    obtain ⟨css, hcss⟩ := Option.isSome_iff_exists.1 (isSome_mapM_iff.2 hu.1)
    obtain ⟨ct, hct, rfl⟩ := Option.map_eq_some'.1 ht
    rw [List.map_cons, List.foldlM_cons, childMountOfRaw_renderLine pre vec hp.1, hcss, except_ok_bind,
      foldlM_renderLines_ok pre ms ts' _ hp.2 hu.2 hts', hct, Option.getD_some]
    by_cases hpre : startsWith (String.mk ct) pre <;> simp [hpre, List.filter_cons]

/-- The loop over rendered lines of plain fields stops at the first that is
not UTF-8. -/
theorem foldlM_renderLines_error (pre : String) :
    ∀ (ms : List MountEntry) (vec : List String), (∀ m ∈ ms, ∀ f ∈ m.fields, Plain f) →
      (∃ m ∈ ms, ∃ f ∈ m.fields, decodeUtf8 f = none) →
      (ms.map (renderLine · ++ [10])).foldlM (childMountOfRaw pre) vec = .error readError
  | [], _, _, ⟨_, hm, _⟩ => absurd hm (List.not_mem_nil _)
  | m :: ms, vec, hp, ⟨m', hm', f, hf, hnone⟩ => by
    rw [List.forall_mem_cons] at hp
    rw [List.map_cons, List.foldlM_cons, childMountOfRaw_renderLine pre vec hp.1]
    cases h : m.fields.mapM decodeUtf8 with
    | none => rfl
    | some css =>
      refine foldlM_renderLines_error pre ms _ hp.2 ⟨m', ?_, f, hf, hnone⟩
      rcases List.mem_cons.1 hm' with rfl | hm'
      · exact absurd (isSome_mapM_iff.1 (by rw [h]; rfl) f hf) (by rw [hnone]; decide)
      · exact hm'

/-- **For plain fields the listing is the mount table's.** On the rendering
of mounts whose fields hold none of the bytes the kernel escapes,
`list_child_mounts` lists, when every field is UTF-8, the targets that
start with `pre` in table order, as `mountTableKernel` lists them; and when
a field is not UTF-8, it fails with `Failed to read /proc/self/mounts`. -/
theorem listChildMounts_plain (pre : String) (ms : List MountEntry) (hplain : ∀ m ∈ ms, ∀ f ∈ m.fields, Plain f) :
    (∀ ts, (∀ m ∈ ms, ∀ f ∈ m.fields, (decodeUtf8 f).isSome) → ms.mapM (intoString ·.target) = some ts →
        listChildMounts pre (.ok (renderMounts ms)) = mountTableKernel.childMounts pre ts) ∧
      ((∃ m ∈ ms, ∃ f ∈ m.fields, decodeUtf8 f = none) →
        listChildMounts pre (.ok (renderMounts ms)) = .error readError) :=
  ⟨fun ts hu hts => by
    rw [listChildMounts, context_ok, except_ok_bind, rawLines_renderMounts,
      foldlM_renderLines_ok pre ms ts [] hplain hu hts, mountTableKernel_childMounts, List.nil_append],
    fun h => by
    rw [listChildMounts, context_ok, except_ok_bind, rawLines_renderMounts,
      foldlM_renderLines_error pre ms [] hplain h]⟩

/-- A root bound under `/newroot/`, `/dev`, and a mount whose target is not
UTF-8. -/
def sampleMounts : List MountEntry :=
  [⟨byteString "/dev/sda1", byteString "/newroot/bin", byteString "ext4", byteString "ro"⟩,
    ⟨byteString "udev", byteString "/dev", byteString "devtmpfs", byteString "rw"⟩]

def latinMount : MountEntry := ⟨byteString "none", [47, 0xE9], byteString "tmpfs", byteString "rw"⟩

theorem sampleMounts_listed :
    (∀ m ∈ sampleMounts, ∀ f ∈ m.fields, Plain f) ∧
      listChildMounts "/newroot/" (.ok (renderMounts sampleMounts)) =
        mountTableKernel.childMounts "/newroot/" ["/newroot/bin", "/dev"] ∧
      (∀ m ∈ sampleMounts ++ [latinMount], ∀ f ∈ m.fields, Plain f) ∧
      listChildMounts "/newroot/" (.ok (renderMounts (sampleMounts ++ [latinMount]))) = .error readError :=
  ⟨by decide, (listChildMounts_plain "/newroot/" sampleMounts (by decide)).1 _ (by decide) rfl, by decide,
    (listChildMounts_plain "/newroot/" (sampleMounts ++ [latinMount]) (by decide)).2
      ⟨latinMount, by simp, _, List.mem_cons_of_mem _ (List.mem_cons_self _ _), rfl⟩⟩

/-- A `tmpfs` mounted at `/newroot/a b`. -/
def spacedMount : MountEntry :=
  ⟨byteString "none", byteString "/newroot/a b", byteString "tmpfs", byteString "rw"⟩

theorem listChildMounts_escapedTarget :
    listChildMounts "/newroot/" (.ok (renderMounts [spacedMount])) = .ok ["/newroot/a\\040b"] ∧
      listChildMounts "/newroot/" (.ok (renderMounts [spacedMount])) ≠ .ok ["/newroot/a b"] := by
  have h : listChildMounts "/newroot/" (.ok (renderMounts [spacedMount])) = .ok ["/newroot/a\\040b"] := rfl
  exact ⟨h, fun he => absurd (Except.ok.inj (h.symm.trans he)) (by decide)⟩

end SunwalkerBox
