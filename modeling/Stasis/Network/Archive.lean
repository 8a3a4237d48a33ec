import Stasis.Network.Bundle

namespace Stasis.Network

def fileBytes (file : BundleFile) : List UInt8 :=
  beBytes 2 (asBytes file.path).length ++ beBytes 2 (asBytes file.mime).length ++
    beBytes 4 file.bytes.length ++ asBytes file.path ++ asBytes file.mime ++ file.bytes

def archiveBytes (files : List BundleFile) : List UInt8 :=
  archiveMagic ++ beBytes 2 archiveVersion ++ beBytes 2 files.length ++ files.flatMap fileBytes

def StaticBundle.encode (bundle : StaticBundle) : Except BundleError (List UInt8) :=
  .ok (archiveBytes bundle.fileList)

structure Cursor where
  bytes : List UInt8
  offset : ℕ
  inBounds : offset ≤ bytes.length

namespace Cursor

abbrev Reader := EStateM BundleError Cursor

def start (bytes : List UInt8) : Cursor := ⟨bytes, 0, Nat.zero_le _⟩

/-- An end that leaves `usize` is refused as one behind the input is. -/
def take (length : ℕ) : Reader (List UInt8) := fun cursor =>
  if h : cursor.offset + length ≤ cursor.bytes.length then
    .ok ((cursor.bytes.drop cursor.offset).take length)
      { cursor with offset := cursor.offset + length, inBounds := h }
  else
    .error .truncated cursor

def u16 : Reader ℕ := do return beValue (← take 2)

def u32 : Reader ℕ := do return beValue (← take 4)

end Cursor

open Cursor

/-- `length` bytes as a text; what is not UTF-8 is refused with `error`. -/
def readText (error : BundleError) (length : ℕ) : Reader String := do
  let bytes ← take length
  ofExcept (fromUtf8 error bytes)

def readFile : Reader BundleFile := do
  let pathLen ← u16
  let mimeLen ← u16
  let byteLen ← u32
  if pathLen = 0 ∨ pathLen > maxPathBytes ∨ mimeLen = 0 ∨ mimeLen > maxMimeBytes ∨
      byteLen > maxFileBytes then throw .length else do
  let path ← readText .path pathLen
  let mime ← readText .mime mimeLen
  ofExcept (validatePath path)
  ofExcept (validateMime mime)
  let bytes ← take byteLen
  return { path, mime, bytes }

def readArchive : Reader (List BundleFile) := do
  let magic ← take 4
  if magic ≠ archiveMagic then throw .header else do
  let version ← u16
  if version ≠ archiveVersion then throw .header else do
  let count ← u16
  if count = 0 ∨ count > maxFiles then throw .fileCount else
  repeatM readFile count

def StaticBundle.decode (bytes : List UInt8) : Except BundleError StaticBundle :=
  match readArchive (start bytes) with
  | .error error _ => .error error
  | .ok files cursor =>
    if cursor.offset ≠ bytes.length then .error .trailing else StaticBundle.new files

def consumption : Consumption Cursor UInt8 where
  reads cursor xs cursor' :=
    cursor'.bytes = cursor.bytes ∧ cursor'.offset = cursor.offset + xs.length ∧
      xs <+: cursor.bytes.drop cursor.offset
  reads_nil := by
    intro cursor cursor'
    constructor
    · rintro ⟨hbytes, hoffset, -⟩
      cases cursor
      cases cursor'
      cases hbytes
      cases hoffset
      rfl
    · rintro rfl
      exact ⟨rfl, rfl, List.nil_prefix⟩
  reads_append := by
    intro cursor xs ys cursor'
    constructor
    · rintro ⟨hbytes, hoffset, rest, hrest⟩
      have hxs : xs <+: cursor.bytes.drop cursor.offset :=
        ⟨ys ++ rest, by rw [← hrest, List.append_assoc]⟩
      have hle : cursor.offset + xs.length ≤ cursor.bytes.length := by
        have hlength := hxs.length_le
        have := cursor.inBounds
        rw [List.length_drop] at hlength
        omega
      refine ⟨⟨cursor.bytes, cursor.offset + xs.length, hle⟩, ⟨rfl, rfl, hxs⟩, hbytes, ?_, rest, ?_⟩
      · rw [hoffset, List.length_append, Nat.add_assoc]
      · dsimp only
        rw [← List.drop_drop, ← hrest, List.append_assoc, List.drop_left]
    · rintro ⟨⟨bytes, offset, hle⟩, ⟨hbytes, hoffset, rest, hrest⟩, hbytes', hoffset', rest',
        hrest'⟩
      dsimp only at hbytes hoffset hbytes' hoffset' hrest'
      subst hbytes hoffset
      refine ⟨hbytes', ?_, rest', ?_⟩
      · rw [hoffset', List.length_append, Nat.add_assoc]
      · rw [← List.drop_drop, ← hrest, List.drop_left] at hrest'
        rw [← hrest, ← hrest', List.append_assoc]

lemma accepts_take (length : ℕ) :
    Accepts consumption (take length) fun bytes xs => bytes.length = length ∧ xs = bytes := by
  intro cursor bytes cursor'
  unfold take
  constructor
  · intro h
    split_ifs at h with hle
    cases h
    have hlen : ((cursor.bytes.drop cursor.offset).take length).length = length := by
      rw [List.length_take, List.length_drop]
      omega
    exact ⟨_, ⟨hlen, rfl⟩, rfl, congrArg (cursor.offset + ·) hlen.symm, List.take_prefix _ _⟩
  · rintro ⟨xs, ⟨rfl, rfl⟩, hbytes, hoff, hpre⟩
    have hle : cursor.offset + xs.length ≤ cursor.bytes.length := by
      have hlen := hpre.length_le
      have := cursor.inBounds
      rw [List.length_drop] at hlen
      omega
    rw [dif_pos hle, ← List.prefix_iff_eq_take.mp hpre]
    cases cursor'
    cases hbytes
    cases hoff
    rfl

lemma accepts_word (width : ℕ) : Accepts consumption (do return beValue (← take width)) fun n xs =>
      n < 256 ^ width ∧ xs = beBytes width n := by
  refine ((accepts_take width).bind fun bytes => accepts_pure (beValue bytes)).congr fun n xs => ?_
  constructor
  · rintro ⟨bytes, ys, zs, rfl, ⟨rfl, rfl⟩, rfl, rfl⟩
    exact ⟨beValue_lt _, by rw [List.append_nil, beBytes_beValue]⟩
  · rintro ⟨hlt, rfl⟩
    exact ⟨beBytes width n, _, [], (List.append_nil _).symm, ⟨length_beBytes _ _, rfl⟩,
      (beValue_beBytes hlt).symm, rfl⟩

variable {file : BundleFile} {bytes : List UInt8} {files : List BundleFile}

lemma BundleFile.Valid.lengths (h : file.Valid) :
    ¬((asBytes file.path).length = 0 ∨ (asBytes file.path).length > maxPathBytes ∨
      (asBytes file.mime).length = 0 ∨ (asBytes file.mime).length > maxMimeBytes ∨
      file.bytes.length > maxFileBytes) := by
  have hpath := validatePath_length h.path
  have hmime := validateMime_length h.mime
  have hbytes := h.bytes
  rw [length_asBytes, length_asBytes]
  omega

lemma accepts_readText (error : BundleError) (length : ℕ) :
    Accepts consumption (readText error length) fun text xs =>
      (asBytes text).length = length ∧ xs = asBytes text := by
  refine ((accepts_take length).bind fun bytes =>
    accepts_ofExcept (fromUtf8 error bytes)).congr fun text xs => ?_
  constructor
  · rintro ⟨bytes, ys, zs, rfl, ⟨rfl, rfl⟩, htext, rfl⟩
    obtain rfl := fromUtf8_eq_ok_iff.mp htext
    exact ⟨rfl, List.append_nil _⟩
  · rintro ⟨rfl, rfl⟩
    exact ⟨_, _, [], (List.append_nil _).symm, ⟨rfl, rfl⟩, fromUtf8_eq_ok_iff.mpr rfl, rfl⟩

lemma accepts_fileBody (pathLen mimeLen byteLen : ℕ) : Accepts consumption (do
      let path ← readText .path pathLen
      let mime ← readText .mime mimeLen
      ofExcept (validatePath path)
      ofExcept (validateMime mime)
      let bytes ← take byteLen
      return { path, mime, bytes : BundleFile }) fun file xs =>
      ((asBytes file.path).length = pathLen ∧ (asBytes file.mime).length = mimeLen ∧
        file.bytes.length = byteLen) ∧
        validatePath file.path = .ok () ∧ validateMime file.mime = .ok () ∧
        xs = asBytes file.path ++ asBytes file.mime ++ file.bytes := by
  refine ((accepts_readText .path pathLen).bind fun path =>
    (accepts_readText .mime mimeLen).bind fun mime =>
    (accepts_ofExcept (validatePath path)).bind fun _ =>
    (accepts_ofExcept (validateMime mime)).bind fun _ =>
    (accepts_take byteLen).bind fun bytes =>
    accepts_pure (⟨path, mime, bytes⟩ : BundleFile)).congr fun file xs => ?_
  constructor
  · rintro ⟨path, _, _, rfl, ⟨rfl, rfl⟩, mime, _, _, rfl, ⟨rfl, rfl⟩, _, _, _, rfl, ⟨hpath, rfl⟩,
      _, _, _, rfl, ⟨hmime, rfl⟩, bytes, _, _, rfl, ⟨rfl, rfl⟩, rfl, rfl⟩
    exact ⟨⟨rfl, rfl, rfl⟩, hpath, hmime, by simp⟩
  · rintro ⟨⟨rfl, rfl, rfl⟩, hpath, hmime, rfl⟩
    refine ⟨_, _, _, ?_, ⟨rfl, rfl⟩, _, _, _, rfl, ⟨rfl, rfl⟩, _, _, _, rfl, ⟨hpath, rfl⟩,
      _, _, _, rfl, ⟨hmime, rfl⟩, _, _, _, rfl, ⟨rfl, rfl⟩, rfl, rfl⟩
    simp

lemma accepts_readFile :
    Accepts consumption readFile fun file xs => file.Valid ∧ xs = fileBytes file := by
  refine ((accepts_word 2).bind fun pathLen => (accepts_word 2).bind fun mimeLen =>
    (accepts_word 4).bind fun byteLen =>
      (accepts_fileBody pathLen mimeLen byteLen).unless _ _).congr fun file xs => ?_
  constructor
  · rintro ⟨_, _, _, rfl, ⟨-, rfl⟩, _, _, _, rfl, ⟨-, rfl⟩, _, _, _, rfl, ⟨-, rfl⟩,
      hlen, ⟨rfl, rfl, rfl⟩, hpath, hmime, rfl⟩
    refine ⟨⟨hpath, hmime, by omega⟩, ?_⟩
    simp [fileBytes]
  · rintro ⟨hvalid, rfl⟩
    have hlen := hvalid.lengths
    have hpath : (asBytes file.path).length < 256 ^ 2 := by
      unfold maxPathBytes at hlen
      omega
    have hmime : (asBytes file.mime).length < 256 ^ 2 := by
      unfold maxMimeBytes at hlen
      omega
    have hbytes : file.bytes.length < 256 ^ 4 := by
      unfold maxFileBytes at hlen
      omega
    refine ⟨_, _, _, ?_, ⟨hpath, rfl⟩, _, _, _, rfl, ⟨hmime, rfl⟩, _, _, _, rfl, ⟨hbytes, rfl⟩,
      hlen, ⟨rfl, rfl, rfl⟩, hvalid.path, hvalid.mime, rfl⟩
    simp [fileBytes]

lemma accepts_readArchive : Accepts consumption readArchive fun files xs =>
      files ≠ [] ∧ files.length ≤ maxFiles ∧ (∀ file ∈ files, file.Valid) ∧
        xs = archiveBytes files := by
  refine ((accepts_take 4).bind fun magic => ((accepts_word 2).bind fun version =>
    ((accepts_word 2).bind fun count =>
      (accepts_readFile.repeatM count).unless _ _).unless _ _).unless _ _).congr
    fun files xs => ?_
  constructor
  · rintro ⟨_, _, _, rfl, ⟨-, rfl⟩, hmagic, version, _, _, rfl, ⟨-, rfl⟩, hver,
      _, _, _, rfl, ⟨-, rfl⟩, hcount, rfl, hvalid, rfl⟩
    rw [not_or, List.length_eq_zero_iff] at hcount
    refine ⟨hcount.1, Nat.not_lt.mp hcount.2, hvalid, ?_⟩
    rw [not_not.mp hmagic, not_not.mp hver]
    simp [archiveBytes]
  · rintro ⟨hne, hle, hvalid, rfl⟩
    have hcount : files.length < 256 ^ 2 := by
      unfold maxFiles at hle
      omega
    have hnot : ¬(files.length = 0 ∨ files.length > maxFiles) :=
      not_or.mpr ⟨List.length_eq_zero_iff.not.mpr hne, Nat.not_lt.mpr hle⟩
    refine ⟨archiveMagic, _, _, ?_, ⟨rfl, rfl⟩, not_not.mpr rfl, archiveVersion, _, _, rfl,
      ⟨by decide, rfl⟩, not_not.mpr rfl, _, _, _, rfl, ⟨hcount, rfl⟩, hnot, rfl, hvalid, rfl⟩
    simp [archiveBytes]

lemma decode_eq_ok_iff :
    StaticBundle.decode bytes = .ok bundle ↔
      ∃ files, bytes = archiveBytes files ∧ StaticBundle.new files = .ok bundle := by
  unfold StaticBundle.decode
  constructor
  · intro h
    split at h
    · cases h
    next files cursor hread =>
      split_ifs at h with hoff
      obtain ⟨xs, ⟨-, -, -, rfl⟩, -, hend, hpre⟩ := (accepts_readArchive _ _ _).mp hread
      refine ⟨files, ?_, h⟩
      -- the cursor has come to the end, so that nothing follows what was read
      rw [not_not.mp hoff] at hend
      exact (hpre.eq_of_length (by simpa [start] using hend.symm)).symm
  · rintro ⟨files, rfl, hnew⟩
    obtain ⟨hbun, -⟩ := new_eq_ok_iff.mp hnew
    have hread : readArchive (start (archiveBytes files)) =
        .ok files ⟨archiveBytes files, (archiveBytes files).length, le_rfl⟩ := by
      refine (accepts_readArchive _ _ _).mpr ⟨archiveBytes files,
        ⟨hbun.nonempty, hbun.count, hbun.valid, rfl⟩, rfl, ?_, List.prefix_rfl⟩
      simp [start]
    simp only [hread]
    rw [if_neg (not_not.mpr rfl)]
    exact hnew

def Representable (file : BundleFile) : Prop :=
  (asBytes file.path).length < 256 ^ 2 ∧ (asBytes file.mime).length < 256 ^ 2 ∧
    file.bytes.length < 256 ^ 4

/-- The byte string is an archive of the records, one after the other. -/
def Encodes (records : List BundleFile) (bytes : List UInt8) : Prop :=
  records.length < 256 ^ 2 ∧ (∀ file ∈ records, Representable file) ∧
    bytes = archiveBytes records

lemma BundleFile.Valid.representable (h : file.Valid) : Representable file := by
  have hlen := h.lengths
  unfold maxPathBytes maxMimeBytes maxFileBytes at hlen
  unfold Representable
  omega

lemma beBytes_inj (hn : n < 256 ^ w) (hm : m < 256 ^ w) (h : beBytes w n = beBytes w m) :
    n = m := by
  rw [← beValue_beBytes hn, h, beValue_beBytes hm]

lemma fileBytes_append_inj (hfile : Representable file) (hfile' : Representable file')
    (h : fileBytes file ++ rest = fileBytes file' ++ rest') : file = file' ∧ rest = rest' := by
  simp only [fileBytes, List.append_assoc] at h
  obtain ⟨hpatLe, h⟩ := List.append_inj h (by simp)
  obtain ⟨hmimLe, h⟩ := List.append_inj h (by simp)
  obtain ⟨hbytLe, h⟩ := List.append_inj h (by simp)
  obtain ⟨hpath, h⟩ := List.append_inj h (beBytes_inj hfile.1 hfile'.1 hpatLe)
  obtain ⟨hmime, h⟩ := List.append_inj h (beBytes_inj hfile.2.1 hfile'.2.1 hmimLe)
  obtain ⟨hbytes, hrest⟩ := List.append_inj h (beBytes_inj hfile.2.2 hfile'.2.2 hbytLe)
  obtain ⟨path, mime, bytes⟩ := file
  obtain ⟨path', mime', bytes'⟩ := file'
  obtain rfl := asBytes_injective hpath
  obtain rfl := asBytes_injective hmime
  obtain rfl := hbytes
  exact ⟨rfl, hrest⟩

lemma flatMap_fileBytes_inj (hlen : files.length = files'.length)
    (hfiles : ∀ file ∈ files, Representable file) (hfiles' : ∀ file ∈ files', Representable file)
    (h : files.flatMap fileBytes = files'.flatMap fileBytes) : files = files' := by
  induction files generalizing files' with
  | nil => exact (List.length_eq_zero_iff.mp hlen.symm).symm
  | cons file files ih =>
    obtain ⟨file', files', rfl⟩ := List.exists_cons_of_length_eq_add_one hlen.symm
    rw [List.flatMap_cons, List.flatMap_cons] at h
    rw [List.forall_mem_cons] at hfiles hfiles'
    obtain ⟨rfl, hrest⟩ := fileBytes_append_inj hfiles.1 hfiles'.1 h
    rw [ih (Nat.succ.inj hlen) hfiles.2 hfiles'.2 hrest]

lemma Encodes.unique (h : Encodes records bytes) (h' : Encodes records' bytes) :
    records = records' := by
  obtain ⟨hcount, hfiles, rfl⟩ := h
  obtain ⟨hcount', hfiles', heq⟩ := h'
  simp only [archiveBytes, List.append_assoc] at heq
  obtain ⟨-, heq⟩ := List.append_inj heq rfl
  obtain ⟨-, heq⟩ := List.append_inj heq rfl
  obtain ⟨hlen, heq⟩ := List.append_inj heq (by simp)
  exact flatMap_fileBytes_inj (beBytes_inj hcount hcount' hlen) hfiles hfiles' heq

lemma Bundled.encodes (h : Bundled files) : Encodes files (archiveBytes files) := by
  have hcount := h.count
  unfold maxFiles at hcount
  exact ⟨by omega, fun file hfile => (h.valid file hfile).representable, rfl⟩

/-- A bundle comes back from its archive, and a bundle that is read holds the records of
the archive: those and no others, each once, within the limits of `new`. -/
theorem static_bundle_codec :
    (∀ files bundle, StaticBundle.new files = .ok bundle →
      ∃ bytes, bundle.encode = .ok bytes ∧ StaticBundle.decode bytes = .ok bundle) ∧
    ∀ bytes bundle, StaticBundle.decode bytes = .ok bundle → ∃ records,
      (∀ records', Encodes records' bytes ↔ records' = records) ∧
      bundle.fileList.Perm records ∧ (records.map BundleFile.path).Nodup ∧
      (∀ path file, bundle.get path = some file ↔ file ∈ records ∧ file.path = path) ∧
      (∀ file ∈ records, validatePath file.path = .ok () ∧ validateMime file.mime = .ok () ∧
        file.bytes.length ≤ maxFileBytes) ∧
      1 ≤ records.length ∧ records.length ≤ maxFiles ∧
      totalBytes records ≤ maxTotalBytes := by
  constructor
  · intro files bundle _
    exact ⟨_, rfl, decode_eq_ok_iff.mpr ⟨bundle.fileList, rfl, new_fileList bundle⟩⟩
  · intro bytes bundle h
    obtain ⟨records, rfl, hnew⟩ := decode_eq_ok_iff.mp h
    obtain ⟨hbundled, hfiles⟩ := new_eq_ok_iff.mp hnew
    have hperm : bundle.fileList.Perm records := by
      rw [StaticBundle.fileList, hfiles]
      exact values_insertAll_perm hbundled.distinct
    refine ⟨records, fun records' => ⟨fun h' => h'.unique hbundled.encodes, ?_⟩, hperm,
      hbundled.distinct, fun path file => ?_, fun file hfile => ?_,
      List.length_pos_iff.mpr hbundled.nonempty, hbundled.count, hbundled.total⟩
    · rintro rfl
      exact hbundled.encodes
    · rw [StaticBundle.get, hfiles, getElem?_insertAll_empty hbundled.distinct]
    · have hvalid := hbundled.valid file hfile
      exact ⟨hvalid.path, hvalid.mime, hvalid.bytes⟩

end Stasis.Network
