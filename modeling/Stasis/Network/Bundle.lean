import Mathlib.Algebra.BigOperators.Group.List.Basic
import Mathlib.Data.List.Nodup
import Stasis.Lib.BigEndian
import Stasis.Lib.Format

namespace Stasis.Network

open List

def archiveMagic : List UInt8 := [0x53, 0x47, 0x42, 0x31]
def archiveVersion : ℕ := 1
def maxFiles : ℕ := 256
def maxPathBytes : ℕ := 128
def maxMimeBytes : ℕ := 64
def maxFileBytes : ℕ := 16 * 1024 * 1024
def maxTotalBytes : ℕ := 32 * 1024 * 1024

inductive BundleError
  | truncated
  | header
  | fileCount
  | path
  | mime
  | length
  | duplicate
  | trailing
  deriving DecidableEq, Repr

structure BundleFile where
  path : String
  mime : String
  bytes : List UInt8
  deriving DecidableEq

def asBytes (text : String) : List UInt8 := text.toByteArray.data.toList

/-- `str::from_utf8`, with the error the caller maps a failure to. -/
def fromUtf8 (error : BundleError) (bytes : List UInt8) : Except BundleError String :=
  match String.fromUTF8? ⟨bytes.toArray⟩ with
  | some text => .ok text
  | none => .error error

lemma asBytes_injective : Function.Injective asBytes := by
  intro text text' h
  apply String.toByteArray_inj.mp
  apply ByteArray.ext
  exact Array.toList_inj.mp h

lemma length_asBytes (text : String) : (asBytes text).length = text.utf8ByteSize := rfl

lemma fromUtf8_eq_ok_iff : fromUtf8 error bytes = .ok text ↔ bytes = asBytes text := by
  unfold fromUtf8 String.fromUTF8?
  constructor
  · intro h
    split at h
    next text' htext =>
      cases h
      split_ifs at htext with hvalid
      cases htext
      rfl
    next => cases h
  · rintro rfl
    have hbytes : (⟨(asBytes text).toArray⟩ : ByteArray) = text.toByteArray := rfl
    rw [hbytes, dif_pos text.isValidUTF8]
    rfl

def validatePath (path : String) : Except BundleError Unit :=
  if path.isEmpty ∨ path.utf8ByteSize > maxPathBytes ∨ path.toList.head? = some '/' ∨
      '\\' ∈ path.toList ∨
      (path.toList.splitOn '/').any (fun part =>
        part == [] || part == ['.'] || part == ['.', '.']) ∨
      ¬(asBytes path).all (· < 128) then
    .error .path
  else
    .ok ()

def validateMime (mime : String) : Except BundleError Unit :=
  if mime.isEmpty ∨ mime.utf8ByteSize > maxMimeBytes ∨ ¬(asBytes mime).all (· < 128) ∨
      (asBytes mime).any (fun byte => byte < 0x20 || byte == 0x7f) then
    .error .mime
  else
    .ok ()

variable {path : String} {file : BundleFile} {map : FileMap}

lemma validatePath_length (h : validatePath path = .ok ()) :
    path.utf8ByteSize ≠ 0 ∧ path.utf8ByteSize ≤ maxPathBytes := by
  unfold validatePath at h
  split_ifs at h with hinv
  simp only [not_or] at hinv
  obtain ⟨hempty, hlen, -⟩ := hinv
  exact ⟨by simpa [String.isEmpty] using hempty, Nat.not_lt.mp hlen⟩

lemma validateMime_length (h : validateMime mime = .ok ()) :
    mime.utf8ByteSize ≠ 0 ∧ mime.utf8ByteSize ≤ maxMimeBytes := by
  unfold validateMime at h
  split_ifs at h with hinv
  simp only [not_or] at hinv
  obtain ⟨hempty, hlen, -⟩ := hinv
  exact ⟨by simpa [String.isEmpty] using hempty, Nat.not_lt.mp hlen⟩

structure BundleFile.Valid (file : BundleFile) : Prop where
  path : validatePath file.path = .ok ()
  mime : validateMime file.mime = .ok ()
  bytes : file.bytes.length ≤ maxFileBytes

def totalBytes (files : List BundleFile) : ℕ := (files.map (·.bytes.length)).sum

abbrev FileMap := Std.ExtTreeMap String BundleFile

def FileMap.values (map : FileMap) : List BundleFile := map.toList.map Prod.snd

/-- The loop body of `StaticBundle::new`.  A sum that leaves `usize` is refused with the
same error as one above the limit. -/
def addFile (state : ℕ × FileMap) (file : BundleFile) : Except BundleError (ℕ × FileMap) := do
  validatePath file.path
  validateMime file.mime
  if file.bytes.length > maxFileBytes then throw .length else
  let total := state.1 + file.bytes.length
  if total > maxTotalBytes then throw .length else
  if file.path ∈ state.2 then throw .duplicate else
  return (total, state.2.insert file.path file)

lemma addFile_eq_ok_iff :
    addFile state file = .ok state' ↔
      file.Valid ∧ state.1 + file.bytes.length ≤ maxTotalBytes ∧ file.path ∉ state.2 ∧
        state' = (state.1 + file.bytes.length, state.2.insert file.path file) := by
  unfold addFile
  rw [unit_bind_ok_iff, unit_bind_ok_iff]
  dsimp only
  constructor
  · rintro ⟨hpath, hmime, h⟩
    split_ifs at h with hbytes htotal hpre
    · cases h
      exact ⟨⟨hpath, hmime, Nat.not_lt.mp hbytes⟩, Nat.not_lt.mp htotal, hpre, rfl⟩
  · rintro ⟨⟨hpath, hmime, hbytes⟩, htotal, hnew, rfl⟩
    refine ⟨hpath, hmime, ?_⟩
    rw [if_neg (Nat.not_lt.mpr hbytes), if_neg (Nat.not_lt.mpr htotal), if_neg hnew]
    rfl

lemma mem_insert_path : path ∈ map.insert file.path file ↔ file.path = path ∨ path ∈ map := by
  rw [Std.ExtTreeMap.mem_insert, Std.LawfulEqOrd.compare_eq_iff_eq]

def insertAll (map : FileMap) (files : List BundleFile) : FileMap :=
  files.foldl (fun map file => map.insert file.path file) map

variable {files : List BundleFile}

lemma getElem?_insertAll (hnodup : (files.map BundleFile.path).Nodup)
    (hnew : ∀ file ∈ files, file.path ∉ map) : (insertAll map files)[path]? = some file ↔
      (file ∈ files ∧ file.path = path) ∨ map[path]? = some file := by
  induction files generalizing map with
  | nil => simp [insertAll]
  | cons first files ih =>
    rw [map_cons, nodup_cons] at hnodup
    obtain ⟨hfirst, hnew⟩ := forall_mem_cons.mp hnew
    have hrest : ∀ file ∈ files, file.path ∉ map.insert first.path first := by
      intro file hfile hmem
      rcases mem_insert_path.mp hmem with heq | hmem
      · exact hnodup.1 (heq ▸ mem_map_of_mem hfile)
      · exact hnew file hfile hmem
    have hstep : insertAll map (first :: files) =
      insertAll (map.insert first.path first) files := rfl
    rw [hstep, ih hnodup.2 hrest, Std.ExtTreeMap.getElem?_insert, mem_cons]
    split_ifs with hpath <;> rw [Std.LawfulEqOrd.compare_eq_iff_eq] at hpath
    · have habs : map[path]? = none := by
        rw [← hpath]
        exact Std.ExtTreeMap.getElem?_eq_none hfirst
      rw [habs, Option.some.injEq]
      constructor
      · rintro (⟨hfile, heq⟩ | rfl)
        · exact .inl ⟨.inr hfile, heq⟩
        · exact .inl ⟨.inl rfl, hpath⟩
      · rintro (⟨rfl | hfile, heq⟩ | h)
        · exact .inr rfl
        · exact .inl ⟨hfile, heq⟩
        · cases h
    · constructor
      · rintro (⟨hfile, heq⟩ | h)
        · exact .inl ⟨.inr hfile, heq⟩
        · exact .inr h
      · rintro (⟨rfl | hfile, heq⟩ | h)
        · exact absurd heq hpath
        · exact .inl ⟨hfile, heq⟩
        · exact .inr h

lemma foldlM_addFile_eq_ok_iff (htotal : state.1 ≤ maxTotalBytes) :
    files.foldlM addFile state = .ok state' ↔
      (∀ file ∈ files, file.Valid) ∧ state.1 + totalBytes files ≤ maxTotalBytes ∧
        (files.map BundleFile.path).Nodup ∧ (∀ file ∈ files, file.path ∉ state.2) ∧
        state' = (state.1 + totalBytes files, insertAll state.2 files) := by
  induction files generalizing state with
  | nil =>
    rw [foldlM_nil, pure_ok_iff]
    simp [totalBytes, insertAll, htotal, eq_comm]
  | cons file files ih =>
    have hsum : totalBytes (file :: files) = file.bytes.length + totalBytes files := by
      simp [totalBytes]
    rw [foldlM_cons, bind_ok_iff, hsum, ← Nat.add_assoc, map_cons,
      nodup_cons, forall_mem_cons, forall_mem_cons]
    constructor
    · rintro ⟨next, hadd, hrest⟩
      obtain ⟨hvalid, hle, hnew, rfl⟩ := addFile_eq_ok_iff.mp hadd
      obtain ⟨hval, hle', hnodup, hnews, rfl⟩ := (ih hle).mp hrest
      -- a path that comes back later would be found in the map
      refine ⟨⟨hvalid, hval⟩, hle', ⟨?_, hnodup⟩, ⟨hnew, ?_⟩, rfl⟩
      · intro hmem
        obtain ⟨file', hfile', heq⟩ := mem_map.mp hmem
        exact hnews file' hfile' (mem_insert_path.mpr (.inl heq.symm))
      · intro file' hfile' hmem
        exact hnews file' hfile' (mem_insert_path.mpr (.inr hmem))
    · rintro ⟨⟨hvalid, hval⟩, hle, ⟨hfresh, hnodup⟩, ⟨hnew, hnews⟩, rfl⟩
      have hle' : state.1 + file.bytes.length ≤ maxTotalBytes := by omega
      refine ⟨_, addFile_eq_ok_iff.mpr ⟨hvalid, hle', hnew, rfl⟩, ?_⟩
      refine (ih hle').mpr ⟨hval, hle, hnodup, ?_, rfl⟩
      intro file' hfile' hmem
      rcases mem_insert_path.mp hmem with heq | hmem
      · exact hfresh (heq ▸ mem_map_of_mem hfile')
      · exact hnews file' hfile' hmem

def Keyed (map : FileMap) : Prop :=
  ∀ (path : String) (file : BundleFile), map[path]? = some file → file.path = path

structure WellFormed (map : FileMap) : Prop where
  keyed : Keyed map
  valid : ∀ file ∈ map.values, file.Valid
  nonempty : map.values ≠ []
  count : map.values.length ≤ maxFiles
  total : totalBytes map.values ≤ maxTotalBytes

@[ext] structure StaticBundle where
  files : FileMap
  wellFormed : WellFormed files

lemma mem_values : file ∈ map.values ↔ ∃ path : String, map[path]? = some file := by
  simp only [FileMap.values, mem_map, Prod.exists, Std.ExtTreeMap.mem_toList_iff_getElem?_eq_some]
  exact ⟨fun ⟨path, _, h, heq⟩ => ⟨path, heq ▸ h⟩, fun ⟨path, h⟩ => ⟨path, file, h, rfl⟩⟩

lemma Keyed.nodup_paths (hkeyed : Keyed map) : (map.values.map BundleFile.path).Nodup := by
  have hkeys : map.values.map BundleFile.path = map.toList.map Prod.fst := by
    rw [FileMap.values, map_map]
    apply map_congr_left
    rintro ⟨path, file⟩ hmem
    exact hkeyed path file (Std.ExtTreeMap.mem_toList_iff_getElem?_eq_some.mp hmem)
  rw [hkeys, Std.ExtTreeMap.map_fst_toList_eq_keys]
  exact Std.ExtTreeMap.nodup_keys

section Collected

variable {files : List BundleFile} (hnodup : (files.map BundleFile.path).Nodup)
include hnodup

lemma getElem?_insertAll_empty :
    (insertAll ∅ files)[path]? = some file ↔ file ∈ files ∧ file.path = path := by
  rw [getElem?_insertAll hnodup fun _ _ => Std.ExtTreeMap.not_mem_empty]
  simp

lemma keyed_insertAll : Keyed (insertAll ∅ files) := fun _ _ h =>
  ((getElem?_insertAll_empty hnodup).mp h).2

lemma values_insertAll_perm : (insertAll ∅ files).values.Perm files := by
  have hval := (keyed_insertAll hnodup).nodup_paths
  refine (perm_ext_iff_of_nodup (.of_map _ hval) (.of_map _ hnodup)).mpr fun file => ?_
  rw [mem_values]
  constructor
  · rintro ⟨path, h⟩
    exact ((getElem?_insertAll_empty hnodup).mp h).1
  · intro h
    exact ⟨file.path, (getElem?_insertAll_empty hnodup).mpr ⟨h, rfl⟩⟩

end Collected

lemma wellFormed_of_foldlM (hcount : ¬(files = [] ∨ files.length > maxFiles))
    (h : files.foldlM addFile (0, ∅) = .ok state) : WellFormed state.2 := by
  obtain ⟨hvalid, htotal, hnodup, -, rfl⟩ := (foldlM_addFile_eq_ok_iff (Nat.zero_le _)).mp h
  have hperm := values_insertAll_perm hnodup
  obtain ⟨hne, hle⟩ := not_or.mp hcount
  rw [Nat.zero_add, totalBytes, ← (hperm.map _).sum_eq] at htotal
  exact {
    keyed := keyed_insertAll hnodup
    valid := fun file hfile => hvalid file (hperm.mem_iff.mp hfile)
    nonempty := fun hnil => hne (nil_perm.mp (hnil ▸ hperm))
    count := hperm.length_eq ▸ Nat.not_lt.mp hle
    total := htotal }

namespace StaticBundle

def new (files : List BundleFile) : Except BundleError StaticBundle :=
  if hcount : files = [] ∨ files.length > maxFiles then .error .fileCount
  else match h : files.foldlM addFile (0, ∅) with
    | .error error => .error error
    | .ok state => .ok ⟨state.2, wellFormed_of_foldlM hcount h⟩

def get (bundle : StaticBundle) (path : String) : Option BundleFile := bundle.files[path]?

def fileList (bundle : StaticBundle) : List BundleFile := bundle.files.values

end StaticBundle

structure Bundled (files : List BundleFile) : Prop where
  nonempty : files ≠ []
  count : files.length ≤ maxFiles
  valid : ∀ file ∈ files, file.Valid
  total : totalBytes files ≤ maxTotalBytes
  distinct : (files.map BundleFile.path).Nodup

lemma new_eq_ok_iff :
    StaticBundle.new files = .ok bundle ↔ Bundled files ∧ bundle.files = insertAll ∅ files := by
  unfold StaticBundle.new
  constructor
  · intro h
    split_ifs at h with hcount
    split at h
    · cases h
    next state hstate =>
      cases h
      obtain ⟨hvalid, htotal, hnodup, -, rfl⟩ :=
        (foldlM_addFile_eq_ok_iff (Nat.zero_le _)).mp hstate
      obtain ⟨hne, hle⟩ := not_or.mp hcount
      exact ⟨⟨hne, Nat.not_lt.mp hle, hvalid, Nat.zero_add (totalBytes files) ▸ htotal, hnodup⟩,
        rfl⟩
  · rintro ⟨hbun, hfiles⟩
    have hcount : ¬(files = [] ∨ files.length > maxFiles) :=
      not_or.mpr ⟨hbun.nonempty, Nat.not_lt.mpr hbun.count⟩
    have hrun : files.foldlM addFile (0, ∅) = .ok (0 + totalBytes files, insertAll ∅ files) :=
      (foldlM_addFile_eq_ok_iff (Nat.zero_le _)).mpr ⟨hbun.valid,
        (Nat.zero_add _).trans_le hbun.total, hbun.distinct,
        fun _ _ => Std.ExtTreeMap.not_mem_empty, rfl⟩
    rw [dif_neg hcount]
    split
    next hstate =>
      rw [hrun] at hstate
      cases hstate
    next state hstate =>
      rw [hrun, Except.ok.injEq] at hstate
      subst hstate
      exact congrArg Except.ok (StaticBundle.ext hfiles.symm)

lemma new_fileList (bundle : StaticBundle) : StaticBundle.new bundle.fileList = .ok bundle := by
  obtain ⟨map, hkeyed, hvalid, hne, hcount, htotal⟩ := bundle
  have hnodup := hkeyed.nodup_paths
  refine new_eq_ok_iff.mpr ⟨⟨hne, hcount, hvalid, htotal, hnodup⟩, ?_⟩
  apply Std.ExtTreeMap.ext_getElem?
  intro path
  apply Option.ext
  intro file
  dsimp only [StaticBundle.fileList]
  rw [getElem?_insertAll_empty hnodup, mem_values]
  constructor
  · intro h
    exact ⟨⟨path, h⟩, hkeyed path file h⟩
  · rintro ⟨⟨path', h⟩, rfl⟩
    rwa [hkeyed path' file h]

end Stasis.Network
