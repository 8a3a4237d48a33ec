import Stasis.Migration.Steps
import Stasis.Runtime.Interference

namespace Stasis.Migration

open Stasis.Runtime.Registry
open List
open Stasis.Runtime Stasis.Runtime.Program

def utf8Encode (text : List Char) : List UInt8 := text.flatMap String.utf8EncodeChar

@[simp] lemma utf8Encode_nil : utf8Encode [] = [] := rfl

@[simp] lemma utf8Encode_cons (c : Char) (text : List Char) :
    utf8Encode (c :: text) = String.utf8EncodeChar c ++ utf8Encode text := rfl

lemma utf8Encode_append (text rest : List Char) :
    utf8Encode (text ++ rest) = utf8Encode text ++ utf8Encode rest :=
  flatMap_append

section CharLen

lemma utf8Continuation_cons :
    utf8Continuation low high (b :: rest) = true ↔ low.toNat ≤ b.toNat ∧ b.toNat ≤ high.toNat := by
  simp [utf8Continuation, UInt8.le_iff_toNat_le]

lemma utf8CharLen_one (ha : a.toNat ≤ 0x7F) : utf8CharLen (a :: rest) = some 1 := by
  have hlt : a < 0x80 := UInt8.lt_iff_toNat_lt.mpr (Nat.lt_succ_of_le ha)
  simp [utf8CharLen, hlt]

lemma utf8CharLen_two (ha : 0xC2 ≤ a.toNat ∧ a.toNat ≤ 0xDF) :
    utf8CharLen (a :: rest) = if utf8Continuation 0x80 0xBF rest then some 2 else none := by
  unfold utf8CharLen
  simp only [UInt8.lt_iff_toNat_lt, UInt8.le_iff_toNat_le, UInt8.reduceToNat]
  rw [if_neg (by omega), if_pos ha]

lemma utf8CharLen_three (ha : 0xE0 ≤ a.toNat ∧ a.toNat ≤ 0xEF) :
    utf8CharLen (a :: rest) =
      if utf8Continuation (if a = 0xE0 then 0xA0 else 0x80) (if a = 0xED then 0x9F else 0xBF) rest ∧
        utf8Continuation 0x80 0xBF (rest.drop 1) then some 3 else none := by
  unfold utf8CharLen
  simp only [UInt8.lt_iff_toNat_lt, UInt8.le_iff_toNat_le, UInt8.reduceToNat]
  rw [if_neg (by omega), if_neg (by omega), if_pos ha]

lemma utf8CharLen_four (ha : 0xF0 ≤ a.toNat ∧ a.toNat ≤ 0xF4) :
    utf8CharLen (a :: rest) =
      if utf8Continuation (if a = 0xF0 then 0x90 else 0x80) (if a = 0xF4 then 0x8F else 0xBF) rest ∧
        utf8Continuation 0x80 0xBF (rest.drop 1) ∧ utf8Continuation 0x80 0xBF (rest.drop 2)
      then some 4 else none := by
  unfold utf8CharLen
  simp only [UInt8.lt_iff_toNat_lt, UInt8.le_iff_toNat_le, UInt8.reduceToNat]
  rw [if_neg (by omega), if_neg (by omega), if_neg (by omega), if_pos ha]

end CharLen

lemma toNat_ofNat_byte (h : n < 256) : (UInt8.ofNat n).toNat = n := by
  rw [UInt8.toNat_ofNat']
  exact Nat.mod_eq_of_lt h

inductive CharBytes : List UInt8 → Prop
  | one {a : UInt8} : a.toNat ≤ 0x7F → CharBytes [a]
  | two {a b : UInt8} : 0xC2 ≤ a.toNat ∧ a.toNat ≤ 0xDF →
      utf8Continuation 0x80 0xBF [b] → CharBytes [a, b]
  | three {a b c : UInt8} : 0xE0 ≤ a.toNat ∧ a.toNat ≤ 0xEF →
      utf8Continuation (if a = 0xE0 then 0xA0 else 0x80) (if a = 0xED then 0x9F else 0xBF) [b] →
      utf8Continuation 0x80 0xBF [c] → CharBytes [a, b, c]
  | four {a b c d : UInt8} : 0xF0 ≤ a.toNat ∧ a.toNat ≤ 0xF4 →
      utf8Continuation (if a = 0xF0 then 0x90 else 0x80) (if a = 0xF4 then 0x8F else 0xBF) [b] →
      utf8Continuation 0x80 0xBF [c] → utf8Continuation 0x80 0xBF [d] → CharBytes [a, b, c, d]

lemma charBytes_utf8EncodeChar (c : Char) : CharBytes (String.utf8EncodeChar c) := by
  have hvalid : c.val.toNat < 0xD800 ∨ 0xDFFF < c.val.toNat ∧ c.val.toNat < 0x110000 := c.valid
  unfold String.utf8EncodeChar
  generalize c.val.toNat = v at hvalid
  dsimp only
  have htail : ∀ n, utf8Continuation 0x80 0xBF [UInt8.ofNat (n % 64 + 128)] := by
    intro n
    rw [utf8Continuation_cons, toNat_ofNat_byte (by omega)]
    exact ⟨Nat.le_add_left _ _, by show n % 64 + 128 ≤ 191; omega⟩
  split_ifs with h1 h2 h3
  · refine .one ?_
    rw [toNat_ofNat_byte (by omega)]
    exact h1
  · refine .two ?_ (htail v)
    rw [toNat_ofNat_byte (by omega)]
    omega
  · have hlead := toNat_ofNat_byte (show v / 4096 % 16 + 224 < 256 by omega)
    refine .three (by rw [hlead]; omega) ?_ (htail v)
    rw [utf8Continuation_cons, toNat_ofNat_byte (by omega)]
    refine ⟨?_, ?_⟩
    · split_ifs with hE0
      · rw [hE0] at hlead
        show 0xA0 ≤ v / 64 % 64 + 128
        have : 0xE0 = v / 4096 % 16 + 224 := hlead
        omega
      · exact Nat.le_add_left _ _
    · split_ifs with hED
      · rw [hED] at hlead
        show v / 64 % 64 + 128 ≤ 0x9F
        have : 0xED = v / 4096 % 16 + 224 := hlead
        omega
      · show v / 64 % 64 + 128 ≤ 0xBF
        omega
  · have hlead := toNat_ofNat_byte (show v / 262144 % 8 + 240 < 256 by omega)
    refine .four (by rw [hlead]; omega) ?_ (htail _) (htail v)
    rw [utf8Continuation_cons, toNat_ofNat_byte (by omega)]
    refine ⟨?_, ?_⟩
    · split_ifs with hF0
      · rw [hF0] at hlead
        show 0x90 ≤ v / 4096 % 64 + 128
        have : 0xF0 = v / 262144 % 8 + 240 := hlead
        omega
      · exact Nat.le_add_left _ _
    · split_ifs with hF4
      · rw [hF4] at hlead
        show v / 4096 % 64 + 128 ≤ 0x8F
        have : 0xF4 = v / 262144 % 8 + 240 := hlead
        omega
      · show v / 4096 % 64 + 128 ≤ 0xBF
        omega

section

variable {bytes : List UInt8} (h : CharBytes bytes)
include h

lemma CharBytes.utf8CharLen_append
    (rest : List UInt8) : utf8CharLen (bytes ++ rest) = some bytes.length := by
  cases h with
  | one ha => exact utf8CharLen_one ha
  | two ha hb =>
    rw [cons_append, utf8CharLen_two ha]
    exact if_pos hb
  | three ha hb hc =>
    rw [cons_append, utf8CharLen_three ha]
    exact if_pos ⟨hb, hc⟩
  | four ha hb hc hd =>
    rw [cons_append, utf8CharLen_four ha]
    exact if_pos ⟨hb, hc, hd⟩

lemma CharBytes.utf8CharLen_take (hn : n < bytes.length) : utf8CharLen (bytes.take n) = none := by
  cases h with
  | one ha =>
    obtain rfl : n = 0 := Nat.lt_one_iff.mp hn
    rfl
  | two ha hb =>
    rcases n with _ | _ | n
    · rfl
    · exact utf8CharLen_two ha
    · exact absurd hn (by simp)
  | three ha hb hc =>
    rcases n with _ | _ | _ | n
    · rfl
    · rw [take_succ_cons, utf8CharLen_three ha]
      exact if_neg fun h => Bool.noConfusion h.1
    · rw [take_succ_cons, utf8CharLen_three ha]
      exact if_neg fun h => Bool.noConfusion h.2
    · exact absurd hn (by simp)
  | four ha hb hc hd =>
    rcases n with _ | _ | _ | _ | n
    · rfl
    · rw [take_succ_cons, utf8CharLen_four ha]
      exact if_neg fun h => Bool.noConfusion h.1
    · rw [take_succ_cons, utf8CharLen_four ha]
      exact if_neg fun h => Bool.noConfusion h.2.1
    · rw [take_succ_cons, utf8CharLen_four ha]
      exact if_neg fun h => Bool.noConfusion h.2.2
    · exact absurd hn (by simp)

lemma CharBytes.length_pos : 0 < bytes.length := by
  cases h <;> exact Nat.succ_pos _

end

/-- The characters of a text that fit whole into the first `capacity` bytes. -/
def fitting (capacity : ℕ) : List Char → List Char
  | [] => []
  | c :: text =>
    if (String.utf8EncodeChar c).length ≤ capacity then
      c :: fitting (capacity - (String.utf8EncodeChar c).length) text
    else []

variable (capacity : ℕ)

lemma fitting_isPrefix (text : List Char) : fitting capacity text <+: text := by
  induction text generalizing capacity with
  | nil => exact nil_prefix
  | cons c text ih =>
    unfold fitting
    split_ifs
    · exact cons_prefix_cons.mpr ⟨rfl, ih _⟩
    · exact nil_prefix

lemma length_utf8Encode_fitting (text : List Char) :
    (utf8Encode (fitting capacity text)).length ≤ capacity := by
  induction text generalizing capacity with
  | nil => exact Nat.zero_le _
  | cons c text ih =>
    unfold fitting
    split_ifs with hfits
    · rw [utf8Encode_cons, length_append]
      have := ih (capacity - (String.utf8EncodeChar c).length)
      omega
    · exact Nat.zero_le _

lemma isPrefix_fitting {capacity : ℕ} (hpre : other <+: text)
    (hfits : (utf8Encode other).length ≤ capacity) : other <+: fitting capacity text := by
  induction text generalizing capacity other with
  | nil => exact hpre
  | cons c text ih =>
    cases other with
    | nil => exact nil_prefix
    | cons c' other =>
      obtain ⟨rfl, hrest⟩ := cons_prefix_cons.mp hpre
      rw [utf8Encode_cons, length_append] at hfits
      rw [fitting, if_pos (by omega)]
      exact cons_prefix_cons.mpr ⟨rfl, ih hrest (by omega)⟩

lemma length_utf8Encode_le (h : other <+: text) :
    (utf8Encode other).length ≤ (utf8Encode text).length := by
  obtain ⟨rest, rfl⟩ := h
  rw [utf8Encode_append, length_append]
  exact Nat.le_add_right _ _

lemma length_le_length_utf8Encode (text : List Char) : text.length ≤ (utf8Encode text).length := by
  induction text with
  | nil => exact Nat.le_refl _
  | cons c text ih =>
    have hpos := (charBytes_utf8EncodeChar c).length_pos
    rw [utf8Encode_cons, length_append, length_cons]
    omega

lemma utf8ValidPrefix_take (text : List Char)
    (hfuel : ((utf8Encode text).take capacity).length ≤ fuel) :
    utf8ValidPrefix fuel ((utf8Encode text).take capacity) =
      ((utf8Encode (fitting capacity text)).length, (fitting capacity text).length) := by
  induction text generalizing capacity fuel with
  | nil => cases fuel <;> simp [utf8ValidPrefix, utf8CharLen, fitting]
  | cons c text ih =>
    have hbytes := charBytes_utf8EncodeChar c
    have hpos := hbytes.length_pos
    rw [utf8Encode_cons, take_append] at hfuel ⊢
    by_cases hfits : (String.utf8EncodeChar c).length ≤ capacity
    · rw [take_of_length_le hfits] at hfuel ⊢
      rw [length_append] at hfuel
      obtain ⟨fuel, rfl⟩ : ∃ n, fuel = n + 1 := ⟨fuel - 1, by omega⟩
      rw [utf8ValidPrefix, hbytes.utf8CharLen_append]
      dsimp only
      rw [drop_left, ih _ (by omega), fitting, if_pos hfits, utf8Encode_cons,
        length_append, length_cons]
    · have hcut : capacity < (String.utf8EncodeChar c).length := Nat.lt_of_not_le hfits
      have hnone : (utf8Encode text).take (capacity - (String.utf8EncodeChar c).length) = [] := by
        rw [Nat.sub_eq_zero_of_le hcut.le, take_zero]
      rw [hnone, append_nil, fitting, if_neg hfits]
      cases fuel with
      | zero => rfl
      | succ fuel =>
        rw [utf8ValidPrefix, hbytes.utf8CharLen_take hcut]
        rfl

/-- The program declares `path: utf8[capacity]`, with its length headers. -/
structure DeclaresText (p : Program) (path : Path) (capacity : ℕ) : Prop where
  text : p.globalPathTypes.lookup path = some (.utf8Fixed capacity)
  header : ∀ suffix ∈ lengthSuffixes,
    p.globalPathTypes.lookup (path ++ [suffix]) = some (.scalar .i32)

/-- The length header counts the text, and the payload holds its bytes as far as the
capacity goes. -/
structure HoldsText (p : Program) (path : Path) (capacity : ℕ) (text : List Char)
    (reg : Registry) : Prop where
  payload : ∀ (index : ℕ) (byte : UInt8), index < capacity →
    (utf8Encode text)[index]? = some byte →
      p.readGlobalCollectionScalar path [] index reg = .ok (.u8 byte.toBitVec)
  length : p.readGlobalScalar (path ++ ["length"]) reg =
    .ok (.i32 (.ofNat 32 (utf8Encode text).length))

structure StoresText (p : Program) (path : Path) (capacity : ℕ) (text : List Char)
    (reg : Registry) : Prop extends HoldsText p path capacity text reg where
  byte_length : p.readGlobalScalar (path ++ ["byte_length"]) reg =
    .ok (.i32 (.ofNat 32 (utf8Encode text).length))
  char_length : p.readGlobalScalar (path ++ ["char_length"]) reg =
    .ok (.i32 (.ofNat 32 text.length))

/-- The storage activation provides for a text: bytes and headers of its own. -/
structure BacksText (path : Path) (capacity : ℕ) (reg : Registry) : Prop where
  header : ∀ suffix ∈ lengthSuffixes, reg.Backed .i32 (scalarAddress (path ++ [suffix]) .i32)
  payload : ∀ index < capacity, reg.Backed .u8 (laneAddress path [] index .u8)

section Storage

variable {p : Program} {path : Path} {capacity : ℕ} {text : List Char} {reg : Registry}

namespace DeclaresText

variable (hdeclares : DeclaresText p path capacity)
include hdeclares

lemma fixedTextCapacity : p.globalFixedTextCapacity path = some capacity := by
  simp [ProgramMetadata.globalFixedTextCapacity, hdeclares.text, TypeKey.fixedText]

lemma isUtf8Fixed_eq : isUtf8Fixed p path = true := by
  simp [isUtf8Fixed, hdeclares.text]

lemma laneTypeOf_eq : p.laneTypeOf path [] = some (.u8, capacity) := by
  obtain ⟨hnes, info, hinfo, hele, hlen⟩ :=
    p.wellFormed.text_collection _ (mem_of_lookup hdeclares.text) capacity rfl
  rw [Option.mem_def] at hinfo
  have htype : p.globalCollectionValueType path [] = .ok (.scalar .u8, capacity) := by
    simp [globalCollectionValueType, hnes, hinfo, hele, TypeKey.laneTypeAndLen,
      TypeKey.fixedArrayLane, hlen]
  simp [laneTypeOf, htype, laneScalarType, hdeclares.fixedTextCapacity]

lemma backsText (hinst : p.Installed reg) (hlane : .lane path [] ∈ p.slots) :
    BacksText path capacity reg where
  header := fun suffix hsuf => hinst.scalar (scalarTypeOf_i32 (hdeclares.header suffix hsuf))
  payload := fun _ hindex => hinst.lane hlane hdeclares.laneTypeOf_eq hindex

end DeclaresText

lemma hashGlobalPath_ne (hact : p.Activates)
    (h : p.globalPathTypes.lookup path = some (.scalar .i32))
    (h' : p.globalPathTypes.lookup path' = some (.scalar .i32)) (hne : path ≠ path') :
    hashGlobalPath path ≠ hashGlobalPath path' := by
  intro hhash
  have hcla := hact.claims_nodup
  rw [boundLanes, storageLanes, filterMap_append, map_append] at hcla
  have hsca := (nodup_append.mp hcla).1
  rw [filterMap_filterMap, map_filterMap] at hsca
  have hclaim : ∀ {path : Path}, p.globalPathTypes.lookup path = some (.scalar .i32) →
      ((p.scalarStorageLane (path, .scalar .i32)).bind Except.toOption).map
        (fun lane => (lane.kind, lane.key)) =
          some (JitStorageKind.i32, (hashGlobalPath path, (0 : UInt32))) := by
    intro path hi32
    have hcoll : p.collectionInfos.lookup path = none := by
      cases hinfo : p.collectionInfos.lookup path with
      | none => rfl
      | some info =>
        have hkind := p.wellFormed.collection_not_scalar _ (mem_of_lookup hinfo) _ hi32
        simp [TypeKey.fixedArrayLane, TypeKey.fixedText] at hkind
    simp [scalarStorageLane, hcoll, scalarType, Except.toOption, ScalarType.storageKind]
  have heq := eq_of_nodup_filterMap hsca (mem_of_lookup h) (mem_of_lookup h') (hclaim h)
    (hhash ▸ hclaim h')
  exact hne (congrArg Prod.fst heq)

/-- The writes of a shrink: zeros behind the kept bytes, then the three headers. -/
def shrinkWrites (path : Path) (capacity : ℕ) (text : List Char) : List (Address × ℕ) :=
  laneWrites path [] (utf8Encode (fitting capacity text)).length
      (List.replicate (((utf8Encode text).take capacity).length -
        (utf8Encode (fitting capacity text)).length) (.u8 0)) ++
    [(scalarAddress (path ++ ["length"]) .i32, (utf8Encode (fitting capacity text)).length),
      (scalarAddress (path ++ ["byte_length"]) .i32, (utf8Encode (fitting capacity text)).length),
      (scalarAddress (path ++ ["char_length"]) .i32, (fitting capacity text).length)]

variable {suffix : String} {n : ℕ}

section

variable (hn : n < 2 ^ 31)
  (hi32 : p.globalPathTypes.lookup (path ++ [suffix]) = some (.scalar .i32))
include hn hi32

lemma readI32Header_eq
    (hread : p.readGlobalScalar (path ++ [suffix]) reg = .ok (.i32 (.ofNat 32 n))) :
    readI32Header p path suffix reg = .ok (some (n : ℤ)) := by
  have hvalue : (BitVec.ofNat 32 n).toInt = n := by
    have hnat : (BitVec.ofNat 32 n).toNat = n := by
      rw [BitVec.toNat_ofNat, Nat.mod_eq_of_lt (by omega)]
    rw [BitVec.toInt_eq_toNat_of_lt (by omega), hnat]
  simp [readI32Header, hi32, hread, hvalue]

lemma writeI32Header_eq (r : Registry) :
    writeI32Header p path suffix n r =
      .ok () (cells.store r (scalarAddress (path ++ [suffix]) .i32) n) := by
  have hbits : (JitScalarValue.i32 (.ofInt 32 (n : ℤ))).toBits = n := by
    show (BitVec.ofInt 32 (n : ℤ)).toNat = n
    rw [BitVec.ofInt_natCast, BitVec.toNat_ofNat, Nat.mod_eq_of_lt (by omega)]
  have hwrite := writeGlobalScalar_eq_ok (v := .i32 (.ofInt 32 (n : ℤ)))
    (scalarTypeOf_i32 hi32) r
  rw [hbits] at hwrite
  exact (congrFun (if_pos hi32) r).trans hwrite

end

lemma readI32Header_isOk
    (hi32 : p.globalPathTypes.lookup (path ++ [suffix]) = some (.scalar .i32)) (r : Registry) :
    ∃ value, readI32Header p path suffix r = .ok (some value) := by
  have hread : p.readGlobalScalar (path ++ [suffix]) r =
      .ok (.i32 (.ofNat 32 (r.load (scalarAddress (path ++ [suffix]) .i32)))) :=
    readGlobalScalar_eq_ok_iff.mpr ⟨.i32, scalarTypeOf_i32 hi32, rfl⟩
  exact ⟨_, by simp [readI32Header, hi32, hread]; rfl⟩

lemma readTextBytes_eq (hsto : HoldsText p path capacity text reg) :
    readTextBytes p path ((utf8Encode text).take capacity).length reg =
      .ok ((utf8Encode text).take capacity) := by
  apply mapM_eq_ok_iff.mpr
  rw [forall₂_iff_get]
  refine ⟨length_range, ?_⟩
  intro index hindex hindex'
  have hlt : index < capacity := by
    rw [length_take] at hindex'
    omega
  have hbyte : (utf8Encode text)[index]? =
      some (((utf8Encode text).take capacity).get ⟨index, hindex'⟩) := by
    rw [get_eq_getElem, getElem_take]
    exact List.getElem?_eq_getElem _
  have hread := hsto.payload index _ hlt hbyte
  simp only [get_eq_getElem, getElem_range]
  rw [hread]
  rfl

lemma normalizeUtf8_eq_ok (hdeclares : DeclaresText p path capacity)
    (hsto : HoldsText p path capacity text reg) (hsize : (utf8Encode text).length < 2 ^ 31) :
    normalizeUtf8 p path capacity reg =
      .ok () (cells.writeAll reg (shrinkWrites path capacity text)) := by
  have hlen := readI32Header_eq hsize (hdeclares.header "length" (by decide)) hsto.length
  -- the byte count is read as well, whatever it is
  obtain ⟨other, hother⟩ := readI32Header_isOk (hdeclares.header "byte_length" (by decide)) reg
  have hclamp : (clampLength capacity ((utf8Encode text).length : ℤ)).toNat =
      ((utf8Encode text).take capacity).length := by
    rw [length_take, clampLength]
    omega
  have hbytes : normalizeUtf8.ofExcept (readTextBytes p path (clampLength capacity
      (((some ((utf8Encode text).length : ℤ)).or (some other)).getD 0)).toNat reg) reg =
        .ok ((utf8Encode text).take capacity) reg := by
    rw [Option.some_or, Option.getD_some, hclamp, readTextBytes_eq hsto]
    rfl
  have hvalid := utf8ValidPrefix_take capacity text (Nat.le_refl _)
  have hkept := length_utf8Encode_le (fitting_isPrefix capacity text)
  have hchars := (fitting_isPrefix capacity text).length_le
  have hwhole := length_le_length_utf8Encode text
  -- read the headers and the bytes, then write zeros and headers
  refine bind_run rfl ?_
  refine (bind_of_ok (a := some ((utf8Encode text).length : ℤ)) (by rw [hlen]; rfl)).trans ?_
  refine (bind_of_ok (a := some other) (by rw [hother]; rfl)).trans ?_
  refine bind_run hbytes ?_
  rw [hvalid]
  refine bind_run (writeLane_eq_ok ?_ reg) ?_
  · intro v index hmem
    obtain ⟨hstart, hend, hv⟩ := mem_zipIdx hmem
    rw [length_replicate, length_take] at hend
    have hzero : v = .u8 0 := by
      rw [hv]
      exact getElem_replicate _
    rw [hzero]
    exact ⟨capacity, hdeclares.laneTypeOf_eq, by omega⟩
  refine (bind_of_ok (writeI32Header_eq (by omega)
    (hdeclares.header "length" (by decide)) _)).trans ?_
  refine (bind_of_ok (writeI32Header_eq (by omega)
    (hdeclares.header "byte_length" (by decide)) _)).trans ?_
  refine (writeI32Header_eq (by omega) (hdeclares.header "char_length" (by decide)) _).trans ?_
  rw [shrinkWrites, CellMemory.writeAll_append]
  rfl

lemma mem_zeroWrites {start count : ℕ} :
    w ∈ laneWrites path [] start (replicate count (.u8 0)) ↔
      ∃ index, start ≤ index ∧ index < start + count ∧ w = (laneAddress path [] index .u8, 0) := by
  rw [laneWrites, mem_map]
  constructor
  · rintro ⟨⟨v, index⟩, hmem, rfl⟩
    obtain ⟨hstart, hend, hv⟩ := mem_zipIdx hmem
    rw [length_replicate] at hend
    rw [getElem_replicate] at hv
    exact ⟨index, hstart, hend, by rw [hv]; rfl⟩
  · rintro ⟨index, hstart, hend, rfl⟩
    refine ⟨(.u8 0, index), ?_, rfl⟩
    rw [mk_mem_zipIdx_iff_le_and_getElem?_sub]
    refine ⟨hstart, ?_⟩
    rw [List.getElem?_replicate, if_pos (by omega)]

lemma header_address_ne (hact : p.Activates) (hdeclares : DeclaresText p path capacity)
    (hsuf : suffix ∈ lengthSuffixes) (hsuf' : suffix' ∈ lengthSuffixes) (hne : suffix ≠ suffix') :
    scalarAddress (path ++ [suffix]) .i32 ≠ scalarAddress (path ++ [suffix']) .i32 := by
  intro heq
  refine hashGlobalPath_ne hact (hdeclares.header suffix hsuf)
    (hdeclares.header suffix' hsuf') ?_ (Address.scalar.inj heq).2
  intro hpath
  exact hne (singleton_inj.mp (append_cancel_left hpath))

variable (hdeclares : DeclaresText p path capacity) (hbac : BacksText path capacity reg)
include hdeclares hbac

lemma read_shrunk_header (hsuf : suffix ∈ lengthSuffixes) (hn : n < 2 ^ 32)
    (hmem : (scalarAddress (path ++ [suffix]) .i32, n) ∈ shrinkWrites path capacity text)
    (hagree : ∀ w ∈ shrinkWrites path capacity text,
      w.1 = scalarAddress (path ++ [suffix]) .i32 → w.2 = n) :
    p.readGlobalScalar (path ++ [suffix])
      (cells.writeAll reg (shrinkWrites path capacity text)) = .ok (.i32 (.ofNat 32 n)) := by
  have hload : (cells.writeAll reg (shrinkWrites path capacity text)).load
      (scalarAddress (path ++ [suffix]) .i32) = n :=
    CellMemory.load_writeAll_of_mem (m := cells)
      ⟨.i32, hbac.header suffix hsuf, hn⟩ hmem hagree
  refine readGlobalScalar_eq_ok_iff.mpr
    ⟨.i32, scalarTypeOf_i32 (hdeclares.header suffix hsuf), ?_⟩
  rw [hload]
  rfl

lemma read_shrunk_payload (hindex : index < capacity) :
    p.readGlobalCollectionScalar path [] index
        (cells.writeAll reg (shrinkWrites path capacity text)) =
      if (utf8Encode (fitting capacity text)).length ≤ index ∧ index < (utf8Encode text).length
      then .ok (.u8 0) else p.readGlobalCollectionScalar path [] index reg := by
  have hread : ∀ r : Registry, p.readGlobalCollectionScalar path [] index r =
      .ok (.u8 (.ofNat 8 (r.load (laneAddress path [] index .u8)))) := fun r =>
    readGlobalCollectionScalar_eq_ok_iff.mpr ⟨.u8, capacity, hdeclares.laneTypeOf_eq, hindex, rfl⟩
  rw [hread, hread]
  have hwrite : ∀ w ∈ shrinkWrites path capacity text, w.1 = laneAddress path [] index .u8 →
      ((utf8Encode (fitting capacity text)).length ≤ index ∧
        index < (utf8Encode text).length) ∧ w.2 = 0 := by
    intro w hw heq
    rcases mem_append.mp hw with hzero | hhead
    · obtain ⟨index', hstart, hend, rfl⟩ := mem_zeroWrites.mp hzero
      obtain rfl : index' = index := (Address.element.inj heq).2.2
      rw [length_take] at hend
      exact ⟨⟨hstart, by omega⟩, rfl⟩
    · simp only [mem_cons, not_mem_nil, or_false] at hhead
      rcases hhead with rfl | rfl | rfl <;> cases heq
  split_ifs with hcut
  · have hmem : (laneAddress path [] index .u8, 0) ∈ shrinkWrites path capacity text := by
      refine mem_append_left _ (mem_zeroWrites.mpr ⟨index, hcut.1, ?_, rfl⟩)
      rw [length_take]
      omega
    have hload : (cells.writeAll reg (shrinkWrites path capacity text)).load
        (laneAddress path [] index .u8) = 0 :=
      CellMemory.load_writeAll_of_mem (m := cells) ⟨.u8, hbac.payload index hindex, by decide⟩ hmem
        fun w hw heq => (hwrite w hw heq).2
    rw [hload]
    rfl
  · have hload : (cells.writeAll reg (shrinkWrites path capacity text)).load
        (laneAddress path [] index .u8) = reg.load (laneAddress path [] index .u8) :=
      CellMemory.load_writeAll_of_forall_ne (m := cells) (v := 0)
        ⟨.u8, hbac.payload index hindex, by decide⟩ fun w hw heq => hcut (hwrite w hw heq).1
    rw [hload]

end Storage

/-- `kept` is the longest prefix of the text that fits the capacity. -/
structure LongestFitting (capacity : ℕ) (text kept : List Char) : Prop where
  isPrefix : kept <+: text
  fits : (utf8Encode kept).length ≤ capacity
  longest : ∀ other, other <+: text → (utf8Encode other).length ≤ capacity → other <+: kept

lemma longestFitting_fitting (capacity : ℕ) (text : List Char) :
    LongestFitting capacity text (fitting capacity text) :=
  ⟨fitting_isPrefix capacity text, length_utf8Encode_fitting capacity text,
    fun _ hpre hfits => isPrefix_fitting hpre hfits⟩

section Shrink

variable {p : Program} {path : Path} {capacity : ℕ} {text : List Char} {reg : Registry}

lemma storesText_shrunk (hact : p.Activates) (hdeclares : DeclaresText p path capacity)
    (hbac : BacksText path capacity reg) (hsize : (utf8Encode text).length < 2 ^ 31)
    (hsto : HoldsText p path capacity text reg) :
    StoresText p path capacity (fitting capacity text)
      (cells.writeAll reg (shrinkWrites path capacity text)) := by
  have hkept := length_utf8Encode_le (fitting_isPrefix capacity text)
  have hchars := (fitting_isPrefix capacity text).length_le
  have hwhole := length_le_length_utf8Encode text
  have hzero : ∀ {w : Address × ℕ} {header : Path},
      w ∈ laneWrites path [] (utf8Encode (fitting capacity text)).length
        (replicate (((utf8Encode text).take capacity).length -
          (utf8Encode (fitting capacity text)).length) (.u8 0)) →
      w.1 ≠ scalarAddress header .i32 := by
    intro w header hw heq
    obtain ⟨_, _, _, rfl⟩ := mem_zeroWrites.mp hw
    cases heq
  have hchar : ∀ {suffix : String}, suffix ∈ ["length", "byte_length"] →
      scalarAddress (path ++ [suffix]) .i32 ≠ scalarAddress (path ++ ["char_length"]) .i32 := by
    intro suffix hsuf
    simp only [mem_cons, not_mem_nil, or_false] at hsuf
    rcases hsuf with rfl | rfl
    all_goals exact header_address_ne hact hdeclares (by decide) (by decide) (by decide)
  have hbytes : ∀ {suffix : String}, suffix ∈ ["length", "byte_length"] →
      ∀ w ∈ shrinkWrites path capacity text, w.1 = scalarAddress (path ++ [suffix]) .i32 →
        w.2 = (utf8Encode (fitting capacity text)).length := by
    intro suffix hsuf w hw heq
    rcases mem_append.mp hw with hw | hw
    · exact absurd heq (hzero hw)
    · simp only [mem_cons, not_mem_nil, or_false] at hw
      rcases hw with rfl | rfl | rfl
      · rfl
      · rfl
      · exact absurd heq.symm (hchar hsuf)
  refine ⟨⟨?_, ?_⟩, ?_, ?_⟩
  · intro index byte hindex hbyte
    have hlt := (List.getElem?_eq_some_iff.mp hbyte).1
    rw [read_shrunk_payload hdeclares hbac hindex, if_neg (by omega)]
    apply hsto.payload index byte hindex
    obtain ⟨rest, hrest⟩ := fitting_isPrefix capacity text
    rw [← hrest, utf8Encode_append, List.getElem?_append_left hlt]
    exact hbyte
  · exact read_shrunk_header hdeclares hbac (by decide) (by omega)
      (mem_append_right _ (by simp)) (hbytes (by decide))
  · exact read_shrunk_header hdeclares hbac (by decide) (by omega)
      (mem_append_right _ (by simp)) (hbytes (by decide))
  · refine read_shrunk_header hdeclares hbac (by decide) (by omega)
      (mem_append_right _ (by simp)) ?_
    intro w hw heq
    rcases mem_append.mp hw with hw | hw
    · exact absurd heq (hzero hw)
    · simp only [mem_cons, not_mem_nil, or_false] at hw
      rcases hw with rfl | rfl | rfl
      · exact absurd heq (hchar (by decide))
      · exact absurd heq (hchar (by decide))
      · rfl

/-- Giving a text a capacity: of the text the length and the copied payload describe,
whatever the other counts say, the longest prefix of whole characters that fits stays, with
its byte and character counts, and a text that is cut has only zeros behind it. -/
theorem shrunk_text_keeps_longest_prefix (hactivates : p.Activates)
    (hdeclares : DeclaresText p path capacity) (hbacked : BacksText path capacity reg)
    (hsize : (utf8Encode text).length < 2 ^ 31)
    (hstored : HoldsText p path capacity text reg) :
    ∃ kept final, normalizeCollectionLengths p path capacity reg = .ok () final ∧
      LongestFitting capacity text kept ∧ StoresText p path capacity kept final ∧
      (capacity < (utf8Encode text).length → ∀ index : ℕ, index < capacity →
        (utf8Encode kept).length ≤ index →
          p.readGlobalCollectionScalar path [] index final = .ok (.u8 0)) ∧
      ((utf8Encode text).length ≤ capacity → kept = text ∧ ∀ index : ℕ, index < capacity →
        p.readGlobalCollectionScalar path [] index final =
          p.readGlobalCollectionScalar path [] index reg) := by
  refine ⟨fitting capacity text, Registry.cells.writeAll reg (shrinkWrites path capacity text),
    ?_, longestFitting_fitting capacity text,
    storesText_shrunk hactivates hdeclares hbacked hsize hstored, ?_, ?_⟩
  · rw [normalizeCollectionLengths, if_pos hdeclares.isUtf8Fixed_eq]
    exact normalizeUtf8_eq_ok hdeclares hstored hsize
  · intro hcut index hindex hbehind
    rw [read_shrunk_payload hdeclares hbacked hindex, if_pos ⟨hbehind, by omega⟩]
  · intro hfits
    have hall : fitting capacity text = text := by
      have hlonger := isPrefix_fitting (List.prefix_refl text) hfits
      exact (fitting_isPrefix capacity text).eq_of_length_le hlonger.length_le
    refine ⟨hall, fun index hindex => ?_⟩
    rw [read_shrunk_payload hdeclares hbacked hindex, hall, if_neg (by omega)]

end Shrink

def textMetadata (capacity : ℕ) : ProgramMetadata where
  globalPathTypes :=
    [(["t"], .utf8Fixed capacity), (["t", "byte_length"], .scalar .i32),
      (["t", "char_length"], .scalar .i32), (["t", "length"], .scalar .i32),
      (["t", "max_length"], .scalar .i32)]
  collectionInfos := [(["t"], ⟨capacity, some (.scalar .u8), [], "u8", true⟩)]
  typedCollectionDescriptors := []
  structNames := []
  initialization := ⟨[], []⟩
  stringLiterals := []

def fourBytes : Program where
  toProgramMetadata := textMetadata 4
  wellFormed := by constructor <;> decide +kernel

/-- What a copy leaves of `aé€`, a text whose byte count was never written: six bytes, of
which the last two did not fit. -/
def copiedText : Registry :=
  Registry.cells.writeAll (finalRegistry (fourBytes.activateStagedRuntime .empty))
    [(scalarAddress ["t", "length"] .i32, 6), (scalarAddress ["t", "char_length"] .i32, 3),
      (laneAddress ["t"] [] 0 .u8, 0x61),
      (laneAddress ["t"] [] 1 .u8, 0xC3), (laneAddress ["t"] [] 2 .u8, 0xA9),
      (laneAddress ["t"] [] 3 .u8, 0xE2)]

/-- The third character is cut after its first byte, which is cleared. -/
theorem three_characters_shrink_to_two : ∃ kept final,
    normalizeCollectionLengths fourBytes ["t"] 4 copiedText = .ok () final ∧
      LongestFitting 4 ['a', 'é', '€'] kept ∧ StoresText fourBytes ["t"] 4 kept final ∧
      fourBytes.readGlobalCollectionScalar ["t"] [] 3 final = .ok (.u8 0) := by
  have hactivates : fourBytes.Activates := ⟨.empty, by decide +kernel⟩
  have hdeclares : DeclaresText fourBytes ["t"] 4 := ⟨by decide +kernel, by decide +kernel⟩
  obtain ⟨activated, hrun, hinstalled⟩ := hactivates.installed (by decide +kernel) .empty
  have hbacked : BacksText ["t"] 4 copiedText := by
    have hactivated := hdeclares.backsText hinstalled (by decide +kernel)
    rw [copiedText, hrun]
    exact ⟨fun suffix hsuffix => (hactivated.header suffix hsuffix).writeAll _,
      fun index hindex => (hactivated.payload index hindex).writeAll _⟩
  have hstored : HoldsText fourBytes ["t"] 4 ['a', 'é', '€'] copiedText := by
    refine ⟨?_, by decide +kernel⟩
    intro index byte hindex hbyte
    have hall : ∀ index < 4, (utf8Encode ['a', 'é', '€'])[index]?.all fun byte =>
        fourBytes.readGlobalCollectionScalar ["t"] [] (index : ℕ) copiedText =
          .ok (.u8 byte.toBitVec) := by decide +kernel
    have hread := hall index hindex
    rw [hbyte] at hread
    exact of_decide_eq_true hread
  obtain ⟨kept, final, hrun, hlongest, hkept, hzero, -⟩ :=
    shrunk_text_keeps_longest_prefix hactivates hdeclares hbacked (by decide +kernel) hstored
  have hthree : (utf8Encode kept).length ≤ 3 := by
    have hprefixes : ∀ n ≤ 3, (utf8Encode (['a', 'é', '€'].take n)).length ≤ 4 →
        (utf8Encode (['a', 'é', '€'].take n)).length ≤ 3 := by decide +kernel
    have htake := List.prefix_iff_eq_take.mp hlongest.isPrefix
    have hfits := hlongest.fits
    rw [htake] at hfits ⊢
    exact hprefixes _ hlongest.isPrefix.length_le hfits
  exact ⟨kept, final, hrun, hlongest, hkept, hzero (by decide +kernel) 3 (by decide) hthree⟩

end Stasis.Migration
