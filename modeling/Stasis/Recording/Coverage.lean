import Stasis.Migration.Rollback
import Stasis.Recording.State

namespace Stasis.Recording

open Stasis.Runtime.Registry
open Stasis.Runtime.JitScalarValue
open CellMemory
open StateCell
open List
open Stasis.Runtime Stasis.Runtime.Program

variable {value value' : JitScalarValue}

lemma hexDigitValue_hexDigit (h : n < 16) : hexDigitValue (hexDigit n) = some n := by
  revert n
  decide

lemma parseHexDigits_append (total : ℕ) (xs ys : List Char) :
    parseHexDigits total (xs ++ ys) =
      (parseHexDigits total xs).bind fun n => parseHexDigits n ys := by
  induction xs generalizing total with
  | nil => rfl
  | cons c xs ih =>
    rw [cons_append, parseHexDigits, parseHexDigits]
    cases hexDigitValue c with
    | none => rfl
    | some digit =>
      dsimp only
      split_ifs
      · rfl
      · exact ih _

lemma parseHexDigits_hexDigits (hn : n < 16 ^ width) (h64 : n < 2 ^ 64) :
    parseHexDigits 0 (hexDigits width n) = .ok n := by
  induction width generalizing n with
  | zero =>
    obtain rfl : n = 0 := by simpa using hn
    rfl
  | succ width ih =>
    have hdiv : n / 16 < 16 ^ width := Nat.div_lt_of_lt_mul (by rwa [← Nat.pow_succ'])
    have hdigit : n % 16 < 16 := Nat.mod_lt _ (by decide)
    rw [hexDigits, parseHexDigits_append, ih hdiv (by omega)]
    have hjoin : n / 16 * 16 + n % 16 = n := by omega
    simp only [Except.bind, parseHexDigits, hexDigitValue_hexDigit hdigit, hjoin]
    rw [if_neg (by omega)]

lemma length_hexDigits (width n : ℕ) : (hexDigits width n).length = width := by
  induction width generalizing n with
  | zero => rfl
  | succ width ih => rw [hexDigits, length_append, ih]; rfl

lemma hexDigit_ne_plus (h : n < 16) : hexDigit n ≠ '+' := by
  revert n
  decide

lemma mem_hexDigits (h : c ∈ hexDigits width n) : ∃ digit < 16, c = hexDigit digit := by
  induction width generalizing n with
  | zero => cases h
  | succ width ih =>
    rcases mem_append.mp h with h | h
    · exact ih h
    · exact ⟨n % 16, Nat.mod_lt _ (by decide), mem_singleton.mp h⟩

lemma fromStrRadix16_hexDigits (hwidth : 0 < width) (hn : n < 16 ^ width) (h64 : n < 2 ^ 64) :
    fromStrRadix16 (String.ofList (hexDigits width n)) = .ok n := by
  have hparse := parseHexDigits_hexDigits hn h64
  have hlen := length_hexDigits width n
  have hplus : '+' ∉ hexDigits width n := by
    intro hmem
    obtain ⟨digit, hdigit, heq⟩ := mem_hexDigits hmem
    exact hexDigit_ne_plus hdigit heq.symm
  unfold fromStrRadix16
  rw [String.toList_ofList]
  cases hdig : hexDigits width n with
  | nil => simp [hdig] at hlen; omega
  | cons c rest =>
    rw [hdig] at hparse hplus
    have hc : c ≠ '+' := fun heq => hplus (heq ▸ (.head _))
    split
    · next heq => cases heq
    · next heq => exact absurd (cons.inj heq).1 hc
    · exact hparse

lemma toBits_lt_hexWidth (value : JitScalarValue) :
    value.toBits < (if value.type = .bool then 2 else 16 ^ hexWidth value.type) := by
  cases value with
  | bool b => cases b <;> decide
  | _ v => exact v.isLt

lemma decodeScalar_encodeScalar (h : value.type = target.type) :
    decodeScalar (encodeScalar value) target = .ok value := by
  have hbits := toBits_lt_hexWidth value
  have hrange : value.toBits < 16 ^ hexWidth value.type ∧ value.toBits < 2 ^ 64 := by
    cases hvalue : value.type <;> simp [hvalue, hexWidth] at hbits ⊢ <;> omega
  have hwidth : 0 < hexWidth value.type := by cases value.type <;> decide
  have hparse := fromStrRadix16_hexDigits hwidth hrange.1 hrange.2
  unfold decodeScalar
  simp only [encodeScalar, h, ne_eq, not_true_eq_false, if_false]
  rw [h] at hparse hbits
  simp only [hparse]
  rw [if_neg (Nat.not_le.mpr hbits), ← h, ofBits_toBits]

lemma length_leBytes (width n : ℕ) : (leBytes width n).length = width := by
  induction width generalizing n with
  | zero => rfl
  | succ width ih => rw [leBytes, length_cons, ih]

lemma leBytes_injective (hn : n < 256 ^ width) (hn' : n' < 256 ^ width)
    (h : leBytes width n = leBytes width n') : n = n' := by
  induction width generalizing n n' with
  | zero =>
    rw [Nat.pow_zero] at hn hn'
    omega
  | succ width ih =>
    rw [leBytes, leBytes] at h
    obtain ⟨hbyte, hrest⟩ := cons.inj h
    have hdiv := ih (Nat.div_lt_of_lt_mul (by rwa [← Nat.pow_succ']))
      (Nat.div_lt_of_lt_mul (by rwa [← Nat.pow_succ'])) hrest
    have hmod : n % 256 = n' % 256 := by
      have hnat := congrArg UInt8.toNat hbyte
      simpa using hnat
    omega

lemma toBits_lt_byteWidth (value : JitScalarValue) : value.toBits < 256 ^ value.type.byteWidth := by
  cases value with
  | bool b => cases b <;> decide
  | _ v => exact v.isLt

lemma length_hashValue (h : value.type = value'.type) (path : String) :
    (hashValue path value).length = (hashValue path value').length := by
  simp [hashValue, length_leBytes, h]

lemma hashValue_injective {path : String} (htype : value.type = value'.type)
    (h : hashValue path value = hashValue path value') :
    value = value' := by
  obtain ⟨-, hbits⟩ := cons.inj (append_cancel_left h)
  have hlt := toBits_lt_byteWidth value
  have hlt' := toBits_lt_byteWidth value'
  rw [htype] at hbits hlt
  rw [← ofBits_toBits value, ← ofBits_toBits value', htype, leBytes_injective hlt hlt' hbits]

lemma forall_eq_of_flatMap_eq {α β : Type} {xs : List α} {f g : α → List β}
    (hlen : ∀ x ∈ xs, (f x).length = (g x).length) (h : xs.flatMap f = xs.flatMap g) :
    ∀ x ∈ xs, f x = g x := by
  induction xs with
  | nil => simp
  | cons x xs ih =>
    obtain ⟨hx, hrest⟩ := forall_mem_cons.mp hlen
    rw [flatMap_cons, flatMap_cons] at h
    obtain ⟨hhead, htail⟩ := append_inj h hx
    exact forall_mem_cons.mpr ⟨hhead, ih hrest htail⟩

def Plain (path : Path) : Prop := ∀ name ∈ path, name ≠ "" ∧ '.' ∉ name.toList

instance (path : Path) : Decidable (Plain path) :=
  inferInstanceAs (Decidable (∀ name ∈ path, name ≠ "" ∧ '.' ∉ name.toList))

lemma toList_showPath (path : Path) :
    (showPath path).toList = ['.'].intercalate (path.map String.toList) :=
  String.toList_intercalate

lemma splitOn_showPath {path : Path} (hplain : Plain path) (hne : path ≠ []) :
    (showPath path).toList.splitOn '.' = path.map String.toList := by
  rw [toList_showPath]
  apply splitOn_intercalate
  · intro part hpart
    obtain ⟨name, hname, rfl⟩ := mem_map.mp hpart
    exact (hplain name hname).2
  · simpa using hne

lemma showPath_ne_nil {path : Path} (hplain : Plain path) (hne : path ≠ []) :
    showPath path ≠ showPath [] := by
  intro heq
  have hsplit := splitOn_showPath hplain hne
  rw [heq] at hsplit
  obtain ⟨name, rest, rfl⟩ := exists_cons_of_ne_nil hne
  -- the empty text splits into one empty name
  have hname : [] = name.toList := (cons.inj hsplit).1
  exact (hplain name (.head _)).1 (String.toList_injective hname.symm)

lemma showPath_injective {path path' : Path} (hplain : Plain path) (hplain' : Plain path')
    (h : showPath path = showPath path') : path = path' := by
  by_cases hne : path = []
  · subst hne
    by_contra hne'
    exact showPath_ne_nil hplain' (Ne.symm hne') h.symm
  · by_cases hne' : path' = []
    · subst hne'
      exact absurd h (showPath_ne_nil hplain hne)
    · have hsplit := splitOn_showPath hplain hne
      rw [h, splitOn_showPath hplain' hne'] at hsplit
      exact (map_injective_iff.mpr (fun _ _ => String.toList_injective) hsplit).symm

namespace StateCell

variable {program : Program} {cell cell' : StateCell}

/-- Type and address of a value, where the accessors support it. -/
def storage (program : Program) : StateCell → Option (ScalarType × Address)
  | scalar path => (program.scalarTypeOf path).map fun t => (t, scalarAddress path t)
  | element path field index =>
    match program.laneTypeOf path field with
    | none => none
    | some (t, capacity) =>
      if index < capacity then some (t, laneAddress path field index t) else none

def slot : StateCell → StateSlot
  | scalar path => .scalar path
  | element path field _ => .lane path field

variable {t : ScalarType} {a : Address}

lemma storage_element {path field : Path}
    (h : (element path field index).storage program = some (t, a)) :
    ∃ capacity, program.laneTypeOf path field = some (t, capacity) ∧ index < capacity ∧
      a = laneAddress path field index t := by
  rw [storage] at h
  split at h
  · cases h
  rename_i t' capacity hlane
  split_ifs at h with hlt
  cases h
  exact ⟨capacity, hlane, hlt, rfl⟩

lemma storage_scalar {path : Path} (h : (scalar path).storage program = some (t, a)) :
    program.scalarTypeOf path = some t ∧ a = scalarAddress path t := by
  obtain ⟨t', ht, heq⟩ := Option.map_eq_some_iff.mp h
  cases heq
  exact ⟨ht, rfl⟩

lemma read_eq_ok (h : cell.storage program = some (t, a)) (reg : Registry) :
    cell.read program reg = .ok (.ofBits t (reg.load a)) := by
  cases cell with
  | scalar path =>
    obtain ⟨ht, rfl⟩ := storage_scalar h
    exact readGlobalScalar_eq_ok_iff.mpr ⟨t, ht, rfl⟩
  | element path field index =>
    obtain ⟨capacity, ht, hlt, rfl⟩ := storage_element h
    exact readGlobalCollectionScalar_eq_ok_iff.mpr ⟨t, capacity, ht, hlt, rfl⟩

lemma write_eq_ok (h : cell.storage program = some (value.type, a)) (reg : Registry) :
    cell.write program value reg = .ok () (reg.store a value.toBits) := by
  cases cell with
  | scalar path =>
    obtain ⟨ht, rfl⟩ := storage_scalar h
    exact writeGlobalScalar_eq_ok ht reg
  | element path field index =>
    obtain ⟨capacity, ht, hlt, rfl⟩ := storage_element h
    exact writeGlobalCollectionScalar_eq_ok ht hlt reg

lemma slotKey_of_storage (h : cell.storage program = some (t, a)) :
    program.slotKey cell.slot = some a.slotKey := by
  cases cell with
  | scalar path =>
    obtain ⟨ht, rfl⟩ := storage_scalar h
    simp [slot, slotKey, ht]
  | element path field index =>
    obtain ⟨capacity, ht, -, rfl⟩ := storage_element h
    simp [slot, slotKey, ht, laneAddress, Address.slotKey]

lemma eq_of_storage_eq (hdist : program.SlotsDistinct) (hcell : cell.slot ∈ program.slots)
    (hcell' : cell'.slot ∈ program.slots) (h : cell.storage program = some (t, a))
    (h' : cell'.storage program = some (t', a)) :
    cell = cell' := by
  have hkey := slotKey_of_storage h
  have hslot : cell.slot = cell'.slot := hdist _ hcell _ hcell' (by simp [hkey])
    (hkey.trans (slotKey_of_storage h').symm)
  cases cell with
  | scalar path =>
    cases cell' with
    | scalar path' =>
      cases hslot
      rfl
    | element path' field' index' => cases hslot
  | element path field index =>
    cases cell' with
    | scalar path' => cases hslot
    | element path' field' index' =>
      cases hslot
      obtain ⟨capacity, -, -, rfl⟩ := storage_element h
      obtain ⟨capacity', -, -, heq⟩ := storage_element h'
      obtain ⟨-, -, rfl⟩ := Address.element.inj heq
      rfl

lemma backed_of_installed (hinst : program.Installed reg) (hcell : cell.slot ∈ program.slots)
    (h : cell.storage program = some (t, a)) :
    reg.Backed t.storageKind a := by
  cases cell with
  | scalar path =>
    obtain ⟨ht, rfl⟩ := storage_scalar h
    exact hinst.scalar ht
  | element path field index =>
    obtain ⟨capacity, ht, hlt, rfl⟩ := storage_element h
    exact hinst.lane hcell ht hlt

end StateCell

lemma collection_eq_of_path_eq {p : Program} (hc : c ∈ p.stateLayout.collections)
    (hc' : c' ∈ p.stateLayout.collections) (hpath : c.path = c'.path) : c = c' := by
  have hinfo : ∀ {entry c}, p.collectionLayout entry = some c → c.path = entry.1 := by
    intro entry c hlay
    unfold collectionLayout at hlay
    split_ifs at hlay
    obtain rfl := Option.some.inj hlay
    exact (p.extents_textLane _).1
  -- a typed collection is no other collection as well
  have hapart : ∀ {entry typed}, entry ∈ p.collectionInfos →
      typed ∈ p.typedCollectionDescriptors → entry.1 ≠ typed.1 := by
    intro entry typed hentry htyped heq
    have hnone := (p.wellFormed.typed_apart _ htyped).2.1
    rw [← heq, lookup_of_mem p.wellFormed.collections_nodup hentry] at hnone
    cases hnone
  simp only [stateLayout, layoutCollections, mem_insertionSort, mem_append,
    mem_filterMap, mem_map] at hc hc'
  rcases hc with ⟨entry, hentry, hlay⟩ | ⟨typed, htyped, rfl⟩
  · rcases hc' with ⟨entry', hentry', hlay'⟩ | ⟨typed', htyped', rfl⟩
    · have hkey : entry.1 = entry'.1 := by rw [← hinfo hlay, hpath, hinfo hlay']
      obtain rfl := inj_on_of_nodup_map p.wellFormed.collections_nodup hentry hentry' hkey
      exact Option.some.inj (hlay.symm.trans hlay')
    · exact absurd ((hinfo hlay).symm.trans hpath) (hapart hentry htyped')
  · rcases hc' with ⟨entry', hentry', hlay'⟩ | ⟨typed', htyped', rfl⟩
    · exact absurd ((hinfo hlay').symm.trans hpath.symm) (hapart hentry' htyped)
    · rw [inj_on_of_nodup_map p.wellFormed.typed_nodup htyped htyped' hpath]

namespace ProgramSnapshot

variable {snapshot : ProgramSnapshot} {cell : StateCell}

def HasCell (snapshot : ProgramSnapshot) : StateCell → Prop
  | .scalar path => ∃ scalar ∈ snapshot.layout.scalars, scalar.path = path
  | .element path field index => ∃ collection ∈ snapshot.layout.collections,
      collection.path = path ∧ ∃ lane ∈ collection.fields, lane.field = field ∧
        index < collection.fieldElementCount lane

def Visible (snapshot : ProgramSnapshot) (cell : StateCell) : Prop :=
  snapshot.HasCell cell ∧ snapshot.isExcluded cell.path = false

def walkCells (snapshot : ProgramSnapshot) : List StateCell :=
  snapshot.sortedScalars.map (fun scalar => .scalar scalar.path) ++
    snapshot.sortedCollections.flatMap fun collection =>
      (sortedFields collection).flatMap fun field =>
        (List.range (collection.fieldElementCount field)).map
          fun index => .element collection.path field.field index

/-- A program the recorder accepts: no opaque state is left over, the accessors support
every value that is not excluded, lanes have 31-bit lengths and names are identifiers. -/
structure Supported (snapshot : ProgramSnapshot) : Prop where
  no_opaque_entry : ∀ entry ∈ snapshot.layout.opaqueEntries, snapshot.isExcluded entry.1 = true
  scalar : ∀ scalar ∈ snapshot.layout.scalars, snapshot.isExcluded scalar.path = false →
    (snapshot.program.scalarTypeOf scalar.path).isSome = true
  lane : ∀ collection ∈ snapshot.layout.collections,
    snapshot.isExcluded collection.path = false → ∀ field ∈ collection.fields,
      (snapshot.program.laneTypeOf collection.path field.field).isSome = true ∧
        collection.fieldElementCount field < 2 ^ 31
  plain_scalar : ∀ scalar ∈ snapshot.layout.scalars, Plain scalar.path
  plain_lane : ∀ collection ∈ snapshot.layout.collections, Plain collection.path ∧
    ∀ field ∈ collection.fields, Plain field.field

lemma mem_sortedScalars {scalar : StateScalarLayout} :
    scalar ∈ snapshot.sortedScalars ↔
      scalar ∈ snapshot.layout.scalars ∧ snapshot.isExcluded scalar.path = false := by
  simp [sortedScalars]

variable {collection : StateCollectionLayout}

lemma mem_sortedCollections :
    collection ∈ snapshot.sortedCollections ↔
      collection ∈ snapshot.layout.collections ∧ snapshot.isExcluded collection.path = false := by
  simp [sortedCollections]

lemma mem_sortedFields : field ∈ sortedFields collection ↔ field ∈ collection.fields := by
  simp [sortedFields]

lemma mem_walkCells : cell ∈ snapshot.walkCells ↔ snapshot.Visible cell := by
  simp only [walkCells, mem_append, mem_map, mem_flatMap, mem_sortedScalars,
    mem_sortedCollections, mem_sortedFields, mem_range]
  constructor
  · rintro (⟨scalar, ⟨hsca, hvis⟩, rfl⟩ |
      ⟨collection, ⟨hcoll, hvis⟩, field, hfield, index, hindex, rfl⟩)
    · exact ⟨⟨scalar, hsca, rfl⟩, hvis⟩
    · exact ⟨⟨collection, hcoll, rfl, field, hfield, rfl, hindex⟩, hvis⟩
  · rintro ⟨hcell, hvis⟩
    cases cell with
    | scalar path =>
      obtain ⟨scalar, hsca, rfl⟩ := hcell
      exact .inl ⟨scalar, ⟨hsca, hvis⟩, rfl⟩
    | element path field index =>
      obtain ⟨collection, hcoll, rfl, lane, hlane, rfl, hindex⟩ := hcell
      exact .inr ⟨collection, ⟨hcoll, hvis⟩, lane, hlane, index, hindex, rfl⟩

lemma replayFieldElementCount_eq_ok (h : collection.fieldElementCount field < 2 ^ 31) :
    replayFieldElementCount collection field = .ok (collection.fieldElementCount field) := by
  rw [replayFieldElementCount, if_pos h]
  rfl

variable (hsupp : snapshot.Supported)
include hsupp

lemma walkState_eq_ok {α : Type}
    {visit : StateCell → Except String (List α)} {found : StateCell → List α}
    (h : ∀ cell, snapshot.Visible cell → visit cell = .ok (found cell)) :
    snapshot.walkState visit = .ok (snapshot.walkCells.flatMap found) := by
  have hscal : collect (fun scalar => visit (.scalar scalar.path)) snapshot.sortedScalars =
      .ok (snapshot.sortedScalars.flatMap fun scalar => found (.scalar scalar.path)) := by
    apply collect_eq_ok
    intro scalar hsca
    obtain ⟨hmem, hvis⟩ := mem_sortedScalars.mp hsca
    exact h _ ⟨⟨scalar, hmem, rfl⟩, hvis⟩
  have hele : collect (fun collection => collect (fun field => do
      let elementCount ← replayFieldElementCount collection field
      collect (fun index => visit (.element collection.path field.field index))
        (range elementCount)) (sortedFields collection)) snapshot.sortedCollections =
      .ok (snapshot.sortedCollections.flatMap fun collection =>
        (sortedFields collection).flatMap fun field =>
          (range (collection.fieldElementCount field)).flatMap fun index =>
            found (.element collection.path field.field index)) := by
    apply collect_eq_ok
    intro collection hcoll
    obtain ⟨hmem, hvis⟩ := mem_sortedCollections.mp hcoll
    apply collect_eq_ok
    intro field hfield
    have hfield' := mem_sortedFields.mp hfield
    rw [bind_ok (replayFieldElementCount_eq_ok (hsupp.lane _ hmem hvis _ hfield').2)]
    apply collect_eq_ok
    intro index hindex
    exact h _ ⟨⟨collection, hmem, rfl, field, hfield', rfl, mem_range.mp hindex⟩, hvis⟩
  unfold walkState
  rw [bind_ok hscal, bind_ok hele]
  simp [walkCells, flatMap_append, flatMap_map, flatMap_assoc, pure, Except.pure]

omit hsupp in
lemma HasCell.slot_mem (h : snapshot.HasCell cell) : cell.slot ∈ snapshot.program.slots := by
  cases cell with
  | scalar path =>
    obtain ⟨scalar, hsca, rfl⟩ := h
    exact mem_append_left _ (mem_map.mpr ⟨scalar, hsca, rfl⟩)
  | element path field index =>
    obtain ⟨collection, hcoll, rfl, lane, hlane, rfl, -⟩ := h
    apply mem_append_right
    exact mem_flatMap.mpr ⟨collection, hcoll, mem_map.mpr ⟨lane, hlane, rfl⟩⟩

variable (h : snapshot.Visible cell)
include h

lemma Supported.exists_storage : ∃ t a, cell.storage snapshot.program = some (t, a) := by
  obtain ⟨hcell, hvis⟩ := h
  cases cell with
  | scalar path =>
    obtain ⟨scalar, hsca, rfl⟩ := hcell
    obtain ⟨t, ht⟩ := Option.isSome_iff_exists.mp (hsupp.scalar scalar hsca hvis)
    exact ⟨t, scalarAddress scalar.path t, by simp [storage, ht]⟩
  | element path field index =>
    obtain ⟨collection, hcoll, rfl, lane, hlane, rfl, hindex⟩ := hcell
    obtain ⟨⟨t, capacity⟩, ht⟩ := Option.isSome_iff_exists.mp
      (hsupp.lane collection hcoll hvis lane hlane).1
    obtain ⟨rfl, -⟩ := laneTypeOf_origin (laneOrigin_of_mem hcoll hlane) ht
    exact ⟨t, laneAddress collection.path lane.field index t, by simp [storage, ht, hindex]⟩

omit h in
lemma Supported.validated : snapshot.validateSupportedState = .ok () := by
  have hnone : ((snapshot.layout.opaqueEntries.map Prod.fst).filter
      fun path => !snapshot.isExcluded path) = [] := by
    apply filter_eq_nil_iff.mpr
    intro path hpath
    obtain ⟨entry, hentry, rfl⟩ := mem_map.mp hpath
    simp [hsupp.no_opaque_entry entry hentry]
  unfold validateSupportedState
  simp only [hnone]
  exact check_of_false rfl

/-- What a value reads as, for values that have an address. -/
def valueIn (snapshot : ProgramSnapshot) (reg : Registry) (cell : StateCell) : JitScalarValue :=
  match cell.storage snapshot.program with
  | none => .i32 0
  | some (t, a) => .ofBits t (reg.load a)

omit h in
omit hsupp in
lemma valueIn_of_storage (h : cell.storage snapshot.program = some (t, a)) (reg : Registry) :
    snapshot.valueIn reg cell = .ofBits t (reg.load a) := by
  rw [valueIn, h]

lemma read_of_visible
    (reg : Registry) : cell.read snapshot.program reg = .ok (snapshot.valueIn reg cell) := by
  obtain ⟨t, a, hstor⟩ := hsupp.exists_storage h
  rw [read_eq_ok hstor, valueIn_of_storage hstor]

def capturedEntries (snapshot : ProgramSnapshot) (reg : Registry) : List StateEntry :=
  (snapshot.walkCells.filter fun cell => !isDefault (snapshot.valueIn reg cell)).map
    fun cell => ⟨cell.location, encodeScalar (snapshot.valueIn reg cell)⟩

def hashedBytes (snapshot : ProgramSnapshot) (reg : Registry) : List UInt8 :=
  "stasis.simulation-state.v1\x00".toUTF8.data.toList ++
    snapshot.walkCells.flatMap fun cell => hashValue cell.label (snapshot.valueIn reg cell)

omit h in
lemma simulationStateInput_eq_ok (reg : Registry) :
    snapshot.simulationStateInput reg = .ok (snapshot.hashedBytes reg) := by
  have hwalk : snapshot.walkState (fun cell => (cell.read snapshot.program reg).map fun value =>
      hashValue cell.label value) = .ok (snapshot.walkCells.flatMap fun cell =>
        hashValue cell.label (snapshot.valueIn reg cell)) := by
    apply walkState_eq_ok hsupp
    intro cell hcell
    rw [read_of_visible hsupp hcell]
    rfl
  unfold simulationStateInput
  rw [bind_ok hsupp.validated, bind_ok hwalk]
  rfl

omit h in
lemma captureInitialState_eq_ok (digest : List UInt8 → String) (reg : Registry) :
    snapshot.captureInitialState digest reg =
      .ok ⟨snapshot.capturedEntries reg, digest (snapshot.hashedBytes reg)⟩ := by
  have hwalk : snapshot.walkState (snapshot.captureCell reg) = .ok (snapshot.walkCells.flatMap
      fun cell => if isDefault (snapshot.valueIn reg cell) then [] else
        [⟨cell.location, encodeScalar (snapshot.valueIn reg cell)⟩]) := by
    apply walkState_eq_ok hsupp
    intro cell hcell
    rw [captureCell, read_of_visible hsupp hcell]
    rfl
  have hent : (snapshot.walkCells.flatMap fun cell =>
      if isDefault (snapshot.valueIn reg cell) then [] else
        [⟨cell.location, encodeScalar (snapshot.valueIn reg cell)⟩]) =
      snapshot.capturedEntries reg := by
    rw [capturedEntries]
    induction snapshot.walkCells with
    | nil => rfl
    | cons cell cells ih =>
      rw [flatMap_cons, ih, filter_cons]
      cases isDefault (snapshot.valueIn reg cell) <;> rfl
  unfold captureInitialState
  rw [bind_ok hsupp.validated, bind_ok hwalk, simulationStateHash,
    simulationStateInput_eq_ok hsupp, hent]
  rfl

lemma resolveLocation_location : snapshot.resolveLocation cell.location = .ok cell := by
  obtain ⟨hcell, hvis⟩ := h
  cases cell with
  | scalar path =>
    obtain ⟨scalar, hsca, rfl⟩ := hcell
    obtain ⟨found, hfound, hmem, hname, -⟩ := exists_find? hsca
      (fun s => showPath s.path = showPath scalar.path ∧ snapshot.isExcluded s.path = false)
      ⟨rfl, hvis⟩
    have hpath : found.path = scalar.path :=
      showPath_injective (hsupp.plain_scalar _ hmem) (hsupp.plain_scalar _ hsca) hname
    simp only [location, resolveLocation, hfound, hpath]
    rfl
  | element path field index =>
    obtain ⟨collection, hcoll, rfl, lane, hlane, rfl, hindex⟩ := hcell
    obtain ⟨found, hfound, hmem, hname, hincl⟩ := exists_find? hcoll
      (fun c => showPath c.path = showPath collection.path ∧ snapshot.isExcluded c.path = false)
      ⟨rfl, hvis⟩
    obtain rfl : found = collection := collection_eq_of_path_eq hmem hcoll
      (showPath_injective (hsupp.plain_lane _ hmem).1 (hsupp.plain_lane _ hcoll).1 hname)
    obtain ⟨found', hfound', hmem', hname'⟩ := exists_find? hlane
      (fun f => showPath f.field = showPath lane.field) rfl
    have hfield : found'.field = lane.field := showPath_injective
      ((hsupp.plain_lane _ hmem).2 _ hmem') ((hsupp.plain_lane _ hmem).2 _ hlane) hname'
    -- a lane listed twice has one length
    have hcount : found.fieldElementCount found' = found.fieldElementCount lane := by
      have hori := laneOrigin_of_mem hmem hmem'
      rw [hfield] at hori
      exact hori.unique (laneOrigin_of_mem hmem hlane)
    have hlt : ¬((index : ℤ) < 0 ∨ (found.fieldElementCount lane : ℤ) ≤ index) := by omega
    simp only [location, resolveLocation, hfound, hfound']
    rw [bind_ok (replayFieldElementCount_eq_ok
      (hsupp.lane _ hmem hincl _ hmem').2), hcount, if_neg hlt, hfield]
    rfl

lemma decodeEntry_captured (reg reg' : Registry) :
    snapshot.decodeEntry reg' ⟨cell.location, encodeScalar (snapshot.valueIn reg cell)⟩ =
      .ok (cell, snapshot.valueIn reg cell) := by
  obtain ⟨t, a, hstor⟩ := hsupp.exists_storage h
  have htype : (snapshot.valueIn reg cell).type = (snapshot.valueIn reg' cell).type := by
    simp [valueIn_of_storage hstor]
  unfold decodeEntry
  rw [bind_ok (resolveLocation_location hsupp h), bind_ok (read_of_visible hsupp h reg'),
    bind_ok (decodeScalar_encodeScalar htype)]
  rfl

def addressOf (snapshot : ProgramSnapshot) (cell : StateCell) : Address :=
  ((cell.storage snapshot.program).map Prod.snd).getD (.scalar .int 0)

omit h in
omit hsupp in
lemma addressOf_of_storage (h : cell.storage snapshot.program = some (t, a)) :
    snapshot.addressOf cell = a := by
  simp [addressOf, h]

lemma resetCell_eq_ok (reg : Registry) :
    snapshot.resetCell cell reg = .ok () (reg.store (snapshot.addressOf cell) 0) := by
  obtain ⟨t, a, hstor⟩ := hsupp.exists_storage h
  have hzero : (ofBits t 0).toBits = 0 := by cases t <;> rfl
  have hwrite : cell.storage snapshot.program = some ((ofBits t 0).type, a) := by
    rw [type_ofBits, hstor]
  rw [resetCell, read_eq_ok hstor]
  simp only [defaultValue, type_ofBits]
  rw [write_eq_ok hwrite, hzero, addressOf_of_storage hstor]

def resetWrites (snapshot : ProgramSnapshot) : List (Address × ℕ) :=
  (snapshot.layout.scalars.flatMap fun scalar =>
    if snapshot.isExcluded scalar.path then []
    else [(snapshot.addressOf (.scalar scalar.path), 0)]) ++
  snapshot.layout.collections.flatMap fun collection =>
    if snapshot.isExcluded collection.path then []
    else collection.fields.flatMap fun field =>
      (List.range (collection.fieldElementCount field)).map fun index =>
        (snapshot.addressOf (.element collection.path field.field index), 0)

omit h

lemma resetScalars_eq_ok (reg : Registry) :
    snapshot.layout.scalars.forM snapshot.resetScalar reg =
      .ok () (cells.writeAll reg (snapshot.layout.scalars.flatMap fun scalar =>
        if snapshot.isExcluded scalar.path then []
        else [(snapshot.addressOf (.scalar scalar.path), 0)])) := by
  apply cells.forM_writeAll
  intro scalar hsca s
  unfold resetScalar
  cases hexcluded : snapshot.isExcluded scalar.path with
  | true => rfl
  | false =>
    have hvis : snapshot.Visible (.scalar scalar.path) := ⟨⟨scalar, hsca, rfl⟩, hexcluded⟩
    exact resetCell_eq_ok hsupp hvis s

lemma resetCollections_eq_ok (reg : Registry) :
    snapshot.layout.collections.forM snapshot.resetCollection reg =
      .ok () (cells.writeAll reg (snapshot.layout.collections.flatMap fun collection =>
        if snapshot.isExcluded collection.path then []
        else collection.fields.flatMap fun field =>
          (range (collection.fieldElementCount field)).map fun index =>
            (snapshot.addressOf (.element collection.path field.field index), 0))) := by
  apply cells.forM_writeAll
  intro collection hcoll s
  unfold resetCollection
  cases hexcluded : snapshot.isExcluded collection.path with
  | true => rfl
  | false =>
    apply cells.forM_writeAll
    intro field hfield s
    unfold resetLane
    rw [replayFieldElementCount_eq_ok (hsupp.lane _ hcoll hexcluded _ hfield).2]
    apply cells.forM_store
    intro index hindex s
    have hvis : snapshot.Visible (.element collection.path field.field index) :=
      ⟨⟨collection, hcoll, rfl, field, hfield, rfl, mem_range.mp hindex⟩, hexcluded⟩
    exact resetCell_eq_ok hsupp hvis s

def storedCells (snapshot : ProgramSnapshot) (reg : Registry) : List StateCell :=
  snapshot.walkCells.filter fun cell => !isDefault (snapshot.valueIn reg cell)

def restoredWrites (snapshot : ProgramSnapshot) (reg : Registry) : List (Address × ℕ) :=
  (snapshot.storedCells reg).map fun cell =>
    (snapshot.addressOf cell, (snapshot.valueIn reg cell).toBits)

omit hsupp in
lemma visible_of_mem_storedCells (h : cell ∈ snapshot.storedCells reg) : snapshot.Visible cell :=
  mem_walkCells.mp (mem_filter.mp h).1

lemma restoreInitialState_eq_ok (reg reg' : Registry) (hash : String) :
    snapshot.restoreInitialState ⟨snapshot.capturedEntries reg, hash⟩ reg' =
      .ok () (cells.writeAll reg'
        (snapshot.resetWrites ++ snapshot.restoredWrites reg)) := by
  have hdec : (snapshot.capturedEntries reg).mapM (snapshot.decodeEntry reg') =
      .ok ((snapshot.storedCells reg).map fun cell => (cell, snapshot.valueIn reg cell)) := by
    apply mapM_eq_ok_iff.mpr
    apply forall₂_map_left_iff.mpr
    apply forall₂_map_right_iff.mpr
    apply forall₂_same.mpr
    intro cell hcell
    exact decodeEntry_captured hsupp (visible_of_mem_storedCells hcell) reg reg'
  have hwri : ∀ s, ((snapshot.storedCells reg).map fun cell =>
      (cell, snapshot.valueIn reg cell)).forM (fun entry =>
        entry.1.write snapshot.program entry.2 : _ → RuntimeM Unit) s =
      .ok () (cells.writeAll s (snapshot.restoredWrites reg)) := by
    intro s
    have hmap : snapshot.restoredWrites reg = ((snapshot.storedCells reg).map fun cell =>
        (cell, snapshot.valueIn reg cell)).map fun entry =>
          (snapshot.addressOf entry.1, entry.2.toBits) := by
      rw [map_map]
      rfl
    rw [hmap]
    apply cells.forM_store
    intro entry hentry s
    obtain ⟨cell, hcell, rfl⟩ := mem_map.mp hentry
    obtain ⟨t, a, hstor⟩ := hsupp.exists_storage (visible_of_mem_storedCells hcell)
    rw [addressOf_of_storage hstor]
    apply write_eq_ok
    simp [valueIn_of_storage hstor, hstor]
  unfold restoreInitialState
  simp only [hsupp.validated, hdec]
  rw [bind_of_ok (resetScalars_eq_ok hsupp reg'),
    bind_of_ok (resetCollections_eq_ok hsupp _), hwri, resetWrites,
    writeAll_append, writeAll_append]

omit hsupp in
lemma mem_resetWrites (h : snapshot.Visible cell) :
    (snapshot.addressOf cell, 0) ∈ snapshot.resetWrites := by
  obtain ⟨hcell, hvis⟩ := h
  cases cell with
  | scalar path =>
    obtain ⟨scalar, hsca, rfl⟩ := hcell
    apply mem_append_left
    refine mem_flatMap.mpr ⟨scalar, hsca, ?_⟩
    rw [if_neg (by simpa [path] using hvis)]
    exact .head _
  | element path field index =>
    obtain ⟨collection, hcoll, rfl, lane, hlane, rfl, hindex⟩ := hcell
    apply mem_append_right
    refine mem_flatMap.mpr ⟨collection, hcoll, ?_⟩
    rw [if_neg (by simpa [path] using hvis)]
    exact mem_flatMap.mpr ⟨lane, hlane, mem_map.mpr ⟨index, mem_range.mpr hindex, rfl⟩⟩

omit hsupp in
lemma exists_of_mem_resetWrites (h : w ∈ snapshot.resetWrites) :
    ∃ cell, snapshot.Visible cell ∧ w = (snapshot.addressOf cell, 0) := by
  rcases mem_append.mp h with h | h
  · obtain ⟨scalar, hscal, h⟩ := mem_flatMap.mp h
    split_ifs at h with hvis
    · cases h
    · exact ⟨.scalar scalar.path, ⟨⟨scalar, hscal, rfl⟩, Bool.not_eq_true _ ▸ hvis⟩,
        mem_singleton.mp h⟩
  · obtain ⟨collection, hcoll, h⟩ := mem_flatMap.mp h
    split_ifs at h with hvis
    · cases h
    · obtain ⟨field, hfield, h⟩ := mem_flatMap.mp h
      obtain ⟨index, hindex, rfl⟩ := mem_map.mp h
      exact ⟨.element collection.path field.field index, ⟨⟨collection, hcoll, rfl, field, hfield,
        rfl, mem_range.mp hindex⟩, Bool.not_eq_true _ ▸ hvis⟩, rfl⟩

lemma eq_of_addressOf_eq (hdist : snapshot.program.SlotsDistinct) (h : snapshot.Visible cell)
    (h' : snapshot.Visible cell') (heq : snapshot.addressOf cell = snapshot.addressOf cell') :
    cell = cell' := by
  obtain ⟨t, a, hstor⟩ := hsupp.exists_storage h
  obtain ⟨t', a', hstor'⟩ := hsupp.exists_storage h'
  rw [addressOf_of_storage hstor, addressOf_of_storage hstor'] at heq
  subst heq
  exact eq_of_storage_eq hdist h.1.slot_mem h'.1.slot_mem hstor hstor'

lemma valueIn_restored (hdist : snapshot.program.SlotsDistinct) (h : snapshot.Visible cell)
    (reg : Registry) (hinst : snapshot.program.Installed reg') :
    snapshot.valueIn (cells.writeAll reg'
      (snapshot.resetWrites ++ snapshot.restoredWrites reg)) cell = snapshot.valueIn reg cell := by
  obtain ⟨t, a, hstor⟩ := hsupp.exists_storage h
  have hadd := addressOf_of_storage hstor
  have htype : (snapshot.valueIn reg cell).type = t := by simp [valueIn_of_storage hstor]
  have hbac := backed_of_installed hinst h.1.slot_mem hstor
  have hbits : (snapshot.valueIn reg cell).toBits < 2 ^ t.storageKind.bits := by
    have hlt := (snapshot.valueIn reg cell).toBits_lt
    rwa [htype] at hlt
  -- only this value is written back to its address
  have hown : ∀ w ∈ snapshot.restoredWrites reg, w.1 = a →
      cell ∈ snapshot.storedCells reg ∧ w.2 = (snapshot.valueIn reg cell).toBits := by
    intro w hw hkey
    obtain ⟨cell', hcell', rfl⟩ := mem_map.mp hw
    obtain rfl := eq_of_addressOf_eq hsupp hdist h (visible_of_mem_storedCells hcell')
      (hadd.trans hkey.symm)
    exact ⟨hcell', rfl⟩
  have hload : cells.load (cells.writeAll reg'
      (snapshot.resetWrites ++ snapshot.restoredWrites reg)) a =
      (snapshot.valueIn reg cell).toBits := by
    rw [writeAll_append]
    by_cases hsto : cell ∈ snapshot.storedCells reg
    · apply load_writeAll_of_mem (m := cells)
        ⟨t.storageKind, hbac.writeAll _, hbits⟩
      · rw [← hadd]
        exact mem_map_of_mem hsto
      · exact fun w hw hkey => (hown w hw hkey).2
    · have hzero : (snapshot.valueIn reg cell).toBits = 0 := by
        by_contra hne
        apply hsto
        exact mem_filter.mpr ⟨mem_walkCells.mpr h, by simpa [isDefault] using hne⟩
      rw [hzero] at hbits ⊢
      rw [load_writeAll_of_forall_ne (m := cells)
        ⟨t.storageKind, hbac.writeAll _, hbits⟩ fun w hw hkey => hsto (hown w hw hkey).1]
      apply load_writeAll_of_mem (m := cells) ⟨t.storageKind, hbac, hbits⟩
      · rw [← hadd]
        exact mem_resetWrites h
      · intro w hw _
        obtain ⟨-, -, rfl⟩ := exists_of_mem_resetWrites hw
        rfl
  have hround := ofBits_toBits (snapshot.valueIn reg cell)
  rw [valueIn_of_storage hstor (cells.writeAll reg' _)]
  rw [htype] at hround
  exact (congrArg (ofBits t) hload).trans hround

/-- A value of the state in `reg` is part of the recording that starts with `state`. -/
structure Covered (snapshot : ProgramSnapshot) (reg : Registry) (state : InitialState)
    (cell : StateCell) : Prop where
  /-- A value has an entry, or is the default of its type and has none. -/
  captured : ∃ value, cell.read snapshot.program reg = .ok value ∧
    (⟨cell.location, encodeScalar value⟩ ∈ state.values ∨
      isDefault value = true ∧ ∀ entry ∈ state.values, entry.location ≠ cell.location)
  restored : ∀ reg', snapshot.program.Installed reg' → ∃ after,
    snapshot.restoreInitialState state reg' = .ok () after ∧
      cell.read snapshot.program after = cell.read snapshot.program reg
  hashed : ∀ other, ∃ input input', snapshot.simulationStateInput reg = .ok input ∧
    snapshot.simulationStateInput other = .ok input' ∧
      (cell.read snapshot.program other ≠ cell.read snapshot.program reg → input' ≠ input)

lemma valueIn_eq_of_hashedBytes_eq (heq : snapshot.hashedBytes other = snapshot.hashedBytes reg)
    (h : snapshot.Visible cell) :
    snapshot.valueIn other cell = snapshot.valueIn reg cell := by
  have htype : ∀ c ∈ snapshot.walkCells,
      (snapshot.valueIn other c).type = (snapshot.valueIn reg c).type := by
    intro c hc
    obtain ⟨t, a, hstor⟩ := hsupp.exists_storage (mem_walkCells.mp hc)
    simp [valueIn_of_storage hstor]
  have hpie := forall_eq_of_flatMap_eq
    (fun c hc => length_hashValue (htype c hc) c.label) (append_cancel_left heq)
  have hmem := mem_walkCells.mpr h
  exact hashValue_injective (htype cell hmem) (hpie cell hmem)

lemma captured_of_visible (h : snapshot.Visible cell) (reg : Registry) :
    ⟨cell.location, encodeScalar (snapshot.valueIn reg cell)⟩ ∈ snapshot.capturedEntries reg ∨
      isDefault (snapshot.valueIn reg cell) = true ∧
        ∀ entry ∈ snapshot.capturedEntries reg, entry.location ≠ cell.location := by
  cases hdef : isDefault (snapshot.valueIn reg cell) with
  | false =>
    refine .inl (mem_map.mpr ⟨cell, mem_filter.mpr ⟨mem_walkCells.mpr h, ?_⟩, rfl⟩)
    rw [hdef]
    rfl
  | true =>
    refine .inr ⟨rfl, fun entry hentry hloc => ?_⟩
    obtain ⟨cell', hcell', rfl⟩ := mem_map.mp hentry
    -- a location stands for one value
    have hres := resolveLocation_location hsupp (visible_of_mem_storedCells hcell')
    rw [show cell'.location = cell.location from hloc, resolveLocation_location hsupp h] at hres
    obtain rfl := Except.ok.inj hres
    simp [mem_filter, hdef] at hcell'

lemma covered_of_visible
    (hdist : snapshot.program.SlotsDistinct) (h : snapshot.Visible cell) (reg : Registry)
    (hash : String) : snapshot.Covered reg ⟨snapshot.capturedEntries reg, hash⟩ cell where
  captured := ⟨_, read_of_visible hsupp h reg, captured_of_visible hsupp h reg⟩
  restored := by
    intro reg' hinstalled
    refine ⟨_, restoreInitialState_eq_ok hsupp reg reg' hash, ?_⟩
    rw [read_of_visible hsupp h, read_of_visible hsupp h,
      valueIn_restored hsupp hdist h reg hinstalled]
  hashed := by
    intro other
    refine ⟨_, _, simulationStateInput_eq_ok hsupp reg,
      simulationStateInput_eq_ok hsupp other, fun hne heq => hne ?_⟩
    rw [read_of_visible hsupp h, read_of_visible hsupp h, valueIn_eq_of_hashedBytes_eq hsupp heq h]

def statePaths (snapshot : ProgramSnapshot) : List Path :=
  snapshot.layout.scalars.map (·.path) ++ snapshot.layout.collections.map (·.path)

omit hsupp

lemma HasCell.path_mem (h : snapshot.HasCell cell) : cell.path ∈ snapshot.statePaths := by
  cases cell with
  | scalar path =>
    obtain ⟨scalar, hsca, rfl⟩ := h
    exact mem_append_left _ (mem_map.mpr ⟨scalar, hsca, rfl⟩)
  | element path field index =>
    obtain ⟨collection, hcoll, rfl, -⟩ := h
    exact mem_append_right _ (mem_map.mpr ⟨collection, hcoll, rfl⟩)

lemma isExcluded_of_not_replayPath {path : Path}
    (h : snapshot.isReplayHostOrPresentationPath path = false) :
    snapshot.isExcluded path = false := by
  simp [isExcluded, replayExcludedPaths, h]

lemma replayPath_of_not_isExcluded {name : Runtime.Path} (hmem : name ∈ snapshot.statePaths)
    (h : snapshot.isExcluded name = false) :
    snapshot.isReplayHostOrPresentationPath name = false := by
  by_contra hreplay
  have hlisted : name ∈ snapshot.replayExcludedPaths :=
    mem_filter.mpr ⟨mem_append_left _ hmem, Bool.not_eq_false _ ▸ hreplay⟩
  simp [isExcluded, hlisted] at h

/-- A value the program binds storage for, whether or not its layout describes it. -/
def Keeps (snapshot : ProgramSnapshot) : StateCell → Prop
  | .scalar path => snapshot.HasCell (.scalar path) ∨
      ∃ type, (path, type) ∈ snapshot.program.globalPathTypes ∧
        (snapshot.program.scalarStorageLane (path, type)).isSome = true
  | .element path field index => snapshot.HasCell (.element path field index) ∨
      ∃ info type, (path, info) ∈ snapshot.program.collectionInfos ∧
        snapshot.program.isNestedFixedArrayCollectionPath path = false ∧
        (field = [] ∧ info.elementType = some type ∧ index < info.len ∨
          (field, type) ∈ info.fieldTypes ∧ index < (type.laneTypeAndLen info.len).2)

lemma hasCell_of_bound_scalar {name : Runtime.Path} {type : TypeKey}
    (hmem : (name, type) ∈ snapshot.program.globalPathTypes)
    (hbound : (snapshot.program.scalarStorageLane (name, type)).isSome = true) :
    snapshot.HasCell (.scalar name) := by
  have htyped : snapshot.program.isTypedPath name = true → type.isTypedCollection = true := by
    intro h
    obtain ⟨descriptor, hlookup⟩ := Option.isSome_iff_exists.mp h
    have hany := (snapshot.program.wellFormed.typed_apart _ (mem_of_lookup hlookup)).2.2
    rw [lookup_of_mem snapshot.program.wellFormed.globals_nodup hmem] at hany
    exact hany
  have hlayout : (snapshot.program.scalarLayout (name, type)).isSome = true := by
    unfold scalarStorageLane at hbound
    split_ifs at hbound with hcollection
    · cases hbound
    rw [Option.isSome_map] at hbound
    unfold Program.scalarType at hbound
    unfold scalarLayout
    cases type with
    | named name' =>
      have hleaf : snapshot.program.isNamedScalarStatePath name (.named name') = true := by
        by_contra hleaf
        simp [hleaf] at hbound
      have huntyped : snapshot.program.isTypedPath name = false := by
        simpa [TypeKey.isTypedCollection] using htyped
      simp [huntyped, hleaf, TypeKey.scalarStorageType]
    | _ =>
      simp_all [ProgramMetadata.isNamedScalarStatePath, TypeKey.isTypedCollection,
        TypeKey.isNamed, TypeKey.scalarStorageType]
  obtain ⟨scalar, hscalar⟩ := Option.isSome_iff_exists.mp hlayout
  refine ⟨scalar, ?_, ?_⟩
  · exact (mem_insertionSort _).mpr (mem_append_left _ (mem_filterMap.mpr ⟨_, hmem, hscalar⟩))
  · unfold scalarLayout at hscalar
    split_ifs at hscalar
    obtain ⟨t, -, rfl⟩ := Option.map_eq_some_iff.mp hscalar
    rfl

lemma exists_collection_of_info {name : Runtime.Path} {info : ForeachCollectionInfo}
    (hinfo : (name, info) ∈ snapshot.program.collectionInfos)
    (hnested : snapshot.program.isNestedFixedArrayCollectionPath name = false) :
    ∃ collection ∈ snapshot.layout.collections, collection.path = name ∧
      ∀ described ∈ (info.elementType.bind elementFieldLayout).toList ++
          info.fieldTypes.filterMap (collectionFieldLayout info.len),
        ∃ lane ∈ collection.fields, lane.field = described.field ∧
          collection.fieldElementCount lane = described.elementCount.getD info.len := by
  have hlayout : snapshot.program.collectionLayout (name, info) = some _ :=
    if_neg (by simp [hnested])
  obtain ⟨hpath, hcapacity, hextents⟩ := snapshot.program.extents_textLane
    { path := name, capacity := info.len, elementShape := info.elementShape,
      fullyMigratable := info.fullyMigratable,
      fields := (info.elementType.bind elementFieldLayout).toList ++
        info.fieldTypes.filterMap (collectionFieldLayout info.len) }
  refine ⟨_, (mem_insertionSort _).mpr (mem_append_left _
    (mem_filterMap.mpr ⟨_, hinfo, hlayout⟩)), hpath, ?_⟩
  intro described hdescribed
  have hextent := mem_map_of_mem (f := laneExtent) hdescribed
  obtain ⟨lane, hlane, hsame⟩ := mem_map.mp (hextents ▸ hextent)
  obtain ⟨hfield, helements⟩ := Prod.mk.inj hsame
  refine ⟨lane, hlane, hfield, ?_⟩
  rw [StateCollectionLayout.fieldElementCount, hcapacity, helements]

lemma exists_collectionFieldLayout {len : ℕ} {field : Runtime.Path} {type : TypeKey}
    (h : (type.laneTypeAndLen len).1.scalarStorageType.isSome = true) :
    ∃ described, collectionFieldLayout len (field, type) = some described ∧
      described.field = field ∧
      described.elementCount.getD len = (type.laneTypeAndLen len).2 := by
  unfold collectionFieldLayout
  unfold TypeKey.laneTypeAndLen at h ⊢
  cases harray : type.fixedArrayLane with
  | none =>
    obtain ⟨t, ht⟩ := Option.isSome_iff_exists.mp (by simpa [harray] using h)
    exact ⟨_, by simp [ht]; rfl, rfl, rfl⟩
  | some lane =>
    obtain ⟨t, ht⟩ := Option.isSome_iff_exists.mp (by simpa [harray] using h)
    exact ⟨_, by simp [ht]; rfl, rfl, rfl⟩

section Described

variable {name : Runtime.Path} {info : ForeachCollectionInfo} {type : TypeKey}
  (hinfo : (name, info) ∈ snapshot.program.collectionInfos)
  (hnested : snapshot.program.isNestedFixedArrayCollectionPath name = false)
include hinfo hnested

lemma hasCell_of_element_type (htype : info.elementType = some type)
    (hscalar : type.scalarStorageType.isSome = true) (hindex : index < info.len) :
    snapshot.HasCell (.element name [] index) := by
  obtain ⟨collection, hcollection, hpath, hfields⟩ := exists_collection_of_info hinfo hnested
  obtain ⟨t, ht⟩ := Option.isSome_iff_exists.mp hscalar
  obtain ⟨lane, hlane, hname, hcount⟩ := hfields ⟨[], type, t, none⟩
    (mem_append_left _ (by simp [htype, elementFieldLayout, ht]))
  exact ⟨collection, hcollection, hpath, lane, hlane, hname, by rwa [hcount]⟩

lemma hasCell_of_field_type {field : Runtime.Path} (hmem : (field, type) ∈ info.fieldTypes)
    (hscalar : (type.laneTypeAndLen info.len).1.scalarStorageType.isSome = true)
    (hindex : index < (type.laneTypeAndLen info.len).2) :
    snapshot.HasCell (.element name field index) := by
  obtain ⟨collection, hcollection, hpath, hfields⟩ := exists_collection_of_info hinfo hnested
  obtain ⟨described, hdescribed, hfield, hcount⟩ := exists_collectionFieldLayout hscalar
  obtain ⟨lane, hlane, hname, hlen⟩ := hfields described
    (mem_append_right _ (mem_filterMap.mpr ⟨_, hmem, hdescribed⟩))
  exact ⟨collection, hcollection, hpath, lane, hlane, hname.trans hfield, by rwa [hlen, hcount]⟩

end Described

lemma Keeps.hasCell (hscalars : ∀ entry ∈ snapshot.program.collectionInfos,
      (∀ type ∈ entry.2.elementType, type.scalarStorageType.isSome = true) ∧
        ∀ field ∈ entry.2.fieldTypes,
          (field.2.laneTypeAndLen entry.2.len).1.scalarStorageType.isSome = true)
    (h : snapshot.Keeps cell) : snapshot.HasCell cell := by
  cases cell with
  | scalar name =>
    rcases h with h | ⟨type, hmem, hbound⟩
    · exact h
    · exact hasCell_of_bound_scalar hmem hbound
  | element name field index =>
    rcases h with h | ⟨info, type, hinfo, hnested, ⟨rfl, htype, hindex⟩ | ⟨hmem, hindex⟩⟩
    · exact h
    · exact hasCell_of_element_type hinfo hnested htype ((hscalars _ hinfo).1 _ htype) hindex
    · exact hasCell_of_field_type hinfo hnested hmem ((hscalars _ hinfo).2 _ hmem) hindex

lemma scalarStorageType_of_laneScalarType {p : Program} {n field : Runtime.Path} {type : TypeKey}
    (hfield : field ≠ []) (h : (p.laneScalarType n field type).isSome = true) :
    type.scalarStorageType.isSome = true := by
  unfold laneScalarType at h
  rw [if_neg (by simp [hfield])] at h
  cases type <;> simp_all [TypeKey.scalarStorageType]

lemma hasCell_of_readable_field {name field : Runtime.Path} {info : ForeachCollectionInfo}
    {type : TypeKey} (hinfo : (name, info) ∈ snapshot.program.collectionInfos)
    (hnested : snapshot.program.isNestedFixedArrayCollectionPath name = false)
    (hmem : (field, type) ∈ info.fieldTypes) (hindex : index < (type.laneTypeAndLen info.len).2)
    (hread : (snapshot.program.laneTypeOf name field).isSome = true) :
    snapshot.HasCell (.element name field index) := by
  have hfield : field ≠ [] := snapshot.program.wellFormed.fields_nonempty _ hinfo _ hmem
  have htype : snapshot.program.globalCollectionValueType name field =
      .ok (type.laneTypeAndLen info.len) := by
    unfold globalCollectionValueType
    rw [lookup_of_mem snapshot.program.wellFormed.collections_nodup hinfo,
      if_neg (by simp [hnested])]
    simp only [if_neg hfield,
      lookup_of_mem (snapshot.program.wellFormed.fields_nodup _ hinfo) hmem]
  have hscalar : (type.laneTypeAndLen info.len).1.scalarStorageType.isSome = true := by
    apply scalarStorageType_of_laneScalarType (p := snapshot.program) (n := name) hfield
    simpa [laneTypeOf, htype] using hread
  exact hasCell_of_field_type hinfo hnested hmem hscalar hindex

lemma exists_load_one {t : ScalarType} {a : Address}
    (h : cell.storage snapshot.program = some (t, a)) : ∃ reg : Registry, reg.load a = 1 := by
  obtain ⟨reg, hbacked⟩ : ∃ reg : Registry, reg.Backed t.storageKind a := by
    cases cell with
    | scalar name =>
      obtain ⟨-, rfl⟩ := storage_scalar h
      cases t <;> first
        | exact ⟨_, Registry.backed_provisionScalar .empty _ _ _ 0⟩
        | exact ⟨_, Registry.backed_provisionLane .empty _ _ 0 Nat.zero_lt_one⟩
    | element name field index =>
      obtain ⟨capacity, -, hlt, rfl⟩ := storage_element h
      exact ⟨_, Registry.backed_provisionLane .empty _ _ 0 hlt⟩
  refine ⟨reg.store a 1, Registry.load_store_self hbacked ?_⟩
  cases t <;> decide

lemma isDefault_ofBits_one (t : ScalarType) : isDefault (.ofBits t 1) = false := by
  cases t <;> decide

lemma exists_storage_of_read {reg : Registry} {value : JitScalarValue}
    (h : cell.read snapshot.program reg = .ok value) :
    ∃ t a, cell.storage snapshot.program = some (t, a) := by
  cases cell with
  | scalar name =>
    obtain ⟨t, ht, -⟩ := readGlobalScalar_eq_ok_iff.mp h
    exact ⟨t, _, by simp [storage, ht]; rfl⟩
  | element name field index =>
    obtain ⟨t, capacity, ht, hlt, -⟩ := readGlobalCollectionScalar_eq_ok_iff.mp h
    exact ⟨t, _, by simp [storage, ht, hlt]; rfl⟩

def PlainNames : StateCell → Prop
  | .scalar path => Plain path
  | .element path field _ => Plain path ∧ Plain field

lemma eq_of_location_eq {cell cell' : StateCell} (hcell : PlainNames cell)
    (hcell' : PlainNames cell') (h : cell.location = cell'.location) : cell = cell' := by
  cases cell with
  | scalar path =>
    cases cell' with
    | scalar path' =>
      rw [showPath_injective hcell hcell' (StateLocation.scalar.inj h)]
    | element path' field' index' => cases h
  | element path field index =>
    cases cell' with
    | scalar path' => cases h
    | element path' field' index' =>
      obtain ⟨hpath, hfield, hindex⟩ := StateLocation.collection.inj h
      rw [showPath_injective hcell.1 hcell'.1 hpath, showPath_injective hcell.2 hcell'.2 hfield,
        Nat.cast_inj.mp hindex]

lemma HasCell.plainNames (hsupp : snapshot.Supported) (h : snapshot.HasCell cell) :
    PlainNames cell := by
  cases cell with
  | scalar name =>
    obtain ⟨scalar, hscalar, rfl⟩ := h
    exact hsupp.plain_scalar _ hscalar
  | element name field index =>
    obtain ⟨collection, hcollection, rfl, lane, hlane, rfl, -⟩ := h
    exact ⟨(hsupp.plain_lane _ hcollection).1, (hsupp.plain_lane _ hcollection).2 _ hlane⟩

lemma Keeps.plainNames {t : ScalarType} {a : Address} (hsupp : snapshot.Supported)
    (h : snapshot.Keeps cell) (hstorage : cell.storage snapshot.program = some (t, a)) :
    PlainNames cell := by
  cases cell with
  | scalar name =>
    rcases h with h | ⟨type, hmem, hbound⟩
    · exact h.plainNames hsupp
    · exact (hasCell_of_bound_scalar hmem hbound).plainNames hsupp
  | element name field index =>
    obtain ⟨capacity, hlane, -, -⟩ := storage_element hstorage
    rcases h with h | ⟨info, type, hinfo, hnested, ⟨rfl, -, -⟩ | ⟨hmem, hindex⟩⟩
    · exact h.plainNames hsupp
    · obtain ⟨collection, hcollection, rfl, -⟩ := exists_collection_of_info hinfo hnested
      exact ⟨(hsupp.plain_lane _ hcollection).1, fun _ hname => absurd hname not_mem_nil⟩
    · exact (hasCell_of_readable_field hinfo hnested hmem hindex
        (by simp [hlane])).plainNames hsupp

/-- A value that is covered in every state is described and not excluded: where it is not the
default, it has an entry. -/
lemma Keeps.visible_of_covered (hsupp : snapshot.Supported) (h : snapshot.Keeps cell)
    (digest : List UInt8 → String)
    (hcovered : ∀ reg, ∃ state, snapshot.captureInitialState digest reg = .ok state ∧
      snapshot.Covered reg state cell) :
    snapshot.Visible cell := by
  obtain ⟨_, -, hempty⟩ := hcovered .empty
  obtain ⟨value, hvalue, -⟩ := hempty.captured
  obtain ⟨t, a, hstorage⟩ := exists_storage_of_read hvalue
  obtain ⟨reg, hload⟩ := exists_load_one hstorage
  obtain ⟨state, hstate, hreg⟩ := hcovered reg
  obtain rfl := Except.ok.inj ((captureInitialState_eq_ok hsupp digest reg).symm.trans hstate)
  obtain ⟨read, hread, hentry | ⟨hdefault, -⟩⟩ := hreg.captured
  · obtain ⟨cell', hcell', heq⟩ := mem_map.mp hentry
    have hvisible := visible_of_mem_storedCells hcell'
    have hlocation : cell'.location = cell.location := congrArg StateEntry.location heq
    exact eq_of_location_eq (hvisible.1.plainNames hsupp) (h.plainNames hsupp hstorage) hlocation
      ▸ hvisible
  · rw [read_eq_ok hstorage, hload] at hread
    cases hread
    cases (isDefault_ofBits_one t).symm.trans hdefault

def sampleSnapshot : ProgramSnapshot := ⟨Migration.sampleActive, []⟩

def commandCounter : ProgramSnapshot where
  program :=
    { toProgramMetadata := Migration.sampleMetadata [] ["cmd_count"]
      wellFormed := by constructor <;> decide +kernel }
  sourceTypeOrigins := []

def counterState (count : BitVec 32) : Registry :=
  let started := Migration.finalRegistry (commandCounter.program.activateStagedRuntime .empty)
  Migration.finalRegistry
    (commandCounter.program.writeGlobalScalar ["cmd_count"] (.i32 count) started)

end ProgramSnapshot

end Stasis.Recording
