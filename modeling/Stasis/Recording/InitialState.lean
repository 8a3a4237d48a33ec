import Stasis.Recording.Coverage
import Stasis.Runtime.Interference

namespace Stasis.Recording.ProgramSnapshot

open StateCell
open Stasis.Runtime Stasis.Runtime.Program

variable {snapshot : ProgramSnapshot} {cell : StateCell} {reg : Registry} {entry : StateEntry}

/-- An entry that names a value which is not excluded, with the type of that value and bits
of that type. -/
def WellFormedEntry (snapshot : ProgramSnapshot) (entry : StateEntry) : Prop :=
  ∃ cell t a, snapshot.Visible cell ∧ cell.location = entry.location ∧
    cell.storage snapshot.program = some (t, a) ∧ entry.value.typeName = t.name ∧
    ∃ bits, fromStrRadix16 entry.value.bits = .ok bits ∧
      bits < if t = .bool then 2 else 16 ^ hexWidth t

lemma visible_of_resolveLocation {location : StateLocation}
    (h : snapshot.resolveLocation location = .ok cell) :
    snapshot.Visible cell ∧ cell.location = location := by
  cases location with
  | scalar path =>
    simp only [resolveLocation] at h
    split at h
    · cases h
    next scalar hfind =>
      cases h
      obtain ⟨hpath, hvis⟩ :
          showPath scalar.path = path ∧ snapshot.isExcluded scalar.path = false :=
        by simpa using List.find?_some hfind
      exact ⟨⟨⟨scalar, List.mem_of_find?_eq_some hfind, rfl⟩, hvis⟩, congrArg _ hpath⟩
  | collection path field index =>
    simp only [resolveLocation] at h
    split at h
    next collection hfind =>
      split at h
      next lane hlane =>
        obtain ⟨count, hcount, h⟩ := bind_ok_iff.mp h
        split_ifs at h with hindex
        cases h
        obtain ⟨hpath, hvis⟩ : showPath collection.path = path ∧
            snapshot.isExcluded collection.path = false := by simpa using List.find?_some hfind
        have hfield : showPath lane.field = field := by simpa using List.find?_some hlane
        have hextent : count = collection.fieldElementCount lane := by
          unfold replayFieldElementCount at hcount
          split_ifs at hcount
          exact (Except.ok.inj hcount).symm
        refine ⟨⟨⟨collection, List.mem_of_find?_eq_some hfind, rfl, lane,
          List.mem_of_find?_eq_some hlane, rfl, by omega⟩, hvis⟩, ?_⟩
        rw [location, hpath, hfield, Int.toNat_of_nonneg (by omega)]
      · cases h
    · cases h

lemma storage_of_read (h : cell.read snapshot.program reg = .ok value) :
    ∃ a, cell.storage snapshot.program = some (value.type, a) := by
  cases cell with
  | scalar path =>
    obtain ⟨t, ht, rfl⟩ := readGlobalScalar_eq_ok_iff.mp h
    exact ⟨scalarAddress path t, by simp [storage, ht]⟩
  | element path field index =>
    obtain ⟨t, capacity, ht, hlt, rfl⟩ := readGlobalCollectionScalar_eq_ok_iff.mp h
    exact ⟨laneAddress path field index t, by simp [storage, ht, hlt]⟩

lemma wellFormed_of_decodeEntry (h : snapshot.decodeEntry reg entry = .ok result) :
    snapshot.WellFormedEntry entry := by
  obtain ⟨cell, hcell, h⟩ := bind_ok_iff.mp h
  obtain ⟨target, htarget, h⟩ := bind_ok_iff.mp h
  obtain ⟨value, hvalue, -⟩ := bind_ok_iff.mp h
  obtain ⟨hvis, hloc⟩ := visible_of_resolveLocation hcell
  obtain ⟨a, hstor⟩ := storage_of_read htarget
  refine ⟨cell, target.type, a, hvis, hloc, hstor, ?_⟩
  unfold decodeScalar at hvalue
  by_cases htype : entry.value.typeName = target.type.name
  swap
  · rw [if_pos htype] at hvalue
    cases hvalue
  rw [if_neg (not_not.mpr htype)] at hvalue
  split at hvalue
  · cases hvalue
  next bits hbits =>
    refine ⟨htype, bits, hbits, ?_⟩
    by_contra hlarge
    rw [if_pos (not_lt.mp hlarge)] at hvalue
    cases hvalue

lemma restoreInitialState_of_malformed (hentry : entry ∈ state.values)
    (h : ¬ snapshot.WellFormedEntry entry) (reg : Registry) :
    ∃ message, snapshot.restoreInitialState state reg = .error message reg := by
  unfold restoreInitialState
  split
  next message _ => exact ⟨message, rfl⟩
  · split
    next message _ => exact ⟨message, rfl⟩
    next decoded hdec =>
      obtain ⟨result, -, hresult⟩ := exists_ok_of_mapM_ok hdec hentry
      exact absurd (wellFormed_of_decodeEntry hresult) h

section

variable (hsupp : snapshot.Supported) (hdist : snapshot.program.SlotsDistinct)
  (hcell : snapshot.HasCell cell) (hexcl : snapshot.isExcluded cell.path = true)
  (s reg : Registry) (hinst : snapshot.program.Installed reg)
include hsupp hdist hcell hexcl hinst

lemma load_restored_of_excluded (hstor : cell.storage snapshot.program = some (t, a)) :
    (Registry.cells.writeAll reg (snapshot.resetWrites ++ snapshot.restoredWrites s)).load a =
      reg.load a := by
  have hback := backed_of_installed hinst hcell.slot_mem hstor
  -- a write to the same address would be one of an excluded value
  have hapart : ∀ cell', snapshot.Visible cell' → snapshot.addressOf cell' ≠ a := by
    intro cell' hvis heq
    obtain ⟨t', a', hstor'⟩ := hsupp.exists_storage hvis
    rw [addressOf_of_storage hstor'] at heq
    subst heq
    obtain rfl := eq_of_storage_eq hdist hcell.slot_mem hvis.1.slot_mem hstor hstor'
    rw [hvis.2] at hexcl
    cases hexcl
  apply CellMemory.load_writeAll_of_forall_ne (m := Registry.cells) (v := 0)
    ⟨t.storageKind, hback, Nat.two_pow_pos _⟩
  intro w hw
  rcases List.mem_append.mp hw with hw | hw
  · obtain ⟨cell', hvis, rfl⟩ := exists_of_mem_resetWrites hw
    exact hapart cell' hvis
  · obtain ⟨cell', hstored, rfl⟩ := List.mem_map.mp hw
    exact hapart cell' (visible_of_mem_storedCells hstored)

lemma read_restored_of_excluded :
    cell.read snapshot.program (Registry.cells.writeAll reg
      (snapshot.resetWrites ++ snapshot.restoredWrites s)) = cell.read snapshot.program reg := by
  cases cell with
  | scalar path =>
    refine readGlobalScalar_congr fun t ht => congrArg _ ?_
    have hstor : (scalar path).storage snapshot.program =
        some (t, scalarAddress path t) := by simp [storage, ht]
    exact load_restored_of_excluded hsupp hdist hcell hexcl s reg hinst hstor
  | element path field index =>
    refine readGlobalCollectionScalar_congr fun t capacity ht hlt => congrArg _ ?_
    have hstor : (element path field index).storage snapshot.program =
        some (t, laneAddress path field index t) := by simp [storage, ht, hlt]
    exact load_restored_of_excluded hsupp hdist hcell hexcl s reg hinst hstor

end

def SharesCell (snapshot : ProgramSnapshot) (a : Address) (visible excluded : StateCell) : Prop :=
  snapshot.Visible visible ∧ snapshot.HasCell excluded ∧
    snapshot.isExcluded excluded.path = true ∧
    (∃ t, visible.storage snapshot.program = some (t, a)) ∧
    ∃ t, excluded.storage snapshot.program = some (t, a)

lemma SharesCell.restore_changes {excluded : StateCell} (hsupp : snapshot.Supported)
    (h : snapshot.SharesCell a cell excluded) (digest : List UInt8 → String)
    (hback : reg.Backed kind a) :
    ∃ s before state after, snapshot.captureInitialState digest s = .ok state ∧
      snapshot.restoreInitialState state before = .ok () after ∧
      excluded.read snapshot.program after ≠ excluded.read snapshot.program before := by
  obtain ⟨hvis, hcell, -, ⟨t, hstor⟩, t', hstor'⟩ := h
  have hbits : ∀ n < 2, n < 2 ^ kind.bits := by
    intro n hn
    cases kind <;> exact Nat.lt_of_lt_of_le hn (by decide)
  -- the visible value is captured as zero, and the excluded one is one before the restore
  refine ⟨reg.store a 0, reg.store a 1, _, _, captureInitialState_eq_ok hsupp digest _,
    restoreInitialState_eq_ok hsupp _ _ _, ?_⟩
  have hzero : (reg.store a 0).load a = 0 := Registry.load_store_self hback (hbits 0 (by decide))
  have hone : (reg.store a 1).load a = 1 := Registry.load_store_self hback (hbits 1 (by decide))
  have hunwritten : ∀ w ∈ snapshot.restoredWrites (reg.store a 0), w.1 ≠ a := by
    intro w hw heq
    obtain ⟨cell', hstored, rfl⟩ := List.mem_map.mp hw
    obtain ⟨t'', a'', hstor''⟩ := hsupp.exists_storage (visible_of_mem_storedCells hstored)
    obtain rfl : a'' = a := (addressOf_of_storage hstor'').symm.trans heq
    have hdefault := (List.mem_filter.mp hstored).2
    rw [valueIn_of_storage hstor'', hzero] at hdefault
    cases t'' <;> exact absurd hdefault (by decide)
  have hafter : (Registry.cells.writeAll (reg.store a 1)
      (snapshot.resetWrites ++ snapshot.restoredWrites (reg.store a 0))).load a = 0 := by
    have hhold : Registry.cells.Holds (reg.store a 1) a 0 :=
      ⟨_, hback.store a 1, hbits 0 (by decide)⟩
    rw [CellMemory.writeAll_append]
    refine (CellMemory.load_writeAll_of_forall_ne (m := Registry.cells)
      (CellMemory.holds_writeAll hhold _) hunwritten).trans ?_
    refine CellMemory.load_writeAll_of_mem (m := Registry.cells) hhold ?_ ?_
    · exact addressOf_of_storage hstor ▸ mem_resetWrites hvis
    · intro w hw _
      obtain ⟨-, -, rfl⟩ := exists_of_mem_resetWrites hw
      rfl
  rw [read_eq_ok hstor', read_eq_ok hstor', hafter, hone]
  cases t' <;> simp [JitScalarValue.ofBits]

def aribaRequest : ProgramSnapshot where
  program :=
    { toProgramMetadata := narrowGlobals "ariba" "host_req_gicj"
      wellFormed := by constructor <;> decide +kernel }
  sourceTypeOrigins := []

end Stasis.Recording.ProgramSnapshot
