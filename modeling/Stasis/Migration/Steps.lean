import Stasis.Migration.Rollback

namespace Stasis.Migration

open List
open Stasis.Runtime Stasis.Runtime.Program

def initialScalar (p : Program) (path : Path) (t : ScalarType) : JitScalarValue :=
  .ofBits t ((p.initialization.scalarDefaults.lookup path).elim 0 fun d => d.bits.toNat)

/-- The declared initial value of a lane's elements, or zero. -/
def initialElement (p : Program) (path field : Path) (t : ScalarType) : JitScalarValue :=
  .ofBits t ((p.initialization.collectionLaneDefaults.lookup (path, field)).elim 0
    fun d => d.bits.toNat)

inductive StateCell
  | scalar (path : Path)
  | element (path field : Path) (index : ℕ)
deriving DecidableEq

namespace StateCell

def slot : StateCell → StateSlot
  | scalar path => .scalar path
  | element path field _ => .lane path field

def At (p : Program) : StateCell → Address → ScalarType → Prop
  | scalar path, a, t => p.scalarTypeOf path = some t ∧ a = scalarAddress path t
  | element path field index, a, t =>
    (∃ capacity, p.laneTypeOf path field = some (t, capacity) ∧ index < capacity) ∧
      a = laneAddress path field index t

/-- The value of a cell: old where the old layout has the cell, else initial. -/
def Migrated (active candidate : Program) (reg : Registry) : StateCell → JitScalarValue → Prop
  | scalar path, v =>
    if ((scalarTypes active.stateLayout).lookup path).isSome then
      active.readGlobalScalar path reg = .ok v
    else v = initialScalar candidate path v.type
  | element path field index, v =>
    if ((collectionFieldLayouts active.stateLayout).lookup (path, field)).any
        (fun lane => index < lane.capacity) then
      active.readGlobalCollectionScalar path field index reg = .ok v
    else v = initialElement candidate path field v.type

variable {cell : StateCell} {t : ScalarType}

lemma At.slotKey (h : cell.At p a t) : p.slotKey cell.slot = some a.slotKey := by
  cases cell with
  | scalar path =>
    obtain ⟨ht, rfl⟩ := h
    simp [slot, Program.slotKey, ht]
  | element path field index =>
    obtain ⟨⟨capacity, ht, -⟩, rfl⟩ := h
    simp [slot, Program.slotKey, ht, laneAddress, Address.slotKey]

lemma At.unique (h : cell.At p a t) (h' : cell'.At p a t') (hslot : cell.slot = cell'.slot) :
    cell = cell' ∧ t = t' := by
  cases cell with
  | scalar path =>
    cases cell' with
    | element => cases hslot
    | scalar path' =>
      cases hslot
      exact ⟨rfl, Option.some.inj (h.1.symm.trans h'.1)⟩
  | element path field index =>
    cases cell' with
    | scalar => cases hslot
    | element path' field' index' =>
      cases hslot
      obtain ⟨⟨_, ht, -⟩, rfl⟩ := h
      obtain ⟨⟨_, ht', -⟩, ha⟩ := h'
      obtain ⟨rfl, -⟩ := Prod.mk.inj (Option.some.inj (ht.symm.trans ht'))
      obtain rfl : index = index' := by simpa [laneAddress] using ha
      exact ⟨rfl, rfl⟩

lemma At.functional (h : cell.At p a t) (h' : cell.At p a' t') : a = a' ∧ t = t' := by
  cases cell with
  | scalar path =>
    obtain ⟨ht, rfl⟩ := h
    obtain ⟨ht', rfl⟩ := h'
    obtain rfl := Option.some.inj (ht.symm.trans ht')
    exact ⟨rfl, rfl⟩
  | element path field index =>
    obtain ⟨⟨_, ht, -⟩, rfl⟩ := h
    obtain ⟨⟨_, ht', -⟩, rfl⟩ := h'
    obtain ⟨rfl, -⟩ := Prod.mk.inj (Option.some.inj (ht.symm.trans ht'))
    exact ⟨rfl, rfl⟩

lemma Migrated.unique (h : cell.Migrated active candidate reg v)
    (h' : cell.Migrated active candidate reg v') (htype : v.type = v'.type) : v = v' := by
  cases cell with
  | scalar path | element path field index =>
    simp only [Migrated] at h h'
    split_ifs at h h'
    · exact Except.ok.inj (h.symm.trans h')
    · rw [h, h', htype]

end StateCell

section Writes

variable {active candidate : Program} {reg : Registry} {captured : CapturedState}

variable (active candidate reg) in
def MigratesCell (cell : StateCell) (w : Address × ℕ) : Prop :=
  ∃ v : JitScalarValue, cell.At candidate w.1 v.type ∧ cell.Migrated active candidate reg v ∧
    w.2 = v.toBits

variable (active reg) in
structure CapturedFrom (captured : CapturedState) : Prop where
  scalar : ∀ {path v}, captured.scalars.lookup path = some v →
    active.readGlobalScalar path reg = .ok v
  lane : ∀ {path field values}, captured.collections.lookup (path, field) = some values →
    ∀ {index : ℕ} {v}, values[index]? = some v →
      active.readGlobalCollectionScalar path field index reg = .ok v

lemma writeLane_of_ok (h : writeLane p path field start values s = .ok () s') :
    (∀ v index, (v, index) ∈ values.zipIdx start →
      ∃ capacity, p.laneTypeOf path field = some (v.type, capacity) ∧ index < capacity) ∧
    s' = Registry.cells.writeAll s (laneWrites path field start values) := by
  induction values generalizing start s with
  | nil =>
    cases h
    exact ⟨fun v index hmem => by simp at hmem, rfl⟩
  | cons v values ih =>
    obtain ⟨⟨⟩, s₁, hv, hrest⟩ := bind_eq_ok
      (x := p.writeGlobalCollectionScalar path field start v)
      (f := fun _ => writeLane p path field (start + 1) values) h
    obtain ⟨htype, rfl⟩ := writeGlobalCollectionScalar_of_ok hv
    obtain ⟨htypes, rfl⟩ := ih hrest
    refine ⟨fun v' index hmem => ?_, rfl⟩
    rcases mem_cons.mp hmem with heq | hmem
    · cases heq
      exact htype
    · exact htypes v' index hmem

lemma jitScalarFromTypedDefault_ok (h : jitScalarFromTypedDefault d = .ok v) :
    v = .ofBits v.type d.bits.toNat := by
  unfold jitScalarFromTypedDefault at h
  split_ifs at h
  cases h
  simp

lemma migrationDefaultValue_scalar (h : migrationDefaultValue candidate path none t = .ok v) :
    v = initialScalar candidate path v.type := by
  dsimp only [migrationDefaultValue] at h
  split at h <;> rename_i hd
  · simpa [initialScalar, hd] using jitScalarFromTypedDefault_ok h
  · cases h
    simp [initialScalar, hd, defaultScalarValue]

lemma migrationDefaultValue_lane (h : migrationDefaultValue candidate path (some field) t = .ok v) :
    v = initialElement candidate path field v.type := by
  dsimp only [migrationDefaultValue] at h
  split at h <;> rename_i hd
  · simpa [initialElement, hd] using jitScalarFromTypedDefault_ok h
  · cases h
    simp [initialElement, hd, defaultScalarValue]

inductive PlannedStep (active candidate : StateLayout) : StateMigrationStep → Prop
  | copyScalar {path type} : path ∈ candidate.scalars.map StateScalarLayout.path →
      isMaxLengthHeader path = false → ((scalarTypes active).lookup path).isSome →
      PlannedStep active candidate (scalarStep .copy path type)
  | initializeScalar {path type} : path ∈ candidate.scalars.map StateScalarLayout.path →
      isMaxLengthHeader path = false → (scalarTypes active).lookup path = none →
      PlannedStep active candidate (scalarStep .init path type)
  | copyLane {path field type elements previous toCapacity} :
      (path, field) ∈ (collectionFieldLayouts candidate).map Prod.fst →
      (collectionFieldLayouts active).lookup (path, field) = some previous →
      elements ≤ previous.capacity →
      PlannedStep active candidate
        (collectionStep .copy path field type 0 elements previous.capacity toCapacity)
  | growLane {path field type elements previous toCapacity} :
      (path, field) ∈ (collectionFieldLayouts candidate).map Prod.fst →
      (collectionFieldLayouts active).lookup (path, field) = some previous →
      PlannedStep active candidate (collectionStep .init path field type previous.capacity
        elements previous.capacity toCapacity)
  | initializeLane {path field type elements toCapacity} :
      (path, field) ∈ (collectionFieldLayouts candidate).map Prod.fst →
      (collectionFieldLayouts active).lookup (path, field) = none →
      PlannedStep active candidate
        (collectionStep .init path field type 0 elements 0 toCapacity)
  | remove {step} : step.kind = .remove → PlannedStep active candidate step

variable {step : StateMigrationStep}

lemma plannedStep_of_mem (h : step ∈ (planStateMigration old new abiRejection).migrationSteps) :
    PlannedStep old new step := by
  unfold planStateMigration at h
  split_ifs at h
  · cases h
  simp only [changedLayoutPlan, mem_append, mem_flatMap, mem_map] at h
  rcases h with ((⟨_, ⟨entry, hentry, rfl⟩, h⟩ | h) |
    ⟨_, ⟨⟨⟨path, field⟩, lane⟩, hlane, rfl⟩, h⟩) | h
  · have hpath : entry.path ∈ new.scalars.map StateScalarLayout.path := mem_map_of_mem hentry
    unfold incomingScalar at h
    split_ifs at h with hmax
    · cases h
    · rw [Bool.not_eq_true] at hmax
      split at h <;> rename_i hlook
      · split_ifs at h
        · obtain rfl := mem_singleton.mp h
          exact .copyScalar hpath hmax (by simp [hlook])
        · cases h
      · obtain rfl := mem_singleton.mp h
        exact .initializeScalar hpath hmax hlook
  · obtain ⟨entry, -, h⟩ := mem_filterMap.mp h
    split_ifs at h
    cases h
    exact .remove rfl
  · have hkey : (path, field) ∈ (collectionFieldLayouts new).map Prod.fst :=
      mem_map_of_mem (f := Prod.fst) hlane
    unfold incomingLane at h
    dsimp only at h
    split at h <;> rename_i hlook
    · split_ifs at h
      · rcases mem_cons.mp h with rfl | h
        · exact .copyLane hkey hlook (min_le_left _ _)
        · obtain rfl := mem_singleton.mp h
          exact .growLane hkey hlook
      · obtain rfl := mem_singleton.mp h
        exact .copyLane hkey hlook (min_le_left _ _)
      · cases h
    · obtain rfl := mem_singleton.mp h
      exact .initializeLane hkey hlook
  · obtain ⟨⟨⟨path, field⟩, lane⟩, -, h⟩ := mem_filterMap.mp h
    dsimp only at h
    split_ifs at h
    cases h
    exact .remove rfl

def stepCells (step : StateMigrationStep) : List StateCell :=
  match step.kind, step.field with
  | .remove, _ => []
  | _, none => [.scalar step.path]
  | _, some field => (List.range' step.startIndex step.elements).map (.element step.path field)

/-- The writes of one step: each migrates a cell of the step, and every such
cell is written. -/
def StepWrites (active candidate : Program) (reg : Registry) (step : StateMigrationStep)
    (ws : List (Address × ℕ)) : Prop :=
  (∀ w ∈ ws, ∃ cell ∈ stepCells step, MigratesCell active candidate reg cell w) ∧
    ∀ cell ∈ stepCells step, ∃ w ∈ ws, MigratesCell active candidate reg cell w

lemma stepWrites_scalar (hcells : stepCells step = [.scalar step.path])
    (htype : candidate.scalarTypeOf step.path = some v.type)
    (hv : (StateCell.scalar step.path).Migrated active candidate reg v) :
    StepWrites active candidate reg step [(scalarAddress step.path v.type, v.toBits)] := by
  have hw : MigratesCell active candidate reg (.scalar step.path)
      (scalarAddress step.path v.type, v.toBits) := ⟨v, ⟨htype, rfl⟩, hv, rfl⟩
  refine ⟨fun w hmem => ?_, fun cell hcell => ?_⟩
  · obtain rfl := mem_singleton.mp hmem
    exact ⟨_, by simp [hcells], hw⟩
  · rw [hcells] at hcell
    obtain rfl := mem_singleton.mp hcell
    exact ⟨_, mem_singleton_self _, hw⟩

lemma stepWrites_lane (hcells : stepCells step =
      (range' step.startIndex step.elements).map (.element step.path field))
    (hlen : values.length = step.elements)
    (htype : ∀ v index, (v, index) ∈ values.zipIdx step.startIndex →
      ∃ capacity, candidate.laneTypeOf step.path field = some (v.type, capacity) ∧ index < capacity)
    (hv : ∀ v index, (v, index) ∈ values.zipIdx step.startIndex →
      (StateCell.element step.path field index).Migrated active candidate reg v) :
    StepWrites active candidate reg step (laneWrites step.path field step.startIndex values) := by
  have hw : ∀ v index, (v, index) ∈ values.zipIdx step.startIndex →
      MigratesCell active candidate reg (.element step.path field index)
        (laneAddress step.path field index v.type, v.toBits) :=
    fun v index hmem => ⟨v, ⟨htype v index hmem, rfl⟩, hv v index hmem, rfl⟩
  refine ⟨fun w hmem => ?_, fun cell hcell => ?_⟩
  · obtain ⟨⟨v, index⟩, hv, rfl⟩ := mem_map.mp hmem
    refine ⟨_, ?_, hw v index hv⟩
    rw [hcells]
    apply mem_map_of_mem
    obtain ⟨hge, hget⟩ := List.mk_mem_zipIdx_iff_le_and_getElem?_sub.mp hv
    have hlt := (List.getElem?_eq_some_iff.mp hget).1
    exact List.mem_range'_1.mpr ⟨hge, by omega⟩
  · rw [hcells] at hcell
    obtain ⟨index, hindex, rfl⟩ := mem_map.mp hcell
    rw [List.mem_range'_1] at hindex
    have hlt : index - step.startIndex < values.length := by omega
    have hmem : (values[index - step.startIndex], index) ∈ values.zipIdx step.startIndex := by
      rw [List.mk_mem_zipIdx_iff_le_and_getElem?_sub]
      exact ⟨hindex.1, List.getElem?_eq_getElem hlt⟩
    exact ⟨_, mem_map.mpr ⟨_, hmem, rfl⟩, hw _ _ hmem⟩

lemma applyStep_of_ok (hcap : CapturedFrom active reg captured)
    (hstep : PlannedStep active.stateLayout candidate.stateLayout step)
    (h : applyStep candidate captured step s = .ok () s') :
    ∃ ws, StepWrites active candidate reg step ws ∧ s' = Registry.cells.writeAll s ws := by
  cases hstep with
  | @copyScalar path type hpath hmax hact =>
    simp only [applyStep, scalarStep] at h
    cases hv : captured.scalars.lookup path with
    | none => simp [hv] at h; cases h
    | some v =>
      simp only [hv] at h
      obtain ⟨htype, rfl⟩ := writeGlobalScalar_of_ok h
      refine ⟨_, stepWrites_scalar rfl htype ?_, rfl⟩
      simp [StateCell.Migrated, scalarStep, hact, hcap.scalar hv]
  | @initializeScalar path type hpath hmax hact =>
    simp only [applyStep, scalarStep] at h
    cases hv : migrationDefaultValue candidate path none type with
    | error e => simp [hv] at h; cases h
    | ok v =>
      simp only [hv] at h
      obtain ⟨htype, rfl⟩ := writeGlobalScalar_of_ok h
      refine ⟨_, stepWrites_scalar rfl htype ?_, rfl⟩
      simpa [StateCell.Migrated, scalarStep, hact] using migrationDefaultValue_scalar hv
  | @copyLane path field type elements previous toCapacity hkey hprev hle =>
    simp only [applyStep, collectionStep] at h
    rcases hv : captured.collections.lookup (path, field) with _ | values
    · simp [hv] at h; cases h
    simp only [hv] at h
    by_cases hlen : values.length = elements
    swap
    · rw [writeCopiedLane, if_pos hlen] at h
      cases h
    rw [writeCopiedLane, if_neg (not_not.mpr hlen)] at h
    obtain ⟨htype, rfl⟩ := writeLane_of_ok h
    refine ⟨_, stepWrites_lane rfl hlen htype ?_, rfl⟩
    intro v index hmem
    have hget : values[index]? = some v := by simpa using List.mem_zipIdx_iff_getElem?.mp hmem
    have hlt := (List.getElem?_eq_some_iff.mp hget).1
    have hin : index < previous.capacity := by omega
    simpa [StateCell.Migrated, collectionStep, hprev, hin] using hcap.lane hv hget
  | @growLane path field type elements previous toCapacity hkey hprev =>
    simp only [applyStep, collectionStep] at h
    rcases hv : migrationDefaultValue candidate path (some field) type with _ | _
    · simp [hv] at h; cases h
    simp only [hv] at h
    obtain ⟨htype, rfl⟩ := writeLane_of_ok h
    refine ⟨_, stepWrites_lane rfl (by simp [collectionStep]) htype ?_, rfl⟩
    intro v' index hmem
    rw [List.mk_mem_zipIdx_iff_le_and_getElem?_sub] at hmem
    obtain ⟨hge, hget⟩ := hmem
    obtain rfl := eq_of_mem_replicate (mem_of_getElem? hget)
    have hout : ¬index < previous.capacity := Nat.not_lt.mpr hge
    simpa [StateCell.Migrated, collectionStep, hprev, hout] using
      migrationDefaultValue_lane hv
  | @initializeLane path field type elements toCapacity hkey hprev =>
    simp only [applyStep, collectionStep] at h
    cases hv : migrationDefaultValue candidate path (some field) type with
    | error e => simp [hv] at h; cases h
    | ok v =>
      simp only [hv] at h
      obtain ⟨htype, rfl⟩ := writeLane_of_ok h
      refine ⟨_, stepWrites_lane rfl (by simp [collectionStep]) htype ?_, rfl⟩
      intro v' index hmem
      rw [List.mk_mem_zipIdx_iff_le_and_getElem?_sub] at hmem
      obtain rfl := eq_of_mem_replicate (mem_of_getElem? hmem.2)
      simpa [StateCell.Migrated, collectionStep, hprev] using migrationDefaultValue_lane hv
  | remove hkind =>
    refine ⟨[], ⟨by simp, ?_⟩, ?_⟩
    · simp [stepCells, hkind]
    · simp only [applyStep, hkind] at h
      cases h
      rfl

lemma slot_mem_of_planned (hstep : PlannedStep active.stateLayout candidate.stateLayout step)
    (hcell : cell ∈ stepCells step) :
    cell.slot ∈ candidate.slots ∧ ∀ path, cell = .scalar path → isMaxLengthHeader path = false := by
  have hsca : ∀ {path : Path}, path ∈ candidate.stateLayout.scalars.map StateScalarLayout.path →
      .scalar path ∈ candidate.slots := by
    intro path hpath
    rw [mem_slots_scalar]
    simpa [scalarSources] using hpath
  have hlane : ∀ {path field : Path},
      (path, field) ∈ (collectionFieldLayouts candidate.stateLayout).map Prod.fst →
      .lane path field ∈ candidate.slots := by
    intro path field hkey
    rw [mem_slots_lane_iff]
    simpa [laneSources, collectionFieldLayouts, map_flatMap] using hkey
  cases hstep with
  | copyScalar hpath hmax _ | initializeScalar hpath hmax _ =>
    obtain rfl := mem_singleton.mp hcell
    refine ⟨hsca hpath, ?_⟩
    rintro _ ⟨⟩
    exact hmax
  | copyLane hkey _ _ | growLane hkey _ | initializeLane hkey _ =>
    obtain ⟨index, -, rfl⟩ := mem_map.mp hcell
    exact ⟨hlane hkey, by rintro _ ⟨⟩⟩
  | remove hkind => simp [stepCells, hkind] at hcell

/-- All steps of a plan together: the cells of the steps get their migrated
values, other backed cells of the program keep theirs. -/
lemma applySteps_of_ok (hdist : candidate.SlotsDistinct) (hcap : CapturedFrom active reg captured)
    {steps : List StateMigrationStep}
    (hsteps : ∀ step ∈ steps, PlannedStep active.stateLayout candidate.stateLayout step)
    (h : steps.forM (applyStep candidate captured) r = .ok () r')
    (hslot : cell.slot ∈ candidate.slots) (hat : cell.At candidate a t)
    (hbac : r.Backed t.storageKind a) :
    r'.Backed t.storageKind a ∧
    ((∃ step ∈ steps, cell ∈ stepCells step) → ∃ v : JitScalarValue, v.type = t ∧
      cell.Migrated active candidate reg v ∧ r'.load a = v.toBits) ∧
    ((∀ step ∈ steps, cell ∉ stepCells step) → r'.load a = r.load a) := by
  obtain ⟨wss, hall, rfl⟩ := CellMemory.forM_ok_writeAll (m := Registry.cells)
    (fun step hmem s s' hrun => applyStep_of_ok hcap (hsteps step hmem) hrun) h
  -- a write to this address migrates this very cell
  have hsame : ∀ w ∈ wss.flatten, w.1 = a → ∃ step ∈ steps, cell ∈ stepCells step ∧
      MigratesCell active candidate reg cell w := by
    intro w hw hadd
    obtain ⟨ws, hws, hmem⟩ := mem_flatten.mp hw
    obtain ⟨step, hstep, hspec⟩ := exists_of_forall₂_right hall hws
    obtain ⟨cell', hcell', v, hat', hv⟩ := hspec.1 w hmem
    obtain ⟨hslot', -⟩ := slot_mem_of_planned (hsteps step hstep) hcell'
    subst hadd
    have heq : cell.slot = cell'.slot := hdist _ hslot _ hslot' (by simp [hat.slotKey])
      (hat.slotKey.trans hat'.slotKey.symm)
    obtain ⟨rfl, -⟩ := hat.unique hat' heq
    exact ⟨step, hstep, hcell', v, hat', hv⟩
  refine ⟨hbac.writeAll _, ?_, ?_⟩
  · rintro ⟨step, hstep, hcell⟩
    obtain ⟨ws, hws, hspec⟩ := exists_of_forall₂_left hall hstep
    obtain ⟨w, hw, v, hat', hv, hbits⟩ := hspec.2 cell hcell
    obtain ⟨hadd, rfl⟩ := hat'.functional hat
    refine ⟨v, rfl, hv, ?_⟩
    apply CellMemory.load_writeAll_of_mem (m := Registry.cells)
    · exact ⟨_, hbac, v.toBits_lt⟩
    · rw [← hadd, ← hbits]
      exact mem_flatten_of_mem hws hw
    · intro w' hw' haddress'
      obtain ⟨-, -, -, v', hat'', hv', hbits'⟩ := hsame w' hw' haddress'
      rw [hbits', hv'.unique hv (hat''.functional hat).2]
  · intro hnone
    apply CellMemory.load_writeAll_of_forall_ne (m := Registry.cells) (v := 0)
    · exact ⟨_, hbac, Nat.two_pow_pos _⟩
    · intro w hw hadd
      obtain ⟨step, hstep, hcell, -⟩ := hsame w hw hadd
      exact hnone step hstep hcell

end Writes

section Coverage

variable {old new : StateLayout} {abiRejection : Option String} (hne : old ≠ new)
include hne

lemma rejections_of_compatible
    (h : (planStateMigration old new abiRejection).stateLayoutCompatible = true) :
    (∀ entry ∈ new.scalars, (incomingScalar old entry).2 = []) ∧
      ∀ lane ∈ collectionFieldLayouts new, (incomingLane old lane).2 = [] := by
  simp only [StateMigrationPreview.stateLayoutCompatible, planStateMigration, changedLayoutPlan,
    if_neg hne,
    decide_eq_true_eq, append_eq_nil_iff, flatMap_eq_nil_iff, mem_map,
    forall_exists_index, and_imp, forall_apply_eq_imp_iff₂] at h
  exact ⟨h.1.1.1.2, h.1.1.2⟩

lemma mem_steps_scalar (hentry : entry ∈ new.scalars) (h : step ∈ (incomingScalar old entry).1) :
    step ∈ (planStateMigration old new abiRejection).migrationSteps := by
  simp only [planStateMigration, changedLayoutPlan, if_neg hne, mem_append, mem_flatMap]
  exact .inl (.inl (.inl ⟨_, mem_map_of_mem hentry, h⟩))

lemma mem_steps_lane (hlane : lane ∈ collectionFieldLayouts new)
    (h : step ∈ (incomingLane old lane).1) :
    step ∈ (planStateMigration old new abiRejection).migrationSteps := by
  simp only [planStateMigration, changedLayoutPlan, if_neg hne, mem_append, mem_flatMap]
  exact .inl (.inr ⟨_, mem_map_of_mem hlane, h⟩)

variable (hcompat : (planStateMigration old new abiRejection).stateLayoutCompatible = true)
include hcompat

lemma covered_scalar (hentry : entry ∈ new.scalars) (hmax : isMaxLengthHeader entry.path = false) :
    ∃ step ∈ (planStateMigration old new abiRejection).migrationSteps,
      .scalar entry.path ∈ stepCells step := by
  have hrej := (rejections_of_compatible hne hcompat).1 entry hentry
  cases hlook : (scalarTypes old).lookup entry.path with
  | none =>
    refine ⟨scalarStep .init entry.path entry.storageType, mem_steps_scalar hne hentry ?_, ?_⟩
    · simp [incomingScalar, hmax, hlook]
    · simp [stepCells, scalarStep]
  | some previous =>
    have hsame : previous.1 = entry.typeName ∧ previous.2 = entry.storageType := by
      by_contra hdiff
      simp [incomingScalar, hmax, hlook, hdiff] at hrej
    refine ⟨scalarStep .copy entry.path entry.storageType, mem_steps_scalar hne hentry ?_, ?_⟩
    · simp [incomingScalar, hmax, hlook, hsame]
    · simp [stepCells, scalarStep]

lemma covered_element (hlane : ((path, field), lane) ∈ collectionFieldLayouts new)
    (hindex : index < lane.capacity) :
    ∃ step ∈ (planStateMigration old new abiRejection).migrationSteps,
      .element path field index ∈ stepCells step := by
  have hrej := (rejections_of_compatible hne hcompat).2 _ hlane
  cases hlook : (collectionFieldLayouts old).lookup (path, field) with
  | none =>
    refine ⟨collectionStep .init path field lane.storageType 0 lane.capacity 0 lane.capacity,
      mem_steps_lane hne hlane ?_, ?_⟩
    · simp [incomingLane, hlook]
    · simpa [stepCells, collectionStep] using hindex
  | some previous =>
    have hsame : previous.typeName = lane.typeName ∧ previous.storageType = lane.storageType := by
      by_contra hdiff
      simp [incomingLane, hlook, hdiff] at hrej
    by_cases hold : index < previous.capacity
    · refine ⟨collectionStep .copy path field lane.storageType 0
        (min previous.capacity lane.capacity) previous.capacity lane.capacity,
        mem_steps_lane hne hlane ?_, ?_⟩
      · simp [incomingLane, hlook, hsame]
      · simp only [stepCells, collectionStep, mem_map, List.mem_range'_1]
        exact ⟨index, by omega, rfl⟩
    · have hgrows : previous.capacity < lane.capacity := by omega
      refine ⟨collectionStep .init path field lane.storageType previous.capacity
        (lane.capacity - previous.capacity) previous.capacity lane.capacity,
        mem_steps_lane hne hlane ?_, ?_⟩
      · simp [incomingLane, hlook, hsame, hgrows]
      · simp only [stepCells, collectionStep, mem_map, List.mem_range'_1]
        exact ⟨index, by omega, rfl⟩

end Coverage

section Captured

variable {active candidate : Program} {reg : Registry} {captured : CapturedState}

lemma capturedFrom_of_ok (hsteps : ∀ step ∈ preview.migrationSteps,
      PlannedStep active.stateLayout candidate.stateLayout step)
    (h : captureMigrationState active preview maxBytes reg = .ok captured) :
    CapturedFrom active reg captured := by
  unfold captureMigrationState at h
  dsimp only at h
  split_ifs at h
  · cases h
  obtain ⟨scalars, hsca, h⟩ := bind_ok_iff.mp h
  obtain ⟨collections, hcol, h⟩ := bind_ok_iff.mp h
  cases h
  constructor
  · intro path v hv
    obtain ⟨step, -, hread⟩ := exists_of_mapM_ok hsca (mem_of_lookup hv)
    obtain ⟨v', hq, heq⟩ := map_ok_iff.mp hread
    cases heq
    exact hq
  · intro path field values hv index v hget
    obtain ⟨⟨step, field'⟩, hmem, hread⟩ := exists_of_mapM_ok hcol (mem_of_lookup hv)
    simp only [mem_filterMap, mem_filter, decide_eq_true_eq, Option.map_eq_some_iff] at hmem
    obtain ⟨step', ⟨hstep, hkind⟩, f, hfield, heq⟩ := hmem
    obtain ⟨rfl, rfl⟩ := Prod.mk.inj heq
    have hstart : step'.startIndex = 0 := by
      cases hsteps step' hstep with
      | copyLane => rfl
      | copyScalar => cases hfield
      | initializeScalar | growLane | initializeLane => cases hkind
      | remove hremove => exact absurd (hkind.symm.trans hremove) (by decide)
    rw [hstart] at hread
    obtain ⟨values', hq, heq⟩ := map_ok_iff.mp hread
    cases heq
    rw [← range_eq_range'] at hq
    exact (readLane_ok hq).2 index v hget

end Captured

end Stasis.Migration
