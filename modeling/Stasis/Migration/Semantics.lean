import Stasis.Migration.TextShrink

namespace Stasis.Migration

open StateCell
open List
open Stasis.Runtime Stasis.Runtime.Program

def planBetween (active candidate : Program) : StateMigrationPreview :=
  planStateMigration active.stateLayout candidate.stateLayout none

/-- The capacity of the fixed text whose length header a path is. -/
def textHeaderCapacity (p : Program) (path : Path) : Option ℕ :=
  if p.globalPathTypes.lookup path = some (.scalar .i32) ∧
      path.getLast?.any (lengthSuffixes.contains ·) = true then
    p.globalFixedTextCapacity path.dropLast
  else none

/-- The value a header of the given old length should get: only texts are clamped. -/
def headerValue (p : Program) (path : Path) (length : ℤ) : ℤ :=
  match textHeaderCapacity p path with
  | some capacity => clampLength capacity length
  | none => length

def slotExtent (p : Program) : StateSlot → Option (ScalarType × ℕ)
  | .scalar path => (p.scalarTypeOf path).map fun t => (t, 1)
  | .lane path field => p.laneTypeOf path field

/-- When a migration reaches every slot: no two slots share storage, programs of one
layout read it alike, and only real `max_length` headers are named so. -/
structure MigrationSafe (active candidate : Program) : Prop where
  active_bound : active.boundKeys.Nodup
  bound : candidate.boundKeys.Nodup
  distinct : candidate.SlotsDistinct
  alike : active.stateLayout = candidate.stateLayout → ∀ s ∈ candidate.slots,
    slotExtent candidate s ≠ none → slotExtent active s = slotExtent candidate s
  max_length : ∀ scalar ∈ candidate.stateLayout.scalars, isMaxLengthHeader scalar.path = true →
    scalar.path ∈ candidate.maxLengthHeaders.map Prod.fst

/-- The old value of a header, or the initial one if the old layout has none. -/
def carriedHeader (active candidate : Program) (reg : Registry) (path : Path) :
    Option (BitVec 32) :=
  let value := if ((scalarTypes active.stateLayout).lookup path).isSome then
      (active.readGlobalScalar path reg).toOption
    else some (initialScalar candidate path .i32)
  match value with
  | some (.i32 v) => some v
  | _ => none

lemma carriedHeader_eq_some (h : (scalar path).Migrated active candidate reg (.i32 v)) :
    carriedHeader active candidate reg path = some v := by
  simp only [StateCell.Migrated, JitScalarValue.type] at h
  unfold carriedHeader
  split_ifs at h ⊢
  · simp [h, Except.toOption]
  · simp [← h]

lemma migrated_of_carriedHeader (h : carriedHeader active candidate reg path = some v) :
    (scalar path).Migrated active candidate reg (.i32 v) := by
  unfold carriedHeader at h
  simp only [StateCell.Migrated, JitScalarValue.type]
  split_ifs at h ⊢
  · cases hread : active.readGlobalScalar path reg with
    | error e => simp [hread, Except.toOption] at h
    | ok value => cases value <;> simp_all [Except.toOption]
  · cases hvalue : initialScalar candidate path .i32 <;> simp_all

def carriedLength (active candidate : Program) (reg : Registry) (path : Path) : ℤ :=
  let header := fun suffix =>
    if candidate.globalPathTypes.lookup (path ++ [suffix]) = some (.scalar .i32) then
      (carriedHeader active candidate reg (path ++ [suffix])).map BitVec.toInt
    else none
  ((header "length").or (header "byte_length")).getD 0

/-- The bytes a UTF-8 text is cut to are whole characters, and its headers count them. -/
def Utf8Agrees (active candidate : Program) (reg : Registry) (path : Path) (capacity : ℕ) :
    Prop :=
  ∃ (bytes : List UInt8) (chars : ℕ),
    (bytes.length : ℤ) = clampLength capacity (carriedLength active candidate reg path) ∧
    (∀ (index : ℕ) (byte : UInt8), bytes[index]? = some byte →
      (element path [] index).Migrated active candidate reg (.u8 byte.toBitVec)) ∧
    utf8ValidPrefix bytes.length bytes = (bytes.length, chars) ∧
    ∀ suffix ∈ lengthSuffixes,
      candidate.globalPathTypes.lookup (path ++ [suffix]) = some (.scalar .i32) →
      ∀ v ∈ carriedHeader active candidate reg (path ++ [suffix]),
        headerValue candidate (path ++ [suffix]) v.toInt =
          if suffix = "char_length" then (chars : ℤ) else bytes.length

/-- The clamps that are made leave every header at the value it should have: lengths of
arrays, which are kept, are in the range of every clamp of their path, and lengths of texts
that are not clamped are in the range of their text.  Compiled code reads a lane of `i32` or
floats through a slot that prefers an older scalar of its hash, so there is none. -/
structure HeadersAgree (active candidate : Program) (reg : Registry) : Prop where
  kept : ∀ scalar ∈ candidate.stateLayout.scalars,
    ∀ capacity ∈ textHeaderCapacity candidate scalar.path,
      (∀ e ∈ shrunken (planBetween active candidate), e.1 ≠ scalar.path.dropLast) →
        ∀ v ∈ carriedHeader active candidate reg scalar.path,
          clampLength capacity v.toInt = v.toInt
  clamped : ∀ e ∈ shrunken (planBetween active candidate), isUtf8Fixed candidate e.1 = false →
    ∀ suffix ∈ lengthSuffixes,
      candidate.globalPathTypes.lookup (e.1 ++ [suffix]) = some (.scalar .i32) →
      ∀ v ∈ carriedHeader active candidate reg (e.1 ++ [suffix]),
        clampLength e.2 v.toInt = headerValue candidate (e.1 ++ [suffix]) v.toInt
  utf8 : ∀ e ∈ shrunken (planBetween active candidate), isUtf8Fixed candidate e.1 = true →
    Utf8Agrees active candidate reg e.1 e.2
  direct : ∀ lane ∈ candidate.boundLanes, lane.len.isSome = true → lane.key.2 = 0 →
    lane.kind = .u8 ∨ lane.kind = .u16 ∨ reg.scalars lane.kind.table lane.key.1 = none

structure MigratedState (active candidate : Program) (reg final : Registry) : Prop where
  scalar : ∀ scalar ∈ candidate.stateLayout.scalars, (candidate.scalarTypeOf scalar.path).isSome →
    scalar.path ∉ candidate.maxLengthHeaders.map Prod.fst →
    textHeaderCapacity candidate scalar.path = none →
    ∃ v, candidate.readGlobalScalar scalar.path final = .ok v ∧
      if active.stateLayout.scalars.any fun old =>
          old.path = scalar.path ∧ old.storageType = scalar.storageType then
        active.readGlobalScalar scalar.path reg = .ok v
      else v = initialScalar candidate scalar.path v.type
  element : ∀ collection ∈ candidate.stateLayout.collections, ∀ field ∈ collection.fields,
    (candidate.laneTypeOf collection.path field.field).isSome →
    ∀ index < collection.fieldElementCount field,
    ∃ v, candidate.readGlobalCollectionScalar collection.path field.field index final = .ok v ∧
      if (collectionFieldLayouts active.stateLayout).any fun old =>
          old.1 = (collection.path, field.field) ∧ old.2.storageType = field.storageType ∧
            index < old.2.capacity then
        active.readGlobalCollectionScalar collection.path field.field index reg = .ok v
      else v = initialElement candidate collection.path field.field v.type
  length : ∀ scalar ∈ candidate.stateLayout.scalars,
    ∀ capacity ∈ textHeaderCapacity candidate scalar.path,
      ∃ v ∈ carriedHeader active candidate reg scalar.path,
        candidate.readGlobalScalar scalar.path final =
          .ok (.i32 (.ofInt 32 (clampLength capacity v.toInt)))
  maxLength : ∀ header ∈ candidate.maxLengthHeaders,
    candidate.readGlobalScalar header.1 final = .ok (.i32 (.ofNat 32 header.2))

variable {active candidate : Program} {reg final : Registry}

variable {T : Type} {preview : StateMigrationPreview} {apply : Registry → T × Registry} {result : T}
  {p : Program} {cell : StateCell} {a : Address} {t : ScalarType}

variable {hookMayMutateState : Bool} {accepted : T → Bool} {header : Path × ℕ} {r' : Registry}
  {field : Path} {cut : List (Path × ℕ)}

lemma activate_ok
    (h : activateCandidateTransactionally (some active) candidate preview hookMayMutateState apply
      accepted reg = .ok result final)
    (hacc : accepted result = true) :
    preview.stateLayoutCompatible = true ∧ ∃ migrationState,
      captureForMigration (some active) preview reg = .ok migrationState ∧
      transaction candidate preview migrationState apply reg = .ok result final := by
  unfold activateCandidateTransactionally at h
  split_ifs at h with hcompat
  refine ⟨by simpa using hcompat, ?_⟩
  split at h
  · cases h
  split at h
  · cases h
  split at h
  · cases h
  rename_i runtimeState _ _ migrationState hmig
  refine ⟨migrationState, hmig, ?_⟩
  cases hrun : transaction candidate preview migrationState apply reg with
  | error e r =>
    cases hback : rollbackRuntime (some active) candidate runtimeState r <;> simp [hrun, hback] at h
  | ok result' r =>
    simp only [hrun] at h
    split_ifs at h with hyes
    · exact h
    · split at h <;> cases h
      exact absurd hacc hyes

lemma transaction_ok_unchanged (hchg : preview.layoutChanged = false)
    (h : transaction candidate preview none apply reg = .ok result final) :
    ∃ r, candidate.activateStagedRuntime reg = .ok () r ∧ final = (apply r).2 := by
  unfold transaction at h
  simp only [hchg, Bool.false_eq_true, if_false] at h
  obtain ⟨⟨⟩, r, hact, h⟩ := bind_eq_ok h
  cases h
  exact ⟨r, hact, rfl⟩

lemma transaction_ok_changed (hchg : preview.layoutChanged = true)
    (h : transaction candidate preview (some captured) apply reg = .ok result final) :
    ∃ r₀ r₁ r₂ r₃, candidate.activateStagedRuntime r₀ = .ok () r₁ ∧
      preview.migrationSteps.forM (applyStep candidate captured) r₁ = .ok () r₂ ∧
      ((shrunken preview).forM fun (path, capacity) =>
        normalizeCollectionLengths candidate path capacity : RuntimeM Unit) r₂ = .ok () r₃ ∧
      final = (apply r₃).2 := by
  unfold transaction at h
  simp only [hchg, if_true] at h
  obtain ⟨⟨⟩, r₀, -, h⟩ := bind_eq_ok h
  obtain ⟨⟨⟩, r₁, hact, h⟩ := bind_eq_ok h
  obtain ⟨⟨⟩, r₃, hmig, h⟩ := bind_eq_ok h
  obtain ⟨⟨⟩, r₂, hsteps, hclamp⟩ := bind_eq_ok hmig
  cases h
  exact ⟨r₀, r₁, r₂, r₃, hact, hsteps, hclamp, rfl⟩

lemma StateCell.At.backed (hat : cell.At p a t) (hslot : cell.slot ∈ p.slots) (h : p.Installed r) :
    r.Backed t.storageKind a := by
  cases cell with
  | scalar path =>
    obtain ⟨ht, rfl⟩ := hat
    exact h.scalar ht
  | element path field index =>
    obtain ⟨⟨capacity, ht, hlt⟩, rfl⟩ := hat
    exact h.lane hslot ht hlt

/-- Every scalar and element holds its migrated value, every `max_length` header
the declared length. -/
structure Carried (active candidate : Program) (reg r : Registry) : Prop where
  backed : ∀ {cell : StateCell} {a t}, cell.slot ∈ candidate.slots → cell.At candidate a t →
    r.Backed t.storageKind a
  migrated : ∀ {cell : StateCell} {a t}, cell.slot ∈ candidate.slots → cell.At candidate a t →
    (∀ header ∈ candidate.maxLengthHeaders, cell ≠ .scalar header.1) →
      cell.Migrated active candidate reg (.ofBits t (r.load a))
  maxLength : ∀ header ∈ candidate.maxLengthHeaders,
    r.load (scalarAddress header.1 .i32) = header.2 % 2 ^ 32

lemma isMaxLengthHeader_of_mem (h : header ∈ p.maxLengthHeaders) :
    isMaxLengthHeader header.1 = true := by
  obtain ⟨entry, hentry, heq⟩ := mem_filterMap.mp h
  have hne := p.wellFormed.globals_nonempty entry hentry
  have hpath : header.1 = entry.1 ++ ["max_length"] := by
    split at heq <;> cases heq <;> rfl
  have hlen := length_pos_iff.mpr hne
  simp [isMaxLengthHeader, hpath]
  omega

lemma maxLengthHeader_ne (h : header ∈ p.maxLengthHeaders) (hsuf : suffix ∈ lengthSuffixes) :
    header.1 ≠ path ++ [suffix] := by
  intro heq
  have hmax := isMaxLengthHeader_of_mem h
  rw [heq] at hmax
  simp [isMaxLengthHeader, lengthSuffixes] at hmax hsuf
  simp [hmax] at hsuf

lemma header_at (h : p.globalPathTypes.lookup path = some (.scalar .i32)) :
    (scalar path).At p (scalarAddress path .i32) .i32 :=
  ⟨scalarTypeOf_i32 h, rfl⟩

section

variable (hdist : candidate.SlotsDistinct) (hbound : candidate.boundKeys.Nodup)
  (h : candidate.activateStagedRuntime r = .ok () r')
include hdist hbound h

lemma activate_seeds :
    candidate.Installed r' ∧ ∀ header ∈ candidate.maxLengthHeaders,
      r'.load (scalarAddress header.1 .i32) = header.2 % 2 ^ 32 := by
  have hact : candidate.Activates := ⟨r, by simp [h, succeeded]⟩
  obtain ⟨bound, hlanes, hrun⟩ := hact.exists_bound
  cases h.symm.trans (hrun r)
  have hinst := installed_provisionAll hlanes hbound r
  refine ⟨hinst.seeded, fun header hhead => ?_⟩
  have hi32 := candidate.wellFormed.max_length_global header hhead
  have hbac := hinst.scalar (scalarTypeOf_i32 hi32)
  rw [load_replaceStringLiterals (backed_seedMaxLengthHeaders hbac)]
  exact load_seeded_header hdist hhead hbac

lemma activate_keeps (hslot : cell.slot ∈ candidate.slots) (hat : cell.At candidate a t)
    (hbac : r.Backed t.storageKind a)
    (hhead : ∀ header ∈ candidate.maxLengthHeaders, cell ≠ .scalar header.1) :
    r'.load a = r.load a := by
  have hact : candidate.Activates := ⟨r, by simp [h, succeeded]⟩
  obtain ⟨bound, hlanes, hrun⟩ := hact.exists_bound
  cases h.symm.trans (hrun r)
  obtain ⟨lane, hlane, hkind, hcov⟩ : ∃ lane, .ok lane ∈ candidate.storageLanes ∧
      lane.kind = t.storageKind ∧ lane.Covers a := by
    cases cell with
    | scalar path =>
      obtain ⟨ht, rfl⟩ := hat
      exact exists_covers_scalar ht
    | element path field index =>
      obtain ⟨⟨capacity, ht, hlt⟩, rfl⟩ := hat
      exact exists_covers_lane (isOk_storageLanes hlanes) hslot ht hlt
  obtain ⟨hbac', hload⟩ := StorageLane.provisionAll_keeps hbac fun b hb hkey => by
    obtain rfl := eq_of_covers hlanes hbound hlane hcov hb hkey
    exact ⟨hcov, hkind⟩
  rw [load_replaceStringLiterals (backed_seedMaxLengthHeaders hbac'),
    load_seeded_of_ne hdist hslot hat.slotKey ?_ hbac', hload]
  intro header hmem heq
  cases cell with
  | scalar path =>
    cases heq
    exact hhead header hmem rfl
  | element => cases heq

end

lemma mem_slots_lane_layouts :
    .lane path field ∈ p.slots ↔
      (path, field) ∈ (collectionFieldLayouts p.stateLayout).map Prod.fst := by
  rw [mem_slots_lane_iff]
  simp [laneSources, collectionFieldLayouts, map_flatMap]

lemma lane_capacity (hlane : ((path, field), lane) ∈ collectionFieldLayouts p.stateLayout)
    (ht : p.laneTypeOf path field = some (t, capacity)) :
    lane.capacity = capacity := by
  obtain ⟨collection, hcoll, hfield⟩ := mem_flatMap.mp hlane
  obtain ⟨f, hf, heq⟩ := mem_map.mp hfield
  cases heq
  exact (laneTypeOf_origin (laneOrigin_of_mem hcoll hf) ht).1.symm

lemma covered_cell (hne : active.stateLayout ≠ candidate.stateLayout)
    (hcompat : (planBetween active candidate).stateLayoutCompatible = true)
    (hslot : cell.slot ∈ candidate.slots) (hat : cell.At candidate a t)
    (hmax : ∀ path, cell = .scalar path → isMaxLengthHeader path = false) :
    ∃ step ∈ (planBetween active candidate).migrationSteps, cell ∈ stepCells step := by
  cases cell with
  | scalar path =>
    have hpath : path ∈ candidate.stateLayout.scalars.map StateScalarLayout.path := by
      simpa [slots, slot] using hslot
    obtain ⟨entry, hentry, rfl⟩ := mem_map.mp hpath
    exact covered_scalar hne hcompat hentry (hmax _ rfl)
  | element path field index =>
    obtain ⟨⟨capacity, ht, hlt⟩, -⟩ := hat
    obtain ⟨⟨_, lane⟩, hlane, heq⟩ := mem_map.mp
      (mem_slots_lane_layouts.mp hslot)
    cases heq
    exact covered_element hne hcompat hlane (lane_capacity hlane ht ▸ hlt)

lemma carried_changed (hsafe : MigrationSafe active candidate)
    (hne : active.stateLayout ≠ candidate.stateLayout)
    (hcompat : (planBetween active candidate).stateLayoutCompatible = true)
    (hcap : CapturedFrom active reg captured)
    (hact : candidate.activateStagedRuntime r₀ = .ok () r₁)
    (hsteps : (planBetween active candidate).migrationSteps.forM (applyStep candidate captured) r₁ =
      .ok () r₂) :
    Carried active candidate reg r₂ := by
  have hpla : ∀ step ∈ (planBetween active candidate).migrationSteps,
      PlannedStep active.stateLayout candidate.stateLayout step := fun _ => plannedStep_of_mem
  obtain ⟨hinst, hseeds⟩ := activate_seeds hsafe.distinct hsafe.bound hact
  constructor
  · intro cell a t hslot hat
    exact (applySteps_of_ok hsafe.distinct hcap hpla hsteps hslot hat (hat.backed hslot hinst)).1
  · intro cell a t hslot hat hhead
    obtain ⟨-, hcov, -⟩ := applySteps_of_ok hsafe.distinct hcap hpla hsteps hslot hat
      (hat.backed hslot hinst)
    have hmax : ∀ path, cell = .scalar path → isMaxLengthHeader path = false := by
      rintro path rfl
      have hpath : path ∈ candidate.stateLayout.scalars.map StateScalarLayout.path := by
        simpa [slots, slot] using hslot
      obtain ⟨entry, hentry, rfl⟩ := mem_map.mp hpath
      by_contra hmax
      obtain ⟨header, hmem, heq⟩ := mem_map.mp (hsafe.max_length entry hentry (by simpa using hmax))
      exact hhead header hmem (by rw [heq])
    obtain ⟨v, rfl, hv, hload⟩ := hcov (covered_cell hne hcompat hslot hat hmax)
    rwa [hload, JitScalarValue.ofBits_toBits]
  · intro header hhead
    -- no step is planned for a `max_length` header
    have hi32 := candidate.wellFormed.max_length_global header hhead
    have hslot : (scalar header.1).slot ∈ candidate.slots := header_mem_slots hi32
    obtain ⟨-, -, hkept⟩ := applySteps_of_ok hsafe.distinct hcap hpla hsteps
      hslot (header_at hi32) ((header_at hi32).backed hslot hinst)
    rw [hkept, hseeds header hhead]
    intro step hstep hcell
    have hnot := (slot_mem_of_planned (hpla step hstep) hcell).2 _ rfl
    exact absurd (isMaxLengthHeader_of_mem hhead) (by simp [hnot])

lemma carried_unchanged (hsafe : MigrationSafe active candidate)
    (heq : active.stateLayout = candidate.stateLayout) (hinst : active.Installed reg)
    (hact : candidate.activateStagedRuntime reg = .ok () r) :
    Carried active candidate reg r := by
  obtain ⟨hinst', hseeds⟩ := activate_seeds hsafe.distinct hsafe.bound hact
  have hslots : active.slots = candidate.slots := by simp only [slots, heq]
  refine ⟨fun hslot hat => hat.backed hslot hinst', ?_, hseeds⟩
  intro cell a t hslot hat hhead
  have halike := hsafe.alike heq cell.slot hslot
  have hacti : cell.At active a t := by
    cases cell with
    | scalar path =>
      obtain ⟨ht, rfl⟩ := hat
      have hsome := halike (by simp [slotExtent, slot, ht])
      exact ⟨by simpa [slotExtent, slot, ht] using hsome, rfl⟩
    | element path field index =>
      obtain ⟨⟨capacity, ht, hlt⟩, rfl⟩ := hat
      have hsome := halike (by simp [slotExtent, slot, ht])
      exact ⟨⟨capacity, hsome.trans ht, hlt⟩, rfl⟩
  have hbac := hacti.backed (hslots ▸ hslot) hinst
  rw [activate_keeps hsafe.distinct hsafe.bound hact hslot hat hbac hhead]
  cases cell with
  | scalar path =>
    obtain ⟨ht, rfl⟩ := hacti
    have hkey : ((scalarTypes active.stateLayout).lookup path).isSome := by
      rw [lookup_isSome_iff]
      simpa [slots, slot, scalarTypes, heq] using hslot
    rw [StateCell.Migrated, if_pos hkey]
    exact readGlobalScalar_eq_ok_iff.mpr ⟨t, ht, rfl⟩
  | element path field index =>
    obtain ⟨⟨capacity, ht, hlt⟩, rfl⟩ := hacti
    have hkey : ((collectionFieldLayouts active.stateLayout).lookup (path, field)).isSome := by
      rw [lookup_isSome_iff]
      simpa using mem_slots_lane_layouts.mp (hslots ▸ hslot)
    obtain ⟨lane, hlane⟩ := Option.isSome_iff_exists.mp hkey
    have hin : index < lane.capacity := lane_capacity (mem_of_lookup hlane) ht ▸ hlt
    rw [StateCell.Migrated, if_pos (by simpa [hlane] using hin)]
    exact readGlobalCollectionScalar_eq_ok_iff.mpr ⟨t, capacity, ht, hlt, rfl⟩

lemma exists_carried (hsafe : MigrationSafe active candidate) (hinst : active.Installed reg)
    (h : activateCandidateTransactionally (some active) candidate (planBetween active candidate)
      hookMayMutateState (fun reg => (result, reg)) accepted reg = .ok result' final)
    (hacc : accepted result' = true) :
    (planBetween active candidate).stateLayoutCompatible = true ∧ ∃ r,
      Carried active candidate reg r ∧
      ((shrunken (planBetween active candidate)).forM fun (path, capacity) =>
        normalizeCollectionLengths candidate path capacity : RuntimeM Unit) r = .ok () final := by
  obtain ⟨hcompat, migrationState, hcap, hrun⟩ := activate_ok h hacc
  refine ⟨hcompat, ?_⟩
  by_cases heq : active.stateLayout = candidate.stateLayout
  · have hplan : planBetween active candidate = ⟨false, [], []⟩ := by
      simp [planBetween, planStateMigration, heq]
    rw [hplan] at hcap hrun ⊢
    obtain rfl : none = migrationState := by simpa [captureForMigration] using hcap
    obtain ⟨_, hact, rfl⟩ := transaction_ok_unchanged rfl hrun
    exact ⟨_, carried_unchanged hsafe heq hinst hact, rfl⟩
  · have hchg : (planBetween active candidate).layoutChanged = true := by
      simp [planBetween, planStateMigration, changedLayoutPlan, heq]
    simp only [captureForMigration, hchg, if_true] at hcap
    obtain ⟨captured, hcapt, rfl⟩ := map_ok_iff.mp hcap
    obtain ⟨r₀, r₁, r₂, r₃, hact, hsteps, hclamp, rfl⟩ := transaction_ok_changed hchg hrun
    exact ⟨r₂, carried_changed hsafe heq hcompat
      (capturedFrom_of_ok (fun _ => plannedStep_of_mem) hcapt) hact hsteps, hclamp⟩

lemma clampLength_idem (capacity : ℕ) (n : ℤ) :
    clampLength capacity (clampLength capacity n) = clampLength capacity n := by
  unfold clampLength
  omega

def headerBits (length : ℤ) : ℕ := (BitVec.ofInt 32 length).toNat

lemma ofNat_headerBits (length : ℤ) : BitVec.ofNat 32 (headerBits length) = .ofInt 32 length := by
  rw [headerBits, BitVec.ofNat_toNat, BitVec.setWidth_eq]

lemma clampHeader_of_ok {path : Path} {capacity : ℕ} {suffix : String} {r r' : Registry}
    (h : clampHeader candidate path capacity suffix r = .ok () r') :
    (candidate.globalPathTypes.lookup (path ++ [suffix]) ≠ some (.scalar .i32) ∧ r' = r) ∨
    (candidate.globalPathTypes.lookup (path ++ [suffix]) = some (.scalar .i32) ∧
      r' = r.store (scalarAddress (path ++ [suffix]) .i32) (headerBits (clampLength capacity
        (BitVec.ofNat 32 (r.load (scalarAddress (path ++ [suffix]) .i32))).toInt))) := by
  by_cases hi32 : candidate.globalPathTypes.lookup (path ++ [suffix]) = some (.scalar .i32)
  · have hread : candidate.readGlobalScalar (path ++ [suffix]) r = .ok (.ofBits .i32
        (r.load (scalarAddress (path ++ [suffix]) .i32))) :=
      readGlobalScalar_eq_ok_iff.mpr ⟨.i32, scalarTypeOf_i32 hi32, rfl⟩
    simp only [clampHeader, readI32Header, writeI32Header, hi32, ne_eq, not_true, if_false,
      if_true, hread, JitScalarValue.ofBits] at h
    obtain ⟨-, rfl⟩ := writeGlobalScalar_of_ok h
    exact .inr ⟨hi32, rfl⟩
  · simp only [clampHeader, readI32Header, ne_eq, hi32, not_false_eq_true, if_true] at h
    cases h
    exact .inl ⟨hi32, rfl⟩

lemma toInt_ofInt_headerValue (p : Program) (path : Path) (v : BitVec 32) :
    (BitVec.ofInt 32 (headerValue p path v.toInt)).toInt = headerValue p path v.toInt := by
  have hlow := v.le_toInt
  have hhigh := v.toInt_lt
  have hrange : -(2 ^ 31) ≤ headerValue p path v.toInt ∧ headerValue p path v.toInt < 2 ^ 31 := by
    unfold headerValue
    split
    · unfold clampLength
      omega
    · exact ⟨hlow, hhigh⟩
  rw [BitVec.toInt_ofInt]
  generalize headerValue p path v.toInt = n at hrange
  rw [Int.bmod_eq_of_le] <;> omega

/-- While lengths are cut, every cell has its migrated value or is a header that has been
given the value it should get. -/
structure Cutting (active candidate : Program) (reg r : Registry) : Prop where
  backed : ∀ {cell : StateCell} {a t}, cell.slot ∈ candidate.slots → cell.At candidate a t →
    r.Backed t.storageKind a
  value : ∀ {cell : StateCell} {a t}, cell.slot ∈ candidate.slots → cell.At candidate a t →
    (∀ header ∈ candidate.maxLengthHeaders, cell ≠ .scalar header.1) →
      cell.Migrated active candidate reg (.ofBits t (r.load a)) ∨
      ∃ path v, cell = .scalar path ∧
        candidate.globalPathTypes.lookup path = some (.scalar .i32) ∧
        carriedHeader active candidate reg path = some v ∧
        r.load a = headerBits (headerValue candidate path v.toInt)
  maxLength : ∀ header ∈ candidate.maxLengthHeaders,
    r.load (scalarAddress header.1 .i32) = header.2 % 2 ^ 32

def HasValue (active candidate : Program) (reg r : Registry) (path : Path) : Prop :=
  ∀ v ∈ carriedHeader active candidate reg path,
    r.load (scalarAddress path .i32) = headerBits (headerValue candidate path v.toInt)

structure CutsTo (active candidate : Program) (reg r r' : Registry) (path : Path)
    (suffixes : List String) : Prop where
  cutting : Cutting active candidate reg r'
  done : ∀ suffix ∈ suffixes,
    candidate.globalPathTypes.lookup (path ++ [suffix]) = some (.scalar .i32) →
      HasValue active candidate reg r' (path ++ [suffix])
  kept : ∀ other, candidate.globalPathTypes.lookup other = some (.scalar .i32) →
    HasValue active candidate reg r other → HasValue active candidate reg r' other

lemma Carried.cutting (h : Carried active candidate reg r) : Cutting active candidate reg r :=
  ⟨h.backed, fun hslot hat hne => .inl (h.migrated hslot hat hne), h.maxLength⟩

section Cut

variable {path : Path} {suffix : String} {r : Registry} {v : BitVec 32}
  (hdist : candidate.SlotsDistinct)
include hdist

lemma load_store_header
    (hi32 : candidate.globalPathTypes.lookup path = some (.scalar .i32))
    (hslot : cell.slot ∈ candidate.slots) (hat : cell.At candidate a t)
    (hbac : r.Backed t.storageKind a) (hne : cell ≠ .scalar path) (n : ℕ) :
    (r.store (scalarAddress path .i32) n).load a = r.load a := by
  apply Registry.load_store_of_ne _ hbac
  rintro rfl
  have heq := hdist _ hslot _ (header_mem_slots hi32) (by simp [hat.slotKey])
    (hat.slotKey.trans (header_at hi32).slotKey.symm)
  exact hne (hat.unique (header_at hi32) heq).1

variable (hsuf : suffix ∈ lengthSuffixes)
  (hi32 : candidate.globalPathTypes.lookup (path ++ [suffix]) = some (.scalar .i32))
  (h : Cutting active candidate reg r)
include hsuf hi32 h

omit hdist in
lemma Cutting.length_header : ∃ v, carriedHeader active candidate reg (path ++ [suffix]) = some v ∧
    ((BitVec.ofNat 32 (r.load (scalarAddress (path ++ [suffix]) .i32))).toInt = v.toInt ∨
      (BitVec.ofNat 32 (r.load (scalarAddress (path ++ [suffix]) .i32))).toInt =
        headerValue candidate (path ++ [suffix]) v.toInt) := by
  have hslot : (scalar (path ++ [suffix])).slot ∈ candidate.slots := header_mem_slots hi32
  rcases h.value hslot (header_at hi32)
    (fun header hmem heq => maxLengthHeader_ne hmem hsuf (scalar.inj heq).symm) with
    hmigrated | ⟨path', v, hcell, -, hv, hload⟩
  · exact ⟨_, carriedHeader_eq_some hmigrated, .inl rfl⟩
  · cases hcell
    refine ⟨v, hv, .inr ?_⟩
    rw [hload, ofNat_headerBits, toInt_ofInt_headerValue]

lemma Cutting.store (hv : carriedHeader active candidate reg (path ++ [suffix]) = some v) :
    CutsTo active candidate reg r (r.store (scalarAddress (path ++ [suffix]) .i32)
      (headerBits (headerValue candidate (path ++ [suffix]) v.toInt))) path [suffix] := by
  have hslot : (scalar (path ++ [suffix])).slot ∈ candidate.slots := header_mem_slots hi32
  have hself := Registry.load_store_self (v := headerBits (headerValue candidate
    (path ++ [suffix]) v.toInt)) (h.backed hslot (header_at hi32)) (BitVec.isLt _)
  have hvalue : HasValue active candidate reg (r.store (scalarAddress (path ++ [suffix]) .i32)
      (headerBits (headerValue candidate (path ++ [suffix]) v.toInt))) (path ++ [suffix]) := by
    intro v' hv'
    rw [hself, Option.some.inj (hv.symm.trans hv')]
  refine ⟨⟨fun hslot hat => (h.backed hslot hat).store _ _, ?_, ?_⟩, ?_, ?_⟩
  · intro cell a t hslot hat hne
    by_cases hcell : cell = .scalar (path ++ [suffix])
    · subst hcell
      obtain ⟨rfl, rfl⟩ := hat.functional (header_at hi32)
      exact .inr ⟨_, v, rfl, hi32, hv, hself⟩
    · rw [load_store_header hdist hi32 hslot hat (h.backed hslot hat) hcell]
      exact h.value hslot hat hne
  · intro header hmem
    have hmax := candidate.wellFormed.max_length_global header hmem
    have hslot : (scalar header.1).slot ∈ candidate.slots := header_mem_slots hmax
    rw [load_store_header hdist hi32 hslot (header_at hmax) (h.backed hslot (header_at hmax))
      (fun heq => maxLengthHeader_ne hmem hsuf (scalar.inj heq)), h.maxLength header hmem]
  · intro other hother _
    exact mem_singleton.mp hother ▸ hvalue
  · intro other hother hdone
    by_cases heq : other = path ++ [suffix]
    · exact heq ▸ hvalue
    · have hslot : (scalar other).slot ∈ candidate.slots := header_mem_slots hother
      intro v' hv'
      rw [load_store_header hdist hi32 hslot (header_at hother)
        (h.backed hslot (header_at hother)) (fun hcell => heq (scalar.inj hcell)), hdone v' hv']

end Cut

section Normalize

variable {path : Path} {capacity : ℕ} {suffix : String} {r r' r'' : Registry}

lemma Cutting.skip (h : Cutting active candidate reg r)
    (hnot : candidate.globalPathTypes.lookup (path ++ [suffix]) ≠ some (.scalar .i32)) :
    CutsTo active candidate reg r r path [suffix] :=
  ⟨h, fun _ hother hi32 => absurd (mem_singleton.mp hother ▸ hi32) hnot, fun _ _ hdone => hdone⟩

lemma CutsTo.trans {suffixes suffixes' : List String}
    (h : CutsTo active candidate reg r r' path suffixes)
    (h' : CutsTo active candidate reg r' r'' path suffixes') :
    CutsTo active candidate reg r r'' path (suffixes ++ suffixes') := by
  refine ⟨h'.cutting, fun suffix hsuf hi32 => ?_, fun other hi32 hdone =>
    h'.kept other hi32 (h.kept other hi32 hdone)⟩
  rcases mem_append.mp hsuf with hsuf | hsuf
  · exact h'.kept _ hi32 (h.done suffix hsuf hi32)
  · exact h'.done suffix hsuf hi32

variable (hdist : candidate.SlotsDistinct) (hcut : Cutting active candidate reg r)
include hdist hcut

lemma cutsTo_clampHeader (hsuf : suffix ∈ lengthSuffixes)
    (hclamp : candidate.globalPathTypes.lookup (path ++ [suffix]) = some (.scalar .i32) →
      ∀ v ∈ carriedHeader active candidate reg (path ++ [suffix]),
        clampLength capacity v.toInt = headerValue candidate (path ++ [suffix]) v.toInt)
    (h : clampHeader candidate path capacity suffix r = .ok () r') :
    CutsTo active candidate reg r r' path [suffix] := by
  rcases clampHeader_of_ok h with ⟨hnot, rfl⟩ | ⟨hi32, rfl⟩
  · exact hcut.skip hnot
  · obtain ⟨v, hv, hold⟩ := hcut.length_header hsuf hi32
    have hvalue : clampLength capacity
        (BitVec.ofNat 32 (r.load (scalarAddress (path ++ [suffix]) .i32))).toInt =
        headerValue candidate (path ++ [suffix]) v.toInt := by
      rcases hold with hold | hold
      · rw [hold, hclamp hi32 v hv]
      · rw [hold, ← hclamp hi32 v hv, clampLength_idem]
    rw [hvalue]
    exact hcut.store hdist hsuf hi32 hv

lemma cutsTo_writeI32Header (hsuf : suffix ∈ lengthSuffixes) {n : ℤ}
    (hn : candidate.globalPathTypes.lookup (path ++ [suffix]) = some (.scalar .i32) →
      ∀ v ∈ carriedHeader active candidate reg (path ++ [suffix]),
        headerValue candidate (path ++ [suffix]) v.toInt = n)
    (h : writeI32Header candidate path suffix n r = .ok () r') :
    CutsTo active candidate reg r r' path [suffix] := by
  unfold writeI32Header at h
  split_ifs at h with hi32
  · obtain ⟨-, rfl⟩ := writeGlobalScalar_of_ok h
    obtain ⟨v, hv, -⟩ := hcut.length_header hsuf hi32
    rw [← hn hi32 v hv]
    exact hcut.store hdist hsuf hi32 hv
  · cases h
    exact hcut.skip hi32

omit hdist hcut

lemma ofExcept_of_ok {α : Type} {x : Except String α} {value : α}
    (h : normalizeUtf8.ofExcept x r = .ok value r') : x = .ok value ∧ r' = r := by
  cases x with
  | error e => cases h
  | ok a =>
    cases h
    exact ⟨rfl, rfl⟩

lemma Cutting.read_header {length : Option ℤ} (hcut : Cutting active candidate reg r)
    (hsuf : suffix ∈ lengthSuffixes) (h : readI32Header candidate path suffix r = .ok length) :
    (candidate.globalPathTypes.lookup (path ++ [suffix]) ≠ some (.scalar .i32) ∧ length = none) ∨
    candidate.globalPathTypes.lookup (path ++ [suffix]) = some (.scalar .i32) ∧
      ∃ v n, carriedHeader active candidate reg (path ++ [suffix]) = some v ∧ length = some n ∧
        (n = v.toInt ∨ n = headerValue candidate (path ++ [suffix]) v.toInt) := by
  by_cases hi32 : candidate.globalPathTypes.lookup (path ++ [suffix]) = some (.scalar .i32)
  · obtain ⟨v, hv, hold⟩ := hcut.length_header hsuf hi32
    have hread : candidate.readGlobalScalar (path ++ [suffix]) r = .ok (.ofBits .i32
        (r.load (scalarAddress (path ++ [suffix]) .i32))) :=
      readGlobalScalar_eq_ok_iff.mpr ⟨.i32, scalarTypeOf_i32 hi32, rfl⟩
    simp only [readI32Header, hi32, ne_eq, not_true, if_false, hread,
      JitScalarValue.ofBits, Except.ok.injEq] at h
    exact .inr ⟨hi32, v, _, hv, h.symm, hold⟩
  · simp only [readI32Header, ne_eq, hi32, not_false_eq_true, if_true, Except.ok.injEq] at h
    exact .inl ⟨hi32, h.symm⟩

lemma Cutting.clamped_length {length byteLength : Option ℤ} {bytes : List UInt8}
    (hcut : Cutting active candidate reg r)
    (hlength : (bytes.length : ℤ) = clampLength capacity (carriedLength active candidate reg path))
    (hheaders : ∀ suffix ∈ ["length", "byte_length"],
      candidate.globalPathTypes.lookup (path ++ [suffix]) = some (.scalar .i32) →
      ∀ v ∈ carriedHeader active candidate reg (path ++ [suffix]),
        headerValue candidate (path ++ [suffix]) v.toInt = bytes.length)
    (hread : readI32Header candidate path "length" r = .ok length)
    (hread' : readI32Header candidate path "byte_length" r = .ok byteLength) :
    clampLength capacity ((length.or byteLength).getD 0) = bytes.length := by
  have hidem : clampLength capacity (bytes.length : ℤ) = bytes.length := by
    rw [hlength, clampLength_idem]
  rcases hcut.read_header (by decide) hread with ⟨hnot, rfl⟩ | ⟨hi32, v, n, hv, rfl, hn⟩
  · rcases hcut.read_header (by decide) hread' with ⟨hnot', rfl⟩ | ⟨hi32, v, n, hv, rfl, hn⟩
    · rw [hlength]
      simp [carriedLength, hnot, hnot']
    · rcases hn with rfl | rfl
      · rw [hlength]
        simp [carriedLength, hnot, hi32, hv]
      · rw [hheaders "byte_length" (by simp) hi32 v hv]
        exact hidem
  · rcases hn with rfl | rfl
    · rw [hlength]
      simp [carriedLength, hi32, hv]
    · rw [hheaders "length" (by simp) hi32 v hv]
      exact hidem

lemma text_lane_mem_slots (h : isUtf8Fixed candidate path = true) :
    StateSlot.lane path [] ∈ candidate.slots := by
  obtain ⟨n, htext⟩ : ∃ n, candidate.globalPathTypes.lookup path = some (.utf8Fixed n) := by
    unfold isUtf8Fixed at h
    split at h
    · exact ⟨_, by assumption⟩
    · cases h
  obtain ⟨hnes, info, hinfo, hele, -⟩ :=
    candidate.wellFormed.text_collection _ (mem_of_lookup htext) n rfl
  obtain ⟨hpath, -, hextents⟩ := candidate.extents_textLane
    { path := path, capacity := info.len, elementShape := info.elementShape,
      fullyMigratable := info.fullyMigratable,
      fields := (info.elementType.bind elementFieldLayout).toList ++
        info.fieldTypes.filterMap (collectionFieldLayout info.len) }
  have hlane : ([], none) ∈ ((info.elementType.bind elementFieldLayout).toList ++
      info.fieldTypes.filterMap (collectionFieldLayout info.len)).map laneExtent := by
    simp [hele, elementFieldLayout, TypeKey.scalarStorageType, laneExtent]
  rw [← hextents] at hlane
  obtain ⟨lane, hmem, hfield⟩ := mem_map.mp hlane
  have hlayout : candidate.collectionLayout (path, info) = some _ := if_neg (by simp [hnes])
  refine mem_append_right _ (mem_flatMap.mpr ⟨_, (mem_insertionSort _).mpr (mem_append_left _
    (mem_filterMap.mpr ⟨_, mem_of_lookup hinfo, hlayout⟩)), mem_map.mpr ⟨lane, hmem, ?_⟩⟩)
  rw [hpath, (Prod.mk.inj hfield).1]

lemma Cutting.read_bytes (hcut : Cutting active candidate reg r)
    (hutf8 : isUtf8Fixed candidate path = true) {bytes bytes' : List UInt8}
    (hbytes : ∀ (index : ℕ) (byte : UInt8), bytes[index]? = some byte →
      (element path [] index).Migrated active candidate reg (.u8 byte.toBitVec))
    (h : readTextBytes candidate path bytes.length r = .ok bytes') : bytes' = bytes := by
  have hall := mapM_eq_ok_iff.mp h
  have hlen : bytes.length = bytes'.length := by simpa using hall.length_eq
  refine ext_getElem hlen.symm fun index hindex' hindex => ?_
  have hread := hall.get (i := index) (by simpa using hindex) hindex'
  simp only [get_eq_getElem, getElem_range] at hread
  have hslot : (element path [] index).slot ∈ candidate.slots := text_lane_mem_slots hutf8
  split at hread
  · cases hread
  · rename_i value hvalue
    obtain ⟨t, capacity, ht, hlt, heq⟩ := readGlobalCollectionScalar_eq_ok_iff.mp hvalue
    rcases hcut.value hslot ⟨⟨capacity, ht, hlt⟩, rfl⟩ (by rintro _ _ ⟨⟩) with
      hmigrated | ⟨_, _, ⟨⟩, _⟩
    rw [← heq] at hmigrated
    have hsame := hmigrated.unique (hbytes index _ (getElem?_eq_getElem hindex)) rfl
    rw [← Except.ok.inj hread, JitScalarValue.u8.inj hsame]
  · cases hread

lemma cutsTo_normalizeUtf8 (hdist : candidate.SlotsDistinct)
    (hcut : Cutting active candidate reg r) (hutf8 : isUtf8Fixed candidate path = true)
    (hagrees : Utf8Agrees active candidate reg path capacity)
    (h : normalizeUtf8 candidate path capacity r = .ok () r') :
    CutsTo active candidate reg r r' path lengthSuffixes := by
  obtain ⟨bytes, chars, hlength, hbytes, hvalid, hheaders⟩ := hagrees
  unfold normalizeUtf8 at h
  obtain ⟨_, _, hget, h₁⟩ := bind_eq_ok h
  cases hget
  obtain ⟨length, _, hlen, h₂⟩ := bind_eq_ok h₁
  obtain ⟨hread, rfl⟩ := ofExcept_of_ok hlen
  obtain ⟨byteLength, _, hbyte, h₃⟩ := bind_eq_ok h₂
  obtain ⟨hread', rfl⟩ := ofExcept_of_ok hbyte
  obtain ⟨bytes', _, htext, h₄⟩ := bind_eq_ok h₃
  obtain ⟨hread'', rfl⟩ := ofExcept_of_ok htext
  have hclamped := hcut.clamped_length hlength (fun suffix hsuf hi32 v hv => by
    have hmem : suffix ∈ lengthSuffixes := by
      rcases mem_pair.mp hsuf with rfl | rfl <;> decide
    have hchar : suffix ≠ "char_length" := by
      rcases mem_pair.mp hsuf with rfl | rfl <;> decide
    rw [hheaders suffix hmem hi32 v hv, if_neg hchar]) hread hread'
  rw [hclamped, Int.toNat_natCast] at hread''
  obtain rfl := hcut.read_bytes hutf8 hbytes hread''
  -- the text is whole, so no byte is cleared
  rw [hvalid] at h₄
  dsimp only at h₄
  rw [Nat.sub_self, replicate_zero] at h₄
  obtain ⟨⟨⟩, _, hlane, h₅⟩ := bind_eq_ok h₄
  cases hlane
  obtain ⟨⟨⟩, r₁, hwrite, h₆⟩ := bind_eq_ok h₅
  obtain ⟨⟨⟩, r₂, hwrite', hwrite''⟩ := bind_eq_ok h₆
  have hstep := cutsTo_writeI32Header hdist hcut (by decide)
    (fun hi32 v hv => (hheaders _ (by decide) hi32 v hv).trans (if_neg (by decide))) hwrite
  have hstep' := cutsTo_writeI32Header hdist hstep.cutting (by decide)
    (fun hi32 v hv => (hheaders _ (by decide) hi32 v hv).trans (if_neg (by decide))) hwrite'
  have hstep'' := cutsTo_writeI32Header hdist hstep'.cutting (by decide)
    (fun hi32 v hv => (hheaders _ (by decide) hi32 v hv).trans (if_pos rfl)) hwrite''
  exact (hstep.trans hstep').trans hstep''

lemma cutsTo_clampHeaders (hdist : candidate.SlotsDistinct)
    (hcut : Cutting active candidate reg r)
    (hclamp : ∀ suffix ∈ lengthSuffixes,
      candidate.globalPathTypes.lookup (path ++ [suffix]) = some (.scalar .i32) →
      ∀ v ∈ carriedHeader active candidate reg (path ++ [suffix]),
        clampLength capacity v.toInt = headerValue candidate (path ++ [suffix]) v.toInt)
    (h : (lengthSuffixes.forM fun suffix => clampHeader candidate path capacity suffix :
      RuntimeM Unit) r = .ok () r') :
    CutsTo active candidate reg r r' path lengthSuffixes := by
  obtain ⟨⟨⟩, r₁, hwrite, h₁⟩ := bind_eq_ok h
  obtain ⟨⟨⟩, r₂, hwrite', h₂⟩ := bind_eq_ok h₁
  obtain ⟨⟨⟩, r₃, hwrite'', hend⟩ := bind_eq_ok h₂
  cases hend
  have hstep := cutsTo_clampHeader hdist hcut (by decide) (hclamp _ (by decide)) hwrite
  have hstep' := cutsTo_clampHeader hdist hstep.cutting (by decide) (hclamp _ (by decide)) hwrite'
  have hstep'' := cutsTo_clampHeader hdist hstep'.cutting (by decide) (hclamp _ (by decide))
    hwrite''
  exact (hstep.trans hstep').trans hstep''

lemma cut_all (hdist : candidate.SlotsDistinct) (hagree : HeadersAgree active candidate reg)
    {cut : List (Path × ℕ)} (hsub : cut ⊆ shrunken (planBetween active candidate))
    (hcut : Cutting active candidate reg r)
    (h : (cut.forM fun (path, capacity) =>
      normalizeCollectionLengths candidate path capacity : RuntimeM Unit) r = .ok () r') :
    Cutting active candidate reg r' ∧
    (∀ e ∈ cut, ∀ suffix ∈ lengthSuffixes,
      candidate.globalPathTypes.lookup (e.1 ++ [suffix]) = some (.scalar .i32) →
        HasValue active candidate reg r' (e.1 ++ [suffix])) ∧
    ∀ other, candidate.globalPathTypes.lookup other = some (.scalar .i32) →
      HasValue active candidate reg r other → HasValue active candidate reg r' other := by
  induction cut generalizing r with
  | nil =>
    cases h
    exact ⟨hcut, by simp, fun _ _ hdone => hdone⟩
  | cons e cut ih =>
    obtain ⟨⟨⟩, r₁, hrun, hrest⟩ := bind_eq_ok h
    have hmem := hsub (.head _)
    have hstep : CutsTo active candidate reg r r₁ e.1 lengthSuffixes := by
      have hhead : normalizeCollectionLengths candidate e.1 e.2 r = .ok () r₁ := hrun
      unfold normalizeCollectionLengths at hhead
      split_ifs at hhead with hutf8
      · exact cutsTo_normalizeUtf8 hdist hcut hutf8 (hagree.utf8 e hmem hutf8) hhead
      · exact cutsTo_clampHeaders hdist hcut
          (hagree.clamped e hmem (by simpa using hutf8)) hhead
    obtain ⟨hcutting, hdone, hkept⟩ :=
      ih (fun _ hother => hsub (.tail _ hother)) hstep.cutting hrest
    refine ⟨hcutting, fun e' he' suffix hsuf hi32 => ?_, fun other hi32 hother =>
      hkept other hi32 (hstep.kept other hi32 hother)⟩
    rcases mem_cons.mp he' with rfl | he'
    · exact hkept _ hi32 (hstep.done suffix hsuf hi32)
    · exact hdone e' he' suffix hsuf hi32

end Normalize

lemma textHeaderCapacity_eq_some (h : textHeaderCapacity p path = some capacity) :
    p.globalPathTypes.lookup path = some (.scalar .i32) ∧
      ∃ suffix ∈ lengthSuffixes, path = path.dropLast ++ [suffix] := by
  unfold textHeaderCapacity at h
  split_ifs at h with hheader
  refine ⟨hheader.1, ?_⟩
  obtain ⟨suffix, hlast, hsuf⟩ := Option.any_eq_true _ _ |>.mp hheader.2
  exact ⟨suffix, by simpa using hsuf, (dropLast_append_getLast? suffix hlast).symm⟩

lemma Cutting.migrated_of_not_text (h : Cutting active candidate reg r)
    (hslot : cell.slot ∈ candidate.slots) (hat : cell.At candidate a t)
    (hmax : ∀ header ∈ candidate.maxLengthHeaders, cell ≠ .scalar header.1)
    (htext : ∀ path, cell = .scalar path → textHeaderCapacity candidate path = none) :
    cell.Migrated active candidate reg (.ofBits t (r.load a)) := by
  rcases h.value hslot hat hmax with hmigrated | ⟨path, v, rfl, hi32, hv, hload⟩
  · exact hmigrated
  · -- the header of an array is given its own value
    have hmigrated := migrated_of_carriedHeader hv
    obtain ⟨rfl, rfl⟩ := hat.functional (header_at hi32)
    rw [hload, headerValue, htext path rfl, JitScalarValue.ofBits, ofNat_headerBits,
      BitVec.ofInt_toInt]
    exact hmigrated

lemma Cutting.text_header {scalar : StateScalarLayout} {r : Registry}
    (h : Cutting active candidate reg r)
    (hagree : HeadersAgree active candidate reg)
    (hdone : ∀ e ∈ shrunken (planBetween active candidate), ∀ suffix ∈ lengthSuffixes,
      candidate.globalPathTypes.lookup (e.1 ++ [suffix]) = some (.scalar .i32) →
        HasValue active candidate reg r (e.1 ++ [suffix]))
    (hscalar : scalar ∈ candidate.stateLayout.scalars)
    (hcapacity : textHeaderCapacity candidate scalar.path = some capacity) :
    ∃ v ∈ carriedHeader active candidate reg scalar.path,
      BitVec.ofNat 32 (r.load (scalarAddress scalar.path .i32)) =
        .ofInt 32 (clampLength capacity v.toInt) := by
  obtain ⟨hi32, suffix, hsuf, hpath⟩ := textHeaderCapacity_eq_some hcapacity
  have hvalue : ∀ v, headerValue candidate scalar.path v = clampLength capacity v := by
    intro v
    rw [headerValue, hcapacity]
  by_cases hcut : ∃ e ∈ shrunken (planBetween active candidate), e.1 = scalar.path.dropLast
  · obtain ⟨e, he, heq⟩ := hcut
    obtain ⟨v, hv, -⟩ := h.length_header hsuf (hpath ▸ hi32)
    rw [← hpath] at hv
    have hlast := hdone e he suffix hsuf (by rw [heq, ← hpath]; exact hi32)
    rw [heq, ← hpath] at hlast
    exact ⟨v, hv, by rw [hlast v hv, hvalue, ofNat_headerBits]⟩
  · have hkept := hagree.kept scalar hscalar capacity hcapacity
      fun e he heq => hcut ⟨e, he, heq⟩
    have hslot : (StateCell.scalar scalar.path).slot ∈ candidate.slots := header_mem_slots hi32
    rcases h.value hslot (header_at hi32) (fun header hmem heq =>
        maxLengthHeader_ne hmem hsuf ((StateCell.scalar.inj heq).symm.trans hpath)) with
      hmigrated | ⟨path', v, hcell, -, hv, hload⟩
    · have hv := carriedHeader_eq_some hmigrated
      exact ⟨_, hv, by rw [hkept _ hv, BitVec.ofInt_toInt]⟩
    · cases hcell
      exact ⟨v, hv, by rw [hload, hvalue, ofNat_headerBits]⟩

lemma keeps_scalar_iff (hcompat : (planBetween active candidate).stateLayoutCompatible = true)
    (hentry : entry ∈ candidate.stateLayout.scalars) (hmax : isMaxLengthHeader entry.path = false) :
    ((scalarTypes active.stateLayout).lookup entry.path).isSome = true ↔
      (active.stateLayout.scalars.any fun old =>
        old.path = entry.path ∧ old.storageType = entry.storageType) = true := by
  rw [any_eq_true]
  constructor
  · intro hsome
    obtain ⟨previous, hlook⟩ := Option.isSome_iff_exists.mp hsome
    by_cases heq : active.stateLayout = candidate.stateLayout
    · exact ⟨entry, heq ▸ hentry, by simp⟩
    · have hrej := (rejections_of_compatible heq hcompat).1 entry hentry
      have hsame : previous.1 = entry.typeName ∧ previous.2 = entry.storageType := by
        by_contra hdiff
        simp [incomingScalar, hmax, hlook, hdiff] at hrej
      obtain ⟨old, hold, hkey⟩ := mem_map.mp (mem_of_lookup hlook)
      obtain ⟨hpath, rfl⟩ := Prod.mk.inj hkey
      exact ⟨old, hold, by simpa [hpath] using hsame.2⟩
  · rintro ⟨old, hold, hsame⟩
    rw [lookup_isSome_iff]
    obtain ⟨hpath, -⟩ := of_decide_eq_true hsame
    exact ⟨(old.typeName, old.storageType), mem_map.mpr ⟨old, hold, by rw [hpath]⟩⟩

lemma laneOrigin_of_layout (h : ((path, field), lane) ∈ collectionFieldLayouts p.stateLayout) :
    LaneOrigin p path field lane.capacity := by
  obtain ⟨collection, hcoll, hfield⟩ := mem_flatMap.mp h
  obtain ⟨f, hf, heq⟩ := mem_map.mp hfield
  cases heq
  exact laneOrigin_of_mem hcoll hf

lemma keeps_element_iff (hcompat : (planBetween active candidate).stateLayoutCompatible = true)
    (hlane : ((path, field), lane) ∈ collectionFieldLayouts candidate.stateLayout)
    (hindex : index < lane.capacity) :
    ((collectionFieldLayouts active.stateLayout).lookup (path, field)).any
        (fun old => index < old.capacity) = true ↔
      ((collectionFieldLayouts active.stateLayout).any fun old =>
        old.1 = (path, field) ∧ old.2.storageType = lane.storageType ∧ index < old.2.capacity) =
          true := by
  rw [any_eq_true]
  constructor
  · intro hany
    obtain ⟨previous, hlook, hin⟩ := Option.any_eq_true _ _ |>.mp hany
    by_cases heq : active.stateLayout = candidate.stateLayout
    · exact ⟨_, heq ▸ hlane, by simpa using hindex⟩
    · have hrej := (rejections_of_compatible heq hcompat).2 _ hlane
      have hsame : previous.typeName = lane.typeName ∧ previous.storageType = lane.storageType := by
        by_contra hdiff
        simp [incomingLane, hlook, hdiff] at hrej
      exact ⟨_, mem_of_lookup hlook, by simpa [hsame.2] using hin⟩
  · rintro ⟨⟨key, old⟩, hold, hsame⟩
    obtain ⟨rfl, -, hin⟩ := of_decide_eq_true hsame
    have hsome : ((collectionFieldLayouts active.stateLayout).lookup (path, field)).isSome :=
      lookup_isSome_iff.mpr ⟨old, hold⟩
    obtain ⟨previous, hlook⟩ := Option.isSome_iff_exists.mp hsome
    have hcap := (laneOrigin_of_layout (mem_of_lookup hlook)).unique
      (laneOrigin_of_layout hold)
    simpa [hlook, hcap] using hin

def sampleFilled : Registry := Registry.cells.writeAll sampleState
  [(scalarAddress ["x", "length"] .i32, 3), (laneAddress ["x"] [] 0 .i32, 5)]

def sampleSwap (candidate : Program) (reg : Registry) :
    EStateM.Result String Registry Bool :=
  activateCandidateTransactionally (some sampleActive) candidate
    (planBetween sampleActive candidate) false (fun reg => (true, reg)) id reg

lemma sampleFilled_headersAgree : HeadersAgree sampleActive sampleGrown sampleFilled := by
  have hnone : shrunken (planBetween sampleActive sampleGrown) = [] := by decide +kernel
  refine ⟨by decide +kernel, ?_, ?_, by decide +kernel⟩
  · simp [hnone]
  · simp [hnone]

/-- An array `ps` of four records with the given `i32` fields. -/
def recordsMetadata (fields : List String) : ProgramMetadata where
  globalPathTypes :=
    [(["ps"], .arrayFixed (.named "P") 4), (["ps", "length"], .scalar .i32),
      (["ps", "max_length"], .scalar .i32)]
  collectionInfos :=
    [(["ps"], ⟨4, none, fields.map fun name => ([name], .scalar .i32),
      "\x7b" ++ ",".intercalate (fields.map fun name => name ++ ":i32") ++ "\x7d", true⟩)]
  typedCollectionDescriptors := []
  structNames := ["P"]
  initialization := ⟨[], []⟩
  stringLiterals := []

def twoFields : Program where
  toProgramMetadata := recordsMetadata ["a", "b"]
  wellFormed := by constructor <;> decide +kernel

def oneField : Program where
  toProgramMetadata := recordsMetadata ["a"]
  wellFormed := by constructor <;> decide +kernel

end Stasis.Migration
