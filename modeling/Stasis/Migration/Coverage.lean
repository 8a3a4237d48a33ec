import Stasis.Lib.Assoc
import Stasis.Migration.Plan

namespace Stasis.Migration

open Function
open List
open Stasis.Runtime

def scalarAt (layout : StateLayout) (path : Path) : Option StateScalarLayout :=
  layout.scalars.reverse.find? fun entry => entry.path = path

/-- The lane the map of lanes holds for a path and a field. -/
def laneAt (layout : StateLayout) (path field : Path) : Option CollectionFieldLayout :=
  (collectionFieldLayouts layout).reverse.lookup (path, field)

def lanesOfPath (layout : StateLayout) (path : Path) : List (Path × CollectionFieldLayout) :=
  (collectionFieldLayouts layout).filterMap fun entry =>
    if entry.1.1 = path then some (entry.1.2, entry.2) else none

/-- The lanes of one path, each with its own element count. -/
def collectedFields (layout : StateLayout) (path : Path) : List StateCollectionFieldLayout :=
  (lastPerKey (lanesOfPath layout path)).map fun entry =>
    ⟨entry.1, entry.2.typeName, entry.2.storageType, some entry.2.capacity⟩

/-- The layout as the maps of `plan_state_migration` hold it. -/
def collected (layout : StateLayout) : StateLayout where
  scalars := lastBy StateScalarLayout.path layout.scalars
  collections := (lastBy StateCollectionLayout.path layout.collections).map fun collection =>
    { collection with fields := collectedFields layout collection.path }
  structs := layout.structs
  opaqueEntries := lastPerKey layout.opaqueEntries

/-- The first lane `collection_field_layouts` cannot count in 32 bits. -/
def laneOverflow (layout : StateLayout) : Option String :=
  ((collectionFieldLayouts layout).find? fun entry => 2 ^ 32 ≤ entry.2.capacity).map fun entry =>
    "collection '" ++ showPath entry.1.1 ++ "' field '" ++ showPath entry.1.2 ++
      "' has capacity exceeding u32 migration capacity"

def planLayouts (active incoming : StateLayout) (abiRejection : Option String) :
    Except String StateMigrationPreview :=
  match laneOverflow active <|> laneOverflow incoming with
  | some error => .error error
  | none => .ok <|
    if active = incoming then
      { layoutChanged := false, migrationSteps := [], rejections := abiRejection.toList }
    else changedLayoutPlan (collected active) (collected incoming) abiRejection

variable {layout : StateLayout} {entry : StateScalarLayout} {path : Path}

lemma mem_scalars_collected :
    entry ∈ (collected layout).scalars ↔ scalarAt layout entry.path = some entry :=
  mem_lastBy

lemma nodup_scalars_collected (layout : StateLayout) :
    ((collected layout).scalars.map StateScalarLayout.path).Nodup :=
  nodup_lastBy _ _

lemma path_of_scalarAt (h : scalarAt layout path = some entry) : entry.path = path := by
  simpa using find?_some h

lemma lookup_scalarTypes_collected (layout : StateLayout) (path : Path) :
    (scalarTypes (collected layout)).lookup path =
      (scalarAt layout path).map fun entry => (entry.typeName, entry.storageType) := by
  have hkeys : ((scalarTypes (collected layout)).map Prod.fst).Nodup := by
    rw [scalarTypes, map_map]
    exact nodup_scalars_collected layout
  ext types
  rw [Option.map_eq_some_iff]
  constructor
  · intro h
    obtain ⟨entry, hentry, heq⟩ := mem_map.mp (mem_of_lookup h)
    cases heq
    exact ⟨entry, mem_scalars_collected.mp hentry, rfl⟩
  · rintro ⟨entry, hentry, rfl⟩
    obtain rfl := path_of_scalarAt hentry
    exact lookup_of_mem hkeys (mem_map.mpr ⟨entry, mem_scalars_collected.mpr hentry, rfl⟩)

lemma lookup_lanesOfPath (entries : List ((Path × Path) × CollectionFieldLayout))
    (path field : Path) :
    (entries.filterMap fun entry =>
      if entry.1.1 = path then some (entry.1.2, entry.2) else none).lookup field =
        entries.lookup (path, field) := by
  induction entries with
  | nil => rfl
  | cons entry entries ih =>
    obtain ⟨⟨owner, name⟩, lane⟩ := entry
    by_cases howner : owner = path
    · subst howner
      by_cases hname : field = name
      · simp [hname]
      · have hfield : (field == name) = false := beq_eq_false_iff_ne.mpr hname
        have hpair : ((owner, field) == (owner, name)) = false := by simpa using hname
        simp only [filterMap_cons, if_true, lookup_cons, hfield, hpair]
        exact ih
    · have hpair : ((path, field) == (owner, name)) = false := by
        rw [beq_eq_false_iff_ne]
        intro h
        exact howner (congrArg Prod.fst h).symm
      simp only [filterMap_cons, if_neg howner, lookup_cons, hpair]
      exact ih

lemma lookup_reverse_lanesOfPath (layout : StateLayout) (path field : Path) :
    (lanesOfPath layout path).reverse.lookup field = laneAt layout path field := by
  rw [lanesOfPath, ← filterMap_reverse, lookup_lanesOfPath]
  rfl

lemma collectionFieldLayouts_collected (layout : StateLayout) :
    collectionFieldLayouts (collected layout) =
      (lastBy StateCollectionLayout.path layout.collections).flatMap fun collection =>
        (lastPerKey (lanesOfPath layout collection.path)).map fun entry =>
          ((collection.path, entry.1), entry.2) := by
  simp only [collectionFieldLayouts, collected, flatMap_map, collectedFields, map_map]
  rfl

variable {lane : CollectionFieldLayout}

lemma mem_lanes_collected :
    ((path, field), lane) ∈ collectionFieldLayouts (collected layout) ↔
      laneAt layout path field = some lane := by
  rw [collectionFieldLayouts_collected, mem_flatMap]
  constructor
  · rintro ⟨collection, -, hmem⟩
    obtain ⟨entry, hentry, heq⟩ := mem_map.mp hmem
    cases heq
    rw [← lookup_reverse_lanesOfPath]
    exact mem_lastPerKey.mp hentry
  · intro h
    -- the lane stands in some collection of the path, so the path is collected
    have hmem := mem_reverse.mp (mem_of_lookup h)
    obtain ⟨owner, howner, hfield⟩ := mem_flatMap.mp hmem
    obtain ⟨_, -, heq⟩ := mem_map.mp hfield
    have hpath : owner.path = path := congrArg (fun entry => entry.1.1) heq
    obtain ⟨collection, hcoll, -, hcolPa⟩ := exists_find? (mem_reverse.mpr howner)
      (·.path = path) hpath
    subst hcolPa
    refine ⟨collection, mem_lastBy.mpr hcoll, mem_map.mpr ⟨(field, lane), ?_, rfl⟩⟩
    rw [mem_lastPerKey, lookup_reverse_lanesOfPath]
    exact h

lemma nodup_lanes_collected (layout : StateLayout) :
    ((collectionFieldLayouts (collected layout)).map Prod.fst).Nodup := by
  rw [collectionFieldLayouts_collected, map_flatMap, nodup_flatMap]
  constructor
  · intro collection _
    have hfie := nodup_lastPerKey (lanesOfPath layout collection.path)
    have hkeys := hfie.map (Prod.mk_right_injective collection.path)
    rw [map_map] at hkeys ⊢
    exact hkeys
  · have hpaths := pairwise_map.mp
      (nodup_lastBy StateCollectionLayout.path layout.collections)
    refine hpaths.imp ?_
    intro first second hne key hfirst hsec
    simp only [map_map, mem_map, comp] at hfirst hsec
    obtain ⟨_, -, rfl⟩ := hfirst
    obtain ⟨_, -, heq⟩ := hsec
    exact hne (congrArg Prod.fst heq).symm

namespace StateMigrationStep

def writesScalar (path : Path) (step : StateMigrationStep) : Bool :=
  step.kind ≠ .remove ∧ step.path = path ∧ step.field = none

def writesLane (path field : Path) (step : StateMigrationStep) : Bool :=
  step.kind ≠ .remove ∧ step.path = path ∧ step.field = some field

def contains (index : ℕ) (step : StateMigrationStep) : Bool :=
  step.startIndex ≤ index ∧ index < step.startIndex + step.elements

end StateMigrationStep

open StateMigrationStep (writesLane writesScalar)

section Steps

lemma of_mem_incomingScalar (h : step ∈ (incomingScalar active entry).1) :
    step.kind ≠ .remove ∧ step.path = entry.path ∧ step.field = none := by
  unfold incomingScalar at h
  split_ifs at h
  · cases h
  · split at h
    · split_ifs at h
      · obtain rfl := mem_singleton.mp h
        exact ⟨nofun, rfl, rfl⟩
      · cases h
    · obtain rfl := mem_singleton.mp h
      exact ⟨nofun, rfl, rfl⟩

lemma of_mem_incomingLane {entry : (Path × Path) × CollectionFieldLayout}
    (h : step ∈ (incomingLane active entry).1) :
    step.kind ≠ .remove ∧ step.path = entry.1.1 ∧ step.field = some entry.1.2 := by
  obtain ⟨⟨path, field⟩, lane⟩ := entry
  unfold incomingLane at h
  dsimp only at h
  split at h
  · split_ifs at h
    · rcases mem_cons.mp h with rfl | h
      · exact ⟨nofun, rfl, rfl⟩
      · obtain rfl := mem_singleton.mp h
        exact ⟨nofun, rfl, rfl⟩
    · obtain rfl := mem_singleton.mp h
      exact ⟨nofun, rfl, rfl⟩
    · cases h
  · obtain rfl := mem_singleton.mp h
    exact ⟨nofun, rfl, rfl⟩

lemma mem_removedScalarSteps : step ∈ removedScalarSteps active incoming ↔
    ∃ entry ∈ active.scalars, isMaxLengthHeader entry.path = false ∧
      (scalarTypes incoming).lookup entry.path = none ∧
        step = scalarStep .remove entry.path entry.storageType := by
  simp only [removedScalarSteps, mem_filterMap]
  constructor
  · rintro ⟨entry, hentry, h⟩
    split_ifs at h with hkept
    obtain ⟨hhead, hlook⟩ := not_or.mp hkept
    cases h
    exact ⟨entry, hentry, by simpa using hhead, Option.not_isSome_iff_eq_none.mp hlook, rfl⟩
  · rintro ⟨entry, hentry, hhead, hlook, rfl⟩
    exact ⟨entry, hentry, by simp [hhead, hlook]⟩

lemma mem_removedLaneSteps : step ∈ removedLaneSteps active incoming ↔
    ∃ path field lane, ((path, field), lane) ∈ collectionFieldLayouts active ∧
      (collectionFieldLayouts incoming).lookup (path, field) = none ∧
        step = collectionStep .remove path field lane.storageType 0 lane.capacity
          lane.capacity 0 := by
  simp only [removedLaneSteps, mem_filterMap]
  constructor
  · rintro ⟨⟨⟨path, field⟩, lane⟩, hlane, h⟩
    split_ifs at h with hkept
    cases h
    exact ⟨path, field, lane, hlane, Option.not_isSome_iff_eq_none.mp hkept, rfl⟩
  · rintro ⟨path, field, lane, hlane, hlook, rfl⟩
    exact ⟨_, hlane, by simp [hlook]⟩

lemma migrationSteps_changedLayoutPlan (active incoming : StateLayout)
    (abiRejection : Option String) :
    (changedLayoutPlan active incoming abiRejection).migrationSteps =
      incoming.scalars.flatMap (fun entry => (incomingScalar active entry).1) ++
        removedScalarSteps active incoming ++
        (collectionFieldLayouts incoming).flatMap (fun entry => (incomingLane active entry).1) ++
        removedLaneSteps active incoming := by
  simp only [changedLayoutPlan, flatMap_map]

lemma filter_migrationSteps (hrem : ∀ step, step.kind = .remove → p step = false)
    (abiRejection : Option String) :
    (changedLayoutPlan active incoming abiRejection).migrationSteps.filter p =
      (incoming.scalars.flatMap fun entry => (incomingScalar active entry).1).filter p ++
        ((collectionFieldLayouts incoming).flatMap
          fun entry => (incomingLane active entry).1).filter p := by
  have hsca : (removedScalarSteps active incoming).filter p = [] := by
    rw [filter_eq_nil_iff]
    intro step hstep
    obtain ⟨_, _, _, _, rfl⟩ := mem_removedScalarSteps.mp hstep
    exact Bool.eq_false_iff.mp (hrem _ rfl)
  have hlanes : (removedLaneSteps active incoming).filter p = [] := by
    rw [filter_eq_nil_iff]
    intro step hstep
    obtain ⟨_, _, _, _, _, rfl⟩ := mem_removedLaneSteps.mp hstep
    exact Bool.eq_false_iff.mp (hrem _ rfl)
  rw [migrationSteps_changedLayoutPlan]
  simp only [filter_append, hsca, hlanes, append_nil]

lemma filter_writesScalar (hpaths : (incoming.scalars.map StateScalarLayout.path).Nodup)
    (hentry : entry ∈ incoming.scalars)
    (abiRejection : Option String) :
    (changedLayoutPlan active incoming abiRejection).migrationSteps.filter
        (writesScalar entry.path) = (incomingScalar active entry).1 := by
  have hsca := filter_flatMap_of_key hpaths hentry
    (f := fun entry => (incomingScalar active entry).1)
    (p := writesScalar entry.path) (by
      intro other _ hne
      rw [filter_eq_nil_iff]
      intro step hstep
      simp [writesScalar, (of_mem_incomingScalar hstep).2.1, hne])
  have hself : (incomingScalar active entry).1.filter
      (writesScalar entry.path) = (incomingScalar active entry).1 := by
    rw [filter_eq_self]
    intro step hstep
    simpa [writesScalar] using of_mem_incomingScalar hstep
  have hlanes : ((collectionFieldLayouts incoming).flatMap
      fun entry => (incomingLane active entry).1).filter
        (writesScalar entry.path) = [] := by
    rw [filter_eq_nil_iff]
    intro step hstep
    obtain ⟨lane, -, hlane⟩ := mem_flatMap.mp hstep
    simp [writesScalar, (of_mem_incomingLane hlane).2.2]
  have hrem : ∀ step : StateMigrationStep, step.kind = .remove →
      step.writesScalar entry.path = false := by
    intro step hkind
    simp [writesScalar, hkind]
  rw [filter_migrationSteps hrem, hsca, hself, hlanes, append_nil]

lemma filter_writesLane (hkeys : ((collectionFieldLayouts incoming).map Prod.fst).Nodup)
    (hlane : ((path, field), lane) ∈ collectionFieldLayouts incoming)
    (abiRejection : Option String) :
    (changedLayoutPlan active incoming abiRejection).migrationSteps.filter
        (writesLane path field) =
      (incomingLane active ((path, field), lane)).1 := by
  have hlanes := filter_flatMap_of_key hkeys hlane
    (f := fun entry => (incomingLane active entry).1)
    (p := writesLane path field) (by
      intro other _ hne
      rw [filter_eq_nil_iff]
      intro step hstep hwri
      simp only [writesLane, decide_eq_true_eq] at hwri
      obtain ⟨-, hpath, hfield⟩ := of_mem_incomingLane hstep
      rw [hpath, hfield, Option.some.injEq] at hwri
      exact hne (Prod.ext hwri.2.1 hwri.2.2))
  have hself : (incomingLane active ((path, field), lane)).1.filter
      (writesLane path field) = (incomingLane active ((path, field), lane)).1 := by
    rw [filter_eq_self]
    intro step hstep
    simpa [writesLane] using of_mem_incomingLane hstep
  have hsca : (incoming.scalars.flatMap fun entry => (incomingScalar active entry).1).filter
      (writesLane path field) = [] := by
    rw [filter_eq_nil_iff]
    intro step hstep
    obtain ⟨entry, -, hentry⟩ := mem_flatMap.mp hstep
    simp [writesLane, (of_mem_incomingScalar hentry).2.2]
  have hrem : ∀ step : StateMigrationStep, step.kind = .remove →
      step.writesLane path field = false := by
    intro step hkind
    simp [writesLane, hkind]
  rw [filter_migrationSteps hrem, hlanes, hself, hsca, nil_append]

lemma filter_remove (abiRejection : Option String) :
    (changedLayoutPlan active incoming abiRejection).migrationSteps.filter (·.kind = .remove) =
      removedScalarSteps active incoming ++ removedLaneSteps active incoming := by
  have hsca : (incoming.scalars.flatMap fun entry => (incomingScalar active entry).1).filter
      (·.kind = .remove) = [] := by
    rw [filter_eq_nil_iff]
    intro step hstep
    obtain ⟨entry, -, hentry⟩ := mem_flatMap.mp hstep
    simp [(of_mem_incomingScalar hentry).1]
  have hlanes : ((collectionFieldLayouts incoming).flatMap
      fun entry => (incomingLane active entry).1).filter (·.kind = .remove) = [] := by
    rw [filter_eq_nil_iff]
    intro step hstep
    obtain ⟨lane, -, hlane⟩ := mem_flatMap.mp hstep
    simp [(of_mem_incomingLane hlane).1]
  have hremSc : (removedScalarSteps active incoming).filter (·.kind = .remove) =
      removedScalarSteps active incoming := by
    rw [filter_eq_self]
    intro step hstep
    obtain ⟨_, _, _, _, rfl⟩ := mem_removedScalarSteps.mp hstep
    rfl
  have hremLa : (removedLaneSteps active incoming).filter (·.kind = .remove) =
      removedLaneSteps active incoming := by
    rw [filter_eq_self]
    intro step hstep
    obtain ⟨_, _, _, _, _, rfl⟩ := mem_removedLaneSteps.mp hstep
    rfl
  rw [migrationSteps_changedLayoutPlan]
  simp only [filter_append, hsca, hlanes, hremSc, hremLa, nil_append, append_nil]

lemma nodup_removedSteps (hpaths : (active.scalars.map StateScalarLayout.path).Nodup)
    (hkeys : ((collectionFieldLayouts active).map Prod.fst).Nodup) :
    (removedScalarSteps active incoming ++ removedLaneSteps active incoming).Nodup := by
  rw [nodup_append]
  refine ⟨?_, ?_, ?_⟩
  · refine List.Nodup.of_map StateMigrationStep.path (nodup_filterMap_of_key hpaths ?_)
    intro entry _ step h
    split_ifs at h
    cases h
    rfl
  · refine List.Nodup.of_map (fun step => (step.path, step.field.getD []))
      (nodup_filterMap_of_key hkeys ?_)
    rintro ⟨⟨path, field⟩, lane⟩ _ step h
    dsimp only at h
    split_ifs at h
    cases h
    rfl
  · intro scalar hsca lane hlane
    obtain ⟨_, _, _, _, rfl⟩ := mem_removedScalarSteps.mp hsca
    obtain ⟨_, _, _, _, _, rfl⟩ := mem_removedLaneSteps.mp hlane
    exact nofun

end Steps

inductive RejectionSubject
  | scalar (path : Path)
  | lane (path field : Path)
  | other
deriving DecidableEq

def subjectOfScalar (active : StateLayout) (entry : StateScalarLayout) :
    List (RejectionSubject × String) :=
  (incomingScalar active entry).2.map (Prod.mk (.scalar entry.path))

def subjectOfLane (active : StateLayout) (entry : (Path × Path) × CollectionFieldLayout) :
    List (RejectionSubject × String) :=
  (incomingLane active entry).2.map (Prod.mk (.lane entry.1.1 entry.1.2))

/-- The rejections of a plan, each with the scalar or lane it is about. -/
def rejectedSubjects (active incoming : StateLayout) (abiRejection : Option String) :
    List (RejectionSubject × String) :=
  (incomingCollectionRejections active incoming ++
      removedCollectionRejections active incoming).map (Prod.mk .other) ++
    incoming.scalars.flatMap (subjectOfScalar active) ++
    (collectionFieldLayouts incoming).flatMap (subjectOfLane active) ++
    (opaqueRejections active incoming ++ abiRejection.toList).map (Prod.mk .other)

variable {active incoming : StateLayout}

lemma map_rejectedSubjects (active incoming : StateLayout) (abiRejection : Option String) :
    (rejectedSubjects active incoming abiRejection).map Prod.snd =
      (changedLayoutPlan active incoming abiRejection).rejections := by
  simp [rejectedSubjects, changedLayoutPlan, subjectOfScalar, subjectOfLane, map_flatMap,
    flatMap_map, comp_def]

lemma countP_scalar (hpaths : (incoming.scalars.map StateScalarLayout.path).Nodup)
    (hentry : entry ∈ incoming.scalars)
    (abiRejection : Option String) :
    (rejectedSubjects active incoming abiRejection).countP (·.1 = .scalar entry.path) =
      (incomingScalar active entry).2.length := by
  have hsca := filter_flatMap_of_key hpaths hentry (f := subjectOfScalar active)
    (p := fun rejected => rejected.1 = .scalar entry.path) (by
      intro other _ hne
      simp [subjectOfScalar, filter_map, comp_def, hne])
  rw [countP_eq_length_filter]
  simp [rejectedSubjects, filter_append, hsca, subjectOfLane, subjectOfScalar,
    filter_map, filter_flatMap, comp_def]

lemma countP_lane (hkeys : ((collectionFieldLayouts incoming).map Prod.fst).Nodup)
    (hlane : ((path, field), lane) ∈ collectionFieldLayouts incoming)
    (abiRejection : Option String) :
    (rejectedSubjects active incoming abiRejection).countP (·.1 = .lane path field) =
      (incomingLane active ((path, field), lane)).2.length := by
  have hlanes := filter_flatMap_of_key hkeys hlane (f := subjectOfLane active)
    (p := fun rejected => rejected.1 = .lane path field) (by
      rintro ⟨⟨otherPath, otherField⟩, _⟩ _ hne
      have hdiff : ¬(otherPath = path ∧ otherField = field) := by
        rintro ⟨rfl, rfl⟩
        exact hne rfl
      simp [subjectOfLane, filter_map, comp_def, hdiff])
  rw [countP_eq_length_filter]
  simp [rejectedSubjects, filter_append, hlanes, subjectOfLane, subjectOfScalar,
    filter_map, filter_flatMap, comp_def]

lemma incomingScalar_once (active : StateLayout) (entry : StateScalarLayout) :
    (incomingScalar active entry).1.length + (incomingScalar active entry).2.length =
      if isMaxLengthHeader entry.path then 0 else 1 := by
  unfold incomingScalar
  split_ifs
  · rfl
  · split
    · split_ifs <;> rfl
    · rfl

/-- The steps of a lane: a copy up to the smaller capacity followed by an
initialisation of what the incoming capacity adds, or one initialisation. -/
lemma incomingLane_once (active : StateLayout) (path field : Path) (lane : CollectionFieldLayout)
    (h : incomingLane active ((path, field), lane) = (steps, rejections)) :
    steps.Pairwise (fun first second => first.startIndex + first.elements ≤ second.startIndex) ∧
      (∀ step ∈ steps, step.startIndex + step.elements ≤ lane.capacity) ∧
      ∀ index < lane.capacity,
        steps.countP (StateMigrationStep.contains index) + rejections.length = 1 := by
  unfold incomingLane at h
  cases hlook : (collectionFieldLayouts active).lookup (path, field) <;> simp only [hlook] at h
  case none =>
    cases h
    refine ⟨pairwise_singleton _ _, ?_, ?_⟩
    · intro step hstep
      obtain rfl := mem_singleton.mp hstep
      simp [collectionStep]
    · intro index hindex
      simp [collectionStep, StateMigrationStep.contains, hindex]
  case some previous =>
    split_ifs at h with htype hgrows
    · cases h
      rw [Nat.min_eq_left (Nat.le_of_lt hgrows)]
      refine ⟨by simp [collectionStep], ?_, ?_⟩
      · intro step hstep
        simp only [mem_cons, not_mem_nil, or_false] at hstep
        rcases hstep with rfl | rfl
        all_goals
          simp only [collectionStep]
          omega
      · intro index hindex
        by_cases hcop : index < previous.capacity
        · have hnew : ¬ previous.capacity ≤ index := by omega
          simp [collectionStep, StateMigrationStep.contains, hcop, hnew]
        · have hnew : previous.capacity ≤ index := by omega
          have hend : index < previous.capacity + (lane.capacity - previous.capacity) := by omega
          simp [collectionStep, StateMigrationStep.contains, hcop, hnew, hend]
    · cases h
      rw [Nat.min_eq_right (Nat.le_of_not_lt hgrows)]
      refine ⟨pairwise_singleton _ _, ?_, ?_⟩
      · intro step hstep
        obtain rfl := mem_singleton.mp hstep
        simp [collectionStep]
      · intro index hindex
        simp [collectionStep, StateMigrationStep.contains, hindex]
    · cases h
      exact ⟨List.Pairwise.nil, nofun, fun _ _ => rfl⟩

/-- A removal the plan has to list: an active scalar, outside the `max_length`
headers, or an active lane that the incoming layout does not have. -/
inductive Removed (active incoming : StateLayout) : StateMigrationStep → Prop
  | scalar {entry : StateScalarLayout} : scalarAt active entry.path = some entry →
      isMaxLengthHeader entry.path = false → scalarAt incoming entry.path = none →
      Removed active incoming (scalarStep .remove entry.path entry.storageType)
  | lane {path field : Path} {lane : CollectionFieldLayout} :
      laneAt active path field = some lane → laneAt incoming path field = none →
      Removed active incoming
        (collectionStep .remove path field lane.storageType 0 lane.capacity lane.capacity 0)

def CollectionHeader (layout : StateLayout) (path : Path) : Prop :=
  ∃ collection ∈ layout.collections, collection.path ≠ [] ∧
    path = collection.path ++ ["max_length"]

lemma CollectionHeader.isMaxLengthHeader (h : CollectionHeader layout path) :
    isMaxLengthHeader path = true := by
  obtain ⟨collection, -, hpath, rfl⟩ := h
  have hpos := length_pos_of_ne_nil hpath
  simp only [Migration.isMaxLengthHeader, length_append, length_singleton,
    getLast?_append, getLast?_singleton, Option.some_or, decide_eq_true_eq, and_true]
  omega

/-- A removal of something active, other than the header of a collection, that the
incoming layout does not have. -/
inductive Gone (active incoming : StateLayout) : StateMigrationStep → Prop
  | scalar {entry : StateScalarLayout} : scalarAt active entry.path = some entry →
      ¬ CollectionHeader active entry.path → scalarAt incoming entry.path = none →
      Gone active incoming (scalarStep .remove entry.path entry.storageType)
  | lane {path field : Path} {lane : CollectionFieldLayout} :
      laneAt active path field = some lane → laneAt incoming path field = none →
      Gone active incoming
        (collectionStep .remove path field lane.storageType 0 lane.capacity lane.capacity 0)

lemma Removed.gone (h : Removed active incoming step) : Gone active incoming step := by
  cases h with
  | scalar hentry hhead hgone =>
    exact .scalar hentry (fun h => by simp [h.isMaxLengthHeader] at hhead) hgone
  | lane hlane hgone => exact .lane hlane hgone

lemma lookup_lanes_collected (layout : StateLayout) (path field : Path) :
    (collectionFieldLayouts (collected layout)).lookup (path, field) =
      laneAt layout path field := by
  ext lane
  rw [← mem_lanes_collected]
  exact ⟨mem_of_lookup, lookup_of_mem (nodup_lanes_collected layout)⟩

lemma mem_remove_iff (abiRejection : Option String) :
    step ∈ (changedLayoutPlan (collected active) (collected incoming)
        abiRejection).migrationSteps.filter (·.kind = .remove) ↔
      Removed active incoming step := by
  rw [filter_remove, mem_append, mem_removedScalarSteps, mem_removedLaneSteps]
  simp only [lookup_scalarTypes_collected, lookup_lanes_collected, Option.map_eq_none_iff]
  constructor
  · rintro (⟨entry, hentry, hhead, hgone, rfl⟩ | ⟨path, field, lane, hlane, hgone, rfl⟩)
    · exact .scalar (mem_scalars_collected.mp hentry) hhead hgone
    · exact .lane (mem_lanes_collected.mp hlane) hgone
  · rintro (⟨hentry, hhead, hgone⟩ | ⟨hlane, hgone⟩)
    · exact .inl ⟨_, mem_scalars_collected.mpr hentry, hhead, hgone, rfl⟩
    · exact .inr ⟨_, _, _, mem_lanes_collected.mpr hlane, hgone, rfl⟩

def LanesFit (layout : StateLayout) : Prop :=
  ∀ path field, ∀ lane, ((path, field), lane) ∈ collectionFieldLayouts layout →
    lane.capacity < 2 ^ 32

lemma laneOverflow_eq_none_iff : laneOverflow layout = none ↔ LanesFit layout := by
  simp [laneOverflow, LanesFit]

/-- Layouts that list what the maps hold, in their order, have the plan of
`planStateMigration`. -/
lemma planLayouts_of_collected {active incoming : StateLayout} (hactive : LanesFit active)
    (hincoming : LanesFit incoming) (heq : collected active = active)
    (heq' : collected incoming = incoming) (abiRejection : Option String) :
    planLayouts active incoming abiRejection =
      .ok (planStateMigration active incoming abiRejection) := by
  rw [planLayouts, laneOverflow_eq_none_iff.mpr hactive, laneOverflow_eq_none_iff.mpr hincoming,
    planStateMigration, heq, heq']
  rfl

/-- What a plan for two different layouts assigns: every index of an incoming
lane and every incoming scalar once, or not at all if it is rejected. -/
structure Covers (active incoming : StateLayout) (preview : StateMigrationPreview)
    (rejected : List (RejectionSubject × String)) : Prop where
  rejections : preview.rejections = rejected.map Prod.snd
  disjoint : ∀ path field lane, laneAt incoming path field = some lane →
    (preview.migrationSteps.filter (StateMigrationStep.writesLane path field)).Pairwise
      fun first second => first.startIndex + first.elements ≤ second.startIndex
  inside : ∀ path field lane, laneAt incoming path field = some lane →
    ∀ step ∈ preview.migrationSteps.filter (StateMigrationStep.writesLane path field),
      step.startIndex + step.elements ≤ lane.capacity
  lanes : ∀ path field lane, laneAt incoming path field = some lane → ∀ index < lane.capacity,
    (preview.migrationSteps.filter (StateMigrationStep.writesLane path field)).countP
        (StateMigrationStep.contains index) + rejected.countP (·.1 = .lane path field) = 1
  scalars : ∀ path entry, scalarAt incoming path = some entry → isMaxLengthHeader path = false →
    preview.migrationSteps.countP (StateMigrationStep.writesScalar path) +
      rejected.countP (·.1 = .scalar path) = 1
  headers : ∀ path entry, scalarAt incoming path = some entry → CollectionHeader incoming path →
    preview.migrationSteps.countP (StateMigrationStep.writesScalar path) +
      rejected.countP (·.1 = .scalar path) = 0
  nodup_remove : (preview.migrationSteps.filter (·.kind = .remove)).Nodup
  remove : ∀ step, Removed active incoming step →
    step ∈ preview.migrationSteps.filter (·.kind = .remove)
  gone : ∀ step ∈ preview.migrationSteps.filter (·.kind = .remove), Gone active incoming step

lemma planned_scalar (abiRejection : Option String) (hentry : scalarAt incoming path = some entry) :
    (changedLayoutPlan (collected active) (collected incoming) abiRejection).migrationSteps.countP
        (StateMigrationStep.writesScalar path) +
      (rejectedSubjects (collected active) (collected incoming) abiRejection).countP
        (·.1 = .scalar path) = if isMaxLengthHeader path then 0 else 1 := by
  obtain rfl := path_of_scalarAt hentry
  have hmem := mem_scalars_collected.mpr hentry
  rw [countP_eq_length_filter, filter_writesScalar (nodup_scalars_collected _) hmem,
    countP_scalar (nodup_scalars_collected _) hmem]
  exact incomingScalar_once _ _

lemma covers_changedLayoutPlan (active incoming : StateLayout) (abiRejection : Option String) :
    Covers active incoming (changedLayoutPlan (collected active) (collected incoming) abiRejection)
      (rejectedSubjects (collected active) (collected incoming) abiRejection) where
  rejections := (map_rejectedSubjects _ _ _).symm
  disjoint := by
    intro path field lane hlane
    rw [filter_writesLane (nodup_lanes_collected _) (mem_lanes_collected.mpr hlane)]
    exact (incomingLane_once _ path field lane rfl).1
  inside := by
    intro path field lane hlane
    rw [filter_writesLane (nodup_lanes_collected _) (mem_lanes_collected.mpr hlane)]
    exact (incomingLane_once _ path field lane rfl).2.1
  lanes := by
    intro path field lane hlane
    rw [filter_writesLane (nodup_lanes_collected _) (mem_lanes_collected.mpr hlane),
      countP_lane (nodup_lanes_collected _) (mem_lanes_collected.mpr hlane)]
    exact (incomingLane_once _ path field lane rfl).2.2
  scalars := by
    intro path entry hentry hhead
    rw [planned_scalar abiRejection hentry, hhead]
    rfl
  headers := by
    intro path entry hentry hhead
    rw [planned_scalar abiRejection hentry, hhead.isMaxLengthHeader]
    rfl
  nodup_remove := by
    rw [filter_remove]
    exact nodup_removedSteps (nodup_scalars_collected _) (nodup_lanes_collected _)
  remove := fun _ => (mem_remove_iff abiRejection).mpr
  gone := fun _ h => ((mem_remove_iff abiRejection).mp h).gone

theorem plan_covers_incoming_layout (active incoming : StateLayout)
    (abiRejection : Option String) :
    ((planLayouts active incoming abiRejection).isOk ↔ LanesFit active ∧ LanesFit incoming) ∧
      ∀ preview, planLayouts active incoming abiRejection = .ok preview →
        (active = incoming → preview.migrationSteps = [] ∧
          (preview.stateLayoutCompatible ↔ abiRejection = none)) ∧
        (active ≠ incoming → ∃ rejected, Covers active incoming preview rejected) := by
  rw [← laneOverflow_eq_none_iff, ← laneOverflow_eq_none_iff]
  unfold planLayouts
  rcases hactive : laneOverflow active with _ | _
  swap
  · exact ⟨by simp [Except.isOk, Except.toBool], nofun⟩
  cases hincoming : laneOverflow incoming with
  | some error => exact ⟨by simp [Except.isOk, Except.toBool], nofun⟩
  | none =>
    refine ⟨by simp [Except.isOk, Except.toBool], ?_⟩
    intro preview hpreview
    obtain rfl := Except.ok.inj hpreview
    constructor
    · intro heq
      rw [if_pos heq]
      simp [StateMigrationPreview.stateLayoutCompatible]
    · intro hne
      rw [if_neg hne]
      exact ⟨_, covers_changedLayoutPlan active incoming abiRejection⟩

/-- The state of `global xs: i32[4];`: the array and the header of its length. -/
def arrayLayout : StateLayout where
  scalars := [⟨["xs", "max_length"], .scalar .i32, .i32⟩]
  collections := [⟨["xs"], 4, "i32", true, [⟨[], .scalar .i32, .i32, none⟩]⟩]
  structs := []
  opaqueEntries := []

def emptyLayout : StateLayout := ⟨[], [], [], []⟩

/-- A plan says nothing about the header of an array it introduces. -/
theorem header_of_new_array_unplanned : ∃ preview,
    planLayouts emptyLayout arrayLayout none = .ok preview ∧
      (scalarAt arrayLayout ["xs", "max_length"]).isSome ∧
      preview.migrationSteps.countP (StateMigrationStep.writesScalar ["xs", "max_length"]) = 0 ∧
      preview.rejections = [] := by
  refine ⟨changedLayoutPlan (collected emptyLayout) (collected arrayLayout) none, ?_⟩
  decide

end Stasis.Migration
