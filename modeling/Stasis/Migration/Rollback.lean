import Stasis.Migration.Activate
import Stasis.Runtime.Access

namespace Stasis.Migration

open Stasis.Runtime.Registry
open Stasis.Runtime.JitScalarValue
open List
open Stasis.Runtime Stasis.Runtime.Program

def slotType (p : Program) : StateSlot → Option ScalarType
  | .scalar path => p.scalarTypeOf path
  | .lane path field => (p.laneTypeOf path field).map Prod.fst

/-- When a rollback writes every captured slot back through the program it was read
through, and slots that share storage with an active one are read with its type. -/
structure RollbackSafe (active candidate : Program) : Prop where
  bound_distinct : active.boundKeys.Nodup
  alike : ∀ s ∈ active.slots, ∀ s' ∈ active.slots, active.slotKey s ≠ none →
    active.slotKey s = active.slotKey s' → slotType active s = slotType active s'
  routed : ∀ s ∈ candidate.slots, s ∉ active.slots → active.knows s = false
  incoming_alike : ∀ s ∈ active.slots, ∀ s' ∈ candidate.slots, s' ∉ active.slots →
    active.slotKey s ≠ none → active.slotKey s = candidate.slotKey s' →
      slotType active s = slotType candidate s'

structure SameState (p : Program) (reg reg' : Registry) : Prop where
  scalar : ∀ scalar ∈ p.stateLayout.scalars,
    p.readGlobalScalar scalar.path reg' = p.readGlobalScalar scalar.path reg
  lane : ∀ collection ∈ p.stateLayout.collections, ∀ field ∈ collection.fields,
    ∀ index < collection.fieldElementCount field,
      p.readGlobalCollectionScalar collection.path field.field index reg' =
        p.readGlobalCollectionScalar collection.path field.field index reg

lemma SameState.refl (p : Program) (reg : Registry) : SameState p reg reg :=
  ⟨fun _ _ => rfl, fun _ _ _ _ _ _ => rfl⟩

variable {active candidate : Program} {reg : Registry} {snapshot : CapturedState}

inductive Source (active candidate : Program) : StateSlot → Program → Prop
  | active {s} : s ∈ active.slots → Source active candidate s active
  | candidate {s} : s ∈ candidate.slots → s ∉ active.slots → Source active candidate s candidate

variable {p q : Program} {path field : Path} {capacity maxBytes : ℕ} {values : List JitScalarValue}
  {s : StateSlot} {r : Registry} {T : Type}

lemma mem_slots_scalar : .scalar path ∈ p.slots ↔ path ∈ (scalarSources p).map Prod.fst := by
  simp [slots, scalarSources]

lemma mem_slots_lane_iff :
    .lane path field ∈ p.slots ↔ (path, field) ∈ (laneSources p).map Prod.fst := by
  simp only [slots, laneSources, mem_append, mem_map, reduceCtorEq, and_false,
    exists_false, false_or, mem_flatMap, StateSlot.lane.injEq]
  constructor
  · rintro ⟨collection, hc, field, hf, rfl, rfl⟩
    exact ⟨_, ⟨collection, hc, field, hf, rfl⟩, rfl⟩
  · rintro ⟨_, ⟨collection, hc, field, hf, rfl⟩, heq⟩
    cases heq
    exact ⟨collection, hc, field, hf, rfl, rfl⟩

lemma readLane_ok (h : readLane p path field capacity reg = .ok values) :
    values.length = capacity ∧ ∀ (index : ℕ) v, values[index]? = some v →
      p.readGlobalCollectionScalar path field index reg = .ok v := by
  have hall := mapM_eq_ok_iff.mp h
  refine ⟨by simpa using hall.length_eq.symm, fun index v hv => ?_⟩
  obtain ⟨hlt, rfl⟩ := List.getElem?_eq_some_iff.mp hv
  have hget := (List.forall₂_iff_get.mp hall).2 index (by have := hall.length_eq; omega) hlt
  simpa using hget

variable (h : captureRuntimeState active candidate maxBytes reg = .ok snapshot)
include h

lemma captureRuntimeState_ok :
    ((firstPerKey [] (scalarSources active ++ scalarSources candidate)).mapM
        fun (path, source) => (source.readGlobalScalar path reg).map fun value => (path, value)) =
      .ok snapshot.scalars ∧
    ((firstPerKey [] (laneSources active ++ laneSources candidate)).mapM
        fun ((path, field), source, capacity) =>
          (readLane source path field capacity reg).map fun values => ((path, field), values)) =
      .ok snapshot.collections := by
  unfold captureRuntimeState at h
  dsimp only at h
  split_ifs at h
  · cases h
  obtain ⟨scalars, hsca, h⟩ := bind_ok_iff.mp h
  obtain ⟨collections, hcol, h⟩ := bind_ok_iff.mp h
  cases h
  exact ⟨hsca, hcol⟩

lemma captured_scalar (hmem : (path, v) ∈ snapshot.scalars) :
    ∃ q, Source active candidate (.scalar path) q ∧ q.readGlobalScalar path reg = .ok v := by
  obtain ⟨⟨path', q⟩, hsou, hread⟩ := exists_of_mapM_ok (captureRuntimeState_ok h).1 hmem
  obtain ⟨v', hv', heq⟩ := map_ok_iff.mp hread
  cases heq
  refine ⟨q, ?_, hv'⟩
  rcases mem_firstPerKey_append hsou with hact | ⟨hcand, hnew⟩
  · obtain ⟨scalar, hs, heq⟩ := mem_map.mp hact
    cases heq
    exact .active (mem_slots_scalar.mpr (mem_map_of_mem hact))
  · obtain ⟨scalar, hs, heq⟩ := mem_map.mp hcand
    cases heq
    exact .candidate (mem_slots_scalar.mpr (mem_map_of_mem hcand))
      (fun hin => hnew (mem_slots_scalar.mp hin))

lemma captured_lane (hmem : ((path, field), values) ∈ snapshot.collections) :
    ∃ q capacity, Source active candidate (.lane path field) q ∧
      ((path, field), q, capacity) ∈ laneSources q ∧
      readLane q path field capacity reg = .ok values := by
  obtain ⟨⟨⟨path', field'⟩, q, capacity⟩, hsou, hread⟩ :=
    exists_of_mapM_ok (captureRuntimeState_ok h).2 hmem
  obtain ⟨values', hval', heq⟩ := map_ok_iff.mp hread
  cases heq
  refine ⟨q, capacity, ?_⟩
  have hprog : ∀ {p : Program}, ((path, field), q, capacity) ∈ laneSources p → q = p := by
    intro p hp
    obtain ⟨collection, -, hfield⟩ := mem_flatMap.mp hp
    obtain ⟨f, -, heq⟩ := mem_map.mp hfield
    cases heq
    rfl
  rcases mem_firstPerKey_append hsou with hact | ⟨hcand, hnew⟩
  · obtain rfl := hprog hact
    exact ⟨.active (mem_slots_lane_iff.mpr (mem_map_of_mem hact)), hact, hval'⟩
  · obtain rfl := hprog hcand
    exact ⟨.candidate (mem_slots_lane_iff.mpr (mem_map_of_mem hcand))
      (fun hin => hnew (mem_slots_lane_iff.mp hin)), hcand, hval'⟩

def route (active candidate : Program) (s : StateSlot) : Program :=
  if active.knows s then active else candidate

omit h in
lemma route_eq_source (hsafe : RollbackSafe active candidate)
    (hsou : Source active candidate s q) (hknows : q.knows s = true) :
    route active candidate s = q := by
  cases hsou with
  | active hs => exact if_pos hknows
  | candidate hs hnew => simp [route, hsafe.routed s hs hnew]

variable {t : ScalarType}

omit h in
lemma knows_scalar (h : p.scalarTypeOf path = some t) : p.knows (.scalar path) = true := by
  obtain ⟨type, hlook, -⟩ := Option.bind_eq_some_iff.mp h
  simp [knows, hasGlobalPath, hlook]

omit h in
lemma knows_lane {t : ScalarType × ℕ} (h : p.laneTypeOf path field = some t) :
    p.knows (.lane path field) = true := by
  unfold laneTypeOf at h
  split at h
  · cases h
  · rename_i hq
    simp [knows, hasGlobalCollectionField, hq, Except.isOk, Except.toBool]

def scalarWrite (entry : Path × JitScalarValue) : Address × ℕ :=
  (scalarAddress entry.1 entry.2.type, entry.2.toBits)

def laneWrites (path field : Path) (start : ℕ) (values : List JitScalarValue) :
    List (Address × ℕ) :=
  (values.zipIdx start).map fun (v, index) => (laneAddress path field index v.type, v.toBits)

def snapshotWrites (snapshot : CapturedState) : List (Address × ℕ) :=
  snapshot.scalars.map scalarWrite ++
    snapshot.collections.flatMap fun entry => laneWrites entry.1.1 entry.1.2 0 entry.2

omit h in
lemma writeLane_eq_ok
    (h : ∀ v index, (v, index) ∈ values.zipIdx start →
      ∃ capacity, p.laneTypeOf path field = some (v.type, capacity) ∧ index < capacity)
    (r : Registry) :
    writeLane p path field start values r =
      .ok () (cells.writeAll r (laneWrites path field start values)) := by
  apply cells.forM_store
  rintro ⟨v, index⟩ hmem s
  obtain ⟨capacity, htype, hlt⟩ := h v index hmem
  exact writeGlobalCollectionScalar_eq_ok htype hlt s

omit h in
lemma restoreRuntimeState_eq_ok (hsafe : RollbackSafe active candidate)
    (h : captureRuntimeState active candidate maxBytes reg = .ok snapshot) (r : Registry) :
    restoreRuntimeState active candidate snapshot r =
      .ok () (cells.writeAll r (snapshotWrites snapshot)) := by
  have hsca : ∀ r, (snapshot.scalars.forM fun entry =>
      (route active candidate (.scalar entry.1)).writeGlobalScalar entry.1 entry.2 :
        RuntimeM Unit) r =
        .ok () (cells.writeAll r (snapshot.scalars.map scalarWrite)) := by
    intro r
    apply cells.forM_store
    rintro ⟨path, v⟩ hmem s
    obtain ⟨q, hsou, hread⟩ := captured_scalar h hmem
    obtain ⟨t, ht, rfl⟩ := readGlobalScalar_eq_ok_iff.mp hread
    change (route active candidate (.scalar path)).writeGlobalScalar path _ s = _
    rw [route_eq_source hsafe hsou (knows_scalar ht)]
    exact writeGlobalScalar_eq_ok (by simpa using ht) s
  have hlanes : ∀ r, (snapshot.collections.forM fun entry =>
      writeLane (route active candidate (.lane entry.1.1 entry.1.2)) entry.1.1 entry.1.2 0 entry.2 :
        RuntimeM Unit) r =
        .ok () (cells.writeAll r (snapshot.collections.flatMap fun entry =>
          laneWrites entry.1.1 entry.1.2 0 entry.2)) := by
    intro r
    apply cells.forM_writeAll
    rintro ⟨⟨path, field⟩, values⟩ hmem s
    obtain ⟨q, capacity, hsou, -, hread⟩ := captured_lane h hmem
    apply writeLane_eq_ok
    intro v index hv
    have hget : values[index]? = some v := by simpa using mem_zipIdx_iff_getElem?.mp hv
    obtain ⟨t, length, ht, hlt, rfl⟩ :=
      readGlobalCollectionScalar_eq_ok_iff.mp ((readLane_ok hread).2 index v hget)
    rw [route_eq_source hsafe hsou (knows_lane ht)]
    exact ⟨length, by simpa using ht, hlt⟩
  have hrun : restoreRuntimeState active candidate snapshot r =
      EStateM.bind (snapshot.scalars.forM fun entry =>
        (route active candidate (.scalar entry.1)).writeGlobalScalar entry.1 entry.2)
        (fun _ => snapshot.collections.forM fun entry => writeLane
          (route active candidate (.lane entry.1.1 entry.1.2)) entry.1.1 entry.1.2 0
            entry.2) r := rfl
  rw [hrun]
  simp only [EStateM.bind, hsca, hlanes, snapshotWrites, CellMemory.writeAll_append]

def WritesBack (reg : Registry) (w : Address × ℕ) (q : Program) (s : StateSlot) : Prop :=
  ∃ t, slotType q s = some t ∧ q.slotKey s = some w.1.slotKey ∧
    w.2 = (JitScalarValue.ofBits t (reg.load w.1)).toBits

omit h in
lemma writesBack_scalar (h : q.scalarTypeOf path = some t) :
    WritesBack reg (scalarWrite (path, .ofBits t (reg.load (scalarAddress path t)))) q
      (.scalar path) := by
  refine ⟨t, h, ?_, ?_⟩
  · simp [slotKey, scalarWrite, h]
  · simp [scalarWrite]

omit h in
lemma writesBack_lane (h : q.laneTypeOf path field = some (t, capacity)) :
    WritesBack reg (laneAddress path field index t,
      (ofBits t (reg.load (laneAddress path field index t))).toBits) q
      (.lane path field) := by
  refine ⟨t, ?_, ?_, rfl⟩
  · simp [slotType, h]
  · simp [slotKey, h, laneAddress, Address.slotKey]

lemma writesBack_of_mem (hw : w ∈ snapshotWrites snapshot) :
    ∃ s q, Source active candidate s q ∧ WritesBack reg w q s := by
  rcases mem_append.mp hw with hw | hw
  · obtain ⟨⟨path, v⟩, hmem, rfl⟩ := mem_map.mp hw
    obtain ⟨q, hsou, hread⟩ := captured_scalar h hmem
    obtain ⟨t, ht, rfl⟩ := readGlobalScalar_eq_ok_iff.mp hread
    exact ⟨_, q, hsou, writesBack_scalar ht⟩
  · obtain ⟨⟨⟨path, field⟩, values⟩, hmem, hw⟩ := mem_flatMap.mp hw
    obtain ⟨⟨v, index⟩, hv, rfl⟩ := mem_map.mp hw
    obtain ⟨q, capacity, hsou, -, hread⟩ := captured_lane h hmem
    have hget : values[index]? = some v := by simpa using mem_zipIdx_iff_getElem?.mp hv
    obtain ⟨t, length, ht, -, rfl⟩ :=
      readGlobalCollectionScalar_eq_ok_iff.mp ((readLane_ok hread).2 index v hget)
    refine ⟨_, q, hsou, ?_⟩
    simpa using writesBack_lane ht

variable (hsafe : RollbackSafe active candidate)
include hsafe

omit h in
lemma writesBack_unique (hs : s ∈ active.slots) (hsou : Source active candidate s' q)
    (hw : WritesBack reg w active s) (hw' : WritesBack reg w' q s') (hadd : w'.1 = w.1) :
    w'.2 = w.2 := by
  obtain ⟨t, ht, hkey, hval⟩ := hw
  obtain ⟨t', ht', hkey', hval'⟩ := hw'
  rw [hadd] at hkey' hval'
  have hsome : active.slotKey s ≠ none := by simp [hkey]
  have htype : slotType active s = slotType q s' := by
    cases hsou with
    | active hs' => exact hsafe.alike s hs s' hs' hsome (hkey.trans hkey'.symm)
    | candidate hs' hnew =>
      exact hsafe.incoming_alike s hs s' hs' hnew hsome (hkey.trans hkey'.symm)
  obtain rfl := Option.some.inj (ht.symm.trans (htype.trans ht'))
  rw [hval', hval]

omit h in
lemma load_restored (h : captureRuntimeState active candidate maxBytes reg = .ok snapshot)
    (hs : s ∈ active.slots) (hw : (a, (ofBits t (reg.load a)).toBits) ∈ snapshotWrites snapshot)
    (hback : WritesBack reg (a, (ofBits t (reg.load a)).toBits) active s)
    (hbac : r.Backed t.storageKind a) :
    ofBits t ((cells.writeAll r (snapshotWrites snapshot)).load a) = .ofBits t (reg.load a) := by
  have hload := CellMemory.load_writeAll_of_mem (m := cells) (s := r)
    ⟨t.storageKind, hbac, by simpa using (ofBits t (reg.load a)).toBits_lt⟩ hw (by
      intro w hmem hadd
      obtain ⟨s', q, hsou, hw'⟩ := writesBack_of_mem h hmem
      exact writesBack_unique hsafe hs hsou hback hw' hadd)
  have hround := ofBits_toBits (.ofBits t (reg.load a))
  rw [type_ofBits] at hround
  exact (congrArg (ofBits t) hload).trans hround

omit hsafe in
lemma scalarWrite_mem (hs : .scalar path ∈ active.slots) (ht : active.scalarTypeOf path = some t) :
    scalarWrite (path, .ofBits t (reg.load (scalarAddress path t))) ∈ snapshotWrites snapshot := by
  have hkey := mem_slots_scalar.mp hs
  obtain ⟨q, hact, hq⟩ := exists_mem_firstPerKey_append (r := scalarSources candidate) hkey
  obtain ⟨scalar, -, heq⟩ := mem_map.mp hact
  cases heq
  obtain ⟨entry, hentry, hread⟩ := exists_ok_of_mapM_ok (captureRuntimeState_ok h).1 hq
  have hvalue : active.readGlobalScalar scalar.path reg = .ok _ :=
    readGlobalScalar_eq_ok_iff.mpr ⟨t, ht, rfl⟩
  simp only [hvalue, Except.map, Except.ok.injEq] at hread
  subst hread
  exact mem_append_left _ (mem_map_of_mem hentry)

omit hsafe in
lemma laneWrite_mem (hs : .lane path field ∈ active.slots)
    (ht : active.laneTypeOf path field = some (t, capacity)) (hlt : index < capacity) :
    (laneAddress path field index t,
      (ofBits t (reg.load (laneAddress path field index t))).toBits) ∈
      snapshotWrites snapshot := by
  have hkey := mem_slots_lane_iff.mp hs
  obtain ⟨⟨q, count⟩, hact, hq⟩ := exists_mem_firstPerKey_append (r := laneSources candidate) hkey
  obtain ⟨collection, hc, hfield⟩ := mem_flatMap.mp hact
  obtain ⟨f, hf, heq⟩ := mem_map.mp hfield
  cases heq
  obtain ⟨hcount, -⟩ := laneTypeOf_origin (laneOrigin_of_mem hc hf) ht
  obtain ⟨entry, hentry, hread⟩ := exists_ok_of_mapM_ok (captureRuntimeState_ok h).2 hq
  obtain ⟨values, hval, rfl⟩ := map_ok_iff.mp hread
  obtain ⟨hlen, hget⟩ := readLane_ok hval
  have hin : index < values.length := by omega
  obtain ⟨t', capacity', ht', -, hv⟩ := readGlobalCollectionScalar_eq_ok_iff.mp
    (hget index values[index] (List.getElem?_eq_getElem hin))
  obtain ⟨rfl, -⟩ := Prod.mk.inj (Option.some.inj (ht.symm.trans ht'))
  apply mem_append_right
  apply mem_flatMap.mpr
  refine ⟨_, hentry, mem_map.mpr ⟨(values[index], index), ?_, ?_⟩⟩
  · simpa using mk_mem_zipIdx_iff_getElem?.mpr (List.getElem?_eq_getElem hin)
  · simp [hv]

omit h

lemma sameState_restored (h : captureRuntimeState active candidate maxBytes reg = .ok snapshot)
    (hinst : active.Installed r) :
    SameState active reg (cells.writeAll r (snapshotWrites snapshot)) := by
  constructor
  · intro scalar hsca
    have hs : .scalar scalar.path ∈ active.slots :=
      mem_append_left _ (mem_map.mpr ⟨scalar, hsca, rfl⟩)
    apply readGlobalScalar_congr
    intro t ht
    have hmem := scalarWrite_mem h hs ht
    have hback : WritesBack reg _ active (.scalar scalar.path) := writesBack_scalar ht
    simp only [scalarWrite, type_ofBits] at hmem hback
    exact load_restored hsafe h hs hmem hback (hinst.scalar ht)
  · intro collection hcoll field hfield index _
    have hs : .lane collection.path field.field ∈ active.slots := by
      apply mem_append_right
      exact mem_flatMap.mpr ⟨collection, hcoll, mem_map.mpr ⟨field, hfield, rfl⟩⟩
    apply readGlobalCollectionScalar_congr
    intro t capacity ht hlt
    exact load_restored hsafe h hs (laneWrite_mem h hs ht hlt) (writesBack_lane ht)
      (hinst.lane hs ht hlt)

def finalRegistry {T : Type} : EStateM.Result String Registry T → Registry
  | .ok _ reg => reg
  | .error _ reg => reg

omit hsafe in
def committed {T : Type} (accepted : T → Bool) : EStateM.Result String Registry T → Bool
  | .ok result _ => accepted result
  | .error _ _ => false

lemma rollbackRuntime_restores (hact : active.Activates)
    (h : captureRuntimeState active candidate maxBytes reg = .ok snapshot) (r : Registry) :
    ∃ r', rollbackRuntime (some active) candidate (some snapshot) r = .ok () r' ∧
      SameState active reg r' := by
  obtain ⟨r₁, hrun, hinst⟩ := hact.installed hsafe.bound_distinct r
  refine ⟨_, ?_, sameState_restored hsafe h hinst⟩
  have hcatch : (tryCatch active.activateStagedRuntime fun error =>
      throw ("failed restoring active JIT runtime after rejected candidate: " ++ error) :
      RuntimeM Unit) r = .ok () r₁ := by
    simp [tryCatch, tryCatchThe, MonadExceptOf.tryCatch, EStateM.tryCatch, hrun]
  calc rollbackRuntime (some active) candidate (some snapshot) r
      = EStateM.bind (tryCatch active.activateStagedRuntime fun error =>
          throw ("failed restoring active JIT runtime after rejected candidate: " ++ error))
          (fun _ => restoreRuntimeState active candidate snapshot) r := rfl
    _ = restoreRuntimeState active candidate snapshot r₁ := by
        simp only [EStateM.bind, hcatch]
    _ = .ok () _ := restoreRuntimeState_eq_ok hsafe h r₁

/-- An activation that does not commit leaves the active state as it was: a snapshot
brings it back, and without one neither the activation nor the hook can fail. -/
lemma sameState_of_not_committed
    (hact : active.Activates) (preview : StateMigrationPreview) (hookMayMutateState : Bool)
    (apply : Registry → T × Registry) (accepted : T → Bool)
    (hsnap : (preview.layoutChanged || hookMayMutateState) = true ∨
      candidate.Activates ∧ ∀ r, accepted (apply r).1 = true) (reg : Registry)
    (hfail : committed accepted (activateCandidateTransactionally (some active) candidate
      preview hookMayMutateState apply accepted reg) = false) :
    SameState active reg (finalRegistry (activateCandidateTransactionally (some active) candidate
      preview hookMayMutateState apply accepted reg)) := by
  have hsame := SameState.refl active reg
  generalize hrun : activateCandidateTransactionally (some active) candidate preview
    hookMayMutateState apply accepted reg = outcome at hfail ⊢
  -- nothing is written before the snapshot is complete
  unfold activateCandidateTransactionally at hrun
  split_ifs at hrun
  · exact hrun ▸ hsame
  split at hrun
  · exact hrun ▸ hsame
  cases hnee : (preview.layoutChanged || hookMayMutateState) with
  | false =>
    obtain ⟨hcand, hacc⟩ := hsnap.resolve_left (by simp [hnee])
    obtain ⟨hlay, hhook⟩ := Bool.or_eq_false_iff.mp hnee
    obtain ⟨bound, -, hbound⟩ := hcand.exists_bound
    simp [captureSnapshot, hhook, captureForMigration, hlay, transaction, bind, EStateM.bind,
      hbound reg, hacc] at hrun
    simp [← hrun, hacc, committed] at hfail
  | true =>
    split at hrun
    · exact hrun ▸ hsame
    rename_i hcap
    rw [captureSnapshot, hnee, if_pos rfl] at hcap
    obtain ⟨snapshot, hread, rfl⟩ := map_ok_iff.mp hcap
    split at hrun
    · exact hrun ▸ hsame
    split at hrun
    all_goals
      rename_i r _
      obtain ⟨r', hr', hstate⟩ := rollbackRuntime_restores hsafe hact hread r
      rw [hr'] at hrun
    · split_ifs at hrun with hacc
      · exact absurd hacc (by simpa [← hrun, committed] using hfail)
      · exact hrun ▸ hstate
    · exact hrun ▸ hstate

omit hsafe

def Refused (active candidate : Program) (preview : StateMigrationPreview)
    (hookMayMutateState : Bool) (reg : Registry) : Prop :=
  preview.stateLayoutCompatible = false ∨
    (preflightCollectionGrowth candidate preview).isOk = false ∨
    (captureSnapshot (some active) candidate (preview.layoutChanged || hookMayMutateState)
      reg).isOk = false ∨
    (captureForMigration (some active) preview reg).isOk = false

lemma Refused.finalRegistry_eq {preview : StateMigrationPreview} {hookMayMutateState : Bool}
    (h : Refused active candidate preview hookMayMutateState reg)
    (apply : Registry → T × Registry) (accepted : T → Bool) :
    finalRegistry (activateCandidateTransactionally (some active) candidate preview
      hookMayMutateState apply accepted reg) = reg := by
  unfold activateCandidateTransactionally
  rcases h with h | h | h | h
  · rw [if_pos h]
    rfl
  all_goals
    split_ifs
    · rfl
    split
    · rfl
  · simp_all [Except.isOk, Except.toBool]
  · split
    · rfl
    · simp_all [Except.isOk, Except.toBool]
  · split
    · rfl
    split
    · rfl
    · simp_all [Except.isOk, Except.toBool]

/-- **Hot-swap atomicity.** An activation that fails or is not accepted leaves
the active program's state as it was, whatever the commit hook did. -/
theorem rollback_restores_active_state (hactive : active.Activates)
    (preview : StateMigrationPreview) (hookMayMutateState : Bool)
    (hsnapshot : (preview.layoutChanged || hookMayMutateState) = true)
    (apply : Registry → T × Registry) (accepted : T → Bool) (reg : Registry)
    (hsafe : RollbackSafe active candidate ∨
      Refused active candidate preview hookMayMutateState reg)
    (hfail : committed accepted (activateCandidateTransactionally (some active) candidate
      preview hookMayMutateState apply accepted reg) = false) :
    SameState active reg (finalRegistry (activateCandidateTransactionally (some active) candidate
      preview hookMayMutateState apply accepted reg)) := by
  rcases hsafe with hsafe | hrefused
  · exact sameState_of_not_committed hsafe hactive preview hookMayMutateState apply accepted
      (.inl hsnapshot) reg hfail
  · rw [hrefused.finalRegistry_eq]
    exact SameState.refl active reg

/-- A program whose globals are the `i32` arrays and scalars listed. -/
def sampleMetadata (arrays : List (String × ℕ)) (scalars : List String) : ProgramMetadata where
  globalPathTypes :=
    scalars.map (fun name => ([name], .scalar .i32)) ++
      arrays.flatMap fun (name, n) =>
        [([name], .arrayFixed (.scalar .i32) n), ([name, "length"], .scalar .i32),
          ([name, "max_length"], .scalar .i32)]
  collectionInfos := arrays.map fun (name, n) =>
    ([name], ⟨n, some (.scalar .i32), [], "i32", true⟩)
  typedCollectionDescriptors := []
  structNames := []
  initialization := ⟨[], []⟩
  stringLiterals := []

def sampleActive : Program where
  toProgramMetadata := sampleMetadata [("x", 4), ("y", 2)] []
  wellFormed := by constructor <;> decide +kernel

def sampleState : Registry := finalRegistry (sampleActive.activateStagedRuntime .empty)

/-- A hook that sets `y[0]` through the candidate and is not accepted. -/
def setThenReject (candidate : Program) (reg : Registry) : Bool × Registry :=
  (false, finalRegistry (candidate.writeGlobalCollectionScalar ["y"] [] 0 (.i32 7) reg))

def sampleGrown : Program where
  toProgramMetadata := sampleMetadata [("x", 6), ("y", 2)] []
  wellFormed := by constructor <;> decide +kernel

theorem rollback_restores_grown_array :
    SameState sampleActive sampleState (finalRegistry (activateCandidateTransactionally
      (some sampleActive) sampleGrown
      (planStateMigration sampleActive.stateLayout sampleGrown.stateLayout none) true
      (setThenReject sampleGrown) id sampleState)) :=
  rollback_restores_active_state ⟨.empty, by decide +kernel⟩ _ _ (by decide +kernel) _ _ _
    (.inl (by constructor <;> decide +kernel)) (by decide +kernel)

/-- The candidate turns the array `x` into a scalar of the same name. -/
def sampleRetyped : Program where
  toProgramMetadata := sampleMetadata [("y", 2)] ["x"]
  wellFormed := by constructor <;> decide +kernel

/-- The plan accepts this candidate, but the captured scalar `x` is written back
through the active program, where `x` is an array: the rollback stops there and
the hook's write to `y[0]` stays. -/
theorem rollback_loses_array_element :
    let preview := planStateMigration sampleActive.stateLayout sampleRetyped.stateLayout none
    let result := activateCandidateTransactionally (some sampleActive) sampleRetyped preview true
      (setThenReject sampleRetyped) id sampleState
    preview.stateLayoutCompatible = true ∧ committed id result = false ∧
      sampleActive.readGlobalCollectionScalar ["y"] [] 0 sampleState = .ok (.i32 0) ∧
      sampleActive.readGlobalCollectionScalar ["y"] [] 0 (finalRegistry result) = .ok (.i32 7) := by
  decide +kernel

end Stasis.Migration
