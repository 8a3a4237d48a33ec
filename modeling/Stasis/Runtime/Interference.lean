import Stasis.Lib.Domains
import Stasis.Runtime.Access

namespace Stasis.Runtime

open Registry
open List

structure SlotView where
  scalar : Option ℕ
  lane : Option Lane
  fallback : List (ℕ × ℕ)
  literal : Option (List UInt8)

namespace Registry

def slotView (reg : Registry) : SlotKey → SlotView
  | .scalar table hash => ⟨reg.scalars table hash, none, [], none⟩
  | .lane table key => ⟨none, reg.lanes table key, reg.fallback table key, reg.literals key.1⟩

variable {reg reg' : Registry} {k : SlotKey} {key : ArrayKey}

lemma load_eq_of_slotView (h : reg.slotView a.slotKey = reg'.slotView a.slotKey) :
    reg.load a = reg'.load a := by
  cases a with
  | scalar table hash =>
    obtain ⟨hsca, -, -, -⟩ := SlotView.mk.inj h
    rw [load, load, scalarLoad, scalarLoad, hsca]
  | element table key index =>
    obtain ⟨-, hlane, hfal, hlit⟩ := SlotView.mk.inj h
    simp only [load, arrayLoad, hlane, hfal, hlit]

/-- `discard_integer_array_lane`: only a lane of the retained width stays. -/
def discardIntegerArrayLane (reg : Registry) (key : ArrayKey) (retained : JitStorageKind) :
    Registry :=
  { reg with lanes := fun t k =>
      if t = .int ∧ k = key then (reg.lanes t k).filter (·.kind = retained) else reg.lanes t k }

lemma slotView_store_of_ne (reg : Registry) (h : k ≠ a.slotKey) (v : ℕ) :
    (reg.store a v).slotView k = reg.slotView k := by
  cases a with
  | scalar table hash =>
    cases k with
    | scalar t hash' =>
      have hne : ¬(t = table ∧ hash' = hash) := by
        rintro ⟨rfl, rfl⟩
        exact h rfl
      simp [store, scalarStore, slotView, hne]
    | lane t key => rfl
  | element table key index =>
    cases k with
    | scalar t hash =>
      simp only [store, arrayStore]
      split <;> rfl
    | lane t key' =>
      have hne : ¬(t = table ∧ key' = key) := by
        rintro ⟨rfl, rfl⟩
        exact h rfl
      simp only [store, arrayStore]
      split <;> simp [setLane, setFallback, slotView, hne]

variable {table : StorageTable} {hash : UInt32} {kind : JitStorageKind}

lemma slotView_provisionScalar_of_ne (reg : Registry) (h : k ≠ .scalar table hash) (initial : ℕ) :
    (reg.provisionScalar table hash initial).slotView k = reg.slotView k := by
  unfold provisionScalar
  split
  · rfl
  · exact reg.slotView_store_of_ne (a := .scalar table hash) h initial

lemma slotView_provisionLane_of_ne (reg : Registry) (h : k ≠ .lane kind.table key)
    (len initial : ℕ) :
    (reg.provisionLane kind key len initial).slotView k = reg.slotView k := by
  cases k with
  | scalar t hash => rfl
  | lane t key' =>
    have hne : ¬(t = kind.table ∧ key' = key) := by
      rintro ⟨rfl, rfl⟩
      exact h rfl
    obtain ⟨hlanes, hfal⟩ := reg.provisionLane_of_ne len initial hne
    simp only [slotView, hlanes, hfal]
    rfl

lemma slotView_discard_of_ne (reg : Registry) (h : k ≠ .lane .int key) (retained : JitStorageKind) :
    (reg.discardIntegerArrayLane key retained).slotView k = reg.slotView k := by
  cases k with
  | scalar t hash => rfl
  | lane t key' =>
    have hne : ¬(t = .int ∧ key' = key) := by
      rintro ⟨rfl, rfl⟩
      exact h rfl
    simp [discardIntegerArrayLane, slotView, hne]

lemma slotView_store_self (h : reg.slotView a.slotKey = reg'.slotView a.slotKey) (v : ℕ) :
    (reg.store a v).slotView a.slotKey = (reg'.store a v).slotView a.slotKey := by
  cases a with
  | scalar table hash => simp [store, scalarStore, slotView, Address.slotKey]
  | element table key index =>
    obtain ⟨-, hlane, hfal, hlit⟩ := SlotView.mk.inj h
    simp only [store, arrayStore, hlane]
    cases hl : reg'.lanes table key with
    | none => simp [hlane, hl, setFallback, slotView, Address.slotKey, hfal, hlit]
    | some lane => simp [setLane, slotView, Address.slotKey, hfal, hlit]

lemma slotView_provisionScalar_self
    (h : reg.slotView (.scalar table hash) = reg'.slotView (.scalar table hash)) (initial : ℕ) :
    (reg.provisionScalar table hash initial).slotView (.scalar table hash) =
      (reg'.provisionScalar table hash initial).slotView (.scalar table hash) := by
  obtain ⟨hsca, -, -, -⟩ := SlotView.mk.inj h
  simp only [provisionScalar, hsca]
  cases hs : reg'.scalars table hash with
  | none => simp [slotView, scalarStore]
  | some v => simp [hsca, hs, slotView]

lemma slotView_provisionLane_self
    (h : reg.slotView (.lane kind.table key) = reg'.slotView (.lane kind.table key))
    (len initial : ℕ) :
    (reg.provisionLane kind key len initial).slotView (.lane kind.table key) =
      (reg'.provisionLane kind key len initial).slotView (.lane kind.table key) := by
  obtain ⟨-, hlane, hfal, hlit⟩ := SlotView.mk.inj h
  simp [provisionLane, setLane, setFallback, slotView, hlane, hfal, hlit]

lemma slotView_discard_self (h : reg.slotView (.lane .int key) = reg'.slotView (.lane .int key))
    (retained : JitStorageKind) :
    (reg.discardIntegerArrayLane key retained).slotView (.lane .int key) =
      (reg'.discardIntegerArrayLane key retained).slotView (.lane .int key) := by
  obtain ⟨-, hlane, hfal, hlit⟩ := SlotView.mk.inj h
  simp [discardIntegerArrayLane, slotView, hlane, hfal, hlit]

end Registry

inductive LaneOperation
  | provision (bits : ℕ)
  | resize (len bits : ℕ)
  | discard (retained : JitStorageKind)
  | write (index value : ℕ)
deriving DecidableEq

namespace StorageLane

/-- An operation on the storage of a lane.  A scalar slot has no length and is
never discarded; the index of a write to it is not looked at. -/
def apply (lane : StorageLane) : LaneOperation → Registry → Registry
  | .provision bits, reg => lane.provision bits reg
  | .resize len bits, reg =>
    match lane.slotKey with
    | .scalar _ _ => reg
    | .lane _ key => reg.provisionLane lane.kind key len bits
  | .discard retained, reg =>
    match lane.slotKey with
    | .lane .int key => reg.discardIntegerArrayLane key retained
    | _ => reg
  | .write index value, reg =>
    match lane.slotKey with
    | .scalar table hash => reg.store (.scalar table hash) value
    | .lane table key => reg.store (.element table key index) value

lemma slotKey_eq (lane : StorageLane) :
    (lane.len = none ∧ lane.slotKey = .scalar lane.kind.table lane.key.1) ∨
      lane.slotKey = .lane lane.kind.table lane.key := by
  obtain ⟨kind, key, len, default, label⟩ := lane
  cases len with
  | some n => exact .inr rfl
  | none =>
    cases kind with
    | i32 | f32 | f64 => exact .inl ⟨rfl, rfl⟩
    | u8 | u16 => exact .inr rfl

lemma slotView_apply_of_ne {lane : StorageLane} (h : k ≠ lane.slotKey) (op : LaneOperation)
    (reg : Registry) : (lane.apply op reg).slotView k = reg.slotView k := by
  cases op with
  | provision bits =>
    rcases lane.provision_eq bits reg with ⟨hash, hkey, heq⟩ | ⟨hkey, heq⟩
    · rw [apply, heq]
      exact reg.slotView_provisionScalar_of_ne (hkey ▸ h) bits
    · rw [apply, heq]
      exact reg.slotView_provisionLane_of_ne (hkey ▸ h) _ bits
  | resize len bits =>
    rcases lane.slotKey_eq with ⟨-, hkey⟩ | hkey
    · simp only [apply, hkey]
    · simp only [apply, hkey]
      exact reg.slotView_provisionLane_of_ne (hkey ▸ h) len bits
  | discard retained =>
    simp only [apply]
    split
    next key hkey => exact reg.slotView_discard_of_ne (hkey ▸ h) retained
    next => rfl
  | write index value =>
    simp only [apply]
    split
    next table hash hkey =>
      rw [hkey] at h
      exact reg.slotView_store_of_ne (a := .scalar table hash) h value
    next table key hkey =>
      rw [hkey] at h
      exact reg.slotView_store_of_ne (a := .element table key index) h value

lemma slotView_apply_self (lane : StorageLane) (op : LaneOperation)
    (h : reg.slotView lane.slotKey = reg'.slotView lane.slotKey) :
    (lane.apply op reg).slotView lane.slotKey = (lane.apply op reg').slotView lane.slotKey := by
  cases op with
  | provision bits =>
    rcases lane.provision_eq bits reg with ⟨hash, hkey, heq⟩ | ⟨hkey, heq⟩ <;>
      rcases lane.provision_eq bits reg' with ⟨hash', hkey', heq'⟩ | ⟨hkey', heq'⟩
    · obtain ⟨-, rfl⟩ := SlotKey.scalar.inj (hkey.symm.trans hkey')
      rw [apply, apply, heq, heq']
      rw [hkey] at h ⊢
      exact slotView_provisionScalar_self h bits
    · cases hkey.symm.trans hkey'
    · cases hkey.symm.trans hkey'
    · rw [apply, apply, heq, heq']
      rw [hkey] at h ⊢
      exact slotView_provisionLane_self h _ bits
  | resize len bits =>
    rcases lane.slotKey_eq with ⟨-, hkey⟩ | hkey
    · simpa only [apply, hkey] using h
    · simp only [apply, hkey] at h ⊢
      exact slotView_provisionLane_self h len bits
  | discard retained =>
    simp only [apply]
    split
    next key hkey =>
      rw [hkey] at h ⊢
      exact slotView_discard_self h retained
    next => exact h
  | write index value =>
    simp only [apply]
    split
    next table hash hkey =>
      rw [hkey] at h ⊢
      exact slotView_store_self (a := .scalar table hash) h value
    next table key hkey =>
      rw [hkey] at h ⊢
      exact slotView_store_self (a := .element table key index) h value

end StorageLane

def runOperations (reg : Registry) (ops : List (StorageLane × LaneOperation)) : Registry :=
  runSteps StorageLane.apply reg ops

lemma bindStorage_claims {lanes : List (Except String StorageLane)}
    (h : bindStorage claimed lanes reg = .ok () reg') :
    ((lanes.filterMap Except.toOption).map fun lane => (lane.kind, lane.key)).Nodup ∧
      ∀ lane, .ok lane ∈ lanes → claimed.lookup (lane.kind, lane.key) = none := by
  induction lanes generalizing claimed reg with
  | nil => exact ⟨nodup_nil, fun lane hlane => absurd hlane not_mem_nil⟩
  | cons _ lanes ih =>
    obtain ⟨lane, bits, rfl, hclaim, -, hbind⟩ := bindStorage_cons_ok h
    obtain ⟨hnodup, hfree⟩ := ih hbind
    -- the lane's own claim stands among those the remaining lanes were checked against
    have hrest : ∀ l, .ok l ∈ lanes → (l.kind, l.key) ≠ (lane.kind, lane.key) ∧
        claimed.lookup (l.kind, l.key) = none := by
      intro l hl
      have hnone := hfree l hl
      rw [lookup_cons] at hnone
      split at hnone
      · cases hnone
      next hne => exact ⟨by simpa using hne, hnone⟩
    refine ⟨?_, ?_⟩
    · simp only [filterMap_cons, Except.toOption, map_cons, nodup_cons]
      refine ⟨?_, hnodup⟩
      intro hmem
      obtain ⟨l, hl, heq⟩ := mem_map.mp hmem
      obtain ⟨entry, hentry, hok⟩ := mem_filterMap.mp hl
      cases entry with
      | error e => cases hok
      | ok l' =>
        cases hok
        exact (hrest l hentry).1 heq
    · intro l hl
      rcases mem_cons.mp hl with heq | hl
      · cases heq
        exact hclaim
      · exact (hrest l hl).2

namespace Program

variable (p : Program)

/-- The lanes the program binds, where none of them is rejected. -/
def boundLanes : List StorageLane := p.storageLanes.filterMap Except.toOption

/-- Lanes that are given the same storage have the same kind. -/
def WidthsApart : Prop :=
  ∀ lane ∈ p.boundLanes, ∀ lane' ∈ p.boundLanes, lane.slotKey = lane'.slotKey →
    lane.kind = lane'.kind

instance : Decidable p.WidthsApart :=
  inferInstanceAs (Decidable (∀ lane ∈ p.boundLanes, ∀ lane' ∈ p.boundLanes,
    lane.slotKey = lane'.slotKey → lane.kind = lane'.kind))

variable {p}

lemma mem_boundLanes : lane ∈ p.boundLanes ↔ .ok lane ∈ p.storageLanes := by
  simp only [boundLanes, mem_filterMap]
  constructor
  · rintro ⟨entry, hentry, hok⟩
    cases entry with
    | error e => cases hok
    | ok l =>
      cases hok
      exact hentry
  · intro h
    exact ⟨.ok lane, h, rfl⟩

lemma Activates.claims_nodup (h : p.Activates) :
    (p.boundLanes.map fun lane => (lane.kind, lane.key)).Nodup := by
  obtain ⟨reg, h⟩ := h
  cases hbind : bindStorage [] p.storageLanes reg with
  | error e r => simp [activateStagedRuntime, bind, EStateM.bind, hbind, succeeded] at h
  | ok u r => exact (bindStorage_claims hbind).1

lemma key_of_len_none (hlane : lane ∈ p.boundLanes) (hlen : lane.len = none) : lane.key.2 = 0 := by
  rw [mem_boundLanes] at hlane
  simp only [storageLanes, mem_append, mem_filterMap, mem_flatMap, mem_map]
    at hlane
  rcases hlane with ⟨entry, -, heq⟩ | ⟨entry, -, hmem⟩ | ⟨entry, -, l, -, heq⟩
  · unfold scalarStorageLane at heq
    split_ifs at heq
    obtain ⟨t, -, heq⟩ := Option.map_eq_some_iff.mp heq
    cases heq
    rfl
  · unfold collectionStorageLanes at hmem
    split_ifs at hmem
    · cases hmem
    · simp only [mem_append, Option.mem_toList, Option.map_eq_some_iff, mem_map] at hmem
      rcases hmem with ⟨type, -, heq⟩ | ⟨entry', -, heq⟩
      · simp only [elementStorageLane] at heq
        split at heq <;> cases heq
        cases hlen
      · simp only [fieldStorageLane] at heq
        split at heq <;> cases heq
        cases hlen
  · cases heq
    unfold typedStorageLane at hlen ⊢
    dsimp only at hlen ⊢
    split_ifs at hlen ⊢ with hmeta
    rfl

lemma slotKey_inj (h : p.Activates) (hapart : p.WidthsApart) (hlane : lane ∈ p.boundLanes)
    (hlane' : lane' ∈ p.boundLanes) (hkey : lane.slotKey = lane'.slotKey) : lane = lane' := by
  have hkind : lane.kind = lane'.kind := hapart lane hlane lane' hlane' hkey
  have hclaim : lane.key = lane'.key := by
    rcases lane.slotKey_eq with ⟨hlen, hk⟩ | hk <;>
      rcases lane'.slotKey_eq with ⟨hlen', hk'⟩ | hk' <;> rw [hk, hk'] at hkey
    · exact Prod.ext (SlotKey.scalar.inj hkey).2
        ((key_of_len_none hlane hlen).trans (key_of_len_none hlane' hlen').symm)
    · cases hkey
    · cases hkey
    · exact (SlotKey.lane.inj hkey).2
  exact inj_on_of_nodup_map h.claims_nodup hlane hlane' (Prod.ext hkind hclaim)

/-- Every entry of the walk through the storage is a lane of its own, and what a
run of operations on any of them leaves in one lane is what its own operations
leave there. -/
theorem lanes_do_not_interfere {p : Program} (haccepted : p.Activates)
    (hapart : p.WidthsApart) :
    p.boundLanes.Nodup ∧ ∀ lane ∈ p.boundLanes, ∀ (reg : Registry)
      (ops : List (StorageLane × LaneOperation)), (∀ op ∈ ops, op.1 ∈ p.boundLanes) →
      ∀ a : Address, a.slotKey = lane.slotKey →
        (runOperations reg ops).load a =
          (runOperations reg (ops.filter fun op => op.1 = lane)).load a := by
  refine ⟨haccepted.claims_nodup.of_map _, ?_⟩
  intro lane hlane reg ops hops a ha
  apply Registry.load_eq_of_slotView
  rw [ha]
  refine runSteps_purge (fun reg => Registry.slotView reg lane.slotKey) ?_ ?_ rfl
  · exact fun op _ _ h => lane.slotView_apply_self op h
  · intro op hop hne s
    refine StorageLane.slotView_apply_of_ne ?_ op.2 s
    exact fun hkey => hne (slotKey_inj haccepted hapart (hops op hop) hlane hkey.symm)

def narrowGlobals (bytes words : String) : ProgramMetadata where
  globalPathTypes := [([bytes], .scalar .u8), ([words], .scalar .u16)]
  collectionInfos := []
  typedCollectionDescriptors := []
  structNames := []
  initialization := ⟨[], []⟩
  stringLiterals := []

def lowHigh : Program where
  toProgramMetadata := narrowGlobals "low" "high"
  wellFormed := by constructor <;> decide +kernel

theorem low_and_high_do_not_interfere :
    lowHigh.Activates ∧ lowHigh.WidthsApart ∧ lowHigh.boundLanes.length = 2 ∧
      lowHigh.boundLanes.Nodup ∧ ∀ lane ∈ lowHigh.boundLanes, ∀ (reg : Registry)
        (ops : List (StorageLane × LaneOperation)), (∀ op ∈ ops, op.1 ∈ lowHigh.boundLanes) →
        ∀ a : Address, a.slotKey = lane.slotKey →
          (runOperations reg ops).load a =
            (runOperations reg (ops.filter fun op => op.1 = lane)).load a := by
  have haccepted : lowHigh.Activates := ⟨.empty, by decide +kernel⟩
  have hapart : lowHigh.WidthsApart := by decide +kernel
  exact ⟨haccepted, hapart, by decide +kernel, lanes_do_not_interfere haccepted hapart⟩

def costarringLiquid : Program where
  toProgramMetadata := narrowGlobals "costarring" "liquid"
  wellFormed := by constructor <;> decide +kernel

/-- Both claims are free, since the kinds differ, and both globals are given the
one lane of that hash: providing storage for `liquid` discards that of
`costarring`, and writing the one changes the other. -/
theorem costarring_reads_liquid :
    costarringLiquid.Activates ∧ costarringLiquid.boundLanes.Nodup ∧
      ∃ lane ∈ costarringLiquid.boundLanes, ∃ other ∈ costarringLiquid.boundLanes,
        other ≠ lane ∧
        let reg := runOperations .empty [(lane, .provision 7)]
        let a := scalarAddress ["costarring"] .u8
        a.slotKey = lane.slotKey ∧
          costarringLiquid.readGlobalScalar ["costarring"] reg = .ok (.u8 7) ∧
          costarringLiquid.readGlobalScalar ["costarring"]
            (runOperations reg [(other, .provision 0)]) = .ok (.u8 0) ∧
          costarringLiquid.readGlobalScalar ["costarring"] (runOperations reg
            [(other, .provision 0), (lane, .write 0 9), (other, .write 0 300)]) =
              .ok (.u8 44) := by
  refine ⟨⟨.empty, by decide +kernel⟩, by decide +kernel, ?_⟩
  refine ⟨costarringLiquid.boundLanes.get ⟨0, by decide +kernel⟩, List.get_mem _ _,
    costarringLiquid.boundLanes.get ⟨1, by decide +kernel⟩, List.get_mem _ _, ?_⟩
  decide +kernel

end Program

end Stasis.Runtime
