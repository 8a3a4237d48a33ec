import Stasis.Collections.Storage
import Stasis.Lib.FirstFit
import Stasis.Lib.Refine

namespace Stasis.Collections

open FirstFit
open BitVec
open List
open BitVec (ofNat ofNat_add)

namespace Keyed

open FirstFit (Agrees firstFree firstFree_eq_some size slotOf slotOf_eq_some)

inductive Kind
  | map | set
deriving DecidableEq, Repr

/-- What the scan carries from slot to slot; `-1` stands for no slot. -/
structure Scan where
  total : Word
  existing : Word
  firstFree : Word
deriving DecidableEq

def Scan.round (scan : Scan) (targetKey index occupied key : Word) : Scan where
  total := scan.total + occupied
  existing :=
    if scan.existing = -1 ∧ occupied = 1 ∧ key = targetKey then index else scan.existing
  firstFree := if scan.firstFree = -1 ∧ occupied = 0 then index else scan.firstFree

/-- The rounds from `index` on, until the last slot or an impossible byte. -/
def scanFrom (capacity : ℕ) (targetKey : Word) : ℕ → Word → Scan → Lowered (Option Scan)
  | 0, _, scan => return some scan
  | rounds + 1, index, scan => do
    let occupied ← loadElement capacity .occupied index
    let key ← loadElement capacity .keys index
    if occupied = 0 ∨ occupied = 1 then
      scanFrom capacity targetKey rounds (index + 1) (scan.round targetKey index occupied key)
    else return none

/-- `emit_typed_keyed_scan`: the count, what the scan found, and whether the count
and the bytes are possible. -/
def scan (capacity : ℕ) (targetKey : Word) : Lowered (Word × Scan × Bool) := do
  let count ← loadScalar .count
  if BitVec.sle 0 count && count.sle (ofNat 32 capacity) then
    match ← scanFrom capacity targetKey capacity 0 ⟨0, -1, -1⟩ with
    | some scan => return (count, scan, scan.total == count)
    | none => return (count, ⟨0, -1, -1⟩, false)
  else return (count, ⟨0, -1, -1⟩, false)

/-- The inner loop of `emit_typed_keyed_unique`: compare a key with those before its
slot. -/
def uniqueInner (capacity : ℕ) (currentKey : Word) : ℕ → Word → Bool → Lowered Bool
  | 0, _, valid => return valid
  | rounds + 1, priorIndex, valid => do
    let priorOccupied ← loadElement capacity .occupied priorIndex
    let priorKey ← loadElement capacity .keys priorIndex
    let duplicate := priorOccupied == 1 && priorKey == currentKey
    uniqueInner capacity currentKey rounds (priorIndex + 1) (valid && !duplicate)

def uniqueFrom (capacity : ℕ) : ℕ → Word → Bool → Lowered Bool
  | 0, _, valid => return valid
  | rounds + 1, index, valid => do
    let occupied ← loadElement capacity .occupied index
    let key ← loadElement capacity .keys index
    if occupied = 1 then
      let inner ← uniqueInner capacity key index.toNat 0 true
      uniqueFrom capacity rounds (index + 1) (valid && inner)
    else uniqueFrom capacity rounds (index + 1) valid

def keyedState (capacity : ℕ) (targetKey : Word) : Lowered (Word × Scan) := do
  let (count, found, metadataValid) ← scan capacity targetKey
  let valid ← if metadataValid then uniqueFrom capacity capacity 0 true else pure false
  metadataTrap valid
  return (count, found)

structure GuardState where
  count : Word
  existing : Word
  firstFree : Word

inductive GuardMode
  | put | access
deriving DecidableEq, Repr

/-- Whether a preflight succeeds: `can_put` and `can_add`, or `can_get`, `can_remove`
and `contains`. -/
def allowed (capacity : ℕ) (state : GuardState) : GuardMode → Bool
  | .put => BitVec.sle 0 state.existing ||
      (BitVec.sle 0 state.firstFree && state.count.slt (ofNat 32 capacity))
  | .access => BitVec.sle 0 state.existing

def guardState (capacity : ℕ) (mode : GuardMode) (key : Word) : Lowered (Bool × GuardState) := do
  if capacity = 0 then
    let count ← loadScalar .count
    metadataTrap (count == 0)
    return (false, ⟨count, -1, -1⟩)
  else
    let (count, found) ← keyedState capacity key
    let state : GuardState := ⟨count, found.existing, found.firstFree⟩
    return (allowed capacity state mode, state)

def mapPutFast (capacity : ℕ) (state : GuardState) (key value : Word) : Lowered Unit := do
  if BitVec.sle 0 state.existing then
    storeElement capacity .values state.existing value
  else
    storeElement capacity .occupied state.firstFree 1
    storeElement capacity .keys state.firstFree key
    storeElement capacity .values state.firstFree value
    storeScalar .count (state.count + 1)

def setAddFast (capacity : ℕ) (state : GuardState) (key : Word) : Lowered Unit := do
  if BitVec.sle 0 state.existing then pure ()
  else
    storeElement capacity .occupied state.firstFree 1
    storeElement capacity .keys state.firstFree key
    storeScalar .count (state.count + 1)

/-- `emit_typed_keyed_remove_fast`; a set has no lane of values. -/
def removeFast (kind : Kind) (capacity : ℕ) (state : GuardState) : Lowered Unit := do
  storeElement capacity .occupied state.existing 0
  storeElement capacity .keys state.existing 0
  if kind = .map then storeElement capacity .values state.existing 0
  storeScalar .count (state.count - 1)

inductive Op
  | put (key value : Word)
  | get (key : Word)
  | add (key : Word)
  | remove (key : Word)
  | contains (key : Word)
deriving DecidableEq, Repr

def Op.belongsTo : Op → Kind → Bool
  | put _ _, kind | get _, kind => kind = .map
  | add _, kind => kind = .set
  | remove _, _ | contains _, _ => true

/-- An action that runs only if its preflight allows it, from the state the
preflight captured. -/
def guarded (capacity : ℕ) (mode : GuardMode) (key : Word)
    (action : GuardState → Lowered Outcome) : Lowered Outcome := do
  let (can, state) ← guardState capacity mode key
  if can then action state else return .refused

/-- The code of a call, each guarded action inside its own `if can_…`. -/
def lower (kind : Kind) (capacity : ℕ) : Op → Lowered Outcome
  | .put key value => guarded capacity .put key fun state => do
      mapPutFast capacity state key value
      return .done
  | .get key => guarded capacity .access key fun state => do
      return .value (← loadElement capacity .values state.existing)
  | .add key => guarded capacity .put key fun state => do
      setAddFast capacity state key
      return .done
  | .remove key => guarded capacity .access key fun state => do
      removeFast kind capacity state
      return .done
  | .contains key => do
      let (present, _) ← guardState capacity .access key
      return .value (Word.ofBool present)

/-- The capacity is refused by `emit_typed_keyed_scan`. A call of the other collection,
for which `try_emit_typed_map_call` or `try_emit_typed_set_call` returns no value, is not
emitted either; the text for it is the model's own. -/
def emit (kind : Kind) (capacity : ℕ) (op : Op) : Except String (Lowered Outcome) := do
  let _ ← capacityI32 "typed keyed collection" "i32 range" capacity
  if op.belongsTo kind then pure (lower kind capacity op)
  else .error "call is not an operation of this collection"

def byteAt (s : Storage) (i : ℕ) : Word := ArrayLane.occupied.narrow (s.array .occupied i)

def table (s : Storage) : FirstFit Word Word := fun i =>
  if byteAt s i = 1 then some (s.array .keys i, s.array .values i) else none

def slotWord : Option ℕ → Word
  | some i => ofNat 32 i
  | none => -1

section scans

variable {capacity : ℕ} {s : Storage} {key : Word} {e : Option ℕ} {i j n : ℕ}

variable (he : ∀ a ∈ e, a < 2 ^ 31)
include he

lemma slotWord_eq_neg_one : slotWord e = -1 ↔ e = none := by
  cases e with
  | none => simp [slotWord]
  | some a =>
    have ha := he a rfl
    simp only [slotWord, reduceCtorEq, iff_false]
    intro h
    have hnat := congrArg BitVec.toNat h
    rw [Word.toNat_ofNat ha] at hnat
    change a = 2 ^ 32 - 1 at hnat
    omega

lemma zero_sle_slotWord : BitVec.sle 0 (slotWord e) = e.isSome := by
  cases e with
  | none => rfl
  | some a =>
    have ha := he a rfl
    rw [slotWord, Word.zero_sle, Word.toNat_ofNat ha]
    simpa using ha

lemma slotWord_orElse (p : Prop) [Decidable p] (i : ℕ) :
    (if slotWord e = -1 ∧ p then ofNat 32 i else slotWord e) =
      slotWord (e <|> if p then some i else none) := by
  simp only [slotWord_eq_neg_one he]
  cases e with
  | none =>
    by_cases hp : p
    · simp [hp, slotWord]
    · simp [hp]
  | some a => simp

omit he

lemma run_scanFrom (hc : capacity < 2 ^ 31) (key : Word) (h : i + n ≤ capacity)
    (he : ∀ a ∈ e, a < 2 ^ 31) (hf : ∀ a ∈ f, a < 2 ^ 31) :
    scanFrom capacity key n (ofNat 32 i) ⟨t, slotWord e, slotWord f⟩ s =
      .ok (if (range' i n).all fun j => byteAt s j = 0 ∨ byteAt s j = 1 then
        some
          { total := t + ofNat 32 ((range' i n).countP fun j => byteAt s j = 1)
            existing := slotWord (e <|> (range' i n).find? fun j =>
              byteAt s j = 1 ∧ s.array .keys j = key)
            firstFree := slotWord (f <|> (range' i n).find? fun j => byteAt s j = 0) }
        else none) s := by
  induction n generalizing i t e f with
  | zero => simp [scanFrom]
  | succ n ih =>
    have hi : (ofNat 32 i).toNat = i := Word.toNat_ofNat (by omega)
    have hlt : (ofNat 32 i).toNat < capacity := by omega
    rw [scanFrom, bind_of_ok (run_loadElement hlt), bind_of_ok (run_loadElement hlt), hi,
      range'_succ]
    change (if byteAt s i = 0 ∨ byteAt s i = 1 then _ else _ : Lowered (Option Scan)) s = _
    by_cases hbyte : byteAt s i = 0 ∨ byteAt s i = 1
    · have hround : Scan.round ⟨t, slotWord e, slotWord f⟩ key (ofNat 32 i) (byteAt s i)
          (ArrayLane.keys.narrow (s.array .keys i)) =
          ⟨t + byteAt s i,
            slotWord (e <|> if byteAt s i = 1 ∧ s.array .keys i = key then some i else none),
            slotWord (f <|> if byteAt s i = 0 then some i else none)⟩ := by
        rw [← slotWord_orElse he, ← slotWord_orElse hf]
        rfl
      have hbound : ∀ (g : Option ℕ) (p : Prop) [Decidable p], (∀ a ∈ g, a < 2 ^ 31) →
          ∀ a ∈ (g <|> if p then some i else none), a < 2 ^ 31 := by
        intro g p _ hg a ha
        cases g with
        | some b => exact hg a ha
        | none =>
          by_cases hp : p
          · simp only [hp, if_true] at ha
            cases ha
            omega
          · simp [hp] at ha
      rw [if_pos hbyte]
      change scanFrom capacity key n (ofNat 32 i + 1) (Scan.round _ _ _ (byteAt s i) _) s = _
      rw [hround, show ofNat 32 i + 1 = ofNat 32 (i + 1) by simp [ofNat_add],
        ih (by omega) (hbound e _ he) (hbound f _ hf), all_cons, decide_eq_true hbyte,
        Bool.true_and, countP_cons, find?_cons, find?_cons]
      obtain hzero | hone := hbyte
      · simp [hzero]
      · by_cases hkey : s.array .keys i = key
        all_goals simp [hone, hkey, ofNat_add, add_assoc, add_comm]
    · rw [if_neg hbyte, all_cons, decide_eq_false hbyte, Bool.false_and, if_neg Bool.false_ne_true]
      rfl

lemma run_uniqueInner (hc : capacity < 2 ^ 31) (h : j + n ≤ capacity) (valid : Bool) :
    uniqueInner capacity key n (ofNat 32 j) valid s =
      .ok (valid && (range' j n).all fun p => !(byteAt s p == 1 && s.array .keys p == key)) s := by
  induction n generalizing j valid with
  | zero => simp [uniqueInner]
  | succ n ih =>
    have hj : (ofNat 32 j).toNat = j := Word.toNat_ofNat (by omega)
    have hlt : (ofNat 32 j).toNat < capacity := by omega
    rw [uniqueInner, bind_of_ok (run_loadElement hlt), bind_of_ok (run_loadElement hlt), hj,
      range'_succ, all_cons, ← Bool.and_assoc, ← ih (by omega)]
    rw [ofNat_add]
    rfl

lemma run_uniqueFrom (hc : capacity < 2 ^ 31) (h : i + n ≤ capacity) (valid : Bool) :
    uniqueFrom capacity n (ofNat 32 i) valid s =
      .ok (valid && (range' i n).all fun a => byteAt s a != 1 || (range' 0 a).all fun p =>
          !(byteAt s p == 1 && s.array .keys p == s.array .keys a)) s := by
  induction n generalizing i valid with
  | zero => simp [uniqueFrom]
  | succ n ih =>
    have hi : (ofNat 32 i).toNat = i := Word.toNat_ofNat (by omega)
    have hlt : (ofNat 32 i).toNat < capacity := by omega
    have hnext : ofNat 32 i + 1 = ofNat 32 (i + 1) := by simp [ofNat_add]
    rw [uniqueFrom, bind_of_ok (run_loadElement hlt), bind_of_ok (run_loadElement hlt), hi, hnext,
      range'_succ, all_cons, ← Bool.and_assoc]
    change (if byteAt s i = 1 then _ else _ : Lowered Bool) s = _
    by_cases hone : byteAt s i = 1
    · have hinner : uniqueInner capacity (s.array .keys i) i 0 true s = _ :=
        run_uniqueInner hc (show 0 + i ≤ capacity by omega) true
      rw [if_pos hone]
      change (uniqueInner capacity (s.array .keys i) i 0 true >>= _ : Lowered Bool) s = _
      rw [bind_of_ok hinner, ih (by omega)]
      simp [hone]
    · rw [if_neg hone, ih (by omega), bne_iff_ne.mpr hone, Bool.true_or, Bool.and_true]

end scans

structure Possible (capacity : ℕ) (s : Storage) : Prop where
  bytes : ∀ i < capacity, byteAt s i = 0 ∨ byteAt s i = 1
  count : s.scalar .count = ofNat 32 (FirstFit.size capacity (table s))
  unique : FirstFit.Unique capacity (table s)

section preflights

variable {capacity : ℕ} {s : Storage} {key : Word}

lemma table_of_occupied (h : byteAt s i = 1) :
    table s i = some (s.array .keys i, s.array .values i) := if_pos h

lemma table_of_free (h : byteAt s i ≠ 1) : table s i = none := if_neg h

lemma table_isSome : (table s i).isSome ↔ byteAt s i = 1 := by
  by_cases h : byteAt s i = 1
  · simp [table_of_occupied h, h]
  · simp only [table_of_free h, h, Option.isSome_none, Bool.false_eq_true]

lemma keyAt_table : (table s).keyAt i = some key ↔ byteAt s i = 1 ∧ s.array .keys i = key := by
  rw [keyAt]
  by_cases h : byteAt s i = 1
  · simp [table_of_occupied h, h]
  · simp only [table_of_free h, h, Option.map_none, reduceCtorEq, false_and]

lemma countP_occupied :
    (range' 0 capacity).countP (fun j => byteAt s j = 1) = size capacity (table s) := by
  rw [size, Finset.card, Finset.filter_val, Finset.range_val, Multiset.range,
    Multiset.filter_coe, Multiset.coe_card, ← countP_eq_length_filter,
    ← range_eq_range']
  apply countP_congr
  intro j _
  simp [table_isSome]

lemma find?_occupied :
    (range' 0 capacity).find? (fun j => byteAt s j = 1 ∧ s.array .keys j = key) =
      slotOf capacity (table s) key := by
  rw [slotOf, ← range_eq_range']
  simp only [keyAt_table]

variable (hbytes : ∀ i < capacity, byteAt s i = 0 ∨ byteAt s i = 1)
include hbytes

lemma find?_free :
    (range' 0 capacity).find? (fun j => byteAt s j = 0) = firstFree capacity (table s) := by
  rw [firstFree, ← range_eq_range']
  apply find?_congr
  intro j hj
  obtain h | h := hbytes j (mem_range.mp hj) <;> simp [table, h]

omit hbytes in
lemma unique_iff :
    ((range' 0 capacity).all fun a => byteAt s a != 1 ||
      (range' 0 a).all fun p => !(byteAt s p == 1 && s.array .keys p == s.array .keys a)) ↔
      FirstFit.Unique capacity (table s) := by
  simp only [← range_eq_range', all_eq_true, mem_range, Bool.or_eq_true,
    bne_iff_ne, Bool.not_eq_true', Bool.and_eq_false_imp, beq_iff_eq, beq_eq_false_iff_ne]
  constructor
  · intro h
    have hlt : ∀ a < capacity, ∀ b < a, ∀ k, (table s).keyAt a = some k →
        (table s).keyAt b ≠ some k := by
      intro a ha b hb k hka hkb
      obtain ⟨hone, rfl⟩ := keyAt_table.mp hka
      obtain ⟨hone', hkey⟩ := keyAt_table.mp hkb
      exact (h a ha).elim (· hone) fun hall => hall b hb hone' hkey
    intro a ha b hb k hka hkb
    obtain hab | hab | hab := Nat.lt_trichotomy a b
    · exact absurd hka (hlt b hb a hab k hkb)
    · exact hab
    · exact absurd hkb (hlt a ha b hab k hka)
  · intro h a ha
    by_cases hone : byteAt s a = 1
    · refine Or.inr fun b hb hone' hkey => ?_
      have hba := h b (by omega) a ha _ (keyAt_table.mpr ⟨hone', hkey⟩)
        (keyAt_table.mpr ⟨hone, rfl⟩)
      omega
    · exact Or.inl hone

omit hbytes in
lemma all_bytes_iff :
    ((range' 0 capacity).all fun j => byteAt s j = 0 ∨ byteAt s j = 1) ↔
      ∀ i < capacity, byteAt s i = 0 ∨ byteAt s i = 1 := by
  simp only [← range_eq_range', all_eq_true, mem_range, decide_eq_true_eq]

variable (hc : capacity < 2 ^ 31)
include hc

lemma run_scanFrom_all :
    scanFrom capacity key capacity 0 ⟨0, -1, -1⟩ s =
      .ok (some ⟨ofNat 32 (size capacity (table s)),
        slotWord (slotOf capacity (table s) key),
        slotWord (firstFree capacity (table s))⟩) s := by
  have hrun := run_scanFrom (s := s) hc key (t := 0) (e := none) (f := none)
    (show 0 + capacity ≤ capacity by omega) (by simp) (by simp)
  have hzero : (0 : Word) + ofNat 32 (size capacity (table s)) = _ := zero_add _
  rw [if_pos (all_bytes_iff.mpr hbytes), countP_occupied, find?_occupied, find?_free hbytes,
    hzero] at hrun
  exact hrun

lemma run_scan (hcount : s.scalar .count = ofNat 32 (size capacity (table s))) :
    scan capacity key s = .ok (s.scalar .count,
      ⟨s.scalar .count, slotWord (slotOf capacity (table s) key),
        slotWord (firstFree capacity (table s))⟩, true) s := by
  have hsize : size capacity (table s) ≤ capacity := size_le
  have hrange : (BitVec.sle 0 (s.scalar .count) &&
      (s.scalar .count).sle (ofNat 32 capacity)) = true := by
    have hnat : (s.scalar .count).toNat = size capacity (table s) := by
      rw [hcount, Word.toNat_ofNat (by omega)]
    rw [Word.zero_sle, Word.sle_of_lt (by omega) (by rw [Word.toNat_ofNat hc]; omega), hnat,
      Word.toNat_ofNat hc]
    simp only [Bool.and_eq_true, decide_eq_true_eq]
    omega
  rw [scan, bind_of_ok (run_loadScalar ..), if_pos hrange,
    bind_of_ok (run_scanFrom_all hbytes hc), ← hcount]
  simp

omit hbytes

lemma run_scan_impossible (key : Word) (h : ¬((∀ i < capacity, byteAt s i = 0 ∨ byteAt s i = 1) ∧
      s.scalar .count = ofNat 32 (size capacity (table s)))) :
    ∃ count found, scan capacity key s = .ok (count, found, false) s := by
  rw [scan, bind_of_ok (run_loadScalar ..)]
  split_ifs with hrange
  · by_cases hbytes : ∀ i < capacity, byteAt s i = 0 ∨ byteAt s i = 1
    · rw [bind_of_ok (run_scanFrom_all hbytes hc)]
      have hcount : (ofNat 32 (size capacity (table s)) == s.scalar .count) = false := by
        rw [beq_eq_false_iff_ne]
        exact fun heq => h ⟨hbytes, heq.symm⟩
      dsimp only
      rw [hcount]
      exact ⟨_, _, rfl⟩
    · have hrun := run_scanFrom (s := s) hc key (t := 0) (e := none) (f := none)
        (show 0 + capacity ≤ capacity by omega) (by simp) (by simp)
      rw [if_neg (mt all_bytes_iff.mp hbytes)] at hrun
      refine ⟨s.scalar .count, ⟨0, -1, -1⟩, ?_⟩
      exact bind_of_ok hrun
  · exact ⟨_, _, rfl⟩

lemma run_keyedState (hp : Possible capacity s) :
    keyedState capacity key s = .ok (s.scalar .count,
      ⟨s.scalar .count, slotWord (slotOf capacity (table s) key),
        slotWord (firstFree capacity (table s))⟩) s := by
  have huni : uniqueFrom capacity capacity 0 true s = .ok true s := by
    refine (run_uniqueFrom hc (show 0 + capacity ≤ capacity by omega) true).trans ?_
    rw [unique_iff.mpr hp.unique, Bool.true_and]
  rw [keyedState, bind_of_ok (run_scan hp.bytes hc hp.count)]
  exact bind_of_ok huni

lemma run_keyedState_impossible (h : ¬Possible capacity s) :
    keyedState capacity key s = .error .trap s := by
  rw [keyedState]
  by_cases hscan : (∀ i < capacity, byteAt s i = 0 ∨ byteAt s i = 1) ∧
      s.scalar .count = ofNat 32 (size capacity (table s))
  · have huni : uniqueFrom capacity capacity 0 true s = .ok false s := by
      refine (run_uniqueFrom hc (show 0 + capacity ≤ capacity by omega) true).trans ?_
      rw [Bool.eq_false_iff.mpr fun hall => h ⟨hscan.1, hscan.2, unique_iff.mp hall⟩,
        Bool.and_false]
    rw [bind_of_ok (run_scan hscan.1 hc hscan.2)]
    exact bind_of_ok huni
  · obtain ⟨count, found, hrun⟩ := run_scan_impossible hc key hscan
    rw [bind_of_ok hrun]
    rfl

lemma slotOf_lt : ∀ a ∈ slotOf capacity (table s) key, a < 2 ^ 31 := by
  intro a ha
  have hlt := (slotOf_eq_some ha).1
  omega

lemma firstFree_lt : ∀ a ∈ firstFree capacity (table s), a < 2 ^ 31 := by
  intro a ha
  have hlt := (firstFree_eq_some ha).1
  omega

def GuardMode.grants (existing firstFree : Option ℕ) : GuardMode → Bool
  | .put => existing.isSome || firstFree.isSome
  | .access => existing.isSome

omit hc in
lemma GuardMode.grants_some (mode : GuardMode) (i : ℕ) (firstFree : Option ℕ) :
    mode.grants (some i) firstFree = true := by
  cases mode <;> rfl

omit hc in
lemma GuardMode.grants_put_free (existing : Option ℕ) (i : ℕ) :
    GuardMode.put.grants existing (some i) = true := by
  simp [grants]

def captured (capacity : ℕ) (s : Storage) (key : Word) : GuardState where
  count := s.scalar .count
  existing := slotWord (FirstFit.slotOf capacity (table s) key)
  firstFree := slotWord (FirstFit.firstFree capacity (table s))

lemma allowed_captured (hp : Possible capacity s) (mode : GuardMode) :
    allowed capacity (captured capacity s key) mode =
      mode.grants (slotOf capacity (table s) key)
        (firstFree capacity (table s)) := by
  cases mode with
  | access => exact zero_sle_slotWord (slotOf_lt hc)
  | put =>
    have hsize : size capacity (table s) ≤ capacity := size_le
    have hcount : (s.scalar .count).slt (ofNat 32 capacity) =
        (firstFree capacity (table s)).isSome := by
      rw [hp.count, Word.slt_of_lt, Word.toNat_ofNat (by omega), Word.toNat_ofNat hc,
        Bool.eq_iff_iff, decide_eq_true_eq, firstFree_isSome]
      · rw [Word.toNat_ofNat (by omega)]
        omega
      · rwa [Word.toNat_ofNat hc]
    simp only [allowed, captured, GuardMode.grants, zero_sle_slotWord (slotOf_lt hc),
      zero_sle_slotWord (firstFree_lt hc), hcount, Bool.and_self]

lemma run_guardState (hp : Possible capacity s) (mode : GuardMode) :
    guardState capacity mode key s =
      .ok (mode.grants (slotOf capacity (table s) key)
        (firstFree capacity (table s)), captured capacity s key) s := by
  by_cases hzero : capacity = 0
  · subst hzero
    have hcount : s.scalar .count = 0 := by
      rw [hp.count]
      simp [size]
    rw [guardState, if_pos rfl, bind_of_ok (run_loadScalar ..), hcount, captured, hcount]
    cases mode <;> rfl
  · rw [guardState, if_neg hzero, bind_of_ok (run_keyedState hc hp), ← allowed_captured hc hp]
    rfl

lemma run_guardState_impossible (h : ¬Possible capacity s)
    (mode : GuardMode) (key : Word) : guardState capacity mode key s = .error .trap s := by
  by_cases hzero : capacity = 0
  · subst hzero
    have hcount : s.scalar .count ≠ 0 := by
      intro hcount
      refine h ⟨by omega, ?_, by intro i hi; omega⟩
      rw [hcount]
      simp [size]
    rw [guardState, if_pos rfl, bind_of_ok (run_loadScalar ..), beq_false_of_ne hcount]
    rfl
  · rw [guardState, if_neg hzero]
    exact bind_of_error (run_keyedState_impossible hc h)

lemma run_guarded (hp : Possible capacity s) (mode : GuardMode)
    (action : GuardState → Lowered Outcome) :
    guarded capacity mode key action s =
      if mode.grants (slotOf capacity (table s) key)
        (firstFree capacity (table s)) then action (captured capacity s key) s
      else .ok .refused s := by
  rw [guarded, bind_of_ok (run_guardState hc hp mode)]
  split <;> simp [*]

end preflights

def tableStep (capacity : ℕ) (t : FirstFit Word Word) : Op → FirstFit Word Word × Outcome
  | .put key value =>
    match FirstFit.slotOf capacity t key, FirstFit.firstFree capacity t with
    | some i, _ | none, some i => (t.set i (some (key, value)), .done)
    | none, none => (t, .refused)
  | .get key =>
    match FirstFit.lookup capacity t key with
    | some value => (t, .value value)
    | none => (t, .refused)
  | .add key =>
    match FirstFit.slotOf capacity t key, FirstFit.firstFree capacity t with
    | some _, _ => (t, .done)
    | none, some i => (t.set i (some (key, 0)), .done)
    | none, none => (t, .refused)
  | .remove key =>
    match FirstFit.slotOf capacity t key with
    | some i => (t.set i none, .done)
    | none => (t, .refused)
  | .contains key => (t, .value (Word.ofBool (FirstFit.slotOf capacity t key).isSome))

/-- A call on a finite map of at most `capacity` keys; a set maps its keys to zero. -/
def mapStep (capacity : ℕ) (m : Finmap fun _ : Word => Word) :
    Op → (Finmap fun _ : Word => Word) × Outcome
  | .put key value =>
    if key ∈ m ∨ m.keys.card < capacity then (m.insert key value, .done) else (m, .refused)
  | .get key =>
    match m.lookup key with
    | some value => (m, .value value)
    | none => (m, .refused)
  | .add key =>
    if key ∈ m then (m, .done)
    else if m.keys.card < capacity then (m.insert key 0, .done)
    else (m, .refused)
  | .remove key => if key ∈ m then (m.erase key, .done) else (m, .refused)
  | .contains key => (m, .value (Word.ofBool (key ∈ m)))

section agreement

variable {capacity : ℕ} {t : FirstFit Word Word} {m : Finmap fun _ : Word => Word} {key : Word}
  {i : ℕ} (h : Agrees capacity t m)
include h

lemma mem_of_slotOf (hslot : slotOf capacity t key = some i) : key ∈ m := by
  rw [h.mem_iff, hslot]
  rfl

lemma notMem_of_slotOf (hslot : slotOf capacity t key = none) : key ∉ m := by
  rw [h.mem_iff, hslot]
  simp

lemma card_lt_of_firstFree (hfree : firstFree capacity t = some i) : m.keys.card < capacity := by
  rw [← h.size, ← firstFree_isSome, hfree]
  rfl

lemma not_card_lt_of_firstFree (hfree : firstFree capacity t = none) : ¬m.keys.card < capacity := by
  rw [← h.size, ← firstFree_isSome, hfree]
  simp

lemma tableStep_agrees (op : Op) :
    (tableStep capacity t op).2 = (mapStep capacity m op).2 ∧
      Agrees capacity (tableStep capacity t op).1 (mapStep capacity m op).1 := by
  cases op with
  | put key value =>
    simp only [tableStep, mapStep]
    cases hslot : slotOf capacity t key with
    | some i =>
      rw [if_pos (Or.inl (mem_of_slotOf h hslot))]
      exact ⟨rfl, h.put_old hslot value⟩
    | none =>
      cases hfree : firstFree capacity t with
      | some i =>
        obtain ⟨hi, hnone⟩ := firstFree_eq_some hfree
        rw [if_pos (Or.inr (card_lt_of_firstFree h hfree))]
        exact ⟨rfl, h.put_new hslot hi hnone value⟩
      | none =>
        rw [if_neg (not_or_intro (notMem_of_slotOf h hslot) (not_card_lt_of_firstFree h hfree))]
        exact ⟨rfl, h⟩
  | get key =>
    simp only [tableStep, mapStep, h.lookup]
    cases m.lookup key with
    | some value | none => exact ⟨rfl, h⟩
  | add key =>
    simp only [tableStep, mapStep]
    cases hslot : slotOf capacity t key with
    | some i =>
      rw [if_pos (mem_of_slotOf h hslot)]
      exact ⟨rfl, h⟩
    | none =>
      rw [if_neg (notMem_of_slotOf h hslot)]
      cases hfree : firstFree capacity t with
      | some i =>
        obtain ⟨hi, hnone⟩ := firstFree_eq_some hfree
        rw [if_pos (card_lt_of_firstFree h hfree)]
        exact ⟨rfl, h.put_new hslot hi hnone 0⟩
      | none =>
        rw [if_neg (not_card_lt_of_firstFree h hfree)]
        exact ⟨rfl, h⟩
  | remove key =>
    simp only [tableStep, mapStep]
    cases hslot : slotOf capacity t key with
    | some i =>
      rw [if_pos (mem_of_slotOf h hslot)]
      exact ⟨rfl, h.remove hslot⟩
    | none =>
      rw [if_neg (notMem_of_slotOf h hslot)]
      exact ⟨rfl, h⟩
  | contains key =>
    refine ⟨?_, h⟩
    simp only [tableStep, mapStep, h.mem_iff, Bool.decide_eq_true]

end agreement

/-- What the lanes of a slot hold for its entry; free slots are zero. -/
def entryWord : Option (Word × Word) → ArrayLane → Word
  | none, _ => 0
  | some _, .occupied => 1
  | some entry, .keys => entry.1
  | some entry, .values => entry.2
  | some _, .priority | some _, .order => 0

@[simp] lemma entryWord_none (lane : ArrayLane) : entryWord none lane = 0 := rfl

@[simp] lemma entryWord_priority (e : Option (Word × Word)) : entryWord e .priority = 0 := by
  cases e <;> rfl

@[simp] lemma entryWord_order (e : Option (Word × Word)) : entryWord e .order = 0 := by
  cases e <;> rfl

structure Represents (kind : Kind) (capacity : ℕ) (s : Storage) (t : FirstFit Word Word) :
    Prop where
  lanes : ∀ lane i, s.array lane i = entryWord (t i) lane
  count : s.scalar .count = ofNat 32 (FirstFit.size capacity t)
  /-- A set has no lane of values. -/
  values : kind = .set → ∀ i, s.array .values i = 0

section represents

lemma Represents.zeroed : Represents kind capacity .zeroed .empty where
  lanes _ _ := rfl
  count := by simp [Storage.zeroed, size, empty]
  values _ _ := rfl

variable (h : Represents kind capacity s t)
include h

lemma Represents.table : table s = t := by
  funext i
  rw [Keyed.table, byteAt, h.lanes, h.lanes, h.lanes]
  cases t i with
  | none => rfl
  | some e => exact if_pos narrow_occupied_one

lemma Represents.possible (hu : FirstFit.Unique capacity t) : Possible capacity s where
  bytes := by
    intro i _
    rw [byteAt, h.lanes]
    cases t i with
    | none => exact Or.inl rfl
    | some e => exact Or.inr narrow_occupied_one
  count := by rw [h.table, h.count]
  unique := by rwa [h.table]

lemma Represents.set (e : Option (Word × Word)) (hslot : ∀ lane, s'.array lane i = entryWord e lane)
    (hrest : ∀ lane, ∀ j ≠ i, s'.array lane j = s.array lane j)
    (hcount : s'.scalar .count = ofNat 32 (size capacity (t.set i e)))
    (hval : kind = .set → entryWord e .values = 0) :
    Represents kind capacity s' (t.set i e) where
  lanes := by
    intro lane j
    by_cases hj : j = i
    · rw [hj, set_self, hslot]
    · rw [set_of_ne hj, hrest lane j hj, h.lanes]
  count := hcount
  values := by
    intro hkind j
    by_cases hj : j = i
    · rw [hj, hslot, hval hkind]
    · rw [hrest _ j hj, h.values hkind j]

variable (hc : capacity < 2 ^ 31)
include hc

omit h in
lemma run_storeElement_ofNat (hi : i < capacity) (lane : ArrayLane) (w : Word) (s : Storage) :
    storeElement capacity lane (ofNat 32 i) w s = .ok () (s.setElement lane i (lane.narrow w)) := by
  have hidx : (ofNat 32 i).toNat = i := Word.toNat_ofNat (by omega)
  rw [run_storeElement (by omega), hidx]

omit hc in
lemma captured_existing (hslot : slotOf capacity t key = some i) :
    (captured capacity s key).existing = ofNat 32 i := by
  rw [captured, h.table, hslot]
  rfl

omit hc in
lemma captured_firstFree (hfree : firstFree capacity t = some i) :
    (captured capacity s key).firstFree = ofNat 32 i := by
  rw [captured, h.table, hfree]
  rfl

omit h in
lemma captured_existing_found (h : Represents kind capacity s t) :
    BitVec.sle 0 (captured capacity s key).existing = (slotOf capacity t key).isSome := by
  rw [captured, zero_sle_slotWord (slotOf_lt hc), h.table]

omit h in
lemma run_mapPutFast_old (h : Represents .map capacity s t)
    (value : Word) (hslot : slotOf capacity t key = some i) :
    ∃ s', mapPutFast capacity (captured capacity s key) key value s = .ok () s' ∧
      Represents .map capacity s' (t.set i (some (key, value))) := by
  obtain ⟨hi, hkey⟩ := slotOf_eq_some hslot
  rw [mapPutFast, if_pos (by rw [captured_existing_found hc h, hslot]; rfl),
    captured_existing h hslot, run_storeElement_ofNat hc hi]
  refine ⟨_, rfl, h.set _ ?_ (fun lane j hj => by cases lane <;> simp [hj]) ?_ (by simp)⟩
  · obtain ⟨⟨k, v⟩, hentry, hk⟩ := Option.map_eq_some_iff.mp hkey
    obtain rfl : k = key := hk
    intro lane
    cases lane <;> simp [h.lanes, hentry, entryWord]
  · rw [size_set_some_of_some (isSome_of_keyAt hkey)]
    exact h.count

omit hc in
lemma count_add_one (hfree : firstFree capacity t = some i) (e : Word × Word) :
    (captured capacity s key).count + 1 = ofNat 32 (size capacity (t.set i (some e))) := by
  obtain ⟨hi, hnone⟩ := firstFree_eq_some hfree
  rw [size_set_some_of_none hi hnone, ofNat_add, ← h.count]
  rfl

omit h in
lemma run_mapPutFast_new (h : Represents .map capacity s t) (value : Word)
    (hslot : slotOf capacity t key = none) (hfree : firstFree capacity t = some i) :
    ∃ s', mapPutFast capacity (captured capacity s key) key value s = .ok () s' ∧
      Represents .map capacity s' (t.set i (some (key, value))) := by
  obtain ⟨hi, hnone⟩ := firstFree_eq_some hfree
  rw [mapPutFast, if_neg (by rw [captured_existing_found hc h, hslot]; simp),
    captured_firstFree h hfree, bind_of_ok (run_storeElement_ofNat hc hi ..),
    bind_of_ok (run_storeElement_ofNat hc hi ..), bind_of_ok (run_storeElement_ofNat hc hi ..),
      run_storeScalar]
  refine ⟨_, rfl, h.set _ ?_ (fun lane j hj => by cases lane <;> simp [hj]) ?_ (by simp)⟩
  · intro lane
    cases lane <;> simp [h.lanes, hnone, entryWord]
  · rw [Storage.setScalar_scalar]
    exact count_add_one h hfree (key, value)

omit h in
lemma run_setAddFast_old (h : Represents .set capacity s t)
    (hslot : slotOf capacity t key = some i) :
    setAddFast capacity (captured capacity s key) key s = .ok () s := by
  rw [setAddFast, if_pos (by rw [captured_existing_found hc h, hslot]; rfl), run_pure]

omit h in
lemma run_setAddFast_new (h : Represents .set capacity s t) (hslot : slotOf capacity t key = none)
    (hfree : firstFree capacity t = some i) :
    ∃ s', setAddFast capacity (captured capacity s key) key s = .ok () s' ∧
      Represents .set capacity s' (t.set i (some (key, 0))) := by
  obtain ⟨hi, hnone⟩ := firstFree_eq_some hfree
  rw [setAddFast, if_neg (by rw [captured_existing_found hc h, hslot]; simp),
    captured_firstFree h hfree, bind_of_ok (run_storeElement_ofNat hc hi ..),
    bind_of_ok (run_storeElement_ofNat hc hi ..), run_storeScalar]
  refine ⟨_, rfl, h.set _ ?_ (fun lane j hj => by cases lane <;> simp [hj]) ?_ fun _ => rfl⟩
  · intro lane
    cases lane <;> simp [h.lanes, hnone, entryWord]
  · rw [Storage.setScalar_scalar]
    exact count_add_one h hfree (key, 0)

omit hc in
lemma count_sub_one (hslot : slotOf capacity t key = some i) :
    (captured capacity s key).count - 1 = ofNat 32 (size capacity (t.set i none)) := by
  obtain ⟨hi, hkey⟩ := slotOf_eq_some hslot
  have hsize := size_set_none hi (isSome_of_keyAt hkey)
  rw [captured, h.count, ← hsize, ofNat_add]
  exact add_sub_cancel _ _

omit h

lemma run_removeFast (h : Represents kind capacity s t) (hslot : slotOf capacity t key = some i) :
    ∃ s', removeFast kind capacity (captured capacity s key) s = .ok () s' ∧
      Represents kind capacity s' (t.set i none) := by
  have hi := (slotOf_eq_some hslot).1
  cases kind with
  | map =>
    rw [removeFast, captured_existing h hslot, bind_of_ok (run_storeElement_ofNat hc hi ..),
      bind_of_ok (run_storeElement_ofNat hc hi ..), if_pos rfl,
      bind_of_ok (run_storeElement_ofNat hc hi ..)]
    refine ⟨_, rfl, h.set _ ?_ (fun lane j hj => by cases lane <;> simp [hj]) ?_ fun _ => rfl⟩
    · intro lane
      cases lane <;> simp [h.lanes]
    · rw [Storage.setScalar_scalar]
      exact count_sub_one h hslot
  | set =>
    rw [removeFast, captured_existing h hslot, bind_of_ok (run_storeElement_ofNat hc hi ..),
      bind_of_ok (run_storeElement_ofNat hc hi ..), if_neg (by simp)]
    refine ⟨_, rfl, h.set _ ?_ (fun lane j hj => by cases lane <;> simp [hj]) ?_ fun _ => rfl⟩
    · intro lane
      have hval := h.values rfl i
      cases lane <;> simp [h.lanes] at hval ⊢
      exact hval
    · rw [Storage.setScalar_scalar]
      exact count_sub_one h hslot

lemma run_loadElement_values (h : Represents kind capacity s t)
    (hslot : slotOf capacity t key = some i) :
    ∃ v, FirstFit.lookup capacity t key = some v ∧
      loadElement capacity .values (captured capacity s key).existing s = .ok v s := by
  obtain ⟨hi, hkey⟩ := slotOf_eq_some hslot
  obtain ⟨e, hentry, -⟩ := Option.map_eq_some_iff.mp hkey
  have hidx : (ofNat 32 i).toNat = i := Word.toNat_ofNat (by omega)
  refine ⟨e.2, by simp [FirstFit.lookup, hslot, hentry], ?_⟩
  rw [captured_existing h hslot, run_loadElement (by omega), hidx, narrow_values, h.lanes, hentry]
  rfl

end represents

section simulation

lemma lower_simulates (hc : capacity < 2 ^ 31) (op : Op) (hop : op.belongsTo kind)
    (h : Represents kind capacity s t) (hu : FirstFit.Unique capacity t) :
    ∃ s', lower kind capacity op s = .ok (tableStep capacity t op).2 s' ∧
      Represents kind capacity s' (tableStep capacity t op).1 := by
  have hp := h.possible hu
  have hdone : ∀ {grants : Bool} {fast : Lowered Unit} {t'}, grants = true →
      (∃ s', fast s = .ok () s' ∧ Represents kind capacity s' t') →
      ∃ s', (if grants then (do fast; return .done : Lowered Outcome) s else .ok .refused s) =
        .ok .done s' ∧ Represents kind capacity s' t' := by
    rintro grants fast t' hgrants ⟨s', hrun, h'⟩
    refine ⟨s', ?_, h'⟩
    rw [if_pos hgrants, bind_of_ok hrun]
    rfl
  cases op with
  | put key value =>
    obtain rfl : kind = .map := by simpa [Op.belongsTo] using hop
    rw [lower, run_guarded hc hp, h.table, tableStep]
    cases hslot : slotOf capacity t key with
    | some i => exact hdone (GuardMode.grants_some ..) (run_mapPutFast_old hc h value hslot)
    | none =>
      cases hfree : firstFree capacity t with
      | some i =>
        exact hdone (GuardMode.grants_put_free ..) (run_mapPutFast_new hc h value hslot hfree)
      | none => exact ⟨s, rfl, h⟩
  | get key =>
    rw [lower, run_guarded hc hp, h.table, tableStep]
    cases hslot : slotOf capacity t key with
    | some i =>
      obtain ⟨v, hlook, hrun⟩ := run_loadElement_values hc h hslot
      rw [hlook, if_pos (GuardMode.grants_some ..), bind_of_ok hrun]
      exact ⟨s, rfl, h⟩
    | none =>
      rw [FirstFit.lookup, hslot]
      exact ⟨s, rfl, h⟩
  | add key =>
    obtain rfl : kind = .set := by simpa [Op.belongsTo] using hop
    rw [lower, run_guarded hc hp, h.table, tableStep]
    cases hslot : slotOf capacity t key with
    | some i => exact hdone (GuardMode.grants_some ..) ⟨s, run_setAddFast_old hc h hslot, h⟩
    | none =>
      cases hfree : firstFree capacity t with
      | some i => exact hdone (GuardMode.grants_put_free ..) (run_setAddFast_new hc h hslot hfree)
      | none => exact ⟨s, rfl, h⟩
  | remove key =>
    rw [lower, run_guarded hc hp, h.table, tableStep]
    cases hslot : slotOf capacity t key with
    | some i => exact hdone (GuardMode.grants_some ..) (run_removeFast hc h hslot)
    | none => exact ⟨s, rfl, h⟩
  | contains key =>
    rw [lower, bind_of_ok (run_guardState hc hp .access), h.table]
    exact ⟨s, rfl, h⟩

lemma lower_impossible (hc : capacity < 2 ^ 31) (op : Op) (h : ¬Possible capacity s) :
    lower kind capacity op s = .error .trap s := by
  have htrap := run_guardState_impossible hc h
  cases op <;> exact bind_of_error (htrap _ _)

lemma emit_eq_ok (h : emit kind capacity op = .ok code) :
    capacity < 2 ^ 31 ∧ op.belongsTo kind ∧ code = lower kind capacity op := by
  rw [emit] at h
  obtain ⟨c, hcap, h⟩ := bind_ok_iff.mp h
  split at h
  · rename_i hop
    cases h
    exact ⟨(capacityI32_eq_ok hcap).1, hop, rfl⟩
  · cases h

end simulation

inductive Corrupt (capacity : ℕ) (s : Storage) : Prop
  | count (h : s.scalar .count ≠
      ofNat 32 ((Finset.range capacity).filter fun i => byteAt s i = 1).card)
  | byte (i : ℕ) (hi : i < capacity) (hzero : byteAt s i ≠ 0) (hone : byteAt s i ≠ 1)
  | duplicate (i j : ℕ) (hi : i < capacity) (hj : j < capacity) (hij : i ≠ j)
      (hoccupied : byteAt s i = 1 ∧ byteAt s j = 1) (hkey : s.array .keys i = s.array .keys j)

lemma Corrupt.not_possible (h : Corrupt capacity s) : ¬Possible capacity s := by
  intro hp
  cases h with
  | count hcount =>
    have hsize := hp.count
    simp only [size, table_isSome] at hsize
    exact hcount hsize
  | byte i hi hzero hone => exact (hp.bytes i hi).elim hzero hone
  | duplicate i j hi hj hij hocc hkey =>
    exact hij (hp.unique i hi j hj _ (keyAt_table.mpr ⟨hocc.1, hkey⟩)
      (keyAt_table.mpr ⟨hocc.2, rfl⟩))

/-- Maps and sets refine finite maps of at most `capacity` keys: each accepted
sequence of calls gives the results of the finite map, and leaves its entries in the
slots of the first-fit table with zeros elsewhere.  On corrupt storage every call
traps and has written nothing. -/
theorem calls_refine_bounded_map (kind : Kind) (capacity : ℕ) (ops : List Op)
    (code : Lowered (List Outcome)) (h : emitAll (emit kind capacity) ops = .ok code) :
    (∃ s, code .zeroed = .ok (stepAll (mapStep capacity) ∅ ops).2 s ∧
      Represents kind capacity s (stepAll (tableStep capacity) .empty ops).1 ∧
      FirstFit.Agrees capacity (stepAll (tableStep capacity) .empty ops).1
        (stepAll (mapStep capacity) ∅ ops).1) ∧
    ∀ op lowered s, emit kind capacity op = .ok lowered → Corrupt capacity s →
      lowered s = .error .trap s := by
  constructor
  · have hrelated : ∀ op t m, FirstFit.Agrees capacity t m →
        (tableStep capacity t op).2 = (mapStep capacity m op).2 ∧
          FirstFit.Agrees capacity (tableStep capacity t op).1 (mapStep capacity m op).1 :=
      fun op _ _ hagrees => tableStep_agrees hagrees op
    obtain ⟨hresults, hagrees⟩ := stepAll_related hrelated ops FirstFit.Agrees.empty
    have hsim : Simulates
        (fun s t => Represents kind capacity s t ∧ ∃ m, FirstFit.Agrees capacity t m)
        code fun t => stepAll (tableStep capacity) t ops := by
      refine emitAll_simulates ?_ h
      rintro op lowered hemit s t ⟨hrep, m, hm⟩
      obtain ⟨hc, hop, rfl⟩ := emit_eq_ok hemit
      obtain ⟨s', hrun, hrep'⟩ := lower_simulates hc op hop hrep hm.unique
      exact ⟨s', hrun, hrep', _, (tableStep_agrees hm op).2⟩
    obtain ⟨s, hrun, hrep, -⟩ := hsim _ _ ⟨Represents.zeroed, _, FirstFit.Agrees.empty⟩
    exact ⟨s, by rw [hrun, hresults], hrep, hagrees⟩
  · intro op lowered s hemit hcorrupt
    obtain ⟨hc, -, rfl⟩ := emit_eq_ok hemit
    exact lower_impossible hc op hcorrupt.not_possible

/-- Key zero is a key as any other, and a full map takes only keys it has. -/
theorem calls_refine_bounded_map_full :
    ∃ code, emitAll (emit .map 1) [.put 0 7, .put 5 8, .get 0, .remove 0, .put 5 8] = .ok code ∧
      ∃ s, code .zeroed = .ok [.done, .refused, .value 7, .done, .done] s := by
  refine ⟨_, rfl, ?_⟩
  obtain ⟨⟨s, hrun, -⟩, -⟩ := calls_refine_bounded_map .map 1
    [.put 0 7, .put 5 8, .get 0, .remove 0, .put 5 8] _ rfl
  refine ⟨s, hrun.trans ?_⟩
  congr 1

end Keyed

end Stasis.Collections
