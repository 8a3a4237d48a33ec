import Stasis.Collections.Storage

namespace Stasis.Collections

open Storage
open BitVec (ofNat getLsbD)

variable {s s₁ s' : Storage} {value : Lowered Word} {v x y i : Word}

def inRange (bound : ℕ) (i : Word) : Bool := BitVec.sle 0 i && i.slt (ofNat 32 bound)

lemma inRange_iff (h : bound < 2 ^ 31) : inRange bound i ↔ i.toNat < bound := by
  have hslt : ∀ hi : i.toNat < 2 ^ 31, i.slt (ofNat 32 bound) ↔ i.toNat < bound := by
    intro hi
    rw [Word.slt_of_lt hi (by rwa [Word.toNat_ofNat h]), Word.toNat_ofNat h, decide_eq_true_iff]
  rw [inRange, Bool.and_eq_true, Word.zero_sle, decide_eq_true_iff]
  exact ⟨fun ⟨hi, hlt⟩ => (hslt hi).mp hlt, fun hlt => ⟨hlt.trans h, (hslt (hlt.trans h)).mpr hlt⟩⟩

lemma of_done {c : Bool} {code : Lowered Outcome}
    (h : (if c then code else return .refused) s = .ok .done s') : c := by
  split_ifs at h with hc
  · exact hc
  · cases h

structure Grid where
  width : ℕ
  height : ℕ
  width_lt : width < 2 ^ 31
  height_lt : height < 2 ^ 31
  cells_lt : width * height < 2 ^ 31

namespace Grid

variable {g : Grid}

def canAccess (g : Grid) (x y : Word) : Bool := inRange g.width x && inRange g.height y

def index (g : Grid) (x y : Word) : Word := y * ofNat 32 g.width + x

def get (g : Grid) (x y : Word) : Lowered Outcome := do
  if g.canAccess x y then
    return .value (← loadElement (g.width * g.height) .values (g.index x y))
  else return .refused

def set (g : Grid) (x y : Word) (value : Lowered Word) : Lowered Outcome := do
  if g.canAccess x y then
    storeElement (g.width * g.height) .values (g.index x y) (← value)
    return .done
  else return .refused

def clear (g : Grid) : Lowered Unit := clearLanes (g.width * g.height) [.values]

/-- The storage after some calls, with what each cell was set to last.  Calls that the
value of a `set` makes come before it. -/
inductive Reaches (g : Grid) : Storage → (Word × Word → Word) → Prop
  | zeroed : Reaches g .zeroed fun _ => 0
  | clear {s s' cells} : Reaches g s cells → g.clear s = .ok () s' → Reaches g s' fun _ => 0
  | set {s s₁ s' cells value v x y} : value s = .ok v s₁ → Reaches g s₁ cells →
      g.set x y value s = .ok .done s' → Reaches g s' (Function.update cells (x, y) v)

lemma index_spec (h : g.canAccess x y) : (g.index x y).toNat / g.width = y.toNat ∧
    (g.index x y).toNat % g.width = x.toNat ∧ (g.index x y).toNat < g.width * g.height := by
  rw [canAccess, Bool.and_eq_true, inRange_iff g.width_lt, inRange_iff g.height_lt] at h
  have hrow : g.width * (y.toNat + 1) ≤ g.width * g.height := Nat.mul_le_mul_left _ h.2
  rw [Nat.mul_add_one] at hrow
  have hcells := g.cells_lt
  have hidx : x.toNat + g.width * y.toNat = (g.index x y).toNat := by
    rw [index, BitVec.toNat_add, BitVec.toNat_mul, Word.toNat_ofNat g.width_lt,
      Nat.mul_comm y.toNat]
    omega
  obtain ⟨hdiv, hmod⟩ := (Nat.div_mod_unique (Nat.zero_lt_of_lt h.1)).mpr ⟨hidx, h.1⟩
  exact ⟨hdiv, hmod, by omega⟩

lemma index_inj (h : g.canAccess x y) (h' : g.canAccess x' y') (heq : g.index x y = g.index x' y') :
    x = x' ∧ y = y' := by
  obtain ⟨hdiv, hmod, -⟩ := index_spec h
  obtain ⟨hdiv', hmod', -⟩ := index_spec h'
  rw [heq] at hdiv hmod
  exact ⟨BitVec.eq_of_toNat_eq (hmod.symm.trans hmod'),
    BitVec.eq_of_toNat_eq (hdiv.symm.trans hdiv')⟩

lemma run_set (h : g.canAccess x y) (hval : value s = .ok v s₁) :
    g.set x y value s = .ok .done (s₁.setElement .values (g.index x y).toNat v) := by
  rw [set, if_pos h, bind_of_ok hval, bind_of_ok (run_storeElement (index_spec h).2.2)]
  rfl

lemma run_get (h : g.canAccess x y) :
    g.get x y s = .ok (.value (s.array .values (g.index x y).toNat)) s := by
  rw [get, if_pos h, bind_of_ok (run_loadElement (index_spec h).2.2)]
  rfl

lemma Reaches.cell (h : g.Reaches s cells) (hxy : g.canAccess x y) :
    s.array .values (g.index x y).toNat = cells (x, y) := by
  induction h with
  | zeroed => rfl
  | clear _ hrun =>
    cases (run_clearLanes g.cells_lt _ _).symm.trans hrun
    simp [zeroWhere, (index_spec hxy).2.2]
  | @set s s₁ s' cells value v x' y' hval _ hrun ih =>
    have hacc := of_done hrun
    cases (run_set hacc hval).symm.trans hrun
    rw [setElement_array]
    by_cases heq : (x, y) = (x', y')
    · cases heq
      simp
    · rw [Function.update_of_ne heq, ← ih, Function.update_of_ne]
      intro hidx
      obtain ⟨rfl, rfl⟩ := index_inj hxy hacc (BitVec.eq_of_toNat_eq hidx)
      exact heq rfl

end Grid

structure Bitset where
  capacity : ℕ
  capacity_lt : capacity < 2 ^ 31

namespace Bitset

variable {b : Bitset}

abbrev lane : ArrayLane := .values

def words (b : Bitset) : ℕ := (b.capacity + 31) / 32

def mask (i : Word) : Word := 1#32 <<< (i &&& 31)

def test (b : Bitset) (i : Word) : Lowered Outcome := do
  if inRange b.capacity i then
    return .value (.ofBool ((← loadElement b.words lane (i >>> 5)) &&& mask i != 0))
  else return .refused

/-- No bit at or above the capacity is stored in the last word. -/
def trim (b : Bitset) (wordIndex updated : Word) : Word :=
  if b.capacity % 32 = 0 then updated
  else if wordIndex = ofNat 32 (b.words - 1) then
    updated &&& ofNat 32 (2 ^ (b.capacity % 32) - 1)
  else updated

def set (b : Bitset) (i : Word) (value : Lowered Word) : Lowered Outcome := do
  if inRange b.capacity i then
    let word ← loadElement b.words lane (i >>> 5)
    let selected := if (← value) ≠ 0 then mask i else 0
    storeElement b.words lane (i >>> 5) (b.trim (i >>> 5) (word &&& ~~~mask i ||| selected))
    return .done
  else return .refused

def clear (b : Bitset) : Lowered Unit := clearLanes b.words [lane]

def bit (s : Storage) (j : ℕ) : Bool := (s.array lane (j / 32)).getLsbD (j % 32)

/-- The storage after some calls, with what each bit was set to last.  Calls that the
value of a `set` makes come before it.  The word of the bit is loaded before the value is
evaluated; the checker accepts no value that could change it in between. -/
inductive Reaches (b : Bitset) : Storage → (ℕ → Bool) → Prop
  | zeroed : Reaches b .zeroed fun _ => false
  | clear {s s' bits} : Reaches b s bits → b.clear s = .ok () s' → Reaches b s' fun _ => false
  | set {s s₁ s' bits value v i} : value s = .ok v s₁ → Reaches b s₁ bits →
      s₁.array lane (i.toNat / 32) = s.array lane (i.toNat / 32) →
      b.set i value s = .ok .done s' → Reaches b s' (Function.update bits i.toNat (v != 0))

lemma mask_eq : mask i = BitVec.twoPow 32 (i.toNat % 32) := by
  have hand : (i &&& 31).toNat = i.toNat % 32 := Nat.and_two_pow_sub_one_eq_mod _ 5
  rw [mask, BitVec.shiftLeft_eq', hand, BitVec.twoPow_eq]

lemma getLsbD_mask : (mask i).getLsbD k = decide (i.toNat % 32 = k) := by
  have hlt : i.toNat % 32 < 32 := Nat.mod_lt _ (by decide)
  simp [mask_eq, BitVec.getLsbD_twoPow, hlt]

lemma getLsbD_updated (hj : j / 32 = i.toNat / 32) :
    (s.array lane (i.toNat / 32) &&& ~~~mask i ||| if v ≠ 0 then mask i else 0).getLsbD (j % 32) =
      if j = i.toNat then v != 0 else bit s j := by
  have hsel : (if v ≠ 0 then mask i else 0).getLsbD (j % 32) =
      (v != 0 && decide (i.toNat % 32 = j % 32)) := by
    split_ifs with hv
    · rw [getLsbD_mask, bne_iff_ne.mpr hv, Bool.true_and]
    · simp [not_not.mp hv]
  rw [BitVec.getLsbD_or, BitVec.getLsbD_and, BitVec.getLsbD_not, getLsbD_mask, hsel, bit, hj]
  by_cases heq : j = i.toNat
  · simp [heq]
  · have hne : i.toNat % 32 ≠ j % 32 := by omega
    simp [heq, hne, Nat.mod_lt]

lemma trim_eq (h : ∀ j, j / 32 = wordIndex.toNat → b.capacity ≤ j →
    updated.getLsbD (j % 32) = false) : b.trim wordIndex updated = updated := by
  have hc := b.capacity_lt
  unfold trim
  split_ifs with htail hlast
  · rfl
  · apply BitVec.eq_of_getLsbD_eq
    intro k hk
    have hout := h (32 * wordIndex.toNat + k) (by omega)
    have hmod : (32 * wordIndex.toNat + k) % 32 = k := by omega
    rw [hmod, hlast, Word.toNat_ofNat (by unfold words; omega), words] at hout
    rw [BitVec.getLsbD_and, BitVec.getLsbD_ofNat, Nat.testBit_two_pow_sub_one]
    by_cases hin : k < b.capacity % 32
    · simp [hk, hin]
    · simp [hout (by omega)]
  · rfl

lemma toNat_wordIndex : (i >>> 5).toNat = i.toNat / 32 := by
  rw [BitVec.toNat_ushiftRight, Nat.shiftRight_eq_div_pow]

lemma wordIndex_lt (h : inRange b.capacity i) : (i >>> 5).toNat < b.words := by
  rw [inRange_iff b.capacity_lt] at h
  rw [toNat_wordIndex, words]
  omega

lemma run_test (h : inRange b.capacity i) :
    b.test i s = .ok (.value (.ofBool (bit s i.toNat))) s := by
  have hmask : mask i ≠ 0 := fun hzero => by
    have hset := getLsbD_mask (i := i) (k := i.toNat % 32)
    simp [hzero] at hset
  have hbit : (s.array lane (i.toNat / 32) &&& mask i != 0) = bit s i.toNat := by
    rw [bit, mask_eq, BitVec.and_twoPow, ← mask_eq]
    cases (s.array lane (i.toNat / 32)).getLsbD (i.toNat % 32) with
    | false => rfl
    | true => exact bne_iff_ne.mpr hmask
  rw [test, if_pos h, bind_of_ok (run_loadElement (wordIndex_lt h)), toNat_wordIndex, ← hbit]
  rfl

section

variable (hpad : ∀ j, b.capacity ≤ j → bit s j = false)
include hpad

lemma run_set (h : inRange b.capacity i) (hval : value s₀ = .ok v s)
    (hsame : s.array lane (i.toNat / 32) = s₀.array lane (i.toNat / 32)) :
    ∃ s', b.set i value s₀ = .ok .done s' ∧ bit s' = Function.update (bit s) i.toNat (v != 0) := by
  set updated := s.array lane (i.toNat / 32) &&& ~~~mask i ||| if v ≠ 0 then mask i else 0
    with hupdated
  have htrim : b.trim (i >>> 5) updated = updated := by
    refine trim_eq fun j hj hout => ?_
    rw [inRange_iff b.capacity_lt] at h
    rw [getLsbD_updated (toNat_wordIndex ▸ hj), if_neg (by omega), hpad j hout]
  refine ⟨s.setElement lane (i.toNat / 32) updated, ?_, funext fun j => ?_⟩
  · rw [set, if_pos h, bind_of_ok (run_loadElement (wordIndex_lt h)), bind_of_ok hval,
      toNat_wordIndex, ← hsame]
    dsimp only [narrow_values]
    rw [← hupdated, htrim, bind_of_ok (run_storeElement (wordIndex_lt h)), toNat_wordIndex]
    rfl
  · rw [bit, setElement_array, Function.update_apply, Function.update_apply]
    by_cases hj : j / 32 = i.toNat / 32
    · rw [if_pos hj, getLsbD_updated hj]
    · rw [if_neg hj, if_neg (by rintro rfl; exact hj rfl), bit]

lemma run_clear : ∃ s', b.clear s = .ok () s' ∧ bit s' = fun _ => false := by
  have hc := b.capacity_lt
  refine ⟨_, run_clearLanes (by unfold words; omega) _ _, funext fun j => ?_⟩
  rw [bit, zeroWhere]
  by_cases hj : j / 32 < b.words
  · simp [hj]
  · rw [words] at hj
    simpa [bit, words, hj] using hpad j (by omega)

end

lemma Reaches.bits {bits : ℕ → Bool} (h : b.Reaches s bits) :
    bit s = bits ∧ ∀ j, b.capacity ≤ j → bit s j = false := by
  induction h with
  | zeroed =>
    have hzero : bit .zeroed = fun _ => false := funext fun j => by simp [bit, Storage.zeroed]
    exact ⟨hzero, fun j _ => congrFun hzero j⟩
  | clear _ hrun ih =>
    obtain ⟨s', hrun', hbits⟩ := run_clear ih.2
    cases hrun'.symm.trans hrun
    exact ⟨hbits, fun j _ => congrFun hbits j⟩
  | @set s s₁ s' bits value v i hval _ hsame hrun ih =>
    have hacc := of_done hrun
    obtain ⟨s', hrun', hbits⟩ := run_set ih.2 hacc hval hsame
    cases hrun'.symm.trans hrun
    rw [inRange_iff b.capacity_lt] at hacc
    rw [hbits]
    refine ⟨by rw [ih.1], fun j hj => ?_⟩
    rw [Function.update_of_ne (by omega), ih.2 j hj]

/-- A value that sets another bit of the word, which the checker refuses, would lose it. -/
example :
    let b : Bitset := ⟨8, by decide⟩
    let value : Lowered Word := do
      let _ ← b.set 1 (pure 1)
      return 1
    (value *> b.test 1).run' .zeroed = some (.value 1) ∧
      (b.set 0 value *> b.test 1).run' .zeroed = some (.value 0) := by
  decide +kernel

end Bitset

/-- Cells and bits hold what they were set to last, whatever calls were made.  Access is
admitted exactly in range. -/
theorem packed_holds_last_set (g : Grid) (b : Bitset) :
    (∀ x y, g.canAccess x y ↔ x.toNat < g.width ∧ y.toNat < g.height) ∧
    (∀ x y x' y', g.canAccess x y → g.canAccess x' y' → g.index x y = g.index x' y' →
      x = x' ∧ y = y') ∧
    (∀ s cells, g.Reaches s cells → (∃ s', g.clear s = .ok () s') ∧
      ∀ x y, g.canAccess x y → g.get x y s = .ok (.value (cells (x, y))) s) ∧
    (∀ s s₁ x y value v, g.canAccess x y → value s = .ok v s₁ →
      ∃ s', g.set x y value s = .ok .done s') ∧
    (∀ i, inRange b.capacity i ↔ i.toNat < b.capacity) ∧
    ∀ s bits, b.Reaches s bits →
      (∀ i, inRange b.capacity i → b.test i s = .ok (.value (.ofBool (bits i.toNat))) s) ∧
      (∀ j, b.capacity ≤ j → Bitset.bit s j = false) ∧
      (∃ s', b.clear s = .ok () s' ∧ Bitset.bit s' = fun _ => false) ∧
      ∀ i value v s₀, inRange b.capacity i → value s₀ = .ok v s →
        s.array Bitset.lane (i.toNat / 32) = s₀.array Bitset.lane (i.toNat / 32) →
        ∃ s', b.set i value s₀ = .ok .done s' ∧
          Bitset.bit s' = Function.update (Bitset.bit s) i.toNat (v != 0) := by
  refine ⟨fun x y => ?_, fun _ _ _ _ => Grid.index_inj, fun s cells h =>
    ⟨⟨_, run_clearLanes g.cells_lt _ _⟩, fun x y hxy => ?_⟩,
    fun _ _ _ _ _ _ hxy hval => ⟨_, Grid.run_set hxy hval⟩, fun i => inRange_iff b.capacity_lt,
    fun s bits h => ?_⟩
  · rw [Grid.canAccess, Bool.and_eq_true, inRange_iff g.width_lt, inRange_iff g.height_lt]
  · rw [Grid.run_get hxy, h.cell hxy]
  · obtain ⟨hbits, hpad⟩ := h.bits
    refine ⟨fun i hi => ?_, hpad, Bitset.run_clear hpad,
      fun i value v s₀ => Bitset.run_set hpad⟩
    rw [Bitset.run_test hi, hbits]

end Stasis.Collections
