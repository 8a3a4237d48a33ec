import Mathlib

namespace Stasis

open BitVec

abbrev Word := BitVec 32

namespace Word

/-- Traps on zero, and for signed words where the quotient does not fit. -/
def quotient (unsigned : Bool) (a b : Word) : Option Word :=
  if b = 0 then none
  else if unsigned then some (a / b)
  else if a = BitVec.intMin 32 ∧ b = -1 then none
  else some (a.sdiv b)

def remainder (unsigned : Bool) (a b : Word) : Option Word :=
  if b = 0 then none
  else if unsigned then some (a % b)
  else some (a.srem b)

def less (unsigned : Bool) (a b : Word) : Bool :=
  if unsigned then a.ult b else a.slt b

def ofBool (b : Bool) : Word := if b then 1 else 0

def Represents (unsigned : Bool) (value : ℤ) : Prop :=
  if unsigned then 0 ≤ value ∧ value < 2 ^ 32 else -(2 ^ 31) ≤ value ∧ value < 2 ^ 31

lemma less_ofInt (hu : Represents unsigned u) (hv : Represents unsigned v) :
    less unsigned (BitVec.ofInt 32 u) (BitVec.ofInt 32 v) = decide (u < v) := by
  cases unsigned with
  | false =>
    simp only [Represents, Bool.false_eq_true, if_false] at hu hv
    simp only [less, Bool.false_eq_true, if_false, BitVec.slt]
    rw [BitVec.toInt_ofInt_eq_self (by decide) (by omega) (by omega),
      BitVec.toInt_ofInt_eq_self (by decide) (by omega) (by omega)]
  | true =>
    simp only [Represents, if_true] at hu hv
    simp only [less, if_true, BitVec.ult, BitVec.toNat_ofInt]
    apply decide_eq_decide.mpr
    omega

lemma ofInt_and_mask (bits : ℕ) (hbits : bits ≤ 32) (hlow : 0 ≤ value)
    (hhigh : value ≤ 2 ^ bits - 1) :
    BitVec.ofInt 32 value &&& BitVec.ofNat 32 (2 ^ bits - 1) = BitVec.ofInt 32 value := by
  have hpow : (2 : ℕ) ^ bits ≤ 2 ^ 32 := Nat.pow_le_pow_right (by decide) hbits
  have hpos : 0 < (2 : ℕ) ^ bits := Nat.two_pow_pos bits
  have hvalue : value.toNat < 2 ^ bits := by
    have hcast : ((2 ^ bits : ℕ) : ℤ) = 2 ^ bits := by norm_cast
    omega
  apply eq_of_toNat_eq
  rw [toNat_and, BitVec.toNat_ofInt, BitVec.toNat_ofNat,
    Nat.mod_eq_of_lt (a := 2 ^ bits - 1) (by omega), Nat.and_two_pow_sub_one_eq_mod]
  have hmod : (value % ((2 ^ 32 : ℕ) : ℤ)).toNat = value.toNat := by omega
  rw [hmod, Nat.mod_eq_of_lt hvalue]

variable {a b : Word} {n : ℕ}

lemma toNat_ofNat (h : n < 2 ^ 31) : (BitVec.ofNat 32 n).toNat = n := by
  rw [BitVec.toNat_ofNat]
  omega

lemma toInt_of_lt (h : a.toNat < 2 ^ 31) : a.toInt = a.toNat := toInt_eq_toNat_of_lt (by omega)

lemma slt_of_lt (ha : a.toNat < 2 ^ 31) (hb : b.toNat < 2 ^ 31) :
    a.slt b = decide (a.toNat < b.toNat) := by
  rw [BitVec.slt, toInt_of_lt ha, toInt_of_lt hb]
  exact decide_eq_decide.mpr Int.ofNat_lt

lemma sle_of_lt (ha : a.toNat < 2 ^ 31) (hb : b.toNat < 2 ^ 31) :
    a.sle b = decide (a.toNat ≤ b.toNat) := by
  rw [BitVec.sle, toInt_of_lt ha, toInt_of_lt hb]
  exact decide_eq_decide.mpr Int.ofNat_le

lemma zero_sle (a : Word) : BitVec.sle 0 a = decide (a.toNat < 2 ^ 31) := by
  have hcond := BitVec.toInt_eq_toNat_cond a
  apply decide_eq_decide.mpr
  change (0 : ℤ) ≤ a.toInt ↔ _
  split at hcond <;> omega

lemma toNat_signExtend (h : a.toNat < 2 ^ 31) : (a.signExtend 64).toNat = a.toNat := by
  have hmsb : a.msb = false := msb_eq_false_iff_two_mul_lt.mpr (by omega)
  rw [signExtend_eq_setWidth_of_msb_false hmsb, toNat_setWidth]
  omega

end Word

end Stasis
