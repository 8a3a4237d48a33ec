import Mathlib.Data.List.Basic
import Mathlib.Algebra.Order.Ring.Nat
import Mathlib.Tactic.Ring

namespace Stasis

def beBytes : ℕ → ℕ → List UInt8
  | 0, _ => []
  | w + 1, n => UInt8.ofNat (n / 256 ^ w) :: beBytes w n

def beValue (bytes : List UInt8) : ℕ := bytes.foldl (fun n b => 256 * n + b.toNat) 0

@[simp] lemma length_beBytes (w n : ℕ) : (beBytes w n).length = w := by
  induction w with
  | zero => rfl
  | succ w ih => rw [beBytes, List.length_cons, ih]

variable (bytes : List UInt8)

lemma foldl_beValue (n : ℕ) :
    bytes.foldl (fun n b => 256 * n + b.toNat) n = n * 256 ^ bytes.length + beValue bytes := by
  unfold beValue
  induction bytes generalizing n with
  | nil => simp
  | cons b bytes ih =>
    rw [List.foldl_cons, List.foldl_cons, ih, ih (256 * 0 + b.toNat), List.length_cons]
    ring

lemma beValue_cons (b : UInt8) (bytes : List UInt8) :
    beValue (b :: bytes) = b.toNat * 256 ^ bytes.length + beValue bytes := by
  rw [beValue, List.foldl_cons, foldl_beValue]
  simp

lemma beValue_lt : beValue bytes < 256 ^ bytes.length := by
  induction bytes with
  | nil => decide
  | cons b bytes ih =>
    have hb : b.toNat + 1 ≤ 256 := b.toNat_lt
    calc beValue (b :: bytes) = b.toNat * 256 ^ bytes.length + beValue bytes := beValue_cons b bytes
      _ < b.toNat * 256 ^ bytes.length + 256 ^ bytes.length := Nat.add_lt_add_left ih _
      _ = (b.toNat + 1) * 256 ^ bytes.length := by ring
      _ ≤ 256 * 256 ^ bytes.length := Nat.mul_le_mul_right _ hb
      _ = 256 ^ (b :: bytes).length := by rw [List.length_cons, pow_succ, Nat.mul_comm]

lemma beBytes_mod (w n : ℕ) (hk : w ≤ k) : beBytes w (n % 256 ^ k) = beBytes w n := by
  induction w with
  | zero => rfl
  | succ w ih =>
    rw [beBytes, beBytes, ih (by omega)]
    congr 1
    apply UInt8.toNat_inj.mp
    rw [UInt8.toNat_ofNat', UInt8.toNat_ofNat']
    obtain ⟨j, rfl⟩ : ∃ j, k = w + (1 + j) := ⟨k - w - 1, by omega⟩
    rw [pow_add, Nat.mod_mul_right_div_self, pow_add, pow_one]
    exact Nat.mod_mul_right_mod _ _ _

lemma beValue_beBytes (h : n < 256 ^ w) : beValue (beBytes w n) = n := by
  induction w generalizing n with
  | zero =>
    rw [pow_zero] at h
    rw [beBytes, Nat.lt_one_iff.mp h]
    rfl
  | succ w ih =>
    have hpos : 0 < 256 ^ w := Nat.pow_pos (by decide)
    have hdigit : n / 256 ^ w < 256 := by
      rw [Nat.div_lt_iff_lt_mul hpos, Nat.mul_comm, ← pow_succ]
      exact h
    rw [beBytes, beValue_cons, length_beBytes, UInt8.toNat_ofNat', Nat.mod_eq_of_lt hdigit,
      ← beBytes_mod w n le_rfl, ih (Nat.mod_lt _ hpos), Nat.mul_comm]
    exact Nat.div_add_mod n (256 ^ w)

lemma beBytes_beValue : beBytes bytes.length (beValue bytes) = bytes := by
  induction bytes with
  | nil => rfl
  | cons b bytes ih =>
    have hpos : 0 < 256 ^ bytes.length := Nat.pow_pos (by decide)
    have hlow := beValue_lt bytes
    rw [List.length_cons, beBytes, beValue_cons]
    congr 1
    · rw [Nat.mul_comm, Nat.mul_add_div hpos, Nat.div_eq_of_lt hlow, Nat.add_zero,
        UInt8.ofNat_toNat]
    · rw [← beBytes_mod _ _ le_rfl, Nat.mul_comm, Nat.mul_add_mod, Nat.mod_eq_of_lt hlow, ih]

end Stasis
