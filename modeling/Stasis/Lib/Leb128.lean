import Mathlib.Algebra.Order.Ring.Int
import Mathlib.Tactic.SplitIfs

namespace Stasis.Leb128

open List

def Fits (signed : Bool) (n : ℕ) (x : ℤ) : Prop :=
  if signed then -2 ^ n ≤ 2 * x ∧ 2 * x < 2 ^ n else 0 ≤ x ∧ x < 2 ^ n

instance : Decidable (Fits signed n x) := by
  unfold Fits
  infer_instance

def encode (signed : Bool) : ℕ → ℤ → List UInt8
  | 0, _ => []
  | rounds + 1, x =>
    if Fits signed 7 x then [UInt8.ofNat (x % 128).toNat]
    else UInt8.ofNat ((x % 128).toNat + 128) :: encode signed rounds (x / 128)

def last (signed : Bool) (byte : UInt8) : ℤ :=
  if signed ∧ 64 ≤ byte.toNat then byte.toNat - 128 else byte.toNat

/-- An integer of `n` bits at the front of the bytes, and the bytes after it. -/
def decode (signed : Bool) : ℕ → List UInt8 → Option (ℤ × List UInt8)
  | _, [] => none
  | n, byte :: bytes =>
    if byte.toNat < 128 then
      if Fits signed n (last signed byte) then some (last signed byte, bytes) else none
    else if 7 < n then
      (decode signed (n - 7) bytes).map fun (x, rest) => (128 * x + (byte.toNat - 128), rest)
    else none

/-- `out` is read back as `x` whatever follows it, and is the shortest encoding of `x`. -/
def Exact (signed : Bool) (n : ℕ) (x : ℤ) (out : List UInt8) : Prop :=
  (∀ rest, decode signed n (out ++ rest) = some (x, rest)) ∧
    ∀ bytes, decode signed n bytes = some (x, []) → bytes = out ∨ out.length < bytes.length

lemma Fits.div (hx : Fits signed n x) (hlong : ¬ Fits signed 7 x) :
    7 < n ∧ Fits signed (n - 7) (x / 128) := by
  have hn : 7 < n := by
    by_contra hle
    have hpow : (2 : ℤ) ^ n ≤ 2 ^ 7 := pow_le_pow_right₀ (by decide) (by omega)
    apply hlong
    unfold Fits at hx ⊢
    split_ifs at hx ⊢ <;> omega
  obtain ⟨k, rfl⟩ : ∃ k, n = k + 8 := ⟨n - 8, by omega⟩
  refine ⟨hn, ?_⟩
  rw [show k + 8 - 7 = k + 1 by omega]
  unfold Fits at hx ⊢
  rw [pow_add] at hx ⊢
  split_ifs at hx ⊢ <;> omega

lemma decode_encode (hx : Fits signed n x) (hn : n ≤ 7 * rounds) (hpos : 0 < n) :
    decode signed n (encode signed rounds x ++ rest) = some (x, rest) := by
  induction rounds generalizing n x with
  | zero => omega
  | succ rounds ih =>
    rw [encode]
    split_ifs with hshort
    · have hlast : last signed (UInt8.ofNat (x % 128).toNat) = x := by
        rw [last, UInt8.toNat_ofNat_of_lt' (show _ < 256 by omega)]
        unfold Fits at hshort
        split_ifs at hshort ⊢ <;> simp_all <;> omega
      rw [singleton_append, decode, UInt8.toNat_ofNat_of_lt' (show _ < 256 by omega),
        if_pos (by omega), hlast, if_pos hx]
    · obtain ⟨hlong, hdiv⟩ := hx.div hshort
      rw [cons_append, decode, UInt8.toNat_ofNat_of_lt' (show _ < 256 by omega),
        if_neg (by omega), if_pos hlong, ih hdiv (by omega) (by omega)]
      simp only [Option.map_some, Option.some.injEq, Prod.mk.injEq, and_true]
      omega

lemma decode_shortest (hbytes : decode signed n bytes = some (x, [])) :
    bytes = encode signed rounds x ∨ (encode signed rounds x).length < bytes.length := by
  induction bytes generalizing n x rounds with
  | nil => cases hbytes
  | cons byte bytes ih =>
    cases rounds with
    | zero => exact .inr (Nat.succ_pos _)
    | succ rounds =>
      rw [decode] at hbytes
      split_ifs at hbytes
      · obtain ⟨rfl, rfl⟩ := Prod.mk.inj (Option.some.inj hbytes)
        have hshort : Fits signed 7 (last signed byte) ∧
            (last signed byte % 128).toNat = byte.toNat := by
          unfold Fits last
          split_ifs <;> simp_all <;> omega
        rw [encode, if_pos hshort.1, hshort.2, UInt8.ofNat_toNat]
        exact .inl rfl
      · obtain ⟨⟨m, rest⟩, hm, hx⟩ := Option.map_eq_some_iff.mp hbytes
        obtain ⟨rfl, rfl⟩ := Prod.mk.inj hx
        have hbyte := byte.toNat_lt
        have hdiv : (128 * m + (byte.toNat - 128)) / 128 = m := by omega
        have hmod : ((128 * m + (byte.toNat - 128)) % 128).toNat + 128 = byte.toNat := by omega
        rw [encode, hdiv, hmod, UInt8.ofNat_toNat]
        split_ifs
        · have hne : bytes ≠ [] := by
            rintro rfl
            cases hm
          exact .inr (by simpa [length_pos_iff] using hne)
        · exact (ih hm).imp (congrArg _) Nat.succ_lt_succ

lemma exact_encode (hx : Fits signed n x) (hn : n ≤ 7 * rounds) (hpos : 0 < n) :
    Exact signed n x (encode signed rounds x) :=
  ⟨fun _ => decode_encode hx hn hpos, fun _ => decode_shortest⟩

end Stasis.Leb128
