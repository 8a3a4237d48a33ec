import Stasis.Wasm.Code
import Stasis.Lib.Leb128

namespace Stasis.Wasm

open List Leb128

def section_ (id : UInt8) (payload module : List UInt8) : List UInt8 :=
  if payload = [] then module
  else module ++ id :: uleb 5 (payload.length % 2 ^ 32) ++ payload

def string (value out : List UInt8) : List UInt8 :=
  out ++ uleb 5 (value.length % 2 ^ 32) ++ value

def readString (bytes : List UInt8) : Option (List UInt8 × List UInt8) := do
  let (length, rest) ← decode false 32 bytes
  if length ≤ rest.length then some (rest.splitAt length.toNat) else none

def readSection : List UInt8 → Option ((UInt8 × List UInt8) × List UInt8)
  | [] => none
  | id :: bytes => (readString bytes).map fun (payload, rest) => ((id, payload), rest)

lemma byte_bits (h : k < 128) : UInt8.ofNat k ||| 0x80 = UInt8.ofNat (k + 128) ∧
    (UInt8.ofNat k &&& 0x40 = 0 ↔ k < 64) := by
  interval_cases k <;> decide

lemma uleb_eq_encode (rounds value : ℕ) : uleb rounds value = encode false rounds value := by
  induction rounds generalizing value with
  | zero => rfl
  | succ rounds ih =>
    have hshort : value / 128 = 0 ↔ Fits false 7 value := by simp [Fits]
    rw [uleb, encode, ih, (byte_bits (Nat.mod_lt _ (by decide))).1]
    simp only [hshort]
    rfl

lemma sleb_eq_encode (hw : 8 ≤ w) (value : BitVec w) :
    sleb rounds value = encode true rounds value.toInt := by
  induction rounds generalizing value with
  | zero => rfl
  | succ rounds ih =>
    have hrest : (value.sshiftRight 7).toInt = value.toInt / 128 := by
      rw [BitVec.toInt_sshiftRight, Int.shiftRight_eq_div_pow]
      rfl
    obtain ⟨k, rfl⟩ : ∃ k, w = k + 8 := ⟨w - 8, by omega⟩
    have hmod : (value.toInt % 128).toNat = value.toNat % 128 := by
      rw [BitVec.toInt_eq_toNat_cond, pow_add]
      split_ifs <;> omega
    have hbyte : UInt8.ofBitVec ((value &&& 0x7f).setWidth 8) =
        UInt8.ofNat (value.toInt % 128).toNat := by
      rw [hmod, ← UInt8.toNat_inj, UInt8.toNat_ofNat_of_lt' (show _ < 256 by omega)]
      have hand : value.toNat % 256 &&& 2 ^ 7 - 1 = value.toNat % 128 := by
        rw [Nat.and_two_pow_sub_one_eq_mod]
        omega
      simp
      exact hand
    obtain ⟨hhigh, hsign⟩ := byte_bits (k := (value.toInt % 128).toNat) (by omega)
    have hzero : value.sshiftRight 7 = 0 ↔ value.toInt / 128 = 0 := by
      rw [← BitVec.toInt_inj, hrest]
      simp
    have hneg : value.sshiftRight 7 = -1 ↔ value.toInt / 128 = -1 := by
      rw [← BitVec.toInt_inj, hrest, BitVec.ofNat_eq_ofNat, BitVec.neg_one_eq_allOnes,
        BitVec.toInt_allOnes, if_pos (by omega)]
    have hdone : (value.sshiftRight 7 = 0 ∧ UInt8.ofNat (value.toInt % 128).toNat &&& 0x40 = 0 ∨
        value.sshiftRight 7 = -1 ∧ UInt8.ofNat (value.toInt % 128).toNat &&& 0x40 ≠ 0) ↔
        Fits true 7 value.toInt := by
      rw [hzero, hneg, ne_eq, hsign]
      simp [Fits]
      omega
    rw [sleb, encode, ih, hrest, hbyte, hhigh]
    simp only [hdone]

lemma fits_toInt (value : BitVec w) : Fits true w value.toInt :=
  ⟨BitVec.le_two_mul_toInt, BitVec.two_mul_toInt_lt⟩

lemma readString_string (hlen : value.length < 2 ^ 32) :
    readString (string value [] ++ rest) = some (value, rest) := by
  have hfits : Fits false 32 value.length := by simp [Fits]; omega
  rw [readString, string, Nat.mod_eq_of_lt hlen, uleb_eq_encode, nil_append, append_assoc,
    decode_encode hfits (by decide) (by decide)]
  simp

/-- **Integers and frames are exact.** -/
theorem leb128_exact :
    (∀ value : BitVec 32, Exact false 32 value.toNat (uleb 5 value.toNat)) ∧
    (∀ value : BitVec 32, Exact true 32 value.toInt (sleb 5 value)) ∧
    (∀ value : BitVec 64, Exact true 64 value.toInt (sleb 10 value)) ∧
    (∀ id payload module rest, payload ≠ [] → payload.length < 2 ^ 32 → ∃ out,
      section_ id payload module = module ++ out ∧
        readSection (out ++ rest) = some ((id, payload), rest)) ∧
    ∀ value out rest, value.length < 2 ^ 32 → ∃ emitted,
      string value out = out ++ emitted ∧ readString (emitted ++ rest) = some (value, rest) := by
  refine ⟨fun value => ?_, fun value => ?_, fun value => ?_, ?_, ?_⟩
  · rw [uleb_eq_encode]
    exact exact_encode (by simp [Fits]; omega) (by decide) (by decide)
  · rw [sleb_eq_encode (by decide)]
    exact exact_encode (fits_toInt value) (by decide) (by decide)
  · rw [sleb_eq_encode (by decide)]
    exact exact_encode (fits_toInt value) (by decide) (by decide)
  · intro id payload module rest hne hlen
    refine ⟨id :: string payload [], by simp [section_, string, hne], ?_⟩
    rw [cons_append, readSection, readString_string hlen]
    rfl
  · intro value out rest hlen
    exact ⟨string value [], by simp [string], readString_string hlen⟩

/-- A section without a payload is not there to be read. -/
theorem empty_section_unread :
    section_ 1 [] [] = [] ∧ readSection (section_ 1 [] []) = none := by
  decide

end Stasis.Wasm
