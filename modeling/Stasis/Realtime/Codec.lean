import Mathlib.Data.List.GetD
import Mathlib.Data.List.Nodup
import Stasis.Realtime.Admission

namespace Stasis.Realtime

open List

lemma take_eq_append_slice (bytes : List UInt8) (h : start ≤ stop) :
    bytes.take stop = bytes.take start ++ slice bytes start stop := by
  obtain ⟨width, rfl⟩ := Nat.exists_eq_add_of_le h
  rw [slice, Nat.add_sub_cancel_left, take_add]

variable {bytes : List UInt8}

lemma length_slice (h : stop ≤ bytes.length) : (slice bytes start stop).length = stop - start := by
  rw [slice, length_take, length_drop]
  omega

lemma slice_one (h : i < bytes.length) : slice bytes i (i + 1) = [bytes.getD i 0] := by
  rw [slice, Nat.add_sub_cancel_left, drop_eq_getElem_cons h, take_succ_cons,
    take_zero, getD_eq_getElem _ _ h]

lemma slice_append_right (head body : List UInt8) (start stop : ℕ) :
    slice (head ++ body) (head.length + start) (head.length + stop) = slice body start stop := by
  rw [slice, slice, drop_append, drop_eq_nil_of_le (by omega), nil_append]
  congr 1
  · omega
  · congr 1
    omega

lemma beBytes_toNat_u16 (h : bytes.length = 2) :
    beBytes 2 (UInt16.ofNat (beValue bytes)).toNat = bytes := by
  rw [UInt16.toNat_ofNat', show 2 ^ 16 = 256 ^ 2 from rfl, beBytes_mod 2 _ le_rfl, ← h,
    beBytes_beValue]

lemma beBytes_toNat_u32 (h : bytes.length = 4) :
    beBytes 4 (UInt32.ofNat (beValue bytes)).toNat = bytes := by
  rw [UInt32.toNat_ofNat', show 2 ^ 32 = 256 ^ 4 from rfl, beBytes_mod 4 _ le_rfl, ← h,
    beBytes_beValue]

lemma beBytes_toNat_u64 (h : bytes.length = 8) :
    beBytes 8 (UInt64.ofNat (beValue bytes)).toNat = bytes := by
  rw [UInt64.toNat_ofNat', show 2 ^ 64 = 256 ^ 8 from rfl, beBytes_mod 8 _ le_rfl, ← h,
    beBytes_beValue]

lemma length_encodeTransition (t : ScheduledTransition) :
    (encodeTransition t).length = transitionBytes := by
  simp [encodeTransition, transitionBytes]

lemma decodeTransition_encodeTransition (h : validateTransition t = .ok ()) :
    decodeTransition (encodeTransition t) = .ok t := by
  have hepoch : slice (encodeTransition t) 1 5 = beBytes 4 t.epoch.toNat := rfl
  have hseq : slice (encodeTransition t) 5 9 = beBytes 4 t.sequence.toNat := rfl
  have htick : slice (encodeTransition t) 9 17 = beBytes 8 t.applyTick.toNat := rfl
  have hbut : slice (encodeTransition t) 17 19 = beBytes 2 t.state.buttons.toNat := rfl
  have hseat : (encodeTransition t).getD 0 0 = t.seat := rfl
  have hx : (encodeTransition t).getD 19 0 = t.state.axisX.toUInt8 := rfl
  have hy : (encodeTransition t).getD 20 0 = t.state.axisY.toUInt8 := rfl
  unfold decodeTransition
  rw [if_neg (not_not.mpr (length_encodeTransition t))]
  simp only [hepoch, hseq, htick, hbut, hseat, hx, hy,
    beValue_beBytes (show t.epoch.toNat < 256 ^ 4 from t.epoch.toNat_lt),
    beValue_beBytes (show t.sequence.toNat < 256 ^ 4 from t.sequence.toNat_lt),
    beValue_beBytes (show t.applyTick.toNat < 256 ^ 8 from t.applyTick.toNat_lt),
    beValue_beBytes (show t.state.buttons.toNat < 256 ^ 2 from t.state.buttons.toNat_lt),
    UInt16.ofNat_toNat, UInt32.ofNat_toNat, UInt64.ofNat_toNat, Int8.toInt8_toUInt8]
  rw [h]
  rfl

lemma encodeTransition_of_decodeTransition (h : decodeTransition bytes = .ok t) :
    encodeTransition t = bytes ∧ validateTransition t = .ok () := by
  unfold decodeTransition at h
  split_ifs at h with hlen
  have hlen : bytes.length = 21 := not_not.mp hlen
  obtain ⟨⟨⟩, hvalid, rfl⟩ := map_ok_iff.mp h
  refine ⟨?_, hvalid⟩
  have hseat : bytes.take 1 = [bytes.getD 0 0] := slice_one (i := 0) (by omega)
  calc encodeTransition _
      = bytes.take 1 ++ slice bytes 1 5 ++ slice bytes 5 9 ++ slice bytes 9 17 ++
          slice bytes 17 19 ++ slice bytes 19 20 ++ slice bytes 20 21 := by
        have hwidth (start stop : ℕ) (h : stop ≤ 21) :
            (slice bytes start stop).length = stop - start := length_slice (by omega)
        rw [encodeTransition, beBytes_toNat_u32 (hwidth 1 5 (by decide)),
          beBytes_toNat_u32 (hwidth 5 9 (by decide)), beBytes_toNat_u64 (hwidth 9 17 (by decide)),
          beBytes_toNat_u16 (hwidth 17 19 (by decide)), slice_one (by omega), slice_one (by omega),
          hseat, append_assoc _ [_]]
        rfl
    _ = bytes.take 21 := by
        simp only [← take_eq_append_slice, Nat.reduceLeDiff]
    _ = bytes := take_of_length_le (by omega)

namespace ControlEnvelope

variable {e e' : ControlEnvelope} {t : ScheduledTransition}

lemma ext_transitions (h : e.transitions = e'.transitions) : e = e' := by
  cases e
  cases e'
  simpa using h

lemma push_eq_ok_iff : e.push t = .ok e' ↔ validateTransition t = .ok () ∧
    t.identity ∉ e.transitions.map ScheduledTransition.identity ∧
      e'.transitions = e.transitions ++ [t] := by
  unfold push
  rw [bind_ok_iff]
  cases hfind : e.transitions.find? (sameSequence · t) with
  | some existing =>
    have hmem : t.identity ∈ e.transitions.map ScheduledTransition.identity := by
      by_contra hnot
      rw [RealtimeSession.find?_sameSequence_eq_none.mpr hnot] at hfind
      cases hfind
    constructor
    · rintro ⟨_, _, h⟩
      simp only at h
      split_ifs at h
    · exact fun h => absurd hmem h.2.1
  | none =>
    have hnot := RealtimeSession.find?_sameSequence_eq_none.mp hfind
    constructor
    · rintro ⟨_, hvalid, h⟩
      simp only at h
      split_ifs at h with hlt
      cases h
      exact ⟨hvalid, hnot, rfl⟩
    · rintro ⟨hvalid, -, htrans⟩
      have hbou := e'.bounded
      rw [htrans, length_append, length_singleton] at hbou
      refine ⟨_, hvalid, ?_⟩
      simp only
      rw [dif_pos (Nat.lt_of_succ_le hbou), Except.ok.injEq]
      exact ext_transitions htrans.symm

/-- What pushes leave behind: valid transitions, told apart by their identities. -/
structure WellFormed (e : ControlEnvelope) : Prop where
  valid : ∀ t ∈ e.transitions, validateTransition t = .ok ()
  distinct : (e.transitions.map ScheduledTransition.identity).Nodup

lemma wellFormed_new : WellFormed new := ⟨by simp [new], by simp [new]⟩

lemma WellFormed.push (h : WellFormed e) (hpush : e.push t = .ok e') : WellFormed e' := by
  obtain ⟨hvalid, hnot, htrans⟩ := push_eq_ok_iff.mp hpush
  constructor
  · intro u hu
    rw [htrans, mem_append, mem_singleton] at hu
    rcases hu with hu | rfl
    · exact h.valid u hu
    · exact hvalid
  · rw [htrans, map_append, map_singleton]
    exact h.distinct.append (nodup_singleton _) (by simpa using hnot)

lemma WellFormed.pushAll {ts : List ScheduledTransition} (h : WellFormed e)
    (hpush : ts.foldlM ControlEnvelope.push e = .ok e') : WellFormed e' := by
  induction ts generalizing e with
  | nil =>
    cases hpush
    exact h
  | cons t ts ih =>
    obtain ⟨e₁, hfirst, hrest⟩ := bind_ok_iff.mp hpush
    exact ih (h.push hfirst) hrest

/-- The first records of a payload, as the loop of `decode` reads them. -/
def decodeRecords (bytes : List UInt8) (count : ℕ) : Except EnvelopeError ControlEnvelope :=
  (List.range count).foldlM (fun envelope index => do
    let start := envelopeHeaderBytes + index * transitionBytes
    envelope.push (← decodeTransition (slice bytes start (start + transitionBytes)))) new

variable {bytes : List UInt8} {count : ℕ}

lemma decodeRecords_succ_eq_ok_iff :
    decodeRecords bytes (count + 1) = .ok e' ↔ ∃ e t, decodeRecords bytes count = .ok e ∧
      decodeTransition (slice bytes (envelopeHeaderBytes + count * transitionBytes)
        (envelopeHeaderBytes + (count + 1) * transitionBytes)) = .ok t ∧ e.push t = .ok e' := by
  have hstop : envelopeHeaderBytes + (count + 1) * transitionBytes =
      envelopeHeaderBytes + count * transitionBytes + transitionBytes := by ring
  unfold decodeRecords
  rw [range_succ, foldlM_append, bind_ok_iff, hstop]
  simp only [foldlM_cons, foldlM_nil, bind_pure, bind_ok_iff, exists_and_left]

lemma encode_of_decodeRecords (h : decodeRecords bytes count = .ok e) :
    WellFormed e ∧ e.transitions.length = count ∧
      bytes.take envelopeHeaderBytes ++ e.transitions.flatMap encodeTransition =
        bytes.take (envelopeHeaderBytes + count * transitionBytes) := by
  induction count generalizing e with
  | zero =>
    cases h
    exact ⟨wellFormed_new, rfl, by simp [new]⟩
  | succ count ih =>
    obtain ⟨e₁, t, hbef, hdec, hpush⟩ := decodeRecords_succ_eq_ok_iff.mp h
    obtain ⟨hwf, hlen, hbytes⟩ := ih hbef
    obtain ⟨-, -, htrans⟩ := push_eq_ok_iff.mp hpush
    refine ⟨hwf.push hpush, by simp [htrans, hlen], ?_⟩
    rw [htrans, flatMap_append, ← append_assoc, hbytes, flatMap_singleton,
      (encodeTransition_of_decodeTransition hdec).1]
    exact (take_eq_append_slice _ (by simp [transitionBytes])).symm

def header (e : ControlEnvelope) : List UInt8 :=
  envelopeMagic ++ beBytes 2 envelopeVersion ++ [UInt8.ofNat e.transitions.length, 0]

lemma encode_eq : e.encode = e.header ++ e.transitions.flatMap encodeTransition := rfl

lemma length_header : e.header.length = envelopeHeaderBytes := rfl

lemma length_flatMap_encodeTransition (ts : List ScheduledTransition) :
    (ts.flatMap encodeTransition).length = ts.length * transitionBytes := by
  rw [length_flatMap, map_congr_left fun t _ => length_encodeTransition t]
  simp

lemma slice_encode (hi : i < e.transitions.length) :
    slice e.encode (envelopeHeaderBytes + i * transitionBytes)
      (envelopeHeaderBytes + (i + 1) * transitionBytes) = encodeTransition e.transitions[i] := by
  have hsplit : e.transitions.flatMap encodeTransition =
      (e.transitions.take i).flatMap encodeTransition ++
        (encodeTransition e.transitions[i] ++
          (e.transitions.drop (i + 1)).flatMap encodeTransition) := by
    rw [← flatMap_cons, ← drop_eq_getElem_cons hi, ← flatMap_append, take_append_drop]
  have hbef : ((e.transitions.take i).flatMap encodeTransition).length = i * transitionBytes := by
    rw [length_flatMap_encodeTransition, length_take_of_le hi.le]
  rw [encode_eq, ← length_header (e := e), slice_append_right, hsplit, add_mul, one_mul, ← hbef]
  have hself := slice_append_right ((e.transitions.take i).flatMap encodeTransition)
    (encodeTransition e.transitions[i] ++
      (e.transitions.drop (i + 1)).flatMap encodeTransition) 0 transitionBytes
  refine hself.trans ?_
  rw [slice, drop_zero, Nat.sub_zero, ← length_encodeTransition e.transitions[i], take_left]

lemma decodeRecords_encode (h : WellFormed e) (hcount : count ≤ e.transitions.length) :
    ∃ e', decodeRecords e.encode count = .ok e' ∧ e'.transitions = e.transitions.take count := by
  induction count with
  | zero => exact ⟨new, rfl, rfl⟩
  | succ count ih =>
    obtain ⟨e₁, hbef, htrans⟩ := ih (by omega)
    have htake : e.transitions.take (count + 1) =
        e.transitions.take count ++ [e.transitions[count]] := take_succ_eq_append_getElem hcount
    have hdist : ((e.transitions.take (count + 1)).map ScheduledTransition.identity).Nodup :=
      h.distinct.sublist ((take_sublist _ _).map _)
    have hbou := (length_take_le (count + 1) e.transitions).trans hcount |>.trans e.bounded
    refine ⟨⟨_, hbou⟩, decodeRecords_succ_eq_ok_iff.mpr ⟨e₁, e.transitions[count], hbef, ?_,
      push_eq_ok_iff.mpr ⟨?_, ?_, ?_⟩⟩, rfl⟩
    · rw [slice_encode hcount]
      exact decodeTransition_encodeTransition (h.valid _ (getElem_mem hcount))
    · exact h.valid _ (getElem_mem hcount)
    · rw [htake, map_append, map_singleton] at hdist
      rw [htrans]
      exact fun hmem => (disjoint_of_nodup_append hdist) hmem (mem_singleton_self _)
    · rw [htrans, ← htake]

lemma header_of_decode (h : decode bytes = .ok e) : ∃ count,
    bytes.length = envelopeHeaderBytes + count * transitionBytes ∧
      bytes.take envelopeHeaderBytes =
        envelopeMagic ++ beBytes 2 envelopeVersion ++ [UInt8.ofNat count, 0] ∧
          decodeRecords bytes count = .ok e := by
  unfold decode at h
  dsimp only at h
  split_ifs at h with hlen hhead hcount
  rw [not_or] at hlen hcount
  rw [not_or, not_or, not_not, not_not, not_not] at hhead
  obtain ⟨hmagic, hver, hzero⟩ := hhead
  have hlong : 8 ≤ bytes.length := not_lt.mp hlen.1
  have hwidth : (slice bytes 4 6).length = 2 := length_slice (by omega)
  refine ⟨_, not_not.mp hcount.2, ?_, h⟩
  calc bytes.take envelopeHeaderBytes
      = bytes.take 4 ++ slice bytes 4 6 ++ slice bytes 6 7 ++ slice bytes 7 8 := by
        simp only [← take_eq_append_slice, Nat.reduceLeDiff]
        rfl
    _ = envelopeMagic ++ beBytes 2 envelopeVersion ++ [bytes.getD 6 0, 0] := by
        rw [hmagic, slice_one (by omega), slice_one (by omega), hzero, ← hver, ← hwidth,
          beBytes_beValue, append_assoc _ [_]]
        rfl
    _ = _ := by rw [UInt8.ofNat_toNat]

lemma decode_encode (h : WellFormed e) : decode e.encode = .ok e := by
  have hlen : e.encode.length = envelopeHeaderBytes + e.transitions.length * transitionBytes := by
    rw [encode_eq, length_append, length_header, length_flatMap_encodeTransition]
  have hbou : e.transitions.length ≤ 16 := e.bounded
  have hcount : (e.encode.getD 6 0).toNat = e.transitions.length := by
    change (UInt8.ofNat e.transitions.length).toNat = _
    rw [UInt8.toNat_ofNat', Nat.mod_eq_of_lt (by omega)]
  have hhead : e.encode.take 4 = envelopeMagic ∧ beValue (slice e.encode 4 6) = envelopeVersion ∧
      e.encode.getD 7 0 = 0 := ⟨rfl, rfl, rfl⟩
  obtain ⟨e', hrec, htrans⟩ := decodeRecords_encode h le_rfl
  rw [take_length] at htrans
  obtain rfl := ext_transitions htrans
  simp only [envelopeHeaderBytes, transitionBytes] at hlen
  unfold decode
  rw [if_neg, if_neg]
  · dsimp only
    rw [hcount, if_neg]
    · exact hrec
    · simp only [maxEnvelopeTransitions, envelopeHeaderBytes, transitionBytes]
      omega
  · rw [not_or, not_or, not_not, not_not, not_not]
    exact hhead
  · simp only [maxEnvelopeBytes, maxEnvelopeTransitions, envelopeHeaderBytes, transitionBytes]
    omega

lemma encode_of_decode (h : decode bytes = .ok e) : WellFormed e ∧ e.encode = bytes := by
  obtain ⟨count, hlen, hhead, hrec⟩ := header_of_decode h
  obtain ⟨hwf, rfl, hbytes⟩ := encode_of_decodeRecords hrec
  rw [hhead, ← hlen, take_length] at hbytes
  exact ⟨hwf, hbytes⟩

/-- The payload format is a bijection between the envelopes that pushes build and the
bytes that are accepted. -/
theorem envelope_codec_canonical :
    (∀ (ts : List ScheduledTransition) (e : ControlEnvelope),
      ts.foldlM push new = .ok e → decode e.encode = .ok e) ∧
    ∀ (bytes : List UInt8) (e : ControlEnvelope), decode bytes = .ok e →
      e.encode = bytes ∧ e.transitions.length ≤ 16 ∧
        (∀ t ∈ e.transitions, validateTransition t = .ok ()) ∧
          (e.transitions.map fun t => (t.seat, t.epoch, t.sequence)).Nodup := by
  constructor
  · intro ts e hpush
    exact decode_encode (wellFormed_new.pushAll hpush)
  · intro bytes e hdecode
    obtain ⟨hwf, hbytes⟩ := encode_of_decode hdecode
    have hdistinct : ((e.transitions.map ScheduledTransition.identity).map
        fun i => (i.seat, i.epoch, i.sequence)).Nodup :=
      hwf.distinct.map fun i j hij => by
        cases i
        cases j
        simpa using hij
    rw [List.map_map] at hdistinct
    exact ⟨hbytes, e.bounded, hwf.valid, hdistinct⟩

def pressed : ScheduledTransition := ⟨1, 2, 3, 300, ⟨4, -1, 0⟩⟩

theorem pressed_codec_canonical : ∃ e, [pressed].foldlM push new = .ok e ∧
    decode e.encode = .ok e ∧
      e.encode = [0x52, 0x54, 0x43, 0x31, 0, 1, 1, 0, 1, 0, 0, 0, 2, 0, 0, 0, 3,
        0, 0, 0, 0, 0, 0, 1, 44, 0, 4, 255, 0] := by
  have hpush : [pressed].foldlM push new = .ok ⟨[pressed], by decide⟩ := rfl
  have hdecode := envelope_codec_canonical.1 _ _ hpush
  refine ⟨_, hpush, hdecode, (envelope_codec_canonical.2 _ _ hdecode).1.symm.trans ?_⟩
  decide

end ControlEnvelope
end Stasis.Realtime
