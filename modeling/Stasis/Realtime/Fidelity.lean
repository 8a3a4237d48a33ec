import Stasis.Lib.Run
import Stasis.Realtime.Replica

namespace Stasis.Realtime
namespace RealtimeSession

/-- A complete log replays, and leaves the replica of the session that wrote it. -/
def Faithful (fresh s : RealtimeSession) : Prop :=
  s.replay.complete = true → ∃ log, LabelledRun Follows fresh s.replay.records (s.replica log)

lemma complete_of_push {log : ReplayLog} (h : (log.push record).1.complete = true) :
    log.complete = true ∧ (log.push record).1.records = log.records ++ [record] := by
  unfold ReplayLog.push at h ⊢
  split_ifs at h ⊢ with hl
  exact ⟨h, rfl⟩

variable {s' : RealtimeSession} {seat : ℕ} {active : Bool} {reason : ResetReason}
  (hs : Faithful fresh s)
include hs

lemma Faithful.log (hlog : s'.replay = s.replay)
    (hf : ∀ log, ∃ log', Follows (s.replica log) record (s'.replica log')) :
    Faithful fresh (s'.log record) := by
  intro hc
  have hpush : (s.replay.push record).1.complete = true := by rw [← hlog]; exact hc
  obtain ⟨hc', hrec⟩ := complete_of_push hpush
  obtain ⟨log, hp⟩ := hs hc'
  obtain ⟨log', hl⟩ := hf log
  refine ⟨log', ?_⟩
  have hrec' : (s'.log record).replay.records = s.replay.records ++ [record] := by
    rw [← hrec, ← hlog]
    rfl
  rw [hrec']
  exact hp.snoc hl

lemma Faithful.submitTransition (hn : ¬ s.ConflictsWhileFull t) :
    Faithful fresh (s.submitTransition t).1 := by
  generalize hsub : s.submitTransition t = result
  have heq := hsub
  unfold RealtimeSession.submitTransition at heq
  split at heq
  · subst heq
    exact hs
  rename_i hp
  split at heq
  · rename_i existing hf
    split_ifs at heq with hd
    · subst heq
      exact hs
    have hne : existing ≠ t := by
      rintro rfl
      exact hd ⟨by simp [sameIdentity], rfl⟩
    by_cases hq : s.quarantined.count < maxPendingTransitions
    · rw [← hsub, submitTransition_eq_conflict hp hf hne hq]
      exact hs.log rfl fun log => ⟨log, follows_quarantine hp hq log⟩
    · exact absurd ⟨hp, le_antisymm s.quarantined.bounded (not_lt.mp hq), existing, hf, hne⟩ hn
  rename_i hf
  split at heq
  · subst heq
    exact hs
  rename_i hr
  split_ifs at heq with hl hq hc <;> subst heq
  · exact hs
  · exact hs
  · exact hs.log rfl fun log => ⟨_, follows_scheduled hp hf hr hl hq hc log⟩
  · exact hs

lemma Faithful.advanceTick : Faithful fresh (keepOnError s (s.advanceTick.map (·.1))) := by
  unfold RealtimeSession.advanceTick advanceTickInner
  cases ht : checkedSucc s.currentTick with
  | none => exact hs
  | some tick =>
    refine hs.log ?_ (follows_tick ht)
    unfold applyTick
    generalize s.due tick = entries
    have hfold : ∀ r : RealtimeSession, (entries.foldl applyDue r).replay = r.replay := by
      induction entries with
      | nil => exact fun r => rfl
      | cons entry entries ih => exact fun r => ih (r.applyDue entry)
    exact hfold _

lemma Faithful.recordAuthoritativeHash (tick hash : UInt64) :
    Faithful fresh (keepOnError s (s.recordAuthoritativeHash tick hash)) := by
  unfold RealtimeSession.recordAuthoritativeHash ReplayLog.recordHash
  split
  · rename_i latest controls old hlast
    split_ifs
    · exact hs
    · exact hs
    · intro hc
      obtain ⟨log, hp⟩ := hs hc
      obtain ⟨m, hinit, hstep⟩ := LabelledRun.exists_last
        (by rwa [List.dropLast_append_getLast? _ hlast] :
          LabelledRun Follows fresh (s.replay.records.dropLast ++ [.tick latest controls old]) _)
      exact ⟨log, hinit.snoc hstep⟩
  · exact hs

lemma Faithful.applySnapshot (snapshot : AuthoritativeSnapshot) :
    Faithful fresh (keepOnError s (s.applyAuthoritativeSnapshot snapshot)) := by
  unfold applyAuthoritativeSnapshot
  repeat' split
  all_goals first | exact hs | skip
  have hlog : Faithful fresh ((s.applySnapshot snapshot).log (.snapshot snapshot)) :=
    hs.log rfl fun log => ⟨log, rfl⟩
  exact hlog

omit hs in
lemma lifecycleEpoch_log (h : s.lifecycleEpoch seat active reason = .ok s') :
    ∃ core : RealtimeSession, core.replay = s.replay ∧ s' = core.log (.reset reason) := by
  unfold lifecycleEpoch at h
  split_ifs at h
  obtain ⟨next, -, rfl⟩ := map_ok_iff.mp h
  exact ⟨_, by rfl, rfl⟩

omit hs in
lemma resetAll_log (h : s.resetAll reason = .ok s') :
    ∃ core : RealtimeSession, core.replay = s.replay ∧ s' = core.log (.reset reason) := by
  obtain ⟨epochs, -, rfl⟩ := map_ok_iff.mp h
  exact ⟨_, by rfl, rfl⟩

omit hs in
lemma lt_seats_of_lifecycleEpoch (h : s.lifecycleEpoch seat active reason = .ok s') :
    seat < s.seats := by
  unfold lifecycleEpoch at h
  split_ifs at h with hs
  exact Nat.lt_of_not_ge hs

omit hs in
lemma toNat_ofNat_seat (h : s.lifecycleEpoch seat active reason = .ok s') :
    (UInt8.ofNat seat).toNat = seat := by
  have hlt := lt_seats_of_lifecycleEpoch h
  have hle := s.seats_le
  unfold maxSeats at hle
  rw [UInt8.toNat_ofNat']
  exact Nat.mod_eq_of_lt (by omega)

lemma Faithful.reset {result : Except LifecycleError RealtimeSession}
    (hlog : ∀ s', result = .ok s' → ∃ core : RealtimeSession,
      core.replay = s.replay ∧ s' = core.log (.reset reason))
    (hreset : ∀ s', result = .ok s' → ∀ log, ∃ log', (s.replica log).applyReset reason =
      .ok (s'.replica log')) :
    Faithful fresh (keepOnError s result) := by
  cases hr : result with
  | error e => exact hs
  | ok s' =>
    obtain ⟨core, hcore, rfl⟩ := hlog s' hr
    refine hs.log hcore fun log => ?_
    obtain ⟨log', h⟩ := hreset _ hr log
    exact ⟨log', h⟩

lemma Faithful.lifecycleEpoch
    (hrea : (UInt8.ofNat seat).toNat = seat → ∀ r : RealtimeSession, r.applyReset reason =
      (r.lifecycleEpoch seat active reason).mapError fun _ => .invalidSetup) :
    Faithful fresh (keepOnError s (s.lifecycleEpoch seat active reason)) := by
  refine hs.reset (fun s' h => lifecycleEpoch_log h) fun s' h log => ?_
  refine ⟨(log.push (.reset reason)).1, ?_⟩
  rw [hrea (toNat_ofNat_seat h), lifecycleEpoch_replica h log]
  rfl

lemma Faithful.resetAll
    (hrea : ∀ r : RealtimeSession, r.applyReset reason =
      (r.resetAll reason).mapError fun _ => .invalidSetup) :
    Faithful fresh (keepOnError s (s.resetAll reason)) := by
  refine hs.reset (fun s' h => resetAll_log h) fun s' h log => ?_
  refine ⟨(log.push (.reset reason)).1, ?_⟩
  rw [hrea, resetAll_replica h log]
  rfl

end RealtimeSession

def Op.submitted : Op → List ScheduledTransition
  | .submitTransition t => [t]
  | .submitEnvelope e => e.transitions
  | .submitPayload payload =>
    match ControlEnvelope.decode payload with
    | .ok e => e.transitions
    | .error _ => []
  | _ => []

namespace RealtimeSession

/-- No transition of the list conflicts while the quarantine table is full. -/
def Admissible (s : RealtimeSession) : List ScheduledTransition → Prop
  | [] => True
  | t :: ts => ¬ s.ConflictsWhileFull t ∧ Admissible (s.submitTransition t).1 ts

/-- No operation of the run submits a conflict while the quarantine table is full. -/
def RunAdmissible (s : RealtimeSession) : List Op → Prop
  | [] => True
  | op :: ops => s.Admissible op.submitted ∧ RunAdmissible (s.step op) ops

lemma submitEnvelope_fst (ts : List ScheduledTransition) (s : RealtimeSession)
    (report : List AdmissionOutcome) :
    (ts.foldl (fun (s, report) t =>
      let (s, outcome) := s.submitTransition t
      (s, report ++ [outcome])) (s, report)).1 =
    ts.foldl (fun s t => (s.submitTransition t).1) s := by
  induction ts generalizing s report with
  | nil => rfl
  | cons t ts ih => exact ih _ _

lemma Faithful.submitAll (hs : Faithful fresh s) (hn : s.Admissible ts) :
    Faithful fresh (ts.foldl (fun s t => (s.submitTransition t).1) s) := by
  induction ts generalizing s with
  | nil => exact hs
  | cons t ts ih => exact ih (hs.submitTransition hn.1) hn.2

lemma Faithful.step (hs : Faithful fresh s) (hn : s.Admissible op.submitted) :
    Faithful fresh (s.step op) := by
  cases op with
  | submitTransition t => exact hs.submitTransition hn.1
  | submitEnvelope e =>
    have h := hs.submitAll hn
    rwa [← submitEnvelope_fst _ _ []] at h
  | submitPayload payload =>
    simp only [RealtimeSession.step, submitPayload]
    simp only [Op.submitted] at hn
    cases hd : ControlEnvelope.decode payload with
    | error e => exact hs
    | ok e =>
      simp only [hd] at hn
      have h := hs.submitAll hn
      rwa [← submitEnvelope_fst _ _ []] at h
  | advanceTick => exact hs.advanceTick
  | recordAuthoritativeHash tick hash => exact hs.recordAuthoritativeHash tick hash
  | disconnect seat | reconnect seat =>
    exact hs.lifecycleEpoch fun h r => by simp only [applyReset, h]
  | pause | focusLost | rematch => exact hs.resetAll fun _ => rfl
  | applyAuthoritativeSnapshot snapshot => exact hs.applySnapshot snapshot

lemma Faithful.run (hs : Faithful fresh s) (hn : s.RunAdmissible ops) :
    Faithful fresh (s.run ops) := by
  induction ops generalizing s with
  | nil => exact hs
  | cons op ops ih => exact ih (hs.step hn.1) hn.2

end RealtimeSession

section Replay

variable {ε η : Type} (event : ε → ReplayEvent → ε)
  (hash : η → UInt64 → SeatArray ControlState → UInt64 × η)

/-- Called on the tick records in order, the callback returns each recorded hash. -/
def ReturnsRecorded : η → List ReplayRecord → Prop
  | _, [] => True
  | h, .tick tick controls expected :: records =>
    (∀ x, expected = some x → (hash h tick controls).1 = x) ∧
      ReturnsRecorded (hash h tick controls).2 records
  | h, _ :: records => ReturnsRecorded h records

def HashesRecorded (records : List ReplayRecord) : Prop :=
  ∀ tick controls expected, .tick tick controls expected ∈ records → expected.isSome

lemma replayRecords_ok (hp : LabelledRun RealtimeSession.Follows r records r')
    (hh : HashesRecorded records) (hr : ReturnsRecorded hash h records) (index : ℕ) (e : ε) :
    ∃ e' h', replayRecords event hash index records (r, e, h) = .ok (r', e', h') := by
  induction hp generalizing index e h with
  | nil => exact ⟨_, _, rfl⟩
  | @cons r m r' record records hf hp ih =>
    have hh' : HashesRecorded records := fun t c x hx => hh t c x (.tail _ hx)
    rw [replayRecords]
    cases record with
    | scheduled t =>
      obtain ⟨outcome, hs, rfl | rfl⟩ := hf <;>
        simpa only [replayRecord, hs, Except.bind] using ih hh' hr (index + 1) e
    | tick tick controls expected =>
      obtain ⟨advance, ha, rfl, rfl⟩ := hf
      obtain ⟨x, rfl⟩ := Option.isSome_iff_exists.mp (hh _ _ _ (.head _))
      have hx := hr.1 x rfl
      simpa [replayRecord, ha, hx, Except.bind] using ih hh' hr.2 (index + 1) e
    | reset reason =>
      have hf' : r.applyReset reason = .ok m := hf
      simpa only [replayRecord, hf', Except.map, Except.bind] using ih hh' hr (index + 1) _
    | snapshot snapshot =>
      obtain rfl : r.applySnapshot snapshot = m := hf
      exact ih hh' hr (index + 1) _
    | quarantine seat epoch sequence =>
      have hf' : r.quarantineIdentity ⟨seat, epoch, sequence⟩ = (m, true) := hf
      simpa only [replayRecord, hf', Except.bind] using ih hh' hr (index + 1) _

lemma returnsRecorded_append {hash} (hticks : ∀ tick controls x, .tick tick controls x ∉ records)
    (hr : ReturnsRecorded hash h records') : ReturnsRecorded hash h (records ++ records') := by
  induction records with
  | nil => exact hr
  | cons record records ih =>
    have hr' := ih fun tick controls x hx => hticks tick controls x (.tail _ hx)
    cases record with
    | tick tick controls x => exact absurd (.head _) (hticks tick controls x)
    | _ => exact hr'

end Replay

namespace RealtimeSession

variable {limit n : ℕ} {sequence : UInt32}

lemma new_of_newWithReplayLimit {config : RealtimeConfig} {seats : ℕ}
    (h : newWithReplayLimit config seats limit = .ok s) :
    ∃ log, new config seats = .ok (s.replica log) ∧ s.replay.records = [] := by
  unfold newWithReplayLimit at h
  split_ifs at h with hs
  unfold new newWithReplayLimit
  rw [dif_neg hs]
  unfold ReplayLog.withLimit at h ⊢
  split_ifs at h with hl
  · simp [Except.map] at h
  cases h
  exact ⟨_, rfl, rfl⟩

/-- The log of every run without a conflict under a full quarantine table replays. -/
theorem replay_of_complete_log {config : RealtimeConfig} {seats : ℕ} {s : RealtimeSession}
    (hnew : newWithReplayLimit config seats limit = .ok s) {ops : List Op}
    (hops : s.RunAdmissible ops) (hcomplete : (s.run ops).replay.complete = true)
    (hhash : HashesRecorded (s.run ops).replay.records) {ε η : Type} (event : ε → ReplayEvent → ε)
    (hash : η → UInt64 → SeatArray ControlState → UInt64 × η) (e : ε) (h : η)
    (hret : ReturnsRecorded hash h (s.run ops).replay.records) :
    ∃ out, (s.run ops).replay.replayWithEvents event hash config seats e h = .ok out := by
  obtain ⟨log, hfresh, hempty⟩ := new_of_newWithReplayLimit hnew
  have hs : Faithful (s.replica log) s := fun _ => ⟨log, hempty ▸ .nil _⟩
  obtain ⟨log', hp⟩ := hs.run hops hcomplete
  obtain ⟨e', h', hout⟩ := replayRecords_ok event hash hp hhash hret 0 e
  refine ⟨(e', h'), ?_⟩
  unfold ReplayLog.replayWithEvents
  simp only [hcomplete, hfresh, hout]
  rfl

def sampleConfig : RealtimeConfig := ⟨60, 60, 60, 1⟩

def press (sequence : UInt32) (buttons : UInt16) : ScheduledTransition :=
  ⟨0, 1, sequence, 1, ⟨buttons, 0, 0⟩⟩

/-- `n` identities quarantined, each by two conflicting presses. -/
def fillQuarantine (n : ℕ) : List Op :=
  (List.range n).flatMap fun k =>
    [.submitTransition (press (.ofNat (k + 1)) 1), .submitTransition (press (.ofNat (k + 1)) 2)]

def loseTransition : List Op :=
  [.submitTransition (press 200 1), .submitTransition (press 201 1),
    .submitTransition (press 200 2), .submitTransition (press 201 2),
    .advanceTick, .recordAuthoritativeHash 1 7]

def sampleSession : RealtimeSession where
  config := sampleConfig
  seats := 1
  currentTick := 0
  snapshotRevision := 0
  controls := Vector.replicate _ .neutral
  epochs := Vector.replicate _ 1
  active := SeatArray.fillBelow (Vector.replicate _ false) 1 true
  highestAppliedSequence := Vector.replicate _ 0
  highestSequence := Vector.replicate _ 0
  quarantined := .empty
  resyncRequired := false
  pending := .empty _ _
  recent := Vector.replicate _ none
  recentNext := 0
  replay := ⟨[], 1000, true⟩
  seats_le := by decide

def ReplayRecord.isTick : ReplayRecord → Bool
  | .tick .. => true
  | _ => false

lemma replay_loseTransition :
    let log := (sampleSession.run (fillQuarantine 127 ++ loseTransition)).replay
    (log.complete && log.records.dropLast.all (!ReplayRecord.isTick ·) &&
      decide (log.records.getLast? = some (.tick 1 (Vector.replicate _ .neutral) (some 7))) &&
      !(log.replayWithEvents (fun (_ : Unit) _ => ()) (fun (_ : Unit) _ _ => (7, ()))
        sampleConfig 1 () ()).isOk) = true := by
  decide +kernel

/-- A run whose log is complete and fully hashed, and whose replay fails: the replayed session
still holds the transition the live one dropped. -/
theorem replay_loses_transition :
    ∃ s, newWithReplayLimit sampleConfig 1 1000 = .ok s ∧
      (s.run (fillQuarantine 127 ++ loseTransition)).replay.complete = true ∧
      HashesRecorded (s.run (fillQuarantine 127 ++ loseTransition)).replay.records ∧
      ReturnsRecorded (fun (_ : Unit) _ _ => (7, ())) ()
        (s.run (fillQuarantine 127 ++ loseTransition)).replay.records ∧
      ∀ out, (s.run (fillQuarantine 127 ++ loseTransition)).replay.replayWithEvents
        (fun (_ : Unit) _ => ()) (fun (_ : Unit) _ _ => (7, ())) sampleConfig 1 () () ≠
          .ok out := by
  refine ⟨sampleSession, rfl, ?_⟩
  have h := replay_loseTransition
  generalize (sampleSession.run (fillQuarantine 127 ++ loseTransition)).replay = log at h ⊢
  simp only [Bool.and_eq_true, decide_eq_true_iff, Bool.not_eq_true'] at h
  obtain ⟨⟨⟨hcom, hbef⟩, hlast⟩, hfails⟩ := h
  -- the only tick is the last record, and it has its hash
  have hticks : ∀ tick controls x, .tick tick controls x ∉ log.records.dropLast :=
    fun tick controls x hx => Bool.noConfusion (List.all_eq_true.mp hbef _ hx)
  rw [← List.dropLast_append_getLast? _ hlast]
  refine ⟨hcom, fun tick controls x hx => ?_, returnsRecorded_append hticks ⟨by simp, trivial⟩, ?_⟩
  · rcases List.mem_append.mp hx with hx | hx
    · exact absurd hx (hticks tick controls x)
    · simp only [List.mem_singleton, ReplayRecord.tick.injEq] at hx
      rw [hx.2.2]
      rfl
  · intro out hout
    rw [hout] at hfails
    cases hfails

def pressOnce : List Op :=
  [.submitTransition (press 1 1), .advanceTick, .recordAuthoritativeHash 1 7, .disconnect 0]

theorem replay_pressOnce :
    ∃ out, (sampleSession.run pressOnce).replay.replayWithEvents (fun (_ : Unit) _ => ())
      (fun (_ : Unit) _ _ => (7, ())) sampleConfig 1 () () = .ok out := by
  have hrecords : (sampleSession.run pressOnce).replay.records =
      [.scheduled (press 1 1),
        .tick 1 (SeatArray.put (Vector.replicate _ .neutral) 0 ⟨1, 0, 0⟩) (some 7),
        .reset (.disconnect 0)] := by decide +kernel
  refine replay_of_complete_log
    (show newWithReplayLimit sampleConfig 1 1000 = .ok sampleSession from rfl) ?_
      (by decide +kernel) ?_ _ _ () () ?_
  · exact ⟨⟨fun h => absurd h.2.1 (by decide +kernel), trivial⟩, trivial, trivial, trivial, trivial⟩
  · intro tick controls x hx
    rw [hrecords] at hx
    simp only [List.mem_cons, reduceCtorEq, ReplayRecord.tick.injEq, List.not_mem_nil,
      or_false, false_or] at hx
    rw [hx.2.2]
    rfl
  · rw [hrecords]
    exact ⟨by simp, trivial⟩

end RealtimeSession
end Stasis.Realtime
