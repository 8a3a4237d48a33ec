import Stasis.Swap.Pipeline

namespace Stasis.Swap

open DevHotSwapPipeline
open Option
open List

namespace Event

def drainedPath : Event → Option String
  | drained change => some change.path
  | _ => none

def dispatchedRequest : Event → Option CompileRequest
  | dispatched request => some request
  | _ => none

def enqueuedRequest : Event → Option SwapCommitRequest
  | enqueued request => some request
  | _ => none

end Event

open Event (dispatchedRequest drainedPath enqueuedRequest)

/-- Every queued commit directly follows the compile result it was made from. -/
def JustReceived (history : List Event) : Prop :=
  ∀ before request later, history = before ++ .enqueued request :: later →
    ∃ earlier result, before = earlier ++ [.compiled result] ∧
      DevHotSwapPipeline.commitRequestOf result = some request

lemma JustReceived.append_quiet (h : JustReceived history)
    (hquiet : ∀ e ∈ events, e.enqueuedRequest = none) : JustReceived (history ++ events) := by
  intro before request later heq
  rcases append_eq_append_iff.mp heq with ⟨middle, hbef, heve⟩ | ⟨middle, hhis, hlater⟩
  · -- the queued commit would be one of the new events
    have hmem : Event.enqueued request ∈ events := by
      rw [heve]
      exact mem_append_right _ (.head _)
    exact absurd (hquiet _ hmem) (by simp [enqueuedRequest])
  · cases middle with
    | nil =>
      have hmem : Event.enqueued request ∈ events := by
        rw [nil_append] at hlater
        rw [← hlater]
        exact .head _
      exact absurd (hquiet _ hmem) (by simp [enqueuedRequest])
    | cons e middle =>
      obtain ⟨rfl, hmid⟩ := cons.inj hlater
      exact h before request middle hhis

variable {request : SwapCommitRequest} {result : CompileResult} {history : List Event}

lemma JustReceived.append_received (h : JustReceived history)
    (hreq : commitRequestOf result = some request) :
    JustReceived (history ++ [.compiled result, .enqueued request]) := by
  have hcom : JustReceived (history ++ [.compiled result]) :=
    h.append_quiet (by simp [enqueuedRequest])
  intro before request' later heq
  have hsplit : (history ++ [.compiled result]) ++ [.enqueued request] =
      before ++ .enqueued request' :: later := by simpa using heq
  rcases eq_nil_or_concat later with rfl | ⟨later', e, rfl⟩
  · obtain ⟨hbef, hlast⟩ := append_inj' hsplit rfl
    cases hlast
    exact ⟨history, result, hbef.symm, hreq⟩
  · have hlon : (history ++ [.compiled result]) ++ [.enqueued request] =
        (before ++ .enqueued request' :: later') ++ [e] := by simpa using hsplit
    obtain ⟨hfront, -⟩ := append_inj' hlon rfl
    exact hcom before request' later' hfront

/-- The drained edits fall into consecutive batches: one for each request, with the
paths of the batch, and a last one that is still pending. -/
def Batched (history : List Event) (pendingFiles : List String) : Prop :=
  ∃ batches waiting,
    history.filterMap Event.drainedPath = batches.flatten ++ waiting ∧
    List.Forall₂ (fun request batch => ∀ path, path ∈ request.changedFiles ↔ path ∈ batch)
      (history.filterMap Event.dispatchedRequest) batches ∧
    ∀ path, path ∈ pendingFiles ↔ path ∈ waiting

variable {pendingFiles : List String}

lemma Batched.append_quiet (h : Batched history pendingFiles)
    (hquiet : ∀ e ∈ events, e.drainedPath = none ∧ e.dispatchedRequest = none) :
    Batched (history ++ events) pendingFiles := by
  obtain ⟨batches, waiting, hdra, hdisp, hwai⟩ := h
  have hpaths : events.filterMap drainedPath = [] :=
    filterMap_eq_nil_iff.mpr fun e he => (hquiet e he).1
  have hreqs : events.filterMap dispatchedRequest = [] :=
    filterMap_eq_nil_iff.mpr fun e he => (hquiet e he).2
  refine ⟨batches, waiting, ?_, ?_, hwai⟩
  · rw [filterMap_append, hpaths, append_nil, hdra]
  · rw [filterMap_append, hreqs, append_nil]
    exact hdisp

lemma Batched.drained (h : Batched history pendingFiles) (change : FileChangeEvent) :
    Batched (history ++ [.drained change])
      (insertPath change.path pendingFiles) := by
  obtain ⟨batches, waiting, hdra, hdisp, hwai⟩ := h
  refine ⟨batches, waiting ++ [change.path], ?_, ?_, fun path => ?_⟩
  · simp [filterMap_append, hdra, drainedPath]
  · rw [filterMap_append]
    exact (append_nil _).symm ▸ hdisp
  · rw [mem_insertPath, hwai, mem_append, mem_singleton, or_comm]

lemma Batched.dispatched (h : Batched history pendingFiles)
    {request : CompileRequest} (hfiles : request.changedFiles = pendingFiles) :
    Batched (history ++ [.dispatched request]) [] := by
  obtain ⟨batches, waiting, hdra, hdisp, hwai⟩ := h
  refine ⟨batches ++ [waiting], [], ?_, ?_, fun path => Iff.rfl⟩
  · simp [filterMap_append, hdra, drainedPath]
  · rw [filterMap_append]
    refine rel_append hdisp ?_
    refine .cons (fun path => ?_) .nil
    rw [hfiles]
    exact hwai path

structure Ledger (inFlightCompile : Option RequestId) (nextRequestId : RequestId)
    (history : List Event) : Prop where
  increasing : (history.filterMap Event.dispatchedRequest).Pairwise fun earlier later =>
    earlier.requestId < later.requestId
  issued : ∀ request ∈ history.filterMap Event.dispatchedRequest, request.requestId < nextRequestId
  once : ((history.filterMap Event.enqueuedRequest).map SwapCommitRequest.requestId).Nodup
  enqueued_dispatched : ∀ request ∈ history.filterMap Event.enqueuedRequest,
    request.requestId ∈ (history.filterMap Event.dispatchedRequest).map CompileRequest.requestId
  /-- What compiles was dispatched and is not queued for commit yet. -/
  compiling : ∀ id ∈ inFlightCompile,
    id ∈ (history.filterMap Event.dispatchedRequest).map CompileRequest.requestId ∧
      id ∉ (history.filterMap Event.enqueuedRequest).map SwapCommitRequest.requestId

namespace Ledger

variable {inFlightCompile : Option RequestId} {nextRequestId : RequestId}
  {history events : List Event}

lemma append_quiet (h : Ledger inFlightCompile nextRequestId history)
    (hquiet : ∀ e ∈ events, e.dispatchedRequest = none ∧ e.enqueuedRequest = none)
    (hstill : ∀ id ∈ still, id ∈ inFlightCompile) :
    Ledger still nextRequestId (history ++ events) := by
  have hdisp : (history ++ events).filterMap dispatchedRequest =
      history.filterMap dispatchedRequest := by
    rw [filterMap_append, filterMap_eq_nil_iff.mpr fun e he => (hquiet e he).1, append_nil]
  have henq : (history ++ events).filterMap enqueuedRequest =
      history.filterMap enqueuedRequest := by
    rw [filterMap_append, filterMap_eq_nil_iff.mpr fun e he => (hquiet e he).2, append_nil]
  constructor
  · rw [hdisp]
    exact h.increasing
  · rw [hdisp]
    exact h.issued
  · rw [henq]
    exact h.once
  · rw [hdisp, henq]
    exact h.enqueued_dispatched
  · rw [hdisp, henq]
    exact fun id hid => h.compiling id (hstill id hid)

lemma dispatched (h : Ledger inFlightCompile nextRequestId history) {request : CompileRequest}
    (hid : request.requestId = nextRequestId) :
    Ledger (some request.requestId) (nextRequestId + 1) (history ++ [.dispatched request]) := by
  have hdisp : (history ++ [Event.dispatched request]).filterMap dispatchedRequest =
      history.filterMap dispatchedRequest ++ [request] := by
    rw [filterMap_append]
    rfl
  have henq : (history ++ [Event.dispatched request]).filterMap enqueuedRequest =
      history.filterMap enqueuedRequest := by
    rw [filterMap_append]
    exact append_nil _
  constructor
  · rw [hdisp, pairwise_append]
    refine ⟨h.increasing, pairwise_singleton .., fun earlier hear later hlater => ?_⟩
    rw [mem_singleton.mp hlater, hid]
    exact h.issued earlier hear
  · rw [hdisp]
    intro other hother
    rcases mem_append.mp hother with hother | hother
    · exact Nat.lt_succ_of_lt (h.issued other hother)
    · rw [mem_singleton.mp hother, hid]
      exact Nat.lt_succ_self _
  · rw [henq]
    exact h.once
  · rw [hdisp, henq]
    intro queued hque
    rw [map_append]
    exact mem_append_left _ (h.enqueued_dispatched queued hque)
  · rw [hdisp, henq]
    rintro id hmem
    obtain rfl : request.requestId = id := some.inj hmem
    refine ⟨by simp, fun hold => ?_⟩
    -- a queued id was dispatched before, so it is below the new one
    obtain ⟨queued, hque, heq⟩ := mem_map.mp hold
    obtain ⟨earlier, hear, heq'⟩ := mem_map.mp (h.enqueued_dispatched queued hque)
    have hlt := h.issued earlier hear
    rw [heq', heq, hid] at hlt
    exact Nat.lt_irrefl _ hlt

lemma enqueued {id : RequestId} (h : Ledger (some id) nextRequestId history)
    (hid : request.requestId = id) :
    Ledger none nextRequestId (history ++ [.compiled result, .enqueued request]) := by
  have hdisp : (history ++ [Event.compiled result, .enqueued request]).filterMap
      dispatchedRequest = history.filterMap dispatchedRequest := by
    rw [filterMap_append]
    exact append_nil _
  have henq : (history ++ [Event.compiled result, .enqueued request]).filterMap
      enqueuedRequest = history.filterMap enqueuedRequest ++ [request] := by
    rw [filterMap_append]
    rfl
  obtain ⟨hiss, hnew⟩ := h.compiling id rfl
  constructor
  · rw [hdisp]
    exact h.increasing
  · rw [hdisp]
    exact h.issued
  · rw [henq, map_append, map_singleton, hid]
    exact nodup_append.mpr ⟨h.once, nodup_singleton id, by
      rintro a ha b hb rfl
      exact hnew (mem_singleton.mp hb ▸ ha)⟩
  · rw [hdisp, henq]
    intro queued hque
    rcases mem_append.mp hque with hque | hque
    · exact h.enqueued_dispatched queued hque
    · rw [mem_singleton.mp hque, hid]
      exact hiss
  · exact fun _ hmem => absurd hmem (by simp)

end Ledger

namespace DevHotSwapPipeline

lemma eq_of_commitRequestOf (h : commitRequestOf result = some request) :
    result.requestId = request.requestId ∧ result.status = .success ∧
      result.layoutHash = some request.layoutHash ∧
      result.fnPatchSet = some request.fnPatchSet ∧ request.fnPatchSet ≠ [] := by
  unfold commitRequestOf at h
  split at h
  · rename_i layoutHash fn fns hsta hlay hpat
    cases h
    exact ⟨rfl, hsta, hlay, hpat, cons_ne_nil fn fns⟩
  · cases h

structure Protocol (p : DevHotSwapPipeline) (history : List Event) : Prop where
  /-- A request compiles or commits, never both. -/
  exclusive : p.inFlightCompile = none ∨ p.inFlightCommit = none
  /-- The compiler's channels hold at most the request that compiles. -/
  compiling : p.compilerInbox.length + p.compileResults.length ≤ p.inFlightCompile.toList.length
  /-- The commit channels hold at most the request that commits. -/
  committing : p.commitRequests.length + p.commitResults.length ≤ p.inFlightCommit.toList.length
  ledger : Ledger p.inFlightCompile p.nextRequestId history
  batched : Batched history p.pendingFiles
  received : JustReceived history

namespace Protocol

lemma start (targetMode : TargetMode) : Protocol (withTargetMode targetMode) [] where
  exclusive := .inl rfl
  compiling := Nat.le_refl _
  committing := Nat.le_refl _
  ledger := ⟨.nil, by simp, .nil, by simp, by simp [withTargetMode]⟩
  batched := ⟨[], [], rfl, .nil, fun _ => Iff.rfl⟩
  received := by
    intro before request later heq
    simp at heq

variable (h : Protocol p history)
include h

lemma quiet (heve : ∀ e ∈ events, e.drainedPath = none ∧ e.dispatchedRequest = none ∧
      e.enqueuedRequest = none) (hnext : p'.nextRequestId = p.nextRequestId)
    (hfiles : p'.pendingFiles = p.pendingFiles)
    (hstill : ∀ id ∈ p'.inFlightCompile, id ∈ p.inFlightCompile)
    (hexclusive : p'.inFlightCompile = none ∨ p'.inFlightCommit = none)
    (hcomp : p'.compilerInbox.length + p'.compileResults.length ≤ p'.inFlightCompile.toList.length)
    (hcom : p'.commitRequests.length + p'.commitResults.length ≤
      p'.inFlightCommit.toList.length) : Protocol p' (history ++ events) where
  exclusive := hexclusive
  compiling := hcomp
  committing := hcom
  ledger := by
    rw [hnext]
    exact h.ledger.append_quiet (fun e he => (heve e he).2) hstill
  batched := by
    rw [hfiles]
    exact h.batched.append_quiet fun e he => ⟨(heve e he).1, (heve e he).2.1⟩
  received := h.received.append_quiet fun e he => (heve e he).2.2

lemma setHostSetContract (hostSetId : Option String)
    (hostSetHash : Option Digest) : Protocol (p.setHostSetContract hostSetId hostSetHash) history :=
  ⟨h.exclusive, h.compiling, h.committing, h.ledger, h.batched, h.received⟩

lemma submitFileChange (event : FileChangeEvent) : Protocol (p.submitFileChange event) history :=
  ⟨h.exclusive, h.compiling, h.committing, h.ledger, h.batched, h.received⟩

lemma compilerReply (backend : CompileRequest → CompileResult) :
    Protocol (p.compilerReply backend) history := by
  have hcom := h.compiling
  unfold DevHotSwapPipeline.compilerReply
  split
  · exact h
  · rename_i request inbox hinbox
    rw [hinbox, length_cons] at hcom
    refine ⟨h.exclusive, ?_, h.committing, h.ledger, h.batched, h.received⟩
    dsimp only
    rw [length_append, length_singleton]
    omega

lemma recvFileChange : Protocol p.recvFileChange.1 (history ++ p.recvFileChange.2) := by
  unfold DevHotSwapPipeline.recvFileChange
  split
  · simpa using h
  · rename_i change rest _
    exact ⟨h.exclusive, h.compiling, h.committing,
      h.ledger.append_quiet (by simp [dispatchedRequest, enqueuedRequest])
        (fun _ hid => hid),
      h.batched.drained change, h.received.append_quiet (by simp [enqueuedRequest])⟩

lemma maybeDispatchCompileRequest :
    Protocol p.maybeDispatchCompileRequest.1 (history ++ p.maybeDispatchCompileRequest.2) := by
  unfold DevHotSwapPipeline.maybeDispatchCompileRequest
  split
  · simpa using h
  · rename_i hidle
    rw [not_or, not_or, not_isSome_iff_eq_none, not_isSome_iff_eq_none] at hidle
    obtain ⟨hcomp, hcom, -⟩ := hidle
    have hcompiling := h.compiling
    rw [hcomp] at hcompiling
    refine ⟨.inr hcom, ?_, h.committing, h.ledger.dispatched rfl, h.batched.dispatched rfl,
      h.received.append_quiet (by simp [enqueuedRequest])⟩
    -- nothing compiled before, so the new request is alone in the channels
    simp only [toList_none, length_nil] at hcompiling
    simp only [length_append, length_singleton, toList_some, length_singleton]
    omega

lemma recvCompileResult : Protocol p.recvCompileResult.1 (history ++ p.recvCompileResult.2) := by
  have hcomp := h.compiling
  have hexclusive := h.exclusive
  unfold DevHotSwapPipeline.recvCompileResult
  split
  · simpa using h
  · rename_i received rest hres
    rw [hres, length_cons] at hcomp
    dsimp only
    split
    · -- the result of the request in flight
      rename_i hid
      rw [hid, toList_some, length_singleton] at hcomp
      have hcom : p.inFlightCommit = none := hexclusive.resolve_left (by simp [hid])
      have hcomm := h.committing
      rw [hcom, toList_none, length_nil] at hcomm
      cases hreq : commitRequestOf (checkedCompileResult received) with
      | none =>
        refine h.quiet ?_ rfl rfl (by simp [enqueueCommitRequest]) (.inl rfl) ?_ h.committing
        · simp [enqueueCommitRequest, drainedPath, dispatchedRequest, enqueuedRequest]
        · simp only [enqueueCommitRequest, toList_none, length_nil]
          omega
      | some request =>
        have hled := h.ledger
        rw [hid] at hled
        refine ⟨.inl rfl, ?_, ?_, hled.enqueued (eq_of_commitRequestOf hreq).1.symm, ?_,
          h.received.append_received hreq⟩
        · simp only [enqueueCommitRequest, toList_none, length_nil]
          omega
        · simp only [enqueueCommitRequest, length_append, length_singleton, toList_some]
          omega
        · exact h.batched.append_quiet (by simp [enqueueCommitRequest, drainedPath,
            dispatchedRequest])
    · -- a result of another request only becomes the last one
      refine h.quiet (by simp [drainedPath, dispatchedRequest, enqueuedRequest])
        rfl rfl (fun _ hid => hid) hexclusive ?_ h.committing
      dsimp only
      omega

lemma recvCommitResult : Protocol p.recvCommitResult.1 (history ++ p.recvCommitResult.2) := by
  have hcom := h.committing
  unfold DevHotSwapPipeline.recvCommitResult
  split
  · simpa using h
  · rename_i received rest hres
    rw [hres, length_cons] at hcom
    have hle : p.inFlightCommit.toList.length ≤ 1 := by
      cases p.inFlightCommit <;> simp
    refine h.quiet (by simp [drainedPath, dispatchedRequest, enqueuedRequest])
      rfl rfl (fun _ hid => hid) ?_ h.compiling ?_
    · dsimp only
      split
      · exact .inr rfl
      · exact h.exclusive
    · dsimp only
      split
      · rw [toList_none, length_nil]
        omega
      · omega

lemma recvCommitRequest (applyCommit : SwapCommitRequest → SwapCommitResult) :
    Protocol (DevHotSwapPipeline.recvCommitRequest applyCommit p).1
      (history ++ (DevHotSwapPipeline.recvCommitRequest applyCommit p).2) := by
  have hcom := h.committing
  unfold DevHotSwapPipeline.recvCommitRequest
  split
  · simpa using h
  · rename_i request rest hreqs
    rw [hreqs, length_cons] at hcom
    refine h.quiet (by simp [drainedPath, dispatchedRequest, enqueuedRequest])
      rfl rfl (fun _ hid => hid) h.exclusive h.compiling ?_
    simp only [length_append, length_singleton]
    omega

omit h in
lemma drain {I : DevHotSwapPipeline → List Event → Prop}
    (hrecv : ∀ p history, I p history → I (recv p).1 (history ++ (recv p).2)) (h : I p history)
    (n : ℕ) : I (p.drain recv n).1 (history ++ (p.drain recv n).2) :=
  runLog_invariant I _ (fun p history _ _ => hrecv p history) h

lemma move (m : Move) : Protocol (p.move m).1 (history ++ (p.move m).2) := by
  cases m with
  | setHostSetContract hostSetId hostSetHash =>
    simpa [DevHotSwapPipeline.move] using h.setHostSetContract hostSetId hostSetHash
  | submitFileChange event => simpa [DevHotSwapPipeline.move] using h.submitFileChange event
  | compilerReply backend => simpa [DevHotSwapPipeline.move] using h.compilerReply backend
  | drainFileChanges => exact drain (fun _ _ => recvFileChange) h _
  | maybeDispatchCompileRequest => exact h.maybeDispatchCompileRequest
  | drainCompileResults => exact drain (fun _ _ => recvCompileResult) h _
  | drainCommitResults => exact drain (fun _ _ => recvCommitResult) h _
  | safePoint applyCommit => exact drain (fun _ _ hp => hp.recvCommitRequest applyCommit) h _

omit h

lemma run (targetMode : TargetMode) (moves : List Move) :
    Protocol (run targetMode moves).1 (run targetMode moves).2 := by
  have h := runLog_invariant Protocol moves (fun _ _ m _ hp => hp.move m) (start targetMode)
  rwa [nil_append] at h

end Protocol

/-- Whatever the parties do and in whatever order: at most one message about a request
is under way and a request compiles or commits; request ids increase; the drained edits
fall into the batches of the dispatched requests and those still pending; and a commit
is queued right after its own successful compile result, once. -/
theorem run_one_request_in_flight (targetMode : TargetMode) (moves : List Move) :
    let (p, history) := run targetMode moves
    (p.inFlightCompile = none ∨ p.inFlightCommit = none) ∧
    p.compilerInbox.length + p.compileResults.length ≤ p.inFlightCompile.toList.length ∧
    p.commitRequests.length + p.commitResults.length ≤ p.inFlightCommit.toList.length ∧
    (history.filterMap Event.dispatchedRequest).Pairwise
      (fun earlier later => earlier.requestId < later.requestId) ∧
    Batched history p.pendingFiles ∧
    (∀ before request later, history = before ++ .enqueued request :: later →
      ∃ earlier result, before = earlier ++ [.compiled result] ∧
        result.requestId = request.requestId ∧ result.status = .success ∧
        result.layoutHash = some request.layoutHash ∧
        result.fnPatchSet = some request.fnPatchSet ∧ request.fnPatchSet ≠ []) ∧
    ((history.filterMap Event.enqueuedRequest).map SwapCommitRequest.requestId).Nodup := by
  have h := Protocol.run targetMode moves
  refine ⟨h.exclusive, h.compiling, h.committing, h.ledger.increasing, h.batched, ?_,
    h.ledger.once⟩
  intro before request later heq
  obtain ⟨earlier, result, hbefore, hrequest⟩ := h.received before request later heq
  exact ⟨earlier, result, hbefore, eq_of_commitRequestOf hrequest⟩

end DevHotSwapPipeline

end Stasis.Swap
