import Mathlib.Data.List.Dedup
import Stasis.Swap.Protocol

namespace Stasis.Swap

open Event
open Option
open List

def dispatchedIds (history : List Event) : List RequestId :=
  (history.filterMap Event.dispatchedRequest).map CompileRequest.requestId

namespace Event

def acceptedId : Event → Option RequestId
  | applied request result =>
    if (DevHotSwapPipeline.checkedCommitResult result).status = .success
    then some request.requestId else none
  | _ => none

/-- The request that ended without a commit: nothing to commit, or a commit refused. -/
def rejectedId : Event → Option RequestId
  | compiled result =>
    if DevHotSwapPipeline.commitRequestOf result = none then some result.requestId else none
  | applied request result =>
    if (DevHotSwapPipeline.checkedCommitResult result).status = .success
    then none else some request.requestId
  | _ => none

def concludedId (e : Event) : Option RequestId :=
  e.acceptedId.or e.rejectedId

lemma concludedId_applied (request : SwapCommitRequest) (result : SwapCommitResult) :
    (applied request result).concludedId = some request.requestId := by
  simp only [concludedId, acceptedId, rejectedId]
  split_ifs <;> rfl

lemma concludedId_compiled (result : CompileResult) :
    (compiled result).concludedId =
      if DevHotSwapPipeline.commitRequestOf result =
        none then some result.requestId else none := rfl

end Event

def concludedIds (history : List Event) : List RequestId :=
  history.filterMap Event.concludedId

lemma mem_concludedIds_iff {id : RequestId} :
    id ∈ concludedIds history ↔
      id ∈ history.filterMap acceptedId ∨ id ∈ history.filterMap rejectedId := by
  simp only [concludedIds, mem_filterMap]
  constructor
  · rintro ⟨e, he, hid⟩
    rcases or_eq_some_iff.mp hid with hacc | ⟨-, hrej⟩
    · exact .inl ⟨e, he, hacc⟩
    · exact .inr ⟨e, he, hrej⟩
  · rintro (⟨e, he, hid⟩ | ⟨e, he, hid⟩)
    · exact ⟨e, he, by rw [concludedId, hid, some_or]⟩
    · refine ⟨e, he, ?_⟩
      -- an event that rejects a request accepts none
      have hnone : e.acceptedId = none := by
        cases e with
        | applied request result =>
          simp only [rejectedId] at hid
          simp only [acceptedId]
          split_ifs at hid ⊢
          rfl
        | _ => rfl
      rw [concludedId, hnone, none_or, hid]

lemma dispatchedIds_append (history events : List Event) :
    dispatchedIds (history ++ events) = dispatchedIds history ++ dispatchedIds events := by
  rw [dispatchedIds, filterMap_append, map_append]
  rfl

lemma concludedIds_append (history events : List Event) :
    concludedIds (history ++ events) = concludedIds history ++ concludedIds events :=
  filterMap_append

namespace DevHotSwapPipeline

/-- The commit callback of a safe point answers under the id it was asked about. -/
def Move.Echoes : Move → Prop
  | .safePoint applyCommit => ∀ request, (applyCommit request).requestId = request.requestId
  | _ => True

/-- The requests that wait for the compiler or for a safe point. -/
def openIds (p : DevHotSwapPipeline) : List RequestId :=
  p.inFlightCompile.toList ++ p.commitRequests.map SwapCommitRequest.requestId

structure Accounted (p : DevHotSwapPipeline) (history : List Event) : Prop where
  protocol : Protocol p history
  running : p.compilerThread = true
  /-- The commit in flight is the one message in the commit channels. -/
  commits : p.commitRequests.map SwapCommitRequest.requestId ++
    p.commitResults.map SwapCommitResult.requestId = p.inFlightCommit.toList
  answered : p.commitResults.map SwapCommitResult.requestId ⊆ dispatchedIds history
  /-- A request is open from its dispatch until an event concludes it. -/
  open_iff : ∀ id, id ∈ p.openIds ↔ id ∈ dispatchedIds history ∧ id ∉ concludedIds history
  /-- Only dispatched requests are concluded, unless the compiler answered under another
  id: then the request it was asked about is in flight for ever. -/
  concluded : concludedIds history ⊆ dispatchedIds history ∨
    (p.inFlightCompile.isSome ∧ p.compilerInbox = [] ∧ p.compileResults = [])

namespace Accounted

variable {p : DevHotSwapPipeline} {history : List Event}

lemma start (targetMode : TargetMode) : Accounted (withTargetMode targetMode) [] where
  protocol := .start targetMode
  running := rfl
  commits := rfl
  answered := nil_subset _
  open_iff := by simp [withTargetMode, openIds, dispatchedIds]
  concluded := .inl (nil_subset _)

variable (h : Accounted p history)
include h

lemma quiet (hprot : Protocol p' (history ++ events)) (hthr : p'.compilerThread = p.compilerThread)
    (hdisp : dispatchedIds events = []) (hcon : concludedIds events = [])
    (hcomp : p'.inFlightCompile = p.inFlightCompile) (hreqs : p'.commitRequests = p.commitRequests)
    (hcom : p'.commitRequests.map SwapCommitRequest.requestId ++
      p'.commitResults.map SwapCommitResult.requestId = p'.inFlightCommit.toList)
    (hres : p'.commitResults ⊆ p.commitResults)
    (hstuck : p.compilerInbox = [] → p.compileResults = [] →
      p'.compilerInbox = [] ∧ p'.compileResults = []) :
    Accounted p' (history ++ events) where
  protocol := hprot
  running := hthr.trans h.running
  commits := hcom
  answered := by
    rw [dispatchedIds_append, hdisp, append_nil]
    exact List.Subset.trans (map_subset _ hres) h.answered
  open_iff := by
    intro id
    rw [openIds, hcomp, hreqs, dispatchedIds_append, concludedIds_append, hdisp,
      hcon, append_nil, append_nil]
    exact h.open_iff id
  concluded := by
    rw [dispatchedIds_append, concludedIds_append, hdisp, hcon, append_nil, append_nil, hcomp]
    exact h.concluded.imp_right fun ⟨hsome, hinbox, hres⟩ => ⟨hsome, hstuck hinbox hres⟩

lemma setHostSetContract (hostSetId : Option String)
    (hostSetHash : Option Digest) : Accounted (p.setHostSetContract hostSetId hostSetHash)
      history :=
  ⟨h.protocol.setHostSetContract hostSetId hostSetHash, h.running, h.commits, h.answered,
    h.open_iff, h.concluded⟩

lemma submitFileChange (event : FileChangeEvent) : Accounted (p.submitFileChange event) history :=
  ⟨h.protocol.submitFileChange event, h.running, h.commits, h.answered, h.open_iff, h.concluded⟩

lemma compilerReply (backend : CompileRequest → CompileResult) :
    Accounted (p.compilerReply backend) history := by
  have hprot := h.protocol.compilerReply backend
  unfold DevHotSwapPipeline.compilerReply at hprot ⊢
  split
  · exact h
  · rename_i request inbox hinbox
    rw [hinbox] at hprot
    -- a request in the inbox says that the compiler is not done with what it has
    exact ⟨hprot, h.running, h.commits, h.answered, h.open_iff,
      h.concluded.imp_right fun ⟨_, hempty, _⟩ => absurd (hinbox.symm.trans hempty) (by simp)⟩

lemma recvFileChange : Accounted p.recvFileChange.1 (history ++ p.recvFileChange.2) := by
  have hprot := h.protocol.recvFileChange
  unfold DevHotSwapPipeline.recvFileChange at hprot ⊢
  split at hprot
  · simpa using h
  · exact h.quiet hprot rfl rfl rfl rfl rfl h.commits (List.Subset.refl _) .intro

lemma commitRequests_eq_nil (hcom : p.inFlightCommit = none) :
    p.commitRequests = [] ∧ p.commitResults = [] := by
  have hcomm := h.commits
  rw [hcom, toList_none, append_eq_nil_iff, map_eq_nil_iff, map_eq_nil_iff] at hcomm
  exact hcomm

lemma maybeDispatchCompileRequest :
    Accounted p.maybeDispatchCompileRequest.1 (history ++ p.maybeDispatchCompileRequest.2) := by
  have hprot := h.protocol.maybeDispatchCompileRequest
  unfold DevHotSwapPipeline.maybeDispatchCompileRequest at hprot ⊢
  split
  · simpa using h
  · rename_i hidle
    rw [if_neg hidle] at hprot
    rw [not_or, not_or, not_isSome_iff_eq_none, not_isSome_iff_eq_none] at hidle
    obtain ⟨hcomp, hcom, -⟩ := hidle
    have hsub : concludedIds history ⊆ dispatchedIds history :=
      h.concluded.resolve_right fun ⟨hsome, _⟩ => by simp [hcomp] at hsome
    have hfresh : p.nextRequestId ∉ dispatchedIds history := by
      intro hmem
      obtain ⟨request, hreq, heq⟩ := mem_map.mp hmem
      exact absurd (h.protocol.ledger.issued request hreq) (heq ▸ Nat.lt_irrefl _)
    refine ⟨hprot, h.running, h.commits, ?_, fun id => ?_, .inl ?_⟩
    · rw [dispatchedIds_append]
      exact subset_append_of_subset_left _ h.answered
    · have hopen := h.open_iff id
      rw [openIds, hcomp, (h.commitRequests_eq_nil hcom).1] at hopen
      rw [openIds, (h.commitRequests_eq_nil hcom).1, dispatchedIds_append, concludedIds_append]
      -- what was dispatched before is concluded, so only the new request is open
      by_cases hid : id = p.nextRequestId
      · subst hid
        have hnew : p.nextRequestId ∉ concludedIds history := fun hmem => hfresh (hsub hmem)
        simp [dispatchedIds, concludedIds, dispatchedRequest, concludedId,
          acceptedId, rejectedId] at hnew ⊢
        exact hnew
      · simp [dispatchedIds, concludedIds, dispatchedRequest, concludedId,
          acceptedId, rejectedId, hid] at hopen ⊢
        exact hopen
    · rw [dispatchedIds_append, concludedIds_append]
      exact (append_nil _).symm ▸ subset_append_of_subset_left _ hsub

lemma compileResults_eq_singleton (hres : p.compileResults = result :: rest) :
    ∃ id, p.inFlightCompile = some id ∧ p.compilerInbox = [] ∧ rest = [] ∧
      p.inFlightCommit = none := by
  have hcomp := h.protocol.compiling
  rw [hres, length_cons] at hcomp
  cases hcom : p.inFlightCompile <;> rw [hcom] at hcomp
  · simp at hcomp
  · rw [toList_some, length_singleton] at hcomp
    exact ⟨_, rfl, eq_nil_of_length_eq_zero (by omega), eq_nil_of_length_eq_zero (by omega),
      h.protocol.exclusive.resolve_left (by simp [hcom])⟩

lemma recvCompileResult : Accounted p.recvCompileResult.1 (history ++ p.recvCompileResult.2) := by
  have hprot := h.protocol.recvCompileResult
  unfold DevHotSwapPipeline.recvCompileResult at hprot ⊢
  split at hprot
  · simpa using h
  · rename_i received rest hres
    obtain ⟨id, hcomp, hinbox, rfl, hcom⟩ := h.compileResults_eq_singleton hres
    obtain ⟨hreqs, hcomRe⟩ := h.commitRequests_eq_nil hcom
    have hopen : ∀ other, other = id ↔
        other ∈ dispatchedIds history ∧ other ∉ concludedIds history := by
      intro other
      have hiff := h.open_iff other
      rw [openIds, hcomp, hreqs] at hiff
      simpa using hiff
    generalize checkedCompileResult received = result at hprot ⊢
    dsimp only at hprot ⊢
    by_cases hid : p.inFlightCompile = some result.requestId
    · rw [if_pos hid] at hprot ⊢
      obtain rfl : id = result.requestId := some.inj (hcomp.symm.trans hid)
      have hsub : concludedIds history ⊆ dispatchedIds history := by
        refine h.concluded.resolve_right fun ⟨_, _, hempty⟩ => ?_
        exact absurd (hres.symm.trans hempty) (by simp)
      cases hreq : commitRequestOf result with
      | none =>
        rw [hreq] at hprot
        -- nothing to commit, so the request is rejected and none is open
        have heve : concludedIds [compiled result] = [result.requestId] := by
          simp [concludedIds, concludedId_compiled, hreq]
        have hquiet : dispatchedIds [compiled result] = [] := rfl
        refine ⟨hprot, h.running, h.commits, by simp [enqueueCommitRequest, hcomRe],
          fun other => ?_, .inl ?_⟩
        · have hother := hopen other
          simp only [openIds, enqueueCommitRequest, hreqs, dispatchedIds_append,
            concludedIds_append, heve, hquiet, append_nil, mem_append,
            mem_singleton, toList_none, map_nil, not_mem_nil, false_iff]
          tauto
        · simp only [enqueueCommitRequest, dispatchedIds_append, concludedIds_append, heve,
            hquiet, append_nil]
          refine append_subset.mpr ⟨hsub, ?_⟩
          exact cons_subset.mpr ⟨((hopen result.requestId).mp rfl).1, nil_subset _⟩
      | some request =>
        rw [hreq] at hprot
        obtain ⟨hreqId, -⟩ := eq_of_commitRequestOf hreq
        have heve : concludedIds [compiled result, .enqueued request] = [] := by
          simp [concludedIds, concludedId_compiled, hreq]
          rfl
        have hquiet : dispatchedIds [compiled result, .enqueued request] = [] := rfl
        refine ⟨hprot, h.running, ?_, by simp [enqueueCommitRequest, hcomRe],
          fun other => ?_, .inl ?_⟩
        · simp [enqueueCommitRequest, hreqs, hcomRe]
        · have hother := hopen other
          simp only [openIds, enqueueCommitRequest, hreqs, dispatchedIds_append,
            concludedIds_append, heve, hquiet, append_nil, nil_append,
            toList_none, map_singleton, mem_singleton, ← hreqId]
          exact hother
        · simp only [enqueueCommitRequest, dispatchedIds_append, concludedIds_append, heve,
            hquiet, append_nil]
          exact hsub
    · -- an answer under another id leaves the request in flight
      rw [if_neg hid] at hprot ⊢
      refine ⟨hprot, h.running, h.commits, by simp [hcomRe], fun other => ?_, .inr ?_⟩
      · have hother := hopen other
        have hquiet : dispatchedIds [compiled result] = [] := rfl
        have heve : ∀ other ∈ concludedIds [compiled result], other ≠ id := by
          intro other hother heq
          obtain ⟨e, he, hcon⟩ := mem_filterMap.mp hother
          rw [mem_singleton.mp he, concludedId_compiled] at hcon
          split_ifs at hcon
          exact hid (hcomp.trans (heq ▸ hcon.symm))
        simp only [openIds, hreqs, hcomp, dispatchedIds_append, concludedIds_append, hquiet,
          append_nil, map_nil, toList_some, mem_singleton, mem_append]
        tauto
      · exact ⟨by simp [hcomp], hinbox, rfl⟩

lemma commitResults_eq_singleton (hres : p.commitResults = result :: rest) :
    p.commitRequests = [] ∧ rest = [] ∧ p.inFlightCommit = some result.requestId := by
  have hcom := h.commits
  rw [hres] at hcom
  cases hfly : p.inFlightCommit with
  | none => simp [hfly] at hcom
  | some id =>
    have hone : p.commitRequests = [] ∧ result.requestId = id ∧ rest = [] := by
      simpa [hfly, append_eq_singleton_iff] using hcom
    exact ⟨hone.1, hone.2.2, congrArg some hone.2.1.symm⟩

lemma commitRequests_eq_singleton (hreqs : p.commitRequests = request :: rest) :
    rest = [] ∧ p.commitResults = [] ∧ p.inFlightCommit = some request.requestId := by
  have hcom := h.commits
  rw [hreqs] at hcom
  cases hfly : p.inFlightCommit with
  | none => simp [hfly] at hcom
  | some id =>
    have hone : request.requestId = id ∧ rest = [] ∧ p.commitResults = [] := by
      simpa [hfly] using hcom
    exact ⟨hone.2.1, hone.2.2, congrArg some hone.1.symm⟩

omit h in
lemma requestId_checkedCommitResult (result : SwapCommitResult) :
    (checkedCommitResult result).requestId = result.requestId := by
  unfold checkedCommitResult
  split <;> rfl

lemma recvCommitResult : Accounted p.recvCommitResult.1 (history ++ p.recvCommitResult.2) := by
  have hprot := h.protocol.recvCommitResult
  unfold DevHotSwapPipeline.recvCommitResult at hprot ⊢
  split at hprot
  · simpa using h
  · rename_i received rest hres
    refine h.quiet hprot rfl rfl rfl rfl rfl ?_ (hres ▸ subset_cons_self _ _) .intro
    -- the commit in flight is this one, and its result is the only message
    obtain ⟨hreqs, rfl, hcom⟩ := h.commitResults_eq_singleton hres
    simp [hreqs, hcom, requestId_checkedCommitResult]

lemma recvCommitRequest (hecho : ∀ request, (applyCommit request).requestId = request.requestId) :
    Accounted (DevHotSwapPipeline.recvCommitRequest applyCommit p).1
      (history ++ (DevHotSwapPipeline.recvCommitRequest applyCommit p).2) := by
  have hprot := h.protocol.recvCommitRequest applyCommit
  unfold DevHotSwapPipeline.recvCommitRequest at hprot ⊢
  split at hprot
  · simpa using h
  · rename_i request rest hreqs
    obtain ⟨rfl, hres, hcom⟩ := h.commitRequests_eq_singleton hreqs
    have hcomp : p.inFlightCompile = none := h.protocol.exclusive.resolve_right (by simp [hcom])
    have hopen : ∀ id, id = request.requestId ↔
        id ∈ dispatchedIds history ∧ id ∉ concludedIds history := by
      intro id
      have hiff := h.open_iff id
      rw [openIds, hcomp, hreqs] at hiff
      simpa using hiff
    have hsub : concludedIds history ⊆ dispatchedIds history :=
      h.concluded.resolve_right fun ⟨hsome, _⟩ => by simp [hcomp] at hsome
    have hquiet : dispatchedIds [applied request (applyCommit request)] = [] := rfl
    have heve : concludedIds [applied request (applyCommit request)] = [request.requestId] := by
      simp [concludedIds, concludedId_applied]
    have hdispatched : request.requestId ∈ dispatchedIds history :=
      ((hopen request.requestId).mp rfl).1
    refine ⟨hprot, h.running, ?_, ?_, fun id => ?_, .inl ?_⟩
    · simp [hres, hcom, hecho]
    · simp [hres, hecho, dispatchedIds_append, hdispatched]
    · have hid := hopen id
      simp only [openIds, hcomp, dispatchedIds_append, concludedIds_append, heve, hquiet,
        append_nil, mem_append, mem_singleton, toList_none, map_nil,
        not_mem_nil, false_iff]
      tauto
    · rw [dispatchedIds_append, concludedIds_append, heve, hquiet, append_nil]
      exact append_subset.mpr ⟨hsub, cons_subset.mpr ⟨hdispatched, nil_subset _⟩⟩

lemma move (m : Move) (hecho : m.Echoes) : Accounted (p.move m).1 (history ++ (p.move m).2) := by
  cases m with
  | setHostSetContract hostSetId hostSetHash =>
    simpa [DevHotSwapPipeline.move] using h.setHostSetContract hostSetId hostSetHash
  | submitFileChange event => simpa [DevHotSwapPipeline.move] using h.submitFileChange event
  | compilerReply backend => simpa [DevHotSwapPipeline.move] using h.compilerReply backend
  | drainFileChanges => exact Protocol.drain (fun _ _ => recvFileChange) h _
  | maybeDispatchCompileRequest => exact h.maybeDispatchCompileRequest
  | drainCompileResults => exact Protocol.drain (fun _ _ => recvCompileResult) h _
  | drainCommitResults => exact Protocol.drain (fun _ _ => recvCommitResult) h _
  | safePoint applyCommit => exact Protocol.drain (fun _ _ hp => hp.recvCommitRequest hecho) h _

omit h in
lemma run (targetMode : TargetMode) {moves : List Move} (hecho : ∀ m ∈ moves, m.Echoes) :
    Accounted (run targetMode moves).1 (DevHotSwapPipeline.run targetMode moves).2 := by
  have h := runLog_invariant Accounted moves (fun _ _ m hm hp => hp.move m (hecho m hm))
    (start targetMode)
  rwa [nil_append] at h

lemma mem_outstandingIds_iff (id : RequestId) : id ∈ p.outstandingIds ↔
    id ∈ p.openIds ∨ id ∈ p.commitResults.map SwapCommitResult.requestId := by
  rw [outstandingIds, mem_insertionSort, mem_dedup, openIds, ← h.commits]
  simp only [mem_append]
  tauto

end Accounted

/-- After any interleaving shutdown reports each request at most once, as failed; and it
reports exactly the dispatched requests without an accepted commit if and only if no
result of an accepted commit waits to be drained, while the result of every refused
request does. -/
theorem shutdown_reports_open_requests (targetMode : TargetMode) (moves : List Move)
    (hecho : ∀ m ∈ moves, m.Echoes) :
    let (p, history) := run targetMode moves
    (p.shutdown.2.map SwapCommitResult.requestId).Nodup ∧
    (∀ result ∈ p.shutdown.2, result = .failed result.requestId pipelineStoppedBeforeCommit) ∧
    ((∀ id, id ∈ p.shutdown.2.map SwapCommitResult.requestId ↔
      id ∈ dispatchedIds history ∧ id ∉ history.filterMap Event.acceptedId) ↔
    ∀ id ∈ dispatchedIds history,
      (id ∈ history.filterMap Event.acceptedId →
        id ∉ p.commitResults.map SwapCommitResult.requestId) ∧
      (id ∈ history.filterMap Event.rejectedId → id ∉ history.filterMap Event.acceptedId →
        id ∈ p.commitResults.map SwapCommitResult.requestId)) := by
  have h := Accounted.run targetMode hecho
  dsimp only
  have hreport : (run targetMode moves).1.shutdown.2 = (run targetMode moves).1.outstandingIds.map
      fun id => .failed id pipelineStoppedBeforeCommit := by
    rw [shutdown, if_neg (by simp [h.running])]
  have hids : (run targetMode moves).1.shutdown.2.map SwapCommitResult.requestId =
      (run targetMode moves).1.outstandingIds := by
    rw [hreport, List.map_map]
    exact List.map_id _
  refine ⟨?_, ?_, ?_⟩
  · rw [hids, outstandingIds]
    exact (List.perm_insertionSort ..).nodup_iff.mpr (List.nodup_dedup _)
  · rw [hreport]
    rintro result hresult
    obtain ⟨id, -, rfl⟩ := List.mem_map.mp hresult
    rfl
  · have hanswered := h.answered
    simp only [hids, h.mem_outstandingIds_iff, h.open_iff, mem_concludedIds_iff]
    refine ⟨fun hreported id hid => ?_, fun hwaits id => ?_⟩
    · have := hreported id
      tauto
    · have hdispatched := @hanswered id
      have := hwaits id
      tauto

def compiledEdit : List Move :=
  [.submitFileChange { path := "main.stasis", revision := 1 }, .drainFileChanges,
    .maybeDispatchCompileRequest,
    .compilerReply fun request =>
      { version := contractVersion, requestId := request.requestId, status := .success
        diagnostics := [], layoutHash := some (Vector.replicate 32 0), fnPatchSet := some [7]
        hookSymbol := none, hostSetId := none, hostSetHash := none, hookFnId := none },
    .drainCompileResults]

def acceptingSafePoint : Move :=
  .safePoint fun request =>
    { version := contractVersion, requestId := request.requestId, status := .success
      swappedFnIds := request.fnPatchSet, newGeneration := some 1, error := none }

/-- A shutdown right after the safe point that accepted a commit reports the commit as failed. -/
theorem shutdown_rejects_accepted_commit :
    let (p, history) := run .jitDev (compiledEdit ++ [acceptingSafePoint])
    history.filterMap Event.acceptedId = [1] ∧
      p.shutdown.2 = [.failed 1 pipelineStoppedBeforeCommit] := by
  decide

/-- With a pump in between nothing is reported. -/
theorem shutdown_reports_nothing_after_pump :
    let (p, history) := run .jitDev (compiledEdit ++ acceptingSafePoint :: pumpCoordinator)
    history.filterMap Event.acceptedId = [1] ∧ p.shutdown.2 = [] ∧
      ∀ id, id ∈ p.shutdown.2.map SwapCommitResult.requestId ↔
        id ∈ dispatchedIds history ∧ id ∉ history.filterMap Event.acceptedId := by
  have hecho : ∀ m ∈ compiledEdit ++ acceptingSafePoint :: pumpCoordinator, m.Echoes := by
    simp [compiledEdit, acceptingSafePoint, pumpCoordinator, Move.Echoes]
  have h := shutdown_reports_open_requests .jitDev _ hecho
  exact ⟨by decide, by decide, h.2.2.mpr (by decide)⟩

end DevHotSwapPipeline

end Stasis.Swap
