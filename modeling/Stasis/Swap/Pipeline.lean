import Mathlib.Data.String.Basic
import Mathlib.Data.List.Sort
import Stasis.Lib.Trace

namespace Stasis.Swap

/-- `u64` in the source: fewer than `2 ^ 64` requests are made in a run. -/
abbrev RequestId := ℕ

abbrev Digest := Vector UInt8 32

def contractVersion : UInt16 := 1

def contractVersionUnsupportedCode : String := "stasis.contractVersionUnsupported"

inductive TargetMode
  | jitDev
  | aotProd
deriving DecidableEq

structure FileChangeEvent where
  path : String
  revision : ℕ
deriving DecidableEq

structure CompileRequest where
  requestId : RequestId
  changedFiles : List String
  targetMode : TargetMode
  hostSetId : Option String
  hostSetHash : Option Digest
deriving DecidableEq

inductive Status
  | success
  | failed
deriving DecidableEq

structure Diagnostic where
  code : Option String
  message : String
deriving DecidableEq

structure CompileResult where
  version : UInt16
  requestId : RequestId
  status : Status
  diagnostics : List Diagnostic
  layoutHash : Option Digest
  /-- The functions of the patch set, if there is one. -/
  fnPatchSet : Option (List ℕ)
  hookSymbol : Option String
  hostSetId : Option String
  hostSetHash : Option Digest
  hookFnId : Option ℕ
deriving DecidableEq

def CompileResult.failed (requestId : RequestId) (diagnostics : List Diagnostic) : CompileResult :=
  { version := contractVersion, requestId, status := .failed, diagnostics
    layoutHash := none, fnPatchSet := none, hookSymbol := none, hostSetId := none
    hostSetHash := none, hookFnId := none }

structure SwapCommitRequest where
  requestId : RequestId
  layoutHash : Digest
  fnPatchSet : List ℕ
  hookSymbol : Option String
  hostSetId : Option String
  hostSetHash : Option Digest
  hookFnId : Option ℕ
deriving DecidableEq

structure SwapCommitResult where
  version : UInt16
  requestId : RequestId
  status : Status
  swappedFnIds : List ℕ
  newGeneration : Option ℕ
  error : Option String
deriving DecidableEq

def SwapCommitResult.failed (requestId : RequestId) (error : String) : SwapCommitResult :=
  { version := contractVersion, requestId, status := .failed, swappedFnIds := []
    newGeneration := none, error := some error }

def pipelineStoppedBeforeCommit : String :=
  "development swap pipeline stopped before candidate commit"

inductive Event
  | drained (change : FileChangeEvent)
  | dispatched (request : CompileRequest)
  | compiled (result : CompileResult)
  | enqueued (request : SwapCommitRequest)
  | applied (request : SwapCommitRequest) (result : SwapCommitResult)
  | acknowledged (result : SwapCommitResult)
deriving DecidableEq

structure DevHotSwapPipeline where
  fileChanges : List FileChangeEvent
  /-- Compile requests that the compiler thread has not answered. -/
  compilerInbox : List CompileRequest
  compileResults : List CompileResult
  commitRequests : List SwapCommitRequest
  commitResults : List SwapCommitResult
  pendingFiles : List String
  targetMode : TargetMode
  hostSetId : Option String
  hostSetHash : Option Digest
  inFlightCompile : Option RequestId
  inFlightCommit : Option RequestId
  nextRequestId : RequestId
  lastCompileResult : Option CompileResult
  lastCommitResult : Option SwapCommitResult
  /-- `compiler_thread` is still there to be joined. -/
  compilerThread : Bool
deriving DecidableEq

namespace DevHotSwapPipeline

def withTargetMode (targetMode : TargetMode) : DevHotSwapPipeline :=
  { fileChanges := [], compilerInbox := [], compileResults := [], commitRequests := []
    commitResults := [], pendingFiles := [], targetMode, hostSetId := none, hostSetHash := none
    inFlightCompile := none, inFlightCommit := none, nextRequestId := 1
    lastCompileResult := none, lastCommitResult := none, compilerThread := true }

variable (p : DevHotSwapPipeline)

def setHostSetContract (hostSetId : Option String) (hostSetHash : Option Digest) :
    DevHotSwapPipeline :=
  { p with hostSetId, hostSetHash }

def submitFileChange (event : FileChangeEvent) : DevHotSwapPipeline :=
  { p with fileChanges := p.fileChanges ++ [event] }

/-- The compiler thread takes a request and sends what the backend makes of it. -/
def compilerReply (backend : CompileRequest → CompileResult) : DevHotSwapPipeline :=
  match p.compilerInbox with
  | [] => p
  | request :: inbox =>
    { p with compilerInbox := inbox, compileResults := p.compileResults ++ [backend request] }

def insertPath (path : String) (files : List String) : List String :=
  if path ∈ files then files else files.orderedInsert (· ≤ ·) path

lemma mem_insertPath : other ∈ insertPath path files ↔ other = path ∨ other ∈ files := by
  unfold insertPath
  split_ifs with h
  · constructor
    · exact .inr
    · rintro (rfl | hmem)
      · exact h
      · exact hmem
  · exact List.mem_orderedInsert ..

def recvFileChange : DevHotSwapPipeline × List Event :=
  match p.fileChanges with
  | [] => (p, [])
  | change :: rest =>
    ({ p with fileChanges := rest, pendingFiles := insertPath change.path p.pendingFiles },
      [.drained change])

def maybeDispatchCompileRequest : DevHotSwapPipeline × List Event :=
  if p.inFlightCompile.isSome ∨ p.inFlightCommit.isSome ∨ p.pendingFiles = [] then (p, [])
  else
    let request : CompileRequest :=
      { requestId := p.nextRequestId, changedFiles := p.pendingFiles, targetMode := p.targetMode
        hostSetId := p.hostSetId, hostSetHash := p.hostSetHash }
    ({ p with
        nextRequestId := p.nextRequestId + 1
        pendingFiles := []
        compilerInbox := p.compilerInbox ++ [request]
        inFlightCompile := some request.requestId },
      [.dispatched request])

/-- A result of another contract version counts as a failure. -/
def checkedCompileResult (result : CompileResult) : CompileResult :=
  if result.version = contractVersion then result
  else .failed result.requestId
    [{ code := some contractVersionUnsupportedCode
       message := s!"compile contract version mismatch: expected {contractVersion}, got " ++
        toString result.version }]

/-- The commit request of a compile result, where the result has one. -/
def commitRequestOf (result : CompileResult) : Option SwapCommitRequest :=
  match result.status, result.layoutHash, result.fnPatchSet with
  | .success, some layoutHash, some (fn :: fns) =>
    some { requestId := result.requestId, layoutHash, fnPatchSet := fn :: fns
           hookSymbol := result.hookSymbol, hostSetId := result.hostSetId
           hostSetHash := result.hostSetHash, hookFnId := result.hookFnId }
  | _, _, _ => none

/-- `enqueue_commit_request`, for a result that may have nothing to commit. -/
def enqueueCommitRequest : Option SwapCommitRequest → DevHotSwapPipeline × List Event
  | none => (p, [])
  | some request =>
    ({ p with
        commitRequests := p.commitRequests ++ [request]
        inFlightCommit := some request.requestId },
      [.enqueued request])

def recvCompileResult : DevHotSwapPipeline × List Event :=
  match p.compileResults with
  | [] => (p, [])
  | received :: rest =>
    let result := checkedCompileResult received
    let p := { p with compileResults := rest, lastCompileResult := some result }
    if p.inFlightCompile = some result.requestId then
      let (p, events) := { p with inFlightCompile := none }.enqueueCommitRequest
        (commitRequestOf result)
      (p, .compiled result :: events)
    else (p, [.compiled result])

def checkedCommitResult (result : SwapCommitResult) : SwapCommitResult :=
  if result.version = contractVersion then result
  else .failed result.requestId
    (s!"commit contract version mismatch: expected {contractVersion}, got " ++
      toString result.version)

def recvCommitResult : DevHotSwapPipeline × List Event :=
  match p.commitResults with
  | [] => (p, [])
  | received :: rest =>
    let result := checkedCommitResult received
    let inFlightCommit :=
      if p.inFlightCommit = some result.requestId then none else p.inFlightCommit
    ({ p with commitResults := rest, lastCommitResult := some result, inFlightCommit },
      [.acknowledged result])

/-- Receive until the queue that had `n` messages is empty. -/
def drain (recv : DevHotSwapPipeline → DevHotSwapPipeline × List Event) (n : ℕ) :
    DevHotSwapPipeline × List Event :=
  runLog (fun p _ => recv p) p (List.replicate n ())

def drainFileChanges : DevHotSwapPipeline × List Event :=
  p.drain recvFileChange p.fileChanges.length

def drainCompileResults : DevHotSwapPipeline × List Event :=
  p.drain recvCompileResult p.compileResults.length

def drainCommitResults : DevHotSwapPipeline × List Event :=
  p.drain recvCommitResult p.commitResults.length

def recvCommitRequest (applyCommit : SwapCommitRequest → SwapCommitResult)
    (p : DevHotSwapPipeline) : DevHotSwapPipeline × List Event :=
  match p.commitRequests with
  | [] => (p, [])
  | request :: rest =>
    let result := applyCommit request
    ({ p with commitRequests := rest, commitResults := p.commitResults ++ [result] },
      [.applied request result])

def processCommitsAtSafePoint (applyCommit : SwapCommitRequest → SwapCommitResult) :
    DevHotSwapPipeline × List Event :=
  p.drain (recvCommitRequest applyCommit) p.commitRequests.length

def outstandingIds : List RequestId :=
  ((p.inFlightCompile.toList ++ p.inFlightCommit.toList ++
    p.commitRequests.map SwapCommitRequest.requestId).dedup).insertionSort (· ≤ ·)

/-- The compiler thread is joined, so its last answers are dropped with the rest. -/
def shutdown : DevHotSwapPipeline × List SwapCommitResult :=
  if p.compilerThread = false then (p, [])
  else
    let results := p.outstandingIds.map fun id => .failed id pipelineStoppedBeforeCommit
    ({ p with
        fileChanges := [], compilerInbox := [], compileResults := [], commitRequests := []
        commitResults := [], pendingFiles := [], inFlightCompile := none, inFlightCommit := none
        compilerThread := false
        lastCommitResult := results.getLast?.or p.lastCommitResult },
      results)

/-- One move of a party.  A pump of the coordinator is its four phases in order;
other threads may move between them. -/
inductive Move
  | setHostSetContract (hostSetId : Option String) (hostSetHash : Option Digest)
  | submitFileChange (event : FileChangeEvent)
  | compilerReply (backend : CompileRequest → CompileResult)
  | drainFileChanges
  | maybeDispatchCompileRequest
  | drainCompileResults
  | drainCommitResults
  | safePoint (applyCommit : SwapCommitRequest → SwapCommitResult)

def pumpCoordinator : List Move :=
  [.drainFileChanges, .maybeDispatchCompileRequest, .drainCompileResults, .drainCommitResults]

def move (p : DevHotSwapPipeline) : Move → DevHotSwapPipeline × List Event
  | .setHostSetContract hostSetId hostSetHash => (p.setHostSetContract hostSetId hostSetHash, [])
  | .submitFileChange event => (p.submitFileChange event, [])
  | .compilerReply backend => (p.compilerReply backend, [])
  | .drainFileChanges => p.drainFileChanges
  | .maybeDispatchCompileRequest => p.maybeDispatchCompileRequest
  | .drainCompileResults => p.drainCompileResults
  | .drainCommitResults => p.drainCommitResults
  | .safePoint applyCommit => p.processCommitsAtSafePoint applyCommit

def run (targetMode : TargetMode) (moves : List Move) : DevHotSwapPipeline × List Event :=
  runLog move (withTargetMode targetMode) moves

end DevHotSwapPipeline

end Stasis.Swap
