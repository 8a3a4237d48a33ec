import Stasis.Migration.Activate

namespace Stasis.Live

open Stasis.Runtime Stasis.Migration

abbrev Disk := String → Option String

def Disk.cells : CellMemory Disk String (Option String) where
  load disk path := disk path
  store disk path contents := Function.update disk path contents
  Holds _ _ _ := True
  load_store _ := Function.update_self ..
  load_store_ne hne _ := Function.update_of_ne hne.symm ..
  holds_store _ := trivial

def joinPath (directory name : String) : String :=
  if name.startsWith "/" then name
  else if directory.isEmpty || directory.endsWith "/" then directory ++ name
  else directory ++ "/" ++ name

def safeRelativePath (path : String) : Bool :=
  !path.isEmpty && !path.startsWith "/" && !(path.toList.splitOn '/').contains ['.', '.']

structure FileChange where
  file : String
  beforeSource : String
  afterSource : String
  beforeHash : String
  afterHash : String

structure SemanticEditPlan where
  changedFiles : List FileChange

/-- The steps whose writes can fail on their own: those of the edit and those that undo it. -/
inductive Phase
  | plan
  | receipt
  | undo

structure Services where
  projectRoot : String
  output : String
  sourceHash : String → String
  serialize : SemanticEditPlan → String
  pretty : SemanticEditPlan → String
  layoutVersion : StateLayout → String
  /-- `load_workshop_edit_workspace`: the loaded files, in path order. -/
  loadWorkspace : Disk → Except String (List (String × String))
  /-- `invoke_code_swap_hook`. -/
  invokeCodeSwapHook : ℕ → Registry → Except String Unit × Registry
  /-- The error of reading a file that is missing. -/
  readError : String → String
  /-- The error of `create_dir_all` for the receipt directory, where it fails. -/
  createDirError : Option String
  /-- The error of a write, where it fails; the file is then as it was. -/
  writeError : Phase → String → Option String

variable (services : Services)

namespace FileChange

def source (change : FileChange) (restore : Bool) : String :=
  if restore then change.beforeSource else change.afterSource

def expectedHash (change : FileChange) (restore : Bool) : String :=
  if restore then change.afterHash else change.beforeHash

end FileChange

/-- The first loop of `write_workshop_semantic_plan_with`: nothing is written. -/
def checkChange (disk : Disk) (restore : Bool) (change : FileChange) : Except String Unit :=
  if safeRelativePath change.file = false then
    throw ("unsafe semantic edit path: " ++ change.file)
  else match disk change.file with
  | none => throw ("failed reading " ++ joinPath services.projectRoot change.file ++ ": " ++
      services.readError change.file)
  | some current =>
    if services.sourceHash current = change.expectedHash restore then pure ()
    else throw ("refusing semantic " ++ (if restore then "revert" else "apply") ++ " for " ++
      change.file ++ ": expected current hash " ++ change.expectedHash restore ++ " but found " ++
      services.sourceHash current)

/-- Writes the files back that were written before one failed; the messages are those of
the writes that fail here too. -/
def rollbackWritten (plan : SemanticEditPlan) (restore : Bool) :
    List String → Disk → List String × Disk
  | [], disk => ([], disk)
  | completed :: rest, disk =>
    match plan.changedFiles.find? (·.file = completed) with
    | none => rollbackWritten plan restore rest disk
    | some prior =>
      match services.writeError .undo completed with
      | some error =>
        let (errors, disk) := rollbackWritten plan restore rest disk
        ((completed ++ ": " ++ error) :: errors, disk)
      | none => rollbackWritten plan restore rest
          (Disk.cells.store disk completed (some (prior.source !restore)))

/-- The second loop of `write_workshop_semantic_plan_with`. -/
def writeChanges (phase : Phase) (plan : SemanticEditPlan) (restore : Bool) :
    List String → List FileChange → EStateM String Disk Unit
  | _, [], disk => .ok () disk
  | written, change :: rest, disk =>
    match services.writeError phase change.file with
    | none => writeChanges phase plan restore (written ++ [change.file]) rest
        (Disk.cells.store disk change.file (some (change.source restore)))
    | some error =>
      let (errors, disk) := rollbackWritten services plan restore written.reverse disk
      let rollback :=
        if errors.isEmpty then "" else "; rollback incomplete: " ++ "; ".intercalate errors
      .error ("failed writing " ++ joinPath services.projectRoot change.file ++ ": " ++ error ++
        rollback) disk

def writeWorkshopSemanticPlan (phase : Phase) (plan : SemanticEditPlan) (restore : Bool) :
    EStateM String Disk Unit := fun disk =>
  match plan.changedFiles.forM (checkChange services disk restore) with
  | .error e => .error e disk
  | .ok _ => writeChanges services phase plan restore [] plan.changedFiles disk

def receiptDirectory : String := joinPath services.output "live-edits"

def receiptPath (plan : SemanticEditPlan) : String :=
  joinPath (receiptDirectory services) (services.sourceHash (services.serialize plan) ++ ".json")

def writeWorkshopSemanticReceipt (plan : SemanticEditPlan) : EStateM String Disk String :=
  fun disk =>
    if safeRelativePath (receiptDirectory services) = false then
      .error ("unsafe semantic receipt directory: " ++ receiptDirectory services) disk
    else match services.createDirError with
    | some error => .error ("failed creating " ++
        joinPath services.projectRoot (receiptDirectory services) ++ ": " ++ error) disk
    | none =>
      match services.writeError .receipt (receiptPath services plan) with
      | some error => .error error disk
      | none => .ok (receiptPath services plan)
          (Disk.cells.store disk (receiptPath services plan) (some (services.pretty plan ++ "\n")))

/-- Whether the receipt directory is there after an attempt to write a receipt: `atomic_write`
creates it before it stages the file. -/
def createReceiptDirectory (existed : Bool) : Bool :=
  existed || (safeRelativePath (receiptDirectory services) && services.createDirError.isNone)

def cleanupNewReceipt (receipt : String) (existed : Bool) : EStateM String Disk Unit := fun disk =>
  if existed then .ok () disk
  else match services.writeError .undo receipt with
  | some error => .error ("receipt cleanup failed: " ++ error) disk
  | none => .ok () (Disk.cells.store disk receipt none)

def verifyPreparedInputHashes (expected : List (String × String)) (disk : Disk) :
    Except String Unit := do
  let loaded ← services.loadWorkspace disk
  let current := loaded.map fun file => (file.1, services.sourceHash file.2)
  if current = expected then pure ()
  else
    let changed := ((current.map Prod.fst ++ expected.map Prod.fst).find? fun path =>
      current.lookup path ≠ expected.lookup path).getD "project sources"
    throw ("refusing live commit because " ++ changed ++ " changed during background preparation")

structure HostEntryTargets where
  revision : ℕ
  main : ℕ
  tick : ℕ
  render : ℕ
  renderConstructionReset : Option ℕ
  renderConstructionFinish : Option ℕ
  onCodeSwap : Option ℕ

structure EnginePackage where
  main : Option ℕ
  tickCodePtr : ℕ
  renderCodePtr : ℕ
  renderConstructionResetCodePtr : Option ℕ
  renderConstructionFinishCodePtr : Option ℕ
  onCodeSwapCodePtr : Option ℕ

def EnginePackage.hostEntryTargets (package : EnginePackage) (revision : ℕ) :
    Except String HostEntryTargets :=
  match package.main with
  | none => throw "JIT host-entry package is missing required main target"
  | some main => pure
      { revision := revision
        main := main
        tick := package.tickCodePtr
        render := package.renderCodePtr
        renderConstructionReset := package.renderConstructionResetCodePtr
        renderConstructionFinish := package.renderConstructionFinishCodePtr
        onCodeSwap := package.onCodeSwapCodePtr }

def validateJitHostEntryTargets (targets : HostEntryTargets) : Except String Unit :=
  if targets.main = 0 ∨ targets.tick = 0 ∨ targets.render = 0 then
    throw "JIT host-entry publication requires non-zero main, tick, and render targets"
  else pure ()

/-- `publish_jit_host_entry_targets`: the entry points installed afterwards. -/
def publishJitHostEntryTargets (active : Option HostEntryTargets) (targets : HostEntryTargets) :
    Except String (Option HostEntryTargets) := do
  validateJitHostEntryTargets targets
  match active with
  | none => pure (some targets)
  | some installed =>
    if targets.revision ≤ installed.revision then
      throw ("stale JIT host-entry revision " ++ toString targets.revision ++
        " cannot replace active revision " ++ toString installed.revision)
    else pure (some targets)

structure HistoryEntry where
  plan : SemanticEditPlan
  swapPreview : StateMigrationPreview
  receipt : String

structure PendingEdit where
  plan : SemanticEditPlan
  swapPreview : StateMigrationPreview

inductive PreparedAction
  | applyNew
  | applyPending
  | undo (index : ℕ)
  | redo (index : ℕ)

structure PreparedEdit where
  plan : SemanticEditPlan
  swapPreview : StateMigrationPreview
  fromLayoutVersion : String
  restore : Bool
  action : PreparedAction
  candidate : Program
  package : EnginePackage
  inputHashes : List (String × String)

/-- The five stores of a commit, and the bookkeeping of the workspace's own writes. -/
structure LiveWorkspace where
  disk : Disk
  /-- Whether the receipt directory exists. -/
  receiptDirectory : Bool
  active : Program
  registry : Registry
  hostEntryTargets : Option HostEntryTargets
  hostEntryRevision : ℕ
  selfWriteHashes : String → Option String
  history : List HistoryEntry
  historyCursor : ℕ
  pendingPlan : Option PendingEdit

namespace LiveWorkspace

variable (workspace : LiveWorkspace) (prepared : PreparedEdit)

def syncHostEntryRevision : LiveWorkspace :=
  match workspace.hostEntryTargets with
  | none => workspace
  | some targets =>
    { workspace with hostEntryRevision := max workspace.hostEntryRevision targets.revision }

def nextHostEntryRevision : ℕ := min (workspace.hostEntryRevision + 1) (2 ^ 64 - 1)

def rememberPlanHashes (plan : SemanticEditPlan) (restore : Bool) : LiveWorkspace :=
  { workspace with
    selfWriteHashes := plan.changedFiles.foldl
      (fun hashes change =>
        Function.update hashes change.file (some (services.sourceHash (change.source restore))))
      workspace.selfWriteHashes }

def rollbackPrepared : EStateM.Result String LiveWorkspace Unit :=
  match writeWorkshopSemanticPlan services .undo prepared.plan (!prepared.restore)
    workspace.disk with
  | .ok _ disk => .ok ()
      ({ workspace with disk := disk }.rememberPlanHashes services prepared.plan !prepared.restore)
  | .error e disk => .error ("disk rollback failed: " ++ e)
      ({ workspace with disk := disk }.rememberPlanHashes services prepared.plan !prepared.restore)

def checkCommit : Except String HostEntryTargets := do
  let targets ← prepared.package.hostEntryTargets workspace.nextHostEntryRevision
  validateJitHostEntryTargets targets
  let activeVersion := services.layoutVersion workspace.active.stateLayout
  if activeVersion ≠ prepared.fromLayoutVersion then
    throw ("refusing live commit because active state layout changed after preview (expected " ++
      prepared.fromLayoutVersion ++ ", found " ++ activeVersion ++ ")")
  if prepared.swapPreview.stateLayoutCompatible = false then
    throw prepared.swapPreview.rejection
  pure targets

/-- The commit hook: the candidate's `on_code_swap`, if it has one. -/
def codeSwap (registry : Registry) : Except String Unit × Registry :=
  match prepared.package.onCodeSwapCodePtr with
  | none => (.ok (), registry)
  | some codePtr => services.invokeCodeSwapHook codePtr registry

def activate : EStateM.Result String Registry (Except String Unit) :=
  activateCandidateTransactionally (some workspace.active) prepared.candidate prepared.swapPreview
    prepared.package.onCodeSwapCodePtr.isSome (codeSwap services prepared) Except.isOk
    workspace.registry

/-- Undoes the writes to disk after the running program rejected the candidate. -/
def abandon (receipt : String) (receiptExisted : Bool) (message : String) :
    EStateM.Result String LiveWorkspace String :=
  match workspace.rollbackPrepared services prepared with
  | .error e undone => .error e undone
  | .ok _ undone =>
    match cleanupNewReceipt services receipt receiptExisted undone.disk with
    | .error e disk => .error e { undone with disk := disk }
    | .ok _ disk => .error message { undone with disk := disk }

/-- The history after a commit, with the kind of the answer. -/
def recordHistory (receipt : String) : String × LiveWorkspace :=
  let entry : HistoryEntry :=
    { plan := prepared.plan, swapPreview := prepared.swapPreview, receipt := receipt }
  let applied := workspace.history.take workspace.historyCursor ++ [entry]
  match prepared.action with
  | .applyNew =>
    ("edit_applied", { workspace with history := applied, historyCursor := applied.length })
  | .applyPending =>
    ("edit_applied",
      { workspace with history := applied, historyCursor := applied.length, pendingPlan := none })
  | .undo index => ("edit_undone", { workspace with historyCursor := index })
  | .redo index => ("edit_redone", { workspace with historyCursor := index + 1 })

def publishCandidate (targets : HostEntryTargets) (receipt : String) :
    EStateM.Result String LiveWorkspace String :=
  match publishJitHostEntryTargets workspace.hostEntryTargets targets with
  | .error e => .error e workspace
  | .ok published =>
    let (kind, workspace) := ({ workspace with
        hostEntryTargets := published
        hostEntryRevision := targets.revision
        active := prepared.candidate }.rememberPlanHashes services prepared.plan
          prepared.restore).recordHistory prepared receipt
    .ok kind workspace

def swapCandidate (targets : HostEntryTargets) (receipt : String) (receiptExisted : Bool) :
    EStateM.Result String LiveWorkspace String :=
  match workspace.activate services prepared with
  | .error e registry =>
    { workspace with registry := registry }.abandon services prepared receipt receiptExisted
      ("live runtime transaction failed; disk/code/state remained on the prior version: " ++ e)
  | .ok (.error e) registry =>
    { workspace with registry := registry }.abandon services prepared receipt receiptExisted
      ("on_code_swap failed; disk/code/state remained on the prior version: " ++ e)
  | .ok (.ok _) registry =>
    { workspace with registry := registry }.publishCandidate services prepared targets receipt

def writeCandidate (targets : HostEntryTargets) : EStateM.Result String LiveWorkspace String :=
  let receiptExisted := (workspace.disk (receiptPath services prepared.plan)).isSome
  let remembered := workspace.rememberPlanHashes services prepared.plan prepared.restore
  match writeWorkshopSemanticPlan services .plan prepared.plan prepared.restore
    remembered.disk with
  | .error e disk => .error e
      ({ remembered with disk := disk }.rememberPlanHashes services prepared.plan
        !prepared.restore)
  | .ok _ disk =>
    let remembered := { remembered with
      receiptDirectory := createReceiptDirectory services remembered.receiptDirectory }
    match writeWorkshopSemanticReceipt services prepared.plan disk with
    | .error e disk =>
      match { remembered with disk := disk }.rollbackPrepared services prepared with
      | .error e' undone => .error e' undone
      | .ok _ undone =>
        .error ("live receipt failed; disk/runtime remained unchanged: " ++ e) undone
    | .ok receipt disk =>
      { remembered with disk := disk }.swapCandidate services prepared targets receipt
        receiptExisted

def commitPrepared : EStateM.Result String LiveWorkspace String :=
  match verifyPreparedInputHashes services prepared.inputHashes workspace.disk with
  | .error e => .error e workspace
  | .ok _ =>
    let synced := workspace.syncHostEntryRevision
    match synced.checkCommit services prepared with
    | .error e => .error e synced
    | .ok targets => synced.writeCandidate services prepared targets

end LiveWorkspace
end Stasis.Live
