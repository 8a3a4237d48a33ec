import Stasis.Live.Commit
import Stasis.Migration.Rollback

namespace Stasis.Live

open Disk
open CellMemory
open List
open Stasis.Runtime Stasis.Migration

structure SemanticEditPlan.WellFormed (services : Services) (plan : SemanticEditPlan) : Prop where
  distinct : (plan.changedFiles.map FileChange.file).Nodup
  before_hash : ∀ change ∈ plan.changedFiles,
    change.beforeHash = services.sourceHash change.beforeSource
  after_hash : ∀ change ∈ plan.changedFiles,
    change.afterHash = services.sourceHash change.afterSource

/-- The files hold what the plan expects, under paths it may write. -/
structure SemanticEditPlan.Expects (plan : SemanticEditPlan) (restore : Bool) (disk : Disk) :
    Prop where
  safe : ∀ change ∈ plan.changedFiles, safeRelativePath change.file = true
  text : ∀ change ∈ plan.changedFiles, disk change.file = some (change.source !restore)

def changeWrites (restore : Bool) (changes : List FileChange) : List (String × Option String) :=
  changes.map fun change => (change.file, some (change.source restore))

lemma ext_load (h : ∀ path, cells.load disk' path = cells.load disk path) : disk' = disk :=
  funext h

section Plan

variable {services : Services} {plan : SemanticEditPlan} {restore : Bool} {disk disk' : Disk}

variable {change : FileChange} {phase : Phase} (hplan : plan.WellFormed services)
include hplan

lemma SemanticEditPlan.WellFormed.expectedHash
    (hcha : change ∈ plan.changedFiles) (restore : Bool) :
    change.expectedHash restore = services.sourceHash (change.source !restore) := by
  cases restore
  · exact hplan.before_hash change hcha
  · exact hplan.after_hash change hcha

omit hplan in
lemma checkChange_eq_ok_iff :
    checkChange services disk restore change = .ok () ↔
      safeRelativePath change.file = true ∧ ∃ current, disk change.file = some current ∧
        services.sourceHash current = change.expectedHash restore := by
  unfold checkChange
  cases hsafe : safeRelativePath change.file with
  | false => simp [throw, throwThe, MonadExceptOf.throw]
  | true =>
    cases hread : disk change.file with
    | none => simp [throw, throwThe, MonadExceptOf.throw]
    | some current =>
      by_cases hhash : services.sourceHash current = change.expectedHash restore
      · simp [hhash, pure, Except.pure]
      · simp [hhash, throw, throwThe, MonadExceptOf.throw]

variable (hcol : ∀ change ∈ plan.changedFiles, ∀ current, disk change.file = some current →
  services.sourceHash current = services.sourceHash (change.source !restore) →
    current = change.source !restore)
include hcol

/-- Where no other text has the hash of an expected one, the checks that pass say what
the files hold. -/
lemma expects_of_checked (h : plan.changedFiles.forM (checkChange services disk restore) = .ok ()) :
    plan.Expects restore disk := by
  have hcheck := fun change hcha => checkChange_eq_ok_iff.mp (forM_ok_iff.mp h change hcha)
  refine ⟨fun change hcha => (hcheck change hcha).1, fun change hcha => ?_⟩
  obtain ⟨-, current, hread, hhash⟩ := hcheck change hcha
  rw [hplan.expectedHash hcha] at hhash
  rw [hread, hcol change hcha current hread hhash]

omit hcol in
lemma SemanticEditPlan.Expects.checked (h : plan.Expects restore disk) :
    plan.changedFiles.forM (checkChange services disk restore) = .ok () := by
  apply forM_ok_iff.mpr
  intro change hcha
  apply checkChange_eq_ok_iff.mpr
  exact ⟨h.safe change hcha, _, h.text change hcha, (hplan.expectedHash hcha _).symm⟩

omit hcol in
lemma find_written (hcha : change ∈ plan.changedFiles) :
    plan.changedFiles.find? (·.file = change.file) = some change := by
  obtain ⟨found, hfound, hmem, hfile⟩ :=
    exists_find? hcha (·.file = change.file) rfl
  rw [hfound, inj_on_of_nodup_map hplan.distinct hmem hcha hfile]

variable (hundo : ∀ path, services.writeError .undo path = none)
include hundo

omit hcol in
lemma rollbackWritten_eq (hdone : ∀ change ∈ done, change ∈ plan.changedFiles) (disk : Disk) :
    rollbackWritten services plan restore (done.map FileChange.file) disk =
      ([], cells.writeAll disk (changeWrites (!restore) done)) := by
  induction done generalizing disk with
  | nil => rfl
  | cons change rest ih =>
    obtain ⟨hcha, hrest⟩ := forall_mem_cons.mp hdone
    rw [map_cons, rollbackWritten, find_written hplan hcha]
    simp only [hundo]
    rw [ih hrest]
    rfl

omit hcol hundo in
omit hplan in
lemma writeChanges_of_ok
    (h : writeChanges services phase plan restore written changes disk = .ok () disk') :
    disk' = cells.writeAll disk (changeWrites restore changes) := by
  induction changes generalizing written disk with
  | nil =>
    cases h
    rfl
  | cons change rest ih =>
    rw [writeChanges] at h
    split at h
    · exact ih h
    · cases h

omit hcol hundo in
omit hplan in
lemma writeChanges_eq_ok (hwrite : ∀ path, services.writeError phase path = none)
    (written : List String) (changes : List FileChange) (disk : Disk) :
    writeChanges services phase plan restore written changes disk =
      .ok () (cells.writeAll disk (changeWrites restore changes)) := by
  induction changes generalizing written disk with
  | nil => rfl
  | cons change rest ih =>
    rw [writeChanges, hwrite]
    exact ih _ _

omit hcol in
lemma writeChanges_of_error (hexpects : plan.Expects restore disk) (done : List FileChange)
    (hsplit : plan.changedFiles = done ++ changes)
    (h : writeChanges services phase plan restore (done.map FileChange.file) changes
      (cells.writeAll disk (changeWrites restore done)) = .error e disk') :
    disk' = disk := by
  induction changes generalizing done with
  | nil => cases h
  | cons change rest ih =>
    rw [writeChanges] at h
    rcases herror : services.writeError phase change.file with _ | _
    · simp only [herror] at h
      apply ih (done ++ [change]) (by simp [hsplit])
      simpa [changeWrites, writeAll_append] using h
    have hdone : ∀ c ∈ done.reverse, c ∈ plan.changedFiles := by
      intro c hc
      rw [hsplit]
      exact mem_append_left _ (mem_reverse.mp hc)
    simp only [herror, ← map_reverse, rollbackWritten_eq hplan hundo hdone] at h
    obtain ⟨-, rfl⟩ := EStateM.Result.error.inj h
    apply ext_load
    intro path
    apply load_writeAll_undone trivial
    · intro u hu
      obtain ⟨c, hc, rfl⟩ := mem_map.mp hu
      exact (hexpects.text c (hdone c hc)).symm
    · intro w hw
      obtain ⟨c, hc, rfl⟩ := mem_map.mp hw
      exact .inr ⟨_, mem_map_of_mem (mem_reverse.mpr hc), rfl⟩

lemma writePlan_of_error
    (h : writeWorkshopSemanticPlan services phase plan restore disk = .error e disk') :
    disk' = disk := by
  unfold writeWorkshopSemanticPlan at h
  split at h
  · exact (EStateM.Result.error.inj h).2.symm
  · rename_i hcheck
    exact writeChanges_of_error hplan hundo (expects_of_checked hplan hcol hcheck) [] rfl h

omit hundo

lemma writePlan_of_ok
    (h : writeWorkshopSemanticPlan services phase plan restore disk = .ok () disk') :
    plan.Expects restore disk ∧
      disk' = cells.writeAll disk (changeWrites restore plan.changedFiles) := by
  unfold writeWorkshopSemanticPlan at h
  split at h
  · cases h
  · rename_i hcheck
    exact ⟨expects_of_checked hplan hcol hcheck, writeChanges_of_ok h⟩

omit hcol

lemma writePlan_eq_ok (hexpects : plan.Expects restore disk)
    (hwrite : ∀ path, services.writeError phase path = none) :
    writeWorkshopSemanticPlan services phase plan restore disk =
      .ok () (cells.writeAll disk (changeWrites restore plan.changedFiles)) := by
  unfold writeWorkshopSemanticPlan
  simp only [hexpects.checked hplan, writeChanges_eq_ok hwrite]

lemma SemanticEditPlan.Expects.written (h : plan.Expects restore disk)
    (hoth : ∀ w ∈ others, ∀ change ∈ plan.changedFiles, change.file ≠ w.1) :
    plan.Expects (!restore)
      (cells.writeAll disk (changeWrites restore plan.changedFiles ++ others)) := by
  refine ⟨h.safe, fun change hcha => ?_⟩
  rw [Bool.not_not]
  apply load_writeAll_of_mem (m := cells) trivial
  · exact mem_append_left _ (mem_map_of_mem hcha)
  · intro w hw hkey
    rcases mem_append.mp hw with hw | hw
    · obtain ⟨c, hc, rfl⟩ := mem_map.mp hw
      rw [inj_on_of_nodup_map hplan.distinct hc hcha hkey]
    · exact absurd hkey.symm (hoth w hw change hcha)

omit hplan

lemma SemanticEditPlan.Expects.undone (h : plan.Expects restore disk)
    (others back : List (String × Option String)) (hback : ∀ u ∈ back, u.2 = disk u.1)
    (hcover : ∀ w ∈ others, w.2 = disk w.1 ∨ ∃ u ∈ back, u.1 = w.1) :
    cells.writeAll
      (cells.writeAll disk (changeWrites restore plan.changedFiles ++ others))
      (changeWrites (!restore) plan.changedFiles ++ back) = disk := by
  apply ext_load
  intro path
  apply load_writeAll_undone trivial
  · intro u hu
    rcases mem_append.mp hu with hu | hu
    · obtain ⟨change, hcha, rfl⟩ := mem_map.mp hu
      exact (h.text change hcha).symm
    · exact hback u hu
  · intro w hw
    rcases mem_append.mp hw with hw | hw
    · obtain ⟨change, hcha, rfl⟩ := mem_map.mp hw
      exact .inr ⟨_, mem_append_left _ (mem_map_of_mem hcha), rfl⟩
    · rcases hcover w hw with hsame | ⟨u, hu, hkey⟩
      · exact .inl hsame
      · exact .inr ⟨u, mem_append_right _ hu, hkey⟩

end Plan

/-- Writing a plan, in either direction, is all or nothing, and the other direction takes
it back.  Nothing is written under an unsafe path or over a text that is not expected. -/
theorem writePlan_all_or_nothing (services : Services) (plan : SemanticEditPlan) (phase : Phase)
    (restore : Bool) (disk : Disk) :
    ((∃ change ∈ plan.changedFiles, safeRelativePath change.file = false ∨
        ∀ current, disk change.file = some current →
          services.sourceHash current ≠ change.expectedHash restore) →
      ∃ e, writeWorkshopSemanticPlan services phase plan restore disk = .error e disk) ∧
    (plan.WellFormed services →
      (∀ change ∈ plan.changedFiles, ∀ current, disk change.file = some current →
        services.sourceHash current = services.sourceHash (change.source !restore) →
          current = change.source !restore) →
      (∀ path, services.writeError .undo path = none) →
      match writeWorkshopSemanticPlan services phase plan restore disk with
      | .error _ disk' => disk' = disk
      | .ok _ disk' =>
        (∀ change ∈ plan.changedFiles, disk' change.file = some (change.source restore)) ∧
        (∀ path, (∀ change ∈ plan.changedFiles, change.file ≠ path) → disk' path = disk path) ∧
        ∀ phase' disk'', writeWorkshopSemanticPlan services phase' plan (!restore) disk' =
          .ok () disk'' → disk'' = disk) := by
  refine ⟨?_, fun hplan hcol hundo => ?_⟩
  · rintro ⟨change, hcha, hbad⟩
    unfold writeWorkshopSemanticPlan
    split
    · exact ⟨_, rfl⟩
    rename_i hcheck
    obtain ⟨hsafe, current, hread, hhash⟩ :=
      checkChange_eq_ok_iff.mp (forM_ok_iff.mp hcheck change hcha)
    rcases hbad with hunsafe | hstale
    · simp [hsafe] at hunsafe
    · exact absurd hhash (hstale current hread)
  split
  · rename_i hrun
    exact writePlan_of_error hplan hcol hundo hrun
  rename_i hrun
  obtain ⟨hexpects, rfl⟩ := writePlan_of_ok hplan hcol hrun
  have hwritten := hexpects.written hplan (forall_mem_nil _)
  rw [append_nil] at hwritten
  refine ⟨?_, ?_, ?_⟩
  · simpa using hwritten.text
  · intro path hpath
    refine load_writeAll_of_forall_ne (m := cells) (v := none) trivial fun w hw => ?_
    obtain ⟨change, hcha, rfl⟩ := mem_map.mp hw
    exact hpath change hcha
  · intro phase' disk'' hback
    obtain ⟨-, rfl⟩ := writePlan_of_ok hplan (fun change hcha current hread _ =>
      Option.some.inj (hread.symm.trans (hwritten.text change hcha))) hback
    simpa using hexpects.undone [] [] (by simp) (by simp)

namespace LiveWorkspace

structure Unchanged (before after : LiveWorkspace) : Prop where
  disk : after.disk = before.disk
  receiptDirectory : after.receiptDirectory = before.receiptDirectory
  active : after.active = before.active
  state : SameState before.active before.registry after.registry
  hostEntryTargets : after.hostEntryTargets = before.hostEntryTargets
  history : after.history = before.history
  historyCursor : after.historyCursor = before.historyCursor
  pendingPlan : after.pendingPlan = before.pendingPlan

/-- One edit is added behind the applied ones, taken back, or applied again. -/
def HistoryStep (before : LiveWorkspace) (entry : HistoryEntry) (after : LiveWorkspace) :
    PreparedAction → Prop
  | .applyNew =>
    after.history = before.history.take before.historyCursor ++ [entry] ∧
      after.historyCursor = before.historyCursor + 1 ∧ after.pendingPlan = before.pendingPlan
  | .applyPending =>
    after.history = before.history.take before.historyCursor ++ [entry] ∧
      after.historyCursor = before.historyCursor + 1 ∧ after.pendingPlan = none
  | .undo _ =>
    after.history = before.history ∧ after.historyCursor + 1 = before.historyCursor ∧
      after.pendingPlan = before.pendingPlan
  | .redo _ =>
    after.history = before.history ∧ after.historyCursor = before.historyCursor + 1 ∧
      before.historyCursor < before.history.length ∧ after.pendingPlan = before.pendingPlan

/-- Every store shows the candidate, and the history has made one step. -/
structure Committed (services : Services) (prepared : PreparedEdit)
    (before after : LiveWorkspace) : Prop where
  files : ∀ change ∈ prepared.plan.changedFiles,
    after.disk change.file = some (change.source prepared.restore)
  receipt : after.disk (receiptPath services prepared.plan) =
    some (services.pretty prepared.plan ++ "\n")
  otherFiles : ∀ path, (∀ change ∈ prepared.plan.changedFiles, change.file ≠ path) →
    path ≠ receiptPath services prepared.plan → after.disk path = before.disk path
  active : after.active = prepared.candidate
  state : before.activate services prepared = .ok (.ok ()) after.registry
  hostEntryTargets : ∃ targets, after.hostEntryTargets = some targets ∧
    prepared.package.hostEntryTargets targets.revision = .ok targets ∧
    ∀ installed, before.hostEntryTargets = some installed → installed.revision < targets.revision
  history : before.HistoryStep
    { plan := prepared.plan, swapPreview := prepared.swapPreview,
      receipt := receiptPath services prepared.plan } after prepared.action

def isError : EStateM.Result String LiveWorkspace String → Bool
  | .error _ _ => true
  | .ok _ _ => false

def Outcome (services : Services) (prepared : PreparedEdit) (before : LiveWorkspace) :
    EStateM.Result String LiveWorkspace String → Prop
  | .error _ after => before.Unchanged after
  | .ok _ after => before.Committed services prepared after

/-- The action was chosen at the history's present position. -/
def Follows (workspace : LiveWorkspace) : PreparedAction → Prop
  | .applyNew | .applyPending => workspace.historyCursor ≤ workspace.history.length
  | .undo index => index + 1 = workspace.historyCursor
  | .redo index => index = workspace.historyCursor ∧ index < workspace.history.length

/-- What the plan, the disk and the running program have to be for a commit to be undone. -/
structure Undoable (services : Services) (prepared : PreparedEdit) (workspace : LiveWorkspace) :
    Prop where
  undo_writes : ∀ path, services.writeError .undo path = none
  plan : prepared.plan.WellFormed services
  no_collision : ∀ change ∈ prepared.plan.changedFiles, ∀ current,
    workspace.disk change.file = some current →
      services.sourceHash current = services.sourceHash (change.source !prepared.restore) →
        current = change.source !prepared.restore
  receipt_apart : ∀ change ∈ prepared.plan.changedFiles,
    change.file ≠ receiptPath services prepared.plan
  receipt_text : ∀ text, workspace.disk (receiptPath services prepared.plan) = some text →
    text = services.pretty prepared.plan ++ "\n"
  activates : workspace.active.Activates

def PassesChecks (services : Services) (prepared : PreparedEdit) (workspace : LiveWorkspace) :
    Prop :=
  verifyPreparedInputHashes services prepared.inputHashes workspace.disk = .ok () ∧
    (∃ targets, workspace.syncHostEntryRevision.checkCommit services prepared = .ok targets) ∧
    ∃ disk, writeWorkshopSemanticPlan services .plan prepared.plan prepared.restore
      workspace.disk = .ok () disk

def receiptSucceeds (services : Services) (plan : SemanticEditPlan) : Bool :=
  safeRelativePath (Live.receiptDirectory services) && services.createDirError.isNone &&
    (services.writeError .receipt (receiptPath services plan)).isNone

def Accepts (services : Services) (prepared : PreparedEdit) (workspace : LiveWorkspace) : Prop :=
  committed Except.isOk (workspace.activate services prepared) = true

/-- What follows the written plan succeeds or can be undone: the receipt directory is not
created for nothing, and a failed activation is refused before its first write or rolled back. -/
structure Recoverable (services : Services) (prepared : PreparedEdit)
    (workspace : LiveWorkspace) : Prop where
  directory : workspace.receiptDirectory = true ∨ createReceiptDirectory services false = false ∨
    receiptSucceeds services prepared.plan = true ∧ workspace.Accepts services prepared
  state : receiptSucceeds services prepared.plan = false ∨ workspace.Accepts services prepared ∨
    Refused workspace.active prepared.candidate prepared.swapPreview
      prepared.package.onCodeSwapCodePtr.isSome workspace.registry ∨
    RollbackSafe workspace.active prepared.candidate ∧
      ((prepared.swapPreview.layoutChanged ||
        prepared.package.onCodeSwapCodePtr.isSome) = true ∨ prepared.candidate.Activates)

section Steps

variable {services : Services} {prepared : PreparedEdit} {before workspace : LiveWorkspace}

lemma unchanged_refl (workspace : LiveWorkspace) : workspace.Unchanged workspace :=
  ⟨rfl, rfl, rfl, SameState.refl _ _, rfl, rfl, rfl, rfl⟩

def writtenDisk (prepared : PreparedEdit) (before : LiveWorkspace)
    (others : List (String × Option String)) : Disk :=
  Disk.cells.writeAll before.disk
    (changeWrites prepared.restore prepared.plan.changedFiles ++ others)

variable (h : before.Undoable services prepared)
  (hexpects : prepared.plan.Expects prepared.restore before.disk)
include h hexpects

lemma rollbackPrepared_eq (hoth : ∀ w ∈ others, w.1 = receiptPath services prepared.plan)
    (hdisk : workspace.disk = writtenDisk prepared before others) :
    ∃ hashes, workspace.rollbackPrepared services prepared = .ok ()
      { workspace with
        disk := cells.writeAll (writtenDisk prepared before others)
          (changeWrites (!prepared.restore) prepared.plan.changedFiles)
        selfWriteHashes := hashes } := by
  have hwri : prepared.plan.Expects (!prepared.restore) workspace.disk := by
    rw [hdisk]
    apply hexpects.written h.plan
    intro w hw change hcha
    rw [hoth w hw]
    exact h.receipt_apart change hcha
  unfold rollbackPrepared
  rw [writePlan_eq_ok h.plan hwri h.undo_writes, hdisk]
  exact ⟨_, rfl⟩

def written (services : Services) (prepared : PreparedEdit) (before : LiveWorkspace)
    (registry : Registry) (hashes : String → Option String) : LiveWorkspace :=
  { before with
    disk := writtenDisk prepared before
      [(receiptPath services prepared.plan, some (services.pretty prepared.plan ++ "\n"))]
    receiptDirectory := createReceiptDirectory services before.receiptDirectory
    registry := registry
    selfWriteHashes := hashes }

lemma abandon_eq (registry : Registry) (hashes : String → Option String) (message : String) :
    ∃ hashes', (written services prepared before registry hashes).abandon services prepared
      (receiptPath services prepared.plan)
      (before.disk (receiptPath services prepared.plan)).isSome message =
        .error message { before with
          receiptDirectory := createReceiptDirectory services before.receiptDirectory
          registry := registry
          selfWriteHashes := hashes' } := by
  obtain ⟨hashes', hrol⟩ := rollbackPrepared_eq h hexpects (by simp)
    (rfl : (written services prepared before registry hashes).disk = _)
  refine ⟨hashes', ?_⟩
  simp only [abandon, hrol, cleanupNewReceipt, h.undo_writes]
  -- an old receipt was written again with its own text, a new one is removed
  cases hrec : before.disk (receiptPath services prepared.plan) with
  | some text =>
    have hund := hexpects.undone [(receiptPath services prepared.plan,
      some (services.pretty prepared.plan ++ "\n"))] [] (by simp)
      (by simp [hrec, h.receipt_text text hrec])
    rw [append_nil] at hund
    simp only [Option.isSome_some, if_true, writtenDisk, hund]
    rfl
  | none =>
    have hund := hexpects.undone [(receiptPath services prepared.plan,
      some (services.pretty prepared.plan ++ "\n"))]
      [(receiptPath services prepared.plan, none)] (by simp [hrec]) (by simp)
    rw [writeAll_append] at hund
    exact congrArg (fun disk : Disk => EStateM.Result.error message
      { before with
        disk := disk
        receiptDirectory := createReceiptDirectory services before.receiptDirectory
        registry := registry
        selfWriteHashes := hashes' }) hund

lemma abandon_unchanged {registry : Registry}
    (hdirectory : createReceiptDirectory services before.receiptDirectory =
      before.receiptDirectory)
    (hstate : SameState before.active before.registry registry)
    (hashes : String → Option String) (message : String) :
    before.Outcome services prepared
      ((written services prepared before registry hashes).abandon services prepared
        (receiptPath services prepared.plan)
        (before.disk (receiptPath services prepared.plan)).isSome message) := by
  obtain ⟨hashes', haba⟩ := abandon_eq h hexpects registry hashes message
  rw [haba]
  exact ⟨rfl, hdirectory, rfl, hstate, rfl, rfl, rfl, rfl⟩

omit hexpects

omit h in
lemma Recoverable.directory_kept (h : before.Recoverable services prepared)
    (hfail : ¬(receiptSucceeds services prepared.plan = true ∧ before.Accepts services prepared)) :
    createReceiptDirectory services before.receiptDirectory = before.receiptDirectory := by
  rcases h.directory with hexists | hnever | haccepted
  · simp [createReceiptDirectory, hexists]
  · cases hdirectory : before.receiptDirectory with
    | false => exact hnever
    | true => rfl
  · exact absurd haccepted hfail

lemma sameState_of_activate (hrecover : before.Recoverable services prepared)
    (hreceipt : receiptSucceeds services prepared.plan = true)
    (hfail : committed Except.isOk (before.activate services prepared) = false) :
    SameState before.active before.registry
      (finalRegistry (before.activate services prepared)) := by
  rcases hrecover.state with hnone | haccepted | hrefused | ⟨hsafe, hsnapshot⟩
  · simp [hreceipt] at hnone
  · cases haccepted.symm.trans hfail
  · exact hrefused.finalRegistry_eq _ _ ▸ SameState.refl _ _
  apply sameState_of_not_committed hsafe h.activates
  · cases hnee : (prepared.swapPreview.layoutChanged ||
        prepared.package.onCodeSwapCodePtr.isSome) with
    | true => exact .inl rfl
    | false =>
      -- without a snapshot there is no hook that could reject the candidate
      refine .inr ⟨hsnapshot.resolve_left (by simp [hnee]), fun r => ?_⟩
      have hhook : prepared.package.onCodeSwapCodePtr = none := by
        simpa using (Bool.or_eq_false_iff.mp hnee).2
      simp [codeSwap, hhook, Except.isOk, Except.toBool]
  · exact hfail

variable {targets : HostEntryTargets}

omit h in
lemma publish_eq_ok {active : Option HostEntryTargets}
    (hvalid : validateJitHostEntryTargets targets = .ok ())
    (hfresh : ∀ installed, active = some installed → installed.revision < targets.revision) :
    publishJitHostEntryTargets active targets = .ok (some targets) := by
  unfold publishJitHostEntryTargets
  rw [bind_ok hvalid]
  cases active with
  | none => rfl
  | some installed =>
    have hlt := hfresh installed rfl
    simp [Nat.not_le.mpr hlt, pure, Except.pure]

omit h in
lemma historyStep_recordHistory (receipt : String)
    (hfol : before.Follows prepared.action) (hhis : workspace.history = before.history)
    (hcur : workspace.historyCursor = before.historyCursor)
    (hpend : workspace.pendingPlan = before.pendingPlan) :
    before.HistoryStep
      { plan := prepared.plan, swapPreview := prepared.swapPreview, receipt := receipt }
      (workspace.recordHistory prepared receipt).2 prepared.action := by
  cases hact : prepared.action with
  | applyNew =>
    rw [hact] at hfol
    have hlen := Nat.min_eq_left hfol
    simp [HistoryStep, recordHistory, hact, hhis, hcur, hpend, hlen]
  | applyPending =>
    rw [hact] at hfol
    have hlen := Nat.min_eq_left hfol
    simp [HistoryStep, recordHistory, hact, hhis, hcur, hlen]
  | undo index =>
    rw [hact] at hfol
    exact ⟨by simp [recordHistory, hact, hhis], by simpa [recordHistory, hact],
      by simp [recordHistory, hact, hpend]⟩
  | redo index =>
    rw [hact] at hfol
    obtain ⟨rfl, hlt⟩ := hfol
    exact ⟨by simp [recordHistory, hact, hhis], by simp [recordHistory, hact], hlt,
      by simp [recordHistory, hact, hpend]⟩

omit h in
lemma recordHistory_keeps (workspace : LiveWorkspace) (prepared : PreparedEdit) (receipt : String) :
    let after := (workspace.recordHistory prepared receipt).2
    after.disk = workspace.disk ∧ after.active = workspace.active ∧
      after.registry = workspace.registry ∧
      after.hostEntryTargets = workspace.hostEntryTargets := by
  unfold recordHistory
  cases prepared.action <;> exact ⟨rfl, rfl, rfl, rfl⟩

/-- Entry points that pass the checks and are newer than those published. -/
structure Publishable (prepared : PreparedEdit) (before : LiveWorkspace)
    (targets : HostEntryTargets) : Prop where
  package : prepared.package.hostEntryTargets targets.revision = .ok targets
  valid : validateJitHostEntryTargets targets = .ok ()
  fresh : ∀ installed, before.hostEntryTargets = some installed →
    installed.revision < targets.revision

variable (hfol : before.Follows prepared.action)
include hfol

lemma committed_of_activated (hexpects : prepared.plan.Expects prepared.restore before.disk)
    (htar : Publishable prepared before targets)
    {registry : Registry} (hact : before.activate services prepared = .ok (.ok ()) registry)
    {published : LiveWorkspace}
    (hdisk : published.disk = writtenDisk prepared before
      [(receiptPath services prepared.plan, some (services.pretty prepared.plan ++ "\n"))])
    (hacti : published.active = prepared.candidate) (hreg : published.registry = registry)
    (hentry : published.hostEntryTargets = some targets)
    (hhis : published.history = before.history)
    (hcur : published.historyCursor = before.historyCursor)
    (hpend : published.pendingPlan = before.pendingPlan) :
    before.Committed services prepared
      (published.recordHistory prepared (receiptPath services prepared.plan)).2 := by
  obtain ⟨hd, ha, hr, ht⟩ :=
    recordHistory_keeps published prepared (receiptPath services prepared.plan)
  have hloads := hd.trans hdisk
  refine ⟨fun change hcha => ?_, ?_, fun path hfiles hpath => ?_, ha.trans hacti,
    by rw [hact, hr, hreg],
    ⟨targets, ht.trans hentry, htar.package, htar.fresh⟩,
    historyStep_recordHistory _ hfol hhis hcur hpend⟩
  · rw [hloads, ← Bool.not_not prepared.restore]
    refine (hexpects.written h.plan fun w hw => ?_).text change hcha
    rw [mem_singleton.mp hw]
    exact h.receipt_apart
  · rw [hloads]
    apply load_writeAll_of_mem (m := cells) trivial
    · exact mem_append_right _ mem_cons_self
    · intro w hw hkey
      rcases mem_append.mp hw with hw | hw
      · obtain ⟨c, hc, rfl⟩ := mem_map.mp hw
        exact absurd hkey (h.receipt_apart c hc)
      · rw [mem_singleton.mp hw]
  · rw [hloads]
    apply load_writeAll_of_forall_ne (m := cells) (v := none) trivial
    intro w hw
    rcases mem_append.mp hw with hw | hw
    · obtain ⟨c, hc, rfl⟩ := mem_map.mp hw
      exact hfiles c hc
    · rw [mem_singleton.mp hw]
      exact hpath.symm

lemma swapCandidate_outcome (hexpects : prepared.plan.Expects prepared.restore before.disk)
    (hrecover : before.Recoverable services prepared)
    (hreceipt : receiptSucceeds services prepared.plan = true)
    (htar : Publishable prepared before targets) (hashes : String → Option String) :
    before.Outcome services prepared
      ((written services prepared before before.registry hashes).swapCandidate services prepared
        targets (receiptPath services prepared.plan)
        (before.disk (receiptPath services prepared.plan)).isSome) := by
  unfold swapCandidate
  -- the activation reads neither the disk nor the remembered hashes
  have hsame : (written services prepared before before.registry hashes).activate services
      prepared = before.activate services prepared := rfl
  rw [hsame]
  have hrest := sameState_of_activate h hrecover hreceipt
  have hdirectory : committed Except.isOk (before.activate services prepared) = false →
      createReceiptDirectory services before.receiptDirectory = before.receiptDirectory :=
    fun hfail => hrecover.directory_kept fun haccepted => by cases haccepted.2.symm.trans hfail
  cases hact : before.activate services prepared with
  | error e registry =>
    rw [hact] at hrest hdirectory
    exact abandon_unchanged h hexpects (hdirectory rfl) (hrest rfl) hashes _
  | ok result registry =>
    rw [hact] at hrest hdirectory
    cases result with
    | error e => exact abandon_unchanged h hexpects (hdirectory rfl) (hrest rfl) hashes _
    | ok u =>
      have hpub : publishJitHostEntryTargets
          (written services prepared before before.registry hashes).hostEntryTargets targets =
          .ok (some targets) := publish_eq_ok htar.valid htar.fresh
      simp only [publishCandidate, hpub]
      exact committed_of_activated h hfol hexpects htar hact rfl rfl rfl rfl rfl rfl rfl

omit hfol h in
lemma receipt_cases (services : Services) (plan : SemanticEditPlan) (disk : Disk) :
    (receiptSucceeds services plan = false ∧
      ∃ e, writeWorkshopSemanticReceipt services plan disk = .error e disk) ∨
    receiptSucceeds services plan = true ∧
      writeWorkshopSemanticReceipt services plan disk = .ok (receiptPath services plan)
        (cells.store disk (receiptPath services plan)
          (some (services.pretty plan ++ "\n"))) := by
  unfold writeWorkshopSemanticReceipt receiptSucceeds
  cases safeRelativePath (Live.receiptDirectory services) with
  | false => exact .inl ⟨rfl, _, rfl⟩
  | true =>
    cases services.createDirError with
    | some error => exact .inl ⟨rfl, _, rfl⟩
    | none =>
      cases services.writeError .receipt (receiptPath services plan) with
      | some error => exact .inl ⟨rfl, _, rfl⟩
      | none => exact .inr ⟨rfl, rfl⟩

lemma writeCandidate_outcome (htar : Publishable prepared before targets)
    (hrecover : ∀ disk, writeWorkshopSemanticPlan services .plan prepared.plan prepared.restore
      before.disk = .ok () disk → before.Recoverable services prepared) :
    before.Outcome services prepared (before.writeCandidate services prepared targets) := by
  unfold writeCandidate
  dsimp only
  have hrem : (before.rememberPlanHashes services prepared.plan prepared.restore).disk =
      before.disk := rfl
  rw [hrem]
  cases hwrite : writeWorkshopSemanticPlan services .plan prepared.plan prepared.restore
      before.disk with
  | error e disk =>
    obtain rfl := writePlan_of_error h.plan h.no_collision h.undo_writes hwrite
    exact ⟨rfl, rfl, rfl, (unchanged_refl before).state, rfl, rfl, rfl, rfl⟩
  | ok u disk =>
    have hrecover := hrecover disk hwrite
    obtain ⟨hexpects, rfl⟩ := writePlan_of_ok h.plan h.no_collision hwrite
    rcases receipt_cases services prepared.plan (cells.writeAll before.disk
      (changeWrites prepared.restore prepared.plan.changedFiles)) with
      ⟨hreceipt, e, hrec⟩ | ⟨hreceipt, hrec⟩
    · simp only [hrec]
      have hdisk : ({ before.rememberPlanHashes services prepared.plan prepared.restore with
          receiptDirectory := createReceiptDirectory services before.receiptDirectory
          disk := cells.writeAll before.disk
            (changeWrites prepared.restore prepared.plan.changedFiles) } : LiveWorkspace).disk =
          writtenDisk prepared before [] := by
        rw [writtenDisk, append_nil]
      obtain ⟨hashes, hrol⟩ := rollbackPrepared_eq h hexpects (by simp) hdisk
      have hund := hexpects.undone [] [] (by simp) (by simp)
      rw [append_nil, append_nil] at hund
      have hkept := hrecover.directory_kept (by simp [hreceipt])
      simp only [rememberPlanHashes] at hrol ⊢
      simp only [hrol, writtenDisk, append_nil, hund]
      exact ⟨rfl, hkept, rfl, (unchanged_refl before).state, rfl, rfl, rfl, rfl⟩
    · simp only [hrec]
      have hswap := swapCandidate_outcome h hfol hexpects hrecover hreceipt htar
        (before.rememberPlanHashes services prepared.plan prepared.restore).selfWriteHashes
      rw [written, writtenDisk, writeAll_append] at hswap
      exact hswap

omit h hfol

lemma syncHostEntryRevision_eq (workspace : LiveWorkspace) :
    ∃ revision,
      workspace.syncHostEntryRevision = { workspace with hostEntryRevision := revision } ∧
      ∀ installed, workspace.hostEntryTargets = some installed → installed.revision ≤ revision := by
  obtain ⟨disk, directory, active, registry, published, revision, hashes, history, cursor,
    pending⟩ := workspace
  cases published with
  | none => exact ⟨revision, rfl, fun _ hinst => nomatch hinst⟩
  | some targets =>
    refine ⟨max revision targets.revision, rfl, fun installed hinst => ?_⟩
    cases hinst
    exact Nat.le_max_right ..

lemma checkCommit_ok (h : workspace.checkCommit services prepared = .ok targets) :
    prepared.package.hostEntryTargets workspace.nextHostEntryRevision = .ok targets ∧
      validateJitHostEntryTargets targets = .ok () := by
  obtain ⟨built, hbuilt, hrest⟩ := bind_ok_iff.mp h
  obtain ⟨_, hvalid, hrest⟩ := bind_ok_iff.mp hrest
  dsimp only at hrest
  split at hrest
  · cases hrest
  · split at hrest
    · cases hrest
    · cases hrest
      exact ⟨hbuilt, hvalid⟩

lemma revision_of_package {package : EnginePackage}
    (h : package.hostEntryTargets revision = .ok targets) : targets.revision = revision := by
  unfold EnginePackage.hostEntryTargets at h
  split at h
  · cases h
  · cases h
    rfl

lemma publishable_of_checked
    (hsyn : ∀ installed, before.hostEntryTargets = some installed → installed.revision ≤ revision)
    (hrev : ∀ installed, before.hostEntryTargets = some installed →
      installed.revision < 2 ^ 64 - 1)
    (h : ({ before with hostEntryRevision := revision } : LiveWorkspace).checkCommit services
      prepared = .ok targets) :
    Publishable prepared before targets := by
  obtain ⟨hpac, hvalid⟩ := checkCommit_ok h
  have htar := revision_of_package hpac
  refine ⟨by rwa [htar], hvalid, fun installed hinst => ?_⟩
  have hle := hsyn installed hinst
  have hlt := hrev installed hinst
  rw [htar, nextHostEntryRevision]
  exact lt_min (Nat.lt_succ_of_le hle) hlt

lemma Outcome.of_synced (revision : ℕ)
    (h : ({ before with hostEntryRevision := revision } : LiveWorkspace).Outcome services prepared
      result) : before.Outcome services prepared result := by
  cases result with
  | error e after =>
    exact ⟨h.disk, h.receiptDirectory, h.active, h.state, h.hostEntryTargets, h.history,
      h.historyCursor, h.pendingPlan⟩
  | ok kind after =>
    refine ⟨h.files, h.receipt, h.otherFiles, h.active, h.state, h.hostEntryTargets, ?_⟩
    have hstep := h.history
    cases hact : prepared.action <;> rw [hact] at hstep <;> exact hstep

end Steps

/-- Surroundings where every write succeeds and the hook sets `y[0]`, then fails. -/
def sampleServices (candidate : Program) : Services where
  projectRoot := "/game"
  output := "out"
  sourceHash := id
  serialize _ := "plan"
  pretty _ := "plan"
  layoutVersion _ := "layout"
  loadWorkspace disk := .ok [("main.stasis", (disk "main.stasis").getD "")]
  invokeCodeSwapHook _ reg := (.error "rejected", (setThenReject candidate reg).2)
  readError _ := "missing"
  createDirError := none
  writeError _ _ := none

def sampleEdit (candidate : Program) : PreparedEdit where
  plan := ⟨[⟨"main.stasis", "old", "new", "old", "new"⟩]⟩
  swapPreview := planStateMigration sampleActive.stateLayout candidate.stateLayout none
  fromLayoutVersion := "layout"
  restore := false
  action := .applyNew
  candidate := candidate
  package := ⟨some 1, 2, 3, none, none, some 9⟩
  inputHashes := [("main.stasis", "old")]

def sampleWorkspace (receiptDirectory : Bool) : LiveWorkspace where
  disk := Function.update (fun _ => none) "main.stasis" (some "old")
  receiptDirectory := receiptDirectory
  active := sampleActive
  registry := sampleState
  hostEntryTargets := some ⟨1, 1, 2, 3, none, none, none⟩
  hostEntryRevision := 1
  selfWriteHashes _ := none
  history := []
  historyCursor := 0
  pendingPlan := none

lemma sampleWorkspace_undoable :
    (sampleWorkspace true).Undoable (sampleServices sampleGrown) (sampleEdit sampleGrown) where
  undo_writes _ := rfl
  plan := ⟨by decide, by decide, by decide⟩
  no_collision _ _ _ _ hhash := hhash
  receipt_apart := by decide +kernel
  receipt_text := by
    intro text htext
    have hnone : (sampleWorkspace true).disk (receiptPath (sampleServices sampleGrown)
        (sampleEdit sampleGrown).plan) = none := by decide +kernel
    rw [hnone] at htext
    cases htext
  activates := ⟨.empty, by decide +kernel⟩

lemma sampleWorkspace_recoverable :
    (sampleWorkspace true).Recoverable (sampleServices sampleGrown) (sampleEdit sampleGrown) where
  directory := .inl rfl
  state := .inr (.inr (.inr ⟨by constructor <;> decide +kernel, .inl (by decide +kernel)⟩))

/-- A plan of two files whose second write fails leaves the disk as it was. -/
theorem writePlan_undone :
    let services : Services := { sampleServices sampleGrown with
      writeError := fun
        | .plan, "b" => some "disk full"
        | _, _ => none }
    let plan : SemanticEditPlan := ⟨[⟨"a", "x", "new", "x", "new"⟩, ⟨"b", "y", "z", "y", "z"⟩]⟩
    let disk : Disk := fun path => if path = "a" then some "x" else some "y"
    ∃ e, writeWorkshopSemanticPlan services .plan plan false disk = .error e disk := by
  intro services plan disk
  have hplan : plan.WellFormed services := ⟨by decide, by decide, by decide⟩
  have hwritten := (writePlan_all_or_nothing services plan .plan false disk).2 hplan
    (fun _ _ _ _ hhash => hhash) fun _ => rfl
  have hfailed : (match writeWorkshopSemanticPlan services .plan plan false disk with
      | .error _ _ => true
      | .ok _ _ => false) = true := by decide +kernel
  cases hrun : writeWorkshopSemanticPlan services .plan plan false disk with
  | ok u disk' => simp [hrun] at hfailed
  | error e disk' =>
    rw [hrun] at hwritten
    exact ⟨e, by rw [hwritten]⟩

/-- A plan that records the hash of the text on disk beside another text: the second
write fails, and the first file is put back to a text it never had. -/
theorem writePlan_inconsistent :
    let services : Services := { sampleServices sampleGrown with
      writeError := fun
        | .plan, "b" => some "disk full"
        | _, _ => none }
    let plan : SemanticEditPlan := ⟨[⟨"a", "old", "new", "x", "new"⟩, ⟨"b", "y", "z", "y", "z"⟩]⟩
    let disk : Disk := fun path => if path = "a" then some "x" else some "y"
    (∀ path, services.writeError .undo path = none) ∧
      disk "a" = some "x" ∧
      (match writeWorkshopSemanticPlan services .plan plan false disk with
        | .error _ disk' => disk' "a"
        | .ok _ _ => none) = some "old" := by
  refine ⟨fun _ => rfl, rfl, ?_⟩
  decide +kernel

end LiveWorkspace
end Stasis.Live
