import Stasis.Migration.Activate
import Stasis.Migration.Coverage

namespace Stasis.Migration

open Stasis.Runtime

structure DevelopmentSwapDescriptor where
  changedFunctions : List String
  hookMayMutateState : Bool
deriving DecidableEq

inductive DevelopmentSwapStatus
  | accepted
  | rejected
deriving DecidableEq

structure DevelopmentSwapReceipt where
  schemaVersion : ℕ
  status : DevelopmentSwapStatus
  changedFunctions : List String
  stateLayoutCompatible : Bool
  layoutChanged : Bool
  fromLayoutVersion : String
  toLayoutVersion : String
deriving DecidableEq

def developmentSwapReceiptSchemaVersion : ℕ := 1

structure DevelopmentSwapFailure (E : Type) where
  receipt : DevelopmentSwapReceipt
  error : String
  hookError : Option E

/-- The host's part of a swap.  `publish` takes the staged resources by reference. -/
structure DevelopmentSwapHost (World Staged : Type) where
  stage : Program → DevelopmentSwapDescriptor → Registry × World →
    Except String Staged × Registry × World
  publish : Staged → Registry × World → Except String Unit × Staged × Registry × World
  restore : Staged → Registry × World → Except String Unit × Registry × World

abbrev SwapHook (World E : Type) := Program → Registry × World → Except E Unit × Registry × World

inductive HostCall
  | stage (ok : Bool)
  | publish (ok : Bool)
  | hook (ok : Bool)
  | restore (ok : Bool)
  /-- `accept_staged_candidate`. -/
  | accept
deriving DecidableEq

inductive ApplyError (E : Type)
  | host (error : String)
  | hook (error : E)

/-- `activate_candidate_transactionally` with an `apply` that changes more than
the running state. -/
def activateCandidateAround {S T : Type} (active : Option Program) (candidate : Program)
    (preview : StateMigrationPreview) (hookMayMutateState : Bool)
    (apply : Registry × S → T × Registry × S) (accepted : T → Bool) :
    EStateM String (Registry × S) T := fun (reg, s) =>
  if preview.stateLayoutCompatible = false then .error preview.rejection (reg, s)
  else match preflightCollectionGrowth candidate preview with
  | .error e => .error e (reg, s)
  | .ok _ =>
    match captureSnapshot active candidate (preview.layoutChanged || hookMayMutateState) reg with
    | .error e => .error e (reg, s)
    | .ok runtimeState =>
      match captureForMigration active preview reg with
      | .error e => .error e (reg, s)
      | .ok migrationState =>
        match transaction candidate preview migrationState (fun reg => ((), reg)) reg with
        | .error e reg =>
          match rollbackRuntime active candidate runtimeState reg with
          | .ok _ reg => .error e (reg, s)
          | .error e' reg => .error e' (reg, s)
        | .ok _ reg =>
          let (result, reg, s) := apply (reg, s)
          if accepted result then .ok result (reg, s)
          else match rollbackRuntime active candidate runtimeState reg with
          | .ok _ reg => .ok result (reg, s)
          | .error e reg => .error e (reg, s)

lemma transaction_apply {T : Type} (candidate : Program) (preview : StateMigrationPreview)
    (migrationState : Option CapturedState) (apply : Registry → T × Registry) :
    transaction candidate preview migrationState apply = EStateM.bind
      (transaction candidate preview migrationState fun reg => ((), reg))
      fun _ reg => .ok (apply reg).1 (apply reg).2 := by
  have hstep : ∀ (step : RuntimeM Unit) {rest : RuntimeM T} {rest' : RuntimeM Unit} {last},
      rest = (rest' >>= last) → (step >>= fun _ => rest) = (step >>= fun _ => rest') >>= last := by
    rintro step _ rest' last rfl
    exact (bind_assoc step _ _).symm
  unfold transaction
  cases preview.layoutChanged with
  | false =>
    cases migrationState with
    | none => exact hstep _ rfl
    | some captured => exact hstep _ (hstep _ rfl)
  | true =>
    cases migrationState with
    | none => exact hstep _ (hstep _ rfl)
    | some captured => exact hstep _ (hstep _ (hstep _ rfl))

/-- The same run with a state the transaction does not see. -/
def withState {S T : Type} (s : S) :
    EStateM.Result String Registry T → EStateM.Result String (Registry × S) T
  | .ok result reg => .ok result (reg, s)
  | .error e reg => .error e (reg, s)

lemma activateCandidateAround_eq {S T : Type} (active : Option Program) (candidate : Program)
    (preview : StateMigrationPreview) (hookMayMutateState : Bool)
    (apply : Registry → T × Registry) (accepted : T → Bool) (reg : Registry) (s : S) :
    activateCandidateAround active candidate preview hookMayMutateState
        (fun state => ((apply state.1).1, (apply state.1).2, state.2)) accepted (reg, s) =
      withState s (activateCandidateTransactionally active candidate preview hookMayMutateState
        apply accepted reg) := by
  unfold activateCandidateAround activateCandidateTransactionally
  dsimp only
  split_ifs
  · rfl
  rcases preflightCollectionGrowth candidate preview with _ | _
  · rfl
  cases captureSnapshot active candidate (preview.layoutChanged || hookMayMutateState) reg with
  | error e => rfl
  | ok runtimeState =>
    rcases captureForMigration active preview reg with _ | migrationState
    · rfl
    dsimp only
    rw [transaction_apply candidate preview migrationState apply]
    unfold EStateM.bind
    cases transaction candidate preview migrationState (fun reg => ((), reg)) reg with
    | error e reg =>
      dsimp only
      cases rollbackRuntime active candidate runtimeState reg <;> rfl
    | ok _ reg =>
      dsimp only
      split_ifs
      · rfl
      · cases rollbackRuntime active candidate runtimeState (apply reg).2 <;> rfl

/-- What the host and the hook have been through inside the transaction. -/
structure Attempt (World Staged : Type) where
  world : World
  staged : Staged
  calls : List HostCall

section Commit

variable {World Staged E : Type} (host : DevelopmentSwapHost World Staged)
  (hook : SwapHook World E)

/-- The closure that is applied once the candidate runs: publish, then the hook. -/
def publishThenHook (candidate : Program) (state : Registry × Attempt World Staged) :
    Except (ApplyError E) Unit × Registry × Attempt World Staged :=
  let (published, staged, reg, world) := host.publish state.2.staged (state.1, state.2.world)
  match published with
  | .error error =>
    (.error (.host error), reg, ⟨world, staged, state.2.calls ++ [.publish false]⟩)
  | .ok _ =>
    let calls := state.2.calls ++ [.publish true]
    let (hooked, reg, world) := hook candidate (reg, world)
    match hooked with
    | .error error => (.error (.hook error), reg, ⟨world, staged, calls ++ [.hook false]⟩)
    | .ok _ => (.ok (), reg, ⟨world, staged, calls ++ [.hook true]⟩)

structure SwapOutcome (World E : Type) where
  result : Except (DevelopmentSwapFailure E) DevelopmentSwapReceipt
  active : Program
  registry : Registry
  world : World
  calls : List HostCall

def restoreAfterFailure (active : Program) (state : Registry × Attempt World Staged)
    (failure : DevelopmentSwapFailure E) : SwapOutcome World E :=
  let (restored, reg, world) := host.restore state.2.staged (state.1, state.2.world)
  match restored with
  | .ok _ => ⟨.error failure, active, reg, world, state.2.calls ++ [.restore true]⟩
  | .error error =>
    ⟨.error { failure with error := failure.error ++ "; host restoration failed: " ++ error },
      active, reg, world, state.2.calls ++ [.restore false]⟩

def finalizeRuntimePreview (candidate : Program) (preview : StateMigrationPreview) :
    StateMigrationPreview :=
  if preview.stateLayoutCompatible = false then preview
  else match preflightCollectionGrowth candidate preview with
  | .error error => { preview with rejections := [error] }
  | .ok _ => preview

variable (version : StateLayout → String) (active candidate : Program)
  (descriptor : DevelopmentSwapDescriptor)

def receiptFromPreview (preview : StateMigrationPreview) (status : DevelopmentSwapStatus) :
    DevelopmentSwapReceipt where
  schemaVersion := developmentSwapReceiptSchemaVersion
  status := status
  changedFunctions := (descriptor.changedFunctions.insertionSort (· ≤ ·)).dedup
  stateLayoutCompatible := preview.stateLayoutCompatible
  layoutChanged := preview.layoutChanged
  fromLayoutVersion := version active.stateLayout
  toLayoutVersion := version candidate.stateLayout

def planningFailure : DevelopmentSwapReceipt where
  schemaVersion := developmentSwapReceiptSchemaVersion
  status := .rejected
  changedFunctions := descriptor.changedFunctions
  stateLayoutCompatible := false
  layoutChanged := false
  fromLayoutVersion := ""
  toLayoutVersion := ""

def commitDevelopmentSwap (display : E → String) (reg : Registry) (world : World) :
    SwapOutcome World E :=
  match planLayouts active.stateLayout candidate.stateLayout none with
  | .error error => ⟨.error ⟨planningFailure descriptor, error, none⟩, active, reg, world, []⟩
  | .ok planned =>
    let preview := finalizeRuntimePreview candidate planned
    let receipt := receiptFromPreview version active candidate descriptor preview
    if preview.stateLayoutCompatible = false then
      ⟨.error ⟨receipt .rejected, preview.rejection, none⟩, active, reg, world, []⟩
    else match host.stage candidate descriptor (reg, world) with
    | (.error error, reg, world) =>
      ⟨.error ⟨receipt .rejected, error, none⟩, active, reg, world, [.stage false]⟩
    | (.ok staged, reg, world) =>
      match activateCandidateAround (some active) candidate preview
          descriptor.hookMayMutateState (publishThenHook host hook candidate) Except.isOk
          (reg, ⟨world, staged, [.stage true]⟩) with
      | .ok (.ok _) (reg, attempt) =>
        ⟨.ok (receipt .accepted), candidate, reg, attempt.world, attempt.calls ++ [.accept]⟩
      | .ok (.error (.host error)) state =>
        restoreAfterFailure host active state ⟨receipt .rejected, error, none⟩
      | .ok (.error (.hook error)) state =>
        restoreAfterFailure host active state ⟨receipt .rejected, display error, some error⟩
      | .error error state =>
        restoreAfterFailure host active state ⟨receipt .rejected, error, none⟩

end Commit

/-- How a transaction ends: it fails before `apply` runs, or `apply` runs once and
its result is kept, or is rejected and rolled back, which may fail in turn. -/
lemma activateCandidateAround_cases {S T : Type} (active : Option Program)
    (candidate : Program) (preview : StateMigrationPreview) (hookMayMutateState : Bool)
    (apply : Registry × S → T × Registry × S) (accepted : T → Bool) (reg : Registry) (s : S) :
    let run := activateCandidateAround active candidate preview hookMayMutateState apply accepted
      (reg, s)
    (∃ e reg', run = .error e (reg', s)) ∨
      ∃ reg₁ result reg₂ s₂, apply (reg₁, s) = (result, reg₂, s₂) ∧
        ((accepted result = true ∧ run = .ok result (reg₂, s₂)) ∨ (accepted result = false ∧
            ((∃ reg', run = .ok result (reg', s₂)) ∨ ∃ e reg', run = .error e (reg', s₂)))) := by
  unfold activateCandidateAround
  dsimp only
  split_ifs
  · exact .inl ⟨_, _, rfl⟩
  split
  · exact .inl ⟨_, _, rfl⟩
  split
  · exact .inl ⟨_, _, rfl⟩
  split
  · exact .inl ⟨_, _, rfl⟩
  rename_i runtimeState _ _ _ _
  split
  · split <;> exact .inl ⟨_, _, rfl⟩
  rename_i reg _
  refine .inr ⟨reg, (apply (reg, s)).1, (apply (reg, s)).2.1, (apply (reg, s)).2.2, rfl, ?_⟩
  cases hacc : accepted (apply (reg, s)).1 with
  | true => exact .inl ⟨rfl, if_pos rfl⟩
  | false =>
    refine .inr ⟨rfl, ?_⟩
    rw [if_neg (by decide)]
    split
    · exact .inl ⟨_, rfl⟩
    · exact .inr ⟨_, _, rfl⟩

namespace HostCall

def isHook : HostCall → Bool
  | .hook _ => true
  | _ => false

def isRestore : HostCall → Bool
  | .restore _ => true
  | _ => false

end HostCall

namespace SwapOutcome

variable {World E : Type}

/-- The status on the receipt, which a failure carries as well. -/
def status (outcome : SwapOutcome World E) : DevelopmentSwapStatus :=
  match outcome.result with
  | .ok receipt => receipt.status
  | .error failure => failure.receipt.status

end SwapOutcome

inductive Course : List HostCall → DevelopmentSwapStatus → Prop
  | unplanned : Course [] .rejected
  | unstaged : Course [.stage false] .rejected
  | inactive {ok} : Course [.stage true, .restore ok] .rejected
  | unpublished {ok} : Course [.stage true, .publish false, .restore ok] .rejected
  | refused {ok} : Course [.stage true, .publish true, .hook false, .restore ok] .rejected
  | accepted : Course [.stage true, .publish true, .hook true, .accept] .accepted

namespace Course

variable {calls : List HostCall} {status : DevelopmentSwapStatus} (h : Course calls status)
include h

lemma accept_mem_iff : .accept ∈ calls ↔ status = .accepted := by
  cases h <;> simp

lemma countP_isRestore (hsta : .stage true ∈ calls) (hstat : status = .rejected) :
    calls.countP HostCall.isRestore = 1 := by
  cases h with
  | unplanned | unstaged => simp at hsta
  | inactive | unpublished | refused => rfl
  | accepted => cases hstat

lemma countP_isHook : calls.countP HostCall.isHook ≤ 1 := by
  cases h <;> simp [HostCall.isHook, List.countP_cons]

lemma publish_before_hook (hi : calls[i]? = some (.hook ok)) : .publish true ∈ calls.take i := by
  cases h <;> rcases i with _ | _ | _ | _ | i <;> simp at hi ⊢

lemma hook_before_accept (hi : calls[i]? = some .accept) : .hook true ∈ calls.take i := by
  cases h <;> rcases i with _ | _ | _ | _ | i <;> simp at hi ⊢

end Course

section Protocol

variable {World Staged E : Type} {host : DevelopmentSwapHost World Staged}
  {hook : SwapHook World E}

lemma publishThenHook_cases (candidate : Program) (reg : Registry) (attempt : Attempt World Staged)
    (h : publishThenHook host hook candidate (reg, attempt) = (result, reg', attempt')) :
    (result.isOk = true ∧ attempt'.calls = attempt.calls ++ [.publish true, .hook true]) ∨
      (result.isOk = false ∧ (attempt'.calls = attempt.calls ++ [.publish false] ∨
        attempt'.calls = attempt.calls ++ [.publish true, .hook false])) := by
  unfold publishThenHook at h
  dsimp only at h
  split at h
  · cases h
    exact .inr ⟨rfl, .inl rfl⟩
  · split at h
    · cases h
      exact .inr ⟨rfl, .inr (List.append_assoc _ _ _)⟩
    · cases h
      exact .inl ⟨rfl, List.append_assoc _ _ _⟩

lemma restoreAfterFailure_cases (active : Program) (state : Registry × Attempt World Staged)
    (failure : DevelopmentSwapFailure E) :
    ∃ ok failure', failure'.receipt = failure.receipt ∧
      (restoreAfterFailure host active state failure).result = .error failure' ∧
      (restoreAfterFailure host active state failure).active = active ∧
      (restoreAfterFailure host active state failure).calls = state.2.calls ++ [.restore ok] := by
  unfold restoreAfterFailure
  dsimp only
  cases (host.restore state.2.staged (state.1, state.2.world)).1 with
  | ok _ => exact ⟨true, failure, rfl, rfl, rfl, rfl⟩
  | error error =>
    refine ⟨false, _, ?_, rfl, rfl, rfl⟩
    rfl

structure FollowsCourse (active candidate : Program) (outcome : SwapOutcome World E) : Prop where
  course : Course outcome.calls outcome.status
  result : outcome.result.isOk = true ↔ outcome.status = .accepted
  active : outcome.active = if outcome.status = .accepted then candidate else active

lemma followsCourse_of_error {failure : DevelopmentSwapFailure E}
    (hres : outcome.result = .error failure) (hsta : failure.receipt.status = .rejected)
    (hact : outcome.active = active) (hcou : Course outcome.calls .rejected) :
    FollowsCourse active candidate outcome := by
  have hrej : outcome.status = .rejected := by
    rw [SwapOutcome.status, hres]
    exact hsta
  refine ⟨hrej ▸ hcou, ?_, ?_⟩
  · rw [hres, hrej]
    exact ⟨nofun, nofun⟩
  · rw [hact, hrej]
    rfl

lemma followsCourse_restored {failure : DevelopmentSwapFailure E}
    (hsta : failure.receipt.status = .rejected)
    (hcou : ∀ ok, Course (state.2.calls ++ [.restore ok]) .rejected) :
    FollowsCourse active candidate (restoreAfterFailure host active state failure) := by
  obtain ⟨ok, failure', hrec, hres, hact, hcalls⟩ := restoreAfterFailure_cases active state failure
  exact followsCourse_of_error hres (hrec ▸ hsta) hact (hcalls ▸ hcou ok)

lemma followsCourse_commit (version : StateLayout → String) (active candidate : Program)
    (descriptor : DevelopmentSwapDescriptor) (display : E → String) (reg : Registry)
    (world : World) : FollowsCourse active candidate
      (commitDevelopmentSwap host hook version active candidate descriptor display reg world) := by
  unfold commitDevelopmentSwap
  split
  · exact followsCourse_of_error rfl rfl rfl .unplanned
  next planned _ =>
    dsimp only
    generalize finalizeRuntimePreview candidate planned = preview
    split_ifs
    · exact followsCourse_of_error rfl rfl rfl .unplanned
    split
    · exact followsCourse_of_error rfl rfl rfl .unstaged
    next staged reg world _ =>
      -- the calls of the attempt are those of the transaction's closure, or none
      rcases activateCandidateAround_cases (some active) candidate preview
          descriptor.hookMayMutateState (publishThenHook host hook candidate) Except.isOk reg
          (⟨world, staged, [.stage true]⟩ : Attempt World Staged) with
        ⟨e, reg', hrun⟩ | ⟨reg₁, result, reg₂, attempt, happly, hrun⟩
      · rw [hrun]
        exact followsCourse_restored rfl fun _ => .inactive
      · rcases publishThenHook_cases candidate reg₁ _ happly with
          ⟨hok, hcalls⟩ | ⟨herror, hcalls⟩
        · rcases hrun with ⟨-, hrun⟩ | ⟨hrej, -⟩
          · rw [hrun]
            cases result with
            | error error => cases hok
            | ok _ =>
              dsimp only
              rw [hcalls]
              exact ⟨.accepted, ⟨fun _ => rfl, fun _ => rfl⟩, rfl⟩
          · rw [hok] at hrej
            cases hrej
        · -- whether the roll-back fails or not, the host restores once
          have hcou : ∀ ok, Course (attempt.calls ++ [.restore ok]) .rejected := by
            intro ok
            rcases hcalls with hcalls | hcalls
            · rw [hcalls]
              exact .unpublished
            · rw [hcalls]
              exact .refused
          rcases hrun with ⟨hacc, -⟩ | ⟨-, ⟨reg', hrun⟩ | ⟨e, reg', hrun⟩⟩
          · rw [herror] at hacc
            cases hacc
          · rw [hrun]
            rcases result with (error | error) | _
            · exact followsCourse_restored rfl hcou
            · exact followsCourse_restored rfl hcou
            · cases herror
          · rw [hrun]
            exact followsCourse_restored rfl hcou

end Protocol

end Stasis.Migration
