import VistaBlox.Intake

/-!
# Corrections of intake cases

A correction is requested against the stage and event sequence staff saw, approved by a
second account where the policy asks for it, and executed under the lock of the case after
the policy has been evaluated again.
-/
namespace Intake

open Offering (AccountId OfferingId OfferingStatus)
open Shared (AppError)

structure OfferingSnapshot where
  offeringId : OfferingId
  status : OfferingStatus
  finalOfferingPublishedAt : Option Nat
  reservationCount : Nat
  fundedReservationCount : Nat
  disclosurePackPublished : Bool
  reconfirmationOpen : Bool
  finalizedReservationCount : Nat

structure ReversalSnapshot where
  stage : Stage
  workflowEventSequence : Nat
  latestTransition : Option (EventId × Stage × Stage)
  latestTransitionReversed : Bool
  activeInformationRequest : Bool
  offering : Option OfferingSnapshot
  legalExecutionCompleted : Bool
  appraisalCompleted : Bool
  correctionInProgress : Bool

inductive Blocker where
  | offeringMissing | reservationsExist | fundingExists | disclosurePackPublished | finalTermsPublished
  | reconfirmationOpen | offeringFinalized | legalExecutionCompleted | appraisalCompleted
  deriving DecidableEq, Repr

inductive ExecutionMode where
  | synchronous | asynchronous
  deriving DecidableEq, Repr

structure ReversalAction where
  command : ReversalCommand
  targetStage : Stage
  label : String
  requiresSecondApproval : Bool
  executionMode : ExecutionMode
  impactSummary : String
  blockers : List Blocker

def terminalStages : List Stage := [.rejected, .withdrawn, .expired]

def when (condition : Bool) (blocker : Blocker) : List Blocker := if condition then [blocker] else []

def preOfferingBlockers : Option OfferingSnapshot → List Blocker
  | none => [.offeringMissing]
  | some offering =>
    when (0 < offering.reservationCount) .reservationsExist ++
    when (0 < offering.fundedReservationCount) .fundingExists ++
    when offering.disclosurePackPublished .disclosurePackPublished ++
    when offering.finalOfferingPublishedAt.isSome .finalTermsPublished ++
    when offering.reconfirmationOpen .reconfirmationOpen ++
    when (0 < offering.finalizedReservationCount) .offeringFinalized

def finalTermsBlockers (offering : Option OfferingSnapshot) : List Blocker :=
  when (offering.any fun o => o.finalOfferingPublishedAt.isSome) .finalTermsPublished ++
  when (offering.any OfferingSnapshot.reconfirmationOpen) .reconfirmationOpen ++
  when (offering.any fun o => 0 < o.finalizedReservationCount) .offeringFinalized

def returnToDraftAction : ReversalAction :=
  ⟨.returnToDraft, .draft, "Return to draft", false, .synchronous,
    "The current submission is preserved and the case returns to draft for correction.", []⟩

def withdrawInformationRequestAction : ReversalAction :=
  ⟨.withdrawInformationRequest, .submitted, "Withdraw information request", false, .synchronous,
    "The active request will be withdrawn and the case returns to review.", []⟩

def reopenPreOfferingAction (snapshot : ReversalSnapshot) : ReversalAction :=
  ⟨.reopenPreOffering, .submitted, "Reopen review", true, .asynchronous,
    "The provisional offering will be suspended and the case returns to founder review.",
    preOfferingBlockers snapshot.offering⟩

def reopenStructuringAction (snapshot : ReversalSnapshot) : ReversalAction :=
  ⟨.reopenStructuring, .preOfferingOpen, "Reopen structuring", true, .asynchronous,
    "Partner completion will be reopened and the case returns to the IPO workflow.",
    finalTermsBlockers snapshot.offering ++ when snapshot.legalExecutionCompleted .legalExecutionCompleted ++
      when snapshot.appraisalCompleted .appraisalCompleted⟩

def reopenFinalOfferingReviewAction (snapshot : ReversalSnapshot) : ReversalAction :=
  ⟨.reopenFinalOfferingReview, .postIpoStructuring, "Reopen final-offering review", true, .asynchronous,
    "Structuring completion will be reopened before final terms publication.", finalTermsBlockers snapshot.offering⟩

def evaluateReversalActions (snapshot : ReversalSnapshot) : List ReversalAction :=
  if snapshot.correctionInProgress ∨ snapshot.latestTransitionReversed ∨ snapshot.stage ∈ terminalStages then []
  else
    let actions := match snapshot.stage with
      | .submitted =>
        if snapshot.latestTransition.any (fun t : EventId × Stage × Stage => t.2.2 = Stage.submitted) ∧
            snapshot.activeInformationRequest = false ∧ snapshot.offering.isNone then [returnToDraftAction]
        else []
      | .waitingOnApplicant =>
        if snapshot.activeInformationRequest then [withdrawInformationRequestAction] else []
      | .preOfferingOpen => [reopenPreOfferingAction snapshot]
      | .postIpoStructuring => [reopenStructuringAction snapshot]
      | .approvedForFinalOffering => [reopenFinalOfferingReviewAction snapshot]
      | _ => []
    actions.filter fun a => a.blockers = []

def getReversalAction (snapshot : ReversalSnapshot) (command : ReversalCommand) : Option ReversalAction :=
  (evaluateReversalActions snapshot).find? fun a => a.command = command

/-- The newest offering of the case's newest vehicle. -/
def Database.caseOffering (w : Database) (caseId : CaseId) : Option Offering.OfferingRecord :=
  ((w.pivs.filter fun p => p.caseId = caseId).argmax Piv.id).bind fun piv =>
    (w.market.offerings.filter fun o => o.pivId = piv.id).getLast?

def offeringSnapshot (market : Offering.Database) (offering : Offering.OfferingRecord) : OfferingSnapshot :=
  let reservations := market.reservations.filter fun r => r.offeringId = offering.id
  { offeringId := offering.id
    status := offering.status
    finalOfferingPublishedAt := offering.finalOfferingPublishedAt
    reservationCount := (reservations.filter fun r => r.reservationStage.live).length
    fundedReservationCount := (reservations.filter fun r =>
      Offering.isReservationFunded (Offering.latestCapitalState market.moneyEvents r.id)).length
    disclosurePackPublished := market.disclosurePacks.any fun p => p.offeringId = offering.id
    reconfirmationOpen := reservations.any fun r => r.reservationStage = .awaitingReconfirmation
    finalizedReservationCount := (reservations.filter fun r => r.reservationStage = .finalized).length }

def OperationStatus.inFlight (s : OperationStatus) : Bool :=
  s = .requested ∨ s = .pendingApproval ∨ s = .approved ∨ s = .executing

/-- The newest transition that is not itself a correction. -/
def latestTransitionOf (w : Database) (caseId : CaseId) : Option CaseEvent :=
  (w.events.filter fun e => e.caseId = caseId ∧ e.transition.isSome ∧ e.reversalOfEventId = none).argmax
    CaseEvent.eventSequence

/-- `excludeOperationId` leaves the operation being executed out of `correctionInProgress`. -/
def loadReversalSnapshot (w : Database) (caseId : CaseId) (excludeOperationId : Option OperationId) :
    Option ReversalSnapshot :=
  (w.intakeCase caseId).map fun row =>
    let latest := latestTransitionOf w caseId
    { stage := row.stage
      workflowEventSequence := row.workflowEventSequence
      latestTransition := latest.bind fun e => e.transition.map fun t => (e.id, t)
      latestTransitionReversed := latest.any fun e =>
        w.events.any fun e' => e'.caseId = caseId ∧ e'.reversalOfEventId = some e.id
      activeInformationRequest := w.informationRequests.any fun r => r.caseId = caseId ∧ r.status = .published
      offering := (w.caseOffering caseId).map (offeringSnapshot w.market)
      legalExecutionCompleted := 0 < row.legalExecutionEventRefs.length
      appraisalCompleted := row.appraisalCompletedAt.isSome
      correctionInProgress := w.operations.any fun o =>
        o.caseId = caseId ∧ o.status.inFlight ∧ excludeOperationId ≠ some o.id }

section Operations

variable (fresh : Nat → Nat)

structure CreateReversalOperationInput where
  caseId : CaseId
  command : ReversalCommand
  fromStage : Stage
  toStage : Stage
  status : OperationStatus
  requestedByAccountId : AccountId
  expectedStage : Stage
  expectedWorkflowEventSequence : Nat
  reversalOfEventId : Option EventId
  idempotencyKey : String
  requestedAt : Nat

def caseNotFoundError : AppError :=
  ⟨"intake.case_not_found", "Case not found", 404, "The intake case does not exist.", []⟩

def reversalConflictError : AppError :=
  ⟨"intake.reversal_conflict", "Case changed", 409,
    "The case changed while this correction was being prepared. Refresh and try again.", []⟩

def reversalNotAllowedError : AppError :=
  ⟨"intake.reversal_not_allowed", "Correction not allowed", 409,
    "This case cannot be moved back from its current state.", []⟩

structure RequestReversalInput where
  caseId : CaseId
  command : ReversalCommand
  accountId : AccountId
  idempotencyKey : String
  expectedStage : Stage
  expectedWorkflowEventSequence : Nat
  requestedAt : Nat

/-- What `RequestIntakeReversalService` passes on once it has read the snapshot. -/
def requestIntakeReversal (input : RequestReversalInput) :
    Option ReversalSnapshot → Except AppError CreateReversalOperationInput
  | none => .error caseNotFoundError
  | some snapshot =>
    if snapshot.stage ≠ input.expectedStage ∨
        snapshot.workflowEventSequence ≠ input.expectedWorkflowEventSequence then .error reversalConflictError
    else match getReversalAction snapshot input.command with
      | none => .error reversalNotAllowedError
      | some action => .ok {
        caseId := input.caseId
        command := input.command
        fromStage := snapshot.stage
        toStage := action.targetStage
        status := if action.requiresSecondApproval then .pendingApproval else .requested
        requestedByAccountId := input.accountId
        expectedStage := input.expectedStage
        expectedWorkflowEventSequence := input.expectedWorkflowEventSequence
        reversalOfEventId := snapshot.latestTransition.map Prod.fst
        idempotencyKey := input.idempotencyKey
        requestedAt := input.requestedAt }

def newOperation (id : OperationId) (input : CreateReversalOperationInput) : ReversalOperation where
  id := id
  caseId := input.caseId
  command := input.command
  fromStage := input.fromStage
  toStage := input.toStage
  status := input.status
  requestedByAccountId := input.requestedByAccountId
  approvedByAccountId := none
  expectedStage := input.expectedStage
  expectedWorkflowEventSequence := input.expectedWorkflowEventSequence + 1
  reversalOfEventId := input.reversalOfEventId
  idempotencyKey := input.idempotencyKey
  failureCode := none

def Database.reversalOperation (w : Database) (caseId : CaseId) (id : OperationId) : Option ReversalOperation :=
  (Table.find ReversalOperation.id w.operations id).filter fun o => o.caseId = caseId

def Database.setOperation (w : Database) (id : OperationId) (f : ReversalOperation → ReversalOperation) : Database :=
  { w with operations := Table.update ReversalOperation.id w.operations id f }

def createReversalOperation (input : CreateReversalOperationInput) : Tx ReversalOperation := fun w =>
  match w.operations.find? fun o => o.caseId = input.caseId ∧ o.idempotencyKey = input.idempotencyKey with
  | some existing => .ok (existing, w)
  | none =>
    match w.intakeCase input.caseId with
    | none => .error (.caseNotFound input.caseId)
    | some current => do
      throwIf (current.stage ≠ input.expectedStage ∨
          current.workflowEventSequence ≠ input.expectedWorkflowEventSequence)
        (.caseReviewConflict current.stage "request this reversal")
      let created := newOperation (fresh 0) input
      throwIf ((w.operations.any fun o => o.id = created.id) = true) (.database .uniqueViolation)
      let w : Database := { w with operations := w.operations ++ [created] }
      let w ← appendIntakeCaseEvent (fresh 1)
        ⟨input.caseId, .correctionRequested input.caseId created.id, .correctionRequested, .staff,
          some input.requestedByAccountId, none, none, input.requestedAt⟩ w
      return (created, w)

def approveReversalOperation (caseId : CaseId) (operationId : OperationId) (approverAccountId : AccountId) :
    Tx (Option ReversalOperation) := fun w =>
  match w.reversalOperation caseId operationId with
  | none => .ok (none, w)
  | some operation =>
    if operation.status = .approved ∧ operation.approvedByAccountId = some approverAccountId then
      .ok (some operation, w)
    else if operation.status = .pendingApproval ∧ operation.requestedByAccountId ≠ approverAccountId then
      let approved (o : ReversalOperation) : ReversalOperation := { o with
        status := .approved
        approvedByAccountId := some approverAccountId }
      .ok (some (approved operation), w.setOperation operationId approved)
    else .error (.caseReviewConflict operation.fromStage "approve this reversal")

/-- Ends an operation that is still in flight. -/
def failReversalOperation (operation : ReversalOperation) (code : ReversalFailureCode) (w : Database) :
    Option ReversalOperation × Database :=
  match (w.reversalOperation operation.caseId operation.id).filter fun o =>
      o.status = .requested ∨ o.status = .approved ∨ o.status = .executing with
  | none => (none, w)
  | some current =>
    let failed (o : ReversalOperation) : ReversalOperation := { o with
      status := .failed
      failureCode := some code }
    (some (failed current), w.setOperation operation.id failed)

/-- What a command writes, or nothing if it has no executor. -/
def executeCommand (caseId : CaseId) (offeringId : Option OfferingId) (w : Database) :
    ReversalCommand → Option Database
  | .returnToDraft => some (w.setCase caseId fun c => { c with stage := .draft })
  | .reopenPreOffering =>
    let w := match offeringId with
      | some id => { w with market := w.market.setOffering id fun o => { o with status := .closed } }
      | none => w
    some (w.setCase caseId fun c => { c with
      stage := .submitted
      approvedAt := none
      ipoEndAt := none
      ipoValueEur := none })
  | .reopenStructuring => some (w.setCase caseId fun c => { c with
      stage := .preOfferingOpen
      postIpoStructuringCompletedAt := none })
  | .reopenFinalOfferingReview => some (w.setCase caseId fun c => { c with
      stage := .postIpoStructuring
      approvedForFinalOfferingAt := none
      postIpoStructuringCompletedAt := none })
  | .withdrawInformationRequest => none

structure ExecuteReversalInput where
  caseId : CaseId
  operationId : OperationId
  actorAccountId : AccountId
  completedAt : Nat

def runReversalExecution (input : ExecuteReversalInput) : Tx (Option ReversalOperation) := fun w =>
  match w.reversalOperation input.caseId input.operationId, w.intakeCase input.caseId with
  | some operation, some current =>
    if operation.status ≠ .requested ∧ operation.status ≠ .approved then .ok (some operation, w)
    else if current.stage ≠ operation.expectedStage ∨
        current.workflowEventSequence ≠ operation.expectedWorkflowEventSequence then
      .ok (failReversalOperation operation .caseChanged w)
    else
      let offeringId := (w.caseOffering input.caseId).map Offering.OfferingRecord.id
      let allowed := (loadReversalSnapshot w input.caseId (some operation.id)).bind fun snapshot =>
        getReversalAction snapshot operation.command
      match allowed, executeCommand input.caseId offeringId w operation.command with
      | some _, some executed => do
        let executed ← appendIntakeCaseEvent (fresh 0)
          ⟨input.caseId, .reversalCompleted input.caseId operation.id, .caseStageReverted, .staff,
            some input.actorAccountId, some (operation.fromStage, operation.toStage), operation.reversalOfEventId,
            input.completedAt⟩ executed
        let completed (o : ReversalOperation) : ReversalOperation := { o with status := .completed }
        return (some (completed operation), executed.setOperation operation.id completed)
      | _, _ => .ok (failReversalOperation operation .notAllowed w)
  | _, _ => .ok (none, w)

/-- An unexpected error is recorded in a transaction of its own, and thrown again. -/
def executeReversalOperation (input : ExecuteReversalInput) (w : Database) :
    Except Failure (Option ReversalOperation) × Database :=
  match runReversalExecution fresh input w with
  | .ok (result, w') => (.ok result, w')
  | .error e =>
    match w.reversalOperation input.caseId input.operationId with
    | none => (.error e, w)
    | some operation => (.error e, (failReversalOperation operation .executionError w).2)

end Operations

end Intake
