import VistaBlox.Offering

/-!
# Intake cases and their ledger

The tables of the intake module and one function for each transaction that moves a case and
appends to its ledger. A transaction that throws leaves the tables as they were. Identifiers
the code draws at random are inputs.
-/
namespace Intake

open Offering (AccountId OfferingId PivId DatabaseError)

abbrev CaseId := Nat
abbrev PropertyId := Nat
abbrev RevisionId := Nat
abbrev RequestId := Nat
abbrev EventId := Nat
abbrev OperationId := Nat
abbrev TraceId := Nat

inductive Stage where
  | draft | submitted | waitingOnApplicant | preOfferingOpen | postIpoStructuring | approvedForFinalOffering
  | rejected | withdrawn | expired
  deriving DecidableEq, Repr

inductive CaseOutcome where
  | withdrawn | rejected
  deriving DecidableEq, Repr

def CaseOutcome.stage : CaseOutcome → Stage
  | .withdrawn => .withdrawn
  | .rejected => .rejected

structure IntakeCase where
  id : CaseId
  propertyId : PropertyId
  applicantAccountId : AccountId
  stage : Stage
  currentSubmissionRevisionId : Option RevisionId
  approvedAt : Option Nat
  ipoEndAt : Option Nat
  ipoValueEur : Option Nat
  legalExecutionEventRefs : List Nat
  legalPracticeId : Option Nat
  legalStructuringCompletedAt : Option Nat
  appraisalFirmId : Option Nat
  appraisalCompletedAt : Option Nat
  approvedForFinalOfferingAt : Option Nat
  postIpoStructuringCompletedAt : Option Nat
  workflowEventSequence : Nat
  deriving DecidableEq

structure SubmissionRevision where
  id : RevisionId
  caseId : CaseId
  revisionNumber : Nat
  submittedAt : Nat
  submittedByAccountId : AccountId
  deriving DecidableEq

inductive RequestStatus where
  | published | answered | withdrawn | expired
  deriving DecidableEq, Repr

structure InformationRequest where
  id : RequestId
  caseId : CaseId
  status : RequestStatus
  publishedAt : Nat
  dueAt : Nat
  resolvedAt : Option Nat
  resolvingRevisionId : Option RevisionId
  deriving DecidableEq

inductive ActorType where
  | staff | applicant | partner | system
  deriving DecidableEq, Repr

inductive EventType where
  | caseCreated | caseSubmitted | caseInformationRequested | caseResubmitted | caseInformationRequestWithdrawn
  | caseExpired | founderDecisionRecorded | handoffQueued | caseWithdrawn | caseRejected | partnerAssignmentChanged
  | casePostIpoStructuringStarted | legalStructuringUpdated | appraisalUpdated | caseApprovedForFinalOffering
  | correctionRequested | caseStageReverted
  deriving DecidableEq, Repr

/-- The texts that make an append idempotent, one constructor for each format. -/
inductive EventKey where
  | createdDraft (caseId : CaseId)
  | createdStaff (caseId : CaseId)
  | submitted (caseId : CaseId) (revisionId : RevisionId)
  | informationRequestPublished (caseId : CaseId) (requestId : RequestId)
  | informationRequestExpired (caseId : CaseId) (requestId : RequestId)
  | informationRequestWithdrawn (caseId : CaseId) (requestId : RequestId)
  | informationRequestResubmitted (caseId : CaseId) (requestId : RequestId) (revisionId : RevisionId)
  | founderDecision (caseId : CaseId) (decidedAt : Nat)
  | handoffQueued (caseId : CaseId) (jobId : Nat)
  | closed (caseId : CaseId) (closedAt : Nat) (outcome : CaseOutcome)
  | partnerAssignment (caseId : CaseId) (assignedAt : Nat) (legalPracticeId appraisalFirmId : Option Nat)
  | postIpoStructuring (caseId : CaseId) (traceId : TraceId)
  | legalStructuring (caseId : CaseId) (recordedAt : Nat) (traceId : TraceId)
  | appraisal (caseId : CaseId) (recordedAt : Nat) (traceId : TraceId)
  | correctionRequested (caseId : CaseId) (operationId : OperationId)
  | reversalCompleted (caseId : CaseId) (operationId : OperationId)
  deriving DecidableEq

structure AppendIntakeCaseEventInput where
  caseId : CaseId
  eventKey : EventKey
  eventType : EventType
  actorType : ActorType
  actorAccountId : Option AccountId
  transition : Option (Stage × Stage)
  reversalOfEventId : Option EventId
  occurredAt : Nat

structure CaseEvent where
  id : EventId
  caseId : CaseId
  eventSequence : Nat
  eventKey : EventKey
  eventType : EventType
  actorType : ActorType
  actorAccountId : Option AccountId
  transition : Option (Stage × Stage)
  reversalOfEventId : Option EventId
  occurredAt : Nat
  deriving DecidableEq

inductive ReversalCommand where
  | returnToDraft | withdrawInformationRequest | reopenPreOffering | reopenStructuring | reopenFinalOfferingReview
  deriving DecidableEq, Repr

inductive OperationStatus where
  | requested | pendingApproval | approved | executing | completed | failed | cancelled
  deriving DecidableEq, Repr

inductive ReversalFailureCode where
  | caseChanged | notAllowed | executionError
  deriving DecidableEq, Repr

structure ReversalOperation where
  id : OperationId
  caseId : CaseId
  command : ReversalCommand
  fromStage : Stage
  toStage : Stage
  status : OperationStatus
  requestedByAccountId : AccountId
  approvedByAccountId : Option AccountId
  expectedStage : Stage
  expectedWorkflowEventSequence : Nat
  reversalOfEventId : Option EventId
  idempotencyKey : String
  failureCode : Option ReversalFailureCode
  deriving DecidableEq

structure Piv where
  id : PivId
  propertyId : PropertyId
  caseId : CaseId
  deriving DecidableEq

/-- The payload of a `case_timers.pre_offering_open_handoff` job. -/
structure HandoffJob where
  caseId : CaseId
  propertyId : PropertyId
  ipoValueEur : Nat
  traceId : TraceId
  deriving DecidableEq

/-- The payload of a `case_timers.post_ipo_structuring_handoff` job. -/
structure StructuringJob where
  caseId : CaseId
  traceId : TraceId
  deriving DecidableEq

/-- The intake tables and the queues they feed, beside the offering module's tables. -/
structure Database where
  cases : List IntakeCase
  revisions : List SubmissionRevision
  informationRequests : List InformationRequest
  events : List CaseEvent
  operations : List ReversalOperation
  pivs : List Piv
  handoffs : List HandoffJob
  structuringJobs : List StructuringJob
  market : Offering.Database

inductive Failure where
  | caseReviewConflict (stage : Stage) (action : String)
  | caseSubmissionConflict (stage : Stage)
  | applicantAccountNotFound (accountId : AccountId)
  | caseNotFound (caseId : CaseId)
  | notPreOfferingOpen (stage : Stage)
  | ipoEndAtMissing (caseId : CaseId)
  | database (e : DatabaseError)
  deriving DecidableEq

/-- A transaction returns its result and the tables it leaves, or throws and leaves nothing. -/
abbrev Tx (α : Type) := Database → Except Failure (α × Database)

/-- `if (condition) throw e` -/
def throwIf (condition : Prop) [Decidable condition] (e : Failure) : Except Failure Unit :=
  if condition then .error e else .ok ()

theorem throwIf_ok [Decidable condition]
    (h : throwIf condition e = .ok u) : ¬ condition := by
  unfold throwIf at h
  split at h
  · cases h
  · assumption

theorem bind_ok {α β : Type} {x : Except Failure α} {f : α → Except Failure β} {b : β} (h : (x >>= f) = .ok b) :
    ∃ a, x = .ok a ∧ f a = .ok b := by
  cases x with
  | error => cases h
  | ok a => exact ⟨a, rfl, h⟩

def Database.intakeCase (w : Database) (id : CaseId) : Option IntakeCase := Table.find IntakeCase.id w.cases id

def Database.setCase (w : Database) (id : CaseId) (f : IntakeCase → IntakeCase) : Database :=
  { w with cases := Table.update IntakeCase.id w.cases id f }

def Database.informationRequest (w : Database) (caseId : CaseId) (id : RequestId) : Option InformationRequest :=
  (Table.find InformationRequest.id w.informationRequests id).filter fun r => r.caseId = caseId

def Database.setInformationRequest (w : Database) (id : RequestId) (f : InformationRequest → InformationRequest) :
    Database := { w with informationRequests := Table.update InformationRequest.id w.informationRequests id f }

/-- The table's checks: a transition changes the stage, and a reversal is a
transition that names an event nobody has reversed and that is no reversal itself. -/
def admissible (events : List CaseEvent) (input : AppendIntakeCaseEventInput) : Bool :=
  input.transition.all (fun t => t.1 ≠ t.2) && match input.reversalOfEventId with
    | none => true
    | some reversed =>
      input.transition.isSome && events.any (fun e => e.id = reversed ∧ e.reversalOfEventId = none) &&
        !events.any fun e => e.reversalOfEventId = some reversed

def appendIntakeCaseEvent (eventId : EventId) (input : AppendIntakeCaseEventInput) (w : Database) :
    Except Failure Database :=
  if w.events.any fun e => e.eventKey = input.eventKey then .ok w
  else match w.intakeCase input.caseId with
    | none => .error (.caseNotFound input.caseId)
    | some current =>
      if w.events.any fun e => e.id = eventId then .error (.database .uniqueViolation)
      else if admissible w.events input = false then .error (.database .checkViolation)
      else .ok { w.setCase input.caseId (fun c => { c with workflowEventSequence := c.workflowEventSequence + 1 }) with
        events := w.events ++ [⟨eventId, input.caseId, current.workflowEventSequence + 1, input.eventKey,
          input.eventType, input.actorType, input.actorAccountId, input.transition, input.reversalOfEventId,
          input.occurredAt⟩] }

section Submission

variable (fresh : Nat → Nat)

def newCase (id : CaseId) (propertyId : PropertyId) (applicantAccountId : AccountId) : IntakeCase where
  id := id
  propertyId := propertyId
  applicantAccountId := applicantAccountId
  stage := .draft
  currentSubmissionRevisionId := none
  approvedAt := none
  ipoEndAt := none
  ipoValueEur := none
  legalExecutionEventRefs := []
  legalPracticeId := none
  legalStructuringCompletedAt := none
  appraisalFirmId := none
  appraisalCompletedAt := none
  approvedForFinalOfferingAt := none
  postIpoStructuringCompletedAt := none
  workflowEventSequence := 0

/-- `property.create` and `intakeCase.create`; every property is created with a case. -/
def createCase (id : CaseId) (propertyId : PropertyId) (applicantAccountId : AccountId) (w : Database) :
    Except Failure Database :=
  if w.cases.any fun c => c.id = id ∨ c.propertyId = propertyId then .error (.database .uniqueViolation)
  else .ok { w with cases := w.cases ++ [newCase id propertyId applicantAccountId] }

def createRevision (revision : SubmissionRevision) (w : Database) : Except Failure Database :=
  if w.revisions.any fun r => r.id = revision.id ∨
      (r.caseId = revision.caseId ∧ r.revisionNumber = revision.revisionNumber) then
    .error (.database .uniqueViolation)
  else .ok { w with revisions := w.revisions ++ [revision] }

def createDraftIntake (accountId : AccountId) (createdAt : Nat) : Tx CaseId := fun w => do
  let caseId := fresh 1
  let w ← createCase caseId (fresh 0) accountId w
  let w ← appendIntakeCaseEvent (fresh 2)
    ⟨caseId, .createdDraft caseId, .caseCreated, .applicant, some accountId, none, none, createdAt⟩ w
  return (caseId, w)

def createStaffCase (staffAccountId applicantAccountId : AccountId) (submittedAt : Nat) : Tx CaseId := fun w => do
  let caseId := fresh 1
  let revisionId := fresh 2
  throwIf ((w.market.accounts applicantAccountId).isNone = true) (.applicantAccountNotFound applicantAccountId)
  let w ← createCase caseId (fresh 0) applicantAccountId w
  let w ← createRevision ⟨revisionId, caseId, 1, submittedAt, staffAccountId⟩ w
  let w := w.setCase caseId fun c => { c with
    stage := .submitted
    currentSubmissionRevisionId := some revisionId }
  let w ← appendIntakeCaseEvent (fresh 3)
    ⟨caseId, .createdStaff caseId, .caseCreated, .staff, some staffAccountId, none, none, submittedAt⟩ w
  let w ← appendIntakeCaseEvent (fresh 4)
    ⟨caseId, .submitted caseId revisionId, .caseSubmitted, .staff, some staffAccountId,
      some (.draft, .submitted), none, submittedAt⟩ w
  return (caseId, w)

def submitInitialCase (caseId : CaseId) (accountId : AccountId) (submittedAt : Nat) :
    Tx (Option RevisionId) := fun w =>
  match (w.intakeCase caseId).filter fun c => c.applicantAccountId = accountId with
  | none => .ok (none, w)
  | some current => do
    let revisionId := fresh 0
    throwIf (current.stage ≠ .draft ∨ current.currentSubmissionRevisionId ≠ none)
      (.caseSubmissionConflict current.stage)
    let w ← createRevision ⟨revisionId, caseId, 1, submittedAt, accountId⟩ w
    let w := w.setCase caseId fun c => { c with
      stage := .submitted
      currentSubmissionRevisionId := some revisionId }
    let w ← appendIntakeCaseEvent (fresh 1)
      ⟨caseId, .submitted caseId revisionId, .caseSubmitted, .applicant, some accountId,
        some (.draft, .submitted), none, submittedAt⟩ w
    return (some revisionId, w)

end Submission

section InformationRequests

variable (fresh : Nat → Nat)

def publishInformationRequest (caseId : CaseId) (accountId : AccountId) (publishedAt dueAt : Nat) :
    Tx (Option RequestId) := fun w =>
  match w.intakeCase caseId with
  | none => .ok (none, w)
  | some current => do
    let requestId := fresh 0
    throwIf (current.stage ≠ .submitted ∨ current.currentSubmissionRevisionId = none ∨
        (w.informationRequests.any fun r => r.caseId = caseId ∧ r.status = .published) = true)
      (.caseReviewConflict current.stage "publish an information request")
    throwIf ((w.informationRequests.any fun r => r.id = requestId) = true) (.database .uniqueViolation)
    let w : Database := { w with informationRequests := w.informationRequests ++
      [⟨requestId, caseId, .published, publishedAt, dueAt, none, none⟩] }
    let w := w.setCase caseId fun c => { c with stage := .waitingOnApplicant }
    let w ← appendIntakeCaseEvent (fresh 1)
      ⟨caseId, .informationRequestPublished caseId requestId, .caseInformationRequested, .staff, some accountId,
        some (.submitted, .waitingOnApplicant), none, publishedAt⟩ w
    return (some requestId, w)

/-- The request is answered by nobody any more. -/
def Database.resolveRequest (w : Database) (id : RequestId) (status : RequestStatus) (resolvedAt : Nat)
    (resolvingRevisionId : Option RevisionId) : Database :=
  w.setInformationRequest id fun r => { r with
    status := status
    resolvedAt := some resolvedAt
    resolvingRevisionId := resolvingRevisionId }

def awaitsAnswer (w : Database) (current : IntakeCase) (requestId : RequestId) : Bool :=
  current.stage = .waitingOnApplicant ∧
    (w.informationRequest current.id requestId).any fun r => r.status = .published

def expireInformationRequest (caseId : CaseId) (requestId : RequestId) (expiredAt : Nat)
    (manualOverride : Option AccountId) : Tx Bool := fun w =>
  match w.intakeCase caseId with
  | none => .ok (false, w)
  | some current =>
    if awaitsAnswer w current requestId = false then .ok (false, w)
    else do
      let w := w.resolveRequest requestId .expired expiredAt none
      let w := w.setCase caseId fun c => { c with stage := .expired }
      let actor := if manualOverride.isNone then ActorType.system else .staff
      let w ← appendIntakeCaseEvent (fresh 0)
        ⟨caseId, .informationRequestExpired caseId requestId, .caseExpired, actor, manualOverride,
          some (.waitingOnApplicant, .expired), none, expiredAt⟩ w
      return (true, w)

def withdrawInformationRequest (caseId : CaseId) (requestId : RequestId) (accountId : AccountId) (withdrawnAt : Nat) :
    Tx (Option Stage) := fun w =>
  match w.intakeCase caseId with
  | none => .ok (none, w)
  | some current => do
    throwIf (awaitsAnswer w current requestId = false)
      (.caseReviewConflict current.stage "withdraw this information request")
    let w := w.resolveRequest requestId .withdrawn withdrawnAt none
    let w := w.setCase caseId fun c => { c with stage := .submitted }
    let w ← appendIntakeCaseEvent (fresh 0)
      ⟨caseId, .informationRequestWithdrawn caseId requestId, .caseInformationRequestWithdrawn, .staff,
        some accountId, some (.waitingOnApplicant, .submitted), none, withdrawnAt⟩ w
    return (some .submitted, w)

def resubmitAfterInformationRequest (caseId : CaseId) (requestId : RequestId) (accountId : AccountId)
    (submittedAt : Nat) : Tx (Option RevisionId) := fun w =>
  match (w.intakeCase caseId).filter fun c => c.applicantAccountId = accountId with
  | none => .ok (none, w)
  | some current =>
    match current.currentSubmissionRevisionId.bind fun r => Table.find SubmissionRevision.id w.revisions r with
    | none => .error (.caseReviewConflict current.stage "resubmit this case")
    | some revision => do
      let revisionId := fresh 0
      throwIf (awaitsAnswer w current requestId = false) (.caseReviewConflict current.stage "resubmit this case")
      let w ← createRevision ⟨revisionId, caseId, revision.revisionNumber + 1, submittedAt, accountId⟩ w
      let w := w.resolveRequest requestId .answered submittedAt (some revisionId)
      let w := w.setCase caseId fun c => { c with
        stage := .submitted
        currentSubmissionRevisionId := some revisionId }
      let w ← appendIntakeCaseEvent (fresh 1)
        ⟨caseId, .informationRequestResubmitted caseId requestId revisionId, .caseResubmitted, .applicant,
          some accountId, some (.waitingOnApplicant, .submitted), none, submittedAt⟩ w
      return (some revisionId, w)

end InformationRequests

section Decisions

variable (fresh : Nat → Nat)

inductive FounderDecision where
  | approve (ipoEndAt ipoValueEur : Nat)
  | reject
  deriving DecidableEq

def FounderDecision.stage : FounderDecision → Stage
  | .approve .. => .preOfferingOpen
  | .reject => .rejected

structure FounderDecisionInput where
  caseId : CaseId
  accountId : AccountId
  decision : FounderDecision
  decidedAt : Nat
  traceId : TraceId

def applyDecision (input : FounderDecisionInput) (c : IntakeCase) : IntakeCase :=
  match input.decision with
  | .approve ipoEndAt ipoValueEur => { c with
    stage := .preOfferingOpen
    approvedAt := some input.decidedAt
    ipoEndAt := some ipoEndAt
    ipoValueEur := some ipoValueEur }
  | .reject => { c with stage := .rejected }

/-- The approval's job, in the same transaction. -/
def enqueueHandoff (input : FounderDecisionInput) (propertyId : PropertyId) (w : Database) : Database :=
  match input.decision with
  | .approve _ ipoValueEur =>
    { w with handoffs := w.handoffs ++ [⟨input.caseId, propertyId, ipoValueEur, input.traceId⟩] }
  | .reject => w

def recordFounderDecision (input : FounderDecisionInput) : Tx (Option Stage) := fun w =>
  match w.intakeCase input.caseId with
  | none => .ok (none, w)
  | some current => do
    throwIf (current.stage ≠ .submitted ∨ current.currentSubmissionRevisionId = none)
      (.caseReviewConflict current.stage "record a founder decision")
    let w := w.setCase input.caseId (applyDecision input)
    let w := enqueueHandoff input current.propertyId w
    let w ← appendIntakeCaseEvent (fresh 0)
      ⟨input.caseId, .founderDecision input.caseId input.decidedAt, .founderDecisionRecorded, .staff,
        some input.accountId, some (.submitted, input.decision.stage), none, input.decidedAt⟩ w
    match input.decision with
    | .reject => return (some .rejected, w)
    | .approve .. =>
      let w ← appendIntakeCaseEvent (fresh 1)
        ⟨input.caseId, .handoffQueued input.caseId (fresh 2), .handoffQueued, .system, none, none, none,
          input.decidedAt⟩ w
      return (some .preOfferingOpen, w)

structure CloseCaseInput where
  caseId : CaseId
  accountId : AccountId
  outcome : CaseOutcome
  closedAt : Nat

def CaseOutcome.eventType : CaseOutcome → EventType
  | .withdrawn => .caseWithdrawn
  | .rejected => .caseRejected

def closableFrom : CaseOutcome → List Stage
  | .withdrawn => [.draft, .submitted, .waitingOnApplicant, .preOfferingOpen]
  | .rejected => [.preOfferingOpen]

def closeCase (input : CloseCaseInput) : Tx (Option Stage) := fun w =>
  match w.intakeCase input.caseId with
  | none => .ok (none, w)
  | some current => do
    throwIf (current.stage ∉ closableFrom input.outcome) (.caseReviewConflict current.stage "close the case")
    let w := w.setCase input.caseId fun c => { c with stage := input.outcome.stage }
    let w ← appendIntakeCaseEvent (fresh 0)
      ⟨input.caseId, .closed input.caseId input.closedAt input.outcome, input.outcome.eventType, .staff,
        some input.accountId, some (current.stage, input.outcome.stage), none, input.closedAt⟩ w
    return (some input.outcome.stage, w)

end Decisions

section Structuring

variable (fresh : Nat → Nat)

def transitionToPostIpoStructuring (job : StructuringJob) (transitionedAt : Nat) : Tx Stage := fun w =>
  match w.intakeCase job.caseId with
  | none => .error (.caseNotFound job.caseId)
  | some current =>
    -- A redelivered job finds its transition already applied.
    if current.stage = .postIpoStructuring ∨ current.stage = .approvedForFinalOffering then .ok (current.stage, w)
    else do
      throwIf (current.stage ≠ .preOfferingOpen) (.notPreOfferingOpen current.stage)
      let w := w.setCase job.caseId fun c => { c with stage := .postIpoStructuring }
      let w ← appendIntakeCaseEvent (fresh 0)
        ⟨job.caseId, .postIpoStructuring job.caseId job.traceId, .casePostIpoStructuringStarted, .system, none,
          some (.preOfferingOpen, .postIpoStructuring), none, transitionedAt⟩ w
      return (.postIpoStructuring, w)

structure AssignPartnerInput where
  caseId : CaseId
  actorAccountId : AccountId
  legalPracticeId : Option (Option Nat)
  appraisalFirmId : Option (Option Nat)
  assignedAt : Nat

def assignPartnerOrganization (input : AssignPartnerInput) : Tx (Option (Option Nat × Option Nat)) := fun w =>
  match w.intakeCase input.caseId with
  | none => .ok (none, w)
  | some current => do
    throwIf (current.stage ≠ .postIpoStructuring ∧ current.stage ≠ .approvedForFinalOffering)
      (.caseReviewConflict current.stage "assign a legal practice or appraisal firm")
    let legalPracticeId := input.legalPracticeId.getD current.legalPracticeId
    let appraisalFirmId := input.appraisalFirmId.getD current.appraisalFirmId
    let w := w.setCase input.caseId fun c => { c with
      legalPracticeId := legalPracticeId
      appraisalFirmId := appraisalFirmId }
    let w ← appendIntakeCaseEvent (fresh 0)
      ⟨input.caseId, .partnerAssignment input.caseId input.assignedAt legalPracticeId appraisalFirmId,
        .partnerAssignmentChanged, .staff, some input.actorAccountId, none, none, input.assignedAt⟩ w
    return (some (legalPracticeId, appraisalFirmId), w)

structure WritebackInput where
  caseId : CaseId
  actorAccountId : AccountId
  markCompleted : Bool
  recordedAt : Nat
  traceId : TraceId

/-- The second completion approves the case. -/
def completeStructuring (bothComplete : Bool) (recordedAt : Nat) (c : IntakeCase) : IntakeCase :=
  if bothComplete then { c with
    stage := .approvedForFinalOffering
    approvedForFinalOfferingAt := some recordedAt
    postIpoStructuringCompletedAt := some recordedAt }
  else c

/-- The two writebacks, with the column, the key and the texts of one of them. -/
def recordWriteback (complete : Option Nat → IntakeCase → IntakeCase) (completedAt : IntakeCase → Option Nat)
    (other : IntakeCase → Option Nat) (eventKey : EventKey) (updated : EventType) (action : String)
    (input : WritebackInput) : Tx (Option Stage) := fun w =>
  match w.intakeCase input.caseId with
  | none => .ok (none, w)
  | some current => do
    throwIf (current.stage ≠ .postIpoStructuring) (.caseReviewConflict current.stage action)
    let completed := (completedAt current).or (if input.markCompleted then some input.recordedAt else none)
    let bothComplete := completed.isSome && (other current).isSome
    let w := w.setCase input.caseId fun c => completeStructuring bothComplete input.recordedAt (complete completed c)
    let w ← appendIntakeCaseEvent (fresh 0)
      ⟨input.caseId, eventKey, if bothComplete then .caseApprovedForFinalOffering else updated, .partner,
        some input.actorAccountId,
        if bothComplete then some (.postIpoStructuring, .approvedForFinalOffering) else none, none,
        input.recordedAt⟩ w
    return (some (if bothComplete then .approvedForFinalOffering else .postIpoStructuring), w)

def recordLegalStructuring (input : WritebackInput) : Tx (Option Stage) :=
  recordWriteback fresh (fun t c => { c with legalStructuringCompletedAt := t })
    IntakeCase.legalStructuringCompletedAt IntakeCase.appraisalCompletedAt
    (.legalStructuring input.caseId input.recordedAt input.traceId) .legalStructuringUpdated "record legal structuring"
    input

def recordAppraisal (input : WritebackInput) : Tx (Option Stage) :=
  recordWriteback fresh (fun t c => { c with appraisalCompletedAt := t })
    IntakeCase.appraisalCompletedAt IntakeCase.legalStructuringCompletedAt
    (.appraisal input.caseId input.recordedAt input.traceId) .appraisalUpdated "record an appraisal" input

end Structuring

end Intake
