import VistaBlox.IntakeMarket

/-!
# The steps of the intake
-/
namespace Intake

open Offering (AccountId OfferingId PivId OfferingRecord OfferingStatus)

variable {eventId : EventId} {input : AppendIntakeCaseEventInput}

section Appends

variable {w w' : Database}

def newEvent (eventId : EventId) (input : AppendIntakeCaseEventInput) (sequence : Nat) : CaseEvent :=
  ⟨eventId, input.caseId, sequence, input.eventKey, input.eventType, input.actorType, input.actorAccountId,
    input.transition, input.reversalOfEventId, input.occurredAt⟩

def counted (c : IntakeCase) : IntakeCase := { c with workflowEventSequence := c.workflowEventSequence + 1 }

/-- The event is numbered and appended. -/
def Database.appended (w : Database) (eventId : EventId) (input : AppendIntakeCaseEventInput) (sequence : Nat) :
    Database :=
  { w.setCase input.caseId counted with events := w.events ++ [newEvent eventId input sequence] }

/-- A key that is known appends nothing. -/
inductive Appends (eventId : EventId) (input : AppendIntakeCaseEventInput) (w : Database) : Database → Prop where
  | known {e : CaseEvent} (he : e ∈ w.events) (hkey : e.eventKey = input.eventKey) : Appends eventId input w w
  | new {current : IntakeCase} (hkey : ∀ e ∈ w.events, e.eventKey ≠ input.eventKey)
      (hfind : w.intakeCase input.caseId = some current) (hid : ∀ e ∈ w.events, e.id ≠ eventId)
      (hadmissible : admissible w.events input = true) :
      Appends eventId input w (w.appended eventId input (current.workflowEventSequence + 1))

theorem append_appends (h : appendIntakeCaseEvent eventId input w = .ok w') : Appends eventId input w w' := by
  unfold appendIntakeCaseEvent at h
  split at h
  · rename_i hknown
    cases h
    obtain ⟨e, he, hkey⟩ := List.any_eq_true.mp hknown
    exact .known he (of_decide_eq_true hkey)
  · rename_i hnew
    split at h
    · cases h
    · rename_i current hfind
      split_ifs at h with hid hadmissible
      cases h
      refine .new ?_ hfind ?_ (eq_true_of_ne_false hadmissible)
      · simpa using hnew
      · simpa using hid

theorem append_ok (hfind : w.intakeCase input.caseId = some c) (hid : ∀ e ∈ w.events, e.id ≠ eventId)
    (hadmissible : admissible w.events input = true) : ∃ w', appendIntakeCaseEvent eventId input w = .ok w' := by
  have hnew : ¬ (w.events.any fun e => e.id = eventId) = true := by simpa using hid
  unfold appendIntakeCaseEvent
  by_cases hknown : (w.events.any fun e => e.eventKey = input.eventKey) = true
  · rw [if_pos hknown]
    exact ⟨w, rfl⟩
  · rw [if_neg hknown, hfind]
    dsimp only
    rw [if_neg hnew, if_neg (by simp [hadmissible])]
    exact ⟨_, rfl⟩

end Appends

section Rows

variable {w w' : Database} {accountId : AccountId}

def Database.withCase (w : Database) (c : IntakeCase) : Database := { w with cases := w.cases ++ [c] }

def Database.withRevision (w : Database) (r : SubmissionRevision) :
    Database := { w with revisions := w.revisions ++ [r] }

/-- The revision breaks no unique constraint. -/
def Database.Accepts (w : Database) (revision : SubmissionRevision) : Prop :=
  ∀ r ∈ w.revisions, r.id ≠ revision.id ∧ (r.caseId = revision.caseId → r.revisionNumber ≠ revision.revisionNumber)

def atStage (stage : Stage) (c : IntakeCase) : IntakeCase := { c with stage := stage }

def submittedWith (revisionId : RevisionId) (c : IntakeCase) : IntakeCase :=
  { c with stage := .submitted, currentSubmissionRevisionId := some revisionId }

theorem createCase_ok {id : CaseId} {propertyId : PropertyId} (h : createCase id propertyId accountId w = .ok w') :
    (∀ c ∈ w.cases, c.id ≠ id ∧ c.propertyId ≠ propertyId) ∧ w' = w.withCase (newCase id propertyId accountId) := by
  unfold createCase at h
  split_ifs at h with hnew
  cases h
  exact ⟨by simpa using hnew, rfl⟩

theorem createRevision_ok (h : createRevision revision w = .ok w') :
    w.Accepts revision ∧ w' = w.withRevision revision := by
  unfold createRevision at h
  split_ifs at h with hnew
  cases h
  exact ⟨by simpa [Database.Accepts] using hnew, rfl⟩

end Rows

section Steps

/-- The two writebacks, as operations. -/
inductive Writes (fresh : Nat → Nat) (input : WritebackInput) : Operation → (Option Nat → IntakeCase → IntakeCase) →
    (IntakeCase → Option Nat) → (IntakeCase → Option Nat) → EventKey → EventType → Prop where
  | legal : Writes fresh input (.recordLegalStructuring fresh input)
      (fun t c => { c with legalStructuringCompletedAt := t }) IntakeCase.legalStructuringCompletedAt
      IntakeCase.appraisalCompletedAt (.legalStructuring input.caseId input.recordedAt input.traceId)
      .legalStructuringUpdated
  | appraisal : Writes fresh input (.recordAppraisal fresh input) (fun t c => { c with appraisalCompletedAt := t })
      IntakeCase.appraisalCompletedAt IntakeCase.legalStructuringCompletedAt
      (.appraisal input.caseId input.recordedAt input.traceId) .appraisalUpdated

/-- What a step does to the tables of the intake. -/
inductive CaseStep (w : Database) : Operation → Database → Prop where
  | outside (h : SameIntake w w') (hmarket : MarketStep w op w'.links) :
      CaseStep w op w'
  | draft {fresh : Nat → Nat} (hnew : ∀ c ∈ w.cases, c.id ≠ fresh 1 ∧ c.propertyId ≠ fresh 0)
      (happend : Appends (fresh 2) ⟨fresh 1, .createdDraft (fresh 1), .caseCreated, .applicant, some accountId, none,
        none, createdAt⟩ (w.withCase (newCase (fresh 1) (fresh 0) accountId)) w') :
      CaseStep w (.createDraftIntake fresh accountId createdAt) w'
  | staff {fresh : Nat → Nat} {staff applicant : AccountId} {submittedAt : Nat} {w₁ w' : Database}
      (hnew : ∀ c ∈ w.cases, c.id ≠ fresh 1 ∧ c.propertyId ≠ fresh 0)
      (hrevision : w.Accepts ⟨fresh 2, fresh 1, 1, submittedAt, staff⟩)
      (hcreated : Appends (fresh 3) ⟨fresh 1, .createdStaff (fresh 1), .caseCreated, .staff, some staff, none, none,
        submittedAt⟩
        (((w.withCase (newCase (fresh 1) (fresh 0) applicant)).withRevision
          ⟨fresh 2, fresh 1, 1, submittedAt, staff⟩).setCase (fresh 1) (submittedWith (fresh 2))) w₁)
      (happend : Appends (fresh 4) ⟨fresh 1, .submitted (fresh 1) (fresh 2), .caseSubmitted, .staff, some staff,
        some (.draft, .submitted), none, submittedAt⟩ w₁ w') :
      CaseStep w (.createStaffCase fresh staff applicant submittedAt) w'
  | submit {fresh : Nat → Nat} (hfind : w.intakeCase caseId = some current)
      (howner : current.applicantAccountId = accountId) (hstage : current.stage = .draft)
      (hnone : current.currentSubmissionRevisionId = none)
      (hrevision : w.Accepts ⟨fresh 0, caseId, 1, submittedAt, accountId⟩)
      (happend : Appends (fresh 1) ⟨caseId, .submitted caseId (fresh 0), .caseSubmitted, .applicant, some accountId,
        some (.draft, .submitted), none, submittedAt⟩
        ((w.withRevision ⟨fresh 0, caseId, 1, submittedAt, accountId⟩).setCase caseId (submittedWith (fresh 0))) w') :
      CaseStep w (.submitInitialCase fresh caseId accountId submittedAt) w'
  | publish {fresh : Nat → Nat} (hfind : w.intakeCase caseId = some current) (hstage : current.stage = .submitted)
      (hrevision : current.currentSubmissionRevisionId ≠ none)
      (hnone : ∀ r ∈ w.informationRequests, r.caseId = caseId → r.status ≠ .published)
      (hnew : ∀ r ∈ w.informationRequests, r.id ≠ fresh 0)
      (happend : Appends (fresh 1) ⟨caseId, .informationRequestPublished caseId (fresh 0), .caseInformationRequested,
        .staff, some accountId, some (.submitted, .waitingOnApplicant), none, publishedAt⟩
        (Database.setCase { w with informationRequests := w.informationRequests ++
          [⟨fresh 0, caseId, .published, publishedAt, dueAt, none, none⟩] } caseId
          (atStage .waitingOnApplicant)) w') :
      CaseStep w (.publishInformationRequest fresh caseId accountId publishedAt dueAt) w'
  | expire {fresh : Nat → Nat} (hfind : w.intakeCase caseId = some current)
      (hawaits : awaitsAnswer w current requestId = true)
      (happend : Appends (fresh 0) ⟨caseId, .informationRequestExpired caseId requestId, .caseExpired, actor,
        manualOverride, some (.waitingOnApplicant, .expired), none, expiredAt⟩
        ((w.resolveRequest requestId .expired expiredAt none).setCase caseId (atStage .expired)) w') :
      CaseStep w (.expireInformationRequest fresh caseId requestId expiredAt manualOverride) w'
  | withdraw {fresh : Nat → Nat} (hfind : w.intakeCase caseId = some current)
      (hawaits : awaitsAnswer w current requestId = true)
      (happend : Appends (fresh 0) ⟨caseId, .informationRequestWithdrawn caseId requestId,
        .caseInformationRequestWithdrawn, .staff, some accountId, some (.waitingOnApplicant, .submitted), none,
        withdrawnAt⟩ ((w.resolveRequest requestId .withdrawn withdrawnAt none).setCase caseId
          (atStage .submitted)) w') :
      CaseStep w (.withdrawInformationRequest fresh caseId requestId accountId withdrawnAt) w'
  | resubmit {fresh : Nat → Nat} (hfind : w.intakeCase caseId = some current)
      (howner : current.applicantAccountId = accountId)
      (hcurrent : (current.currentSubmissionRevisionId.bind fun r =>
        Table.find SubmissionRevision.id w.revisions r) = some revision)
      (hawaits : awaitsAnswer w current requestId = true)
      (hrevision : w.Accepts ⟨fresh 0, caseId, revision.revisionNumber + 1, submittedAt, accountId⟩)
      (happend : Appends (fresh 1) ⟨caseId, .informationRequestResubmitted caseId requestId (fresh 0),
        .caseResubmitted, .applicant, some accountId, some (.waitingOnApplicant, .submitted), none, submittedAt⟩
        (((w.withRevision ⟨fresh 0, caseId, revision.revisionNumber + 1, submittedAt, accountId⟩).resolveRequest
          requestId .answered submittedAt (some (fresh 0))).setCase caseId (submittedWith (fresh 0))) w') :
      CaseStep w (.resubmitAfterInformationRequest fresh caseId requestId accountId submittedAt) w'
  | reject {fresh : Nat → Nat} {input : FounderDecisionInput} (hfind : w.intakeCase input.caseId = some current)
      (hstage : current.stage = .submitted) (hdecision : input.decision = .reject)
      (happend : Appends (fresh 0) ⟨input.caseId, .founderDecision input.caseId input.decidedAt,
        .founderDecisionRecorded, .staff, some input.accountId, some (.submitted, .rejected), none, input.decidedAt⟩
        (w.setCase input.caseId (atStage .rejected)) w') :
      CaseStep w (.recordFounderDecision fresh input) w'
  | approve {fresh : Nat → Nat} {input : FounderDecisionInput} (hfind : w.intakeCase input.caseId = some current)
      (hstage : current.stage = .submitted) (hrevision : current.currentSubmissionRevisionId ≠ none)
      (hdecision : input.decision = .approve ipoEndAt ipoValueEur)
      (happend : Appends (fresh 0) ⟨input.caseId, .founderDecision input.caseId input.decidedAt,
        .founderDecisionRecorded, .staff, some input.accountId, some (.submitted, .preOfferingOpen), none,
        input.decidedAt⟩
        { w.setCase input.caseId (fun c => { c with
            stage := .preOfferingOpen
            approvedAt := some input.decidedAt
            ipoEndAt := some ipoEndAt
            ipoValueEur := some ipoValueEur }) with
          handoffs := w.handoffs ++ [⟨input.caseId, current.propertyId, ipoValueEur, input.traceId⟩] } w₁)
      (hqueued : Appends (fresh 1) ⟨input.caseId, .handoffQueued input.caseId (fresh 2), .handoffQueued, .system, none,
        none, none, input.decidedAt⟩ w₁ w') : CaseStep w (.recordFounderDecision fresh input) w'
  | close {fresh : Nat → Nat} {input : CloseCaseInput} (hfind : w.intakeCase input.caseId = some current)
      (hstage : current.stage ∈ closableFrom input.outcome)
      (happend : Appends (fresh 0) ⟨input.caseId, .closed input.caseId input.closedAt input.outcome,
        input.outcome.eventType, .staff, some input.accountId, some (current.stage, input.outcome.stage), none,
        input.closedAt⟩ (w.setCase input.caseId (atStage input.outcome.stage)) w') :
      CaseStep w (.closeCase fresh input) w'
  | assign {fresh : Nat → Nat} {input : AssignPartnerInput} (hfind : w.intakeCase input.caseId = some current)
      (hstage : current.stage = .postIpoStructuring ∨ current.stage = .approvedForFinalOffering)
      (happend : Appends (fresh 0) ⟨input.caseId, .partnerAssignment input.caseId input.assignedAt
        (input.legalPracticeId.getD current.legalPracticeId) (input.appraisalFirmId.getD current.appraisalFirmId),
        .partnerAssignmentChanged, .staff, some input.actorAccountId, none, none, input.assignedAt⟩
        (w.setCase input.caseId fun c => { c with
          legalPracticeId := input.legalPracticeId.getD current.legalPracticeId
          appraisalFirmId := input.appraisalFirmId.getD current.appraisalFirmId }) w') :
      CaseStep w (.assignPartnerOrganization fresh input) w'
  | writeback {op : Operation} {fresh : Nat → Nat} {input : WritebackInput}
      {complete : Option Nat → IntakeCase → IntakeCase} {completedAt other : IntakeCase → Option Nat}
      {eventKey : EventKey} {updated : EventType} {current : IntakeCase} {completed : Option Nat} {both : Bool}
      {w' : Database} (hkind : Writes fresh input op complete completedAt other eventKey updated)
      (hfind : w.intakeCase input.caseId = some current) (hstage : current.stage = .postIpoStructuring)
      (hcompleted : completed = (completedAt current).or (if input.markCompleted then some input.recordedAt else none))
      (hboth : both = (completed.isSome && (other current).isSome))
      (happend : Appends (fresh 0) ⟨input.caseId, eventKey, if both then .caseApprovedForFinalOffering else updated,
        .partner, some input.actorAccountId,
        if both then some (.postIpoStructuring, .approvedForFinalOffering) else none, none, input.recordedAt⟩
        (w.setCase input.caseId fun c => completeStructuring both input.recordedAt (complete completed c)) w') :
      CaseStep w op w'
  | handoff {fresh : Nat → Nat} {job : StructuringJob} (hjob : job ∈ w.structuringJobs)
      (hfind : w.intakeCase job.caseId = some current) (hstage : current.stage = .preOfferingOpen)
      (happend : Appends (fresh 0) ⟨job.caseId, .postIpoStructuring job.caseId job.traceId,
        .casePostIpoStructuringStarted, .system, none, some (.preOfferingOpen, .postIpoStructuring), none,
        transitionedAt⟩ (w.setCase job.caseId (atStage .postIpoStructuring)) w') :
      CaseStep w (.postIpoStructuringHandoff fresh job transitionedAt) w'
  | request {fresh : Nat → Nat} {input : CreateReversalOperationInput}
      (hkey : ∀ o ∈ w.operations, o.caseId = input.caseId → o.idempotencyKey ≠ input.idempotencyKey)
      (hfind : w.intakeCase input.caseId = some current) (hstage : current.stage = input.expectedStage)
      (hsequence : current.workflowEventSequence = input.expectedWorkflowEventSequence)
      (hnew : ∀ o ∈ w.operations, o.id ≠ fresh 0)
      (happend : Appends (fresh 1) ⟨input.caseId, .correctionRequested input.caseId (fresh 0), .correctionRequested,
        .staff, some input.requestedByAccountId, none, none, input.requestedAt⟩
        { w with operations := w.operations ++ [newOperation (fresh 0) input] } w') :
      CaseStep w (.createReversalOperation fresh input) w'
  | claim (hoperation : w.reversalOperation caseId operationId = some operation)
      (hstatus : operation.status = .pendingApproval) (hother : operation.requestedByAccountId ≠ approver) :
      CaseStep w (.approveReversalOperation caseId operationId approver) (w.setOperation operationId fun o => { o with
        status := .approved
        approvedByAccountId := some approver })
  | fail {fresh : Nat → Nat} {input : ExecuteReversalInput}
      (hoperation : w.reversalOperation input.caseId input.operationId = some operation)
      (hstatus : operation.status = .requested ∨ operation.status = .approved ∨ operation.status = .executing) :
      CaseStep w (.executeReversalOperation fresh input) (w.setOperation operation.id fun o => { o with
        status := .failed
        failureCode := some code })
  | execute {fresh : Nat → Nat} {input : ExecuteReversalInput} {operation : ReversalOperation} {current : IntakeCase}
      {snapshot : ReversalSnapshot} {action : ReversalAction} {executed w' : Database}
      (hoperation : w.reversalOperation input.caseId input.operationId = some operation)
      (hfind : w.intakeCase input.caseId = some current)
      (hstatus : operation.status = .requested ∨ operation.status = .approved)
      (hstage : current.stage = operation.expectedStage)
      (hsequence : current.workflowEventSequence = operation.expectedWorkflowEventSequence)
      (hsnapshot : loadReversalSnapshot w input.caseId (some operation.id) = some snapshot)
      (haction : getReversalAction snapshot operation.command = some action)
      (hexecute : executeCommand input.caseId ((w.caseOffering input.caseId).map OfferingRecord.id) w
        operation.command = some executed)
      (happend : Appends (fresh 0) ⟨input.caseId, .reversalCompleted input.caseId operation.id, .caseStageReverted,
        .staff, some input.actorAccountId, some (operation.fromStage, operation.toStage), operation.reversalOfEventId,
        input.completedAt⟩ executed w') :
      CaseStep w (.executeReversalOperation fresh input) (w'.setOperation operation.id fun o => { o with
        status := .completed })

variable {w w' : Database} {op : Operation} {fresh : Nat → Nat} {caseId : CaseId} {accountId : AccountId}
  {requestId : RequestId} {submittedAt : Nat} {r : Option Stage}

theorem CaseStep.idle : CaseStep w op w := .outside (.refl w) .same

theorem commit_caseStep {α : Type} {tx : Tx α} (h : ∀ r w', tx w = .ok (r, w') → CaseStep w op w') :
    CaseStep w op (commit tx w) := by
  unfold commit
  split
  · rename_i r w' htx
    exact h r w' htx
  · exact .idle

theorem createDraftIntake_caseStep {createdAt : Nat} {r : CaseId}
    (h : createDraftIntake fresh accountId createdAt w = .ok (r, w')) :
    CaseStep w (.createDraftIntake fresh accountId createdAt) w' := by
  obtain ⟨w₁, hcreate, h⟩ := bind_ok h
  obtain ⟨w₂, happend, h⟩ := bind_ok h
  cases h
  obtain ⟨hnew, rfl⟩ := createCase_ok hcreate
  exact .draft hnew (append_appends happend)

theorem createStaffCase_caseStep {staff applicant : AccountId} {r : CaseId}
    (h : createStaffCase fresh staff applicant submittedAt w = .ok (r, w')) :
    CaseStep w (.createStaffCase fresh staff applicant submittedAt) w' := by
  obtain ⟨_, _, h⟩ := bind_ok h
  obtain ⟨w₁, hcreate, h⟩ := bind_ok h
  obtain ⟨w₂, hrevision, h⟩ := bind_ok h
  obtain ⟨w₃, hcreated, h⟩ := bind_ok h
  obtain ⟨w₄, hsubmitted, h⟩ := bind_ok h
  cases h
  obtain ⟨hnew, rfl⟩ := createCase_ok hcreate
  obtain ⟨haccepts, rfl⟩ := createRevision_ok hrevision
  exact .staff hnew haccepts (append_appends hcreated) (append_appends hsubmitted)

theorem submitInitialCase_caseStep {r : Option RevisionId}
    (h : submitInitialCase fresh caseId accountId submittedAt w = .ok (r, w')) :
    CaseStep w (.submitInitialCase fresh caseId accountId submittedAt) w' := by
  unfold submitInitialCase at h
  split at h
  · cases h
    exact .idle
  · rename_i current hfilter
    obtain ⟨hfind, howner⟩ := Option.filter_eq_some_iff.mp hfilter
    obtain ⟨_, hstage, h⟩ := bind_ok h
    obtain ⟨w₁, hrevision, h⟩ := bind_ok h
    obtain ⟨w₂, happend, h⟩ := bind_ok h
    cases h
    obtain ⟨hdraft, hnone⟩ := not_or.mp (throwIf_ok hstage)
    obtain ⟨haccepts, rfl⟩ := createRevision_ok hrevision
    exact .submit hfind (of_decide_eq_true howner) (not_not.mp hdraft) (not_not.mp hnone) haccepts
      (append_appends happend)

theorem publishInformationRequest_caseStep {publishedAt dueAt : Nat} {r : Option RequestId}
    (h : publishInformationRequest fresh caseId accountId publishedAt dueAt w = .ok (r, w')) :
    CaseStep w (.publishInformationRequest fresh caseId accountId publishedAt dueAt) w' := by
  unfold publishInformationRequest at h
  split at h
  · cases h
    exact .idle
  · rename_i current hfind
    obtain ⟨_, hstage, h⟩ := bind_ok h
    obtain ⟨_, hnew, h⟩ := bind_ok h
    obtain ⟨w₁, happend, h⟩ := bind_ok h
    cases h
    obtain ⟨hsubmitted, hrest⟩ := not_or.mp (throwIf_ok hstage)
    obtain ⟨hrevision, hnone⟩ := not_or.mp hrest
    refine .publish hfind (not_not.mp hsubmitted) hrevision ?_ ?_ (append_appends happend)
    · simpa using hnone
    · simpa using throwIf_ok hnew

theorem expireInformationRequest_caseStep {expiredAt : Nat} {manualOverride : Option AccountId} {r : Bool}
    (h : expireInformationRequest fresh caseId requestId expiredAt manualOverride w = .ok (r, w')) :
    CaseStep w (.expireInformationRequest fresh caseId requestId expiredAt manualOverride) w' := by
  unfold expireInformationRequest at h
  split at h
  · cases h
    exact .idle
  · rename_i current hfind
    split at h
    · cases h
      exact .idle
    · rename_i hawaits
      obtain ⟨w₁, happend, h⟩ := bind_ok h
      cases h
      exact .expire hfind (eq_true_of_ne_false hawaits) (append_appends happend)

theorem withdrawInformationRequest_caseStep
    (h : withdrawInformationRequest fresh caseId requestId accountId withdrawnAt w = .ok (r, w')) :
    CaseStep w (.withdrawInformationRequest fresh caseId requestId accountId withdrawnAt) w' := by
  unfold withdrawInformationRequest at h
  split at h
  · cases h
    exact .idle
  · rename_i current hfind
    obtain ⟨_, hawaits, h⟩ := bind_ok h
    obtain ⟨w₁, happend, h⟩ := bind_ok h
    cases h
    exact .withdraw hfind (eq_true_of_ne_false (throwIf_ok hawaits)) (append_appends happend)

theorem resubmitAfterInformationRequest_caseStep {r : Option RevisionId}
    (h : resubmitAfterInformationRequest fresh caseId requestId accountId submittedAt w = .ok (r, w')) :
    CaseStep w (.resubmitAfterInformationRequest fresh caseId requestId accountId submittedAt) w' := by
  unfold resubmitAfterInformationRequest at h
  split at h
  · cases h
    exact .idle
  · rename_i current hfilter
    obtain ⟨hfind, howner⟩ := Option.filter_eq_some_iff.mp hfilter
    split at h
    · cases h
    · rename_i revision hrevision
      obtain ⟨_, hawaits, h⟩ := bind_ok h
      obtain ⟨w₁, hcreate, h⟩ := bind_ok h
      obtain ⟨w₂, happend, h⟩ := bind_ok h
      cases h
      obtain ⟨haccepts, rfl⟩ := createRevision_ok hcreate
      exact .resubmit hfind (of_decide_eq_true howner) hrevision (eq_true_of_ne_false (throwIf_ok hawaits)) haccepts
        (append_appends happend)

theorem recordFounderDecision_caseStep {input : FounderDecisionInput}
    (h : recordFounderDecision fresh input w = .ok (r, w')) :
    CaseStep w (.recordFounderDecision fresh input) w' := by
  unfold recordFounderDecision at h
  split at h
  · cases h
    exact .idle
  · rename_i current hfind
    obtain ⟨_, hstage, h⟩ := bind_ok h
    obtain ⟨w₁, hdecided, h⟩ := bind_ok h
    obtain ⟨hsubmitted, hrevision⟩ := not_or.mp (throwIf_ok hstage)
    have happend := append_appends hdecided
    unfold enqueueHandoff applyDecision at happend
    cases hdecision : input.decision with
    | reject =>
      rw [hdecision] at h
      cases h
      simp only [hdecision, FounderDecision.stage] at happend
      exact .reject hfind (not_not.mp hsubmitted) hdecision happend
    | approve =>
      rw [hdecision] at h
      obtain ⟨w₂, hqueued, h⟩ := bind_ok h
      cases h
      simp only [hdecision, FounderDecision.stage] at happend
      exact .approve hfind (not_not.mp hsubmitted) hrevision hdecision happend (append_appends hqueued)

theorem closeCase_caseStep {input : CloseCaseInput} (h : closeCase fresh input w = .ok (r, w')) :
    CaseStep w (.closeCase fresh input) w' := by
  unfold closeCase at h
  split at h
  · cases h
    exact .idle
  · rename_i current hfind
    obtain ⟨_, hstage, h⟩ := bind_ok h
    obtain ⟨w₁, happend, h⟩ := bind_ok h
    cases h
    exact .close hfind (not_not.mp (throwIf_ok hstage)) (append_appends happend)

theorem assignPartnerOrganization_caseStep {input : AssignPartnerInput} {r : Option (Option Nat × Option Nat)}
    (h : assignPartnerOrganization fresh input w = .ok (r, w')) :
    CaseStep w (.assignPartnerOrganization fresh input) w' := by
  unfold assignPartnerOrganization at h
  split at h
  · cases h
    exact .idle
  · rename_i current hfind
    obtain ⟨_, hstage, h⟩ := bind_ok h
    obtain ⟨w₁, happend, h⟩ := bind_ok h
    cases h
    refine .assign hfind ?_ (append_appends happend)
    by_contra hother
    obtain ⟨hpost, happroved⟩ := not_or.mp hother
    exact throwIf_ok hstage ⟨hpost, happroved⟩

theorem recordWriteback_caseStep {complete : Option Nat → IntakeCase → IntakeCase}
    {completedAt other : IntakeCase → Option Nat} {eventKey : EventKey} {updated : EventType} {action : String}
    {input : WritebackInput} (hkind : Writes fresh input op complete completedAt other eventKey updated)
    (h : recordWriteback fresh complete completedAt other eventKey updated action input w = .ok (r, w')) :
    CaseStep w op w' := by
  unfold recordWriteback at h
  split at h
  · cases h
    exact .idle
  · rename_i current hfind
    obtain ⟨_, hstage, h⟩ := bind_ok h
    obtain ⟨w₁, happend, h⟩ := bind_ok h
    cases h
    exact .writeback hkind hfind (not_not.mp (throwIf_ok hstage)) rfl rfl (append_appends happend)

theorem transitionToPostIpoStructuring_caseStep {job : StructuringJob} {transitionedAt : Nat} {r : Stage}
    (hjob : job ∈ w.structuringJobs) (h : transitionToPostIpoStructuring fresh job transitionedAt w = .ok (r, w')) :
    CaseStep w (.postIpoStructuringHandoff fresh job transitionedAt) w' := by
  unfold transitionToPostIpoStructuring at h
  split at h
  · cases h
  · rename_i current hfind
    split at h
    · cases h
      exact .idle
    · obtain ⟨_, hstage, h⟩ := bind_ok h
      obtain ⟨w₁, happend, h⟩ := bind_ok h
      cases h
      exact .handoff hjob hfind (not_not.mp (throwIf_ok hstage)) (append_appends happend)

theorem createReversalOperation_caseStep {input : CreateReversalOperationInput} {r : ReversalOperation}
    (h : createReversalOperation fresh input w = .ok (r, w')) :
    CaseStep w (.createReversalOperation fresh input) w' := by
  unfold createReversalOperation at h
  split at h
  · cases h
    exact .idle
  · rename_i hkey
    split at h
    · cases h
    · rename_i current hfind
      obtain ⟨_, hexpected, h⟩ := bind_ok h
      obtain ⟨_, hnew, h⟩ := bind_ok h
      obtain ⟨w₁, happend, h⟩ := bind_ok h
      cases h
      obtain ⟨hstage, hsequence⟩ := not_or.mp (throwIf_ok hexpected)
      refine .request ?_ hfind (not_not.mp hstage) (not_not.mp hsequence) ?_ (append_appends happend)
      · simpa using hkey
      · have hid : (newOperation (fresh 0) input).id = fresh 0 := rfl
        simpa [hid] using throwIf_ok hnew

theorem approveReversalOperation_caseStep {operationId : OperationId} {approver : AccountId}
    {r : Option ReversalOperation} (h : approveReversalOperation caseId operationId approver w = .ok (r, w')) :
    CaseStep w (.approveReversalOperation caseId operationId approver) w' := by
  unfold approveReversalOperation at h
  split at h
  · cases h
    exact .idle
  · rename_i operation hoperation
    split_ifs at h with hagain hpending
    · cases h
      exact .idle
    · cases h
      exact .claim hoperation hpending.1 hpending.2

theorem failReversalOperation_caseStep {input : ExecuteReversalInput} {operation : ReversalOperation}
    (hoperation : w.reversalOperation input.caseId input.operationId = some operation) (code : ReversalFailureCode) :
    CaseStep w (.executeReversalOperation fresh input) (failReversalOperation operation code w).2 := by
  obtain ⟨hfind, hcase⟩ := Option.filter_eq_some_iff.mp hoperation
  obtain ⟨-, hid⟩ := Table.find_some hfind
  have hself : w.reversalOperation operation.caseId operation.id = some operation := by
    rw [hid, of_decide_eq_true hcase]
    exact hoperation
  unfold failReversalOperation
  rw [hself]
  split
  · exact .idle
  · rename_i current hcurrent
    obtain ⟨hsame, hstatus⟩ := Option.filter_eq_some_iff.mp hcurrent
    cases hsame
    exact .fail hoperation (of_decide_eq_true hstatus)

theorem runReversalExecution_caseStep {input : ExecuteReversalInput} {r : Option ReversalOperation}
    (h : runReversalExecution fresh input w = .ok (r, w')) : CaseStep w (.executeReversalOperation fresh input)
    w' := by
  unfold runReversalExecution at h
  split at h
  · rename_i operation current hoperation hfind
    have hfail : ∀ {code}, Except.ok (failReversalOperation operation code w) = (.ok (r, w') : Except Failure _) →
        CaseStep w (.executeReversalOperation fresh input) w' := by
      intro code heq
      rw [← show (failReversalOperation operation code w).2 = w' from congrArg Prod.snd (Except.ok.inj heq)]
      exact failReversalOperation_caseStep hoperation code
    split_ifs at h with hstatus hchanged
    · cases h
      exact .idle
    · exact hfail h
    · dsimp only at h
      split at h
      · rename_i action executed hallowed hexecuted
        obtain ⟨w₁, happend, h⟩ := bind_ok h
        cases h
        obtain ⟨snapshot, hsnapshot, haction⟩ := Option.bind_eq_some_iff.mp hallowed
        obtain ⟨hstage, hsequence⟩ := not_or.mp hchanged
        refine .execute hoperation hfind ?_ (not_not.mp hstage) (not_not.mp hsequence) hsnapshot haction hexecuted
          (append_appends happend)
        by_contra hother
        exact hstatus (not_or.mp hother)
      · exact hfail h
  · cases h
    exact .idle

theorem executeReversalOperation_caseStep (input : ExecuteReversalInput) :
    CaseStep w (.executeReversalOperation fresh input) (executeReversalOperation fresh input w).2 := by
  unfold executeReversalOperation
  split
  · rename_i r w' hrun
    exact runReversalExecution_caseStep hrun
  · split
    · exact .idle
    · rename_i operation hoperation
      exact failReversalOperation_caseStep hoperation .executionError

/-- Every operation makes one of the changes that `CaseStep` lists. -/
theorem step_caseStep (w : Database) (op : Operation) : CaseStep w op (w.step op) := by
  cases op with
  | createDraftIntake => exact commit_caseStep fun _ _ => createDraftIntake_caseStep
  | createStaffCase => exact commit_caseStep fun _ _ => createStaffCase_caseStep
  | submitInitialCase => exact commit_caseStep fun _ _ => submitInitialCase_caseStep
  | publishInformationRequest => exact commit_caseStep fun _ _ => publishInformationRequest_caseStep
  | expireInformationRequest => exact commit_caseStep fun _ _ => expireInformationRequest_caseStep
  | withdrawInformationRequest => exact commit_caseStep fun _ _ => withdrawInformationRequest_caseStep
  | resubmitAfterInformationRequest => exact commit_caseStep fun _ _ => resubmitAfterInformationRequest_caseStep
  | recordFounderDecision => exact commit_caseStep fun _ _ => recordFounderDecision_caseStep
  | closeCase => exact commit_caseStep fun _ _ => closeCase_caseStep
  | assignPartnerOrganization => exact commit_caseStep fun _ _ => assignPartnerOrganization_caseStep
  | recordLegalStructuring => exact commit_caseStep fun _ _ => recordWriteback_caseStep .legal
  | recordAppraisal => exact commit_caseStep fun _ _ => recordWriteback_caseStep .appraisal
  | createReversalOperation => exact commit_caseStep fun _ _ => createReversalOperation_caseStep
  | approveReversalOperation => exact commit_caseStep fun _ _ => approveReversalOperation_caseStep
  | executeReversalOperation fresh input => exact executeReversalOperation_caseStep input
  | preOfferingOpenHandoff =>
    simp only [Database.step]
    split
    · rename_i hjob
      refine commit_caseStep fun _ _ h => ?_
      obtain ⟨hsame, hmarket⟩ := openOfferingForApprovedCase_market hjob h
      exact .outside hsame hmarket
    · exact .idle
  | postIpoStructuringHandoff =>
    simp only [Database.step]
    split
    · rename_i hjob
      exact commit_caseStep fun _ _ => transitionToPostIpoStructuring_caseStep hjob
    · exact .idle
  | publishFinalOfferingTerms fresh o publishedAt traceId =>
    obtain ⟨hsame, hmarket⟩ := publishFinalOfferingTerms_market o publishedAt traceId
    exact .outside hsame hmarket
  | createReservation fresh input =>
    exact .outside ⟨rfl, rfl, rfl, rfl, rfl⟩ (.within (createReservation_offerings input w.market) .same)
  | recordMoneyEvent fresh input =>
    exact .outside ⟨rfl, rfl, rfl, rfl, rfl⟩ (.within (recordMoneyEvent_offerings input w.market) .same)
  | expireReservation id =>
    exact .outside ⟨rfl, rfl, rfl, rfl, rfl⟩ (.within (expireReservation_offerings id w.market) .same)
  | reconfirmReservation id accountId reconfirmedAt =>
    exact .outside ⟨rfl, rfl, rfl, rfl, rfl⟩
      (.within (reconfirmReservation_offerings id accountId reconfirmedAt w.market) .same)
  | classifyMateriality input => exact .outside ⟨rfl, rfl, rfl, rfl, rfl⟩ (classifyMateriality_market input)
  | publishDisclosurePack o documents publishedAt =>
    exact .outside ⟨rfl, rfl, rfl, rfl, rfl⟩
      (.within (publishDisclosurePack_offerings o documents publishedAt w.market) .same)
  | commitOfferingFinalization fresh o finalizedAt =>
    exact .outside ⟨rfl, rfl, rfl, rfl, rfl⟩ (commitOfferingFinalization_market o finalizedAt)
  | setAccount => exact .outside ⟨rfl, rfl, rfl, rfl, rfl⟩ .same

end Steps

end Intake
