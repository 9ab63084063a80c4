import VistaBlox.IntakeReversal
import VistaBlox.OfferingPositions

/-!
# The intake and the offering module in one system
-/
namespace Intake

open Offering (AccountId OfferingId PivId OfferingRecord OfferingStatus)

section Handoffs

variable (fresh : Nat → Nat)

def newOffering (id : OfferingId) (pivId : PivId) (targetRaiseEur : Nat) : OfferingRecord :=
  ⟨id, pivId, targetRaiseEur, .preOffering, none, none, none, targetRaiseEur⟩

def createOffering (id : OfferingId) (pivId : PivId) (targetRaiseEur : Nat) (w : Database) : Except Failure Database :=
  if (w.market.offering id).isSome then .error (.database .uniqueViolation)
  else if targetRaiseEur = 0 then .error (.database .checkViolation)
  else .ok { w with market := { w.market with
    offerings := w.market.offerings ++ [newOffering id pivId targetRaiseEur] } }

def openOfferingForApprovedCase (job : HandoffJob) (openEscrowCampaign : Bool) : Tx (PivId × OfferingId) := fun w =>
  match Table.find Piv.propertyId w.pivs job.propertyId with
  | some existingPiv =>
    match w.market.offerings.find? fun o => o.pivId = existingPiv.id with
    | some existingOffering => .ok ((existingPiv.id, existingOffering.id), w)
    | none => do
      let w ← createOffering (fresh 1) existingPiv.id job.ipoValueEur w
      return ((existingPiv.id, fresh 1), w)
  | none =>
    match w.intakeCase job.caseId with
    | none => .error (.caseNotFound job.caseId)
    | some intakeCase => do
      throwIf (openEscrowCampaign = true ∧ intakeCase.ipoEndAt = none) (.ipoEndAtMissing job.caseId)
      throwIf ((w.pivs.any fun p => p.id = fresh 0) = true) (.database .uniqueViolation)
      let w : Database := { w with pivs := w.pivs ++ [⟨fresh 0, job.propertyId, job.caseId⟩] }
      let w ← createOffering (fresh 1) (fresh 0) job.ipoValueEur w
      return ((fresh 0, fresh 1), w)

/-- The case of the offering, by the `JOIN` on its vehicle. -/
def Database.caseOf (w : Database) (id : OfferingId) : Option CaseId :=
  (w.market.offering id).bind fun o => (Table.find Piv.id w.pivs o.pivId).map Piv.caseId

/-- The publication with the job it enqueues for the intake module. -/
def publishFinalOfferingTerms (offeringId : OfferingId) (publishedAt : Nat) (traceId : TraceId) (w : Database) :
    Except Offering.PublishConflict Offering.PublishedTerms × Database :=
  match w.caseOf offeringId with
  | none => (.error .offeringNotFound, w)
  | some caseId =>
    match Offering.publishFinalOfferingTerms fresh offeringId publishedAt w.market with
    | (.error conflict, _) => (.error conflict, w)
    | (.ok terms, market) =>
      (.ok terms, { w with market := market, structuringJobs := w.structuringJobs ++ [⟨caseId, traceId⟩] })

end Handoffs

/-- A transaction of one of the two modules, or the delivery of a queued job. -/
inductive Operation where
  | createDraftIntake (fresh : Nat → Nat) (accountId : AccountId) (createdAt : Nat)
  | createStaffCase (fresh : Nat → Nat) (staffAccountId applicantAccountId : AccountId) (submittedAt : Nat)
  | submitInitialCase (fresh : Nat → Nat) (caseId : CaseId) (accountId : AccountId) (submittedAt : Nat)
  | publishInformationRequest (fresh : Nat → Nat) (caseId : CaseId) (accountId : AccountId) (publishedAt dueAt : Nat)
  | expireInformationRequest (fresh : Nat → Nat) (caseId : CaseId) (requestId : RequestId) (expiredAt : Nat)
      (manualOverride : Option AccountId)
  | withdrawInformationRequest (fresh : Nat → Nat) (caseId : CaseId) (requestId : RequestId) (accountId : AccountId)
      (withdrawnAt : Nat)
  | resubmitAfterInformationRequest (fresh : Nat → Nat) (caseId : CaseId) (requestId : RequestId)
      (accountId : AccountId) (submittedAt : Nat)
  | recordFounderDecision (fresh : Nat → Nat) (input : FounderDecisionInput)
  | closeCase (fresh : Nat → Nat) (input : CloseCaseInput)
  | assignPartnerOrganization (fresh : Nat → Nat) (input : AssignPartnerInput)
  | recordLegalStructuring (fresh : Nat → Nat) (input : WritebackInput)
  | recordAppraisal (fresh : Nat → Nat) (input : WritebackInput)
  | createReversalOperation (fresh : Nat → Nat) (input : CreateReversalOperationInput)
  | approveReversalOperation (caseId : CaseId) (operationId : OperationId) (approverAccountId : AccountId)
  | executeReversalOperation (fresh : Nat → Nat) (input : ExecuteReversalInput)
  | preOfferingOpenHandoff (fresh : Nat → Nat) (job : HandoffJob) (openEscrowCampaign : Bool)
  | postIpoStructuringHandoff (fresh : Nat → Nat) (job : StructuringJob) (transitionedAt : Nat)
  | publishFinalOfferingTerms (fresh : Nat → Nat) (offeringId : OfferingId) (publishedAt : Nat) (traceId : TraceId)
  | createReservation (fresh : Nat → Nat) (input : Offering.CreateReservationInput)
  | recordMoneyEvent (fresh : Nat → Nat) (input : Offering.MoneyEventInput)
  | expireReservation (id : Offering.ReservationId)
  | reconfirmReservation (id : Offering.ReservationId) (accountId : AccountId) (reconfirmedAt : Nat)
  | classifyMateriality (input : Offering.ClassifyMaterialityInput)
  | publishDisclosurePack (offeringId : OfferingId) (documents : List Offering.DisclosureDocumentType)
      (publishedAt : Nat)
  | commitOfferingFinalization (fresh : Nat → Nat) (offeringId : OfferingId) (finalizedAt : Nat)
  | setAccount (accountId : AccountId) (account : Option Offering.AccountReadiness)

/-- The tables a transaction leaves. -/
def commit {α : Type} (tx : Tx α) (w : Database) : Database :=
  match tx w with
  | .ok (_, w') => w'
  | .error _ => w

def Database.step (w : Database) : Operation → Database
  | .createDraftIntake fresh accountId createdAt => commit (createDraftIntake fresh accountId createdAt) w
  | .createStaffCase fresh staff applicant submittedAt => commit (createStaffCase fresh staff applicant submittedAt) w
  | .submitInitialCase fresh caseId accountId submittedAt =>
    commit (submitInitialCase fresh caseId accountId submittedAt) w
  | .publishInformationRequest fresh caseId accountId publishedAt dueAt =>
    commit (publishInformationRequest fresh caseId accountId publishedAt dueAt) w
  | .expireInformationRequest fresh caseId requestId expiredAt manualOverride =>
    commit (expireInformationRequest fresh caseId requestId expiredAt manualOverride) w
  | .withdrawInformationRequest fresh caseId requestId accountId withdrawnAt =>
    commit (withdrawInformationRequest fresh caseId requestId accountId withdrawnAt) w
  | .resubmitAfterInformationRequest fresh caseId requestId accountId submittedAt =>
    commit (resubmitAfterInformationRequest fresh caseId requestId accountId submittedAt) w
  | .recordFounderDecision fresh input => commit (recordFounderDecision fresh input) w
  | .closeCase fresh input => commit (closeCase fresh input) w
  | .assignPartnerOrganization fresh input => commit (assignPartnerOrganization fresh input) w
  | .recordLegalStructuring fresh input => commit (recordLegalStructuring fresh input) w
  | .recordAppraisal fresh input => commit (recordAppraisal fresh input) w
  | .createReversalOperation fresh input => commit (createReversalOperation fresh input) w
  | .approveReversalOperation caseId operationId approver =>
    commit (approveReversalOperation caseId operationId approver) w
  | .executeReversalOperation fresh input => (executeReversalOperation fresh input w).2
  | .preOfferingOpenHandoff fresh job openEscrowCampaign =>
    if job ∈ w.handoffs then commit (openOfferingForApprovedCase fresh job openEscrowCampaign) w else w
  | .postIpoStructuringHandoff fresh job transitionedAt =>
    if job ∈ w.structuringJobs then commit (transitionToPostIpoStructuring fresh job transitionedAt) w else w
  | .publishFinalOfferingTerms fresh o publishedAt traceId =>
    (Intake.publishFinalOfferingTerms fresh o publishedAt traceId w).2
  | .createReservation fresh input => { w with market := (Offering.createReservation fresh input w.market).2 }
  | .recordMoneyEvent fresh input => { w with market := (Offering.recordMoneyEvent fresh input w.market).2 }
  | .expireReservation id => { w with market := (Offering.expireReservation id w.market).2 }
  | .reconfirmReservation id accountId reconfirmedAt =>
    { w with market := (Offering.reconfirmReservation id accountId reconfirmedAt w.market).2 }
  | .classifyMateriality input => { w with market := (Offering.classifyMateriality input w.market).2 }
  | .publishDisclosurePack o documents publishedAt =>
    { w with market := (Offering.publishDisclosurePack o documents publishedAt w.market).2 }
  | .commitOfferingFinalization fresh o finalizedAt =>
    { w with market := (Offering.commitOfferingFinalization fresh o finalizedAt w.market).2 }
  | .setAccount accountId account =>
    { w with market := { w.market with accounts := Function.update w.market.accounts accountId account } }

/-- No case, no offering and no job yet. -/
structure Database.Empty (w : Database) : Prop where
  cases : w.cases = []
  pivs : w.pivs = []
  offerings : w.market.offerings = []
  handoffs : w.handoffs = []
  structuringJobs : w.structuringJobs = []

def Database.after (w : Database) (ops : List Operation) : Database := ops.foldl Database.step w

/-- The offering was made for the case. -/
def Database.Offers (w : Database) (o : OfferingRecord) (caseId : CaseId) : Prop :=
  o ∈ w.market.offerings ∧ ∃ p ∈ w.pivs, p.id = o.pivId ∧ p.caseId = caseId

def investor : Offering.AccountReadiness where
  status := .active
  loginMethods := []
  kycEligibilityState := none
  kycRenewalDueAt := none
  walletAddress := none
  recoveryCooldownEndsAt := none

/-- Account 9 exists, and nothing else does. -/
def newDatabase : Database where
  cases := []
  revisions := []
  informationRequests := []
  events := []
  operations := []
  pivs := []
  handoffs := []
  structuringJobs := []
  market := ⟨0, fun a => if a = 9 then some investor else none, [], [], [], [], [], []⟩

/-- Staff enter case 21 of property 20 for account 9 and approve it. -/
def approved : List Operation :=
  [.createStaffCase (20 + ·) 1 9 100, .recordFounderDecision (30 + ·) ⟨21, 1, .approve 900 500, 200, 7⟩]

end Intake
