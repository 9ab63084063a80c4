import VistaBlox.Interleaving
import VistaBlox.KycPolicy

/-!
# Identity verification of an account

A session with the identity provider, its webhooks, two sweeps and a renewal timer write one
row of the account. Every repository call is one transaction, and what a service read before
is not locked.

`log` is the history of the proofs: nothing reads it.
-/
namespace Kyc

open Interleaving

abbrev AccountId := Nat
abbrev SessionStartId := Nat
abbrev DiditReference := Nat
abbrev EventId := Nat
abbrev WorkflowId := Nat
abbrev ApplicationId := Nat
abbrev Address := Nat

structure Account where
  id : AccountId
  protectedContactEmail : Option Address

structure KycEligibility where
  accountId : AccountId
  diditReference : Option DiditReference
  eligibilityState : KycEligibilityState
  providerStatus : Option DiditStatus
  operationalSubstatus : KycOperationalSubstatus
  providerUpdatedAt : Option ℤ
  sessionStartId : Option SessionStartId
  proofOfAddressDiditReference : Option DiditReference
  proofOfAddressProviderStatus : Option DiditStatus
  proofOfAddressProviderUpdatedAt : Option ℤ
  proofOfAddressSessionStartId : Option SessionStartId
  proofOfAddressStatus : ProofOfAddressStatus
  residenceCountryCode : Option CountryCode
  taxResidenceCountryCode : Option CountryCode
  proofOfAddressCurrentUntil : Option ℤ
  lastVerifiedAt : Option ℤ
  everRequiredManualReview : Bool
  renewalDueAt : Option ℤ
  updatedAt : ℤ
  deriving DecidableEq, Repr

structure KycEligibilityHistory where
  accountId : AccountId
  previousState : KycEligibilityState
  newState : KycEligibilityState
  reasonCode : ReasonCode
  changedAt : ℤ
  deriving DecidableEq, Repr

/-- The unique event keys of the audit log. -/
inductive EventKey where
  | webhook (eventId : EventId)
  | reconciliation (id : Nat)
  | sessionStarted (diditReference : DiditReference)
  | sessionStartFailed (sessionStartId : Option SessionStartId)
  | poaSessionStarted (diditReference : DiditReference)
  | poaSessionStartFailed (sessionStartId : Option SessionStartId)
  deriving DecidableEq, Repr

/-- A baseline outcome that reached the row of its session. -/
structure Acceptance where
  accountId : AccountId
  diditReference : DiditReference
  providerStatus : Option DiditStatus
  providerUpdatedAt : ℤ
  eligibilityState : KycEligibilityState
  operationalSubstatus : KycOperationalSubstatus
  applied : Bool
  deriving DecidableEq, Repr

inductive Entry where
  | reserved (accountId : AccountId) (sessionStartId : SessionStartId)
  | opened (accountId : AccountId) (sessionStartId : SessionStartId) (diditReference : DiditReference)
  | accepted (acceptance : Acceptance)
  | lapsed (accountId : AccountId)
  deriving DecidableEq, Repr

/-- `sessions` are the sessions the provider has created, and `decisions` what it
answers about them now. -/
structure World where
  now : ℤ
  accounts : List Account
  rows : List KycEligibility
  history : List KycEligibilityHistory
  auditKeys : List EventKey
  startIds : List SessionStartId
  sessions : List DiditReference
  decisions : DiditReference → DiditDecisionSummary
  log : List Entry

inductive Failure where
  | kycSessionUnavailable
  | proofOfAddressSessionUnavailable
  | kycProviderResponseInvalid
  | kycSessionPersistenceFailed
  | proofOfAddressSessionPersistenceFailed
  | fault
  deriving DecidableEq, Repr

inductive Purpose where
  | baselineKyc | ownerProofOfAddress
  deriving DecidableEq, Repr

/-- Where an outcome comes from. A reconciliation draws a new key. -/
inductive EventSource where
  | webhook (eventId : EventId) | reconciliation
  deriving DecidableEq, Repr

instance (source : EventSource) (p : EventId → Prop) [DecidablePred p] :
    Decidable (∀ eventId, source = .webhook eventId → p eventId) :=
  match source with
  | .webhook eventId => decidable_of_iff (p eventId)
      ⟨fun h _ heq => EventSource.webhook.inj heq ▸ h, fun h => h eventId rfl⟩
  | .reconciliation => isTrue nofun

def EventSource.key (id : Nat) : EventSource → EventKey
  | .webhook eventId => .webhook eventId
  | .reconciliation => .reconciliation id

structure ProviderSession where
  sessionId : DiditReference
  status : DiditStatus
  workflowId : WorkflowId
  vendorData : AccountId

structure OutcomeInput where
  source : EventSource
  diditReference : DiditReference
  providerStatus : Option DiditStatus
  providerUpdatedAt : ℤ
  outcome : KycPolicyOutcome

structure ProofOfAddressInput where
  source : EventSource
  diditReference : DiditReference
  providerStatus : Option DiditStatus
  providerUpdatedAt : ℤ
  outcome : ProofOfAddressOutcome

inductive Applied where
  | applied | duplicate | stale | unmatched
  deriving DecidableEq, Repr

inductive UnmatchedReason where
  | sessionNotFound | correlationMismatch | configurationMismatch
  deriving DecidableEq, Repr

structure RenewalCandidate where
  accountId : AccountId
  contactEmail : Option Address
  renewalDueAt : ℤ

structure StuckCreation where
  accountId : AccountId
  kind : Purpose
  sessionStartId : Option SessionStartId
  updatedAt : ℤ
  deriving DecidableEq

structure StuckOpen where
  accountId : AccountId
  kind : Purpose
  diditReference : Option DiditReference
  residenceCountryCode : Option CountryCode
  taxResidenceCountryCode : Option CountryCode
  everRequiredManualReview : Bool
  updatedAt : ℤ
  deriving DecidableEq

inductive Op where
  | clock
  | randomUUID
  | reserveSessionStart (accountId : AccountId) (sessionStartId : SessionStartId)
      (residenceCountryCode taxResidenceCountryCode : CountryCode) (startedAt : ℤ)
  | createSession (workflowId : WorkflowId) (accountId : AccountId) (sessionStartId : SessionStartId)
      (purpose : Purpose)
  | completeSessionStart (accountId : AccountId) (sessionStartId : SessionStartId) (diditReference : DiditReference)
      (providerStatus : DiditStatus) (completedAt : ℤ)
  | failSessionStart (accountId : AccountId) (sessionStartId : Option SessionStartId) (failedAt : ℤ)
  | invalidateDisplayProfile (accountId : AccountId)
  | reserveProofOfAddressSessionStart (accountId : AccountId) (sessionStartId : SessionStartId) (startedAt : ℤ)
  | completeProofOfAddressSessionStart (accountId : AccountId) (sessionStartId : SessionStartId)
      (diditReference : DiditReference) (providerStatus : DiditStatus) (completedAt : ℤ)
  | failProofOfAddressSessionStart (accountId : AccountId) (sessionStartId : Option SessionStartId) (failedAt : ℤ)
  | hasProcessedProviderEvent (eventId : EventId)
  | recordUnmatchedProviderEvent (eventId : EventId) (diditReference : DiditReference) (reason : UnmatchedReason)
  | findByDiditReference (diditReference : DiditReference)
  | findByProofOfAddressDiditReference (diditReference : DiditReference)
  | getDecision (sessionId : DiditReference)
  | applyProviderOutcome (input : OutcomeInput)
  | applyProofOfAddressOutcome (input : ProofOfAddressInput)
  | listEligibleAccountsForRenewalTimer
  | getRenewalReminderLeadDays
  | transitionToRequiresRenewal (accountId : AccountId) (transitionedAt : ℤ)
  | sendKycRenewalReminderEmail (address : Address) (renewalDueAt : ℤ)
  | listStuckSessionCreationsForTimer
  | listStuckOpenSessionsForTimer

@[reducible] def Op.Out : Op → Type
  | .clock => ℤ
  | .randomUUID => SessionStartId
  | .reserveSessionStart .. => Bool
  | .createSession .. => ProviderSession
  | .completeSessionStart .. => Bool
  | .failSessionStart .. => Unit
  | .invalidateDisplayProfile _ => Unit
  | .reserveProofOfAddressSessionStart .. => Bool
  | .completeProofOfAddressSessionStart .. => Bool
  | .failProofOfAddressSessionStart .. => Unit
  | .hasProcessedProviderEvent _ => Bool
  | .recordUnmatchedProviderEvent .. => Unit
  | .findByDiditReference _ => Option KycEligibility
  | .findByProofOfAddressDiditReference _ => Option KycEligibility
  | .getDecision _ => DiditDecisionSummary
  | .applyProviderOutcome _ => Applied
  | .applyProofOfAddressOutcome _ => Applied
  | .listEligibleAccountsForRenewalTimer => List RenewalCandidate
  | .getRenewalReminderLeadDays => ℤ
  | .transitionToRequiresRenewal .. => Bool
  | .sendKycRenewalReminderEmail .. => Unit
  | .listStuckSessionCreationsForTimer => List StuckCreation
  | .listStuckOpenSessionsForTimer => List StuckOpen

def canStartSession (substatus : KycOperationalSubstatus) : Bool :=
  [.kycNotStarted, .kycSessionCreationFailed, .kycRestartRequired, .kycReverificationRequired].contains substatus

def canStartProofOfAddress (status : ProofOfAddressStatus) (currentUntil : Option ℤ) (startedAt : ℤ) : Bool :=
  if status = .current ∧ (currentUntil.any fun limit => startedAt < limit) = true then false
  else [.notStarted, .creationFailed, .insufficient, .expired, .restartRequired, .integrationAnomaly,
    .current].contains status

/-- `updateMany`. -/
def rewriteRows (rows : KycEligibility → Bool) (set : KycEligibility → KycEligibility) (w : World) : World :=
  { w with rows := w.rows.map fun r => if rows r then set r else r }

def KycEligibility.isOf (accountId : AccountId) (r : KycEligibility) : Bool := r.accountId = accountId

def newRow (accountId : AccountId) (sessionStartId : SessionStartId)
    (residenceCountryCode taxResidenceCountryCode : CountryCode) (startedAt : ℤ) : KycEligibility where
  accountId := accountId
  diditReference := none
  eligibilityState := .notStarted
  providerStatus := none
  operationalSubstatus := .kycSessionCreating
  providerUpdatedAt := none
  sessionStartId := some sessionStartId
  proofOfAddressDiditReference := none
  proofOfAddressProviderStatus := none
  proofOfAddressProviderUpdatedAt := none
  proofOfAddressSessionStartId := none
  proofOfAddressStatus := .notStarted
  residenceCountryCode := some residenceCountryCode
  taxResidenceCountryCode := some taxResidenceCountryCode
  proofOfAddressCurrentUntil := none
  lastVerifiedAt := none
  everRequiredManualReview := false
  renewalDueAt := none
  updatedAt := startedAt

def KycEligibility.reserve (sessionStartId : SessionStartId)
    (residenceCountryCode taxResidenceCountryCode : CountryCode)
    (startedAt : ℤ) (r : KycEligibility) : KycEligibility :=
  { r with
    operationalSubstatus := .kycSessionCreating
    residenceCountryCode := some residenceCountryCode
    taxResidenceCountryCode := some taxResidenceCountryCode
    sessionStartId := some sessionStartId
    updatedAt := startedAt }

def World.logged (entry : Entry) (w : World) : World := { w with log := w.log ++ [entry] }

def reserveSessionStart (accountId : AccountId) (sessionStartId : SessionStartId)
    (residenceCountryCode taxResidenceCountryCode : CountryCode) (startedAt : ℤ) (w : World) : Bool × World :=
  if (w.accounts.any fun a => a.id = accountId) = false then (false, w)
  else match w.rows.find? (KycEligibility.isOf accountId) with
    | none => (true, World.logged (.reserved accountId sessionStartId) { w with
        rows := w.rows ++ [newRow accountId sessionStartId residenceCountryCode taxResidenceCountryCode startedAt] })
    | some current =>
      if canStartSession current.operationalSubstatus then
        (true, World.logged (.reserved accountId sessionStartId) (rewriteRows (KycEligibility.isOf accountId)
          (KycEligibility.reserve sessionStartId residenceCountryCode taxResidenceCountryCode startedAt) w))
      else (false, w)

def KycEligibility.isCreating (accountId : AccountId) (sessionStartId : Option SessionStartId) (r : KycEligibility) :
    Bool :=
  r.accountId = accountId ∧ r.sessionStartId = sessionStartId ∧ r.operationalSubstatus = .kycSessionCreating

def KycEligibility.open (diditReference : DiditReference) (providerStatus : DiditStatus) (completedAt : ℤ)
    (r : KycEligibility) : KycEligibility :=
  { r with
    diditReference := some diditReference
    providerStatus := some providerStatus
    operationalSubstatus := .kycSessionOpen
    eligibilityState := .notStarted
    providerUpdatedAt := some completedAt
    updatedAt := completedAt }

def World.recorded (row : KycEligibilityHistory) (key : List EventKey) (w : World) : World :=
  { w with history := w.history ++ [row], auditKeys := w.auditKeys ++ key }

def completeSessionStart (accountId : AccountId) (sessionStartId : SessionStartId) (diditReference : DiditReference)
    (providerStatus : DiditStatus) (completedAt : ℤ) (w : World) : Bool × World :=
  if (w.rows.any (KycEligibility.isCreating accountId (some sessionStartId))) = true then
    (true, World.logged (.opened accountId sessionStartId diditReference)
      (World.recorded ⟨accountId, .notStarted, .notStarted, .kycSessionStarted, completedAt⟩
        [.sessionStarted diditReference]
        (rewriteRows (KycEligibility.isCreating accountId (some sessionStartId))
          (KycEligibility.open diditReference providerStatus completedAt) w)))
  else (false, w)

def failSessionStart (accountId : AccountId) (sessionStartId : Option SessionStartId) (failedAt : ℤ) (w : World) :
    World :=
  if (w.rows.any (KycEligibility.isCreating accountId sessionStartId)) = true then
    { rewriteRows (KycEligibility.isCreating accountId sessionStartId)
        (fun r => { r with operationalSubstatus := .kycSessionCreationFailed, updatedAt := failedAt }) w with
      auditKeys := w.auditKeys ++ [.sessionStartFailed sessionStartId] }
  else w

def KycEligibility.mayProveAddress (startedAt : ℤ) (r : KycEligibility) : Bool :=
  r.eligibilityState = .eligible ∧
    canStartProofOfAddress r.proofOfAddressStatus r.proofOfAddressCurrentUntil startedAt = true

def reserveProofOfAddressSessionStart (accountId : AccountId) (sessionStartId : SessionStartId) (startedAt : ℤ)
    (w : World) : Bool × World :=
  if (w.accounts.any fun a => a.id = accountId) = false then (false, w)
  else match w.rows.find? (KycEligibility.isOf accountId) with
    | none => (false, w)
    | some current =>
      if current.mayProveAddress startedAt then
        (true, rewriteRows (KycEligibility.isOf accountId) (fun r => { r with
          proofOfAddressStatus := .creating
          proofOfAddressSessionStartId := some sessionStartId
          updatedAt := startedAt }) w)
      else (false, w)

def KycEligibility.isCreatingProof (accountId : AccountId) (sessionStartId : Option SessionStartId)
    (r : KycEligibility) : Bool :=
  r.accountId = accountId ∧ r.proofOfAddressSessionStartId = sessionStartId ∧ r.proofOfAddressStatus = .creating

def completeProofOfAddressSessionStart (accountId : AccountId) (sessionStartId : SessionStartId)
    (diditReference : DiditReference) (providerStatus : DiditStatus) (completedAt : ℤ) (w : World) : Bool × World :=
  if (w.rows.any (KycEligibility.isCreatingProof accountId (some sessionStartId))) = true then
    (true, World.recorded ⟨accountId, .eligible, .eligible, .ownerProofOfAddressSessionStarted, completedAt⟩
      [.poaSessionStarted diditReference]
      (rewriteRows (KycEligibility.isCreatingProof accountId (some sessionStartId)) (fun r => { r with
        proofOfAddressDiditReference := some diditReference
        proofOfAddressProviderStatus := some providerStatus
        proofOfAddressProviderUpdatedAt := some completedAt
        proofOfAddressStatus := .inProgress
        updatedAt := completedAt }) w))
  else (false, w)

def failProofOfAddressSessionStart (accountId : AccountId) (sessionStartId : Option SessionStartId) (failedAt : ℤ)
    (w : World) : World :=
  if (w.rows.any (KycEligibility.isCreatingProof accountId sessionStartId)) = true then
    { rewriteRows (KycEligibility.isCreatingProof accountId sessionStartId)
        (fun r => { r with proofOfAddressStatus := .creationFailed, updatedAt := failedAt }) w with
      auditKeys := w.auditKeys ++ [.poaSessionStartFailed sessionStartId] }
  else w

def recordUnmatchedProviderEvent (eventId : EventId) (w : World) : World :=
  if w.auditKeys.contains (.webhook eventId) then w else { w with auditKeys := w.auditKeys ++ [.webhook eventId] }

/-- Something later has been recorded. -/
def isStale (recorded : Option ℤ) (providerUpdatedAt : ℤ) : Bool :=
  recorded.any fun last => providerUpdatedAt < last

def latest (updatedAt providerUpdatedAt : ℤ) : ℤ :=
  if updatedAt < providerUpdatedAt then providerUpdatedAt else updatedAt

/-- A baseline that is verified while the address is proven needs nothing more. -/
def KycEligibility.substatusAfter (input : OutcomeInput) (r : KycEligibility) : KycOperationalSubstatus :=
  if input.outcome.eligibilityState = .eligible ∧ r.proofOfAddressStatus = .current ∧
      (r.proofOfAddressCurrentUntil.any fun limit => input.providerUpdatedAt < limit) = true then .kycVerified
  else input.outcome.operationalSubstatus

def KycEligibility.withOutcome (input : OutcomeInput) (r : KycEligibility) : KycEligibility :=
  { r with
    providerStatus := input.providerStatus
    providerUpdatedAt := some input.providerUpdatedAt
    eligibilityState := input.outcome.eligibilityState
    operationalSubstatus := r.substatusAfter input
    everRequiredManualReview := input.outcome.everRequiredManualReview
    lastVerifiedAt := input.outcome.lastVerifiedAt.or r.lastVerifiedAt
    renewalDueAt := input.outcome.renewalDueAt.or r.renewalDueAt
    updatedAt := latest r.updatedAt input.providerUpdatedAt }

def OutcomeInput.acceptance (input : OutcomeInput) (current : KycEligibility) (applied : Bool) : Acceptance :=
  ⟨current.accountId, input.diditReference, input.providerStatus, input.providerUpdatedAt,
    input.outcome.eligibilityState, input.outcome.operationalSubstatus, applied⟩

def KycEligibility.hasReference (diditReference : DiditReference) (r : KycEligibility) : Bool :=
  r.diditReference = some diditReference

def applyProviderOutcome (id : Nat) (input : OutcomeInput) (w : World) : Applied × World :=
  if w.auditKeys.contains (input.source.key id) then (.duplicate, w)
  else match w.rows.find? (KycEligibility.hasReference input.diditReference) with
    | none => (.unmatched, { w with auditKeys := w.auditKeys ++ [input.source.key id] })
    | some current =>
      if isStale current.providerUpdatedAt input.providerUpdatedAt then
        (.stale, World.logged (.accepted (input.acceptance current false))
          { w with auditKeys := w.auditKeys ++ [input.source.key id] })
      else
        (.applied, World.logged (.accepted (input.acceptance current true)) (World.recorded
          ⟨current.accountId, current.eligibilityState, input.outcome.eligibilityState, input.outcome.reasonCode,
            input.providerUpdatedAt⟩ [input.source.key id]
          (rewriteRows (KycEligibility.isOf current.accountId) (KycEligibility.withOutcome input) w)))

def KycEligibility.hasProofReference (diditReference : DiditReference) (r : KycEligibility) : Bool :=
  r.proofOfAddressDiditReference = some diditReference

def KycEligibility.withProof (input : ProofOfAddressInput) (r : KycEligibility) : KycEligibility :=
  { r with
    proofOfAddressProviderStatus := input.providerStatus
    proofOfAddressProviderUpdatedAt := some input.providerUpdatedAt
    proofOfAddressStatus := input.outcome.status
    proofOfAddressCurrentUntil := input.outcome.currentUntil
    operationalSubstatus :=
      if r.eligibilityState ≠ .eligible then r.operationalSubstatus
      else if input.outcome.status = .current then .kycVerified
      else .kycVerifiedOwnerPoaMissing
    updatedAt := latest r.updatedAt input.providerUpdatedAt }

def applyProofOfAddressOutcome (id : Nat) (input : ProofOfAddressInput) (w : World) : Applied × World :=
  if w.auditKeys.contains (input.source.key id) then (.duplicate, w)
  else match w.rows.find? (KycEligibility.hasProofReference input.diditReference) with
    | none => (.unmatched, { w with auditKeys := w.auditKeys ++ [input.source.key id] })
    | some current =>
      if isStale current.proofOfAddressProviderUpdatedAt input.providerUpdatedAt then
        (.stale, { w with auditKeys := w.auditKeys ++ [input.source.key id] })
      else
        (.applied, World.recorded
          ⟨current.accountId, current.eligibilityState, current.eligibilityState, input.outcome.reasonCode,
            input.providerUpdatedAt⟩ [input.source.key id]
          (rewriteRows (KycEligibility.isOf current.accountId) (KycEligibility.withProof input) w))

def listEligibleAccountsForRenewalTimer (w : World) : List RenewalCandidate :=
  (w.rows.filter fun r => r.eligibilityState = .eligible).filterMap fun r => r.renewalDueAt.map fun renewalDueAt =>
    ⟨r.accountId, (w.accounts.find? fun a => a.id = r.accountId).bind Account.protectedContactEmail, renewalDueAt⟩

def KycEligibility.isEligible (accountId : AccountId) (r : KycEligibility) : Bool :=
  r.accountId = accountId ∧ r.eligibilityState = .eligible

def transitionToRequiresRenewal (accountId : AccountId) (transitionedAt : ℤ) (w : World) : Bool × World :=
  if (w.rows.any (KycEligibility.isEligible accountId)) = true then
    (true, World.logged (.lapsed accountId) (World.recorded
      ⟨accountId, .eligible, .requiresRenewal, .kycRenewalDue, transitionedAt⟩ []
      (rewriteRows (KycEligibility.isEligible accountId) (fun r => { r with
        eligibilityState := .requiresRenewal
        operationalSubstatus := .kycReverificationRequired
        updatedAt := transitionedAt }) w)))
  else (false, w)

def listStuckSessionCreationsForTimer (w : World) : List StuckCreation :=
  ((w.rows.filter fun r => r.operationalSubstatus = .kycSessionCreating).map fun r =>
      ⟨r.accountId, .baselineKyc, r.sessionStartId, r.updatedAt⟩) ++
    (w.rows.filter fun r => r.proofOfAddressStatus = .creating).map fun r =>
      ⟨r.accountId, .ownerProofOfAddress, r.proofOfAddressSessionStartId, r.updatedAt⟩

def KycEligibility.stuckOpen (r : KycEligibility) : StuckOpen :=
  ⟨r.accountId, .baselineKyc, r.diditReference, r.residenceCountryCode, r.taxResidenceCountryCode,
    r.everRequiredManualReview, r.updatedAt⟩

def listStuckOpenSessionsForTimer (w : World) : List StuckOpen :=
  ((w.rows.filter fun r => r.operationalSubstatus = .kycSessionOpen).map KycEligibility.stuckOpen) ++
    (w.rows.filter fun r => r.proofOfAddressStatus = .inProgress).map fun r =>
      ⟨r.accountId, .ownerProofOfAddress, r.proofOfAddressDiditReference, r.residenceCountryCode, none,
        r.everRequiredManualReview, r.updatedAt⟩

/-- `fault` makes the call throw, after it took effect or without effect. `id` is
drawn where something new is named, `session` is what the provider says of a
session it creates, `leadDays` is the setting. -/
structure Choice where
  fault : Option Bool
  id : Nat
  session : DiditStatus × WorkflowId × AccountId
  leadDays : ℤ

/-- What is drawn has not been drawn before. -/
def Op.run (c : Choice) (w : World) : (op : Op) → Option (op.Out × World)
  | .clock => some (w.now, w)
  | .randomUUID => if c.id ∈ w.startIds then none else some (c.id, { w with startIds := w.startIds ++ [c.id] })
  | .reserveSessionStart accountId sessionStartId residenceCountryCode taxResidenceCountryCode startedAt =>
    some (Kyc.reserveSessionStart accountId sessionStartId residenceCountryCode taxResidenceCountryCode startedAt w)
  | .createSession .. =>
    if c.id ∈ w.sessions then none
    else some (⟨c.id, c.session.1, c.session.2.1, c.session.2.2⟩, { w with sessions := w.sessions ++ [c.id] })
  | .completeSessionStart accountId sessionStartId diditReference providerStatus completedAt =>
    some (Kyc.completeSessionStart accountId sessionStartId diditReference providerStatus completedAt w)
  | .failSessionStart accountId sessionStartId failedAt =>
      some ((), Kyc.failSessionStart accountId sessionStartId failedAt w)
  | .invalidateDisplayProfile _ => some ((), w)
  | .reserveProofOfAddressSessionStart accountId sessionStartId startedAt =>
    some (Kyc.reserveProofOfAddressSessionStart accountId sessionStartId startedAt w)
  | .completeProofOfAddressSessionStart accountId sessionStartId diditReference providerStatus completedAt =>
    some (Kyc.completeProofOfAddressSessionStart accountId sessionStartId diditReference providerStatus completedAt w)
  | .failProofOfAddressSessionStart accountId sessionStartId failedAt =>
    some ((), Kyc.failProofOfAddressSessionStart accountId sessionStartId failedAt w)
  | .hasProcessedProviderEvent eventId => some (w.auditKeys.contains (.webhook eventId), w)
  | .recordUnmatchedProviderEvent eventId _ _ => some ((), Kyc.recordUnmatchedProviderEvent eventId w)
  | .findByDiditReference diditReference => some (w.rows.find? (KycEligibility.hasReference diditReference), w)
  | .findByProofOfAddressDiditReference diditReference =>
    some (w.rows.find? (KycEligibility.hasProofReference diditReference), w)
  | .getDecision sessionId => some (w.decisions sessionId, w)
  | .applyProviderOutcome input =>
    if input.source = .reconciliation ∧ EventKey.reconciliation c.id ∈ w.auditKeys then none
    else some (Kyc.applyProviderOutcome c.id input w)
  | .applyProofOfAddressOutcome input =>
    if input.source = .reconciliation ∧ EventKey.reconciliation c.id ∈ w.auditKeys then none
    else some (Kyc.applyProofOfAddressOutcome c.id input w)
  | .listEligibleAccountsForRenewalTimer => some (Kyc.listEligibleAccountsForRenewalTimer w, w)
  | .getRenewalReminderLeadDays => some (c.leadDays, w)
  | .transitionToRequiresRenewal accountId transitionedAt =>
    some (Kyc.transitionToRequiresRenewal accountId transitionedAt w)
  | .sendKycRenewalReminderEmail .. => some ((), w)
  | .listStuckSessionCreationsForTimer => some (Kyc.listStuckSessionCreationsForTimer w, w)
  | .listStuckOpenSessionsForTimer => some (Kyc.listStuckOpenSessionsForTimer w, w)

/-- A unique index refuses what the call would write: a start or a session that
another row has, or a key of the audit log. -/
def Op.conflicts (w : World) : Op → Bool
  | .reserveSessionStart accountId sessionStartId residenceCountryCode taxResidenceCountryCode startedAt =>
    (Kyc.reserveSessionStart accountId sessionStartId residenceCountryCode taxResidenceCountryCode startedAt w).1 &&
      w.rows.any fun r => r.accountId ≠ accountId ∧ r.sessionStartId = some sessionStartId
  | .completeSessionStart accountId sessionStartId diditReference _ _ =>
    w.rows.any (KycEligibility.isCreating accountId (some sessionStartId)) &&
      (w.auditKeys.contains (.sessionStarted diditReference) ||
        w.rows.any fun r => r.accountId ≠ accountId ∧ r.diditReference = some diditReference)
  | .failSessionStart accountId sessionStartId _ =>
    w.rows.any (KycEligibility.isCreating accountId sessionStartId) &&
      w.auditKeys.contains (.sessionStartFailed sessionStartId)
  | .reserveProofOfAddressSessionStart accountId sessionStartId startedAt =>
    (Kyc.reserveProofOfAddressSessionStart accountId sessionStartId startedAt w).1 &&
      w.rows.any fun r => r.accountId ≠ accountId ∧ r.proofOfAddressSessionStartId = some sessionStartId
  | .completeProofOfAddressSessionStart accountId sessionStartId diditReference _ _ =>
    w.rows.any (KycEligibility.isCreatingProof accountId (some sessionStartId)) &&
      (w.auditKeys.contains (.poaSessionStarted diditReference) ||
        w.rows.any fun r => r.accountId ≠ accountId ∧ r.proofOfAddressDiditReference = some diditReference)
  | .failProofOfAddressSessionStart accountId sessionStartId _ =>
    w.rows.any (KycEligibility.isCreatingProof accountId sessionStartId) &&
      w.auditKeys.contains (.poaSessionStartFailed sessionStartId)
  | _ => false

def exec (_ : Nat) (op : Op) (c : Choice) (w : World) : Option (Except Failure op.Out × World) :=
  (op.run c w).map fun r =>
    if op.conflicts w then (.error .fault, w)
    else match c.fault with
      | none => (.ok r.1, r.2)
      | some applied => (.error .fault, if applied then r.2 else w)

/-- The clock moves on, and the provider changes what it answers about a session. -/
inductive Event where
  | tick (ms : ℤ)
  | report (diditReference : DiditReference) (decision : DiditDecisionSummary)

def env : Event → World → Option World
  | .tick ms, w => if 0 ≤ ms then some { w with now := w.now + ms } else none
  | .report diditReference decision, w =>
    some { w with decisions := Function.update w.decisions diditReference decision }

abbrev Run := Prog Failure Op Op.Out

def invoke (op : Op) : Run op.Out := Prog.perform op

/-- A call whose failure is ignored. -/
def attempt (p : Run Unit) : Run Unit := Prog.catchWith p fun _ => .ret ()

/-- `creatingTimeoutMs` and `openThresholdMs` are the timeouts of the two sweeps. -/
structure Configuration where
  workflowId : WorkflowId
  proofOfAddressWorkflowId : Option WorkflowId
  applicationId : ApplicationId
  environment : String
  creatingTimeoutMs : ℤ
  openThresholdMs : ℤ

/-- The start is given up, and the error goes to the caller. -/
def abandonStart {α : Type} (accountId : AccountId) (sessionStartId : SessionStartId) (error : Failure) : Run α := do
  let failedAt ← invoke .clock
  invoke (.failSessionStart accountId (some sessionStartId) failedAt)
  .fail error

def completeStart (accountId : AccountId) (sessionStartId : SessionStartId) (session : ProviderSession) :
    Run DiditReference := do
  let completedAt ← invoke .clock
  let completed ← invoke (.completeSessionStart accountId sessionStartId session.sessionId session.status completedAt)
  if completed then do
    attempt (invoke (.invalidateDisplayProfile accountId))
    return session.sessionId
  else abandonStart accountId sessionStartId .kycSessionPersistenceFailed

def startKycSession (cfg : Configuration) (accountId : AccountId)
    (residenceCountryCode taxResidenceCountryCode : CountryCode) : Run DiditReference := do
  let sessionStartId ← invoke .randomUUID
  let startedAt ← invoke .clock
  let reserved ← invoke
    (.reserveSessionStart accountId sessionStartId residenceCountryCode taxResidenceCountryCode startedAt)
  if reserved then do
    let session ← Prog.catchWith (invoke (.createSession cfg.workflowId accountId sessionStartId .baselineKyc))
      (abandonStart accountId sessionStartId)
    if session.vendorData ≠ accountId ∨ session.workflowId ≠ cfg.workflowId ∨ session.status ≠ .notStarted then
      abandonStart accountId sessionStartId .kycProviderResponseInvalid
    else completeStart accountId sessionStartId session
  else .fail .kycSessionUnavailable

def abandonProofStart {α : Type} (accountId : AccountId) (sessionStartId : SessionStartId) (error : Failure) :
    Run α := do
  let failedAt ← invoke .clock
  invoke (.failProofOfAddressSessionStart accountId (some sessionStartId) failedAt)
  .fail error

/-- A start that could not be completed is not given up here. -/
def completeProofStart (accountId : AccountId) (sessionStartId : SessionStartId) (session : ProviderSession) :
    Run DiditReference := do
  let completedAt ← invoke .clock
  let completed ← invoke
    (.completeProofOfAddressSessionStart accountId sessionStartId session.sessionId session.status completedAt)
  if completed then return session.sessionId
  else .fail .proofOfAddressSessionPersistenceFailed

def startProofOfAddressSession (workflowId : WorkflowId) (accountId : AccountId) : Run DiditReference := do
  let sessionStartId ← invoke .randomUUID
  let startedAt ← invoke .clock
  let reserved ← invoke (.reserveProofOfAddressSessionStart accountId sessionStartId startedAt)
  if reserved then do
    let session ← Prog.catchWith (invoke (.createSession workflowId accountId sessionStartId .ownerProofOfAddress))
      (abandonProofStart accountId sessionStartId)
    if session.vendorData ≠ accountId ∨ session.workflowId ≠ workflowId ∨ session.status ≠ .notStarted then
      abandonProofStart accountId sessionStartId .kycProviderResponseInvalid
    else completeProofStart accountId sessionStartId session
  else .fail .proofOfAddressSessionUnavailable

structure DiditWebhook where
  eventId : EventId
  webhookType : String
  applicationId : ApplicationId
  environment : String
  sessionId : DiditReference
  sessionKind : Option String
  workflowId : Option WorkflowId
  vendorData : Option AccountId
  status : String
  createdAt : ℤ
  deriving DecidableEq

inductive WebhookAnswer where
  | received | duplicate | stale | ignored
  deriving DecidableEq, Repr

def DiditStatus.text : DiditStatus → String
  | .notStarted => "Not Started"
  | .inProgress => "In Progress"
  | .inReview => "In Review"
  | .approved => "Approved"
  | .declined => "Declined"
  | .resubmitted => "Resubmitted"
  | .expired => "Expired"
  | .abandoned => "Abandoned"
  | .kycExpired => "Kyc Expired"
  | .awaitingUser => "Awaiting User"

def diditStatuses : List DiditStatus :=
  [.notStarted, .inProgress, .inReview, .approved, .declined, .resubmitted, .expired, .abandoned, .kycExpired,
    .awaitingUser]

def asDiditStatus (value : String) : Option DiditStatus := diditStatuses.find? fun status => status.text = value

def shouldFetchDecision (status : Option DiditStatus) : Bool :=
  [some .approved, some .declined, some .inReview, some .abandoned].contains status

def DiditWebhook.receivedAt (input : DiditWebhook) : ℤ := input.createdAt * 1000

def purpose (cfg : Configuration) (workflowId : Option WorkflowId) : Option Purpose :=
  if workflowId = some cfg.workflowId then some .baselineKyc
  else if cfg.proofOfAddressWorkflowId.isSome ∧ workflowId = cfg.proofOfAddressWorkflowId
    then some .ownerProofOfAddress
  else none

/-- For this application, about a person, and of a type that is handled. -/
def DiditWebhook.isConfigured (cfg : Configuration) (input : DiditWebhook) : Bool :=
  input.applicationId = cfg.applicationId ∧ input.environment = cfg.environment ∧ input.sessionKind ≠ some "business" ∧
    ["status.updated", "data.updated"].contains input.webhookType = true

/-- The decision is about this session, account, workflow and status. -/
def DiditWebhook.correlates (input : DiditWebhook) (accountId : AccountId) (decision : DiditDecisionSummary) : Bool :=
  decision.sessionId = input.sessionId ∧ decision.sessionKind ≠ some "business" ∧
    decision.vendorData = some accountId ∧ (decision.workflowId = none ∨ decision.workflowId = input.workflowId) ∧
    decision.status = asDiditStatus input.status

def unmatched (input : DiditWebhook) (reason : UnmatchedReason) : Run WebhookAnswer := do
  invoke (.recordUnmatchedProviderEvent input.eventId input.sessionId reason)
  return .ignored

def answerOf : Applied → WebhookAnswer
  | .applied => .received
  | .duplicate => .duplicate
  | .stale => .stale
  | .unmatched => .ignored

def DiditWebhook.outcomeInput (input : DiditWebhook) (target : KycEligibility)
    (decision : Option DiditDecisionSummary) :
    OutcomeInput :=
  ⟨.webhook input.eventId, input.sessionId, asDiditStatus input.status, input.receivedAt,
    evaluateDiditOutcome (asDiditStatus input.status) decision target.residenceCountryCode
      target.taxResidenceCountryCode input.receivedAt target.everRequiredManualReview⟩

def DiditWebhook.proofInput (input : DiditWebhook) (target : KycEligibility) (decision : Option DiditDecisionSummary) :
    ProofOfAddressInput :=
  ⟨.webhook input.eventId, input.sessionId, asDiditStatus input.status, input.receivedAt,
    evaluateProofOfAddressOutcome (asDiditStatus input.status) decision target.residenceCountryCode input.receivedAt⟩

def applyWebhook (input : DiditWebhook) (target : KycEligibility) (decision : Option DiditDecisionSummary) :
    Purpose → Run WebhookAnswer
  | .baselineKyc => do
    let result ← invoke (.applyProviderOutcome (input.outcomeInput target decision))
    return answerOf result
  | .ownerProofOfAddress => do
    let result ← invoke (.applyProofOfAddressOutcome (input.proofInput target decision))
    return answerOf result

def findTarget (sessionId : DiditReference) : Purpose → Run (Option KycEligibility)
  | .baselineKyc => invoke (.findByDiditReference sessionId)
  | .ownerProofOfAddress => invoke (.findByProofOfAddressDiditReference sessionId)

def invalidateForBaseline (accountId : AccountId) : Purpose → Run Unit
  | .baselineKyc => attempt (invoke (.invalidateDisplayProfile accountId))
  | .ownerProofOfAddress => .ret ()

/-- The decision is fetched where the status calls for one, and has to correlate. -/
def decideWebhook (didit : DiditReference → Run DiditDecisionSummary) (input : DiditWebhook) (target : KycEligibility)
    (purpose : Purpose) : Run WebhookAnswer :=
  if shouldFetchDecision (asDiditStatus input.status) then do
    let decision ← didit input.sessionId
    if input.correlates target.accountId decision then applyWebhook input target (some decision) purpose
    else unmatched input .correlationMismatch
  else applyWebhook input target none purpose

/-- `didit` is the provider's client. -/
def processDiditWebhook (cfg : Configuration) (didit : DiditReference → Run DiditDecisionSummary)
    (input : DiditWebhook) : Run WebhookAnswer := do
  let processed ← invoke (.hasProcessedProviderEvent input.eventId)
  if processed then return .duplicate
  else if input.isConfigured cfg then
    match purpose cfg input.workflowId with
    | none => unmatched input .configurationMismatch
    | some purpose => do
      let target ← findTarget input.sessionId purpose
      match target with
      | none => unmatched input .sessionNotFound
      | some target =>
        if input.vendorData ≠ some target.accountId then unmatched input .correlationMismatch
        else do
          invalidateForBaseline target.accountId purpose
          decideWebhook didit input target purpose
  else unmatched input .configurationMismatch

def renewOne (now leadDays : ℤ) (acted : Nat) (account : RenewalCandidate) : Run Nat :=
  if isRenewalOverdue account.renewalDueAt now then do
    let transitioned ← invoke (.transitionToRequiresRenewal account.accountId now)
    return if transitioned then acted + 1 else acted
  else match account.contactEmail with
    | none => return acted
    | some address =>
      if isRenewalReminderDue account.renewalDueAt now leadDays then do
        invoke (.sendKycRenewalReminderEmail address account.renewalDueAt)
        return acted + 1
      else return acted

/-- How many accounts were looked at, and on how many something was done. -/
def runKycRenewalTimer : Run (Nat × Nat) := do
  let now ← invoke .clock
  let accounts ← invoke .listEligibleAccountsForRenewalTimer
  let leadDays ← invoke .getRenewalReminderLeadDays
  let acted ← accounts.foldlM (renewOne now leadDays) 0
  return (accounts.length, acted)

def expireOne (timeoutMs now : ℤ) (acted : Nat) (session : StuckCreation) : Run Nat :=
  if isSessionStuck session.updatedAt now timeoutMs then
    match session.kind with
    | .baselineKyc => do
      invoke (.failSessionStart session.accountId session.sessionStartId now)
      return acted + 1
    | .ownerProofOfAddress => do
      invoke (.failProofOfAddressSessionStart session.accountId session.sessionStartId now)
      return acted + 1
  else return acted

/-- Checked, acted and overdue. -/
def expireStuckSessionCreations (timeoutMs : ℤ) : Run (Nat × Nat × Nat) := do
  let now ← invoke .clock
  let stuck ← invoke .listStuckSessionCreationsForTimer
  let acted ← stuck.foldlM (expireOne timeoutMs now) 0
  return (stuck.length, acted, stuck.countP fun session => isSessionStuck session.updatedAt now timeoutMs)

def isStillPending (status : Option DiditStatus) : Bool :=
  [none, some .notStarted, some .inProgress, some .awaitingUser].contains status

def StuckOpen.outcomeInput (session : StuckOpen) (diditReference : DiditReference) (decision : DiditDecisionSummary)
    (now : ℤ) : OutcomeInput :=
  ⟨.reconciliation, diditReference, decision.status, now,
    evaluateDiditOutcome decision.status (some decision) session.residenceCountryCode
      session.taxResidenceCountryCode now
      session.everRequiredManualReview⟩

def StuckOpen.proofInput (session : StuckOpen) (diditReference : DiditReference) (decision : DiditDecisionSummary)
    (now : ℤ) : ProofOfAddressInput :=
  ⟨.reconciliation, diditReference, decision.status, now,
    evaluateProofOfAddressOutcome decision.status (some decision) session.residenceCountryCode now⟩

def reconcileOne (didit : DiditReference → Run DiditDecisionSummary) (timeoutMs now : ℤ) (acted : Nat)
    (session : StuckOpen) : Run Nat :=
  if isSessionStuck session.updatedAt now timeoutMs then
    match session.diditReference with
    | none => .fail .fault
    | some diditReference => do
      let decision ← didit diditReference
      if isStillPending decision.status then return acted
      else match session.kind with
        | .baselineKyc => do
          let _ ← invoke (.applyProviderOutcome (session.outcomeInput diditReference decision now))
          return acted + 1
        | .ownerProofOfAddress => do
          let _ ← invoke (.applyProofOfAddressOutcome (session.proofInput diditReference decision now))
          return acted + 1
  else return acted

def reconcileStuckOpenSessions (didit : DiditReference → Run DiditDecisionSummary) (timeoutMs : ℤ) :
    Run (Nat × Nat × Nat) := do
  let now ← invoke .clock
  let stuck ← invoke .listStuckOpenSessionsForTimer
  let acted ← stuck.foldlM (reconcileOne didit timeoutMs now) 0
  return (stuck.length, acted, stuck.countP fun session => isSessionStuck session.updatedAt now timeoutMs)

variable {c : Choice} {op : Op} {t : Nat} {w w' : World}

inductive Job where
  | startSession (accountId : AccountId) (residenceCountryCode taxResidenceCountryCode : CountryCode)
  | startProofOfAddress (workflowId : WorkflowId) (accountId : AccountId)
  | webhook (input : DiditWebhook)
  | renewalTimer
  | expireCreations
  | reconcileOpen

/-- The answer goes to the caller, or into the worker's log. -/
def answered {α : Type} (p : Run α) : Run Unit := p >>= fun _ => .ret ()

/-- The provider is asked over the network. -/
def diditClient (sessionId : DiditReference) : Run DiditDecisionSummary := invoke (.getDecision sessionId)

def Job.program (cfg : Configuration) : Job → Run Unit
  | .startSession accountId residenceCountryCode taxResidenceCountryCode =>
    answered (startKycSession cfg accountId residenceCountryCode taxResidenceCountryCode)
  | .startProofOfAddress workflowId accountId => answered (startProofOfAddressSession workflowId accountId)
  | .webhook input => answered (processDiditWebhook cfg diditClient input)
  | .renewalTimer => answered runKycRenewalTimer
  | .expireCreations => answered (expireStuckSessionCreations cfg.creatingTimeoutMs)
  | .reconcileOpen => answered (reconcileStuckOpenSessions diditClient cfg.openThresholdMs)

def system (cfg : Configuration) : Semantics World Choice Event Job Failure Op Op.Out where
  exec := exec
  env := env
  job := Job.program cfg

/-- Accounts that have not begun to verify. -/
def World.start (now : ℤ) (accounts : List Account) (decisions : DiditReference → DiditDecisionSummary) : World :=
  ⟨now, accounts, [], [], [], [], [], decisions, []⟩

/-- A call took effect, whether or not it could answer, or it has thrown without
effect. -/
theorem exec_inv (h : exec t op c w = some (r, w')) :
    (∃ a, op.run c w = some (a, w') ∧ op.conflicts w = false ∧ ∀ b, r = .ok b → b = a) ∨
      (r = .error .fault ∧ w' = w) := by
  obtain ⟨⟨a, w₁⟩, hrun, hr⟩ := Option.map_eq_some_iff.mp h
  split at hr
  · cases hr
    exact .inr ⟨rfl, rfl⟩
  · rename_i hconflicts
    have hfree : op.conflicts w = false := by simpa using hconflicts
    split at hr
    · cases hr
      exact .inl ⟨a, hrun, hfree, fun b hb => (Except.ok.inj hb).symm⟩
    · rename_i applied _
      cases hr
      cases applied with
      | true => exact .inl ⟨a, hrun, hfree, nofun⟩
      | false => exact .inr ⟨rfl, rfl⟩

theorem exec_ok (h : exec t op c w = some (.ok a, w')) : op.run c w = some (a, w') := by
  obtain ⟨a', hrun, -, hanswer⟩ | ⟨hthrown, -⟩ := exec_inv (t := t) h
  · rw [hanswer a rfl]
    exact hrun
  · cases hthrown

end Kyc
