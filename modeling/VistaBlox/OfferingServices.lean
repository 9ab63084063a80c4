import VistaBlox.Interleaving
import VistaBlox.Offering

/-!
# The offering services

The services as programs over the transactions, the reads of `getInvestorDetail`, the two
onramp calls and the clock; each may throw, with or without effect.

History: a transaction that a later money event rests on answers how many money events there
were, and the write carries that number along.
-/
namespace Offering

open Interleaving
open Shared (AppError)

inductive Failure where
  | fault (detail : Nat)
  | database (e : DatabaseError)
  | app (e : AppError)
  deriving DecidableEq

inductive OnrampTransactionStatus where
  | created | inProgress | success | failed
  deriving DecidableEq, Repr

/-- The credited amount is in millionths of a euro. -/
structure OnrampTransactionSummary where
  transactionId : Nat
  status : OnrampTransactionStatus
  purchaseCurrency : String
  purchaseAmountValue : Nat
  deriving DecidableEq

inductive Op where
  | clock
  | findOffering (offeringId : OfferingId)
  | findAccount (accountId : AccountId)
  | offeringProgress (offeringId : OfferingId)
  | generateReservationId
  | createReservation (input : CreateReservationInput)
  | createOnrampSessionToken (walletAddress : Nat)
  | recordMoneyEvent (input : MoneyEventInput) (asOf : Nat)
  | listPendingPurchaseReservationsForTimers
  | listBuyTransactions (partnerUserRef : ReservationId)
  | listInitiatedReservationsForTimers
  | expireReservation (reservationId : ReservationId)
  | publishFinalOfferingTerms (offeringId : OfferingId) (publishedAt : Nat)
  | reconfirmReservation (reservationId : ReservationId) (accountId : AccountId) (reconfirmedAt : Nat)
  | listOfferingsPendingFinalizationCommit
  | commitOfferingFinalization (offeringId : OfferingId) (finalizedAt : Nat)
  | classifyMateriality (input : ClassifyMaterialityInput)
  | publishDisclosurePack (offeringId : OfferingId) (documents : List DisclosureDocumentType) (publishedAt : Nat)

@[reducible] def Op.Out : Op → Type
  | .clock => Nat
  | .findOffering _ => Option (OfferingRecord × Option DisclosurePack)
  | .findAccount _ => Option AccountReadiness
  | .offeringProgress _ => Nat × Nat
  | .generateReservationId => ReservationId
  | .createReservation _ => CreateReservationResult × Nat
  | .createOnrampSessionToken _ => Nat
  | .recordMoneyEvent .. => Unit
  | .listPendingPurchaseReservationsForTimers => List PendingPurchaseReservationForTimer × Nat
  | .listBuyTransactions _ => List OnrampTransactionSummary
  | .listInitiatedReservationsForTimers => List InitiatedReservationForTimer
  | .expireReservation _ => Bool
  | .publishFinalOfferingTerms .. => Except PublishConflict PublishedTerms
  | .reconfirmReservation .. => Except ReconfirmConflict Nat
  | .listOfferingsPendingFinalizationCommit => List (OfferingId × Nat)
  | .commitOfferingFinalization .. => Except CommitConflict (Nat × Nat)
  | .classifyMateriality _ => Except ClassifyConflict ClassifiedMateriality
  | .publishDisclosurePack .. => Except DisclosurePackConflict DisclosurePack

/-- What the world leaves open: faults, identifiers drawn, and what the onramp
provider reports. -/
structure Choice where
  fault : Option Bool
  fresh : Nat → Nat
  purchases : List OnrampTransactionSummary

def lift (r : Except DatabaseError α × Database) : Except Failure α × Database :=
  (match r.1 with
    | .ok a => .ok a
    | .error e => .error (.database e), r.2)

def Op.run (c : Choice) (w : Database) : (op : Op) → Except Failure op.Out × Database
  | .clock => (.ok w.now, { w with now := w.now + 1 })
  | .findOffering o => (.ok ((w.offering o).map fun row => (row, currentPack w o)), w)
  | .findAccount a => (.ok (w.accounts a), w)
  | .offeringProgress o => (.ok (reservedCapacityEur w.reservations o, fundedEur w o), w)
  | .generateReservationId => (.ok (c.fresh 0), w)
  | .createReservation input =>
    let r := lift (Offering.createReservation c.fresh input w)
    (r.1.map fun result => (result, r.2.moneyEvents.length), r.2)
  | .createOnrampSessionToken _ => (.ok (c.fresh 0), w)
  | .recordMoneyEvent input _ => lift (Offering.recordMoneyEvent c.fresh input w)
  | .listPendingPurchaseReservationsForTimers =>
    (.ok (Offering.listPendingPurchaseReservationsForTimers w, w.moneyEvents.length), w)
  | .listBuyTransactions _ => (.ok c.purchases, w)
  | .listInitiatedReservationsForTimers => (.ok (Offering.listInitiatedReservationsForTimers w), w)
  | .expireReservation r => let done := Offering.expireReservation r w; (.ok done.1, done.2)
  | .publishFinalOfferingTerms o publishedAt =>
    let done := Offering.publishFinalOfferingTerms c.fresh o publishedAt w; (.ok done.1, done.2)
  | .reconfirmReservation r a reconfirmedAt =>
    let done := Offering.reconfirmReservation r a reconfirmedAt w; (.ok done.1, done.2)
  | .listOfferingsPendingFinalizationCommit => (.ok (Offering.listOfferingsPendingFinalizationCommit w), w)
  | .commitOfferingFinalization o finalizedAt =>
    let done := Offering.commitOfferingFinalization c.fresh o finalizedAt w; (.ok done.1, done.2)
  | .classifyMateriality input => let done := Offering.classifyMateriality input w; (.ok done.1, done.2)
  | .publishDisclosurePack o documents publishedAt =>
    let done := Offering.publishDisclosurePack o documents publishedAt w; (.ok done.1, done.2)

def exec (_ : Nat) (op : Op) (c : Choice) (w : Database) : Option (Except Failure op.Out × Database) :=
  some (match c.fault with
    | none => op.run c w
    | some applied => (.error (.fault (c.fresh 0)), if applied then (op.run c w).2 else w))

inductive Event where
  | tick (ms : Nat)
  | setAccount (accountId : AccountId) (account : Option AccountReadiness)
  | openOffering (id : OfferingId) (pivId : PivId) (targetRaiseEur : Nat)

def env : Event → Database → Option Database
  | .tick ms, w => some { w with now := w.now + ms }
  | .setAccount a account, w => some { w with accounts := Function.update w.accounts a account }
  | .openOffering id pivId target, w =>
    if (w.offering id).isSome ∨ target = 0 then none
    else some { w with offerings := w.offerings ++ [⟨id, pivId, target, .preOffering, none, none, none, target⟩] }

abbrev Run := Prog Failure Op Op.Out

def invoke (op : Op) : Run op.Out := Prog.perform op

def reject (e : AppError) : Run α := .fail (.app e)

def offeringNotFoundError : AppError :=
  ⟨"offering.not_found", "Offering not found", 404, "The requested offering does not exist.", []⟩

def ReservationBlocker.code : ReservationBlocker → String
  | .accountRestricted => "account_restricted"
  | .kycNotEligible => "kyc_not_eligible"
  | .kycRenewalDue => "kyc_renewal_due"
  | .loginMethodsIncomplete => "login_methods_incomplete"
  | .paymentAccountNotReady => "payment_account_not_ready"
  | .disclosurePackUnavailable => "disclosure_pack_unavailable"
  | .offeringNotOpen => "offering_not_open"
  | .capacityExhausted => "capacity_exhausted"
  | .fundingRailUnavailable => "funding_rail_unavailable"
  | .recoveryCooldownActive => "recovery_cooldown_active"

def blockerMessages : ReservationBlocker → String
  | .accountRestricted => "The account is not active."
  | .kycNotEligible => "Identity verification is not currently eligible."
  | .kycRenewalDue => "Identity verification has expired and needs renewal."
  | .loginMethodsIncomplete => "Sign in with Google or Apple and enrol this device before investing."
  | .paymentAccountNotReady => "No wallet is registered for this account."
  | .disclosurePackUnavailable => "No current disclosure pack is available for this offering."
  | .offeringNotOpen => "This offering is not currently open for reservations."
  | .capacityExhausted => "This offering has no remaining capacity."
  | .fundingRailUnavailable => "Reservation funding is not currently available."
  | .recoveryCooldownActive => "This account is in a post-recovery restriction window."

def reservationNotAvailableError (blockers : List ReservationBlocker) : AppError :=
  ⟨"offering.reservation_not_available", "Reservation not available", 409,
    "This offering is not currently available for a reservation by this account.",
    blockers.map fun b => ⟨"reservation", b.code, blockerMessages b⟩⟩

def amountExceedsCapacityError : AppError :=
  let text := "The requested amount exceeds this offering's remaining capacity."
  ⟨"offering.reservation_amount_exceeds_capacity", "Amount exceeds remaining capacity", 422, text,
    [⟨"amount_eur", "exceeds_remaining_capacity", text⟩]⟩

def idempotencyKeyReusedError : AppError :=
  ⟨"offering.idempotency_key_reused", "Idempotency key already used", 409,
    "This Idempotency-Key was already used to create a reservation for a different amount.", []⟩

def reservationReplayUnavailableError : AppError :=
  ⟨"offering.reservation_replay_unavailable", "Reservation can no longer be retried", 409,
    "The reservation created under this Idempotency-Key can no longer be paid through a new payment session. " ++
    "Check your reservations to see its current state.", []⟩

def PublishConflict.error : PublishConflict → AppError
  | .offeringNotFound => offeringNotFoundError
  | .notOpen => ⟨"offering.finalization_not_available", "Offering cannot be finalized", 409,
      "This offering is not currently open for finalization.", []⟩
  | .alreadyPublished => ⟨"offering.finalization_not_available", "Offering cannot be finalized", 409,
      "This offering's final terms have already been published.", []⟩
  | .targetNotReached => ⟨"offering.finalization_target_not_reached", "Offering cannot be finalized", 409,
      "This offering has not yet collected its full target raise (AD-245: no partial-funding path).", []⟩
  | .disclosurePackIncomplete => ⟨"offering.finalization_disclosure_pack_incomplete",
      "Offering cannot be finalized", 409, "This offering has no complete, current disclosure pack yet — " ++
      "publish one before publishing final terms.", []⟩

def ReconfirmConflict.error : ReconfirmConflict → AppError
  | .notFound => ⟨"offering.reservation_not_found", "Reservation not found", 404,
      "The requested reservation does not exist.", []⟩
  | .notAwaitingReconfirmation => ⟨"offering.reservation_not_awaiting_reconfirmation",
      "Reservation cannot be reconfirmed", 409, "This reservation is not currently awaiting reconfirmation.", []⟩
  | .windowClosed => ⟨"offering.reconfirmation_window_closed", "Reservation cannot be reconfirmed", 409,
      "The reconfirmation window for this offering has already closed.", []⟩
  | .disclosurePackIncomplete => ⟨"offering.reconfirmation_disclosure_pack_incomplete",
      "Reservation cannot be reconfirmed", 409, "The current disclosure pack for this offering is incomplete; " ++
      "reconfirmation is not yet available.", []⟩

def ClassifyConflict.error : ClassifyConflict → AppError
  | .offeringNotFound => offeringNotFoundError
  | .noActiveReconfirmationWindow => ⟨"offering.materiality_classification_not_available",
      "Materiality change cannot be recorded", 409, "This offering has no active reconfirmation window — " ++
      "final terms must be published and not yet committed.", []⟩

def DisclosurePackConflict.error : DisclosurePackConflict → AppError
  | .offeringNotFound => offeringNotFoundError
  | .notOpen => ⟨"offering.disclosure_pack_not_available", "Disclosure pack cannot be published", 409,
      "This offering is not currently open for a disclosure pack update.", []⟩

section CreateReservation

structure CreateReservationServiceOptions where
  fundingRailAvailable : Bool
  expiryMinutes : Nat

structure ReservationRequest where
  offeringId : OfferingId
  accountId : AccountId
  amountEur : Nat
  clientIdempotencyKey : Option String

structure CreateReservationResponse where
  reservationId : ReservationId
  offeringId : OfferingId
  amountEur : Nat
  expiresAt : Nat
  channelId : Nat

structure InvestorDetail where
  offering : OfferingRecord
  pack : Option DisclosurePack
  reservedCapacityEur : Nat
  fundedEur : Nat
  account : AccountReadiness

variable (options : CreateReservationServiceOptions)

/-- The queries are sent together; each sees the database at its own moment. -/
def getInvestorDetail (offeringId : OfferingId) (accountId : AccountId) : Run (Option InvestorDetail) := do
  let offering ← invoke (.findOffering offeringId)
  let account ← invoke (.findAccount accountId)
  let progress ← invoke (.offeringProgress offeringId)
  return offering.bind fun found => account.map fun readiness =>
    ⟨found.1, found.2, progress.1, progress.2, readiness⟩

def blockersInput (now : Nat) (detail : InvestorDetail) : BlockersInput where
  now := now
  fundingRailAvailable := options.fundingRailAvailable
  offeringStatus := detail.offering.status
  finalTermsPublished := detail.offering.finalOfferingPublishedAt.isSome
  hasDisclosurePack := detail.pack.any fun p => p.documents.length > 0
  remainingCapacityEur := subtractCurrencyFloorZero detail.offering.targetRaiseEur detail.reservedCapacityEur
  account := detail.account

def assertReplayable (replay : ReusedReservationState) (reservationCreatedAt requestedAmountEur now : Nat) :
    Run Unit :=
  if replay.amountEur ≠ requestedAmountEur then reject idempotencyKeyReusedError
  else if replay.reservationStage ≠ .initiated ∨ isReservationFunded replay.latestCapitalState = true ∨
      isReservationExpired reservationCreatedAt now options.expiryMinutes = true then
    reject reservationReplayUnavailableError
  else .ret ()

def purchaseEvent (reservationId : ReservationId) (capitalState : CapitalState) (channelId : Option Nat)
    (amountEur recordedAt : Nat) : MoneyEventInput :=
  ⟨reservationId, .coinbaseCdp, channelId, capitalState, amountEur, none, recordedAt⟩

/-- Open an onramp session; a request that created the reservation notes a
failure, a replay never does. -/
def openSession (reservationId : ReservationId) (reused : Bool) (amountEur walletAddress asOf : Nat) : Run Nat :=
  Prog.catchWith (invoke (.createOnrampSessionToken walletAddress)) fun e =>
    if reused then .fail e
    else do
      let recordedAt ← invoke .clock
      invoke (.recordMoneyEvent (purchaseEvent reservationId .purchaseFailed none amountEur recordedAt) asOf)
      .fail e

/-- The part of the request after the reservation is known. -/
def armPayment (request : ReservationRequest) (reservationId : ReservationId) (createdAt : Nat) (reused : Bool)
    (walletAddress asOf : Nat) : Run CreateReservationResponse := do
  let channelId ← openSession reservationId reused request.amountEur walletAddress asOf
  let recordedAt ← invoke .clock
  invoke (.recordMoneyEvent
    (purchaseEvent reservationId .eurcPurchasePending (some channelId) request.amountEur recordedAt) asOf)
  return ⟨reservationId, request.offeringId, request.amountEur, createdAt + options.expiryMinutes * 60000, channelId⟩

def reserve (request : ReservationRequest) (packVersion : Option Nat) (now walletAddress : Nat) :
    Run CreateReservationResponse := do
  let candidate ← invoke .generateReservationId
  let created ← invoke (.createReservation ⟨candidate, request.offeringId, request.accountId,
    request.clientIdempotencyKey, request.amountEur, packVersion, now⟩)
  match created.1 with
  | .conflict .offeringNotOpen => reject (reservationNotAvailableError [.offeringNotOpen])
  | .conflict .capacityExceeded => reject amountExceedsCapacityError
  | .created id createdAt => armPayment options request id createdAt false walletAddress created.2
  | .reused id createdAt replay =>
    assertReplayable options replay createdAt request.amountEur now
    armPayment options request id createdAt true walletAddress created.2

def createReservationService (request : ReservationRequest) : Run CreateReservationResponse := do
  let detail ← getInvestorDetail request.offeringId request.accountId
  match detail with
  | none => reject offeringNotFoundError
  | some detail =>
    let now ← invoke .clock
    let input := blockersInput options now detail
    if computeReservationBlockers input ≠ [] then
      reject (reservationNotAvailableError (computeReservationBlockers input))
    else if input.remainingCapacityEur < request.amountEur then reject amountExceedsCapacityError
    else match detail.account.walletAddress with
      | none => reject (reservationNotAvailableError [.paymentAccountNotReady])
      | some walletAddress =>
        reserve options request (detail.pack.map DisclosurePack.version) now walletAddress

end CreateReservation

inductive TransactionOutcome where
  | success (transaction : OnrampTransactionSummary)
  | failed (transaction : OnrampTransactionSummary)
  | pending
  deriving DecidableEq

def resolveOutcome (transactions : List OnrampTransactionSummary) : TransactionOutcome :=
  match transactions.find? fun t => t.status = .success with
  | some t => .success t
  | none =>
    if transactions.any fun t => t.status = .created ∨ t.status = .inProgress then .pending
    else match transactions.find? fun t => t.status = .failed with
      | some t => .failed t
      | none => .pending

def isPurchaseCovering (t : OnrampTransactionSummary) (reservedAmountEur : Nat) : Bool :=
  t.purchaseCurrency = "EURC" ∧ 0 < t.purchaseAmountValue ∧
    toEurcMicros reservedAmountEur * 9 / 10 ≤ t.purchaseAmountValue

/-- The money event an outcome leads to, if it leads to one. -/
def outcomeEvent (reservation : PendingPurchaseReservationForTimer) (recordedAt : Nat) :
    TransactionOutcome → Option MoneyEventInput
  | .pending => none
  | .failed t => some ⟨reservation.reservationId, .coinbaseCdp, some t.transactionId, .purchaseFailed,
      reservation.amountEur, none, recordedAt⟩
  | .success t =>
    if isPurchaseCovering t reservation.amountEur then
      some ⟨reservation.reservationId, .coinbaseCdp, some t.transactionId, .eurcReserved,
        reservation.amountEur, some t.purchaseAmountValue, recordedAt⟩
    else some ⟨reservation.reservationId, .coinbaseCdp, some t.transactionId, .purchaseFailed,
      reservation.amountEur, none, recordedAt⟩

theorem outcomeEvent_of (h : outcomeEvent reservation recordedAt outcome = some event) :
    event.reservationId = reservation.reservationId ∧ event.amountEur = reservation.amountEur := by
  cases outcome with
  | pending => cases h
  | failed =>
    cases h
    exact ⟨rfl, rfl⟩
  | success =>
    simp only [outcomeEvent] at h
    split_ifs at h <;> cases h <;> exact ⟨rfl, rfl⟩

/-- One round of the poll. -/
def pollOne (asOf : Nat) (acted : Nat) (reservation : PendingPurchaseReservationForTimer) : Run Nat := do
  let transactions ← invoke (.listBuyTransactions reservation.reservationId)
  let outcome := resolveOutcome transactions
  if outcome = .pending then return acted
  else
    let recordedAt ← invoke .clock
    match outcomeEvent reservation recordedAt outcome with
    | none => return acted
    | some event =>
      invoke (.recordMoneyEvent event asOf)
      return acted + 1

def pollOnrampTransactionsService : Run (Nat × Nat) := do
  let pending ← invoke .listPendingPurchaseReservationsForTimers
  let acted ← pending.1.foldlM (pollOne pending.2) 0
  return (pending.1.length, acted)

def expireOne (now expiryMinutes : Nat) (acted : Nat) (reservation : InitiatedReservationForTimer) : Run Nat := do
  if isReservationExpired reservation.createdAt now expiryMinutes = false then return acted
  else if isReservationFunded reservation.latestCapitalState then return acted
  else
    let expired ← invoke (.expireReservation reservation.reservationId)
    return if expired then acted + 1 else acted

def expireUnfundedReservationsService (expiryMinutes : Nat) : Run (Nat × Nat) := do
  let now ← invoke .clock
  let reservations ← invoke .listInitiatedReservationsForTimers
  let acted ← reservations.foldlM (expireOne now expiryMinutes) 0
  return (reservations.length, acted)

def commitOne (now : Nat) (acted : Nat) (offering : OfferingId × Nat) : Run Nat := do
  if isReconfirmationWindowOpen offering.2 now then return acted
  else
    let result ← invoke (.commitOfferingFinalization offering.1 now)
    match result with
    | .ok _ => return acted + 1
    | .error _ => return acted

def commitOfferingFinalizationService : Run (Nat × Nat) := do
  let now ← invoke .clock
  let pending ← invoke .listOfferingsPendingFinalizationCommit
  let acted ← pending.foldlM (commitOne now) 0
  return (pending.length, acted)

/-- Report a transaction's conflict as an error. -/
def answer (error : ε → AppError) : Except ε α → Run α
  | .ok a => .ret a
  | .error e => reject (error e)

def finalizeOfferingService (offeringId : OfferingId) : Run PublishedTerms := do
  let publishedAt ← invoke .clock
  let result ← invoke (.publishFinalOfferingTerms offeringId publishedAt)
  answer PublishConflict.error result

def reconfirmReservationService (accountId : AccountId) (reservationId : ReservationId) : Run Nat := do
  let reconfirmedAt ← invoke .clock
  let result ← invoke (.reconfirmReservation reservationId accountId reconfirmedAt)
  answer ReconfirmConflict.error result

def classifyMaterialityService (offeringId : OfferingId) (accountId : AccountId) (changeDescription : String)
    (classification : MaterialityClassification) (thresholdType : Option MaterialityThresholdType) :
    Run ClassifiedMateriality := do
  let classifiedAt ← invoke .clock
  let result ← invoke (.classifyMateriality
    ⟨offeringId, accountId, changeDescription, classification, thresholdType, classifiedAt⟩)
  answer ClassifyConflict.error result

def publishDisclosurePackService (offeringId : OfferingId) (documents : List DisclosureDocumentType) :
    Run DisclosurePack := do
  let publishedAt ← invoke .clock
  let result ← invoke (.publishDisclosurePack offeringId documents publishedAt)
  answer DisclosurePackConflict.error result

inductive Job where
  | createReservation (request : ReservationRequest)
  | pollOnrampTransactions
  | expireUnfundedReservations
  | finalizeOffering (offeringId : OfferingId)
  | reconfirmReservation (accountId : AccountId) (reservationId : ReservationId)
  | commitOfferingFinalization
  | classifyMateriality (offeringId : OfferingId) (accountId : AccountId) (changeDescription : String)
      (classification : MaterialityClassification) (thresholdType : Option MaterialityThresholdType)
  | publishDisclosurePack (offeringId : OfferingId) (documents : List DisclosureDocumentType)

def Job.run (options : CreateReservationServiceOptions) : Job → Run Unit
  | .createReservation request => (createReservationService options request).bind fun _ => .ret ()
  | .pollOnrampTransactions => pollOnrampTransactionsService.bind fun _ => .ret ()
  | .expireUnfundedReservations => (expireUnfundedReservationsService options.expiryMinutes).bind fun _ => .ret ()
  | .finalizeOffering o => (finalizeOfferingService o).bind fun _ => .ret ()
  | .reconfirmReservation a r => (reconfirmReservationService a r).bind fun _ => .ret ()
  | .commitOfferingFinalization => commitOfferingFinalizationService.bind fun _ => .ret ()
  | .classifyMateriality o a text c threshold =>
    (classifyMaterialityService o a text c threshold).bind fun _ => .ret ()
  | .publishDisclosurePack o documents => (publishDisclosurePackService o documents).bind fun _ => .ret ()

/-- Any number of requests and timer runs against one database. -/
def system (options : CreateReservationServiceOptions) :
    Semantics Database Choice Event Job Failure Op Op.Out where
  exec := exec
  env := env
  job := Job.run options

end Offering
