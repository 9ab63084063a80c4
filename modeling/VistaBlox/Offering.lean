import VistaBlox.AppError
import VistaBlox.Currency
import VistaBlox.Table
import Mathlib.Data.List.MinMax
import Mathlib.Data.Prod.Lex

/-!
# The offering module's tables and transactions

The tables, the policies of the domain layer, and one function for each repository
transaction. Euro amounts are cents. Identifiers the code draws at random are inputs.
-/
namespace Offering

open Currency (costBasisToUnitCount fromCents)

abbrev OfferingId := Nat
abbrev ReservationId := Nat
abbrev AccountId := Nat
abbrev PivId := Nat

inductive OfferingStatus where
  | preOffering | finalOffering | closed
  deriving DecidableEq, Repr

inductive ReservationStage where
  | initiated | awaitingReconfirmation | reconfirmed | finalized | cancelled | lapsed
  deriving DecidableEq, Repr

inductive CapitalState where
  | initiated | eurcPurchasePending | purchaseFailed | eurcReserved | reconfirmationPending | eurcFinalized
  deriving DecidableEq, Repr

inductive Provider where
  | coinbaseCdp | internal
  deriving DecidableEq, Repr

inductive DisclosureDocumentType where
  | ecspKiis | priipsKid | finalOfferSummary | finalTermsSheet | issuerOfferorStructureSheet
  | investorRightsPayoutWaterfallSummary | riskFactorsSummary | propertyAppraisalSummary
  | feesCostsTaxLiquiditySummary | withdrawalCancellationSupplementRightsNotice | fullProspectus
  deriving DecidableEq, Repr

structure OfferingRecord where
  id : OfferingId
  pivId : PivId
  targetRaiseEur : Nat
  status : OfferingStatus
  finalOfferingPublishedAt : Option Nat
  platformRightsEndAt : Option Nat
  effectiveRightsEndAt : Option Nat
  minimumRaiseEur : Nat
  deriving DecidableEq

structure Reservation where
  id : ReservationId
  offeringId : OfferingId
  accountId : AccountId
  clientIdempotencyKey : Option String
  amountEur : Nat
  reservationStage : ReservationStage
  disclosurePackVersionAtReservation : Option Nat
  createdAt : Nat
  reconfirmedAt : Option Nat
  reservationFinalizedAt : Option Nat
  deriving DecidableEq

structure MoneyEvent where
  id : Nat
  reservationId : ReservationId
  provider : Provider
  providerReference : Option Nat
  capitalState : CapitalState
  amountEur : Nat
  amountEurc : Option Nat
  recordedAt : Nat
  deriving DecidableEq

structure DisclosurePack where
  offeringId : OfferingId
  version : Nat
  documents : List DisclosureDocumentType
  publishedAt : Nat
  supersededAt : Option Nat
  isCurrent : Bool
  deriving DecidableEq

structure Position where
  reservationId : ReservationId
  pivId : PivId
  accountId : AccountId
  unitCount : Nat
  costBasisEur : Nat
  holderWalletAddress : Option Nat
  deriving DecidableEq

def fundedCapitalStates : List CapitalState := [.eurcReserved, .reconfirmationPending, .eurcFinalized]

def isReservationFunded (latestCapitalState : Option CapitalState) : Bool :=
  latestCapitalState.any fun s => s ∈ fundedCapitalStates

def isReservationExpired (createdAt now expiryMinutes : Nat) : Bool := createdAt + expiryMinutes * 60000 < now

inductive AccountReadinessStatus where
  | active | recoveryReview | suspendedRestricted
  deriving DecidableEq, Repr

inductive LoginMethod where
  | passkey | google | apple | deviceKey
  deriving DecidableEq, Repr

structure AccountReadiness where
  status : AccountReadinessStatus
  loginMethods : List LoginMethod
  kycEligibilityState : Option String
  kycRenewalDueAt : Option Nat
  walletAddress : Option Nat
  recoveryCooldownEndsAt : Option Nat
  deriving DecidableEq

def isKycCurrent (kycEligibilityState : Option String) (kycRenewalDueAt : Option Nat) (now : Nat) : Bool :=
  kycEligibilityState = some "eligible" ∧ kycRenewalDueAt.any fun due => now < due

def isLoginMethodsComplete (loginMethods : List LoginMethod) : Bool :=
  .deviceKey ∈ loginMethods ∧ (.google ∈ loginMethods ∨ .apple ∈ loginMethods)

inductive ReservationBlocker where
  | accountRestricted | kycNotEligible | kycRenewalDue | loginMethodsIncomplete | paymentAccountNotReady
  | disclosurePackUnavailable | offeringNotOpen | capacityExhausted | fundingRailUnavailable
  | recoveryCooldownActive
  deriving DecidableEq, Repr

structure BlockersInput where
  now : Nat
  fundingRailAvailable : Bool
  offeringStatus : OfferingStatus
  finalTermsPublished : Bool
  hasDisclosurePack : Bool
  remainingCapacityEur : Nat
  account : AccountReadiness

def computeReservationBlockers (input : BlockersInput) : List ReservationBlocker :=
  let account := input.account
  let push (c : Bool) (blocker : ReservationBlocker) : List ReservationBlocker := if c then [blocker] else []
  push (account.status ≠ .active) .accountRestricted ++
  (if account.kycEligibilityState ≠ some "eligible" then [.kycNotEligible]
    else push (!isKycCurrent account.kycEligibilityState account.kycRenewalDueAt input.now) .kycRenewalDue) ++
  push (!isLoginMethodsComplete account.loginMethods) .loginMethodsIncomplete ++
  push account.walletAddress.isNone .paymentAccountNotReady ++
  push (!input.hasDisclosurePack) .disclosurePackUnavailable ++
  push (input.offeringStatus ≠ .preOffering || input.finalTermsPublished) .offeringNotOpen ++
  push (input.remainingCapacityEur = 0) .capacityExhausted ++
  push (!input.fundingRailAvailable) .fundingRailUnavailable ++
  push (account.recoveryCooldownEndsAt.any fun ends => input.now < ends) .recoveryCooldownActive

def canPublishFinalOfferingTerms (status : OfferingStatus) (finalOfferingPublishedAt : Option Nat)
    (targetRaiseEur fundedEur : Nat) : Bool :=
  status = .preOffering ∧ finalOfferingPublishedAt = none ∧ targetRaiseEur ≤ fundedEur

def platformRightsWindowHours : Nat := 168

def computeEffectiveRightsEndAt (publishedAt : Nat) : Nat := publishedAt + platformRightsWindowHours * 60 * 60 * 1000

def isReconfirmationWindowOpen (effectiveRightsEndAt now : Nat) : Bool := now < effectiveRightsEndAt

inductive MaterialityClassification where
  | perSeMaterial | reviewedMaterial | nonMaterial
  deriving DecidableEq, Repr

inductive MaterialityThresholdType where
  | valuation | cashflow | grossRent | closingDelay
  deriving DecidableEq, Repr

def materialityResetTriggered (classification : MaterialityClassification) : Bool := classification ≠ .nonMaterial

def disclosureDocumentTypes : List DisclosureDocumentType :=
  [.ecspKiis, .priipsKid, .finalOfferSummary, .finalTermsSheet, .issuerOfferorStructureSheet,
    .investorRightsPayoutWaterfallSummary, .riskFactorsSummary, .propertyAppraisalSummary,
    .feesCostsTaxLiquiditySummary, .withdrawalCancellationSupplementRightsNotice, .fullProspectus]

def isCompleteDisclosurePack (documentTypes : List DisclosureDocumentType) : Bool :=
  disclosureDocumentTypes.all fun required => required ∈ documentTypes

/-- Amounts are in cents here; in the code they are the texts that `Currency.fromCents` writes. -/
def subtractCurrencyFloorZero (minuend subtrahend : Nat) : Nat := minuend - subtrahend

theorem subtractCurrencyFloorZero_text (minuend subtrahend : Nat) :
    Currency.subtractCurrencyFloorZero (fromCents minuend) (fromCents subtrahend) =
      some (fromCents (subtractCurrencyFloorZero minuend subtrahend)) :=
  Currency.subtractCurrencyFloorZero_cents (Currency.toCents_fromCents _) (Currency.toCents_fromCents _)

def toEurcMicros (cents : Nat) : Nat := cents * 10 ^ 4

theorem toEurcMicros_text (cents : Nat) :
    Currency.toEurcMicros (fromCents cents) = some (toEurcMicros cents : Int) := by
  rw [← Currency.Decimal.text_ofCents, Currency.toEurcMicros_text, Currency.Decimal.micros_ofCents]
  rfl

structure MaterialityRecord where
  offeringId : OfferingId
  changeDescription : String
  classification : MaterialityClassification
  thresholdType : Option MaterialityThresholdType
  resetTriggered : Bool
  classifiedByAccountId : AccountId
  classifiedAt : Nat
  deriving DecidableEq

structure Database where
  now : Nat
  accounts : AccountId → Option AccountReadiness
  offerings : List OfferingRecord
  reservations : List Reservation
  moneyEvents : List MoneyEvent
  disclosurePacks : List DisclosurePack
  materialityRecords : List MaterialityRecord
  positions : List Position

def Database.offering (w : Database) (id : OfferingId) : Option OfferingRecord :=
  Table.find OfferingRecord.id w.offerings id

def Database.reservation (w : Database) (id : ReservationId) : Option Reservation :=
  Table.find Reservation.id w.reservations id

/-- `ORDER BY recorded_at DESC, money_event_id DESC` -/
def MoneyEvent.order (e : MoneyEvent) : ℕ ×ₗ ℕ := toLex (e.recordedAt, e.id)

def eventsOf (events : List MoneyEvent) (r : ReservationId) : List MoneyEvent :=
  events.filter fun e => e.reservationId = r

def latestMoney (events : List MoneyEvent) (r : ReservationId) : Option MoneyEvent :=
  (eventsOf events r).argmax MoneyEvent.order

def latestCapitalState (events : List MoneyEvent) (r : ReservationId) : Option CapitalState :=
  (latestMoney events r).map MoneyEvent.capitalState

/-- `reservation_stage NOT IN ('cancelled', 'lapsed')` -/
def ReservationStage.live (s : ReservationStage) : Bool := s ≠ .cancelled ∧ s ≠ .lapsed

def reservedCapacityEur (reservations : List Reservation) (o : OfferingId) : Nat :=
  Table.tally (fun r => r.offeringId = o ∧ r.reservationStage.live = true) Reservation.amountEur reservations

def latestAmountEur (events : List MoneyEvent) (r : Reservation) : Nat :=
  ((latestMoney events r.id).map MoneyEvent.amountEur).getD 0

/-- `funded_eur` as `getInvestorDetail` projects it. -/
def fundedEur (w : Database) (o : OfferingId) : Nat :=
  Table.tally (fun r => (r.offeringId = o ∧ r.reservationStage.live = true) ∧
    isReservationFunded (latestCapitalState w.moneyEvents r.id) = true) (latestAmountEur w.moneyEvents) w.reservations

/-- `funded_eur` as `publishFinalOfferingTerms` computes it. -/
def publishedFundedEur (w : Database) (o : OfferingId) : Nat :=
  Table.tally (fun r => r.offeringId = o ∧ isReservationFunded (latestCapitalState w.moneyEvents r.id) = true)
    (latestAmountEur w.moneyEvents) w.reservations

def currentPack (w : Database) (o : OfferingId) : Option DisclosurePack :=
  w.disclosurePacks.find? fun p => p.offeringId = o ∧ p.isCurrent = true ∧ p.supersededAt = none

def hasCompletePack (w : Database) (o : OfferingId) : Bool :=
  isCompleteDisclosurePack (((currentPack w o).map DisclosurePack.documents).getD [])

structure CreateReservationInput where
  reservationId : ReservationId
  offeringId : OfferingId
  accountId : AccountId
  clientIdempotencyKey : Option String
  amountEur : Nat
  disclosurePackVersionAtReservation : Option Nat
  createdAt : Nat

inductive CreateReservationConflict where
  | offeringNotOpen | capacityExceeded
  deriving DecidableEq, Repr

structure ReusedReservationState where
  amountEur : Nat
  reservationStage : ReservationStage
  latestCapitalState : Option CapitalState
  deriving DecidableEq

inductive CreateReservationResult where
  | conflict (c : CreateReservationConflict)
  | created (reservationId : ReservationId) (createdAt : Nat)
  | reused (reservationId : ReservationId) (createdAt : Nat) (replay : ReusedReservationState)
  deriving DecidableEq

/-- The database's own refusals. -/
inductive DatabaseError where
  | uniqueViolation | checkViolation | foreignKeyViolation
  deriving DecidableEq, Repr

section Transactions

variable (fresh : Nat → Nat)

def newReservation (input : CreateReservationInput) : Reservation where
  id := input.reservationId
  offeringId := input.offeringId
  accountId := input.accountId
  clientIdempotencyKey := input.clientIdempotencyKey
  amountEur := input.amountEur
  reservationStage := .initiated
  disclosurePackVersionAtReservation := input.disclosurePackVersionAtReservation
  createdAt := input.createdAt
  reconfirmedAt := none
  reservationFinalizedAt := none

def initiatedEvent (input : CreateReservationInput) : MoneyEvent :=
  ⟨fresh 0, input.reservationId, .coinbaseCdp, none, .initiated, input.amountEur, none, input.createdAt⟩

/-- The reservation this client operation key already stands for. -/
def replayOf (w : Database) (input : CreateReservationInput) : Option Reservation :=
  input.clientIdempotencyKey.bind fun key => w.reservations.find? fun r =>
    r.accountId = input.accountId ∧ r.offeringId = input.offeringId ∧ r.clientIdempotencyKey = some key

/-- The inserts of a new hold. -/
def Database.hold (w : Database) (input : CreateReservationInput) : Database :=
  { w with
    reservations := w.reservations ++ [newReservation input]
    moneyEvents := w.moneyEvents ++ [initiatedEvent fresh input] }

def createReservation (input : CreateReservationInput) (w : Database) :
    Except DatabaseError CreateReservationResult × Database :=
  match w.offering input.offeringId with
  | none => (.ok (.conflict .offeringNotOpen), w)
  | some offering =>
    if offering.status ≠ .preOffering then (.ok (.conflict .offeringNotOpen), w)
    else match replayOf w input with
      | some existing => (.ok (.reused existing.id existing.createdAt ⟨existing.amountEur, existing.reservationStage,
          latestCapitalState w.moneyEvents existing.id⟩), w)
      | none =>
        if offering.targetRaiseEur - reservedCapacityEur w.reservations input.offeringId < input.amountEur then
          (.ok (.conflict .capacityExceeded), w)
        else if input.amountEur = 0 then (.error .checkViolation, w)
        else if (w.reservation input.reservationId).isSome then (.error .uniqueViolation, w)
        else (.ok (.created input.reservationId input.createdAt), w.hold fresh input)

structure MoneyEventInput where
  reservationId : ReservationId
  provider : Provider
  providerReference : Option Nat
  capitalState : CapitalState
  amountEur : Nat
  amountEurc : Option Nat
  recordedAt : Nat
  deriving DecidableEq

def moneyEvent (id : Nat) (input : MoneyEventInput) : MoneyEvent :=
  ⟨id, input.reservationId, input.provider, input.providerReference, input.capitalState, input.amountEur,
    input.amountEurc, input.recordedAt⟩

def recordMoneyEvent (input : MoneyEventInput) (w : Database) : Except DatabaseError Unit × Database :=
  if (w.reservation input.reservationId).isNone then (.error .foreignKeyViolation, w)
  else if input.amountEur = 0 ∨ input.amountEurc = some 0 then (.error .checkViolation, w)
  else (.ok (), { w with moneyEvents := w.moneyEvents ++ [moneyEvent (fresh 0) input] })

structure InitiatedReservationForTimer where
  reservationId : ReservationId
  createdAt : Nat
  latestCapitalState : Option CapitalState
  deriving DecidableEq

def listInitiatedReservationsForTimers (w : Database) : List InitiatedReservationForTimer :=
  (w.reservations.filter fun r => r.reservationStage = .initiated).map fun r =>
    ⟨r.id, r.createdAt, latestCapitalState w.moneyEvents r.id⟩

structure PendingPurchaseReservationForTimer where
  reservationId : ReservationId
  accountId : AccountId
  amountEur : Nat
  deriving DecidableEq

def pendingPurchase (latest : Option CapitalState) : Bool :=
  latest = some .eurcPurchasePending ∨ latest = some .purchaseFailed

def listPendingPurchaseReservationsForTimers (w : Database) : List PendingPurchaseReservationForTimer :=
  (w.reservations.filter fun r => r.reservationStage = .initiated ∧
    pendingPurchase (latestCapitalState w.moneyEvents r.id) = true).map fun r => ⟨r.id, r.accountId, r.amountEur⟩

def Database.setReservation (w : Database) (id : ReservationId) (f : Reservation → Reservation) : Database :=
  { w with reservations := Table.update Reservation.id w.reservations id f }

def expireReservation (id : ReservationId) (w : Database) : Bool × Database :=
  match w.reservation id with
  | none => (false, w)
  | some current =>
    if current.reservationStage ≠ .initiated then (false, w)
    else if isReservationFunded (latestCapitalState w.moneyEvents id) then (false, w)
    else (true, w.setReservation id fun r => { r with reservationStage := .lapsed })

structure PublishedTerms where
  offeringId : OfferingId
  finalOfferingPublishedAt : Nat
  effectiveRightsEndAt : Nat
  reservationsAwaitingReconfirmation : Nat
  reservationsCancelled : Nat
  deriving DecidableEq

inductive PublishConflict where
  | offeringNotFound | notOpen | alreadyPublished | targetNotReached | disclosurePackIncomplete
  deriving DecidableEq, Repr

/-- What the publishing loop carries: the database and its two counters. -/
structure PublishState where
  database : Database
  reservationsAwaitingReconfirmation : Nat
  reservationsCancelled : Nat

/-- One round of the loop over the initiated reservations, with the capital
state the `SELECT` found for each. -/
def publishStep (publishedAt : Nat) (s : PublishState) (row : Reservation × Option CapitalState) : PublishState :=
  if isReservationFunded row.2 then
    { database := { s.database.setReservation row.1.id fun r => { r with
          reservationStage := .awaitingReconfirmation } with
        moneyEvents := s.database.moneyEvents ++ [⟨fresh s.reservationsAwaitingReconfirmation, row.1.id, .internal,
          none, .reconfirmationPending, row.1.amountEur, none, publishedAt⟩] }
      reservationsAwaitingReconfirmation := s.reservationsAwaitingReconfirmation + 1
      reservationsCancelled := s.reservationsCancelled }
  else
    { database := s.database.setReservation row.1.id fun r => { r with reservationStage := .cancelled }
      reservationsAwaitingReconfirmation := s.reservationsAwaitingReconfirmation
      reservationsCancelled := s.reservationsCancelled + 1 }

/-- The reservations the loop runs over. -/
def publishRows (w : Database) (o : OfferingId) : List (Reservation × Option CapitalState) :=
  (w.reservations.filter fun r => r.offeringId = o ∧ r.reservationStage = .initiated).map fun r =>
    (r, latestCapitalState w.moneyEvents r.id)

def Database.setOffering (w : Database) (id : OfferingId) (f : OfferingRecord → OfferingRecord) : Database :=
  { w with offerings := Table.update OfferingRecord.id w.offerings id f }

def publishFinalOfferingTerms (offeringId : OfferingId) (publishedAt : Nat) (w : Database) :
    Except PublishConflict PublishedTerms × Database :=
  match w.offering offeringId with
  | none => (.error .offeringNotFound, w)
  | some offering =>
    if offering.status ≠ .preOffering then (.error .notOpen, w)
    else if offering.finalOfferingPublishedAt.isSome then (.error .alreadyPublished, w)
    else if canPublishFinalOfferingTerms offering.status offering.finalOfferingPublishedAt offering.targetRaiseEur
        (publishedFundedEur w offeringId) = false then (.error .targetNotReached, w)
    else if hasCompletePack w offeringId = false then (.error .disclosurePackIncomplete, w)
    else
      let done := (publishRows w offeringId).foldl (publishStep fresh publishedAt) ⟨w, 0, 0⟩
      let endAt := computeEffectiveRightsEndAt publishedAt
      (.ok ⟨offeringId, publishedAt, endAt, done.reservationsAwaitingReconfirmation, done.reservationsCancelled⟩,
        done.database.setOffering offeringId fun row => { row with
          finalOfferingPublishedAt := some publishedAt
          platformRightsEndAt := some endAt
          effectiveRightsEndAt := some endAt })

inductive ReconfirmConflict where
  | notFound | notAwaitingReconfirmation | windowClosed | disclosurePackIncomplete
  deriving DecidableEq, Repr

def reconfirmReservation (id : ReservationId) (accountId : AccountId) (reconfirmedAt : Nat) (w : Database) :
    Except ReconfirmConflict Nat × Database :=
  match w.reservation id with
  | none => (.error .notFound, w)
  | some reservation =>
    if reservation.accountId ≠ accountId then (.error .notFound, w)
    else if reservation.reservationStage ≠ .awaitingReconfirmation then (.error .notAwaitingReconfirmation, w)
    else if ((w.offering reservation.offeringId).bind OfferingRecord.effectiveRightsEndAt).all
        (fun endAt => isReconfirmationWindowOpen endAt reconfirmedAt = false) then (.error .windowClosed, w)
    else if hasCompletePack w reservation.offeringId = false then (.error .disclosurePackIncomplete, w)
    else (.ok reconfirmedAt, w.setReservation id fun r => { r with
      reservationStage := .reconfirmed
      reconfirmedAt := some reconfirmedAt })

def listOfferingsPendingFinalizationCommit (w : Database) : List (OfferingId × Nat) :=
  w.offerings.filterMap fun o =>
    if o.status = .preOffering ∧ o.finalOfferingPublishedAt.isSome then
      o.effectiveRightsEndAt.map fun endAt => (o.id, endAt)
    else none

inductive CommitConflict where
  | offeringNotFound | notPublishableState | windowStillOpen
  deriving DecidableEq, Repr

/-- What the commit loop carries: the database and its two counters. -/
structure CommitState where
  database : Database
  positionsCreated : Nat
  reservationsLapsed : Nat

def commitStep (pivId : PivId) (finalizedAt : Nat) (s : CommitState) (row : Reservation) : CommitState :=
  if row.reservationStage = .reconfirmed then
    { database := { s.database.setReservation row.id fun r => { r with
          reservationStage := .finalized
          reservationFinalizedAt := some finalizedAt } with
        positions := s.database.positions ++ [⟨row.id, pivId, row.accountId, costBasisToUnitCount row.amountEur,
          row.amountEur, (s.database.accounts row.accountId).bind AccountReadiness.walletAddress⟩]
        moneyEvents := s.database.moneyEvents ++ [⟨fresh s.positionsCreated, row.id, .internal, none,
          .eurcFinalized, row.amountEur, none, finalizedAt⟩] }
      positionsCreated := s.positionsCreated + 1
      reservationsLapsed := s.reservationsLapsed }
  else
    { database := s.database.setReservation row.id fun r => { r with reservationStage := .lapsed }
      positionsCreated := s.positionsCreated
      reservationsLapsed := s.reservationsLapsed + 1 }

def commitRows (w : Database) (o : OfferingId) : List Reservation :=
  w.reservations.filter fun r => r.offeringId = o ∧
    (r.reservationStage = .awaitingReconfirmation ∨ r.reservationStage = .reconfirmed)

def commitOfferingFinalization (offeringId : OfferingId) (finalizedAt : Nat) (w : Database) :
    Except CommitConflict (Nat × Nat) × Database :=
  match w.offering offeringId with
  | none => (.error .offeringNotFound, w)
  | some offering =>
    if offering.status ≠ .preOffering ∨ offering.finalOfferingPublishedAt = none then
      (.error .notPublishableState, w)
    else if offering.effectiveRightsEndAt.all (fun endAt => isReconfirmationWindowOpen endAt finalizedAt) then
      (.error .windowStillOpen, w)
    else
      let done := (commitRows w offeringId).foldl (commitStep fresh offering.pivId finalizedAt) ⟨w, 0, 0⟩
      (.ok (done.positionsCreated, done.reservationsLapsed),
        done.database.setOffering offeringId fun row => { row with status := .finalOffering })

structure ClassifyMaterialityInput where
  offeringId : OfferingId
  accountId : AccountId
  changeDescription : String
  classification : MaterialityClassification
  thresholdType : Option MaterialityThresholdType
  classifiedAt : Nat

inductive ClassifyConflict where
  | offeringNotFound | noActiveReconfirmationWindow
  deriving DecidableEq, Repr

def resetRows (w : Database) (o : OfferingId) : List Reservation :=
  w.reservations.filter fun r => r.offeringId = o ∧ r.reservationStage = .reconfirmed

/-- Reconfirmed reservations go back to awaiting and the window starts again. -/
def resetReconfirmations (o : OfferingId) (classifiedAt : Nat) (w : Database) : Database :=
  let done := (resetRows w o).foldl (fun db row => db.setReservation row.id fun r => { r with
    reservationStage := .awaitingReconfirmation
    reconfirmedAt := none }) w
  done.setOffering o fun row => { row with
    platformRightsEndAt := some (computeEffectiveRightsEndAt classifiedAt)
    effectiveRightsEndAt := some (computeEffectiveRightsEndAt classifiedAt) }

structure ClassifiedMateriality where
  classification : MaterialityClassification
  resetTriggered : Bool
  effectiveRightsEndAt : Option Nat
  reservationsReset : Nat
  deriving DecidableEq

def classifyMateriality (input : ClassifyMaterialityInput) (w : Database) :
    Except ClassifyConflict ClassifiedMateriality × Database :=
  match w.offering input.offeringId with
  | none => (.error .offeringNotFound, w)
  | some offering =>
    if offering.status ≠ .preOffering ∨ offering.finalOfferingPublishedAt = none then
      (.error .noActiveReconfirmationWindow, w)
    else
      let reset := materialityResetTriggered input.classification
      let after := if reset then resetReconfirmations input.offeringId input.classifiedAt w else w
      (.ok ⟨input.classification, reset,
          if reset then some (computeEffectiveRightsEndAt input.classifiedAt) else offering.effectiveRightsEndAt,
          if reset then (resetRows w input.offeringId).length else 0⟩,
        { after with materialityRecords := after.materialityRecords ++ [⟨input.offeringId, input.changeDescription,
          input.classification, input.thresholdType, reset, input.accountId, input.classifiedAt⟩] })

inductive DisclosurePackConflict where
  | offeringNotFound | notOpen
  deriving DecidableEq, Repr

def publishDisclosurePack (offeringId : OfferingId) (documents : List DisclosureDocumentType) (publishedAt : Nat)
    (w : Database) : Except DisclosurePackConflict DisclosurePack × Database :=
  match w.offering offeringId with
  | none => (.error .offeringNotFound, w)
  | some offering =>
    if offering.status ≠ .preOffering then (.error .notOpen, w)
    else
      let current := currentPack w offeringId
      let superseded := w.disclosurePacks.map fun p => if some p = current then
        { p with isCurrent := false, supersededAt := some publishedAt } else p
      let pack : DisclosurePack :=
        ⟨offeringId, (current.map DisclosurePack.version).getD 0 + 1, documents, publishedAt, none, true⟩
      (.ok pack, { w with disclosurePacks := superseded ++ [pack] })

end Transactions

end Offering
