import Mathlib.Data.List.Basic
import VistaBlox.EcmaDate

/-!
# The identity verification policy

What a status and a decision of the provider mean for an account, and the same for a proof
of address. Instants are milliseconds.
-/
namespace Kyc

open EcmaDate

inductive DiditStatus where
  | notStarted | inProgress | inReview | approved | declined | resubmitted | expired | abandoned | kycExpired
  | awaitingUser
  deriving DecidableEq, Repr

inductive KycEligibilityState where
  | notStarted | inProgress | pendingManualReview | eligible | unsupportedJurisdiction | notEligible | requiresRenewal
  | suspendedRestricted
  deriving DecidableEq, Repr

inductive KycOperationalSubstatus where
  | kycNotStarted | kycSessionCreating | kycSessionCreationFailed | kycSessionOpen | kycPending
  | kycResubmissionPending | kycManualReview | kycVerifiedPendingPolicyEval | kycVerified | kycVerifiedOwnerPoaMissing
  | kycJurisdictionBlocked | kycFailed | kycRestartRequired | kycReverificationRequired | kycRestricted
  | kycIntegrationAnomaly
  deriving DecidableEq, Repr

inductive ProofOfAddressStatus where
  | notStarted | creating | creationFailed | inProgress | pendingManualReview | current | insufficient | expired
  | restartRequired | integrationAnomaly
  deriving DecidableEq, Repr

/-- The reasons in the eligibility history. -/
inductive ReasonCode where
  | kycSessionStarted | kycSessionOpen | kycSessionPending | kycResubmissionRequired | kycManualReview
  | kycSessionExpired | kycSessionAbandoned | kycReverificationRequired | providerStatusAnomaly | idDocumentInvalid
  | jurisdictionUnsupported | biometricLivenessFail | biometricFaceMismatch | identityDataMismatch | amlPepReview
  | amlSanctionsHit | amlAdverseMediaReview | idDocumentTamperSuspected | idDocumentExpired | ageUnder18
  | kycBaselineApproved | kycRenewalDue | ownerProofOfAddressSessionStarted | ownerProofOfAddressPending
  | ownerProofOfAddressInsufficient | ownerProofOfAddressMissing | ownerProofOfAddressApproved
  deriving DecidableEq, Repr

abbrev CountryCode := String

/-- `risk` is the label in upper case, as the policy reads it. -/
structure DiditWarningSummary where
  risk : Option String

structure DiditFeatureSummary where
  status : String
  warnings : List DiditWarningSummary

structure DiditIdentitySummary extends DiditFeatureSummary where
  dateOfBirth : Option String

structure DiditAmlSummary extends DiditFeatureSummary where
  totalHits : Option Nat

structure DiditProofOfAddressSummary extends DiditFeatureSummary where
  issueDate : Option String
  countryCode : Option CountryCode

structure DiditDecisionSummary where
  sessionId : Nat
  sessionKind : Option String
  workflowId : Option Nat
  vendorData : Option Nat
  status : Option DiditStatus
  idVerifications : List DiditIdentitySummary
  livenessChecks : List DiditFeatureSummary
  faceMatches : List DiditFeatureSummary
  amlScreenings : List DiditAmlSummary
  proofOfAddressVerifications : List DiditProofOfAddressSummary

/-- `^\d{4}-\d{2}-\d{2}$`, split at the dashes and read as numbers. -/
def dateParts (text : String) : Option (ℤ × ℤ × ℤ) :=
  match text.toList with
  | [a, b, c, d, '-', e, f, '-', g, h] =>
    if ([a, b, c, d, e, f, g, h].all fun x => '0' ≤ x ∧ x ≤ '9') = true then
      let number := fun digits : List Char => digits.foldl (fun n x => n * 10 + ((x.toNat : ℤ) - 48)) 0
      some (number [a, b, c, d], number [e, f], number [g, h])
    else none
  | _ => none

/-- A date that the calendar has. -/
def parseIsoDate (text : String) : Option ℤ :=
  match dateParts text with
  | none => none
  | some (year, month, date) =>
    let parsed := utc year (month - 1) date
    if getUTCFullYear parsed = year ∧ getUTCMonth parsed = month - 1 ∧ getUTCDate parsed = date then some parsed
    else none

def isAdult (dateOfBirth : String) (instant : ℤ) : Bool :=
  match dateParts dateOfBirth with
  | none => false
  | some (year, month, date) =>
    (parseIsoDate dateOfBirth).isSome ∧ utc (year + 18) (month - 1) date ≤ instant

def addUtcMonthsClamped (t months : ℤ) : ℤ :=
  let targetMonth := getUTCMonth t + months
  let targetYear := getUTCFullYear t + targetMonth / 12
  let finalDay := getUTCDate (utc targetYear (targetMonth % 12 + 1) 0)
  utc targetYear (targetMonth % 12) (min (getUTCDate t) finalDay)

structure KycPolicyOutcome where
  eligibilityState : KycEligibilityState
  operationalSubstatus : KycOperationalSubstatus
  reasonCode : ReasonCode
  lastVerifiedAt : Option ℤ
  renewalDueAt : Option ℤ
  everRequiredManualReview : Bool

/-- The part that depends on this one decision only. -/
structure StatusOutcome where
  eligibilityState : KycEligibilityState
  operationalSubstatus : KycOperationalSubstatus
  reasonCode : ReasonCode
  lastVerifiedAt : Option ℤ

def outcome (eligibilityState : KycEligibilityState) (operationalSubstatus : KycOperationalSubstatus)
    (reasonCode : ReasonCode) : StatusOutcome := ⟨eligibilityState, operationalSubstatus, reasonCode, none⟩

def supportedCountries : List CountryCode :=
  ["AT", "BE", "BG", "HR", "CY", "CZ", "DK", "EE", "FI", "FR", "DE", "GR", "HU", "IE", "IT", "LV", "LT", "LU", "MT",
    "NL", "PL", "PT", "RO", "SK", "SI", "ES", "SE", "IS", "LI", "NO"]

def manualReviewReasons : List ReasonCode :=
  [.idDocumentTamperSuspected, .biometricFaceMismatch, .identityDataMismatch, .amlSanctionsHit, .amlPepReview,
    .amlAdverseMediaReview]

def isManualReviewReason (reason : ReasonCode) : Bool := manualReviewReasons.contains reason

def includes (text part : String) : Bool := text.toList.tails.any fun rest => part.toList.isPrefixOf rest

def warningReasonFromFeatures (features : List DiditFeatureSummary) (fallback : ReasonCode) : ReasonCode :=
  let risks := features.flatMap fun feature => feature.warnings.map fun warning => warning.risk.getD ""
  let mentions := fun part => risks.any fun risk => includes risk part
  if mentions "SANCTION" then .amlSanctionsHit
  else if mentions "ADVERSE" then .amlAdverseMediaReview
  else if mentions "PEP" then .amlPepReview
  else if mentions "TAMPER" then .idDocumentTamperSuspected
  else if mentions "FACE" || mentions "MATCH" then .biometricFaceMismatch
  else if mentions "LIVENESS" then .biometricLivenessFail
  else if mentions "EXPIRED" then .idDocumentExpired
  else fallback

def warningReason (decision : Option DiditDecisionSummary) (fallback : ReasonCode) : ReasonCode :=
  match decision with
  | none => fallback
  | some decision => warningReasonFromFeatures
      (decision.idVerifications.map DiditIdentitySummary.toDiditFeatureSummary ++ decision.livenessChecks ++
        decision.faceMatches ++ decision.amlScreenings.map DiditAmlSummary.toDiditFeatureSummary) fallback

/-- A finding goes to manual review or fails the verification. -/
def reviewOrFail (reason : ReasonCode) : StatusOutcome :=
  outcome (if isManualReviewReason reason then .pendingManualReview else .notEligible)
    (if isManualReviewReason reason then .kycManualReview else .kycFailed) reason

def isSupported (countryCode : Option CountryCode) : Bool :=
  countryCode.any fun code => supportedCountries.contains code

def anomaly : StatusOutcome := outcome .pendingManualReview .kycIntegrationAnomaly .providerStatusAnomaly

/-- Past the checks of country and of what the decision has to contain. -/
def evaluateFeatures (decision : DiditDecisionSummary) (occurredAt : ℤ) : StatusOutcome :=
  match decision.idVerifications.find? fun feature => feature.status ≠ "Approved" with
  | some identityFailure =>
    reviewOrFail (warningReasonFromFeatures [identityFailure.toDiditFeatureSummary] .idDocumentInvalid)
  | none =>
    if (decision.livenessChecks.any fun feature => feature.status ≠ "Approved") = true then
      outcome .notEligible .kycFailed .biometricLivenessFail
    else if (decision.faceMatches.any fun feature => feature.status ≠ "Approved") = true then
      outcome .pendingManualReview .kycManualReview .biometricFaceMismatch
    else if (decision.amlScreenings.any fun feature =>
        feature.status ≠ "Approved" ∨ 0 < feature.totalHits.getD 0) = true then
      outcome .pendingManualReview .kycManualReview
        (warningReasonFromFeatures (decision.amlScreenings.map DiditAmlSummary.toDiditFeatureSummary) .amlPepReview)
    else
      match decision.idVerifications.filterMap DiditIdentitySummary.dateOfBirth with
      | [] => anomaly
      | datesOfBirth =>
        if (datesOfBirth.any fun dateOfBirth => !isAdult dateOfBirth occurredAt) = true then
          outcome .notEligible .kycFailed .ageUnder18
        else ⟨.eligible, .kycVerifiedOwnerPoaMissing, .kycBaselineApproved, some occurredAt⟩

def evaluateApproved (decision : Option DiditDecisionSummary)
    (residenceCountryCode taxResidenceCountryCode : Option CountryCode) (occurredAt : ℤ) : StatusOutcome :=
  if isSupported residenceCountryCode = false ∨ isSupported taxResidenceCountryCode = false then
    outcome .unsupportedJurisdiction .kycJurisdictionBlocked .jurisdictionUnsupported
  else match decision with
    | none => anomaly
    | some decision =>
      if decision.idVerifications.isEmpty ∨ decision.livenessChecks.isEmpty ∨ decision.faceMatches.isEmpty ∨
          decision.amlScreenings.isEmpty then anomaly
      else evaluateFeatures decision occurredAt

def evaluateStatusOutcome (status : Option DiditStatus) (decision : Option DiditDecisionSummary)
    (residenceCountryCode taxResidenceCountryCode : Option CountryCode) (occurredAt : ℤ) : StatusOutcome :=
  match status with
  | some .notStarted => outcome .notStarted .kycSessionOpen .kycSessionOpen
  | some .inProgress => outcome .inProgress .kycPending .kycSessionPending
  | some .resubmitted => outcome .inProgress .kycResubmissionPending .kycResubmissionRequired
  | some .inReview => outcome .pendingManualReview .kycManualReview (warningReason decision .kycManualReview)
  | some .expired => outcome .notStarted .kycRestartRequired .kycSessionExpired
  | some .abandoned => outcome .notStarted .kycRestartRequired .kycSessionAbandoned
  | some .kycExpired => outcome .requiresRenewal .kycReverificationRequired .kycReverificationRequired
  | some .awaitingUser => anomaly
  | none => anomaly
  | some .declined => reviewOrFail (warningReason decision .idDocumentInvalid)
  | some .approved => evaluateApproved decision residenceCountryCode taxResidenceCountryCode occurredAt

/-- `setUTCMonth` by so many months. -/
def addUtcMonths (t months : ℤ) : ℤ := setUTCMonth t (getUTCMonth t + months)

def renewalMonths (everRequiredManualReview : Bool) : ℤ := if everRequiredManualReview then 12 else 24

def StatusOutcome.requiresManualReview (base : StatusOutcome) : Bool := base.operationalSubstatus = .kycManualReview

/-- The renewal interval depends on the account's history of manual reviews. -/
def StatusOutcome.withHistory (base : StatusOutcome) (occurredAt : ℤ) (everRequiredManualReview : Bool) :
    KycPolicyOutcome :=
  ⟨base.eligibilityState, base.operationalSubstatus, base.reasonCode, base.lastVerifiedAt,
    if base.eligibilityState = .eligible then
      some (addUtcMonths occurredAt (renewalMonths (everRequiredManualReview || base.requiresManualReview)))
    else none,
    everRequiredManualReview || base.requiresManualReview⟩

theorem withHistory_congr {base : StatusOutcome} {ever ever' : Bool}
    (h : (ever || base.requiresManualReview) = (ever' || base.requiresManualReview)) (occurredAt : ℤ) :
    base.withHistory occurredAt ever = base.withHistory occurredAt ever' := by
  simp only [StatusOutcome.withHistory, h]

def evaluateDiditOutcome (status : Option DiditStatus) (decision : Option DiditDecisionSummary)
    (residenceCountryCode taxResidenceCountryCode : Option CountryCode) (occurredAt : ℤ)
    (everRequiredManualReview : Bool) : KycPolicyOutcome :=
  (evaluateStatusOutcome status decision residenceCountryCode taxResidenceCountryCode occurredAt).withHistory
    occurredAt
    everRequiredManualReview

/-- An outcome that verifies nothing. -/
structure StatusOutcome.Plain (base : StatusOutcome) : Prop where
  eligibilityState : base.eligibilityState ≠ .eligible
  lastVerifiedAt : base.lastVerifiedAt = none
  operationalSubstatus : base.operationalSubstatus ≠ .kycSessionCreating

theorem outcome_plain
    (heligible : eligibilityState ≠ .eligible) (hcreating : operationalSubstatus ≠ .kycSessionCreating) :
    (outcome eligibilityState operationalSubstatus reasonCode).Plain :=
  ⟨heligible, rfl, hcreating⟩

theorem anomaly_plain : anomaly.Plain := outcome_plain (by decide) (by decide)

theorem reviewOrFail_plain : (reviewOrFail reason).Plain := by
  refine outcome_plain ?_ ?_
  · split <;> decide
  · split <;> decide

/-- The only outcome that verifies. -/
def verified (occurredAt : ℤ) : StatusOutcome :=
  ⟨.eligible, .kycVerifiedOwnerPoaMissing, .kycBaselineApproved, some occurredAt⟩

theorem evaluateFeatures_cases :
    evaluateFeatures decision occurredAt = verified occurredAt ∨ (evaluateFeatures decision occurredAt).Plain := by
  unfold evaluateFeatures
  split
  · exact .inr reviewOrFail_plain
  · split
    · exact .inr (outcome_plain (by decide) (by decide))
    · split
      · exact .inr (outcome_plain (by decide) (by decide))
      · split
        · exact .inr (outcome_plain (by decide) (by decide))
        · split
          · exact .inr anomaly_plain
          · split
            · exact .inr (outcome_plain (by decide) (by decide))
            · exact .inl rfl

theorem evaluateApproved_cases :
    evaluateApproved decision residenceCountryCode taxResidenceCountryCode occurredAt = verified occurredAt ∨
      (evaluateApproved decision residenceCountryCode taxResidenceCountryCode occurredAt).Plain := by
  unfold evaluateApproved
  split
  · exact .inr (outcome_plain (by decide) (by decide))
  · split
    · exact .inr anomaly_plain
    · split
      · exact .inr anomaly_plain
      · exact evaluateFeatures_cases

theorem evaluateStatusOutcome_cases (status : Option DiditStatus) (decision : Option DiditDecisionSummary)
    (residenceCountryCode taxResidenceCountryCode : Option CountryCode) (occurredAt : ℤ) :
    (status = some .approved ∧ evaluateStatusOutcome status decision residenceCountryCode taxResidenceCountryCode
        occurredAt = verified occurredAt) ∨
      (evaluateStatusOutcome status decision residenceCountryCode taxResidenceCountryCode occurredAt).Plain := by
  cases status with
  | none => exact .inr anomaly_plain
  | some status =>
    cases status with
    | approved =>
      obtain hverified | hplain := evaluateApproved_cases
      · exact .inl ⟨rfl, hverified⟩
      · exact .inr hplain
    | declined => exact .inr reviewOrFail_plain
    | _ => exact .inr (outcome_plain (by decide) (by decide))

structure ProofOfAddressOutcome where
  status : ProofOfAddressStatus
  reasonCode : ReasonCode
  currentUntil : Option ℤ

/-- Two and three letter codes of the supported countries. -/
def supportedCountryCodes : List (String × CountryCode) :=
  [("AT", "AT"), ("AUT", "AT"), ("BE", "BE"), ("BEL", "BE"), ("BG", "BG"), ("BGR", "BG"), ("HR", "HR"), ("HRV", "HR"),
    ("CY", "CY"), ("CYP", "CY"), ("CZ", "CZ"), ("CZE", "CZ"), ("DK", "DK"), ("DNK", "DK"), ("EE", "EE"), ("EST", "EE"),
    ("FI", "FI"), ("FIN", "FI"), ("FR", "FR"), ("FRA", "FR"), ("DE", "DE"), ("DEU", "DE"), ("GR", "GR"), ("GRC", "GR"),
    ("HU", "HU"), ("HUN", "HU"), ("IE", "IE"), ("IRL", "IE"), ("IT", "IT"), ("ITA", "IT"), ("LV", "LV"), ("LVA", "LV"),
    ("LT", "LT"), ("LTU", "LT"), ("LU", "LU"), ("LUX", "LU"), ("MT", "MT"), ("MLT", "MT"), ("NL", "NL"), ("NLD", "NL"),
    ("PL", "PL"), ("POL", "PL"), ("PT", "PT"), ("PRT", "PT"), ("RO", "RO"), ("ROU", "RO"), ("SK", "SK"), ("SVK", "SK"),
    ("SI", "SI"), ("SVN", "SI"), ("ES", "ES"), ("ESP", "ES"), ("SE", "SE"), ("SWE", "SE"), ("IS", "IS"), ("ISL", "IS"),
    ("LI", "LI"), ("LIE", "LI"), ("NO", "NO"), ("NOR", "NO")]

/-- The code is in upper case already, as in `risk`. -/
def normalizeCountryCode (value : Option CountryCode) : Option CountryCode :=
  value.bind fun code => (supportedCountryCodes.find? fun entry => entry.1 = code).map Prod.snd

def poaOutcome (status : ProofOfAddressStatus) (reasonCode : ReasonCode) : ProofOfAddressOutcome :=
  ⟨status, reasonCode, none⟩

/-- How long one document proves the address; `none` where it does not. -/
def freshUntil (residenceCountryCode : CountryCode) (occurredAt : ℤ) (verification : DiditProofOfAddressSummary) :
    Option ℤ :=
  match verification.issueDate.bind parseIsoDate, normalizeCountryCode verification.countryCode with
  | some issueDate, some countryCode =>
    if occurredAt < issueDate ∨ countryCode ≠ residenceCountryCode then none
    else some (addUtcMonthsClamped issueDate 3)
  | _, _ => none

def evaluateApprovedProofOfAddress (decision : Option DiditDecisionSummary) (residenceCountryCode : Option CountryCode)
    (occurredAt : ℤ) : ProofOfAddressOutcome :=
  let verifications := (decision.map DiditDecisionSummary.proofOfAddressVerifications).getD []
  match residenceCountryCode with
  | none => poaOutcome .integrationAnomaly .providerStatusAnomaly
  | some residence =>
    if verifications.isEmpty then poaOutcome .integrationAnomaly .providerStatusAnomaly
    else if (verifications.any fun v => v.status ≠ "Approved" ∨ !v.warnings.isEmpty) = true then
      poaOutcome .pendingManualReview .ownerProofOfAddressInsufficient
    else match verifications.mapM (freshUntil residence occurredAt) with
      | none => poaOutcome .pendingManualReview .ownerProofOfAddressInsufficient
      | some [] => poaOutcome .integrationAnomaly .providerStatusAnomaly
      | some (first :: rest) =>
        let currentUntil := rest.foldl (fun earliest date => if date < earliest then date else earliest) first
        if currentUntil ≤ occurredAt then poaOutcome .expired .ownerProofOfAddressMissing
        else ⟨.current, .ownerProofOfAddressApproved, some currentUntil⟩

def evaluateProofOfAddressOutcome (status : Option DiditStatus) (decision : Option DiditDecisionSummary)
    (residenceCountryCode : Option CountryCode) (occurredAt : ℤ) : ProofOfAddressOutcome :=
  match status with
  | some .notStarted => poaOutcome .inProgress .ownerProofOfAddressPending
  | some .inProgress => poaOutcome .inProgress .ownerProofOfAddressPending
  | some .resubmitted => poaOutcome .inProgress .ownerProofOfAddressPending
  | some .inReview => poaOutcome .pendingManualReview .ownerProofOfAddressInsufficient
  | some .declined => poaOutcome .insufficient .ownerProofOfAddressInsufficient
  | some .expired => poaOutcome .restartRequired .ownerProofOfAddressMissing
  | some .abandoned => poaOutcome .restartRequired .ownerProofOfAddressMissing
  | some .kycExpired => poaOutcome .restartRequired .ownerProofOfAddressMissing
  | some .awaitingUser => poaOutcome .integrationAnomaly .providerStatusAnomaly
  | none => poaOutcome .integrationAnomaly .providerStatusAnomaly
  | some .approved => evaluateApprovedProofOfAddress decision residenceCountryCode occurredAt

def isRenewalReminderDue (renewalDueAt today leadDays : ℤ) : Bool :=
  let reminderDate := setUTCDate renewalDueAt (getUTCDate renewalDueAt - leadDays)
  getUTCFullYear reminderDate = getUTCFullYear today ∧ getUTCMonth reminderDate = getUTCMonth today ∧
    getUTCDate reminderDate = getUTCDate today

def isRenewalOverdue (renewalDueAt now : ℤ) : Bool := renewalDueAt < now

def isSessionStuck (updatedAt now timeoutMs : ℤ) : Bool := timeoutMs ≤ now - updatedAt

end Kyc
