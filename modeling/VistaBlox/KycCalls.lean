import VistaBlox.Kyc

/-!
# What the identity services apply
-/
namespace Kyc

open Interleaving Prog

/-- The outcome is the policy's, for the reported status at the reported time. -/
def OutcomeInput.Evaluated (input : OutcomeInput) : Prop :=
  ∃ decision residenceCountryCode taxResidenceCountryCode everRequiredManualReview, input.outcome =
    evaluateDiditOutcome input.providerStatus decision residenceCountryCode taxResidenceCountryCode
      input.providerUpdatedAt everRequiredManualReview

def Op.Evaluated : Op → Prop
  | .applyProviderOutcome input => input.Evaluated
  | _ => True

variable {input : OutcomeInput}

theorem OutcomeInput.Evaluated.eligible (h : input.Evaluated)
    (heligible : input.outcome.eligibilityState = .eligible) :
    input.providerStatus = some .approved ∧ input.outcome.operationalSubstatus = .kycVerifiedOwnerPoaMissing ∧
      input.outcome.renewalDueAt =
        some (addUtcMonths input.providerUpdatedAt (renewalMonths input.outcome.everRequiredManualReview)) := by
  obtain ⟨decision, residence, tax, ever, heq⟩ := h
  rw [heq] at heligible ⊢
  simp only [evaluateDiditOutcome, StatusOutcome.withHistory] at heligible ⊢
  obtain ⟨hstatus, hverified⟩ | hplain := evaluateStatusOutcome_cases input.providerStatus decision residence tax
    input.providerUpdatedAt
  · rw [hverified]
    exact ⟨hstatus, rfl, rfl⟩
  · exact absurd heligible hplain.eligibilityState

theorem OutcomeInput.Evaluated.not_eligible (h : input.Evaluated)
    (heligible : input.outcome.eligibilityState ≠ .eligible) : input.outcome.renewalDueAt = none := by
  obtain ⟨decision, residence, tax, ever, heq⟩ := h
  rw [heq] at heligible ⊢
  exact if_neg heligible

theorem OutcomeInput.Evaluated.not_creating (h : input.Evaluated) :
    input.outcome.operationalSubstatus ≠ .kycSessionCreating := by
  obtain ⟨decision, residence, tax, ever, heq⟩ := h
  rw [heq]
  obtain ⟨-, hverified⟩ | hplain := evaluateStatusOutcome_cases input.providerStatus decision residence tax
    input.providerUpdatedAt
  · simp only [evaluateDiditOutcome, StatusOutcome.withHistory, hverified, verified]
    decide
  · exact hplain.operationalSubstatus

variable {didit : DiditReference → Run DiditDecisionSummary} {op : Op} {α : Type}

def Op.OfStart : Op → Prop
  | .clock | .randomUUID | .reserveSessionStart .. | .createSession .. | .completeSessionStart .. => True
  | .failSessionStart .. | .invalidateDisplayProfile _ => True
  | _ => False

/-- Once the provider has answered. -/
def Op.EndsProofStart : Op → Prop
  | .clock | .completeProofOfAddressSessionStart .. | .failProofOfAddressSessionStart .. => True
  | _ => False

def Op.OfProofStart : Op → Prop
  | .randomUUID | .reserveProofOfAddressSessionStart .. | .createSession .. => True
  | op => op.EndsProofStart

def Op.OfWebhook : Op → Prop
  | .hasProcessedProviderEvent _ | .recordUnmatchedProviderEvent .. | .findByDiditReference _ => True
  | .findByProofOfAddressDiditReference _ | .invalidateDisplayProfile _ | .getDecision _ => True
  | .applyProviderOutcome input => input.Evaluated
  | .applyProofOfAddressOutcome _ => True
  | _ => False

def Op.OfRenewal : Op → Prop
  | .clock | .listEligibleAccountsForRenewalTimer | .getRenewalReminderLeadDays => True
  | .transitionToRequiresRenewal .. | .sendKycRenewalReminderEmail .. => True
  | _ => False

def Op.OfExpiry : Op → Prop
  | .clock | .listStuckSessionCreationsForTimer | .failSessionStart .. | .failProofOfAddressSessionStart .. => True
  | _ => False

def Op.OfReconciliation : Op → Prop
  | .clock | .listStuckOpenSessionsForTimer | .getDecision _ => True
  | .applyProviderOutcome input => input.Evaluated
  | .applyProofOfAddressOutcome _ => True
  | _ => False

theorem attempt_calls (h : p.Calls P) : (attempt p).Calls P :=
  h.catchWith fun _ => trivial

theorem abandonStart_calls (accountId : AccountId) (sessionStartId : SessionStartId) (error : Failure) :
    (abandonStart accountId sessionStartId error : Run α).Calls Op.OfStart := by
  refine (calls_perform trivial).bind fun failedAt => ?_
  exact (calls_perform trivial).bind fun _ => trivial

theorem completeStart_calls (accountId : AccountId) (sessionStartId : SessionStartId) (session : ProviderSession) :
    (completeStart accountId sessionStartId session).Calls Op.OfStart := by
  refine (calls_perform trivial).bind fun completedAt => ?_
  refine (calls_perform trivial).bind fun completed => ?_
  split
  · exact (attempt_calls (calls_perform trivial)).bind fun _ => trivial
  · exact abandonStart_calls ..

theorem startKycSession_calls (cfg : Configuration) (accountId : AccountId)
    (residenceCountryCode taxResidenceCountryCode : CountryCode) :
    (startKycSession cfg accountId residenceCountryCode taxResidenceCountryCode).Calls Op.OfStart := by
  refine (calls_perform trivial).bind fun sessionStartId => ?_
  refine (calls_perform trivial).bind fun startedAt => ?_
  refine (calls_perform trivial).bind fun reserved => ?_
  split
  · refine ((calls_perform trivial).catchWith fun error => abandonStart_calls ..).bind fun session => ?_
    split
    · exact abandonStart_calls ..
    · exact completeStart_calls ..
  · trivial

theorem abandonProofStart_calls (accountId : AccountId) (sessionStartId : SessionStartId) (error : Failure) :
    (abandonProofStart accountId sessionStartId error : Run α).Calls Op.EndsProofStart := by
  refine (calls_perform trivial).bind fun failedAt => ?_
  exact (calls_perform trivial).bind fun _ => trivial

theorem completeProofStart_calls (accountId : AccountId) (sessionStartId : SessionStartId)
    (session : ProviderSession) :
    (completeProofStart accountId sessionStartId session).Calls Op.EndsProofStart := by
  refine (calls_perform trivial).bind fun completedAt => ?_
  refine (calls_perform trivial).bind fun completed => ?_
  split <;> trivial

theorem Op.EndsProofStart.ofProofStart (h : op.EndsProofStart) : op.OfProofStart := by
  cases op <;> trivial

theorem startProofOfAddressSession_calls (workflowId : WorkflowId) (accountId : AccountId) :
    (startProofOfAddressSession workflowId accountId).Calls Op.OfProofStart := by
  refine (calls_perform trivial).bind fun sessionStartId => ?_
  refine (calls_perform trivial).bind fun startedAt => ?_
  refine (calls_perform trivial).bind fun reserved => ?_
  split
  · refine ((calls_perform trivial).catchWith fun error => (abandonProofStart_calls ..).mono
      fun _ => Op.EndsProofStart.ofProofStart).bind fun session => ?_
    split
    · exact (abandonProofStart_calls ..).mono fun _ => Op.EndsProofStart.ofProofStart
    · exact (completeProofStart_calls ..).mono fun _ => Op.EndsProofStart.ofProofStart
  · trivial

theorem unmatched_calls (input : DiditWebhook) (reason : UnmatchedReason) :
    (unmatched input reason).Calls Op.OfWebhook := (calls_perform trivial).bind fun _ => trivial

theorem applyWebhook_calls (input : DiditWebhook) (target : KycEligibility) (decision : Option DiditDecisionSummary)
    (purpose : Purpose) : (applyWebhook input target decision purpose).Calls Op.OfWebhook := by
  cases purpose with
  | baselineKyc => exact (calls_perform ⟨decision, _, _, _, rfl⟩).bind fun _ => trivial
  | ownerProofOfAddress => exact (calls_perform trivial).bind fun _ => trivial

theorem findTarget_calls (sessionId : DiditReference) (purpose : Purpose) :
    (findTarget sessionId purpose).Calls Op.OfWebhook := by
  cases purpose <;> exact calls_perform trivial

theorem invalidateForBaseline_calls (accountId : AccountId) (purpose : Purpose) :
    (invalidateForBaseline accountId purpose).Calls Op.OfWebhook := by
  cases purpose with
  | baselineKyc => exact attempt_calls (calls_perform trivial)
  | ownerProofOfAddress => trivial

theorem decideWebhook_calls (hdidit : ∀ sessionId, (didit sessionId).Calls Op.OfWebhook) (input : DiditWebhook)
    (target : KycEligibility) (purpose : Purpose) :
    (decideWebhook didit input target purpose).Calls Op.OfWebhook := by
  unfold decideWebhook
  split
  · refine (hdidit _).bind fun decision => ?_
    split
    · exact applyWebhook_calls ..
    · exact unmatched_calls ..
  · exact applyWebhook_calls ..

theorem processDiditWebhook_calls (cfg : Configuration) (hdidit : ∀ sessionId, (didit sessionId).Calls Op.OfWebhook)
    (input : DiditWebhook) : (processDiditWebhook cfg didit input).Calls Op.OfWebhook := by
  refine (calls_perform trivial).bind fun processed => ?_
  split
  · trivial
  · split
    · split
      · exact unmatched_calls ..
      · refine (findTarget_calls ..).bind fun target => ?_
        split
        · exact unmatched_calls ..
        · split
          · exact unmatched_calls ..
          · exact (invalidateForBaseline_calls ..).bind fun _ => decideWebhook_calls hdidit ..
    · exact unmatched_calls ..

theorem runKycRenewalTimer_calls : runKycRenewalTimer.Calls Op.OfRenewal := by
  refine (calls_perform trivial).bind fun now => ?_
  refine (calls_perform trivial).bind fun accounts => ?_
  refine (calls_perform trivial).bind fun leadDays => ?_
  refine (Prog.Calls.foldlM (fun acted account => ?_) accounts 0).bind fun acted => trivial
  unfold renewOne
  split
  · exact (calls_perform trivial).bind fun transitioned => trivial
  · split
    · trivial
    · split
      · exact (calls_perform trivial).bind fun _ => trivial
      · trivial

theorem expireStuckSessionCreations_calls : (expireStuckSessionCreations timeoutMs).Calls Op.OfExpiry := by
  refine (calls_perform trivial).bind fun now => ?_
  refine (calls_perform trivial).bind fun stuck => ?_
  refine (Prog.Calls.foldlM (fun acted session => ?_) stuck 0).bind fun acted => trivial
  unfold expireOne
  split
  · split
    · exact (calls_perform trivial).bind fun _ => trivial
    · exact (calls_perform trivial).bind fun _ => trivial
  · trivial

theorem reconcileStuckOpenSessions_calls (hdidit : ∀ sessionId, (didit sessionId).Calls Op.OfReconciliation) :
    (reconcileStuckOpenSessions didit timeoutMs).Calls Op.OfReconciliation := by
  refine (calls_perform trivial).bind fun now => ?_
  refine (calls_perform trivial).bind fun stuck => ?_
  refine (Prog.Calls.foldlM (fun acted session => ?_) stuck 0).bind fun acted => trivial
  unfold reconcileOne
  split
  · split
    · trivial
    · refine (hdidit _).bind fun decision => ?_
      split
      · trivial
      · split
        · exact (calls_perform ⟨some decision, _, _, _, rfl⟩).bind fun _ => trivial
        · exact (calls_perform trivial).bind fun _ => trivial
  · trivial

/-- The calls of a service. -/
def Job.Makes : Job → Op → Prop
  | .startSession .. => Op.OfStart
  | .startProofOfAddress .. => Op.OfProofStart
  | .webhook _ => Op.OfWebhook
  | .renewalTimer => Op.OfRenewal
  | .expireCreations => Op.OfExpiry
  | .reconcileOpen => Op.OfReconciliation

/-- Each job makes only the calls listed for it. -/
theorem Job.makes (cfg : Configuration) (j : Job) : (j.program cfg).Calls j.Makes := by
  cases j with
  | startSession => exact (startKycSession_calls ..).bind fun _ => trivial
  | startProofOfAddress => exact (startProofOfAddressSession_calls ..).bind fun _ => trivial
  | webhook input => exact (processDiditWebhook_calls cfg (fun _ => calls_perform trivial) input).bind fun _ =>
      trivial
  | renewalTimer => exact runKycRenewalTimer_calls.bind fun _ => trivial
  | expireCreations => exact (expireStuckSessionCreations_calls).bind fun _ => trivial
  | reconcileOpen =>
    exact (reconcileStuckOpenSessions_calls (fun _ => calls_perform trivial)).bind fun _ => trivial

theorem Job.Makes.evaluated {j : Job} (h : j.Makes op) : op.Evaluated := by
  cases op with
  | applyProviderOutcome =>
    cases j with
    | webhook => exact h
    | reconcileOpen => exact h
    | _ => exact h.elim
  | _ => trivial

/-- Every outcome that a job applies has been evaluated. -/
theorem Job.calls (cfg : Configuration) (j : Job) : (j.program cfg).Calls Op.Evaluated :=
  (Job.makes cfg j).mono fun _ => Job.Makes.evaluated

end Kyc
