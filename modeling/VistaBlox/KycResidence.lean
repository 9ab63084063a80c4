import VistaBlox.KycRenewal
import VistaBlox.Recording

/-!
# The residence a proof of address is for

One row holds the declared residence, which a new session start rewrites, and the proof of
address, judged against the residence a service had read. The history keeps what each thread
has read and the documents of the last outcome.
-/
namespace Kyc

open Interleaving List Option
open Function (update update_of_ne update_self)

inductive IntakeEntryReason where
  | kycNotEligible | proofOfAddressRequired | termsNotAccepted | oneTitleRequired | residentialOnly
  | propertyValueBelowMinimum
  deriving DecidableEq, Repr

structure IntakeEntryPolicyInput where
  eligibilityState : KycEligibilityState
  proofOfAddressCurrentUntil : Option ℤ
  now : ℤ
  declaredValueCents : ℤ
  minimumValueCents : ℤ
  intakeTermsAccepted : Bool
  oneTitleConfirmed : Bool
  propertyType : String

def evaluateIntakeEntry (input : IntakeEntryPolicyInput) : Except IntakeEntryReason Unit :=
  if input.eligibilityState ≠ .eligible then .error .kycNotEligible
  else if input.proofOfAddressCurrentUntil.all (fun currentUntil => currentUntil ≤ input.now) = true then
    .error .proofOfAddressRequired
  else if !input.intakeTermsAccepted then .error .termsNotAccepted
  else if !input.oneTitleConfirmed then .error .oneTitleRequired
  else if input.propertyType ≠ "residential" then .error .residentialOnly
  else if input.declaredValueCents < input.minimumValueCents then .error .propertyValueBelowMinimum
  else .ok ()

/-- What a customer says of the property, and the setting. -/
structure IntakeEntry where
  declaredValueCents : ℤ
  minimumValueCents : ℤ
  intakeTermsAccepted : Bool
  oneTitleConfirmed : Bool
  propertyType : String

/-- The check that the intake services make, on what the account's row says. -/
def intakeEntryInput (accountId : AccountId) (entry : IntakeEntry) (w : World) : IntakeEntryPolicyInput where
  eligibilityState := ((w.row accountId).map KycEligibility.eligibilityState).getD .notStarted
  proofOfAddressCurrentUntil := (w.row accountId).bind KycEligibility.proofOfAddressCurrentUntil
  now := w.now
  declaredValueCents := entry.declaredValueCents
  minimumValueCents := entry.minimumValueCents
  intakeTermsAccepted := entry.intakeTermsAccepted
  oneTitleConfirmed := entry.oneTitleConfirmed
  propertyType := entry.propertyType

theorem evaluateIntakeEntry_ok (h : evaluateIntakeEntry input = .ok ()) :
    input.eligibilityState = .eligible ∧
      ∃ currentUntil, input.proofOfAddressCurrentUntil = some currentUntil ∧ input.now < currentUntil := by
  unfold evaluateIntakeEntry at h
  split at h
  · cases h
  · rename_i heligible
    split at h
    · cases h
    · rename_i huntil
      refine ⟨not_not.mp heligible, ?_⟩
      cases hproof : input.proofOfAddressCurrentUntil with
      | none => simp [hproof] at huntil
      | some currentUntil => exact ⟨currentUntil, rfl, by simpa [hproof] using huntil⟩

theorem mapM_some {β : Type} {f : α → Option β} {xs : List α} {ys : List β} (h : xs.mapM f = some ys) :
    ∀ x ∈ xs, ∃ y, f x = some y := by
  induction xs generalizing ys with
  | nil => exact fun x hx => absurd hx not_mem_nil
  | cons x xs ih =>
    rw [mapM_cons] at h
    obtain ⟨y, hy, hrest⟩ := bind_eq_some_iff.mp h
    obtain ⟨ys', hys', -⟩ := bind_eq_some_iff.mp hrest
    intro x' hx'
    obtain rfl | hx' := mem_cons.mp hx'
    · exact ⟨y, hy⟩
    · exact ih hys' x' hx'

/-- The documents are there, and each is from that country. -/
def DocumentsFrom (residence : CountryCode) (documents : List DiditProofOfAddressSummary) : Prop :=
  documents ≠ [] ∧ ∀ v ∈ documents, normalizeCountryCode v.countryCode = some residence

theorem freshUntil_country (h : freshUntil residence occurredAt v = some currentUntil) :
    normalizeCountryCode v.countryCode = some residence := by
  unfold freshUntil at h
  split at h
  · rename_i countryCode _ hcountry
    obtain ⟨hfits, -⟩ := ite_none_left_eq_some.mp h
    rw [hcountry, not_not.mp (not_or.mp hfits).2]
  · cases h

/-- Only documents from the residence prove an address, and nothing else sets a
date. -/
def ProofOfAddressOutcome.RestsOn (decision : Option DiditDecisionSummary) (residenceCountryCode : Option CountryCode)
    (outcome : ProofOfAddressOutcome) : Prop :=
  (outcome.status ≠ .current ∧ outcome.currentUntil = none) ∨
    (outcome.status = .current ∧ ∃ d residence currentUntil, decision = some d ∧
      residenceCountryCode = some residence ∧ outcome.currentUntil = some currentUntil ∧
      DocumentsFrom residence d.proofOfAddressVerifications)

theorem poaOutcome_restsOn (hstatus : status ≠ .current) :
    (poaOutcome status reasonCode).RestsOn decision residenceCountryCode := .inl ⟨hstatus, rfl⟩

theorem evaluateApprovedProofOfAddress_restsOn (decision : Option DiditDecisionSummary)
    (residenceCountryCode : Option CountryCode) (occurredAt : ℤ) :
    (evaluateApprovedProofOfAddress decision residenceCountryCode occurredAt).RestsOn decision
      residenceCountryCode := by
  unfold evaluateApprovedProofOfAddress
  cases decision with
  | none =>
    split
    · exact poaOutcome_restsOn (by decide)
    · exact poaOutcome_restsOn (by decide)
  | some d =>
    simp only [map_some, getD_some]
    split
    · exact poaOutcome_restsOn (by decide)
    · rename_i residence
      split
      · exact poaOutcome_restsOn (by decide)
      · rename_i hsome
        split
        · exact poaOutcome_restsOn (by decide)
        · split
          · exact poaOutcome_restsOn (by decide)
          · exact poaOutcome_restsOn (by decide)
          · rename_i hdates
            split
            · exact poaOutcome_restsOn (by decide)
            · refine .inr ⟨rfl, d, residence, _, rfl, rfl, rfl, by simpa using hsome, fun v hv => ?_⟩
              obtain ⟨currentUntil, hfresh⟩ := mapM_some hdates v hv
              exact freshUntil_country hfresh

theorem evaluateProofOfAddressOutcome_restsOn (status : Option DiditStatus) (decision : Option DiditDecisionSummary)
    (residenceCountryCode : Option CountryCode) (occurredAt : ℤ) :
    (evaluateProofOfAddressOutcome status decision residenceCountryCode occurredAt).RestsOn decision
      residenceCountryCode := by
  unfold evaluateProofOfAddressOutcome
  split
  case h_11 => exact evaluateApprovedProofOfAddress_restsOn ..
  all_goals exact poaOutcome_restsOn (by decide)

theorem ProofOfAddressOutcome.RestsOn.of_none {outcome : ProofOfAddressOutcome}
    (h : outcome.RestsOn none residenceCountryCode) :
    outcome.RestsOn decision residenceCountryCode := by
  obtain hother | ⟨-, d, residence, currentUntil, hnone, -⟩ := h
  · exact .inl hother
  · cases hnone

section History

/-- What a thread has last read: a decision, and the residences of the accounts
whose proof of address sessions it looked up. -/
structure Reading where
  decision : Option DiditDecisionSummary
  sessions : List (DiditReference × Option CountryCode)

/-- `evidence` are the documents that the last outcome applied to an account was
judged from. -/
structure ProofHistory where
  reading : Nat → Reading
  evidence : AccountId → List DiditProofOfAddressSummary

def ProofHistory.start : ProofHistory := ⟨fun _ => ⟨none, []⟩, fun _ => []⟩

def StuckOpen.proofReading (session : StuckOpen) : Option (DiditReference × Option CountryCode) :=
  if session.kind = .ownerProofOfAddress then
    session.diditReference.map fun diditReference => (diditReference, session.residenceCountryCode)
  else none

def Reading.documents (reading : Reading) : List DiditProofOfAddressSummary :=
  (reading.decision.map DiditDecisionSummary.proofOfAddressVerifications).getD []

/-- The outcome has changed the row of its session. -/
def ProofHistory.applied (t : Nat) (input : ProofOfAddressInput) (w w' : World) (h : ProofHistory) : ProofHistory :=
  match w.rows.find? (KycEligibility.hasProofReference input.diditReference) with
  | none => h
  | some current =>
    if w'.rows = w.rows then h
    else { h with evidence := update h.evidence current.accountId (h.reading t).documents }

def ProofHistory.read (t : Nat) (set : Reading → Reading) (h : ProofHistory) : ProofHistory :=
  { h with reading := update h.reading t (set (h.reading t)) }

def noteProof : Note World ProofHistory Failure Op Op.Out
  | t, .getDecision _, _, (.ok decision, _), h => h.read t fun reading => { reading with decision := some decision }
  | t, .findByProofOfAddressDiditReference diditReference, _, (.ok (some row), _), h =>
    h.read t fun reading => { reading with sessions := [(diditReference, row.residenceCountryCode)] }
  | t, .listStuckOpenSessionsForTimer, _, (.ok stuck, _), h =>
    h.read t fun reading => { reading with sessions := stuck.filterMap StuckOpen.proofReading }
  | t, .applyProofOfAddressOutcome input, w, (_, w'), h => h.applied t input w w'
  | _, _, _, _, h => h

variable {t u : Nat} {op : Op} {w : World} {r : Except Failure op.Out × World} {h : ProofHistory}

theorem applied_reading (input : ProofOfAddressInput) (w w' : World) :
    (h.applied t input w w').reading = h.reading := by
  unfold ProofHistory.applied
  split
  · rfl
  · split <;> rfl

theorem noteProof_other (hu : u ≠ t) : (noteProof t op w r h).reading u = h.reading u := by
  unfold noteProof
  split
  · exact update_of_ne hu ..
  · exact update_of_ne hu ..
  · exact update_of_ne hu ..
  · rw [applied_reading]
  · rfl

theorem noteProof_evidence (hop : ∀ input, op ≠ .applyProofOfAddressOutcome input) :
    (noteProof t op w r h).evidence = h.evidence := by
  unfold noteProof
  split
  · rfl
  · rfl
  · rfl
  · exact absurd rfl (hop _)
  · rfl

theorem noteProof_same (hsame : r.2.rows = w.rows) : (noteProof t op w r h).evidence = h.evidence := by
  by_cases hop : ∃ input, op = .applyProofOfAddressOutcome input
  · obtain ⟨input, rfl⟩ := hop
    simp only [noteProof, ProofHistory.applied, hsame, if_true]
    split <;> rfl
  · exact noteProof_evidence fun input hinput => hop ⟨input, hinput⟩

/-- A residence is not rewritten under a current proof of address, neither before
nor while an outcome is on its way; and a proof is applied that outlasts the
baseline verification. -/
def residenceKept : Guard (World × ProofHistory) Event Op where
  call t op w := match op with
    | .reserveSessionStart accountId _ residenceCountryCode _ _ => ∀ r ∈ w.1.rows, r.accountId = accountId →
        canStartSession r.operationalSubstatus = true → r.proofOfAddressStatus = .current →
          r.residenceCountryCode = some residenceCountryCode
    | .applyProofOfAddressOutcome input => input.outcome.status = .current → ∀ r ∈ w.1.rows,
        r.proofOfAddressDiditReference = some input.diditReference →
        isStale r.proofOfAddressProviderUpdatedAt input.providerUpdatedAt = false →
          (∀ residence, (input.diditReference, residence) ∈ (w.2.reading t).sessions →
            r.residenceCountryCode = residence) ∧
          ∀ updatedAt currentUntil, r.providerUpdatedAt = some updatedAt →
            input.outcome.currentUntil = some currentUntil → updatedAt < currentUntil
    | _ => True
  env _ _ := True

end History

section Rows

/-- `evidence` is what the account's proof of address rests on. -/
structure KycEligibility.Proven (now : ℤ) (evidence : List DiditProofOfAddressSummary) (r : KycEligibility) :
    Prop where
  documents : r.proofOfAddressStatus = .current →
    ∃ residence, r.residenceCountryCode = some residence ∧ DocumentsFrom residence evidence
  verified : r.proofOfAddressStatus = .current → r.eligibilityState = .eligible →
    r.operationalSubstatus = .kycVerified → ∃ currentUntil, r.proofOfAddressCurrentUntil = some currentUntil ∧
      ∀ updatedAt, r.providerUpdatedAt = some updatedAt → updatedAt < currentUntil
  ended : r.proofOfAddressStatus ≠ .current → ∀ currentUntil, r.proofOfAddressCurrentUntil = some currentUntil →
    currentUntil ≤ now

structure Proven (w : World × ProofHistory) : Prop where
  orderly : Orderly w.1
  rows : ∀ r ∈ w.1.rows, r.Proven w.1.now (w.2.evidence r.accountId)

/-- The outcome is what the policy says of the decision and of the residence that
the thread has read. -/
def ProofOfAddressInput.Supported (reading : Reading) (input : ProofOfAddressInput) : Prop :=
  ∃ residence, (input.diditReference, residence) ∈ reading.sessions ∧ input.outcome.RestsOn reading.decision residence

def proofRules : Rules (World × ProofHistory) Op where
  inv := Proven
  rely t w w' := w.1.now ≤ w'.1.now ∧ w'.2.reading t = w.2.reading t
  req t op w := op.Evaluated ∧ match op with
    | .reserveProofOfAddressSessionStart _ _ startedAt => startedAt ≤ w.1.now
    | .applyProofOfAddressOutcome input => input.Supported (w.2.reading t)
    | _ => True

variable {now : ℤ} {evidence : List DiditProofOfAddressSummary} {r r' : KycEligibility}

theorem KycEligibility.Proven.later (h : r.Proven now evidence) (hnow : now ≤ now') : r.Proven now' evidence :=
  ⟨h.documents, h.verified, fun hother currentUntil huntil => (h.ended hother currentUntil huntil).trans hnow⟩

theorem KycEligibility.Proven.unverified (h : r.Proven now evidence)
    (hstatus : r'.proofOfAddressStatus = r.proofOfAddressStatus)
    (hresidence : r.proofOfAddressStatus = .current → r'.residenceCountryCode = r.residenceCountryCode)
    (huntil : r'.proofOfAddressCurrentUntil = r.proofOfAddressCurrentUntil)
    (hother : r'.eligibilityState ≠ .eligible ∨ r'.operationalSubstatus ≠ .kycVerified) : r'.Proven now evidence := by
  refine ⟨fun hcurrent => ?_, fun _ heligible hverified => ?_, fun hends => ?_⟩
  · rw [hstatus] at hcurrent
    rw [hresidence hcurrent]
    exact h.documents hcurrent
  · exact absurd hverified (hother.resolve_left (not_not_intro heligible))
  · rw [huntil]
    exact h.ended (hstatus ▸ hends)

theorem KycEligibility.Proven.ended_of_start (h : r.Proven now evidence) (hnow : startedAt ≤ now)
    (hmay : r.mayProveAddress startedAt = true)
    (huntil : r.proofOfAddressCurrentUntil = some currentUntil) : currentUntil ≤ now := by
  by_cases hcurrent : r.proofOfAddressStatus = .current
  · have hstart := (of_decide_eq_true hmay).2
    simp only [canStartProofOfAddress, hcurrent, huntil, any_some, decide_eq_true_eq, true_and] at hstart
    split at hstart
    · cases hstart
    · rename_i hover
      exact (not_lt.mp hover).trans hnow
  · exact h.ended hcurrent currentUntil huntil

theorem proven_withOutcome (h : r.Proven now evidence) (hinput : input.Evaluated) :
    (r.withOutcome input).Proven now evidence := by
  refine ⟨h.documents, fun hcurrent heligible hverified => ?_, h.ended⟩
  have hsubstatus : r.substatusAfter input = .kycVerified := hverified
  unfold KycEligibility.substatusAfter at hsubstatus
  split at hsubstatus
  · rename_i hproof
    obtain ⟨currentUntil, huntil, hlater⟩ := (Option.any_eq_true _ _).mp hproof.2.2
    refine ⟨currentUntil, huntil, fun updatedAt hupdated => ?_⟩
    rw [← some.inj hupdated]
    exact of_decide_eq_true hlater
  · rw [(hinput.eligible heligible).2.1] at hsubstatus
    cases hsubstatus

theorem proven_withProof (hinput : input.Supported reading) (hguard : input.outcome.status = .current →
      (∀ residence, (input.diditReference, residence) ∈ reading.sessions → r.residenceCountryCode = residence) ∧
      ∀ updatedAt currentUntil, r.providerUpdatedAt = some updatedAt →
        input.outcome.currentUntil = some currentUntil → updatedAt < currentUntil) :
    (r.withProof input).Proven now reading.documents := by
  obtain ⟨residence, hread, ⟨hother, hnone⟩ | ⟨hcurrent, d, code, currentUntil, hdecision, rfl, huntil, hdocuments⟩⟩ :=
    hinput
  · refine ⟨fun hcurrent => absurd hcurrent hother, fun hcurrent => absurd hcurrent hother,
      fun _ currentUntil huntil => ?_⟩
    cases hnone.symm.trans huntil
  · obtain ⟨hresidence, hlater⟩ := hguard hcurrent
    refine ⟨fun _ => ⟨code, hresidence _ hread, ?_⟩, fun _ _ _ => ⟨currentUntil, huntil, fun updatedAt hupdated => ?_⟩,
      fun hother => absurd hcurrent hother⟩
    · simpa only [Reading.documents, hdecision, map_some, getD_some] using hdocuments
    · exact hlater updatedAt currentUntil hupdated huntil

end Rows

variable {c : Choice} {op : Op} {t : Nat} {w' : World}

section Steps

variable {w : World} {h : ProofHistory} {now : ℤ} {evidence : AccountId → List DiditProofOfAddressSummary}

theorem proven_rewrite (hrows : ∀ r ∈ w.rows, r.Proven now (evidence r.accountId)) {p : KycEligibility → Bool}
    {set : KycEligibility → KycEligibility} (hid : ∀ r, (set r).accountId = r.accountId)
    (hset : ∀ r ∈ w.rows, p r = true → (set r).Proven now (evidence r.accountId)) :
    ∀ r ∈ (rewriteRows p set w).rows, r.Proven now (evidence r.accountId) := by
  intro r' hr'
  obtain ⟨r, hr, rfl⟩ := List.mem_map.mp hr'
  rw [rewrite_accountId hid]
  split
  · rename_i hp
    exact hset r hr hp
  · exact hrows r hr

theorem proven_applied (horderly : Orderly w) (hrows : ∀ r ∈ w.rows, r.Proven now (h.evidence r.accountId))
    (hcurrent : w.rows.find? (KycEligibility.hasProofReference input.diditReference) = some current)
    (hnext : w'.rows = (rewriteRows (KycEligibility.isOf current.accountId) (KycEligibility.withProof input) w).rows)
    (hproof : (current.withProof input).Proven now (h.reading t).documents) :
    ∀ r ∈ w'.rows, r.Proven now ((h.applied t input w w').evidence r.accountId) := by
  have hmem := mem_of_find?_eq_some hcurrent
  unfold ProofHistory.applied
  rw [hcurrent]
  simp only
  split
  · rename_i hsame
    rw [hsame]
    exact hrows
  · rw [hnext]
    intro r' hr'
    obtain ⟨r, hr, rfl⟩ := List.mem_map.mp hr'
    have hid : ∀ r, (KycEligibility.withProof input r).accountId = r.accountId := fun _ => rfl
    rw [rewrite_accountId hid]
    split
    · rename_i hp
      obtain rfl := horderly.keyed.eq_of_key hr hmem (isOf_iff.mp hp)
      simpa only [update_self] using hproof
    · rename_i hp
      have hother : r.accountId ≠ current.accountId := fun haccount => hp (isOf_iff.mpr haccount)
      simpa only [update_of_ne hother] using hrows r hr

/-- Every operation keeps the proofs of address backed by the documents read. -/
theorem run_proven (hinv : Proven (w, h))
    (hreq : proofRules.req t op (w, h)) (hguard : residenceKept.call t op (w, h)) (hrun : op.run c w = some (a, w')) :
    ∀ r' ∈ w'.rows, r'.Proven w.now ((noteProof t op w (r, w') h).evidence r'.accountId) := by
  obtain ⟨horderly, hrows⟩ := hinv
  by_cases hop : ∃ input, op = .applyProofOfAddressOutcome input
  · obtain ⟨input, rfl⟩ := hop
    have hstep := run_rowStep hrun
    generalize hnext : w'.rows = rows at hstep
    rw [← hnext]
    cases hstep with
    | same =>
      rw [noteProof_same hnext, hnext]
      exact hrows
    | @proof current _ _ hcurrent hstale =>
      refine proven_applied horderly hrows hcurrent hnext (proven_withProof hreq.2 fun hcur => ?_)
      have href : current.proofOfAddressDiditReference = some input.diditReference := by
        simpa [KycEligibility.hasProofReference] using find?_some hcurrent
      exact hguard hcur current (mem_of_find?_eq_some hcurrent) href hstale
  · rw [noteProof_evidence fun input hinput => hop ⟨input, hinput⟩]
    have hstep := run_rowStep hrun
    generalize w'.rows = rows at hstep
    cases hstep with
    | same => exact hrows
    | create =>
      intro r' hr'
      obtain hr' | hr' := mem_append.mp hr'
      · exact hrows r' hr'
      · rw [mem_singleton.mp hr']
        exact ⟨nofun, nofun, nofun⟩
    | reserve hcurrent hstart =>
      refine proven_rewrite hrows (fun _ => rfl) fun r hr hp => ?_
      refine (hrows r hr).unverified rfl (fun hproof => ?_) rfl (.inr nofun)
      obtain rfl := horderly.keyed.eq_of_key hr (row_some hcurrent).1
        ((isOf_iff.mp hp).trans (row_some hcurrent).2.symm)
      exact (hguard r hr (isOf_iff.mp hp) hstart hproof).symm
    | complete | lapse =>
      exact proven_rewrite hrows (fun _ => rfl) fun r hr _ =>
        (hrows r hr).unverified rfl (fun _ => rfl) rfl (.inl nofun)
    | fail =>
      exact proven_rewrite hrows (fun _ => rfl) fun r hr _ =>
        (hrows r hr).unverified rfl (fun _ => rfl) rfl (.inr nofun)
    | reserveProof hcurrent hmay =>
      refine proven_rewrite hrows (fun _ => rfl) fun r hr hp => ⟨nofun, nofun, fun _ currentUntil huntil => ?_⟩
      obtain rfl := horderly.keyed.eq_of_key hr (row_some hcurrent).1
        ((isOf_iff.mp hp).trans (row_some hcurrent).2.symm)
      exact (hrows r hr).ended_of_start hreq.2 hmay huntil
    | completeProof | failProof =>
      refine proven_rewrite hrows (fun _ => rfl) fun r hr hp => ⟨nofun, nofun, fun _ => (hrows r hr).ended ?_⟩
      simp [(isCreatingProof_iff.mp hp).2.2]
    | outcome =>
      exact proven_rewrite hrows (fun _ => rfl) fun r hr _ => proven_withOutcome (hrows r hr) hreq.1
    | proof => exact absurd ⟨_, rfl⟩ hop

end Steps

/-- Every call that meets its requirement keeps the proofs, and every other
thread its readings. -/
theorem exec_proven {w w' : World × ProofHistory} {r : Except Failure op.Out} (hinv : Proven w)
    (hreq : proofRules.req t op w) (hguard : residenceKept.call t op w)
    (hexec : ((system cfg).recording noteProof).exec t op c w = some (r, w')) :
    Proven w' ∧ ∀ u, u ≠ t → proofRules.rely u w w' := by
  obtain ⟨hplain, hnote⟩ := recording_exec hexec
  have hcall : exec t op c w.1 = some (r, w'.1) := hplain
  refine ⟨?_, fun u hu => ⟨(exec_frame (t := t) hcall).1.ge, ?_⟩⟩
  · obtain ⟨a, hrun, hfree, -⟩ | ⟨hthrown, hsame⟩ := exec_inv (t := t) hcall
    · refine ⟨run_orderly hinv.orderly hreq.1 hfree hrun, ?_⟩
      rw [hnote, (run_frame hrun).now]
      exact run_proven hinv hreq hguard hrun
    · have hrows : w'.1.rows = w.1.rows := congrArg World.rows hsame
      refine ⟨hinv.orderly.same hrows, ?_⟩
      rw [hnote, noteProof_same hrows, hsame]
      exact hinv.rows
  · rw [hnote]
    exact noteProof_other hu

abbrev ProofSpec (cfg : Configuration) {α : Type} :=
  Triple (α := α) ((system cfg).recording noteProof) residenceKept proofRules

theorem proof_call {P : World × ProofHistory → Prop} {Q : op.Out → World × ProofHistory → Prop}
    (hreq : ∀ w, P w → proofRules.req t op w)
    (hstep : ∀ w w' a, P w → w'.2 = noteProof t op w.1 (.ok a, w'.1) w.2 → (∃ c, op.run c w.1 = some (a, w'.1)) →
    Q a w')
    (hstable : ∀ a, proofRules.Stable t (Q a)) :
    ProofSpec cfg t P (invoke op) Q := by
  refine triple_perform (fun w _ => hreq w) (fun w c r w' hinv hP hguard hexec => ?_) hstable
  obtain ⟨hproven, hrely⟩ := exec_proven hinv (hreq w hP) hguard hexec
  refine ⟨hproven, hrely, fun a ha => ?_⟩
  subst ha
  obtain ⟨hplain, hnote⟩ := recording_exec hexec
  exact hstep w w' a hP hnote ⟨c, exec_ok (t := t) hplain⟩

theorem proof_any {P : World × ProofHistory → Prop} (hreq : ∀ w, P w → proofRules.req t op w) :
    ProofSpec cfg t P (invoke op) fun _ _ => True :=
  proof_call hreq (fun _ _ _ _ _ _ => trivial) fun _ => Rules.stable_const

/-- Calls that need nothing to hold. -/
def Op.Harmless : Op → Prop
  | .reserveProofOfAddressSessionStart .. | .applyProofOfAddressOutcome _ => False
  | op => op.Evaluated

theorem Op.Harmless.req (h : op.Harmless) (w : World × ProofHistory) : proofRules.req t op w := by
  cases op with
  | reserveProofOfAddressSessionStart => exact h.elim
  | applyProofOfAddressOutcome => exact h.elim
  | applyProviderOutcome => exact ⟨h, trivial⟩
  | _ => exact ⟨trivial, trivial⟩

theorem harmless_triple {P : Op → Prop} (hP : ∀ op, P op → op.Harmless) {p : Run α} (hp : p.Calls P) :
    ProofSpec cfg t (fun _ => True) p fun _ _ => True :=
  triple_calls (fun op w hop _ => (hP op hop).req w)
    (fun op _ w _ _ hop hinv hguard hexec => exec_proven hinv ((hP op hop).req w) hguard hexec) hp

theorem reading_stable (R : Reading → Prop) : proofRules.Stable t fun w => R (w.2.reading t) := by
  intro w w' _ _ hrely h
  rw [hrely.2]
  exact h

theorem startProofOfAddressSession_proof :
    ProofSpec cfg t (fun _ => True)
      (startProofOfAddressSession workflowId accountId) fun _ _ => True := by
  have hends : ∀ op : Op, op.EndsProofStart → op.Harmless := by
    intro op hop
    cases op <;> first | exact hop.elim | trivial
  refine triple_bind (proof_any (fun _ _ => ⟨trivial, trivial⟩)) fun sessionStartId => ?_
  refine triple_bind (proof_call (Q := fun startedAt w => startedAt ≤ w.1.now) (fun _ _ => ⟨trivial, trivial⟩) ?_ ?_)
    fun startedAt => ?_
  · rintro w w' startedAt - - ⟨c, hrun⟩
    have hread := some.inj hrun
    rw [← show w.1.now = startedAt from congrArg Prod.fst hread, ← show w.1 = w'.1 from congrArg Prod.snd hread]
  · intro startedAt w w' _ _ hrely hle
    exact hle.trans hrely.1
  refine triple_bind (proof_any (fun _ hle => ⟨trivial, hle⟩)) fun reserved => ?_
  split
  · refine triple_bind (triple_catch_any (harmless_triple (fun _ => id) (Prog.calls_perform trivial)) fun error =>
      harmless_triple hends (abandonProofStart_calls ..)) fun session => ?_
    split
    · exact harmless_triple hends (abandonProofStart_calls ..)
    · exact harmless_triple hends (completeProofStart_calls ..)
  · exact triple_fail

/-- What the thread has read of a session whose proof of address it decides on. -/
def HasRead (t : Nat) (purpose : Purpose) (diditReference : DiditReference) (residence : Option CountryCode)
    (w : World × ProofHistory) : Prop :=
  purpose = .ownerProofOfAddress → (diditReference, residence) ∈ (w.2.reading t).sessions

theorem hasRead_stable (purpose : Purpose) (diditReference : DiditReference) (residence : Option CountryCode) :
    proofRules.Stable t (HasRead t purpose diditReference residence) :=
  reading_stable fun reading => purpose = .ownerProofOfAddress → (diditReference, residence) ∈ reading.sessions

/-- The decision that was fetched last. -/
def Fetched (t : Nat) (decision : Option DiditDecisionSummary) (w : World × ProofHistory) : Prop :=
  ∀ d, decision = some d → (w.2.reading t).decision = some d

theorem supported_evaluate {diditReference : DiditReference} {decision : Option DiditDecisionSummary}
    {residence : Option CountryCode} (hread : (diditReference, residence) ∈ reading.sessions)
    (hdecision : ∀ d, decision = some d → reading.decision = some d) (source : EventSource)
    (status : Option DiditStatus) (occurredAt : ℤ) : ProofOfAddressInput.Supported reading
      ⟨source, diditReference, status, occurredAt, evaluateProofOfAddressOutcome status decision residence
        occurredAt⟩ := by
  refine ⟨residence, hread, ?_⟩
  have hrests := evaluateProofOfAddressOutcome_restsOn status decision residence occurredAt
  cases decision with
  | none => exact hrests.of_none
  | some d =>
    rw [hdecision d rfl]
    exact hrests

theorem diditClient_proof (sessionId : DiditReference) (S : List (DiditReference × Option CountryCode) → Prop) :
    ProofSpec cfg t (fun w => S (w.2.reading t).sessions)
      (diditClient sessionId) fun decision w => S (w.2.reading t).sessions ∧ Fetched t (some decision) w := by
  refine proof_call (fun _ _ => ⟨trivial, trivial⟩) (fun w w' decision hread hnote _ => ?_)
    fun decision => (reading_stable fun reading => S reading.sessions).and
      (reading_stable fun reading => ∀ d, some decision = some d → reading.decision = some d)
  simp only [noteProof, ProofHistory.read] at hnote
  refine ⟨?_, fun d hd => ?_⟩
  · simpa [hnote] using hread
  · simpa [hnote] using hd

theorem applyWebhook_proof (input : DiditWebhook) (target : KycEligibility) (decision : Option DiditDecisionSummary)
    (purpose : Purpose) :
    ProofSpec cfg t
      (fun w => HasRead t purpose input.sessionId target.residenceCountryCode w ∧ Fetched t decision w)
      (applyWebhook input target decision purpose) fun _ _ => True := by
  cases purpose with
  | baselineKyc =>
    exact triple_bind (proof_any (fun _ _ => ⟨⟨decision, _, _, _, rfl⟩, trivial⟩)) fun _ => triple_done
  | ownerProofOfAddress =>
    refine triple_bind (proof_any (fun w hw => ⟨trivial, ?_⟩)) fun _ => triple_done
    exact supported_evaluate (hw.1 rfl) hw.2 ..

theorem unmatched_proof (input : DiditWebhook) (reason : UnmatchedReason) (P : World × ProofHistory → Prop) :
    ProofSpec cfg t P (unmatched input reason) fun _ _ => True :=
  triple_bind (proof_any (fun _ _ => ⟨trivial, trivial⟩)) fun _ => triple_done

theorem decideWebhook_proof (input : DiditWebhook) (target : KycEligibility) (purpose : Purpose) :
    ProofSpec cfg t
      (HasRead t purpose input.sessionId target.residenceCountryCode)
      (decideWebhook diditClient input target purpose) fun _ _ => True := by
  unfold decideWebhook
  split
  · refine triple_bind (diditClient_proof _ fun sessions => purpose = .ownerProofOfAddress →
      (input.sessionId, target.residenceCountryCode) ∈ sessions) fun decision => ?_
    split
    · exact applyWebhook_proof _ _ _ _
    · exact unmatched_proof _ _ _
  · refine triple_pre (applyWebhook_proof _ _ _ _) fun w _ hread => ⟨hread, fun d hd => ?_⟩
    cases hd

theorem findTarget_proof (sessionId : DiditReference) (purpose : Purpose) :
    ProofSpec cfg t (fun _ => True) (findTarget sessionId purpose)
      fun target w => ∀ row, target = some row → HasRead t purpose sessionId row.residenceCountryCode w := by
  cases purpose with
  | baselineKyc =>
    refine proof_call (fun _ _ => ⟨trivial, trivial⟩) (fun w w' target _ _ _ row _ hpurpose => ?_) fun target => ?_
    · cases hpurpose
    · intro w w' _ _ _ _ row _ hpurpose
      cases hpurpose
  | ownerProofOfAddress =>
    refine proof_call (fun _ _ => ⟨trivial, trivial⟩) (fun w w' target _ hnote _ row hrow _ => ?_) fun target => ?_
    · subst hrow
      rw [hnote]
      simp [noteProof, ProofHistory.read]
    · intro w w' hinv hinv' hrely hread row hrow
      exact hasRead_stable _ _ _ w w' hinv hinv' hrely (hread row hrow)

theorem invalidateForBaseline_proof (accountId : AccountId) (purpose : Purpose) (diditReference : DiditReference)
    (residence : Option CountryCode) :
    ProofSpec cfg t (HasRead t purpose diditReference residence)
      (invalidateForBaseline accountId purpose) fun _ => HasRead t purpose diditReference residence := by
  cases purpose with
  | baselineKyc =>
    refine triple_pre (triple_post (harmless_triple (fun _ => id) (attempt_calls (Prog.calls_perform trivial)))
      fun _ w _ _ hpurpose => ?_) fun _ _ _ => trivial
    cases hpurpose
  | ownerProofOfAddress => exact triple_ret fun _ _ h => h

theorem processDiditWebhook_proof :
    ProofSpec cfg t (fun _ => True)
      (processDiditWebhook cfg diditClient input) fun _ _ => True := by
  refine triple_bind (proof_any (fun _ _ => ⟨trivial, trivial⟩)) fun processed => ?_
  split
  · exact triple_ret fun _ _ h => h
  · split
    · split
      · exact unmatched_proof _ _ _
      · refine triple_bind (findTarget_proof _ _) fun target => ?_
        split
        · exact unmatched_proof _ _ _
        · rename_i row
          split
          · exact unmatched_proof _ _ _
          · refine triple_bind (triple_pre (invalidateForBaseline_proof _ _ input.sessionId row.residenceCountryCode)
              fun w _ hread => hread row rfl) fun _ => decideWebhook_proof _ _ _
    · exact unmatched_proof _ _ _

/-- The run knows the residences of the sessions it has listed. -/
def HasListed (t : Nat) (stuck : List StuckOpen) (w : World × ProofHistory) : Prop :=
  (w.2.reading t).sessions = stuck.filterMap StuckOpen.proofReading

theorem reconcileOne_proof (hmem : session ∈ stuck) :
    ProofSpec cfg t (HasListed t stuck)
      (reconcileOne diditClient timeoutMs now acted session) fun _ => HasListed t stuck := by
  have hlisted : proofRules.Stable t (HasListed t stuck) :=
    reading_stable fun reading => reading.sessions = stuck.filterMap StuckOpen.proofReading
  unfold reconcileOne
  split
  · split
    · exact triple_fail
    · rename_i diditReference href
      refine triple_bind (diditClient_proof _ fun sessions => sessions = stuck.filterMap StuckOpen.proofReading)
        fun decision => ?_
      split
      · exact triple_ret fun _ _ h => h.1
      · split
        · refine triple_bind (proof_call (Q := fun _ => HasListed t stuck)
            (fun _ _ => ⟨⟨some decision, _, _, _, rfl⟩, trivial⟩) (fun w w' _ hlist hnote _ => ?_) fun _ => hlisted)
            fun _ => triple_ret fun _ _ h => h
          rw [HasListed, hnote]
          exact hlist.1
        · rename_i hkind
          refine triple_bind (proof_call (Q := fun _ => HasListed t stuck) (fun w hlist => ⟨trivial, ?_⟩)
            (fun w w' _ hlist hnote _ => ?_) fun _ => hlisted) fun _ => triple_ret fun _ _ h => h
          · refine supported_evaluate ?_ hlist.2 ..
            rw [hlist.1]
            exact mem_filterMap.mpr ⟨session, hmem, by simp [StuckOpen.proofReading, hkind, href]⟩
          · rw [HasListed, hnote]
            exact (congrArg Reading.sessions (congrFun (applied_reading ..) t)).trans hlist.1
  · exact triple_ret fun _ _ h => h

theorem reconcileStuckOpenSessions_proof :
    ProofSpec cfg t (fun _ => True)
      (reconcileStuckOpenSessions diditClient timeoutMs) fun _ _ => True := by
  refine triple_bind (proof_any (fun _ _ => ⟨trivial, trivial⟩)) fun now => ?_
  refine triple_bind (proof_call (Q := fun stuck => HasListed t stuck) (fun _ _ => ⟨trivial, trivial⟩)
    (fun w w' stuck _ hnote _ => ?_) fun stuck =>
      reading_stable fun reading => reading.sessions = stuck.filterMap StuckOpen.proofReading) fun stuck => ?_
  · simp [HasListed, hnote, noteProof, ProofHistory.read]
  refine triple_bind (Q := fun _ _ => True) ?_ fun acted => triple_done
  refine triple_post (triple_foldlM (I := fun _ => HasListed t stuck) _ [] stuck ?_ 0) fun _ _ _ _ => trivial
  intro acted done session todo hsplit
  refine reconcileOne_proof ?_
  rw [nil_append] at hsplit
  rw [← hsplit]
  simp

/-- The proofs are backed however the jobs interleave, if residences are kept. -/
theorem proof_sound : Sound ((system cfg).recording noteProof) residenceKept proofRules where
  job t j := by
    cases j with
    | startSession accountId residence tax =>
      refine harmless_triple (fun op hop => ?_) (Job.makes cfg (.startSession accountId residence tax))
      cases op <;> first | exact hop.elim | trivial
    | startProofOfAddress =>
      exact triple_bind startProofOfAddressSession_proof fun _ => triple_done
    | webhook => exact triple_bind (processDiditWebhook_proof) fun _ => triple_done
    | renewalTimer =>
      refine harmless_triple (fun op hop => ?_) (Job.makes cfg .renewalTimer)
      cases op <;> first | exact hop.elim | trivial
    | expireCreations =>
      refine harmless_triple (fun op hop => ?_) (Job.makes cfg .expireCreations)
      cases op <;> first | exact hop.elim | trivial
    | reconcileOpen =>
      exact triple_bind reconcileStuckOpenSessions_proof fun _ => triple_done
  env e w w' hinv _ henv := by
    obtain ⟨hplain, hsame⟩ := recording_env henv
    have hevent : env e w.1 = some w'.1 := hplain
    have hrows := env_rows hevent
    refine ⟨⟨hinv.orderly.same hrows, ?_⟩, fun t => ⟨(env_frame hevent).1, by rw [hsame]⟩⟩
    rw [hrows, hsame]
    exact fun r hr => (hinv.rows r hr).later (env_frame hevent).1

theorem proven_start :
    Proven (World.start now accounts decisions, .start) :=
  ⟨⟨nodup_nil, fun _ hr => absurd hr not_mem_nil, fun _ hr => absurd hr not_mem_nil⟩,
    fun _ hr => absurd hr not_mem_nil⟩

/-- In every run in which the residence is not rewritten under a proof of address
and each proof outlasts the baseline, a current proof is one for the stored
residence, and so is the proof of whoever passes the check of the intake. -/
theorem proof_of_address_is_for_residence (cfg : Configuration) (now : ℤ) (accounts : List Account)
    (decisions : DiditReference → DiditDecisionSummary) (s : Config (World × ProofHistory) Failure Op Op.Out)
    (h : Reachable ((system cfg).recording noteProof) residenceKept
      (idle (World.start now accounts decisions, .start)) s) :
    (∀ r ∈ s.world.1.rows, r.proofOfAddressStatus = .current →
      (∃ residence, r.residenceCountryCode = some residence ∧
        DocumentsFrom residence (s.world.2.evidence r.accountId)) ∧
      (r.eligibilityState = .eligible → r.operationalSubstatus = .kycVerified →
        ∃ currentUntil, r.proofOfAddressCurrentUntil = some currentUntil ∧
          ∀ updatedAt, r.providerUpdatedAt = some updatedAt → updatedAt < currentUntil)) ∧
    ∀ accountId entry, evaluateIntakeEntry (intakeEntryInput accountId entry s.world.1) = .ok () →
      ∃ r ∈ s.world.1.rows, r.accountId = accountId ∧ ∃ residence, r.residenceCountryCode = some residence ∧
        DocumentsFrom residence (s.world.2.evidence accountId) := by
  have hrows := (h.secure proof_sound (secure_idle _ proven_start)).1.rows
  refine ⟨fun r hr hcurrent => ⟨(hrows r hr).documents hcurrent, (hrows r hr).verified hcurrent⟩, ?_⟩
  intro accountId entry hok
  obtain ⟨-, currentUntil, huntil, hlater⟩ := evaluateIntakeEntry_ok hok
  obtain ⟨r, hrow, hproof⟩ := bind_eq_some_iff.mp huntil
  obtain ⟨hr, rfl⟩ := row_some hrow
  refine ⟨r, hr, rfl, (hrows r hr).documents ?_⟩
  by_contra hother
  exact absurd hlater (not_lt.mpr ((hrows r hr).ended hother currentUntil hproof))

abbrev ProofConfig := Config (World × ProofHistory) Failure Op Op.Out

def residenceKeptTest (t : Nat) (op : Op) (w : World × ProofHistory) : Bool :=
  match op with
  | .reserveSessionStart accountId _ residenceCountryCode _ _ => w.1.rows.all fun r =>
      decide (r.accountId = accountId → canStartSession r.operationalSubstatus = true →
        r.proofOfAddressStatus = .current → r.residenceCountryCode = some residenceCountryCode)
  | .applyProofOfAddressOutcome input => w.1.rows.all fun r =>
      (w.2.reading t).sessions.all (fun session => decide (session.1 = input.diditReference →
        r.residenceCountryCode = session.2)) &&
      decide (r.providerUpdatedAt.all (fun updatedAt => input.outcome.currentUntil.all fun currentUntil =>
        updatedAt < currentUntil) = true)
  | _ => true

theorem residenceKeptTest_sound (t : Nat) (op : Op) (w : World × ProofHistory) (h : residenceKeptTest t op w = true) :
    residenceKept.call t op w := by
  cases op with
  | reserveSessionStart =>
    intro r hr
    exact of_decide_eq_true (List.all_eq_true.mp h r hr)
  | applyProofOfAddressOutcome =>
    intro _ r hr _ _
    obtain ⟨hread, hlater⟩ := Bool.and_eq_true_iff.mp (List.all_eq_true.mp h r hr)
    refine ⟨fun residence hmem => of_decide_eq_true (List.all_eq_true.mp hread _ hmem) rfl, ?_⟩
    intro updatedAt currentUntil hupdated huntil
    simpa [hupdated, huntil] using hlater
  | _ => trivial

/-- The proof of address has a workflow of its own. -/
def proofCfg : Configuration := { sampleCfg with proofOfAddressWorkflowId := some 2 }

/-- A document issued in Germany. -/
def sampleDocument : DiditProofOfAddressSummary := ⟨⟨"Approved", []⟩, some "2023-11-01", some "DE"⟩

/-- Account 1 is verified through session 5, and proves an address in Germany
through session 9. -/
def sampleProof : List RenewalAction :=
  sampleStart 0 7 5 ++ sampleApprove 1 5 (sampleWebhook 1 .approved 1700000100) ++
    [.spawn 2 (.startProofOfAddress 2 1), .call 2 { calm with id := 8 }] ++ renewalCalls 2 2 ++
    .call 2 { calm with id := 9, session := (.notStarted, 2, 1) } :: renewalCalls 2 2 ++
    [.env (.report 9 { sampleDecision .approved with
        sessionId := 9, workflowId := some 2, proofOfAddressVerifications := [sampleDocument] }),
      .spawn 3 (.webhook { sampleWebhook 2 .approved 1700000200 with sessionId := 9, workflowId := some 2 })] ++
    renewalCalls 3 4

def sampleEntry : IntakeEntry := ⟨20000000, 10000000, true, true, "residential"⟩

/-- Account 1 passes the check of the intake and lives in that country; its proof
of address is the German document. -/
def passesFrom (residence : CountryCode) (s : ProofConfig) : Bool :=
  s.world.1.rows.any (fun r => r.accountId = 1 ∧ r.residenceCountryCode = some residence ∧
    r.proofOfAddressStatus = .current ∧ r.eligibilityState = .eligible ∧ r.operationalSubstatus = .kycVerified) &&
  (s.world.2.evidence 1).any (fun v => v.countryCode = some "DE") &&
  decide (evaluateIntakeEntry (intakeEntryInput 1 sampleEntry s.world.1) = .ok ())

theorem proof_of_address_is_for_residence_sample : ∃ s,
    Reachable ((system proofCfg).recording noteProof) residenceKept (idle (sampleBeginning, .start)) s ∧
      passesFrom "DE" s = true ∧
      (∀ r ∈ s.world.1.rows, r.proofOfAddressStatus = .current →
        (∃ residence, r.residenceCountryCode = some residence ∧
          DocumentsFrom residence (s.world.2.evidence r.accountId)) ∧
        (r.eligibilityState = .eligible → r.operationalSubstatus = .kycVerified →
          ∃ currentUntil, r.proofOfAddressCurrentUntil = some currentUntil ∧
            ∀ updatedAt, r.providerUpdatedAt = some updatedAt → updatedAt < currentUntil)) ∧
      ∀ accountId entry, evaluateIntakeEntry (intakeEntryInput accountId entry s.world.1) = .ok () →
        ∃ r ∈ s.world.1.rows, r.accountId = accountId ∧ ∃ residence, r.residenceCountryCode = some residence ∧
          DocumentsFrom residence (s.world.2.evidence accountId) := by
  obtain ⟨s, hrun, hlook⟩ := exists_of_play ((system proofCfg).recording noteProof)
    (threadTest_sound (G := residenceKept) residenceKeptTest_sound fun _ _ => trivial) sampleProof
    (idle (sampleBeginning, .start)) (passesFrom "DE") (by decide +kernel)
  exact ⟨s, hrun, hlook, proof_of_address_is_for_residence proofCfg _ _ _ s hrun⟩

/-- The provider reports that the verification has expired, and account 1 starts
again as a resident of France, through session 6. -/
def sampleMove : List RenewalAction :=
  .spawn 4 (.webhook (sampleWebhook 3 .kycExpired 1700000300)) :: renewalCalls 4 4 ++
    [.spawn 5 (.startSession 1 "FR" "FR"), .call 5 { calm with id := 10 }] ++ renewalCalls 5 2 ++
    .call 5 { calm with id := 6, session := (.notStarted, 1, 1) } :: renewalCalls 5 3 ++
    sampleApprove 6 6 (sampleWebhook 4 .approved 1700000400)

/-- A resident of France is fully verified, and passes the check of the intake,
with the proof of the address in Germany. -/
theorem proof_for_former_residence : ∃ s,
    Reachable ((system proofCfg).recording noteProof) Guard.free (idle (sampleBeginning, .start)) s ∧
      (∃ r ∈ s.world.1.rows, r.accountId = 1 ∧ r.residenceCountryCode = some "FR" ∧
        r.proofOfAddressStatus = .current ∧ r.eligibilityState = .eligible ∧
        r.operationalSubstatus = .kycVerified) ∧
      (∃ v ∈ s.world.2.evidence 1, normalizeCountryCode v.countryCode ≠ some "FR") ∧
      evaluateIntakeEntry (intakeEntryInput 1 sampleEntry s.world.1) = .ok () := by
  obtain ⟨s, hrun, hlook⟩ := exists_of_play ((system proofCfg).recording noteProof)
    Guard.allows_free (sampleProof ++ sampleMove) (idle (sampleBeginning, .start)) (passesFrom "FR")
    (by decide +kernel)
  obtain ⟨hboth, hentry⟩ := Bool.and_eq_true_iff.mp hlook
  obtain ⟨hrow, hdocument⟩ := Bool.and_eq_true_iff.mp hboth
  obtain ⟨r, hr, hfields⟩ := List.any_eq_true.mp hrow
  obtain ⟨v, hv, hcountry⟩ := List.any_eq_true.mp hdocument
  refine ⟨s, hrun, ⟨r, hr, of_decide_eq_true hfields⟩, ⟨v, hv, ?_⟩, of_decide_eq_true hentry⟩
  rw [of_decide_eq_true hcountry]
  decide +kernel

end Kyc
