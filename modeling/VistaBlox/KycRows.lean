import VistaBlox.KycCalls
import VistaBlox.Table

/-!
# The rows of the identity table
-/
namespace Kyc

open Interleaving List Option

structure KycEligibility.Orderly (r : KycEligibility) : Prop where
  eligible : r.eligibilityState = .eligible →
    r.operationalSubstatus = .kycVerified ∨ r.operationalSubstatus = .kycVerifiedOwnerPoaMissing
  opened : r.operationalSubstatus = .kycSessionOpen → ∃ diditReference, r.diditReference = some diditReference

structure Orderly (w : World) : Prop where
  keyed : Table.Keyed KycEligibility.accountId w.rows
  distinct : ∀ r ∈ w.rows, ∀ r' ∈ w.rows, ∀ diditReference, r.diditReference = some diditReference →
    r'.diditReference = some diditReference → r.accountId = r'.accountId
  rows : ∀ r ∈ w.rows, r.Orderly

def orderlyRules : Rules World Op where
  inv := Orderly
  rely _ _ _ := True
  req _ op _ := op.Evaluated

section Rows

variable {w w' : World} {r : KycEligibility} {accountId : AccountId}

def World.row (w : World) (accountId : AccountId) : Option KycEligibility :=
  w.rows.find? (KycEligibility.isOf accountId)

theorem isOf_iff : r.isOf accountId = true ↔ r.accountId = accountId := by simp [KycEligibility.isOf]

theorem isCreating_iff : r.isCreating accountId sessionStartId = true ↔
    r.accountId = accountId ∧ r.sessionStartId = sessionStartId ∧ r.operationalSubstatus = .kycSessionCreating := by
  simp [KycEligibility.isCreating]

theorem isCreatingProof_iff :
    r.isCreatingProof accountId sessionStartId = true ↔
      r.accountId = accountId ∧ r.proofOfAddressSessionStartId = sessionStartId ∧
        r.proofOfAddressStatus = .creating := by
  simp [KycEligibility.isCreatingProof]

theorem isEligible_iff : r.isEligible accountId = true ↔ r.accountId = accountId ∧ r.eligibilityState = .eligible := by
  simp [KycEligibility.isEligible]

theorem hasReference_iff : r.hasReference diditReference = true ↔ r.diditReference = some diditReference := by
  simp [KycEligibility.hasReference]

theorem row_some (h : w.row accountId = some r) : r ∈ w.rows ∧ r.accountId = accountId :=
  ⟨mem_of_find?_eq_some h, isOf_iff.mp (find?_some h)⟩

theorem Orderly.find (h : Orderly w) (hr : r ∈ w.rows) (href : r.diditReference = some diditReference) :
    w.rows.find? (KycEligibility.hasReference diditReference) = some r := by
  cases hfind : w.rows.find? (KycEligibility.hasReference diditReference) with
  | none => exact absurd (hasReference_iff.mpr href) (find?_eq_none.mp hfind r hr)
  | some r' =>
    have hmem := mem_of_find?_eq_some hfind
    have href' := hasReference_iff.mp (find?_some hfind)
    rw [h.keyed.eq_of_key hmem hr (h.distinct r' hmem r hr diditReference href' href)]

variable {p : KycEligibility → Bool} {set : KycEligibility → KycEligibility}

theorem rewrite_accountId (hid : ∀ r, (set r).accountId = r.accountId) (r : KycEligibility) :
    (if p r = true then set r else r).accountId = r.accountId := by
  split
  · exact hid r
  · rfl

theorem row_map (hrows : w'.rows = (rewriteRows p set w).rows) (hid : ∀ r, (set r).accountId = r.accountId)
    (accountId : AccountId) : w'.row accountId = (w.row accountId).map fun r => if p r = true then set r else r := by
  unfold World.row
  rw [hrows]
  exact Table.find_map (rewrite_accountId (p := p) hid) accountId

theorem row_rewrite_account (h : w.row accountId = some r) (hrows : w'.rows = (rewriteRows p set w).rows)
    (hid : ∀ r, (set r).accountId = r.accountId) : w'.row accountId = some (if p r = true then set r else r) := by
  rw [row_map hrows hid, h]
  rfl

end Rows

section Calls

/-- What a call may do to the rows. -/
inductive RowStep (w : World) : Op → List KycEligibility → Prop where
  | same (op : Op) : RowStep w op w.rows
  | create (hnone : w.row accountId = none) :
      RowStep w (.reserveSessionStart accountId sessionStartId residenceCountryCode taxResidenceCountryCode startedAt)
        (w.rows ++ [newRow accountId sessionStartId residenceCountryCode taxResidenceCountryCode startedAt])
  | reserve (hcurrent : w.row accountId = some current)
      (hstart : canStartSession current.operationalSubstatus = true) :
      RowStep w (.reserveSessionStart accountId sessionStartId residenceCountryCode taxResidenceCountryCode startedAt)
        (rewriteRows (KycEligibility.isOf accountId)
          (KycEligibility.reserve sessionStartId residenceCountryCode taxResidenceCountryCode startedAt) w).rows
  | complete :
      RowStep w (.completeSessionStart accountId sessionStartId diditReference providerStatus completedAt)
        (rewriteRows (KycEligibility.isCreating accountId (some sessionStartId))
          (KycEligibility.open diditReference providerStatus completedAt) w).rows
  | fail :
      RowStep w (.failSessionStart accountId sessionStartId failedAt)
        (rewriteRows (KycEligibility.isCreating accountId sessionStartId)
          (fun r => { r with operationalSubstatus := .kycSessionCreationFailed, updatedAt := failedAt }) w).rows
  | reserveProof (hcurrent : w.row accountId = some current) (hmay : current.mayProveAddress startedAt = true) :
      RowStep w (.reserveProofOfAddressSessionStart accountId sessionStartId startedAt)
        (rewriteRows (KycEligibility.isOf accountId) (fun r => { r with
          proofOfAddressStatus := .creating
          proofOfAddressSessionStartId := some sessionStartId
          updatedAt := startedAt }) w).rows
  | completeProof :
      RowStep w (.completeProofOfAddressSessionStart accountId sessionStartId diditReference providerStatus
        completedAt)
        (rewriteRows (KycEligibility.isCreatingProof accountId (some sessionStartId)) (fun r => { r with
          proofOfAddressDiditReference := some diditReference
          proofOfAddressProviderStatus := some providerStatus
          proofOfAddressProviderUpdatedAt := some completedAt
          proofOfAddressStatus := .inProgress
          updatedAt := completedAt }) w).rows
  | failProof :
      RowStep w (.failProofOfAddressSessionStart accountId sessionStartId failedAt)
        (rewriteRows (KycEligibility.isCreatingProof accountId sessionStartId)
          (fun r => { r with proofOfAddressStatus := .creationFailed, updatedAt := failedAt }) w).rows
  | outcome (hnew : ∀ eventId, input.source = .webhook eventId → EventKey.webhook eventId ∉ w.auditKeys)
      (hcurrent : w.rows.find? (KycEligibility.hasReference input.diditReference) = some current)
      (hstale : isStale current.providerUpdatedAt input.providerUpdatedAt = false) :
      RowStep w (.applyProviderOutcome input)
        (rewriteRows (KycEligibility.isOf current.accountId) (KycEligibility.withOutcome input) w).rows
  | proof (hnew : ∀ eventId, input.source = .webhook eventId → EventKey.webhook eventId ∉ w.auditKeys)
      (hcurrent : w.rows.find? (KycEligibility.hasProofReference input.diditReference) = some current)
      (hstale : isStale current.proofOfAddressProviderUpdatedAt input.providerUpdatedAt = false) :
      RowStep w (.applyProofOfAddressOutcome input)
        (rewriteRows (KycEligibility.isOf current.accountId) (KycEligibility.withProof input) w).rows
  | lapse :
      RowStep w (.transitionToRequiresRenewal accountId transitionedAt)
        (rewriteRows (KycEligibility.isEligible accountId) (fun r => { r with
          eligibilityState := .requiresRenewal
          operationalSubstatus := .kycReverificationRequired
          updatedAt := transitionedAt }) w).rows

variable {op : Op} {c : Choice} {w w' : World} {a : op.Out}

theorem rows_recordUnmatchedProviderEvent (eventId : EventId) (w : World) :
    (recordUnmatchedProviderEvent eventId w).rows = w.rows := by
  unfold recordUnmatchedProviderEvent
  split <;> rfl

theorem webhook_new {source : EventSource} {id : Nat} (h : ¬ w.auditKeys.contains (source.key id) = true)
    (eventId : EventId) (hsource : source = .webhook eventId) : EventKey.webhook eventId ∉ w.auditKeys := by
  subst hsource
  simpa [EventSource.key] using h

/-- How each operation changes the rows. -/
theorem run_rowStep (hrun : op.run c w = some (a, w')) : RowStep w op w'.rows := by
  cases op <;> simp only [Op.run, some.injEq, ite_none_left_eq_some, Prod.ext_iff] at hrun
  case reserveSessionStart =>
    rw [← hrun.2, reserveSessionStart]
    split
    · exact .same _
    · split
      · exact .create ‹_›
      · split
        · exact .reserve ‹_› ‹_›
        · exact .same _
  case completeSessionStart =>
    rw [← hrun.2, completeSessionStart]
    split
    · exact .complete
    · exact .same _
  case failSessionStart =>
    rw [← hrun.2, failSessionStart]
    split
    · exact .fail
    · exact .same _
  case reserveProofOfAddressSessionStart =>
    rw [← hrun.2, reserveProofOfAddressSessionStart]
    split
    · exact .same _
    · split
      · exact .same _
      · split
        · exact .reserveProof ‹_› ‹_›
        · exact .same _
  case completeProofOfAddressSessionStart =>
    rw [← hrun.2, completeProofOfAddressSessionStart]
    split
    · exact .completeProof
    · exact .same _
  case failProofOfAddressSessionStart =>
    rw [← hrun.2, failProofOfAddressSessionStart]
    split
    · exact .failProof
    · exact .same _
  case applyProviderOutcome =>
    rw [← hrun.2.2, applyProviderOutcome]
    split
    · exact .same _
    · rename_i hnew
      split
      · exact .same _
      · split
        · exact .same _
        · exact .outcome (webhook_new hnew) ‹_› (Bool.eq_false_of_not_eq_true ‹_›)
  case applyProofOfAddressOutcome =>
    rw [← hrun.2.2, applyProofOfAddressOutcome]
    split
    · exact .same _
    · rename_i hnew
      split
      · exact .same _
      · split
        · exact .same _
        · exact .proof (webhook_new hnew) ‹_› (Bool.eq_false_of_not_eq_true ‹_›)
  case transitionToRequiresRenewal =>
    rw [← hrun.2, transitionToRequiresRenewal]
    split
    · exact .lapse
    · exact .same _
  case recordUnmatchedProviderEvent =>
    rw [← hrun.2, rows_recordUnmatchedProviderEvent]
    exact .same _
  case randomUUID => exact hrun.2.2 ▸ .same _
  case createSession => exact hrun.2.2 ▸ .same _
  all_goals exact hrun.2 ▸ .same _

/-- What a call does beside the rows: ids are drawn for good, and the key of a
session comes with its completion. -/
structure Frame (op : Op) (w w' : World) : Prop where
  now : w'.now = w.now
  accounts : w'.accounts = w.accounts
  startIds : w.startIds ⊆ w'.startIds
  sessions : w.sessions ⊆ w'.sessions
  keys : ∀ diditReference, .sessionStarted diditReference ∈ w'.auditKeys →
    .sessionStarted diditReference ∈ w.auditKeys ∨ ∃ accountId sessionStartId providerStatus completedAt,
      op = .completeSessionStart accountId sessionStartId diditReference providerStatus completedAt

theorem Frame.same (op : Op) (w : World) : Frame op w w :=
  ⟨rfl, rfl, List.Subset.refl _, List.Subset.refl _, fun _ h => .inl h⟩

theorem Frame.keyed {keys : List EventKey} (hnow : w'.now = w.now) (haccounts : w'.accounts = w.accounts)
    (hstartIds : w'.startIds = w.startIds) (hsessions : w'.sessions = w.sessions)
    (hkeys : w'.auditKeys = w.auditKeys ++ keys) (hother : ∀ diditReference, .sessionStarted diditReference ∉ keys) :
    Frame op w w' := by
  refine ⟨hnow, haccounts, hstartIds ▸ List.Subset.refl _, hsessions ▸ List.Subset.refl _, fun diditReference h => ?_⟩
  rw [hkeys] at h
  exact .inl ((mem_append.mp h).resolve_right (hother diditReference))

theorem sourceKey_ne (source : EventSource) (id : Nat) (diditReference : DiditReference) :
    EventKey.sessionStarted diditReference ∉ [source.key id] := by
  cases source <;> simp [EventSource.key]

/-- What each operation leaves as it is. -/
theorem run_frame (hrun : op.run c w = some (a, w')) : Frame op w w' := by
  cases op <;> simp only [Op.run, some.injEq, ite_none_left_eq_some, Prod.ext_iff] at hrun
  case randomUUID =>
    rw [← hrun.2.2]
    exact ⟨rfl, rfl, subset_append_left .., List.Subset.refl _, fun _ h => .inl h⟩
  case createSession =>
    rw [← hrun.2.2]
    exact ⟨rfl, rfl, List.Subset.refl _, subset_append_left .., fun _ h => .inl h⟩
  case completeSessionStart =>
    rw [← hrun.2, Kyc.completeSessionStart]
    split
    · refine ⟨rfl, rfl, List.Subset.refl _, List.Subset.refl _, fun diditReference h => ?_⟩
      obtain hold | hnew := mem_append.mp h
      · exact .inl hold
      · cases mem_singleton.mp hnew
        exact .inr ⟨_, _, _, _, rfl⟩
    · exact Frame.same ..
  case reserveSessionStart =>
    rw [← hrun.2, Kyc.reserveSessionStart]
    repeat' split
    all_goals exact Frame.keyed rfl rfl rfl rfl (append_nil _).symm fun _ => not_mem_nil
  case failSessionStart =>
    rw [← hrun.2, Kyc.failSessionStart]
    split
    · exact Frame.keyed rfl rfl rfl rfl rfl (by simp)
    · exact Frame.same ..
  case reserveProofOfAddressSessionStart =>
    rw [← hrun.2, Kyc.reserveProofOfAddressSessionStart]
    repeat' split
    all_goals exact Frame.keyed rfl rfl rfl rfl (append_nil _).symm fun _ => not_mem_nil
  case completeProofOfAddressSessionStart =>
    rw [← hrun.2, Kyc.completeProofOfAddressSessionStart]
    split
    · exact Frame.keyed rfl rfl rfl rfl rfl (by simp)
    · exact Frame.same ..
  case failProofOfAddressSessionStart =>
    rw [← hrun.2, Kyc.failProofOfAddressSessionStart]
    split
    · exact Frame.keyed rfl rfl rfl rfl rfl (by simp)
    · exact Frame.same ..
  case recordUnmatchedProviderEvent =>
    rw [← hrun.2, Kyc.recordUnmatchedProviderEvent]
    split
    · exact Frame.same ..
    · exact Frame.keyed rfl rfl rfl rfl rfl (by simp)
  case applyProviderOutcome =>
    rw [← hrun.2.2, Kyc.applyProviderOutcome]
    split
    · exact Frame.same ..
    · split
      · exact Frame.keyed rfl rfl rfl rfl rfl (sourceKey_ne _ _)
      · split
        · exact Frame.keyed rfl rfl rfl rfl rfl (sourceKey_ne _ _)
        · exact Frame.keyed rfl rfl rfl rfl rfl (sourceKey_ne _ _)
  case applyProofOfAddressOutcome =>
    rw [← hrun.2.2, Kyc.applyProofOfAddressOutcome]
    split
    · exact Frame.same ..
    · split
      · exact Frame.keyed rfl rfl rfl rfl rfl (sourceKey_ne _ _)
      · split
        · exact Frame.keyed rfl rfl rfl rfl rfl (sourceKey_ne _ _)
        · exact Frame.keyed rfl rfl rfl rfl rfl (sourceKey_ne _ _)
  case transitionToRequiresRenewal =>
    rw [← hrun.2, Kyc.transitionToRequiresRenewal]
    split
    · exact Frame.keyed rfl rfl rfl rfl rfl fun _ => not_mem_nil
    · exact Frame.same ..
  all_goals exact hrun.2 ▸ Frame.same ..

theorem exec_frame (h : exec t op c w = some (answer, w')) : w'.now = w.now ∧ w'.accounts = w.accounts := by
  obtain ⟨a, hrun, -, -⟩ | ⟨-, rfl⟩ := exec_inv (t := t) h
  · exact ⟨(run_frame hrun).now, (run_frame hrun).accounts⟩
  · exact ⟨rfl, rfl⟩

theorem env_frame (h : env e w = some w') : w.now ≤ w'.now ∧ w'.accounts = w.accounts := by
  cases e with
  | tick =>
    obtain ⟨hms, hnext⟩ := ite_none_right_eq_some.mp h
    cases hnext
    exact ⟨Int.le_add_of_nonneg_right hms, rfl⟩
  | report =>
    cases h
    exact ⟨le_rfl, rfl⟩

end Calls

variable {accountId : AccountId} {r : KycEligibility}

section Steps

variable {w w' : World} {p : KycEligibility → Bool} {set : KycEligibility → KycEligibility}

theorem Orderly.same (h : Orderly w) (hrows : w'.rows = w.rows) : Orderly w' := by
  obtain ⟨hkeyed, hdistinct, horderly⟩ := h
  rw [← hrows] at hkeyed hdistinct horderly
  exact ⟨hkeyed, hdistinct, horderly⟩

theorem Orderly.rewrite (h : Orderly w) (hrows : w'.rows = (rewriteRows p set w).rows)
    (hid : ∀ r, (set r).accountId = r.accountId) (href : ∀ r, (set r).diditReference = r.diditReference)
    (hset : ∀ r ∈ w.rows, p r = true → (set r).Orderly) : Orderly w' := by
  have hreference : ∀ r, (if p r = true then set r else r).diditReference = r.diditReference := by
    intro r
    split
    · exact href r
    · rfl
  refine ⟨?_, ?_, ?_⟩ <;> rw [hrows]
  · exact h.keyed.map fun r _ => rewrite_accountId hid r
  · intro r₁ hr₁ r₂ hr₂ diditReference h₁ h₂
    obtain ⟨r, hr, rfl⟩ := List.mem_map.mp hr₁
    obtain ⟨r', hr', rfl⟩ := List.mem_map.mp hr₂
    rw [hreference] at h₁ h₂
    rw [rewrite_accountId hid, rewrite_accountId hid]
    exact h.distinct r hr r' hr' diditReference h₁ h₂
  · intro r₁ hr₁
    obtain ⟨r, hr, rfl⟩ := List.mem_map.mp hr₁
    split
    · rename_i hp
      exact hset r hr hp
    · exact h.rows r hr

theorem Orderly.create (h : Orderly w) (hnone : w.row accountId = none)
    (hrows : w'.rows =
      w.rows ++ [newRow accountId sessionStartId residenceCountryCode taxResidenceCountryCode startedAt]) :
    Orderly w' := by
  refine ⟨?_, ?_, ?_⟩ <;> rw [hrows]
  · exact h.keyed.append hnone
  · intro r hr r' hr' diditReference h₁ h₂
    obtain hr | rfl := Table.mem_add hr
    · obtain hr' | hr' := mem_append.mp hr'
      · exact h.distinct r hr r' hr' diditReference h₁ h₂
      · rw [mem_singleton.mp hr'] at h₂
        cases h₂
    · cases h₁
  · intro r hr
    obtain hr | rfl := Table.mem_add hr
    · exact h.rows r hr
    · exact ⟨nofun, nofun⟩

theorem KycEligibility.Orderly.not_eligible (h : r.Orderly)
    (hsubstatus : r.operationalSubstatus ≠ .kycVerified ∧ r.operationalSubstatus ≠ .kycVerifiedOwnerPoaMissing) :
    r.eligibilityState ≠ .eligible := fun heligible => (h.eligible heligible).elim hsubstatus.1 hsubstatus.2

theorem not_verified_of_canStart (h : canStartSession substatus = true) :
    substatus ≠ .kycVerified ∧ substatus ≠ .kycVerifiedOwnerPoaMissing := by
  cases substatus <;> simp_all [canStartSession]

theorem Orderly.complete (h : Orderly w)
   
    (hfree : (Op.completeSessionStart accountId sessionStartId diditReference providerStatus completedAt).conflicts w =
      false) (hrows : w'.rows = (rewriteRows (KycEligibility.isCreating accountId (some sessionStartId))
      (KycEligibility.open diditReference providerStatus completedAt) w).rows) : Orderly w' := by
  have hnew : ∀ r ∈ w.rows, ∀ r' ∈ w.rows, r'.isCreating accountId (some sessionStartId) = true →
      r.accountId ≠ accountId → r.diditReference ≠ some diditReference := by
    intro r hr r' hr' hp hother href
    simp only [Op.conflicts, List.any_eq_true.mpr ⟨r', hr', hp⟩, Bool.true_and, Bool.or_eq_false_iff,
      List.any_eq_false] at hfree
    exact hfree.2 r hr (decide_eq_true ⟨hother, href⟩)
  have hreference : ∀ r ∈ w.rows, ∀ x,
      (if r.isCreating accountId (some sessionStartId) = true then r.open diditReference providerStatus completedAt
        else r).diditReference = some x → r.diditReference = some x ∨
        (r.isCreating accountId (some sessionStartId) = true ∧ x = diditReference) := by
    intro r _ x hx
    split at hx
    · rename_i hp
      exact .inr ⟨hp, (some.inj hx).symm⟩
    · exact .inl hx
  have hid : ∀ r, (KycEligibility.open diditReference providerStatus completedAt r).accountId = r.accountId :=
    fun _ => rfl
  refine ⟨?_, ?_, ?_⟩ <;> rw [hrows]
  · exact h.keyed.map fun r _ => rewrite_accountId hid r
  · intro r₁ hr₁ r₂ hr₂ x h₁ h₂
    obtain ⟨r, hr, rfl⟩ := List.mem_map.mp hr₁
    obtain ⟨r', hr', rfl⟩ := List.mem_map.mp hr₂
    rw [rewrite_accountId hid, rewrite_accountId hid]
    by_contra hother
    obtain hold | ⟨hthis, rfl⟩ := hreference r hr x h₁
    · obtain hold' | ⟨hthis', rfl⟩ := hreference r' hr' x h₂
      · exact hother (h.distinct r hr r' hr' x hold hold')
      · exact hnew r hr r' hr' hthis' (fun hsame => hother (hsame.trans (isCreating_iff.mp hthis').1.symm)) hold
    · obtain hold' | ⟨hthis', -⟩ := hreference r' hr' x h₂
      · exact hnew r' hr' r hr hthis (fun hsame => hother ((isCreating_iff.mp hthis).1.trans hsame.symm)) hold'
      · exact hother ((isCreating_iff.mp hthis).1.trans (isCreating_iff.mp hthis').1.symm)
  · intro r₁ hr₁
    obtain ⟨r, hr, rfl⟩ := List.mem_map.mp hr₁
    split
    · exact ⟨nofun, fun _ => ⟨diditReference, rfl⟩⟩
    · exact h.rows r hr

theorem orderly_withOutcome (hinput : input.Evaluated) (href : r.diditReference = some input.diditReference) :
    (r.withOutcome input).Orderly := by
  refine ⟨fun heligible => ?_, fun _ => ⟨input.diditReference, href⟩⟩
  change r.substatusAfter input = .kycVerified ∨ r.substatusAfter input = .kycVerifiedOwnerPoaMissing
  unfold KycEligibility.substatusAfter
  split
  · exact .inl rfl
  · exact .inr (hinput.eligible heligible).2.1

theorem orderly_withProof (h : r.Orderly) : (r.withProof input).Orderly := by
  have hsubstatus : (r.withProof input).operationalSubstatus = if r.eligibilityState ≠ .eligible then
      r.operationalSubstatus else if input.outcome.status = .current then .kycVerified
      else .kycVerifiedOwnerPoaMissing := rfl
  refine ⟨fun heligible => ?_, fun hopen => ?_⟩
  · have hbefore : r.eligibilityState = .eligible := heligible
    rw [hsubstatus, if_neg (not_not_intro hbefore)]
    split
    · exact .inl rfl
    · exact .inr rfl
  · rw [hsubstatus] at hopen
    split at hopen
    · exact h.opened hopen
    · split at hopen <;> cases hopen

end Steps

section Runs

variable {op : Op} {c : Choice} {w w' : World} {a : op.Out}

/-- Every operation that violates no constraint keeps the rows orderly. -/
theorem run_orderly (h : Orderly w) (hop : op.Evaluated) (hfree : op.conflicts w = false)
    (hrun : op.run c w = some (a, w')) : Orderly w' := by
  have hkeep : ∀ r ∈ w.rows, ∀ r' : KycEligibility, r'.eligibilityState = r.eligibilityState →
      r'.operationalSubstatus = r.operationalSubstatus → r'.diditReference = r.diditReference → r'.Orderly := by
    intro r hr r' hstate hsubstatus href
    refine ⟨fun heligible => ?_, fun hopen => ?_⟩
    · rw [hsubstatus]
      exact (h.rows r hr).eligible (hstate ▸ heligible)
    · rw [href]
      exact (h.rows r hr).opened (hsubstatus ▸ hopen)
  generalize hrows : w'.rows = rows
  have hstep := run_rowStep hrun
  rw [hrows] at hstep
  cases hstep with
  | same => exact h.same hrows
  | create hnone => exact h.create hnone hrows
  | reserve hcurrent hstart =>
    refine h.rewrite hrows (fun _ => rfl) (fun _ => rfl) fun r hr hp => ⟨fun heligible => ?_, nofun⟩
    obtain rfl := h.keyed.eq_of_key hr (row_some hcurrent).1 ((isOf_iff.mp hp).trans (row_some hcurrent).2.symm)
    exact absurd heligible ((h.rows r hr).not_eligible (not_verified_of_canStart hstart))
  | complete => exact h.complete hfree hrows
  | fail =>
    refine h.rewrite hrows (fun _ => rfl) (fun _ => rfl) fun r hr hp => ⟨fun heligible => ?_, nofun⟩
    obtain ⟨-, -, hcreating⟩ := isCreating_iff.mp hp
    exact absurd heligible ((h.rows r hr).not_eligible (by simp [hcreating]))
  | reserveProof | completeProof
  | failProof => exact h.rewrite hrows (fun _ => rfl) (fun _ => rfl) fun r hr _ => hkeep r hr _ rfl rfl rfl
  | outcome _ hcurrent =>
    refine h.rewrite hrows (fun _ => rfl) (fun _ => rfl) fun r hr hp => orderly_withOutcome hop ?_
    rw [h.keyed.eq_of_key hr (mem_of_find?_eq_some hcurrent) (isOf_iff.mp hp)]
    exact hasReference_iff.mp (find?_some hcurrent)
  | proof => exact h.rewrite hrows (fun _ => rfl) (fun _ => rfl) fun r hr _ => orderly_withProof (h.rows r hr)
  | lapse => exact h.rewrite hrows (fun _ => rfl) (fun _ => rfl) fun r hr _ => ⟨nofun, nofun⟩

theorem env_rows (h : env e w = some w') : w'.rows = w.rows := by
  cases e with
  | tick =>
    obtain ⟨-, hnext⟩ := ite_none_right_eq_some.mp h
    cases hnext
    rfl
  | report =>
    cases h
    rfl

theorem orderly_sound (cfg : Configuration) : Sound (system cfg) Guard.free orderlyRules where
  job t j := by
    refine triple_calls (fun op w hop _ => hop) (fun op c w r w' hop hinv _ hexec => ⟨?_, fun _ _ => trivial⟩)
      (Job.calls cfg j)
    obtain ⟨a, hrun, hfree, -⟩ | ⟨-, rfl⟩ := exec_inv (t := t) hexec
    · exact run_orderly hinv hop hfree hrun
    · exact hinv
  env e w w' hinv _ henv := ⟨hinv.same (env_rows henv), fun _ => trivial⟩

/-- The rows are orderly in every run. -/
theorem orderly_reachable (h : Reachable (system cfg) Guard.free (idle (World.start now accounts decisions)) s) :
    Orderly s.world := by
  have hstart : Orderly (World.start now accounts decisions) :=
    ⟨nodup_nil, fun r hr => absurd hr not_mem_nil, fun r hr => absurd hr not_mem_nil⟩
  exact (h.secure (orderly_sound cfg) (secure_idle _ hstart)).1

end Runs

end Kyc
