import VistaBlox.KycDelivery
import VistaBlox.KycRows

/-!
# Renewal takes a new verification

Every approved webhook of a session dates the renewal from its own time, however old the
session is, and makes an account eligible that the renewal timer has moved on.
-/
namespace Kyc

open Interleaving Option

def Entry.accountId : Entry → AccountId
  | .reserved accountId _ => accountId
  | .opened accountId _ _ => accountId
  | .accepted x => x.accountId
  | .lapsed accountId => accountId

def Acceptance.isApprovalOf (diditReference : DiditReference) (x : Acceptance) : Bool :=
  x.diditReference = diditReference ∧ x.providerStatus = some .approved

/-- When approvals of the session were reported. -/
def approvals (diditReference : DiditReference) (log : List Entry) : List ℤ :=
  log.filterMap fun e => match e with
    | .accepted x => if x.isApprovalOf diditReference then some x.providerUpdatedAt else none
    | _ => none

def Entry.isReviewOf (accountId : AccountId) : Entry → Bool
  | .accepted x => x.accountId = accountId ∧ x.operationalSubstatus = .kycManualReview
  | _ => false

/-- A manual review of the account was required. -/
def reviewed (accountId : AccountId) (log : List Entry) : Bool := log.any (Entry.isReviewOf accountId)

/-- The entry verified the account, and so wrote its renewal date. -/
def Entry.datesRenewalOf (accountId : AccountId) : Entry → Bool
  | .accepted x => x.accountId = accountId ∧ x.applied = true ∧ x.eligibilityState = .eligible
  | _ => false

/-- The acceptance that wrote the renewal date, the last to write one for the
account, is the first approval of its session, and the date is counted from it. -/
def DueFrom (accountId : AccountId) (renewalDueAt : ℤ) (log : List Entry) : Prop :=
  ∃ before x after, log = before ++ .accepted x :: after ∧ Entry.datesRenewalOf accountId (.accepted x) = true ∧
    (∀ e ∈ after, e.datesRenewalOf accountId = false) ∧ x.providerStatus = some .approved ∧
      approvals x.diditReference before = [] ∧
    (∀ t ∈ approvals x.diditReference after, x.providerUpdatedAt ≤ t) ∧
    renewalDueAt ≤ addUtcMonths x.providerUpdatedAt (renewalMonths (reviewed accountId before))

/-- The row's session was reserved and opened among these entries. -/
def StartedIn (r : KycEligibility) (entries : List Entry) : Prop :=
  ∃ sessionStartId diditReference, r.diditReference = some diditReference ∧
    .reserved r.accountId sessionStartId ∈ entries ∧ .opened r.accountId sessionStartId diditReference ∈ entries

def ApprovedBefore (r : KycEligibility) (log : List Entry) : Prop :=
  ∃ diditReference, r.diditReference = some diditReference ∧ approvals diditReference log ≠ []

/-- What holds of a row that lapsed before these entries: its session is a new
one or has been approved already, and a start under way is a new one. -/
structure Restart (r : KycEligibility) (entries log : List Entry) : Prop where
  session : ApprovedBefore r log ∨ StartedIn r entries
  eligible : r.eligibilityState = .eligible → StartedIn r entries
  creating : r.operationalSubstatus = .kycSessionCreating →
    ∃ sessionStartId, r.sessionStartId = some sessionStartId ∧ .reserved r.accountId sessionStartId ∈ entries

structure RowInOrder (r : KycEligibility) (log : List Entry) : Prop where
  flag : r.everRequiredManualReview = reviewed r.accountId log
  due : ∀ renewalDueAt, r.renewalDueAt = some renewalDueAt → DueFrom r.accountId renewalDueAt log
  approved : r.eligibilityState = .eligible → ApprovedBefore r log
  lapsed : ∀ before after, log = before ++ .lapsed r.accountId :: after → Restart r after log

structure Renewed (w : World) : Prop where
  keyed : Table.Keyed KycEligibility.accountId w.rows
  owned : ∀ e ∈ w.log, ∃ r ∈ w.rows, r.accountId = e.accountId
  rows : ∀ r ∈ w.rows, RowInOrder r w.log

def renewalRules : Rules World Op where
  inv := Renewed
  rely _ _ _ := True
  req _ op _ := op.Evaluated

/-- The outcome was computed from the row's own history, a review does not come
too late, an approval is not older than one accepted before, and only the first
one verifies. -/
structure OutcomeInput.First (input : OutcomeInput) (current : KycEligibility) (log : List Entry) : Prop where
  flag : input.outcome.everRequiredManualReview =
    (current.everRequiredManualReview || decide (input.outcome.operationalSubstatus = .kycManualReview))
  review : input.outcome.operationalSubstatus = .kycManualReview →
    isStale current.providerUpdatedAt input.providerUpdatedAt = false
  approval : input.providerStatus = some .approved →
    ∀ t ∈ approvals input.diditReference log, t ≤ input.providerUpdatedAt
  eligible : input.outcome.eligibilityState = .eligible → approvals input.diditReference log = []

def firstApprovals : Guard World Event Op where
  call _ op w := match op with
    | .applyProviderOutcome input => (∀ eventId, input.source = .webhook eventId → .webhook eventId ∉ w.auditKeys) →
        ∀ current, w.rows.find? (KycEligibility.hasReference input.diditReference) = some current →
          input.First current w.log
    | _ => True
  env _ _ := True

section Growth

variable {r : KycEligibility} {log : List Entry} {e : Entry}

theorem approvals_append (diditReference : DiditReference) (log log' : List Entry) :
    approvals diditReference (log ++ log') = approvals diditReference log ++ approvals diditReference log' :=
  List.filterMap_append ..

theorem reviewed_append (accountId : AccountId) (log log' : List Entry) :
    reviewed accountId (log ++ log') = (reviewed accountId log || reviewed accountId log') := List.any_append ..

/-- The entry is no approval older than one of the same session. -/
def Fits (e : Entry) (log : List Entry) : Prop :=
  ∀ diditReference, ∀ t ∈ approvals diditReference [e], ∀ t' ∈ approvals diditReference log, t' ≤ t

theorem fits_plain (h : ∀ diditReference, approvals diditReference [e] = []) : Fits e log := by
  intro diditReference t ht
  rw [h] at ht
  cases ht

theorem DueFrom.grow (h : DueFrom accountId renewalDueAt log) (hfits : Fits e log)
    (hdates : e.datesRenewalOf accountId = false) : DueFrom accountId renewalDueAt (log ++ [e]) := by
  obtain ⟨before, x, after, rfl, hwrote, hlast, happroved, hfirst, hlater, hdue⟩ := h
  refine ⟨before, x, after ++ [e], by simp, hwrote, fun y hy => ?_, happroved, hfirst, fun t ht => ?_, hdue⟩
  · obtain hy | hy := List.mem_append.mp hy
    · exact hlast y hy
    · rw [List.mem_singleton.mp hy]
      exact hdates
  rw [approvals_append] at ht
  obtain ht | ht := List.mem_append.mp ht
  · exact hlater t ht
  · refine hfits x.diditReference t ht x.providerUpdatedAt ?_
    rw [approvals_append]
    refine List.mem_append_right _ ?_
    simp [approvals, Acceptance.isApprovalOf, happroved]

theorem ApprovedBefore.grow (h : ApprovedBefore r log) (e : Entry) : ApprovedBefore r (log ++ [e]) := by
  obtain ⟨diditReference, href, happroved⟩ := h
  refine ⟨diditReference, href, ?_⟩
  rw [approvals_append]
  simp [happroved]

theorem StartedIn.grow (h : StartedIn r entries) (e : Entry) : StartedIn r (entries ++ [e]) := by
  obtain ⟨sessionStartId, diditReference, href, hreserved, hopened⟩ := h
  exact ⟨sessionStartId, diditReference, href, List.mem_append_left _ hreserved, List.mem_append_left _ hopened⟩

theorem Restart.grow (h : Restart r entries log) (e : Entry) : Restart r (entries ++ [e]) (log ++ [e]) := by
  refine ⟨h.session.imp (fun happroved => happroved.grow e) fun hstarted => hstarted.grow e,
    fun heligible => (h.eligible heligible).grow e, fun hcreating => ?_⟩
  obtain ⟨sessionStartId, hid, hreserved⟩ := h.creating hcreating
  exact ⟨sessionStartId, hid, List.mem_append_left _ hreserved⟩

theorem split_concat (h : log ++ [e] = before ++ x :: after) :
    (∃ after', after = after' ++ [e] ∧ log = before ++ x :: after') ∨ (after = [] ∧ e = x ∧ log = before) := by
  obtain rfl | ⟨after', y, rfl⟩ := List.eq_nil_or_concat' after
  · obtain ⟨hlog, hx⟩ := List.append_inj' h rfl
    exact .inr ⟨rfl, List.singleton_inj.mp hx, hlog⟩
  · have hassoc : log ++ [e] = (before ++ x :: after') ++ [y] := by simpa using h
    obtain ⟨hlog, hy⟩ := List.append_inj' hassoc rfl
    exact .inl ⟨after', by rw [List.singleton_inj.mp hy], hlog⟩

theorem restart_of_split (h : ∀ before after, log = before ++ .lapsed r.accountId :: after → Restart r after log)
    (hentry : e ≠ .lapsed r.accountId) (hsplit : log ++ [e] = before ++ .lapsed r.accountId :: after) :
    Restart r after (log ++ [e]) := by
  obtain ⟨after', rfl, hlog⟩ | ⟨-, hsame, -⟩ := split_concat hsplit
  · exact (h before after' hlog).grow e
  · exact absurd hsame hentry

theorem RowInOrder.grow (h : RowInOrder r log) (hreview : e.isReviewOf r.accountId = false)
    (hdates : e.datesRenewalOf r.accountId = false) (hfits : Fits e log) (hlapse : e ≠ .lapsed r.accountId) :
    RowInOrder r (log ++ [e]) where
  flag := by
    rw [reviewed_append, ← h.flag]
    simp [reviewed, hreview]
  due renewalDueAt hdue := (h.due renewalDueAt hdue).grow hfits hdates
  approved heligible := (h.approved heligible).grow e
  lapsed _ _ hsplit := restart_of_split h.lapsed hlapse hsplit

theorem entry_of_other (h : e.accountId ≠ accountId) :
    e.isReviewOf accountId = false ∧ e.datesRenewalOf accountId = false := by
  cases e with
  | accepted x =>
    have hne : x.accountId ≠ accountId := h
    simp [Entry.isReviewOf, Entry.datesRenewalOf, hne]
  | _ => exact ⟨rfl, rfl⟩

theorem RowInOrder.other (h : RowInOrder r log) (hother : e.accountId ≠ r.accountId) (hfits : Fits e log) :
    RowInOrder r (log ++ [e]) := by
  obtain ⟨hreview, hdates⟩ := entry_of_other hother
  refine h.grow hreview hdates hfits ?_
  rintro rfl
  exact hother rfl

end Growth

variable {p : KycEligibility → Bool} {set : KycEligibility → KycEligibility}

/-- The row is the same to the renewal, and no new start is under way on it. -/
structure SameRenewal (r r' : KycEligibility) : Prop where
  accountId : r'.accountId = r.accountId
  diditReference : r'.diditReference = r.diditReference
  eligibilityState : r'.eligibilityState = r.eligibilityState
  flag : r'.everRequiredManualReview = r.everRequiredManualReview
  renewalDueAt : r'.renewalDueAt = r.renewalDueAt
  creating : r'.operationalSubstatus = .kycSessionCreating →
    r.operationalSubstatus = .kycSessionCreating ∧ r'.sessionStartId = r.sessionStartId

theorem StartedIn.same (h : StartedIn r entries) (hid : r'.accountId = r.accountId)
    (href : r'.diditReference = r.diditReference) : StartedIn r' entries := by
  unfold StartedIn
  rw [hid, href]
  exact h

theorem ApprovedBefore.same (h : ApprovedBefore r log) (href : r'.diditReference = r.diditReference) :
    ApprovedBefore r' log := by
  unfold ApprovedBefore
  rw [href]
  exact h

theorem Restart.same (h : Restart r entries log) (hsame : SameRenewal r r') :
    Restart r' entries log where
  session := h.session.imp (fun happroved => happroved.same hsame.diditReference) fun hstarted =>
    hstarted.same hsame.accountId hsame.diditReference
  eligible heligible := (h.eligible (hsame.eligibilityState ▸ heligible)).same hsame.accountId hsame.diditReference
  creating hcreating := by
    obtain ⟨hbefore, hid⟩ := hsame.creating hcreating
    rw [hid, hsame.accountId]
    exact h.creating hbefore

theorem RowInOrder.same (h : RowInOrder r log) (hsame : SameRenewal r r') : RowInOrder r' log where
  flag := by rw [hsame.flag, hsame.accountId, h.flag]
  due renewalDueAt hdue := hsame.accountId ▸ h.due renewalDueAt (hsame.renewalDueAt ▸ hdue)
  approved heligible := (h.approved (hsame.eligibilityState ▸ heligible)).same hsame.diditReference
  lapsed before after hsplit := (h.lapsed before after (hsame.accountId ▸ hsplit)).same hsame

theorem Renewed.rewrite (h : Renewed w) (hrows : w'.rows = (rewriteRows p set w).rows)
    (hid : ∀ r, (set r).accountId = r.accountId)
    (hlog : ∀ e ∈ w'.log, e ∈ w.log ∨ ∃ r ∈ w.rows, r.accountId = e.accountId)
    (hset : ∀ r ∈ w.rows, p r = true → RowInOrder (set r) w'.log)
    (hkeep : ∀ r ∈ w.rows, p r = false → RowInOrder r w'.log) : Renewed w' := by
  have hkey : ∀ r, (if p r = true then set r else r).accountId = r.accountId := by
    intro r
    split
    · exact hid r
    · rfl
  refine ⟨?_, fun e he => ?_, fun r' hr' => ?_⟩
  · rw [hrows]
    exact h.keyed.map fun r _ => hkey r
  · have hold : ∃ r ∈ w.rows, r.accountId = e.accountId := (hlog e he).elim (h.owned e) id
    obtain ⟨r, hr, haccount⟩ := hold
    rw [hrows]
    exact ⟨_, List.mem_map_of_mem hr, (hkey r).trans haccount⟩
  · rw [hrows] at hr'
    obtain ⟨r, hr, rfl⟩ := List.mem_map.mp hr'
    by_cases hp : p r = true
    · rw [if_pos hp]
      exact hset r hr hp
    · rw [if_neg hp]
      exact hkeep r hr (by simpa using hp)

theorem Renewed.quiet (h : Renewed w) (hrows : w'.rows = (rewriteRows p set w).rows) (hlog : w'.log = w.log)
    (hset : ∀ r, SameRenewal r (set r)) : Renewed w' := by
  refine h.rewrite hrows (fun r => (hset r).accountId) (fun e he => .inl (hlog ▸ he))
    (fun r hr _ => ?_) fun r hr _ => ?_
  · rw [hlog]
    exact (h.rows r hr).same (hset r)
  · rw [hlog]
    exact h.rows r hr

theorem Renewed.same (h : Renewed w) (hrows : w'.rows = w.rows) (hlog : w'.log = w.log) : Renewed w' := by
  obtain ⟨hkeyed, howned, hinorder⟩ := h
  rw [← hrows] at hkeyed
  rw [← hlog, ← hrows] at howned
  rw [← hrows, ← hlog] at hinorder
  exact ⟨hkeyed, howned, hinorder⟩

theorem Renewed.logged (h : Renewed w) (hrows : w'.rows = (rewriteRows p set w).rows) (hlog : w'.log = w.log ++ [e])
    (hid : ∀ r, (set r).accountId = r.accountId) (hfits : Fits e w.log) (hr₀ : r₀ ∈ w.rows)
    (haccount : r₀.accountId = e.accountId) (hpicked : p r₀ = true)
    (hset : ∀ r ∈ w.rows, r.accountId = e.accountId → p r = true → RowInOrder (set r) (w.log ++ [e]))
    (hp : ∀ r ∈ w.rows, p r = true → r.accountId = e.accountId) : Renewed w' := by
  refine h.rewrite hrows hid (fun x hx => ?_) (fun r hr hpr => ?_) fun r hr hpr => ?_
  · rw [hlog] at hx
    obtain hx | hx := List.mem_append.mp hx
    · exact .inl hx
    · rw [List.mem_singleton.mp hx]
      exact .inr ⟨r₀, hr₀, haccount⟩
  · rw [hlog]
    exact hset r hr (hp r hr hpr) hpr
  · rw [hlog]
    refine (h.rows r hr).other (fun hsame => ?_) hfits
    -- the account has one row, and that one is rewritten
    obtain rfl := h.keyed.eq_of_key hr hr₀ (hsame.symm.trans haccount.symm)
    rw [hpicked] at hpr
    cases hpr

theorem fits_reserved :
    Fits (.reserved accountId sessionStartId) log := fits_plain (fun _ => rfl)

theorem fits_opened : Fits (.opened accountId sessionStartId diditReference) log := fits_plain (fun _ => rfl)

theorem fits_lapsed : Fits (.lapsed accountId) log :=
  fits_plain (fun _ => rfl)

theorem RowInOrder.reserve (h : RowInOrder r log) : RowInOrder
    (r.reserve sessionStartId residenceCountryCode taxResidenceCountryCode startedAt)
    (log ++ [.reserved r.accountId sessionStartId]) := by
  have hgrown : RowInOrder r (log ++ [.reserved r.accountId sessionStartId]) :=
    h.grow rfl rfl fits_reserved nofun
  refine ⟨hgrown.flag, hgrown.due, fun heligible => (hgrown.approved heligible).same rfl,
    fun before after hsplit => ?_⟩
  have hrestart := hgrown.lapsed before after hsplit
  refine ⟨hrestart.session.imp (fun happroved => happroved.same rfl) fun hstarted => hstarted.same rfl rfl,
    fun heligible => (hrestart.eligible heligible).same rfl rfl, fun _ => ⟨sessionStartId, rfl, ?_⟩⟩
  obtain ⟨after', rfl, -⟩ | ⟨-, hentry, -⟩ := split_concat hsplit
  · exact List.mem_append_right _ (List.mem_singleton_self _)
  · cases hentry

theorem rowInOrder_newRow (hnone : ∀ e ∈ log, e.accountId ≠ accountId) : RowInOrder
    (newRow accountId sessionStartId residenceCountryCode taxResidenceCountryCode startedAt)
    (log ++ [.reserved accountId sessionStartId]) := by
  have hreviewed : reviewed accountId log = false := by
    refine List.any_eq_false.mpr fun e he => ?_
    rw [(entry_of_other (hnone e he)).1]
    exact Bool.false_ne_true
  refine ⟨?_, nofun, nofun, fun before after hsplit => ?_⟩
  · rw [reviewed_append]
    change false = (reviewed accountId log || false)
    rw [hreviewed, Bool.or_false]
  · obtain ⟨after', rfl, rfl⟩ | ⟨-, hentry, -⟩ := split_concat hsplit
    · exact absurd rfl (hnone (.lapsed accountId) (List.mem_append_right _ (List.mem_cons_self ..)))
    · cases hentry

theorem reserveSessionStart_renewed (h : Renewed w) : Renewed
    (reserveSessionStart accountId sessionStartId residenceCountryCode taxResidenceCountryCode startedAt w).2 := by
  unfold reserveSessionStart
  split
  · exact h
  · split
    · rename_i hnone
      have hfree : ∀ r ∈ w.rows, r.accountId ≠ accountId := by
        simpa [KycEligibility.isOf] using hnone
      have hhistory : ∀ e ∈ w.log, e.accountId ≠ accountId := by
        intro e he hsame
        obtain ⟨r, hr, haccount⟩ := h.owned e he
        exact hfree r hr (haccount.trans hsame)
      have hfind : Table.find KycEligibility.accountId w.rows accountId = none :=
        List.find?_eq_none.mpr fun r hr => by simpa using hfree r hr
      refine ⟨h.keyed.append hfind, fun e he => ?_, fun r hr => ?_⟩
      · obtain he | he := List.mem_append.mp he
        · obtain ⟨r, hr, haccount⟩ := h.owned e he
          exact ⟨r, List.mem_append_left _ hr, haccount⟩
        · rw [List.mem_singleton.mp he]
          exact ⟨_, List.mem_append_right _ (List.mem_singleton_self _), rfl⟩
      · obtain hr | hr := List.mem_append.mp hr
        · exact (h.rows r hr).other (fun hsame => hfree r hr hsame.symm) fits_reserved
        · rw [List.mem_singleton.mp hr]
          exact rowInOrder_newRow hhistory
    · rename_i current hcurrent
      split
      · have hmem := List.mem_of_find?_eq_some hcurrent
        have hof : current.isOf accountId = true := List.find?_some hcurrent
        refine h.logged rfl rfl (fun _ => rfl) fits_reserved hmem (isOf_iff.mp hof) hof
          (fun r hr haccount _ => ?_) fun r _ hpr => isOf_iff.mp hpr
        obtain rfl : r.accountId = accountId := haccount
        exact (h.rows r hr).reserve
      · exact h

theorem RowInOrder.open (h : RowInOrder r log) (hid : r.sessionStartId = some sessionStartId)
    (hcreating : r.operationalSubstatus = .kycSessionCreating) (diditReference : DiditReference)
    (providerStatus : DiditStatus) (completedAt : ℤ) :
    RowInOrder (r.open diditReference providerStatus completedAt)
      (log ++ [.opened r.accountId sessionStartId diditReference]) := by
  have hgrown : RowInOrder r (log ++ [.opened r.accountId sessionStartId diditReference]) :=
    h.grow rfl rfl fits_opened nofun
  refine ⟨hgrown.flag, hgrown.due, nofun, fun before after hsplit => ?_⟩
  refine ⟨.inr ⟨sessionStartId, diditReference, rfl, ?_, ?_⟩, nofun, nofun⟩
  · obtain ⟨id, hid', hreserved⟩ := (hgrown.lapsed before after hsplit).creating hcreating
    obtain rfl : id = sessionStartId := some.inj (hid'.symm.trans hid)
    exact hreserved
  · obtain ⟨after', rfl, -⟩ | ⟨-, hentry, -⟩ := split_concat hsplit
    · exact List.mem_append_right _ (List.mem_singleton_self _)
    · cases hentry

theorem completeSessionStart_renewed (h : Renewed w) (diditReference : DiditReference) (providerStatus : DiditStatus)
    (completedAt : ℤ) : Renewed
      (completeSessionStart accountId sessionStartId diditReference providerStatus completedAt w).2 := by
  unfold completeSessionStart
  split
  · rename_i hany
    obtain ⟨r₀, hr₀, hpicked⟩ := List.any_eq_true.mp hany
    refine h.logged rfl rfl (fun _ => rfl) fits_opened hr₀ (isCreating_iff.mp hpicked).1 hpicked
      (fun r hr haccount hpr => ?_) fun r _ hpr => (isCreating_iff.mp hpr).1
    obtain ⟨rfl, hid, hcreating⟩ := isCreating_iff.mp hpr
    exact (h.rows r hr).open hid hcreating ..
  · exact h

theorem failSessionStart_renewed (h : Renewed w) (accountId : AccountId) (sessionStartId : Option SessionStartId)
    (failedAt : ℤ) : Renewed (failSessionStart accountId sessionStartId failedAt w) := by
  unfold failSessionStart
  split
  · exact h.quiet rfl rfl fun r => ⟨rfl, rfl, rfl, rfl, rfl, nofun⟩
  · exact h

theorem RowInOrder.lapse (h : RowInOrder r log) (heligible : r.eligibilityState = .eligible) (transitionedAt : ℤ) :
    RowInOrder { r with
        eligibilityState := .requiresRenewal
        operationalSubstatus := .kycReverificationRequired
        updatedAt := transitionedAt } (log ++ [.lapsed r.accountId]) := by
  have happroved : ApprovedBefore r (log ++ [.lapsed r.accountId]) := (h.approved heligible).grow _
  refine ⟨?_, fun renewalDueAt hdue => (h.due renewalDueAt hdue).grow fits_lapsed rfl, nofun,
    fun before after _ => ⟨.inl (happroved.same rfl), nofun, nofun⟩⟩
  rw [reviewed_append]
  change r.everRequiredManualReview = (reviewed r.accountId log || false)
  rw [Bool.or_false, h.flag]

theorem transitionToRequiresRenewal_renewed (h : Renewed w) (accountId : AccountId) (transitionedAt : ℤ) :
    Renewed (transitionToRequiresRenewal accountId transitionedAt w).2 := by
  unfold transitionToRequiresRenewal
  split
  · rename_i hany
    obtain ⟨r₀, hr₀, hpicked⟩ := List.any_eq_true.mp hany
    refine h.logged rfl (congrArg (w.log ++ ·) rfl) (fun _ => rfl) fits_lapsed hr₀ (isEligible_iff.mp hpicked).1
      hpicked (fun r hr haccount hpr => ?_) fun r _ hpr => (isEligible_iff.mp hpr).1
    obtain ⟨rfl, heligible⟩ := isEligible_iff.mp hpr
    exact (h.rows r hr).lapse heligible transitionedAt
  · exact h

section Outcomes

variable {w : World} {current : KycEligibility} {log : List Entry} {input : OutcomeInput}

theorem approvals_acceptance (diditReference : DiditReference) (applied : Bool) :
    approvals diditReference [.accepted (input.acceptance current applied)] =
      if input.diditReference = diditReference ∧ input.providerStatus = some .approved then [input.providerUpdatedAt]
      else [] := by
  by_cases h : input.diditReference = diditReference ∧ input.providerStatus = some .approved
  · simp [approvals, Acceptance.isApprovalOf, OutcomeInput.acceptance, h]
  · simp only [approvals, List.filterMap_cons, Acceptance.isApprovalOf, OutcomeInput.acceptance, h, decide_false]
    rfl

theorem isReviewOf_acceptance (applied : Bool) :
    Entry.isReviewOf current.accountId (.accepted (input.acceptance current applied)) =
      decide (input.outcome.operationalSubstatus = .kycManualReview) := by
  simp [Entry.isReviewOf, OutcomeInput.acceptance]

theorem reviewed_acceptance (applied : Bool) :
    reviewed current.accountId [.accepted (input.acceptance current applied)] =
      decide (input.outcome.operationalSubstatus = .kycManualReview) := by
  simp [reviewed, isReviewOf_acceptance]

theorem fits_accepted (hfirst : input.First current log) (applied : Bool) :
    Fits (.accepted (input.acceptance current applied)) log := by
  intro diditReference t ht t' ht'
  rw [approvals_acceptance] at ht
  split at ht
  · rename_i h
    obtain ⟨rfl, hstatus⟩ := h
    rw [List.mem_singleton.mp ht]
    exact hfirst.approval hstatus t' ht'
  · cases ht

theorem dueFrom_acceptance (h : RowInOrder current log) (hinput : input.Evaluated)
    (hfirst : input.First current log) (heligible : input.outcome.eligibilityState = .eligible)
    (hdue : input.outcome.renewalDueAt = some renewalDueAt) :
    DueFrom current.accountId renewalDueAt (log ++ [.accepted (input.acceptance current true)]) := by
  obtain ⟨hstatus, hsubstatus, hrenewal⟩ := hinput.eligible heligible
  have hflag : input.outcome.everRequiredManualReview = reviewed current.accountId log := by
    rw [hfirst.flag, hsubstatus, h.flag]
    exact Bool.or_false _
  refine ⟨log, input.acceptance current true, [], rfl, decide_eq_true ⟨rfl, rfl, heligible⟩,
    fun e he => absurd he List.not_mem_nil, hstatus, hfirst.eligible heligible,
    fun t ht => absurd ht List.not_mem_nil, le_of_eq ?_⟩
  rw [← hflag]
  exact some.inj (hdue.symm.trans hrenewal)

theorem substatusAfter_not_creating (hinput : input.Evaluated) (r : KycEligibility) :
    r.substatusAfter input ≠ .kycSessionCreating := by
  unfold KycEligibility.substatusAfter
  split
  · decide
  · exact hinput.not_creating

theorem RowInOrder.withOutcome (h : RowInOrder current log) (hinput : input.Evaluated)
    (href : current.diditReference = some input.diditReference) (hfirst : input.First current log) :
    RowInOrder (current.withOutcome input) (log ++ [.accepted (input.acceptance current true)]) := by
  have hfits := fits_accepted hfirst true
  refine ⟨?_, fun renewalDueAt hdue => ?_, fun heligible => ?_, fun before after hsplit => ?_⟩
  · change input.outcome.everRequiredManualReview = _
    rw [hfirst.flag, reviewed_append, h.flag]
    exact congrArg (_ || ·) (reviewed_acceptance true).symm
  · by_cases heligible : input.outcome.eligibilityState = .eligible
    · change DueFrom current.accountId renewalDueAt _
      refine dueFrom_acceptance h hinput hfirst heligible ?_
      obtain ⟨-, -, hrenewal⟩ := hinput.eligible heligible
      change input.outcome.renewalDueAt.or current.renewalDueAt = some renewalDueAt at hdue
      rw [hrenewal] at hdue ⊢
      exact hdue
    · change input.outcome.renewalDueAt.or current.renewalDueAt = some renewalDueAt at hdue
      rw [hinput.not_eligible heligible] at hdue
      exact (h.due renewalDueAt hdue).grow hfits (decide_eq_false fun hwrote => heligible hwrote.2.2)
  · refine ⟨input.diditReference, href, ?_⟩
    obtain ⟨hstatus, -, -⟩ := hinput.eligible heligible
    rw [approvals_append, approvals_acceptance, if_pos ⟨rfl, hstatus⟩]
    exact List.append_ne_nil_of_right_ne_nil _ (List.cons_ne_nil _ _)
  · obtain ⟨after', rfl, hlog⟩ | ⟨-, hentry, -⟩ := split_concat hsplit
    · have hrestart := h.lapsed before after' hlog
      refine ⟨(hrestart.grow _).session.imp (fun happroved => happroved.same rfl) fun hstarted =>
        hstarted.same rfl rfl,
        fun heligible => ?_, fun hcreating => absurd hcreating (substatusAfter_not_creating hinput current)⟩
      -- an approved session does not verify again, so this one is new
      obtain ⟨diditReference, href', happroved⟩ | hstarted := hrestart.session
      · obtain rfl : input.diditReference = diditReference := some.inj (href.symm.trans href')
        exact absurd (hfirst.eligible heligible) happroved
      · exact (hstarted.grow _).same rfl rfl
    · cases hentry

theorem applyProviderOutcome_renewed (h : Renewed w) (id : Nat) (hinput : input.Evaluated)
    (hguard : (∀ eventId, input.source = .webhook eventId → .webhook eventId ∉ w.auditKeys) →
      ∀ current, w.rows.find? (KycEligibility.hasReference input.diditReference) = some current →
        input.First current w.log) : Renewed (applyProviderOutcome id input w).2 := by
  unfold applyProviderOutcome
  split
  · exact h
  · rename_i hnew
    split
    · exact h.same rfl rfl
    · rename_i current hcurrent
      have hmem := List.mem_of_find?_eq_some hcurrent
      have href := hasReference_iff.mp (List.find?_some hcurrent)
      have hfirst := hguard (fun eventId hsource hclaimed => hnew (by simpa [hsource, EventSource.key] using hclaimed))
        current hcurrent
      split
      · rename_i hstale
        have hnoReview : decide (input.outcome.operationalSubstatus = .kycManualReview) = false :=
          decide_eq_false fun hreview => by simp [hfirst.review hreview] at hstale
        have hrows : w.rows = (rewriteRows (KycEligibility.isOf current.accountId) (fun r => r) w).rows := by
          simp [rewriteRows]
        refine h.logged hrows rfl (fun _ => rfl) (fits_accepted hfirst false) hmem rfl (isOf_iff.mpr rfl)
          (fun r hr haccount _ => ?_) fun r _ hpr => isOf_iff.mp hpr
        obtain rfl := h.keyed.eq_of_key hr hmem haccount
        refine (h.rows r hr).grow ((isReviewOf_acceptance false).trans hnoReview)
          (decide_eq_false fun hwrote => Bool.false_ne_true hwrote.2.1) (fits_accepted hfirst false) ?_
        intro hentry
        cases hentry
      · refine h.logged (p := KycEligibility.isOf current.accountId) rfl rfl (fun _ => rfl) (fits_accepted hfirst true)
          hmem rfl (isOf_iff.mpr rfl) (fun r hr haccount _ => ?_) fun r _ hpr => isOf_iff.mp hpr
        obtain rfl := h.keyed.eq_of_key hr hmem haccount
        exact (h.rows r hr).withOutcome hinput href hfirst

theorem sameRenewal_withProof (input : ProofOfAddressInput) (r : KycEligibility) :
    SameRenewal r (r.withProof input) := by
  refine ⟨rfl, rfl, rfl, rfl, rfl, fun hcreating => ⟨?_, rfl⟩⟩
  unfold KycEligibility.withProof at hcreating
  split at hcreating
  · exact hcreating
  · split at hcreating <;> cases hcreating

theorem applyProofOfAddressOutcome_renewed (h : Renewed w) (id : Nat) (input : ProofOfAddressInput) :
    Renewed (applyProofOfAddressOutcome id input w).2 := by
  unfold applyProofOfAddressOutcome
  split
  · exact h
  · split
    · exact h.same rfl rfl
    · split
      · exact h.same rfl rfl
      · exact h.quiet rfl rfl (sameRenewal_withProof input)

end Outcomes

theorem reserveProofOfAddressSessionStart_renewed (h : Renewed w) (accountId : AccountId)
    (sessionStartId : SessionStartId) (startedAt : ℤ) :
    Renewed (reserveProofOfAddressSessionStart accountId sessionStartId startedAt w).2 := by
  unfold reserveProofOfAddressSessionStart
  split
  · exact h
  · split
    · exact h
    · split
      · exact h.quiet rfl rfl fun r => ⟨rfl, rfl, rfl, rfl, rfl, fun hcreating => ⟨hcreating, rfl⟩⟩
      · exact h

theorem completeProofOfAddressSessionStart_renewed (h : Renewed w) (accountId : AccountId)
    (sessionStartId : SessionStartId) (diditReference : DiditReference) (providerStatus : DiditStatus)
    (completedAt : ℤ) : Renewed
      (completeProofOfAddressSessionStart accountId sessionStartId diditReference providerStatus completedAt w).2 := by
  unfold completeProofOfAddressSessionStart
  split
  · exact h.quiet rfl rfl fun r => ⟨rfl, rfl, rfl, rfl, rfl, fun hcreating => ⟨hcreating, rfl⟩⟩
  · exact h

theorem failProofOfAddressSessionStart_renewed (h : Renewed w) (accountId : AccountId)
    (sessionStartId : Option SessionStartId) (failedAt : ℤ) :
    Renewed (failProofOfAddressSessionStart accountId sessionStartId failedAt w) := by
  unfold failProofOfAddressSessionStart
  split
  · exact h.quiet rfl rfl fun r => ⟨rfl, rfl, rfl, rfl, rfl, fun hcreating => ⟨hcreating, rfl⟩⟩
  · exact h

theorem recordUnmatchedProviderEvent_renewed (h : Renewed w) :
    Renewed (recordUnmatchedProviderEvent eventId w) := by
  unfold recordUnmatchedProviderEvent
  split
  · exact h
  · exact h.same rfl rfl

/-- Every operation keeps each row in order with the log. -/
theorem run_renewed (h : Renewed w) (hop : op.Evaluated) (hguard : firstApprovals.call t op w)
    (hrun : op.run c w = some (a, w')) : Renewed w' := by
  cases op <;> simp only [Op.run, some.injEq, ite_none_left_eq_some, Prod.ext_iff] at hrun
  case reserveSessionStart => exact hrun.2 ▸ reserveSessionStart_renewed h
  case completeSessionStart => exact hrun.2 ▸ completeSessionStart_renewed h ..
  case failSessionStart => exact hrun.2 ▸ failSessionStart_renewed h ..
  case reserveProofOfAddressSessionStart => exact hrun.2 ▸ reserveProofOfAddressSessionStart_renewed h ..
  case completeProofOfAddressSessionStart => exact hrun.2 ▸ completeProofOfAddressSessionStart_renewed h ..
  case failProofOfAddressSessionStart => exact hrun.2 ▸ failProofOfAddressSessionStart_renewed h ..
  case recordUnmatchedProviderEvent => exact hrun.2 ▸ recordUnmatchedProviderEvent_renewed h
  case applyProviderOutcome => exact hrun.2.2 ▸ applyProviderOutcome_renewed h _ hop hguard
  case applyProofOfAddressOutcome => exact hrun.2.2 ▸ applyProofOfAddressOutcome_renewed h ..
  case transitionToRequiresRenewal => exact hrun.2 ▸ transitionToRequiresRenewal_renewed h ..
  case randomUUID => exact hrun.2.2 ▸ h.same rfl rfl
  case createSession => exact hrun.2.2 ▸ h.same rfl rfl
  all_goals exact hrun.2 ▸ h

/-- The invariant holds however the jobs interleave, if sessions are approved once. -/
theorem renewal_sound : Sound (system cfg) firstApprovals renewalRules where
  job t j := by
    refine triple_calls (fun op w hop _ => hop) (fun op c w r w' hop hinv hguard hexec => ⟨?_, fun _ _ => trivial⟩)
      (Job.calls cfg j)
    obtain ⟨a, hrun, -, -⟩ | ⟨-, rfl⟩ := exec_inv (t := t) hexec
    · exact run_renewed hinv hop hguard hrun
    · exact hinv
  env e w w' hinv _ henv := by
    refine ⟨?_, fun _ => trivial⟩
    cases e with
    | tick =>
      obtain ⟨-, hnext⟩ := ite_none_right_eq_some.mp henv
      cases hnext
      exact hinv.same rfl rfl
    | report =>
      cases henv
      exact hinv.same rfl rfl

theorem renewed_start :
    Renewed (World.start now accounts decisions) :=
  ⟨List.nodup_nil, fun _ he => absurd he List.not_mem_nil, fun _ hr => absurd hr List.not_mem_nil⟩

/-- Renewal is due from a session's first approval, and an account that lapsed is
verified again only through a session that was reserved and opened after that. -/
theorem renewal_takes_new_verification (cfg : Configuration) (now : ℤ) (accounts : List Account)
    (decisions : DiditReference → DiditDecisionSummary) (s : Config World Failure Op Op.Out)
    (h : Reachable (system cfg) firstApprovals (idle (World.start now accounts decisions)) s) :
    ∀ r ∈ s.world.rows,
      (∀ renewalDueAt, r.renewalDueAt = some renewalDueAt → DueFrom r.accountId renewalDueAt s.world.log) ∧
      (r.eligibilityState = .eligible → ∀ before after, s.world.log = before ++ .lapsed r.accountId :: after →
        StartedIn r after) := by
  intro r hr
  have hrow := (h.secure renewal_sound (secure_idle _ renewed_start)).1.rows r hr
  exact ⟨hrow.due, fun heligible before after hsplit => (hrow.lapsed before after hsplit).eligible heligible⟩

instance (input : OutcomeInput) (current : KycEligibility) (log : List Entry) :
    Decidable (input.First current log) :=
  decidable_of_iff (input.outcome.everRequiredManualReview =
      (current.everRequiredManualReview || decide (input.outcome.operationalSubstatus = .kycManualReview)) ∧
    (input.outcome.operationalSubstatus = .kycManualReview →
      isStale current.providerUpdatedAt input.providerUpdatedAt = false) ∧
    (input.providerStatus = some .approved → ∀ t ∈ approvals input.diditReference log, t ≤ input.providerUpdatedAt) ∧
    (input.outcome.eligibilityState = .eligible → approvals input.diditReference log = []))
    ⟨fun h => ⟨h.1, h.2.1, h.2.2.1, h.2.2.2⟩, fun h => ⟨h.flag, h.review, h.approval, h.eligible⟩⟩

instance (t : Nat) (op : Op) (w : World) : Decidable (firstApprovals.call t op w) := by
  induction op using Op.casesOn <;> (dsimp only [firstApprovals]; infer_instance)

abbrev RenewalAction := Action Choice Event Job

def renewalCalls (t n : Nat) : List RenewalAction := List.replicate n (.call t calm)

/-- Account 1 starts a session, and the provider calls it `diditReference`. -/
def sampleStart (t : Nat) (sessionStartId : SessionStartId) (diditReference : DiditReference) : List RenewalAction :=
  [.spawn t (.startSession 1 "DE" "DE"), .call t { calm with id := sessionStartId }] ++ renewalCalls t 2 ++
    .call t { calm with id := diditReference, session := (.notStarted, 1, 1) } :: renewalCalls t 3

/-- The provider approves the session, and says so. -/
def sampleApprove (t : Nat) (diditReference : DiditReference) (input : DiditWebhook) : List RenewalAction :=
  .env (.report diditReference { sampleDecision .approved with sessionId := diditReference }) ::
    .spawn t (.webhook { input with sessionId := diditReference }) :: renewalCalls t 5

/-- Session 5 is approved, and the account lapses after two years. -/
def sampleLapse : List RenewalAction :=
  sampleStart 0 7 5 ++ sampleApprove 1 5 (sampleWebhook 1 .approved 1700000100) ++
    [.env (.tick 63200000000), .spawn 2 .renewalTimer] ++ renewalCalls 2 4

def sampleBeginning : World := World.start 1700000000000 [⟨1, none⟩] fun _ => sampleDecision .notStarted

def isVerifiedAgain (diditReference : DiditReference) (w : World) : Bool :=
  w.rows.any (fun r => r.accountId = 1 ∧ r.eligibilityState = .eligible ∧ r.diditReference = some diditReference ∧
    r.renewalDueAt = some (addUtcMonths 1763300000000 24)) && w.log.contains (.lapsed 1)

theorem renewal_takes_new_verification_sample : ∃ s,
    Reachable (system sampleCfg) firstApprovals (idle sampleBeginning) s ∧ isVerifiedAgain 6 s.world = true ∧
      ∀ r ∈ s.world.rows,
        (∀ renewalDueAt, r.renewalDueAt = some renewalDueAt → DueFrom r.accountId renewalDueAt s.world.log) ∧
        (r.eligibilityState = .eligible → ∀ before after, s.world.log = before ++ .lapsed r.accountId :: after →
          StartedIn r after) := by
  obtain ⟨s, hrun, hlook⟩ := exists_of_play (system sampleCfg)
    (firstApprovals.allows_of_decide fun _ _ => trivial)
    (sampleLapse ++ sampleStart 3 8 6 ++ sampleApprove 4 6 (sampleWebhook 2 .approved 1763300000))
    (idle sampleBeginning) (fun s => isVerifiedAgain 6 s.world) (by decide +kernel)
  exact ⟨s, hrun, hlook, renewal_takes_new_verification sampleCfg _ _ _ s hrun⟩

theorem DueFrom.head (h : DueFrom accountId renewalDueAt log) :
    ∃ diditReference t flag,
      (approvals diditReference log).head? = some t ∧ renewalDueAt ≤ addUtcMonths t (renewalMonths flag) := by
  obtain ⟨before, x, after, rfl, -, -, happroved, hfirst, -, hdue⟩ := h
  refine ⟨x.diditReference, x.providerUpdatedAt, _, ?_, hdue⟩
  rw [approvals_append, hfirst]
  simp [approvals, Acceptance.isApprovalOf, happroved]

/-- Approved at `providerUpdatedAt`, session 5 of account 1 verifies. -/
def sampleAcceptance (providerUpdatedAt : ℤ) : Entry :=
  .accepted ⟨1, 5, some .approved, providerUpdatedAt, .eligible, .kycVerifiedOwnerPoaMissing, true⟩

def sampleLog : List Entry :=
  [.reserved 1 7, .opened 1 7 5, sampleAcceptance 1700000100000, .lapsed 1, sampleAcceptance 1763300000000]

theorem sampleLog_first (h : (approvals diditReference sampleLog).head? = some t) : t = 1700000100000 := by
  by_cases href : 5 = diditReference
  · subst href
    exact (some.inj h).symm
  · simp [approvals, sampleLog, sampleAcceptance, Acceptance.isApprovalOf, href] at h

theorem sampleLog_not_due : ¬ DueFrom 1 (addUtcMonths 1763300000000 24) sampleLog := by
  intro h
  obtain ⟨diditReference, t, flag, hhead, hdue⟩ := h.head
  rw [sampleLog_first hhead] at hdue
  revert hdue
  cases flag <;> decide +kernel

/-- The session that had verified the account before it lapsed is updated, and
verifies it again, past two years from the first approval of any session. -/
theorem old_session_renews : ∃ s, Reachable (system sampleCfg) Guard.free (idle sampleBeginning) s ∧
    ∃ r ∈ s.world.rows, ∃ renewalDueAt before after, r.renewalDueAt = some renewalDueAt ∧
      ¬ DueFrom r.accountId renewalDueAt s.world.log ∧
      (∀ diditReference t, (approvals diditReference s.world.log).head? = some t →
        addUtcMonths t 24 < renewalDueAt) ∧ r.eligibilityState = .eligible ∧
      s.world.log = before ++ .lapsed r.accountId :: after ∧ ¬ StartedIn r after := by
  obtain ⟨s, hrun, hlook⟩ := exists_of_play (system sampleCfg) Guard.allows_free
    (sampleLapse ++ sampleApprove 4 5 { sampleWebhook 2 .approved 1763300000 with webhookType := "data.updated" })
    (idle sampleBeginning) (fun s => isVerifiedAgain 5 s.world ∧ s.world.log = sampleLog) (by decide +kernel)
  obtain ⟨hverified, hlog⟩ := of_decide_eq_true hlook
  obtain ⟨r, hr, hrow⟩ := List.any_eq_true.mp (Bool.and_eq_true_iff.mp hverified).1
  obtain ⟨haccount, heligible, -, hdue⟩ := of_decide_eq_true hrow
  refine ⟨s, hrun, r, hr, _, [.reserved 1 7, .opened 1 7 5, sampleAcceptance 1700000100000],
    [sampleAcceptance 1763300000000], hdue, ?_, ?_, heligible, ?_, ?_⟩
  · rw [haccount, hlog]
    exact sampleLog_not_due
  · intro diditReference t hhead
    rw [hlog] at hhead
    rw [sampleLog_first hhead]
    decide +kernel
  · rw [haccount, hlog]
    rfl
  · rintro ⟨sessionStartId, diditReference, -, hreserved, -⟩
    cases List.mem_singleton.mp hreserved

end Kyc
