import VistaBlox.KycRenewal
import VistaBlox.Recording

/-!
# What the renewal timer revokes

The timer lists the eligible accounts with their renewal dates and then revokes the overdue
ones one by one. The write asks only whether the account is eligible, so a renewal put off
after the listing is revoked while it is current.
-/
namespace Kyc

open Interleaving

/-- What a thread has last read: the clock, and the accounts with their dates. -/
structure TimerRun where
  now : Option ℤ
  listed : List RenewalCandidate

def noteListing : Note World (Nat → TimerRun) Failure Op Op.Out
  | t, .clock, _, (.ok now, _), h => Function.update h t { h t with now := some now }
  | t, .listEligibleAccountsForRenewalTimer, _, (.ok accounts, _), h =>
    Function.update h t { h t with listed := accounts }
  | _, _, _, _, h => h

/-- The renewal has not been put off since the run listed the account. -/
def notPutOff : Guard (World × (Nat → TimerRun)) Event Op where
  call t op w := match op with
    | .transitionToRequiresRenewal accountId _ => ∀ r ∈ w.1.rows, r.isEligible accountId = true →
        ∀ candidate ∈ (w.2 t).listed, candidate.accountId = accountId →
          ∃ renewalDueAt ≤ candidate.renewalDueAt, r.renewalDueAt = some renewalDueAt
    | _ => True
  env _ _ := True

/-- A transition is made for an account that the run listed as overdue. -/
def listingRules : Rules (World × (Nat → TimerRun)) Op where
  inv _ := True
  rely t w w' := w'.2 t = w.2 t
  req t op w := match op with
    | .transitionToRequiresRenewal accountId transitionedAt => (w.2 t).now = some transitionedAt ∧
        ∃ candidate ∈ (w.2 t).listed, candidate.accountId = accountId ∧ candidate.renewalDueAt < transitionedAt
    | _ => True

theorem noteListing_other (hu : u ≠ t) (op : Op) (w : World) (r : Except Failure op.Out × World)
    (h : Nat → TimerRun) : noteListing t op w r h u = h u := by
  unfold noteListing
  split
  · exact Function.update_of_ne hu ..
  · exact Function.update_of_ne hu ..
  · rfl

section Timer

variable {cfg : Configuration} {t : Nat}

theorem listing_call (hreq : ∀ w, P w → listingRules.req t op w)
    (hstep : ∀ w w' a, P w → w'.2 = noteListing t op w.1 (.ok a, w'.1) w.2 → Q a w')
    (hstable : ∀ a, listingRules.Stable t (Q a)) :
    Triple ((system cfg).recording noteListing) notPutOff listingRules t P (invoke op) Q := by
  refine triple_perform (fun w _ => hreq w) (fun w c r w' _ hP _ hexec => ?_) hstable
  obtain ⟨-, hnote⟩ := recording_exec hexec
  refine ⟨trivial, fun u hu => ?_, fun a ha => hstep w w' a hP (ha ▸ hnote)⟩
  show w'.2 u = w.2 u
  rw [hnote, noteListing_other hu]

/-- What the run knows of its own readings. -/
def Listed (t : Nat) (now : ℤ) (accounts : List RenewalCandidate) (w : World × (Nat → TimerRun)) : Prop :=
  w.2 t = ⟨some now, accounts⟩

theorem listed_stable : listingRules.Stable t (Listed t now accounts) :=
  fun _ _ _ _ hrely h => hrely.trans h

theorem renewOne_listing (hmem : account ∈ accounts) :
    Triple ((system cfg).recording noteListing) notPutOff listingRules t (Listed t now accounts)
      (renewOne now leadDays acted account) fun _ => Listed t now accounts := by
  unfold renewOne
  split
  · rename_i hoverdue
    refine triple_bind (listing_call (fun w h => ?_) (fun w w' a h hnote => ?_) fun _ => listed_stable)
      fun _ => triple_ret fun _ _ h => h
    · refine ⟨congrArg TimerRun.now h, account, ?_, rfl, of_decide_eq_true hoverdue⟩
      rw [show (w.2 t).listed = accounts from congrArg TimerRun.listed h]
      exact hmem
    · exact (congrFun hnote t).trans h
  · split
    · exact triple_ret fun _ _ h => h
    · split
      · exact triple_bind (listing_call (fun _ _ => trivial) (fun w w' a h hnote => (congrFun hnote t).trans h)
          fun _ => listed_stable) fun _ => triple_ret fun _ _ h => h
      · exact triple_ret fun _ _ h => h

/-- The timer revokes only what it has listed as overdue. -/
theorem runKycRenewalTimer_listing :
    Triple ((system cfg).recording noteListing) notPutOff listingRules t (fun _ => True) runKycRenewalTimer
      fun _ _ => True := by
  refine triple_bind (listing_call (Q := fun now w => (w.2 t).now = some now) (fun _ _ => trivial) ?_ ?_) fun now => ?_
  · intro w w' now _ hnote
    rw [hnote]
    simp [noteListing]
  · intro now w w' _ _ hrely h
    rw [show w'.2 t = w.2 t from hrely]
    exact h
  refine triple_bind (listing_call (Q := fun accounts => Listed t now accounts) (fun _ _ => trivial) ?_
    fun accounts => listed_stable) fun accounts => ?_
  · intro w w' accounts h hnote
    show w'.2 t = _
    rw [hnote]
    simp [noteListing, h]
  refine triple_bind (listing_call (Q := fun _ => Listed t now accounts) (fun _ _ => trivial)
    (fun w w' a h hnote => (congrFun hnote t).trans h) fun _ => listed_stable) fun leadDays => ?_
  refine triple_bind (Q := fun _ _ => True) ?_ fun acted => triple_done
  refine triple_post (triple_foldlM (I := fun _ => Listed t now accounts) _ [] accounts ?_ 0) fun _ _ _ _ => trivial
  intro acted done account todo hsplit
  refine renewOne_listing ?_
  rw [List.nil_append] at hsplit
  rw [← hsplit]
  simp

theorem Job.Makes.not_transition {j : Job} {op : Op} (h : j.Makes op) (hj : j ≠ .renewalTimer) :
    op ≠ .transitionToRequiresRenewal accountId transitionedAt := by
  rintro rfl
  cases j with
  | renewalTimer => exact hj rfl
  | _ => exact h

/-- The timer keeps to its list whatever else runs beside it. -/
theorem listing_sound : Sound ((system cfg).recording noteListing) notPutOff listingRules where
  job t j := by
    by_cases hj : j = .renewalTimer
    · subst hj
      exact triple_bind runKycRenewalTimer_listing fun _ => triple_done
    · refine triple_calls (fun op w hop _ => ?_) (fun op c w r w' _ _ _ hexec => ⟨trivial, fun u hu => ?_⟩)
        (Job.makes cfg j)
      · cases op with
        | transitionToRequiresRenewal => exact absurd rfl (hop.not_transition hj)
        | _ => trivial
      · show w'.2 u = w.2 u
        rw [(recording_exec hexec).2, noteListing_other hu]
  env e w w' _ _ henv := ⟨trivial, fun t => congrFun (recording_env henv).2 t⟩

end Timer

section Revocations

variable {w : World} {r : KycEligibility} {accountId : AccountId} {transitionedAt : ℤ}

theorem transitionToRequiresRenewal_changes (hr : r ∈ w.rows) :
    r ∉ (transitionToRequiresRenewal accountId transitionedAt w).2.rows ↔ r.isEligible accountId = true := by
  unfold transitionToRequiresRenewal
  split
  · simp only [World.logged, World.recorded, rewriteRows, List.mem_map, not_exists, not_and]
    constructor
    · intro hchanged
      by_contra hother
      exact hchanged r hr (if_neg hother)
    · intro heligible x _ hx
      split at hx
      · rw [← hx] at heligible
        cases (isEligible_iff.mp heligible).2
      · rename_i hother
        exact hother (hx ▸ heligible)
  · rename_i hnone
    constructor
    · intro hchanged
      exact absurd hr hchanged
    · intro heligible
      exact absurd (List.any_eq_true.mpr ⟨r, hr, heligible⟩) hnone

/-- In every run in which no renewal is put off between a listing and the
transition it leads to, the timer revokes only verifications that are overdue. -/
theorem timer_revokes_only_overdue (cfg : Configuration) (now : ℤ) (accounts : List Account)
    (decisions : DiditReference → DiditDecisionSummary) (s s' : Config (World × (Nat → TimerRun)) Failure Op Op.Out)
    (h : Reachable ((system cfg).recording noteListing) notPutOff
      (idle (World.start now accounts decisions, fun _ => ⟨none, []⟩)) s)
    (t : Nat) (c : Choice) (accountId : AccountId) (transitionedAt : ℤ) (next : Except Failure Bool → Run Unit)
    (ht : s.threads t = .call (.transitionToRequiresRenewal accountId transitionedAt) next)
    (hallow : notPutOff.Allows s (.call t c : RenewalAction))
    (hstep : ((system cfg).recording noteListing).step s (.call t c) = some s') :
    ∀ r ∈ s.world.1.rows, r ∉ s'.world.1.rows → ∃ renewalDueAt reading, r.renewalDueAt = some renewalDueAt ∧
      (s.world.2 t).now = some reading ∧ renewalDueAt < reading := by
  intro r hr hchanged
  have hreq := (h.secure listing_sound (secure_idle _ trivial)).req ht
  obtain ⟨hreading, candidate, hlisted, haccount, hoverdue⟩ := hreq
  rw [Semantics.step_call _ ht] at hstep
  obtain ⟨x, hexec, rfl⟩ := Option.map_eq_some_iff.mp hstep
  have hplain : exec t (.transitionToRequiresRenewal accountId transitionedAt) c s.world.1 = some (x.1, x.2.1) :=
    (recording_exec hexec).1
  have heligible : r.isEligible accountId = true := by
    obtain ⟨a, hrun, -, -⟩ | ⟨-, hsame⟩ := exec_inv (t := t) hplain
    · rw [show x.2.1 = _ from (congrArg Prod.snd (Option.some.inj hrun)).symm] at hchanged
      exact (transitionToRequiresRenewal_changes hr).mp hchanged
    · rw [show x.2.1 = _ from hsame] at hchanged
      exact absurd hr hchanged
  simp only [Guard.Allows, ht] at hallow
  obtain ⟨renewalDueAt, hle, hdue⟩ := hallow r hr heligible candidate hlisted haccount
  exact ⟨renewalDueAt, transitionedAt, hdue, hreading, hle.trans_lt hoverdue⟩

end Revocations

abbrev TimerConfig := Config (World × (Nat → TimerRun)) Failure Op Op.Out

instance decidableDueBy (date : Option ℤ) (bound : ℤ) : Decidable (∃ renewalDueAt ≤ bound, date = some renewalDueAt) :=
  decidable_of_iff (∃ renewalDueAt ∈ date, renewalDueAt ≤ bound) (exists_congr fun _ => and_comm)

instance (t : Nat) (op : Op) (w : World × (Nat → TimerRun)) : Decidable (notPutOff.call t op w) := by
  induction op using Op.casesOn <;> (dsimp only [notPutOff]; infer_instance)

/-- Session 5 is approved, and two years later the timer has listed the account. -/
def sampleListing : List RenewalAction :=
  sampleStart 0 7 5 ++ sampleApprove 1 5 (sampleWebhook 1 .approved 1700000100) ++
    [.env (.tick 63200000000), .spawn 2 .renewalTimer] ++ renewalCalls 2 3

/-- Thread 2 is about to revoke account 1, whose renewal is due then. -/
def isRevoking (renewalDueAt : ℤ) (s : TimerConfig) : Bool :=
  (match s.threads 2 with
    | .call (.transitionToRequiresRenewal 1 _) _ => true
    | _ => false) &&
  s.world.1.rows.any (fun r => r.isEligible 1 ∧ r.renewalDueAt = some renewalDueAt) &&
  decide ((s.world.2 2).now = some 1763200000000)

theorem isRevoking_step (h : isRevoking renewalDueAt s = true) : ∃ transitionedAt next s' r,
      s.threads 2 = .call (.transitionToRequiresRenewal 1 transitionedAt) next ∧
      ((system cfg).recording noteListing).step s (.call 2 calm) = some s' ∧ r ∈ s.world.1.rows ∧
      r ∉ s'.world.1.rows ∧ r.renewalDueAt = some renewalDueAt ∧ (s.world.2 2).now = some 1763200000000 := by
  simp only [isRevoking, Bool.and_eq_true, decide_eq_true_eq] at h
  obtain ⟨⟨hthread, hrow⟩, hreading⟩ := h
  obtain ⟨r, hr, hrow⟩ := List.any_eq_true.mp hrow
  obtain ⟨heligible, hdue⟩ := of_decide_eq_true hrow
  split at hthread
  · rename_i transitionedAt next ht
    refine ⟨transitionedAt, next, _, r, ht, (Semantics.step_call _ ht calm).trans rfl, hr, ?_, hdue, hreading⟩
    exact (transitionToRequiresRenewal_changes hr).mpr heligible
  · cases hthread

theorem timer_revokes_only_overdue_sample : ∃ s s' r,
    Reachable ((system sampleCfg).recording noteListing) notPutOff (idle (sampleBeginning, fun _ => ⟨none, []⟩)) s ∧
      ((system sampleCfg).recording noteListing).step s (.call 2 calm) = some s' ∧ r ∈ s.world.1.rows ∧
      r ∉ s'.world.1.rows ∧ ∃ renewalDueAt reading, r.renewalDueAt = some renewalDueAt ∧
        (s.world.2 2).now = some reading ∧ renewalDueAt < reading := by
  obtain ⟨s, hrun, hlook⟩ := exists_of_play ((system sampleCfg).recording noteListing)
    (notPutOff.allows_of_decide fun _ _ => trivial) sampleListing
    (idle (sampleBeginning, fun _ => ⟨none, []⟩))
    (fun s => isRevoking (addUtcMonths 1700000100000 24) s &&
      threadTest (fun t op w => decide (notPutOff.call t op w)) s (.call 2 calm : RenewalAction))
    (by decide +kernel)
  obtain ⟨hrevoking, htest⟩ := Bool.and_eq_true_iff.mp hlook
  obtain ⟨transitionedAt, next, s', r, ht, hstep, hr, hchanged, -, -⟩ := isRevoking_step hrevoking
  exact ⟨s, s', r, hrun, hstep, hr, hchanged, timer_revokes_only_overdue sampleCfg _ _ _ s s' hrun 2 calm 1
    transitionedAt next ht (notPutOff.allows_of_decide (fun _ _ => trivial) s _ htest) hstep r hr hchanged⟩

/-- The timer has listed the account as overdue, the provider reports the
verification anew, and the timer revokes it two years too early. -/
theorem timer_revokes_renewed_verification : ∃ s s' r renewalDueAt reading,
    Reachable ((system sampleCfg).recording noteListing) Guard.free (idle (sampleBeginning, fun _ => ⟨none, []⟩)) s ∧
      (∃ transitionedAt next, s.threads 2 = .call (.transitionToRequiresRenewal 1 transitionedAt) next) ∧
      ((system sampleCfg).recording noteListing).step s (.call 2 calm) = some s' ∧ r ∈ s.world.1.rows ∧
      r ∉ s'.world.1.rows ∧ r.renewalDueAt = some renewalDueAt ∧ (s.world.2 2).now = some reading ∧
      reading < renewalDueAt := by
  obtain ⟨s, hrun, hlook⟩ := exists_of_play ((system sampleCfg).recording noteListing)
    Guard.allows_free
    (sampleListing ++
      sampleApprove 3 5 { sampleWebhook 2 .approved 1763190000 with webhookType := "data.updated" })
    (idle (sampleBeginning, fun _ => ⟨none, []⟩)) (isRevoking (addUtcMonths 1763190000000 24)) (by decide +kernel)
  obtain ⟨transitionedAt, next, s', r, ht, hstep, hr, hchanged, hdue, hreading⟩ :=
    isRevoking_step hlook
  exact ⟨s, s', r, _, _, hrun, ⟨transitionedAt, next, ht⟩, hstep, hr, hchanged, hdue, hreading, by decide +kernel⟩

end Kyc
