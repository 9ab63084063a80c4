import Mathlib.Algebra.Order.BigOperators.Group.Finset
import VistaBlox.IpoEscrowDisposition

/-!
# Solvency and accounting of the escrow
-/
namespace IpoEscrow

open Evm
open Function (update update_self)

variable {eurc : Erc20}

/-- What the contract owes on behalf of one campaign. -/
noncomputable def obligation (s : State eurc) (t : TokenId) : Nat :=
  match (s.campaigns t).state with
  | .notOpened => 0
  | .opened => (s.campaigns t).totalRaised
  | .successful => if (s.campaigns t).swept then 0 else (s.campaigns t).totalRaised
  | .failed => ∑ a, s.contributions t a

/-- A sweep to the contract's own address leaves the amount where it was. -/
def retained (escrow : Address) (s : State eurc) (t : TokenId) : Nat :=
  if (s.campaigns t).treasury = escrow ∧ (s.campaigns t).swept = true then (s.campaigns t).totalRaised else 0

/-- The bookkeeping of one campaign is consistent. -/
structure CampaignOk (s : State eurc) (t : TokenId) : Prop where
  raised_le : (s.campaigns t).totalRaised ≤ (s.campaigns t).targetAmount
  fresh : (s.campaigns t).state = .notOpened → (s.campaigns t).totalRaised = 0
  unswept : (s.campaigns t).state ≠ .successful → (s.campaigns t).swept = false
  nodup : (s.contributorsList t).Nodup
  listed : ∀ a, a ∈ s.contributorsList t ↔ s.hasContributed t a = true
  logged : ∀ a, a ∈ s.contributorsList t ↔ ∃ n total, Event.contributed t a n total ∈ s.log
  unlisted : ∀ a, a ∉ s.contributorsList t → s.contributions t a = 0
  raised : (s.campaigns t).state ≠ .failed → ∑ a, s.contributions t a = (s.campaigns t).totalRaised

/-- The balance covers every obligation, and the surplus is fully explained. -/
def Solvent (escrow : Address) (s : State eurc) : Prop :=
  eurc.balanceOf s.eurcLedger escrow = (∑ t, obligation s t) + (∑ t, retained escrow s t) + s.direct

structure Accounts (escrow : Address) (s : State eurc) : Prop where
  campaign : ∀ t, CampaignOk s t
  solvent : Solvent escrow s

/-- Nothing but campaign `t` differs between two states. -/
structure Elsewhere (s s' : State eurc) (t : TokenId) : Prop where
  campaigns : ∀ t', t' ≠ t → s'.campaigns t' = s.campaigns t'
  contributions : ∀ t', t' ≠ t → s'.contributions t' = s.contributions t'
  contributorsList : ∀ t', t' ≠ t → s'.contributorsList t' = s.contributorsList t'
  hasContributed : ∀ t', t' ≠ t → s'.hasContributed t' = s.hasContributed t'
  log : ∀ t' a n total, t' ≠ t → (Event.contributed t' a n total ∈ s'.log ↔ Event.contributed t' a n total ∈ s.log)

variable {t : TokenId} {s s' : State eurc}

theorem Elsewhere.campaignOk (h : Elsewhere s s' t) (t' : TokenId) (hne : t' ≠ t) (hok : CampaignOk s t') :
    CampaignOk s' t' := by
  have hc := h.campaigns t' hne
  have hl := h.contributorsList t' hne
  constructor
  · rw [hc]; exact hok.raised_le
  · rw [hc]; exact hok.fresh
  · rw [hc]; exact hok.unswept
  · rw [hl]; exact hok.nodup
  · simpa only [hl, h.hasContributed t' hne] using hok.listed
  · simpa only [hl, h.log t' _ _ _ hne] using hok.logged
  · simpa only [hl, h.contributions t' hne] using hok.unlisted
  · simpa only [hc, h.contributions t' hne] using hok.raised

theorem Elsewhere.obligation (h : Elsewhere s s' t) :
    (∑ x, obligation s' x) + obligation s t = (∑ x, obligation s x) + obligation s' t :=
  sum_change _ _ t (fun x hx => by simp only [IpoEscrow.obligation, h.campaigns x hx, h.contributions x hx])

theorem Elsewhere.retained (escrow : Address) (h : Elsewhere s s' t) :
    (∑ x, retained escrow s' x) + retained escrow s t = (∑ x, retained escrow s x) + retained escrow s' t :=
  sum_change _ _ t (fun x hx => by simp only [IpoEscrow.retained, h.campaigns x hx])

/-- A change confined to one campaign that leaves that campaign consistent. -/
def Books (s s' : State eurc) (t : TokenId) : Prop := Elsewhere s s' t ∧ CampaignOk s' t

theorem Books.campaignOk (hb : Books s s' t) (h : ∀ t, CampaignOk s t) (t' : TokenId) : CampaignOk s' t' := by
  by_cases ht : t' = t
  · exact ht ▸ hb.2
  · exact hb.1.campaignOk t' ht (h t')

variable {escrow : Address}

/-- The step rule of the invariant: a change confined to one campaign has to
keep that campaign consistent and to move the pooled balance by as much as it
moves that campaign's own share. -/
theorem Accounts.change (h : Accounts escrow s) (t : TokenId) (hbooks : Books s s' t) (hd : s'.direct = s.direct)
    (hb : eurc.balanceOf s'.eurcLedger escrow + (obligation s t + retained escrow s t) =
      eurc.balanceOf s.eurcLedger escrow + (obligation s' t + retained escrow s' t)) : Accounts escrow s' := by
  refine ⟨hbooks.campaignOk h.campaign, ?_⟩
  have ho := hbooks.1.obligation
  have hr := hbooks.1.retained escrow
  have hs := h.solvent
  unfold Solvent at hs ⊢
  omega

variable {m : Msg}

theorem accounts_deployed (h : deploy escrow m e l = .ok s) : Accounts escrow s := by
  obtain ⟨hc, hn, hl, hh, hg, _, hd⟩ := deploy_ok h
  refine ⟨fun t => ?_, ?_⟩
  · constructor <;> simp [hc, hn, hl, hh, hg, Campaign.empty]
  · have ho : ∀ t, obligation s t = 0 := by intro t; simp [obligation, hc, Campaign.empty]
    have hr : ∀ t, retained escrow s t = 0 := by intro t; simp [retained, hc, Campaign.empty]
    simp [Solvent, ho, hr, hd]

theorem CampaignOk.rewrite (h : CampaignOk s t) (hc : s'.campaigns t = c)
    (hn : s'.contributions t = s.contributions t) (hl : s'.contributorsList t = s.contributorsList t)
    (hh : s'.hasContributed t = s.hasContributed t)
    (hg : ∀ a n total, Event.contributed t a n total ∈ s'.log ↔ Event.contributed t a n total ∈ s.log)
    (hle : c.totalRaised ≤ c.targetAmount) (hf : c.state ≠ .notOpened)
    (hw : c.state ≠ .successful → c.swept = false)
    (hr : c.state ≠ .failed → ∑ a, s.contributions t a = c.totalRaised) : CampaignOk s' t := by
  subst hc
  refine ⟨hle, fun he => absurd he hf, hw, hl ▸ h.nodup, ?_, ?_, ?_, ?_⟩
  · simpa only [hl, hh] using h.listed
  · simpa only [hl, hg] using h.logged
  · simpa only [hl, hn] using h.unlisted
  · simpa only [hn] using hr

variable {deadline target : Nat} {treasury : Address}

theorem books_openCampaign (hok : CampaignOk s t) (hc : openCampaign s m t target deadline treasury = .ok s') :
    Books s s' t := by
  obtain ⟨_, hstate, _, _, _, rfl⟩ := openCampaign_ok hc
  have hsum : ∑ a, s.contributions t a = 0 := (hok.raised (by simp [hstate])).trans (hok.fresh hstate)
  refine ⟨?_, ?_⟩
  · constructor <;> intro t' <;> intros <;> simp_all [State.putCampaign]
  · refine hok.rewrite (update_self t _ _) rfl rfl rfl (by simp [State.putCampaign]) ?_ ?_ ?_ ?_ <;>
      simp [hsum]

theorem accounts_openCampaign (h : Accounts escrow s) (hc : openCampaign s m t target deadline treasury = .ok s') :
    Accounts escrow s' := by
  have hbooks := books_openCampaign (h.campaign t) hc
  obtain ⟨_, hstate, _, _, _, rfl⟩ := openCampaign_ok hc
  have hswept : (s.campaigns t).swept = false := (h.campaign t).unswept (by simp [hstate])
  refine h.change t hbooks rfl ?_
  simp [obligation, retained, hstate, hswept, State.putCampaign]

theorem books_extendDeadline (hok : CampaignOk s t) (hc : extendDeadline s m t deadline = .ok s') : Books s s' t := by
  obtain ⟨_, hstate, _, rfl⟩ := extendDeadline_ok hc
  refine ⟨?_, ?_⟩
  · constructor <;> intro t' <;> intros <;> simp_all [State.putCampaign]
  · exact hok.rewrite (update_self t _ _) rfl rfl rfl (by simp [State.putCampaign]) hok.raised_le
      (by simp [hstate]) hok.unswept hok.raised

theorem accounts_extendDeadline (h : Accounts escrow s) (hc : extendDeadline s m t deadline = .ok s') :
    Accounts escrow s' := by
  have hbooks := books_extendDeadline (h.campaign t) hc
  obtain ⟨_, hstate, _, rfl⟩ := extendDeadline_ok hc
  refine h.change t hbooks rfl ?_
  simp [obligation, retained, hstate, State.putCampaign]

theorem books_finalize (hok : CampaignOk s t) (hc : finalize s m t = .ok s') : Books s s' t := by
  obtain ⟨_, hstate, _, rfl⟩ := finalize_ok hc
  refine ⟨?_, ?_⟩
  · constructor <;> intro t' <;> intros <;> simp_all [State.putCampaign]
  · refine hok.rewrite (update_self t _ _) rfl rfl rfl (by simp [State.putCampaign]) hok.raised_le ?_
      (fun _ => hok.unswept (by simp [hstate])) (fun _ => hok.raised (by simp [hstate]))
    split <;> simp

theorem accounts_finalize (h : Accounts escrow s) (hc : finalize s m t = .ok s') : Accounts escrow s' := by
  have hbooks := books_finalize (h.campaign t) hc
  obtain ⟨_, hstate, _, rfl⟩ := finalize_ok hc
  have hswept : (s.campaigns t).swept = false := (h.campaign t).unswept (by simp [hstate])
  have hsum := (h.campaign t).raised (by simp [hstate])
  refine h.change t hbooks rfl ?_
  by_cases hreached : (s.campaigns t).targetAmount ≤ (s.campaigns t).totalRaised <;>
    simp [obligation, retained, hstate, hswept, hreached, hsum, State.putCampaign]

theorem books_withdrawRaised (hok : CampaignOk s t) (hc : withdrawRaised escrow s t = .ok s') : Books s s' t := by
  obtain ⟨_, hstate, hswept, l, _, rfl⟩ := withdrawRaised_ok hc
  refine ⟨?_, ?_⟩
  · constructor <;> intro t' <;> intros <;> simp_all [State.putCampaign]
  · exact hok.rewrite (update_self t _ _) rfl rfl rfl (by simp [State.putCampaign]) hok.raised_le
      (by simp [hstate]) (by simp [hstate]) hok.raised

theorem accounts_withdrawRaised (h : Accounts escrow s) (hc : withdrawRaised escrow s t = .ok s') :
    Accounts escrow s' := by
  have hbooks := books_withdrawRaised (h.campaign t) hc
  obtain ⟨_, hstate, hswept, l, hmoved, rfl⟩ := withdrawRaised_ok hc
  refine h.change t hbooks rfl ?_
  by_cases hown : (s.campaigns t).treasury = escrow
  · have hsame := hmoved.self hown.symm escrow
    simp [obligation, retained, hstate, hswept, hown, hsame, State.putCampaign]
  · have hpaid := hmoved.debit (Ne.symm hown)
    simp [obligation, retained, hstate, hswept, hown, State.putCampaign]
    omega

theorem books_withdraw (hok : CampaignOk s t) (hc : withdraw escrow s m t = .ok s') : Books s s' t := by
  obtain ⟨_, hstate, hpos, l, _, rfl⟩ := withdraw_ok hc
  refine ⟨?_, ?_⟩
  · constructor <;> intro t' <;> intros <;> simp_all
  · refine ⟨hok.raised_le, hok.fresh, hok.unswept, hok.nodup, hok.listed, ?_, ?_, ?_⟩
    · simpa using hok.logged
    · intro a ha
      by_cases hs : a = m.sender
      · simp [hs]
      · simpa [hs] using hok.unlisted a ha
    · exact fun hne => absurd hstate hne

theorem accounts_withdraw (h : Accounts escrow s) (hm : m.sender ≠ escrow) (hc : withdraw escrow s m t = .ok s') :
    Accounts escrow s' := by
  have hbooks := books_withdraw (h.campaign t) hc
  obtain ⟨_, hstate, hpos, l, hmoved, rfl⟩ := withdraw_ok hc
  have hswept : (s.campaigns t).swept = false := (h.campaign t).unswept (by simp [hstate])
  have hpaid := hmoved.debit (Ne.symm hm)
  have hsum := sum_update (s.contributions t) m.sender 0
  refine h.change t hbooks rfl ?_
  simp only [obligation, retained, emit_campaigns, emit_contributions, emit_eurcLedger, hstate, hswept,
    update_self]
  omega

theorem mem_book_contributorsList (h : CampaignOk s t) (a b : Address) (total owed : Nat) :
    b ∈ (s.book t a total owed).contributorsList t ↔ b ∈ s.contributorsList t ∨ b = a := by
  rw [book_contributorsList]
  by_cases hh : s.hasContributed t a
  · have ha : a ∈ s.contributorsList t := (h.listed a).mpr hh
    rw [if_pos hh]
    exact ⟨.inl, fun hb => hb.elim id (fun he => he ▸ ha)⟩
  · simp [hh]

theorem nodup_book_contributorsList (h : CampaignOk s t) :
    ((s.book t a total owed).contributorsList t).Nodup := by
  rw [book_contributorsList]
  by_cases hh : s.hasContributed t a
  · simpa [hh] using h.nodup
  · have ha : a ∉ s.contributorsList t := fun hm => hh ((h.listed a).mp hm)
    simp only [hh, Bool.false_eq_true, if_false, update_self]
    exact h.nodup.append (List.nodup_singleton a) (by simpa using ha)

variable {amount : Nat}

theorem books_contribute (hok : CampaignOk s t) (hc : contribute escrow s m t amount = .ok s') : Books s s' t := by
  obtain ⟨_, hstate, _, _, hle, l, _, rfl⟩ := contribute_ok hc
  have hswept : (s.campaigns t).swept = false := hok.unswept (by simp [hstate])
  have hsum := sum_update (s.contributions t) m.sender (s.contributions t m.sender + amount)
  have hraised := hok.raised (by simp [hstate])
  refine ⟨?_, ?_⟩
  · constructor
    · intro t' ht; simp [ht]
    · intro t' ht; simp [ht]
    · intro t' ht
      simp only [emit_contributorsList, book_contributorsList]
      split <;> simp [ht]
    · intro t' ht
      funext b
      simp [book_hasContributed, ht]
    · intro t' a n total ht; simp [ht]
  · constructor
    · simpa using hle
    · simp [hstate]
    · simp [hswept]
    · exact nodup_book_contributorsList hok
    · intro a
      rw [emit_contributorsList, emit_hasContributed, mem_book_contributorsList hok, book_hasContributed,
        hok.listed]
      by_cases ha : a = m.sender <;> simp [ha]
    · intro a
      rw [emit_contributorsList, emit_log, mem_book_contributorsList hok, hok.logged]
      simp only [book_log, List.mem_append, List.mem_singleton, Event.contributed.injEq, true_and]
      constructor
      · rintro (⟨n, total, hmem⟩ | rfl)
        · exact ⟨n, total, .inl hmem⟩
        · exact ⟨_, _, .inr ⟨rfl, rfl, rfl⟩⟩
      · rintro ⟨n, total, hmem | ⟨rfl, _⟩⟩
        · exact .inl ⟨n, total, hmem⟩
        · exact .inr rfl
    · intro a ha
      rw [emit_contributorsList, mem_book_contributorsList hok, not_or] at ha
      simpa [ha.2] using hok.unlisted a ha.1
    · intro _
      simp only [emit_contributions, emit_campaigns, book_contributions, book_campaigns, update_self]
      omega

theorem accounts_contribute (h : Accounts escrow s) (hm : m.sender ≠ escrow)
    (hc : contribute escrow s m t amount = .ok s') : Accounts escrow s' := by
  have hbooks := books_contribute (h.campaign t) hc
  obtain ⟨_, hstate, _, _, _, l, hmoved, rfl⟩ := contribute_ok hc
  have hswept : (s.campaigns t).swept = false := (h.campaign t).unswept (by simp [hstate])
  have hpaid := hmoved.credit hm
  refine h.change t hbooks (by simp) ?_
  simp [obligation, retained, hstate, hswept, hpaid]
  omega

variable {c : Call}

theorem campaignOk_exec (h : ∀ t, CampaignOk s t) (hc : exec escrow s m c = .ok s') : ∀ t, CampaignOk s' t := by
  cases c with
  | openCampaign t => exact (books_openCampaign (h t) hc).campaignOk h
  | extendDeadline t => exact (books_extendDeadline (h t) hc).campaignOk h
  | contribute t => exact (books_contribute (h t) hc).campaignOk h
  | finalize t => exact (books_finalize (h t) hc).campaignOk h
  | withdrawRaised t => exact (books_withdrawRaised (h t) hc).campaignOk h
  | withdraw t => exact (books_withdraw (h t) hc).campaignOk h
  | pause => obtain ⟨_, rfl⟩ := pause_ok hc; exact fun t => { h t with }
  | unpause => obtain ⟨_, rfl⟩ := unpause_ok hc; exact fun t => { h t with }
  | role => obtain ⟨_, rfl⟩ := changeRole_ok hc; exact fun t => { h t with }

/-- Every call keeps the accounts balanced. -/
theorem accounts_exec (h : Accounts escrow s) (hm : m.sender ≠ escrow) (hc : exec escrow s m c = .ok s') :
    Accounts escrow s' := by
  cases c with
  | openCampaign => exact accounts_openCampaign h hc
  | extendDeadline => exact accounts_extendDeadline h hc
  | contribute => exact accounts_contribute h hm hc
  | finalize => exact accounts_finalize h hc
  | withdrawRaised => exact accounts_withdrawRaised h hc
  | withdraw => exact accounts_withdraw h hm hc
  | pause => obtain ⟨_, rfl⟩ := pause_ok hc; exact ⟨fun t => { h.campaign t with }, h.solvent⟩
  | unpause => obtain ⟨_, rfl⟩ := unpause_ok hc; exact ⟨fun t => { h.campaign t with }, h.solvent⟩
  | role => obtain ⟨_, rfl⟩ := changeRole_ok hc; exact ⟨fun t => { h.campaign t with }, h.solvent⟩

theorem accounts_step (h : Accounts escrow s) : Accounts escrow (step escrow s e) := by
  obtain hsame | ⟨m, c, _, hm, hc⟩ | ⟨l, n, _, hl, hs⟩ := step_cases escrow s e
  · rwa [hsame]
  · exact accounts_exec h hm hc
  · rw [hs]
    refine ⟨fun t => { h.campaign t with }, ?_⟩
    have hsolvent := h.solvent
    simp only [Solvent, obligation, retained] at hsolvent ⊢
    omega

theorem campaignOk_step (escrow : Address) (h : ∀ t, CampaignOk s t) (e : Step eurc) :
    ∀ t, CampaignOk (step escrow s e) t := by
  obtain hsame | ⟨m, c, _, _, hc⟩ | ⟨l, n, _, _, hs⟩ := step_cases escrow s e
  · rwa [hsame]
  · exact campaignOk_exec h hc
  · rw [hs]
    exact fun t => { h t with }

/-- The escrow is solvent in every run. -/
theorem accounts_reachable (h : Reachable escrow s) : Accounts escrow s := by
  induction h with
  | deployed m e l s hd => exact accounts_deployed hd
  | step s e _ ih => exact accounts_step ih

theorem sum_contributorsList (h : CampaignOk s t) :
    ((s.contributorsList t).map (s.contributions t)).sum = ∑ a, s.contributions t a := by
  rw [← List.sum_toFinset _ h.nodup]
  refine Finset.sum_subset (Finset.subset_univ _) (fun a _ ha => ?_)
  exact h.unlisted a (by simpa using ha)

theorem Accounts.surplus (h : Accounts escrow s) (t : TokenId) (hr : retained escrow s t ≠ 0) :
    ∑ t, obligation s t ≠ eurc.balanceOf s.eurcLedger escrow := by
  have hsolvent := h.solvent
  have hone : retained escrow s t ≤ ∑ t, retained escrow s t :=
    Finset.single_le_sum (fun _ _ => Nat.zero_le _) (Finset.mem_univ t)
  unfold Solvent at hsolvent
  omega

/-- Solvency and accounting over the contract's whole life. The balance covers
what is owed on any set of campaigns, and it is exactly what is owed on all of
them if nothing was sent directly and no campaign pays out to the contract. -/
theorem escrow_accounting (escrow : Address) (s : State eurc) (h : Reachable escrow s) :
    (∀ t, (campaignOf s t).totalRaised ≤ (campaignOf s t).targetAmount ∧
      checkedSub Error.arithmetic (campaignOf s t).targetAmount (campaignOf s t).totalRaised =
        .ok ((campaignOf s t).targetAmount - (campaignOf s t).totalRaised)) ∧
    (∀ t, (campaignOf s t).state = .opened ∨ (campaignOf s t).state = .successful →
      ((contributorsOf s t).map (contributionOf s t)).sum = (campaignOf s t).totalRaised ∧
      (contributorsOf s t).Nodup ∧
      ∀ a, a ∈ contributorsOf s t ↔ ∃ amount total, Event.contributed t a amount total ∈ s.log) ∧
    (∀ tokens : Finset TokenId, ∑ t ∈ tokens, obligation s t ≤ eurc.balanceOf s.eurcLedger escrow) ∧
    (s.direct = 0 → (∀ t, (campaignOf s t).state ≠ .notOpened → (campaignOf s t).treasury ≠ escrow) →
      ∑ t, obligation s t = eurc.balanceOf s.eurcLedger escrow) := by
  have hacc := accounts_reachable h
  have hsolvent := hacc.solvent
  refine ⟨fun t => ?_, fun t hstate => ?_, fun tokens => ?_, fun hdirect hpays => ?_⟩
  · have hle := (hacc.campaign t).raised_le
    exact ⟨hle, if_pos hle⟩
  · have hok := hacc.campaign t
    have hne : (s.campaigns t).state ≠ .failed := by
      rcases hstate with hs | hs <;> simp_all [campaignOf]
    exact ⟨(sum_contributorsList hok).trans (hok.raised hne), hok.nodup, hok.logged⟩
  · have hpart : ∑ t ∈ tokens, obligation s t ≤ ∑ t, obligation s t :=
      Finset.sum_le_sum_of_subset (Finset.subset_univ tokens)
    unfold Solvent at hsolvent
    omega
  · have hkept : ∑ t, retained escrow s t = 0 := by
      refine Finset.sum_eq_zero (fun t _ => if_neg (fun hr => ?_))
      have hstate : (s.campaigns t).state = .successful := by
        by_contra hne
        simp [(hacc.campaign t).unswept hne] at hr
      exact hpays t (by simp [campaignOf, hstate]) hr.1
    unfold Solvent at hsolvent
    omega

/-- One investor funds campaign 1 in full; it is resolved and swept. -/
def fundedRun (treasury : Address) : List (Step plainToken) :=
  [.call ⟨1, 0⟩ (.role (.grantRole .campaignManager 2)),
   .call ⟨2, 1⟩ (.openCampaign 1 5 10 treasury),
   .call ⟨3, 2⟩ (.contribute 1 5),
   .call ⟨3, 10⟩ (.finalize 1),
   .call ⟨3, 11⟩ (.withdrawRaised 1)]

def investorLedger : plainToken.Ledger := update (fun _ => 0) 3 7

/-- The accounting at the moment the campaign has been funded. -/
theorem escrow_accounting_funded :
    ∃ s₀ s : State plainToken, deploy 100 ⟨1, 0⟩ 9 investorLedger = .ok s₀ ∧
      s = run 100 s₀ ((fundedRun 4).take 3) ∧ ((contributorsOf s 1).map (contributionOf s 1)).sum = 5 ∧
      ∑ t ∈ {1}, obligation s t ≤ 5 := by
  refine ⟨_, _, rfl, rfl, ?_⟩
  obtain ⟨_, hlists, hcovered, _⟩ := escrow_accounting 100 _
    (reachable_run 100 _ ((fundedRun 4).take 3) (.deployed ⟨1, 0⟩ 9 investorLedger _ rfl))
  exact ⟨(hlists 1 (by decide)).1, hcovered {1}⟩

/-- Nothing was sent directly, and yet the balance exceeds what is owed: the
campaign was opened with the escrow's own address as its treasury. -/
theorem escrow_equality_fails_for_own_treasury :
    ∃ s₀ s : State plainToken, deploy 100 ⟨1, 0⟩ 9 investorLedger = .ok s₀ ∧
      s = run 100 s₀ (fundedRun 100) ∧ s.direct = 0 ∧
      ∑ t, obligation s t ≠ plainToken.balanceOf s.eurcLedger 100 := by
  refine ⟨_, _, rfl, rfl, by decide, ?_⟩
  have hacc := accounts_reachable
    (reachable_run 100 _ (fundedRun 100) (.deployed ⟨1, 0⟩ 9 investorLedger _ rfl))
  exact hacc.surplus 1 (by decide)

/-- The token lets the contract spend what it holds. -/
def Spends (eurc : Erc20) (escrow : Address) : Prop :=
  ∀ l b n, n ≤ eurc.balanceOf l escrow → ∃ l', eurc.transfer l escrow b n = some l'

theorem withdraw_pays (h : Accounts escrow s) (hpaused : s.paused = false) (hspends : Spends eurc escrow)
    (hfailed : (s.campaigns t).state = .failed) (howed : s.contributions t m.sender ≠ 0) :
    ∃ s', withdraw escrow s m t = .ok s' ∧
      payoutsOf s' t = payoutsOf s t ++ [⟨t, m.sender, s.contributions t m.sender, .refund⟩] := by
  have hsolvent := h.solvent
  have hone : s.contributions t m.sender ≤ ∑ a, s.contributions t a :=
    Finset.single_le_sum (fun _ _ => Nat.zero_le _) (Finset.mem_univ m.sender)
  have hpart : obligation s t ≤ ∑ t, obligation s t :=
    Finset.single_le_sum (fun _ _ => Nat.zero_le _) (Finset.mem_univ t)
  have howes : obligation s t = ∑ a, s.contributions t a := by simp [obligation, hfailed]
  unfold Solvent at hsolvent
  obtain ⟨l, hl⟩ := hspends s.eurcLedger m.sender (s.contributions t m.sender) (by omega)
  refine ⟨_, by simp [withdraw, push, whenNotPaused, revertIf, hpaused, hfailed, howed, hl]; rfl, ?_⟩
  simp [payoutsOf, view]

/-- Nobody can lock a refund up. In every state of the contract's life in which
it is not paused, a failed campaign has paid an investor back all they ever
gave, or does so when they ask. -/
theorem refund_never_stuck (h : Reachable escrow s) (hpaused : s.paused = false) (hspends : Spends eurc escrow)
    (hfailed : (campaignOf s t).state = .failed) (hgave : totalContribution s t m.sender ≠ 0) :
    ⟨t, m.sender, totalContribution s t m.sender, .refund⟩ ∈ payoutsOf s t ∨
    ∃ s', withdraw escrow s m t = .ok s' ∧
      payoutsOf s' t = payoutsOf s t ++ [⟨t, m.sender, totalContribution s t m.sender, .refund⟩] := by
  have hd := disposed_reachable h t
  by_cases hpaid : m.sender ∈ (payoutsOf s t).map Payout.recipient
  · obtain ⟨p, hp, hrecipient⟩ := List.mem_map.mp hpaid
    obtain ⟨hkind, hamount, -⟩ := hd.refunds hfailed p hp
    have htoken : p.tokenId = t := of_decide_eq_true (List.mem_filter.mp hp).2
    have hrefund : p = ⟨t, m.sender, totalContribution s t m.sender, .refund⟩ := by
      rw [totalContribution, ← hrecipient, ← hamount, ← hkind, ← htoken]
    exact .inl (hrefund ▸ hp)
  · have howed : s.contributions t m.sender = totalContribution s t m.sender := hd.owed m.sender fun _ => hpaid
    rw [← howed] at hgave ⊢
    exact .inr (withdraw_pays (accounts_reachable h) hpaused hspends hfailed hgave)

theorem refund_never_stuck_asked : ∃ s₀ s : State plainToken, deploy 100 ⟨1, 0⟩ 9 investorLedger = .ok s₀ ∧
    s = run 100 s₀ (refundedRun.take 5) ∧
    ∃ s', withdraw 100 s ⟨3, 20⟩ 2 = .ok s' ∧ payoutsOf s' 2 = [⟨2, 3, 3, .refund⟩] := by
  refine ⟨_, _, rfl, rfl, ?_⟩
  have hreach := reachable_run 100 _ (refundedRun.take 5) (.deployed ⟨1, 0⟩ 9 investorLedger _ rfl)
  have hspends : Spends plainToken 100 := fun l b n hn => ⟨_, if_pos hn⟩
  obtain hpaid | hpays := refund_never_stuck (t := 2) (m := ⟨3, 20⟩) hreach rfl hspends (by decide) (by decide)
  · exact absurd hpaid (by decide)
  · exact hpays

end IpoEscrow
