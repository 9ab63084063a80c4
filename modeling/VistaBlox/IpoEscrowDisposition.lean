import VistaBlox.IpoEscrowCalls

/-!
# Where escrowed money can go

A view of one campaign: its record, what it owes and to whom, its events and payouts. The
campaign machine is the whole life of a view; the contract refines it for every token
identifier.
-/
namespace IpoEscrow

open Evm
open Function (update update_of_ne update_self)

variable {eurc : Erc20}

def Event.tokenId : Event → TokenId
  | .campaignOpened t _ _ _ _ => t
  | .deadlineExtended t _ _ => t
  | .contributed t _ _ _ => t
  | .campaignFinalized t _ _ => t
  | .raisedWithdrawn t _ _ => t
  | .contributionWithdrawn t _ _ => t

structure View where
  campaign : Campaign
  owed : Address → Nat
  contributors : List Address
  history : List Event
  paid : List Payout

def view (s : State eurc) (t : TokenId) : View :=
  ⟨s.campaigns t, s.contributions t, s.contributorsList t, s.log.filter (fun e => e.tokenId = t),
    s.payouts.filter (fun p => p.tokenId = t)⟩

/-- The amount one contribution event adds to an address's total. -/
def Event.deposit (a : Address) : Event → Nat
  | .contributed _ b n _ => if b = a then n else 0
  | _ => 0

/-- An address's total contribution to a campaign, from the campaign's events. -/
def deposited (history : List Event) (a : Address) : Nat := (history.map (Event.deposit a)).sum

@[simp] theorem deposited_append (h : List Event) :
    deposited (h ++ [e]) a = deposited h a + e.deposit a := by simp [deposited]

/-- The campaign machine, one transition for each call that concerns a campaign. -/
inductive ViewStep (t : TokenId) : View → View → Prop where
  | same (v : View) : ViewStep t v v
  | openCampaign (v : View) (target deadline : Nat) (treasury actor : Address) :
      v.campaign.state = .notOpened →
      ViewStep t v { v with
        campaign := ⟨target, 0, deadline, treasury, .opened, false⟩
        history := v.history ++ [.campaignOpened t target deadline treasury actor] }
  | extendDeadline (v : View) (deadline : Nat) (actor : Address) :
      v.campaign.state = .opened →
      ViewStep t v { v with
        campaign := { v.campaign with deadline := deadline }
        history := v.history ++ [.deadlineExtended t deadline actor] }
  | contribute (v : View) (a : Address) (n : Nat) (contributors : List Address) :
      v.campaign.state = .opened →
      ViewStep t v { v with
        campaign := { v.campaign with totalRaised := v.campaign.totalRaised + n }
        owed := update v.owed a (v.owed a + n)
        contributors := contributors
        history := v.history ++ [.contributed t a n (v.campaign.totalRaised + n)] }
  | finalize (v : View) (outcome : CampaignState) (b : Bool) :
      v.campaign.state = .opened → outcome = .successful ∨ outcome = .failed →
      ViewStep t v { v with
        campaign := { v.campaign with state := outcome }
        history := v.history ++ [.campaignFinalized t b v.campaign.totalRaised] }
  | withdrawRaised (v : View) :
      v.campaign.state = .successful → v.campaign.swept = false →
      ViewStep t v { v with
        campaign := { v.campaign with swept := true }
        history := v.history ++ [.raisedWithdrawn t v.campaign.treasury v.campaign.totalRaised]
        paid := v.paid ++ [⟨t, v.campaign.treasury, v.campaign.totalRaised, .sweep⟩] }
  | withdraw (v : View) (a : Address) :
      v.campaign.state = .failed → v.owed a ≠ 0 →
      ViewStep t v { v with
        owed := update v.owed a 0
        history := v.history ++ [.contributionWithdrawn t a (v.owed a)]
        paid := v.paid ++ [⟨t, a, v.owed a, .refund⟩] }

variable {t : TokenId} {v v' : View}

theorem ViewStep.of_eq (h : v' = v) : ViewStep t v v' := by
  subst h; exact .same _

variable {c : Call} {escrow : Address} {m : Msg} {s s' : State eurc}

/-- What a call can do to the view of one campaign. -/
theorem exec_view (h : exec escrow s m c = .ok s') (t : TokenId) : ViewStep t (view s t) (view s' t) := by
  cases c with
  | openCampaign t' target deadline treasury =>
    obtain ⟨_, hstate, _, _, _, rfl⟩ := openCampaign_ok h
    by_cases ht : t' = t
    · subst ht
      simpa [view, State.putCampaign, Event.tokenId] using
        ViewStep.openCampaign (view s t') target deadline treasury m.sender hstate
    · exact .of_eq (by simp [view, State.putCampaign, Event.tokenId, ht, Ne.symm ht])
  | extendDeadline t' deadline =>
    obtain ⟨_, hstate, _, rfl⟩ := extendDeadline_ok h
    by_cases ht : t' = t
    · subst ht
      simpa [view, State.putCampaign, Event.tokenId] using
        ViewStep.extendDeadline (view s t') deadline m.sender hstate
    · exact .of_eq (by simp [view, State.putCampaign, Event.tokenId, ht, Ne.symm ht])
  | contribute t' amount =>
    obtain ⟨_, hstate, _, _, _, l, _, rfl⟩ := contribute_ok h
    by_cases ht : t' = t
    · subst ht
      simpa [view, Event.tokenId] using ViewStep.contribute (view s t') m.sender amount
        ((s.book t' m.sender ((s.campaigns t').totalRaised + amount)
          (s.contributions t' m.sender + amount)).contributorsList t') hstate
    · have hlist : (s.book t' m.sender ((s.campaigns t').totalRaised + amount)
          (s.contributions t' m.sender + amount)).contributorsList t = s.contributorsList t := by
        rw [book_contributorsList]
        split <;> simp [Ne.symm ht]
      exact .of_eq (by simp [view, Event.tokenId, ht, Ne.symm ht, hlist])
  | finalize t' =>
    obtain ⟨_, hstate, _, rfl⟩ := finalize_ok h
    by_cases ht : t' = t
    · subst ht
      have hout : (if (s.campaigns t').targetAmount ≤ (s.campaigns t').totalRaised then CampaignState.successful
          else CampaignState.failed) = .successful ∨
          (if (s.campaigns t').targetAmount ≤ (s.campaigns t').totalRaised then CampaignState.successful
          else CampaignState.failed) = .failed := by split <;> simp
      simpa [view, State.putCampaign, Event.tokenId] using ViewStep.finalize (view s t') _
        (decide ((s.campaigns t').targetAmount ≤ (s.campaigns t').totalRaised)) hstate hout
    · exact .of_eq (by simp [view, State.putCampaign, Event.tokenId, ht, Ne.symm ht])
  | withdrawRaised t' =>
    obtain ⟨_, hstate, hswept, l, _, rfl⟩ := withdrawRaised_ok h
    by_cases ht : t' = t
    · subst ht
      simpa [view, State.putCampaign, Event.tokenId] using ViewStep.withdrawRaised (view s t') hstate hswept
    · exact .of_eq (by simp [view, State.putCampaign, Event.tokenId, ht, Ne.symm ht])
  | withdraw t' =>
    obtain ⟨_, hstate, hpos, l, _, rfl⟩ := withdraw_ok h
    by_cases ht : t' = t
    · subst ht
      simpa [view, Event.tokenId] using ViewStep.withdraw (view s t') m.sender hstate hpos
    · exact .of_eq (by simp [view, Event.tokenId, ht, Ne.symm ht])
  | pause => obtain ⟨_, rfl⟩ := pause_ok h; exact .same _
  | unpause => obtain ⟨_, rfl⟩ := unpause_ok h; exact .same _
  | role => obtain ⟨_, rfl⟩ := changeRole_ok h; exact .same _

theorem exec_swept (h : exec escrow s m c = .ok s') (hs : (s'.campaigns t).swept = true) :
    (s.campaigns t).swept = true ∨ c = .withdrawRaised t := by
  have hput : ∀ {t' : TokenId} {new : Campaign}, (update s.campaigns t' new t).swept = true →
      new.swept = false ∨ new.swept = (s.campaigns t').swept → (s.campaigns t).swept = true := by
    intro t' new hswept hnew
    by_cases ht : t = t'
    · subst ht
      rw [update_self] at hswept
      obtain hnew | hnew := hnew
      · rw [hnew] at hswept
        cases hswept
      · rwa [← hnew]
    · rwa [update_of_ne ht] at hswept
  cases c with
  | openCampaign =>
    obtain ⟨_, _, _, _, _, rfl⟩ := openCampaign_ok h
    exact .inl (hput hs (.inl rfl))
  | extendDeadline =>
    obtain ⟨_, _, _, rfl⟩ := extendDeadline_ok h
    exact .inl (hput hs (.inr rfl))
  | contribute =>
    obtain ⟨_, _, _, _, _, l, _, rfl⟩ := contribute_ok h
    rw [emit_campaigns, book_campaigns] at hs
    exact .inl (hput hs (.inr rfl))
  | finalize =>
    obtain ⟨_, _, _, rfl⟩ := finalize_ok h
    exact .inl (hput hs (.inr rfl))
  | withdrawRaised t' =>
    by_cases ht : t' = t
    · exact .inr (ht ▸ rfl)
    · obtain ⟨_, _, _, l, _, rfl⟩ := withdrawRaised_ok h
      exact .inl (by simpa [State.putCampaign, Ne.symm ht] using hs)
  | withdraw =>
    obtain ⟨_, _, _, l, _, rfl⟩ := withdraw_ok h
    exact .inl (by simpa using hs)
  | pause => obtain ⟨_, rfl⟩ := pause_ok h; exact .inl hs
  | unpause => obtain ⟨_, rfl⟩ := unpause_ok h; exact .inl hs
  | role => obtain ⟨_, rfl⟩ := changeRole_ok h; exact .inl hs

theorem step_view (escrow : Address) (s : State eurc) (e : Step eurc) (t : TokenId) :
    ViewStep t (view s t) (view (step escrow s e) t) := by
  obtain hsame | ⟨m, c, _, _, hc⟩ | ⟨l, n, _, _, hs⟩ := step_cases escrow s e
  · exact .of_eq (by rw [hsame])
  · exact exec_view hc t
  · exact .of_eq (by rw [hs]; rfl)

/-- The only dispositions of a campaign's money, with the facts that keep them so. -/
structure Disposed (t : TokenId) (v : View) : Prop where
  unresolved : v.campaign.state = .notOpened ∨ v.campaign.state = .opened → v.paid = []
  swept : v.campaign.state = .successful →
    v.paid = if v.campaign.swept then [⟨t, v.campaign.treasury, v.campaign.totalRaised, .sweep⟩] else []
  unswept : v.campaign.state ≠ .successful → v.campaign.swept = false
  refunds : v.campaign.state = .failed → ∀ p ∈ v.paid,
    p.kind = .refund ∧ p.amount = deposited v.history p.recipient ∧ v.owed p.recipient = 0
  once : (v.paid.map Payout.recipient).Nodup
  owed : ∀ a, (v.campaign.state = .failed → a ∉ v.paid.map Payout.recipient) → v.owed a = deposited v.history a
  treasury : ∀ target deadline treasury actor,
    Event.campaignOpened t target deadline treasury actor ∈ v.history →
      v.campaign.state ≠ .notOpened ∧ v.campaign.treasury = treasury
  opened : v.campaign.state ≠ .notOpened → ∃ target deadline actor,
    Event.campaignOpened t target deadline v.campaign.treasury actor ∈ v.history

/-- What a step may do to a campaign: its treasury is fixed once opened, its
outcome is final once set, and with the outcome so is the amount raised. -/
structure Fixed (c c' : Campaign) : Prop where
  opened : c.state ≠ .notOpened → c'.state ≠ .notOpened ∧ c'.treasury = c.treasury
  successful : c.state = .successful → c'.state = .successful ∧ c'.totalRaised = c.totalRaised
  failed : c.state = .failed → c' = c

theorem Fixed.refl (c : Campaign) : Fixed c c := ⟨fun h => ⟨h, rfl⟩, fun h => ⟨h, rfl⟩, fun _ => rfl⟩

theorem Fixed.trans {a b c : Campaign} (h : Fixed a b) (h' : Fixed b c) : Fixed a c where
  opened ho := ⟨(h'.opened (h.opened ho).1).1, (h'.opened (h.opened ho).1).2.trans (h.opened ho).2⟩
  successful hs := by
    obtain ⟨h₁, h₂⟩ := h.successful hs
    obtain ⟨h₃, h₄⟩ := h'.successful h₁
    exact ⟨h₃, h₄.trans h₂⟩
  failed hf := by
    have hb := h.failed hf
    exact (h'.failed (hb ▸ hf)).trans hb

theorem ViewStep.fixed (h : ViewStep t v v') : Fixed v.campaign v'.campaign := by
  cases h with
  | finalize outcome b hstate hout =>
    constructor <;> simp [hstate]
    rcases hout with rfl | rfl <;> simp
  | _ => constructor <;> simp_all

theorem ViewStep.frozen (h : ViewStep t v v') (hs : v.campaign.state = .successful) :
    v'.campaign.state = .successful ∧ v'.owed = v.owed ∧ v'.contributors = v.contributors := by
  cases h <;> simp_all

theorem disposed_deployed (h : deploy escrow m e l = .ok s) : Disposed t (view s t) := by
  obtain ⟨hc, hn, _, _, hg, hp, _⟩ := deploy_ok h
  constructor <;> simp [view, hc, hn, hg, hp, Campaign.empty, deposited]

theorem Disposed.owed_of_not_failed (h : Disposed t v) (hv : v.campaign.state ≠ .failed) (a : Address) :
    v.owed a = deposited v.history a :=
  h.owed a fun hf => absurd hf hv

/-- Every step keeps the payouts those of the campaign's state. -/
theorem Disposed.step (h : Disposed t v) (hs : ViewStep t v v') : Disposed t v' := by
  cases hs with
  | same => exact h
  | openCampaign target deadline treasury actor hstate =>
    have hpaid := h.unresolved (.inl hstate)
    have howed := h.owed_of_not_failed (by simp [hstate])
    have hnew := fun a b c d hm => (h.treasury a b c d hm).1 hstate
    constructor <;> simp_all [Event.deposit]
  | extendDeadline deadline actor hstate =>
    have hpaid := h.unresolved (.inr hstate)
    have howed := h.owed_of_not_failed (by simp [hstate])
    have hswept := h.unswept (by simp [hstate])
    exact ⟨by simp [hpaid], by simp [hstate], by simp [hswept], by simp [hstate], by simp [hpaid],
      by simpa [Event.deposit] using fun a _ => howed a, by simpa using h.treasury, by simpa using h.opened⟩
  | contribute a n _ hstate =>
    have hpaid := h.unresolved (.inr hstate)
    have howed := h.owed_of_not_failed (by simp [hstate])
    have hswept := h.unswept (by simp [hstate])
    refine ⟨by simp [hpaid], by simp [hstate], by simp [hswept], by simp [hstate], by simp [hpaid],
      fun b _ => ?_, by simpa using h.treasury, by simpa using h.opened⟩
    by_cases hb : b = a
    · subst hb; simp [Event.deposit, howed]
    · simp [Event.deposit, howed, hb, Ne.symm hb]
  | finalize outcome b hstate hout =>
    have hpaid := h.unresolved (.inr hstate)
    have howed := h.owed_of_not_failed (by simp [hstate])
    have hswept := h.unswept (by simp [hstate])
    have hopened : outcome ≠ .notOpened := by rcases hout with rfl | rfl <;> simp
    exact ⟨by simp [hpaid], by simp [hpaid, hswept], by simp [hswept], by simp [hpaid], by simp [hpaid],
      by simpa [Event.deposit] using fun a _ => howed a,
      by simpa [hopened] using fun a b c d hm => (h.treasury a b c d hm).2,
      by simpa [hopened, hstate] using h.opened⟩
  | withdrawRaised hstate hswept =>
    have hpaid : v.paid = [] := by simpa [hswept] using h.swept hstate
    have howed := h.owed_of_not_failed (by simp [hstate])
    exact ⟨by simp [hstate], by simp [hpaid], by simp [hstate], by simp [hstate], by simp [hpaid],
      by simpa [Event.deposit, hstate] using howed, by simpa using h.treasury, by simpa using h.opened⟩
  | withdraw a hstate hpos =>
    have hfresh : a ∉ v.paid.map Payout.recipient := by
      intro hm
      obtain ⟨p, hp, rfl⟩ := List.mem_map.mp hm
      exact hpos (h.refunds hstate p hp).2.2
    have howed := h.owed a fun _ => hfresh
    refine ⟨by simp [hstate], by simp [hstate], by simpa [hstate] using h.unswept, fun _ p hp => ?_, ?_,
      fun b hb => ?_, by simpa using h.treasury, by simpa using h.opened⟩
    · obtain hp | rfl := by simpa using hp
      · obtain ⟨hkind, hamount, hzero⟩ := h.refunds hstate p hp
        have hne : p.recipient ≠ a := fun he => hfresh (he ▸ List.mem_map_of_mem hp)
        exact ⟨hkind, by simpa [Event.deposit] using hamount, by simpa [hne] using hzero⟩
      · simpa [Event.deposit] using howed
    · simpa [List.nodup_append] using ⟨h.once, by simpa using hfresh⟩
    · obtain ⟨hb₁, hb₂⟩ : b ∉ v.paid.map Payout.recipient ∧ b ≠ a := by simpa [hstate] using hb
      simpa [Event.deposit, hb₂] using h.owed b fun _ => hb₁

/-- The payouts are those of the campaign's state in every run. -/
theorem disposed_reachable (h : Reachable escrow s) (t : TokenId) : Disposed t (view s t) := by
  induction h with
  | deployed m e l s h => exact disposed_deployed h
  | step s e _ ih => exact ih.step (step_view escrow s e t)

/-- What is decided about a campaign stays decided. -/
theorem fixed_run (escrow : Address) (s : State eurc) (steps : List (Step eurc)) (t : TokenId) :
    Fixed (campaignOf s t) (campaignOf (run escrow s steps) t) := by
  induction steps generalizing s with
  | nil => exact .refl _
  | cons e steps ih => exact (step_view escrow s e t).fixed.trans (ih (step escrow s e))

/-- The calls only an administrator or a campaign manager can make. -/
def Call.privileged : Call → Bool
  | .openCampaign .. | .extendDeadline .. | .pause | .unpause | .role _ => true
  | .contribute .. | .finalize _ | .withdrawRaised _ | .withdraw _ => false

theorem privileged_neutral (hc : c.privileged = true) (h : exec escrow s m c = .ok s') :
    s'.payouts = s.payouts ∧ s'.contributions = s.contributions ∧
    ∀ t, (campaignOf s t).state ≠ .notOpened →
      (campaignOf s' t).treasury = (campaignOf s t).treasury ∧
      (campaignOf s' t).totalRaised = (campaignOf s t).totalRaised ∧
      (campaignOf s' t).state = (campaignOf s t).state ∧ (campaignOf s' t).swept = (campaignOf s t).swept := by
  cases c with
  | openCampaign t' =>
    obtain ⟨_, hstate, _, _, _, rfl⟩ := openCampaign_ok h
    refine ⟨rfl, rfl, fun t ht => ?_⟩
    have hne : t ≠ t' := fun he => ht (he ▸ hstate)
    simp [campaignOf, State.putCampaign, hne]
  | extendDeadline t' =>
    obtain ⟨_, hstate, _, rfl⟩ := extendDeadline_ok h
    refine ⟨rfl, rfl, fun t _ => ?_⟩
    by_cases ht : t = t'
    · subst ht; simp [campaignOf, State.putCampaign]
    · simp [campaignOf, State.putCampaign, ht]
  | pause => obtain ⟨_, rfl⟩ := pause_ok h; simp [campaignOf]
  | unpause => obtain ⟨_, rfl⟩ := unpause_ok h; simp [campaignOf]
  | role => obtain ⟨_, rfl⟩ := changeRole_ok h; simp [campaignOf]
  | contribute | finalize | withdrawRaised | withdraw => simp [Call.privileged] at hc

theorem payouts_step (escrow : Address) (s : State eurc) (e : Step eurc) :
    ((step escrow s e).payouts = s.payouts ∧
      eurc.balanceOf s.eurcLedger escrow ≤ eurc.balanceOf (step escrow s e).eurcLedger escrow) ∨
    ∃ p, (step escrow s e).payouts = s.payouts ++ [p] ∧ (p.recipient ≠ escrow →
      eurc.balanceOf s.eurcLedger escrow = eurc.balanceOf (step escrow s e).eurcLedger escrow + p.amount) := by
  obtain hsame | ⟨m, c, _, hm, hc⟩ | ⟨l, n, _, hl, hs⟩ := step_cases escrow s e
  · exact .inl (by simp [hsame])
  · generalize step escrow s e = s' at hc ⊢
    cases c with
    | openCampaign => obtain ⟨_, _, _, _, _, rfl⟩ := openCampaign_ok hc; exact .inl ⟨rfl, le_rfl⟩
    | extendDeadline => obtain ⟨_, _, _, rfl⟩ := extendDeadline_ok hc; exact .inl ⟨rfl, le_rfl⟩
    | contribute =>
      obtain ⟨_, _, _, _, _, l, hl, rfl⟩ := contribute_ok hc
      exact .inl ⟨by simp, by simp [hl.credit hm]⟩
    | finalize => obtain ⟨_, _, _, rfl⟩ := finalize_ok hc; exact .inl ⟨rfl, le_rfl⟩
    | withdrawRaised =>
      obtain ⟨_, _, _, l, hl, rfl⟩ := withdrawRaised_ok hc
      exact .inr ⟨_, rfl, fun ht => (hl.debit (Ne.symm ht)).symm⟩
    | withdraw =>
      obtain ⟨_, _, _, l, hl, rfl⟩ := withdraw_ok hc
      exact .inr ⟨_, rfl, fun ht => (hl.debit (Ne.symm ht)).symm⟩
    | pause => obtain ⟨_, rfl⟩ := pause_ok hc; exact .inl ⟨rfl, le_rfl⟩
    | unpause => obtain ⟨_, rfl⟩ := unpause_ok hc; exact .inl ⟨rfl, le_rfl⟩
    | role => obtain ⟨_, rfl⟩ := changeRole_ok hc; exact .inl ⟨rfl, le_rfl⟩
  · exact .inl ⟨by rw [hs], by rw [hs]; simp [hl]⟩

/-- The payouts made so far on behalf of a campaign. -/
def payoutsOf (s : State eurc) (t : TokenId) : List Payout := (view s t).paid

/-- Everything an address ever contributed to a campaign, refunded or not. -/
def totalContribution (s : State eurc) (t : TokenId) (a : Address) : Nat := deposited (view s t).history a

theorem Disposed.cases (h : Disposed t v) :
    v.paid = [] ∨
    (v.campaign.state = .successful ∧
      v.paid = [⟨t, v.campaign.treasury, v.campaign.totalRaised, .sweep⟩]) ∨
    (v.campaign.state = .failed ∧ (v.paid.map Payout.recipient).Nodup ∧
      ∀ p ∈ v.paid, p.kind = .refund ∧ p.amount = deposited v.history p.recipient) := by
  cases hstate : v.campaign.state with
  | notOpened => exact .inl (h.unresolved (.inl hstate))
  | opened => exact .inl (h.unresolved (.inr hstate))
  | successful =>
    have hpaid := h.swept hstate
    by_cases hswept : v.campaign.swept
    · exact .inr (.inl ⟨rfl, by simpa [hswept] using hpaid⟩)
    · exact .inl (by simpa [hswept] using hpaid)
  | failed =>
    exact .inr (.inr ⟨rfl, h.once, fun p hp => ⟨(h.refunds hstate p hp).1, (h.refunds hstate p hp).2.1⟩⟩)

/-- In every state of the contract's life: a campaign has paid nothing, or its
total once to the treasury it was opened with, or refunds of whole contributions;
what it has become it stays; and privileged calls move neither money nor its
destination. -/
theorem escrow_disposition (escrow : Address) (s : State eurc) (h : Reachable escrow s) :
    (∀ t, payoutsOf s t = [] ∨
      ((campaignOf s t).state = .successful ∧ ∃ treasury,
        (∃ target deadline actor, .campaignOpened t target deadline treasury actor ∈ s.log) ∧
        (∀ target deadline treasury' actor, .campaignOpened t target deadline treasury' actor ∈ s.log →
          treasury' = treasury) ∧
        payoutsOf s t = [⟨t, treasury, (campaignOf s t).totalRaised, .sweep⟩]) ∨
      ((campaignOf s t).state = .failed ∧ ((payoutsOf s t).map Payout.recipient).Nodup ∧
        ∀ p ∈ payoutsOf s t, p.kind = .refund ∧ p.amount = totalContribution s t p.recipient)) ∧
    (∀ t, ¬∃ p ∈ payoutsOf s t, ∃ q ∈ payoutsOf s t, p.kind = .sweep ∧ q.kind = .refund) ∧
    (∀ t steps, (campaignOf s t).state = .successful ∨ (campaignOf s t).state = .failed →
      (campaignOf (run escrow s steps) t).state = (campaignOf s t).state) ∧
    (∀ e, ((step escrow s e).payouts = s.payouts ∧
        eurc.balanceOf s.eurcLedger escrow ≤ eurc.balanceOf (step escrow s e).eurcLedger escrow) ∨
      ∃ p, (step escrow s e).payouts = s.payouts ++ [p] ∧ (p.recipient ≠ escrow →
        eurc.balanceOf s.eurcLedger escrow =
          eurc.balanceOf (step escrow s e).eurcLedger escrow + p.amount)) ∧
    (∀ m c s', c.privileged = true → exec escrow s m c = .ok s' →
      s'.payouts = s.payouts ∧ s'.contributions = s.contributions ∧
      ∀ t, (campaignOf s t).state ≠ .notOpened →
        (campaignOf s' t).treasury = (campaignOf s t).treasury ∧
        (campaignOf s' t).totalRaised = (campaignOf s t).totalRaised ∧
        (campaignOf s' t).state = (campaignOf s t).state ∧
        (campaignOf s' t).swept = (campaignOf s t).swept) := by
  have hd := fun t => disposed_reachable h t
  refine ⟨fun t => ?_, fun t => ?_, fun t steps ho => ?_, payouts_step escrow s,
    fun m c s' hc he => privileged_neutral hc he⟩
  · obtain hnone | ⟨hstate, hpaid⟩ | hrefunds := (hd t).cases
    · exact .inl hnone
    · obtain ⟨target, deadline, actor, hm⟩ := (hd t).opened (by simp [hstate])
      refine .inr (.inl ⟨hstate, _, ⟨target, deadline, actor, (List.mem_filter.mp hm).1⟩, ?_, hpaid⟩)
      intro target' deadline' treasury' actor' hm'
      exact ((hd t).treasury _ _ _ _ (List.mem_filter.mpr ⟨hm', by simp [Event.tokenId]⟩)).2.symm
    · exact .inr (.inr hrefunds)
  · rintro ⟨p, hp, q, hq, hsweep, hrefund⟩
    obtain hnone | ⟨_, hpaid⟩ | ⟨_, _, hall⟩ := (hd t).cases
    · simp [payoutsOf, hnone] at hp
    · simp only [payoutsOf, hpaid, List.mem_singleton] at hq
      simp [hq] at hrefund
    · simp [(hall p hp).1] at hsweep
  · have hfixed := fixed_run escrow s steps t
    rcases ho with ho | ho
    · rw [(hfixed.successful ho).1, ho]
    · rw [hfixed.failed ho]

/-- Campaign 2 misses its target and its only contributor takes the money back. -/
def refundedRun : List (Step plainToken) :=
  [.call ⟨1, 0⟩ (.role (.grantRole .campaignManager 2)),
   .call ⟨2, 1⟩ (.openCampaign 2 5 10 4),
   .call ⟨3, 2⟩ (.contribute 2 1),
   .call ⟨3, 3⟩ (.contribute 2 2),
   .call ⟨3, 10⟩ (.finalize 2),
   .call ⟨3, 11⟩ (.withdraw 2)]

theorem escrow_disposition_refunded :
    ∃ s₀ s : State plainToken,
      deploy 100 ⟨1, 0⟩ 9 (update (fun _ => 0) 3 7 : Address → Nat) = .ok s₀ ∧
      s = run 100 s₀ refundedRun ∧ payoutsOf s 2 = [⟨2, 3, 3, .refund⟩] ∧
      totalContribution s 2 3 = 3 ∧
      ∀ steps, (campaignOf (run 100 s steps) 2).state = .failed := by
  refine ⟨_, _, rfl, rfl, by decide, by decide, fun steps => ?_⟩
  exact (escrow_disposition 100 _ (reachable_run 100 _ refundedRun (.deployed ⟨1, 0⟩ 9 _ _ rfl))).2.2.1
    2 steps (.inr (by decide))

end IpoEscrow
