import VistaBlox.IpoEscrow

/-!
# What a successful escrow call has done

One inversion theorem for each entry point: the checks that passed and the state that
resulted. Later arguments never unfold a call again.
-/
namespace IpoEscrow

open Evm
open Function (update)

variable {eurc : Erc20}

section Emit

variable (s : State eurc) (e : Event)

@[simp] theorem emit_campaigns : (s.emit e).campaigns = s.campaigns := rfl
@[simp] theorem emit_contributions : (s.emit e).contributions = s.contributions := rfl
@[simp] theorem emit_contributorsList : (s.emit e).contributorsList = s.contributorsList := rfl
@[simp] theorem emit_hasContributed : (s.emit e).hasContributed = s.hasContributed := rfl
@[simp] theorem emit_log : (s.emit e).log = s.log ++ [e] := rfl
@[simp] theorem emit_eurcLedger : (s.emit e).eurcLedger = s.eurcLedger := rfl
@[simp] theorem emit_payouts : (s.emit e).payouts = s.payouts := rfl
@[simp] theorem emit_direct : (s.emit e).direct = s.direct := rfl

end Emit

section Booking

variable (s : State eurc) (t : TokenId) (a : Address) (total owed : Nat)

@[simp] theorem book_campaigns : (s.book t a total owed).campaigns =
    update s.campaigns t { s.campaigns t with totalRaised := total } := by
  unfold State.book; split <;> rfl
@[simp] theorem book_contributions : (s.book t a total owed).contributions =
    update s.contributions t (update (s.contributions t) a owed) := by
  unfold State.book; split <;> rfl
@[simp] theorem book_log : (s.book t a total owed).log = s.log := by
  unfold State.book; split <;> rfl
@[simp] theorem book_eurcLedger : (s.book t a total owed).eurcLedger = s.eurcLedger := by
  unfold State.book; split <;> rfl
@[simp] theorem book_payouts : (s.book t a total owed).payouts = s.payouts := by
  unfold State.book; split <;> rfl
@[simp] theorem book_direct : (s.book t a total owed).direct = s.direct := by
  unfold State.book; split <;> rfl

theorem book_contributorsList : (s.book t a total owed).contributorsList =
    if s.hasContributed t a then s.contributorsList
    else update s.contributorsList t (s.contributorsList t ++ [a]) := by
  unfold State.book; split <;> rfl

theorem book_hasContributed (t' : TokenId) (b : Address) :
    (s.book t a total owed).hasContributed t' b =
      if t' = t ∧ b = a then true else s.hasContributed t' b := by
  by_cases hh : s.hasContributed t a
  · rw [State.book, if_pos hh]
    by_cases h : t' = t ∧ b = a
    · obtain ⟨rfl, rfl⟩ := h
      rw [if_pos ⟨rfl, rfl⟩]
      exact hh
    · rw [if_neg h]
      rfl
  · rw [State.book, if_neg hh]
    by_cases ht : t' = t
    · subst ht
      by_cases hb : b = a <;> simp [hb]
    · simp [ht]

end Booking

variable {escrow : Address} {m : Msg} {s : State eurc}

theorem deploy_ok (h : deploy escrow m e l = .ok s) :
    s.campaigns = (fun _ => .empty) ∧ s.contributions = (fun _ _ => 0) ∧
    s.contributorsList = (fun _ => []) ∧ s.hasContributed = (fun _ _ => false) ∧ s.log = [] ∧
    s.payouts = [] ∧ s.direct = eurc.balanceOf s.eurcLedger escrow := by
  obtain ⟨_, h⟩ := revertIf_bind_ok.mp h
  cases h
  exact ⟨rfl, rfl, rfl, rfl, rfl, rfl, rfl⟩

variable {deadline : Nat} {t : TokenId} {s' : State eurc}

theorem openCampaign_ok (h : openCampaign s m t target deadline treasury = .ok s') :
    s.access.hasRole .campaignManager m.sender = true ∧ (s.campaigns t).state = .notOpened ∧
    target ≠ 0 ∧ treasury ≠ 0 ∧ m.timestamp < deadline ∧
    s' = (s.putCampaign t ⟨target, 0, deadline, treasury, .opened, false⟩).emit
      (.campaignOpened t target deadline treasury m.sender) := by
  simp only [openCampaign, Access.onlyRole, revertIf_bind_ok, not_not, not_le, ne_eq, Bool.not_eq_false] at h
  obtain ⟨hr, hs, ht, hz, hd, h⟩ := h
  cases h
  exact ⟨hr, hs, ht, hz, hd, rfl⟩

theorem extendDeadline_ok (h : extendDeadline s m t deadline = .ok s') :
    s.access.hasRole .campaignManager m.sender = true ∧ (s.campaigns t).state = .opened ∧
    m.timestamp < deadline ∧
    s' = (s.putCampaign t { s.campaigns t with deadline := deadline }).emit
      (.deadlineExtended t deadline m.sender) := by
  simp only [extendDeadline, Access.onlyRole, revertIf_bind_ok, not_not, not_le, ne_eq, Bool.not_eq_false] at h
  obtain ⟨hr, hs, hd, h⟩ := h
  cases h
  exact ⟨hr, hs, hd, rfl⟩

theorem pull_ok (h : pull escrow s a n = .ok s') :
    ∃ l, Moved (eurc.balanceOf s.eurcLedger) (eurc.balanceOf l) a escrow n ∧
      s' = { s with eurcLedger := l } := by
  unfold pull at h
  split at h
  · cases h
  · rename_i l hl
    cases h
    exact ⟨l, eurc.transferFrom_moves _ _ _ _ _ _ hl, rfl⟩

theorem push_ok (h : push escrow s p = .ok s') :
    ∃ l, Moved (eurc.balanceOf s.eurcLedger) (eurc.balanceOf l) escrow p.recipient p.amount ∧
      s' = { s with eurcLedger := l, payouts := s.payouts ++ [p] } := by
  unfold push at h
  split at h
  · cases h
  · rename_i l hl
    cases h
    exact ⟨l, eurc.transfer_moves _ _ _ _ _ hl, rfl⟩

theorem contribute_ok (h : contribute escrow s m t amount = .ok s') :
    s.paused = false ∧ (s.campaigns t).state = .opened ∧ m.timestamp < (s.campaigns t).deadline ∧
    amount ≠ 0 ∧ (s.campaigns t).totalRaised + amount ≤ (s.campaigns t).targetAmount ∧
    ∃ l, Moved (eurc.balanceOf s.eurcLedger) (eurc.balanceOf l) m.sender escrow amount ∧
      s' = ({ s.book t m.sender ((s.campaigns t).totalRaised + amount)
          (s.contributions t m.sender + amount) with eurcLedger := l } : State eurc).emit
        (.contributed t m.sender amount ((s.campaigns t).totalRaised + amount)) := by
  simp only [contribute, whenNotPaused, revertIf_bind_ok, checkedSub_bind_ok, checkedAdd_bind_ok,
    not_not, not_lt, not_le, ne_eq, Bool.not_eq_true] at h
  obtain ⟨hp, hs, hd, hz, hle, hr, _, _, h⟩ := h
  obtain ⟨q, hq, h⟩ := bind_ok.mp h
  obtain ⟨l, hl, rfl⟩ := pull_ok hq
  cases h
  rw [book_eurcLedger] at hl
  exact ⟨hp, hs, hd, hz, by omega, l, hl, rfl⟩

theorem finalize_ok (h : finalize s m t = .ok s') :
    s.paused = false ∧ (s.campaigns t).state = .opened ∧ (s.campaigns t).deadline ≤ m.timestamp ∧
    s' = (s.putCampaign t { s.campaigns t with
        state := if (s.campaigns t).targetAmount ≤ (s.campaigns t).totalRaised then .successful
          else .failed }).emit
      (.campaignFinalized t (decide ((s.campaigns t).targetAmount ≤ (s.campaigns t).totalRaised))
        (s.campaigns t).totalRaised) := by
  simp only [finalize, whenNotPaused, revertIf_bind_ok, not_not, not_lt, ne_eq, Bool.not_eq_true,
    decide_eq_true_eq] at h
  obtain ⟨hp, hs, hd, h⟩ := h
  cases h
  exact ⟨hp, hs, hd, rfl⟩

theorem withdrawRaised_ok (h : withdrawRaised escrow s t = .ok s') :
    s.paused = false ∧ (s.campaigns t).state = .successful ∧ (s.campaigns t).swept = false ∧
    ∃ l, Moved (eurc.balanceOf s.eurcLedger) (eurc.balanceOf l) escrow (s.campaigns t).treasury
        (s.campaigns t).totalRaised ∧
      s' = ({ s.putCampaign t { s.campaigns t with swept := true } with
          eurcLedger := l
          payouts := s.payouts ++
            [⟨t, (s.campaigns t).treasury, (s.campaigns t).totalRaised, .sweep⟩] } : State eurc).emit
        (.raisedWithdrawn t (s.campaigns t).treasury (s.campaigns t).totalRaised) := by
  simp only [withdrawRaised, whenNotPaused, revertIf_bind_ok, not_not, ne_eq, Bool.not_eq_true] at h
  obtain ⟨hp, hs, hw, h⟩ := h
  obtain ⟨q, hq, h⟩ := bind_ok.mp h
  obtain ⟨l, hl, rfl⟩ := push_ok hq
  cases h
  exact ⟨hp, hs, hw, l, hl, rfl⟩

theorem withdraw_ok (h : withdraw escrow s m t = .ok s') :
    s.paused = false ∧ (s.campaigns t).state = .failed ∧ s.contributions t m.sender ≠ 0 ∧
    ∃ l, Moved (eurc.balanceOf s.eurcLedger) (eurc.balanceOf l) escrow m.sender
        (s.contributions t m.sender) ∧
      s' = ({ s with
          contributions := update s.contributions t
            (update (s.contributions t) m.sender 0)
          eurcLedger := l
          payouts := s.payouts ++
            [⟨t, m.sender, s.contributions t m.sender, .refund⟩] } : State eurc).emit
        (.contributionWithdrawn t m.sender (s.contributions t m.sender)) := by
  simp only [withdraw, whenNotPaused, revertIf_bind_ok, not_not, ne_eq, Bool.not_eq_true] at h
  obtain ⟨hp, hs, hz, h⟩ := h
  obtain ⟨q, hq, h⟩ := bind_ok.mp h
  obtain ⟨l, hl, rfl⟩ := push_ok hq
  cases h
  exact ⟨hp, hs, hz, l, hl, rfl⟩

theorem pause_ok (h : pause s m = .ok s') :
    s.access.hasRole .defaultAdmin m.sender = true ∧ s' = { s with paused := true } := by
  simp only [pause, Access.onlyRole, whenNotPaused, revertIf_bind_ok, Bool.not_eq_false] at h
  obtain ⟨hr, _, h⟩ := h
  cases h
  exact ⟨hr, rfl⟩

theorem unpause_ok (h : unpause s m = .ok s') :
    s.access.hasRole .defaultAdmin m.sender = true ∧ s' = { s with paused := false } := by
  simp only [unpause, Access.onlyRole, whenPaused, revertIf_bind_ok, Bool.not_eq_false] at h
  obtain ⟨hr, _, h⟩ := h
  cases h
  exact ⟨hr, rfl⟩

theorem changeRole_ok (h : changeRole s m c = .ok s') : ∃ access, s' = { s with access := access } := by
  obtain ⟨access, _, h⟩ := bind_ok.mp h
  cases h
  exact ⟨access, rfl⟩

theorem step_cases (escrow : Address) (s : State eurc) (e : Step eurc) :
    step escrow s e = s ∨
    (∃ m c, e = .call m c ∧ m.sender ≠ escrow ∧ exec escrow s m c = .ok (step escrow s e)) ∨
    (∃ l n, e = .eurc l ∧ eurc.balanceOf l escrow = eurc.balanceOf s.eurcLedger escrow + n ∧
      step escrow s e = { s with eurcLedger := l, direct := s.direct + n }) := by
  cases e with
  | call m c =>
    by_cases hm : m.sender = escrow
    · exact .inl (if_pos hm)
    · cases hc : exec escrow s m c with
      | ok s' =>
        have hstep : step escrow s (.call m c) = s' := by simp [step, hm, hc]
        exact .inr (.inl ⟨m, c, rfl, hm, by rw [hstep, hc]⟩)
      | error => exact .inl (by simp [step, hm, hc])
  | eurc l =>
    by_cases hl : eurc.balanceOf s.eurcLedger escrow ≤ eurc.balanceOf l escrow
    · exact .inr (.inr ⟨l, eurc.balanceOf l escrow - eurc.balanceOf s.eurcLedger escrow, rfl, by omega,
        by simp [step, hl]⟩)
    · exact .inl (by simp [step, hl])

end IpoEscrow
