import VistaBlox.PropertySupply

/-!
# Freezes and closed ownership

While a token identifier or the contract is paused nothing moves its balances or supply.
Only an authorized holder is credited, and only minters, burners and transfer agents move
balances.
-/
namespace PropertyToken

open Evm

section Flags

variable {s s' : State} {m : Msg} {c : Call} {id : TokenId}

/-- No call moves a paused token. -/
theorem exec_frozen (h : exec s m c = .ok s') (hp : s.tokenPaused id = true ∨ s.paused = true) :
    s'.balances id = s.balances id ∧ s'.totalSupply id = s.totalSupply id := by
  obtain ⟨_, hb, ht, _⟩ | ⟨src, dst, id', n, s₁, _, hu, hb, ht, _⟩ := (exec_cases h).2
  · rw [hb, ht]
    exact ⟨rfl, rfl⟩
  · obtain ⟨hpaused, htoken, _, _, _, all, rfl⟩ := update_ok hu
    have hne : id ≠ id' := by
      rintro rfl
      rcases hp with hp | hp
      · rw [htoken] at hp
        cases hp
      · rw [hpaused] at hp
        cases hp
    rw [hb, ht]
    simp [hne]

theorem tokenPaused_kept (h : exec s m c = .ok s') (hc : c ≠ .unpauseToken id) (hp : s.tokenPaused id = true) :
    s'.tokenPaused id = true := by
  rw [(exec_cases h).1.1]
  unfold Call.tokenPausedAfter
  split
  · rename_i id'
    by_cases hid : id = id'
    · simp [hid]
    · simp [hid, hp]
  · rename_i id'
    have hid : id ≠ id' := fun heq => hc (by rw [heq])
    simp [hid, hp]
  · exact hp

theorem paused_kept (h : exec s m c = .ok s') (hc : c ≠ .unpause) (hp : s.paused = true) : s'.paused = true := by
  rw [(exec_cases h).1.2]
  unfold Call.pausedAfter
  split
  · rfl
  · exact absurd rfl hc
  · exact hp

end Flags

variable {P : State → Msg → Call → State → Prop} {id : TokenId} {rest : List (Msg × Call)} {s : State}

theorem EveryCall.keeps {I : State → Prop} (hkeep : ∀ s m c s', I s → exec s m c = .ok s' → P s m c s' → I s')
    {calls : List (Msg × Call)} (h : EveryCall P s calls) (hs : I s) : I (run s calls) := by
  induction calls generalizing s with
  | nil => exact hs
  | cons mc rest ih =>
    obtain ⟨m, c⟩ := mc
    obtain ⟨hcall, hrest⟩ := h
    refine ih hrest ?_
    change I (PropertyToken.step s m c)
    unfold PropertyToken.step
    split
    · rename_i s' hexec
      exact hkeep s m c s' hs hexec (hcall s' hexec)
    · exact hs

theorem everyCall_of_exec (h : ∀ s m c s', exec s m c = .ok s' → P s m c s') (s : State) (calls : List (Msg × Call)) :
    EveryCall P s calls := by
  induction calls generalizing s with
  | nil => trivial
  | cons mc rest ih => exact ⟨fun s' => h s mc.1 mc.2 s', ih (PropertyToken.step s mc.1 mc.2)⟩

theorem Tracked.run (hs : Tracked s) (calls : List (Msg × Call)) : Tracked (run s calls) := by
  induction calls generalizing s with
  | nil => exact hs
  | cons mc rest ih => exact ih (hs.step mc.1 mc.2)

theorem token_frozen (hp : s.tokenPaused id = true) (h : EveryCall (fun _ _ c _ => c ≠ .unpauseToken id) s rest) :
    (run s rest).balances id = s.balances id ∧ (run s rest).totalSupply id = s.totalSupply id := by
  have hkept := h.keeps (I := fun x => x.tokenPaused id = true ∧ x.balances id = s.balances id ∧
    x.totalSupply id = s.totalSupply id) ?_ ⟨hp, rfl, rfl⟩
  · exact hkept.2
  · intro x m c x' ⟨hx, hb, ht⟩ hexec hc
    obtain ⟨hb', ht'⟩ := exec_frozen hexec (.inl hx)
    exact ⟨tokenPaused_kept hexec hc hx, hb'.trans hb, ht'.trans ht⟩

theorem contract_frozen (hp : s.paused = true) (h : EveryCall (fun _ _ c _ => c ≠ .unpause) s rest) (id : TokenId) :
    (run s rest).balances id = s.balances id ∧ (run s rest).totalSupply id = s.totalSupply id := by
  have hkept := h.keeps (I := fun x => x.paused = true ∧ x.balances id = s.balances id ∧
    x.totalSupply id = s.totalSupply id) ?_ ⟨hp, rfl, rfl⟩
  · exact hkept.2
  · intro x m c x' ⟨hx, hb, ht⟩ hexec hc
    obtain ⟨hb', ht'⟩ := exec_frozen hexec (.inr hx)
    exact ⟨paused_kept hexec hc hx, hb'.trans hb, ht'.trans ht⟩

variable {dst : Address} {n : Nat}

section Ownership

/-- Whoever is credited is authorized at that moment. -/
def CreditsAuthorized (s : State) (_ : Msg) (_ : Call) (s' : State) : Prop :=
  ∀ a id, balanceOf s a id < balanceOf s' a id → isHolderAuthorized s a id = true

/-- An account without one of the three roles moves nothing. -/
def MovedByRole (s : State) (m : Msg) (_ : Call) (s' : State) : Prop :=
  s.access.hasRole .minter m.sender = false → s.access.hasRole .burner m.sender = false →
    s.access.hasRole .transferAgent m.sender = false → s'.balances = s.balances

variable {s' : State} {m : Msg} {c : Call}

theorem debit_le (b : Address → Nat) (src : Address) (n : Nat) (a : Address) : debit b src n a ≤ b a := by
  unfold debit
  split
  · exact le_rfl
  · by_cases ha : a = src
    · simp [ha]
    · simp [ha]

theorem credit_ne (h : a ≠ dst) : credit b dst n a = b a := by
  unfold credit
  split
  · rfl
  · simp [h]

theorem creditsAuthorized_of_exec (h : exec s m c = .ok s') : CreditsAuthorized s m c s' := by
  intro a id hlt
  unfold balanceOf at hlt
  obtain ⟨_, hb, _⟩ | ⟨src, dst, id', n, s₁, _, hu, hb, _⟩ := (exec_cases h).2
  · rw [hb] at hlt
    omega
  · obtain ⟨_, _, hauth, _, _, all, rfl⟩ := update_ok hu
    rw [hb] at hlt
    by_cases hid : id = id'
    · subst hid
      have hle := debit_le (s.balances id) src n a
      simp only [Function.update_self] at hlt
      by_cases hdst : a = dst
      · subst hdst
        refine hauth fun hzero => ?_
        rw [credit, if_pos hzero] at hlt
        omega
      · rw [credit_ne hdst] at hlt
        omega
    · simp only [Function.update_of_ne hid] at hlt
      omega

theorem forceTransfer_role (h : forceTransfer s m src dst id n reason = .ok s') :
    s.access.hasRole .transferAgent m.sender = true := by
  simp only [forceTransfer, Access.onlyRole, revertIf_bind_ok, Bool.not_eq_false] at h
  exact h.1

theorem movedByRole_of_exec (h : exec s m c = .ok s') : MovedByRole s m c s' := by
  intro hminter hburner hagent
  obtain ⟨_, hb, _⟩ | ⟨src, dst, id, n, s₁, hc, _⟩ := (exec_cases h).2
  · exact hb
  · cases c with
    | mint => exact absurd (mint_role h).1 (by simp [hminter])
    | burn => exact absurd (burn_role h).1 (by simp [hburner])
    | forceTransfer => exact absurd (forceTransfer_role h) (by simp [hagent])
    | _ => cases hc

/-- The deployed contract with any assignment of roles. -/
def deployedWith (roles : Access Role) (deployer : Msg) : State := { deploy deployer with access := roles }

theorem tracked_deployedWith : Tracked (deployedWith roles deployer) :=
  ⟨(tracked_deployed deployer).sum, (tracked_deployed deployer).bound⟩

/-- Along every run by any callers, with any roles: the supply of a token
identifier is the sum of its balances; between a pause and the next unpause, of
the token identifier or of the contract, neither changes; whoever is credited is
authorized; and a caller with none of the three roles moves nothing. -/
theorem freezes_and_closed_ownership (roles : Access Role) (deployer : Msg) (calls : List (Msg × Call)) :
    (∀ id, ∑ a, balanceOf (run (deployedWith roles deployer) calls) a id =
      (run (deployedWith roles deployer) calls).totalSupply id) ∧
    (∀ m id s rest, exec (run (deployedWith roles deployer) calls) m (.pauseToken id) = .ok s →
      EveryCall (fun _ _ c _ => c ≠ .unpauseToken id) s rest →
        (run s rest).balances id = s.balances id ∧ (run s rest).totalSupply id = s.totalSupply id) ∧
    (∀ m s rest, exec (run (deployedWith roles deployer) calls) m .pause = .ok s →
      EveryCall (fun _ _ c _ => c ≠ .unpause) s rest →
        ∀ id, (run s rest).balances id = s.balances id ∧ (run s rest).totalSupply id = s.totalSupply id) ∧
    EveryCall CreditsAuthorized (deployedWith roles deployer) calls ∧
    EveryCall MovedByRole (deployedWith roles deployer) calls := by
  refine ⟨?_, ?_, ?_, ?_, ?_⟩
  · exact (tracked_deployedWith.run calls).sum
  · intro m id s rest hpause hrest
    refine token_frozen ?_ hrest
    rw [(exec_cases hpause).1.1]
    simp [Call.tokenPausedAfter]
  · intro m s rest hpause hrest
    exact contract_frozen (exec_cases hpause).1.2 hrest
  · exact everyCall_of_exec (fun _ _ _ _ => creditsAuthorized_of_exec) _ calls
  · exact everyCall_of_exec (fun _ _ _ _ => movedByRole_of_exec) _ calls

end Ownership

/-- The balances after an event, for somebody who sees the events only. -/
def register (balances : TokenId → Address → Nat) (e : Event) : TokenId → Address → Nat :=
  match e.transfer with
  | some (src, dst, id, n) => Function.update balances id (credit (debit (balances id) src n) dst n)
  | none => balances

theorem register_silent {events : List Event} (h : ∀ e ∈ events, e.transfer = none)
    (balances : TokenId → Address → Nat) : events.foldl register balances = balances := by
  induction events with
  | nil => rfl
  | cons e events ih =>
    rw [List.foldl_cons, register, h e List.mem_cons_self]
    exact ih fun e he => h e (List.mem_cons_of_mem _ he)

theorem exec_register (h : exec s m c = .ok s') :
    ∃ events, s'.log = s.log ++ events ∧ events.foldl register s.balances = s'.balances := by
  obtain ⟨_, hb, _, l, hl, hnone⟩ | ⟨src, dst, id, n, s₁, _, hu, hb, _, l, hl, hnone⟩ := (exec_cases h).2
  · exact ⟨l, hl, by rw [register_silent hnone, hb]⟩
  · obtain ⟨_, _, _, _, _, all, rfl⟩ := update_ok hu
    refine ⟨.transferSingle m.sender src dst id n :: l, by simp [hl], ?_⟩
    rw [List.foldl_cons, register_silent hnone, hb]
    rfl

/-- The events of any run are the register of the holders. -/
theorem log_rebuilds_balances (roles : Access Role) (deployer : Msg) (calls : List (Msg × Call)) :
    (run (deployedWith roles deployer) calls).log.foldl register (fun _ _ => 0) =
      (run (deployedWith roles deployer) calls).balances := by
  refine (everyCall_of_exec (fun _ _ _ _ _ => trivial) _ calls).keeps
    (P := fun _ _ _ _ => True) (I := fun s => s.log.foldl register (fun _ _ => 0) = s.balances) ?_ rfl
  intro s m c s' hs hexec _
  obtain ⟨events, hlog, hregister⟩ := exec_register hexec
  rw [hlog, List.foldl_append, hs, hregister]

end PropertyToken
