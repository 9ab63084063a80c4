import VistaBlox.KycRenewal
import VistaBlox.Ledger

/-!
# The history of an account's eligibility

Five calls write to the history. Two take the state an account leaves from its row, three
write a constant: the timer has just tested it, the completion of a session start assumes
it.
-/
namespace Kyc

open Interleaving List Option

variable {w w' : World} {accountId : AccountId} {p : KycEligibility → Bool} {set : KycEligibility → KycEligibility}

/-- An account without a row has not begun. -/
def World.eligibilityState (w : World) (accountId : AccountId) : KycEligibilityState :=
  (w.row accountId).elim .notStarted KycEligibility.eligibilityState

def changesOf (accountId : AccountId) (history : List KycEligibilityHistory) :
    List (KycEligibilityState × KycEligibilityState) :=
  (history.filter fun row => row.accountId = accountId).map fun row => (row.previousState, row.newState)

/-- The history of every account leads from its first state to the present one. -/
def Chained (w : World) : Prop :=
  ∀ accountId, Ledger.Leads .notStarted (changesOf accountId w.history) (w.eligibilityState accountId)

/-- A session start is completed in the state that its history row assumes. -/
def startsAsAssumed : Guard World Event Op where
  call _ op w := match op with
    | .completeSessionStart accountId sessionStartId _ _ _ =>
      ∀ r ∈ w.rows, r.isCreating accountId (some sessionStartId) = true → r.eligibilityState = .notStarted
    | .completeProofOfAddressSessionStart accountId sessionStartId _ _ _ =>
      ∀ r ∈ w.rows, r.isCreatingProof accountId (some sessionStartId) = true → r.eligibilityState = .eligible
    | _ => True
  env _ _ := True

instance decidableStartsAsAssumed (t : Nat) (op : Op) (w : World) : Decidable (startsAsAssumed.call t op w) := by
  induction op using Op.casesOn <;> (dsimp only [startsAsAssumed]; infer_instance)

theorem Chained.same (h : Chained w) (hhistory : w'.history = w.history)
    (hstate : ∀ accountId, w'.eligibilityState accountId = w.eligibilityState accountId) : Chained w' := by
  intro accountId
  rw [hhistory, hstate]
  exact h accountId

theorem Chained.kept (h : Chained w) (hrows : w'.rows = (rewriteRows p set w).rows) (hhistory : w'.history = w.history)
    (hid : ∀ r, (set r).accountId = r.accountId) (hstate : ∀ r, (set r).eligibilityState = r.eligibilityState) :
    Chained w' := by
  refine h.same hhistory fun accountId => ?_
  rw [World.eligibilityState, row_map hrows hid, World.eligibilityState]
  cases w.row accountId with
  | none => rfl
  | some r =>
    simp only [map_some, elim_some]
    split
    · exact hstate r
    · rfl

theorem Chained.create (h : Chained w) (hrows : w'.rows = w.rows ++ [r]) (hhistory : w'.history = w.history)
    (hnone : w.row r.accountId = none) (hstate : r.eligibilityState = .notStarted) : Chained w' := by
  refine h.same hhistory fun accountId => ?_
  have hrow : w'.row accountId = (w.row accountId).or (if r.accountId = accountId then some r else none) := by
    simp only [World.row, hrows, find?_append, find?_singleton, KycEligibility.isOf, decide_eq_true_eq]
  rw [World.eligibilityState, World.eligibilityState, hrow]
  by_cases hid : r.accountId = accountId
  · subst hid
    simp [hnone, hstate]
  · simp [hid]

/-- A change of a row that comes with its row of the history. -/
theorem Chained.recorded (h : Chained w) (horderly : Orderly w) (hrows : w'.rows = (rewriteRows p set w).rows)
    (hhistory : w'.history = w.history ++ [row]) (hid : ∀ r, (set r).accountId = r.accountId)
    (hp : ∀ r, p r = true → r.accountId = row.accountId) (hr : r ∈ w.rows) (hpr : p r = true)
    (hprevious : r.eligibilityState = row.previousState) (hnew : (set r).eligibilityState = row.newState) :
    Chained w' := by
  intro accountId
  have hchanges : changesOf accountId w'.history = changesOf accountId w.history ++
      if row.accountId = accountId then [(row.previousState, row.newState)] else [] := by
    rw [hhistory]
    by_cases hsame : row.accountId = accountId <;> simp [changesOf, filter_append, hsame]
  have hchain := h accountId
  rw [hchanges, World.eligibilityState, row_map hrows hid]
  rw [World.eligibilityState] at hchain
  by_cases hsame : row.accountId = accountId
  · have hrow : w.row accountId = some r := ((hp r hpr).trans hsame) ▸ horderly.keyed.find hr
    rw [hrow] at hchain ⊢
    rw [if_pos hsame, ← hprevious, ← hnew]
    simpa [hpr] using Ledger.Leads.snoc hchain
  · rw [if_neg hsame, append_nil]
    cases hrow : w.row accountId with
    | none => rwa [hrow] at hchain
    | some r' =>
      have hother : ¬ p r' = true := fun hp' => hsame ((hp r' hp').symm.trans (row_some hrow).2)
      simpa [hrow, hother] using hchain

/-- Every operation continues the chain of the rows it changes. -/
theorem run_chained (horderly : Orderly w) (hcall : startsAsAssumed.call t op w) (hrun : op.run c w = some (a, w'))
    (h : Chained w) : Chained w' := by
  cases op <;> simp only [Op.run, some.injEq, ite_none_left_eq_some, Prod.ext_iff] at hrun
  case reserveSessionStart =>
    rw [← hrun.2, reserveSessionStart]
    split
    · exact h
    · split
      · exact h.create rfl rfl ‹_› rfl
      · split
        · exact h.kept rfl rfl (fun _ => rfl) fun _ => rfl
        · exact h
  case completeSessionStart =>
    rw [← hrun.2, completeSessionStart]
    split
    · rename_i hany
      obtain ⟨r, hr, hp⟩ := List.any_eq_true.mp hany
      exact h.recorded horderly rfl rfl (fun _ => rfl) (fun r hp => (isCreating_iff.mp hp).1) hr hp (hcall r hr hp) rfl
    · exact h
  case failSessionStart =>
    rw [← hrun.2, failSessionStart]
    split
    · exact h.kept rfl rfl (fun _ => rfl) fun _ => rfl
    · exact h
  case reserveProofOfAddressSessionStart =>
    rw [← hrun.2, reserveProofOfAddressSessionStart]
    split
    · exact h
    · split
      · exact h
      · split
        · exact h.kept rfl rfl (fun _ => rfl) fun _ => rfl
        · exact h
  case completeProofOfAddressSessionStart =>
    rw [← hrun.2, completeProofOfAddressSessionStart]
    split
    · rename_i hany
      obtain ⟨r, hr, hp⟩ := List.any_eq_true.mp hany
      exact h.recorded horderly rfl rfl (fun _ => rfl) (fun r hp => (isCreatingProof_iff.mp hp).1) hr hp
        (hcall r hr hp) (hcall r hr hp)
    · exact h
  case failProofOfAddressSessionStart =>
    rw [← hrun.2, failProofOfAddressSessionStart]
    split
    · exact h.kept rfl rfl (fun _ => rfl) fun _ => rfl
    · exact h
  case recordUnmatchedProviderEvent =>
    rw [← hrun.2, recordUnmatchedProviderEvent]
    split <;> exact h
  case applyProviderOutcome =>
    rw [← hrun.2.2, applyProviderOutcome]
    split
    · exact h
    · split
      · exact h
      · rename_i current hcurrent
        split
        · exact h
        · exact h.recorded horderly rfl rfl (fun _ => rfl) (fun r hp => isOf_iff.mp hp) (mem_of_find?_eq_some hcurrent)
            (isOf_iff.mpr rfl) rfl rfl
  case applyProofOfAddressOutcome =>
    rw [← hrun.2.2, applyProofOfAddressOutcome]
    split
    · exact h
    · split
      · exact h
      · rename_i current hcurrent
        split
        · exact h
        · exact h.recorded horderly rfl rfl (fun _ => rfl) (fun r hp => isOf_iff.mp hp) (mem_of_find?_eq_some hcurrent)
            (isOf_iff.mpr rfl) rfl rfl
  case transitionToRequiresRenewal =>
    rw [← hrun.2, transitionToRequiresRenewal]
    split
    · rename_i hany
      obtain ⟨r, hr, hp⟩ := List.any_eq_true.mp hany
      exact h.recorded horderly rfl rfl (fun _ => rfl) (fun r hp => (isEligible_iff.mp hp).1) hr hp
        (isEligible_iff.mp hp).2 rfl
    · exact h
  case randomUUID => exact hrun.2.2 ▸ h
  case createSession => exact hrun.2.2 ▸ h
  all_goals exact hrun.2 ▸ h

/-- As long as session starts are completed in the state they assume, the history
of every account is a chain from its first state to the present one. -/
theorem history_chained (cfg : Configuration) (now : ℤ) (accounts : List Account)
    (decisions : DiditReference → DiditDecisionSummary) (s : Config World Failure Op Op.Out)
    (h : Reachable (system cfg) startsAsAssumed (idle (World.start now accounts decisions)) s) : Chained s.world := by
  have hstart : Orderly (World.start now accounts decisions) :=
    ⟨nodup_nil, fun r hr => absurd hr not_mem_nil, fun r hr => absurd hr not_mem_nil⟩
  have hboth : Reachable (system cfg) (Guard.free.and startsAsAssumed) (idle (World.start now accounts decisions)) s :=
    h.mono (fun _ _ _ hg => ⟨trivial, hg⟩) fun _ _ hg => ⟨trivial, hg⟩
  refine hboth.invariant (orderly_sound cfg) (secure_idle _ hstart) Chained (fun _ => .nil) ?_ ?_
  · intro t op c w r w' horderly _ _ hcall hexec hchained
    obtain ⟨a, hrun, -, -⟩ | ⟨-, rfl⟩ := exec_inv (t := t) hexec
    · exact run_chained horderly hcall hrun hchained
    · exact hchained
  · intro e w w' _ _ _ henv hchained
    have hrows := env_rows henv
    refine hchained.same ?_ fun accountId => by simp only [World.eligibilityState, World.row, hrows]
    cases e with
    | tick =>
      obtain ⟨-, hnext⟩ := ite_none_right_eq_some.mp henv
      cases hnext
      rfl
    | report =>
      cases henv
      rfl

theorem history_chained_approved : ∃ s,
    Reachable (system sampleCfg) startsAsAssumed (idle sampleBeginning) s ∧
      changesOf 1 s.world.history = [(.notStarted, .notStarted), (.notStarted, .eligible)] ∧ Chained s.world := by
  obtain ⟨s, hrun, hlook⟩ := exists_of_play (system sampleCfg) (startsAsAssumed.allows_of_decide fun _ _ => trivial)
    (sampleStart 0 7 5 ++ sampleApprove 1 5 (sampleWebhook 1 .approved 1700000100)) (idle sampleBeginning)
    (fun s => changesOf 1 s.world.history = [(.notStarted, .notStarted), (.notStarted, .eligible)]) (by decide +kernel)
  exact ⟨s, hrun, of_decide_eq_true hlook, history_chained sampleCfg _ _ _ s hrun⟩

/-- The account has lapsed and opens a session to verify again: the row says that
it had not started. -/
theorem renewal_breaks_history : ∃ s,
    Reachable (system sampleCfg) Guard.free (idle sampleBeginning) s ∧ ¬ Chained s.world := by
  obtain ⟨s, hrun, hlook⟩ := exists_of_play (system sampleCfg) Guard.allows_free
    (sampleLapse ++ sampleStart 3 8 6) (idle sampleBeginning)
    (fun s => changesOf 1 s.world.history = [(.notStarted, .notStarted), (.notStarted, .eligible),
      (.eligible, .requiresRenewal)] ++ [(.notStarted, .notStarted)]) (by decide +kernel)
  refine ⟨s, hrun, fun h => ?_⟩
  have hleads := h 1
  rw [of_decide_eq_true hlook] at hleads
  have hbefore : Ledger.Leads KycEligibilityState.notStarted ([_, _] ++ [(.eligible, .requiresRenewal)]) .notStarted :=
    (Ledger.leads_concat hleads).2
  cases (Ledger.leads_concat hbefore).1

end Kyc
