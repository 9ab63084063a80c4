import VistaBlox.Behaviour
import VistaBlox.KycRenewal

/-!
# A lost webhook

An expired session is closed by a webhook or else by a sweep, and the account can then start
again. The sweeps look at sessions being created or open: an account whose session has
reported progress waits for a webhook that may never come.
-/
namespace Kyc

open Interleaving List Option
open Function (update update_self)

/-- The account can reserve a session start. -/
def CanRestart (accountId : AccountId) (w : World) : Prop :=
  ∀ sessionStartId residenceCountryCode taxResidenceCountryCode startedAt,
    (reserveSessionStart accountId sessionStartId residenceCountryCode taxResidenceCountryCode startedAt w).1 = true

def DiditDecisionSummary.isOver (decision : DiditDecisionSummary) : Bool :=
  decision.status = some .expired ∨ decision.status = some .abandoned

/-- The provider reports the account's session as expired or abandoned. -/
def SessionOver (accountId : AccountId) (w : World) : Prop :=
  ∀ r, w.row accountId = some r → ∀ diditReference, r.diditReference = some diditReference →
    (w.decisions diditReference).isOver = true

/-- A session is being created or is open. -/
def Underway (r : KycEligibility) : Prop :=
  r.operationalSubstatus = .kycSessionCreating ∨ r.operationalSubstatus = .kycSessionOpen

/-- The account can start a session, or the sweeps look at the one it has. -/
def Covered (accountId : AccountId) (w : World) : Prop :=
  ∀ r, w.row accountId = some r → canStartSession r.operationalSubstatus = true ∨ Underway r

/-- What is applied to the account's row lets it start again, and no outcome of a
proof of address is applied to it. -/
def undisturbed (accountId : AccountId) : Guard World Event Op where
  call _ op w := match op with
    | .applyProviderOutcome input => (∀ eventId, input.source = .webhook eventId → .webhook eventId ∉ w.auditKeys) →
        ∀ current, w.rows.find? (KycEligibility.hasReference input.diditReference) = some current →
          current.accountId = accountId → isStale current.providerUpdatedAt input.providerUpdatedAt = false →
            canStartSession (current.substatusAfter input) = true
    | .applyProofOfAddressOutcome input =>
        ∀ current, w.rows.find? (KycEligibility.hasProofReference input.diditReference) = some current →
          current.accountId ≠ accountId
    | _ => True
  env _ _ := True

variable {c : Choice} {op : Op}

section Moves

variable {w w' : World} {r r' : KycEligibility} {accountId : AccountId}

/-- The starts that are being created on the row. -/
def pending (r : KycEligibility) : Nat :=
  (if r.operationalSubstatus = .kycSessionCreating then 1 else 0) + if r.proofOfAddressStatus = .creating then 1 else 0

/-- What a step can do to a row whose session is under way. -/
def Moves (r r' : KycEligibility) : Prop :=
  r' = r ∨ canStartSession r'.operationalSubstatus = true ∨ (pending r' < pending r ∧ Underway r')

theorem Underway.not_start (h : Underway r) : canStartSession r.operationalSubstatus = false := by
  obtain h | h := h <;> rw [h] <;> rfl

theorem Underway.not_eligible (h : Underway r) (horderly : r.Orderly) : r.eligibilityState ≠ .eligible := by
  intro heligible
  obtain h | h := h <;> obtain hverified | hverified := horderly.eligible heligible <;> cases h.symm.trans hverified

theorem moves_of_rows (hrow : w.row accountId = some r) (hrows : w'.rows = w.rows) :
    ∃ r', w'.row accountId = some r' ∧ Moves r r' := by
  refine ⟨r, ?_, .inl rfl⟩
  unfold World.row
  rw [hrows]
  exact hrow

theorem moves_of_rewrite {p : KycEligibility → Bool} {set : KycEligibility → KycEligibility}
    (hrow : w.row accountId = some r) (hrows : w'.rows = (rewriteRows p set w).rows)
    (hid : ∀ r, (set r).accountId = r.accountId) (hset : p r = true → Moves r (set r)) :
    ∃ r', w'.row accountId = some r' ∧ Moves r r' := by
  refine ⟨_, row_rewrite_account hrow hrows hid, ?_⟩
  split
  · rename_i hp
    exact hset hp
  · exact .inl rfl

/-- An undisturbed row under way stays, ends, or gets closer to its end. -/
theorem run_moves (hinv : Orderly w) (hrow : w.row accountId = some r) (hunder : Underway r)
    (hguard : (undisturbed accountId).call t op w) (hrun : op.run c w = some (a, w')) :
    ∃ r', w'.row accountId = some r' ∧ Moves r r' := by
  generalize hrows : w'.rows = rows
  have hstep := run_rowStep hrun
  rw [hrows] at hstep
  cases hstep with
  | same => exact moves_of_rows hrow hrows
  | create =>
    refine ⟨r, ?_, .inl rfl⟩
    unfold World.row at hrow ⊢
    rw [hrows, find?_append, hrow]
    rfl
  | @reserve accountId' current _ _ _ _ hcurrent hstart =>
    refine moves_of_rewrite hrow hrows (fun _ => rfl) fun hp => ?_
    -- the account's own row cannot start
    obtain rfl : accountId' = accountId := (isOf_iff.mp hp).symm.trans (row_some hrow).2
    obtain rfl : current = r := some.inj (hcurrent.symm.trans hrow)
    rw [hunder.not_start] at hstart
    cases hstart
  | complete =>
    refine moves_of_rewrite hrow hrows (fun _ => rfl) fun hp => .inr (.inr ⟨?_, .inr rfl⟩)
    obtain ⟨-, -, hcreating⟩ := isCreating_iff.mp hp
    rw [pending, pending, hcreating]
    exact Nat.add_lt_add_right Nat.one_pos _
  | fail | lapse => exact moves_of_rewrite hrow hrows (fun _ => rfl) fun _ => .inr (.inl rfl)
  | @reserveProof accountId' current _ _ hcurrent hmay =>
    refine moves_of_rewrite hrow hrows (fun _ => rfl) fun hp => ?_
    obtain rfl : accountId' = accountId := (isOf_iff.mp hp).symm.trans (row_some hrow).2
    obtain rfl : current = r := some.inj (hcurrent.symm.trans hrow)
    exact absurd (of_decide_eq_true hmay).1 (hunder.not_eligible (hinv.rows current (row_some hrow).1))
  | completeProof | failProof =>
    refine moves_of_rewrite hrow hrows (fun _ => rfl) fun hp => .inr (.inr ⟨?_, hunder⟩)
    obtain ⟨-, -, hcreating⟩ := isCreatingProof_iff.mp hp
    simp [pending, hcreating]
  | @outcome current input hnew hcurrent hstale =>
    refine moves_of_rewrite hrow hrows (fun _ => rfl) fun hp => .inr (.inl ?_)
    obtain rfl : r = current :=
      hinv.keyed.eq_of_key (row_some hrow).1 (mem_of_find?_eq_some hcurrent) (isOf_iff.mp hp)
    exact hguard hnew r hcurrent (row_some hrow).2 hstale
  | @proof current input _ hcurrent _ =>
    refine moves_of_rewrite hrow hrows (fun _ => rfl) fun hp => ?_
    exact absurd ((isOf_iff.mp hp).symm.trans (row_some hrow).2) (hguard current hcurrent)

end Moves

section Progress

theorem canRestart_of_row (haccount : ∃ a ∈ w.accounts, a.id = accountId)
    (h : ∀ r, w.row accountId = some r → canStartSession r.operationalSubstatus = true) : CanRestart accountId w := by
  intro sessionStartId residenceCountryCode taxResidenceCountryCode startedAt
  have hexists : ¬ (w.accounts.any fun a => a.id = accountId) = false := by
    obtain ⟨a, ha, hid⟩ := haccount
    rw [Bool.not_eq_false]
    exact List.any_eq_true.mpr ⟨a, ha, decide_eq_true hid⟩
  rw [reserveSessionStart, if_neg hexists]
  split
  · rfl
  · rename_i current hcurrent
    rw [if_pos (h current hcurrent)]

theorem not_canRestart_of_row (hrow : w.row accountId = some r)
    (hstart : canStartSession r.operationalSubstatus = false) : ¬ CanRestart accountId w := by
  intro h
  have hreserved := h 0 "" "" 0
  unfold reserveSessionStart at hreserved
  split at hreserved
  · cases hreserved
  · unfold World.row at hrow
    simp [hrow, hstart] at hreserved

variable {b : Behaviour (system cfg)}

theorem now_step : (b.state n).world.now ≤ (b.state (n + 1)).world.now := by
  obtain hsame | ⟨e, henv⟩ | ⟨t, op, c, r, -, hexec⟩ := b.world_step n
    (Guard.allows_free (b.state n) (b.act n) rfl)
  · rw [hsame]
  · exact (env_frame henv).1
  · exact (exec_frame (t := t) hexec).1.ge

theorem now_le (h : m ≤ n) : (b.state m).world.now ≤ (b.state n).world.now := by
  induction n, h using Nat.le_induction with
  | base => rfl
  | succ n _ ih => exact ih.trans now_step

theorem accounts_reachable (h : Reachable (system cfg) Guard.free s₀ s) : s.world.accounts = s₀.world.accounts :=
  h.always (fun w => w.accounts = s₀.world.accounts) rfl
    (fun t _ _ _ _ _ _ hexec hsame => (exec_frame (t := t) hexec).2.trans hsame)
    fun _ _ _ _ henv hsame => (env_frame henv).2.trans hsame

/-- A row whose session is under way is left alone, or can start again, or has
one start less under way. -/
theorem row_step (hallow : (undisturbed accountId).Allows (b.state n) (b.act n)) (hinv : Orderly (b.state n).world)
    (hrow : (b.state n).world.row accountId = some r) (hunder : Underway r) :
    ∃ r', (b.state (n + 1)).world.row accountId = some r' ∧ Moves r r' := by
  obtain hsame | ⟨e, henv⟩ | ⟨t, op, c, answer, hguard, hexec⟩ := b.world_step n hallow
  · rw [hsame]
    exact ⟨r, hrow, .inl rfl⟩
  · exact moves_of_rows hrow (env_rows henv)
  · obtain ⟨a, hrun, -, -⟩ | ⟨-, hsame⟩ := exec_inv (t := t) hexec
    · exact run_moves hinv hrow hunder hguard hrun
    · rw [hsame]
      exact ⟨r, hrow, .inl rfl⟩

/-- Unless it comes to an end, the row stays the same from some moment on. -/
theorem row_settles (hallow : ∀ n, (undisturbed accountId).Allows (b.state n) (b.act n))
    (hinv : ∀ n, Orderly (b.state n).world) (hcovered : Covered accountId (b.state 0).world)
    (hnever : ∀ n, ∃ r, (b.state n).world.row accountId = some r ∧ canStartSession r.operationalSubstatus = false) :
    ∃ m r, Underway r ∧ ∀ n, m ≤ n → (b.state n).world.row accountId = some r := by
  choose row hrow hstart using hnever
  have hstep : ∀ n, Underway (row n) → row (n + 1) = row n ∨ (pending (row (n + 1)) < pending (row n) ∧
      Underway (row (n + 1))) := by
    intro n hunder
    obtain ⟨r', hr', hmoves⟩ := row_step (hallow n) (hinv n) (hrow n) hunder
    obtain rfl : r' = row (n + 1) := some.inj (hr'.symm.trans (hrow (n + 1)))
    obtain hsame | hcan | hless := hmoves
    · exact .inl hsame
    · rw [hstart (n + 1)] at hcan
      cases hcan
    · exact .inr hless
  have hunder : ∀ n, Underway (row n) := by
    intro n
    induction n with
    | zero =>
      obtain hcan | hunder := hcovered _ (hrow 0)
      · rw [hstart 0] at hcan
        cases hcan
      · exact hunder
    | succ n ih =>
      obtain hsame | hless := hstep n ih
      · rw [hsame]
        exact ih
      · exact hless.2
  obtain ⟨m, hm⟩ := eventually_const pending fun n => (hstep n (hunder n)).imp id And.left
  exact ⟨m, row m, hunder m, fun n hn => hm n hn ▸ hrow n⟩

end Progress

variable {decision : DiditDecisionSummary} {diditReference : DiditReference}

/-- What the sweeps are told about a row that does not change, after `limit`. -/
def toldOf (limit : ℤ) (r : KycEligibility) : (op : Op) → op.Out → Prop
  | .clock, now => limit ≤ now
  | .listStuckSessionCreationsForTimer, stuck => r.operationalSubstatus = .kycSessionCreating →
      ⟨r.accountId, .baselineKyc, r.sessionStartId, r.updatedAt⟩ ∈ stuck
  | .listStuckOpenSessionsForTimer, stuck => r.operationalSubstatus = .kycSessionOpen → r.stuckOpen ∈ stuck
  | .getDecision diditReference, decision => r.diditReference = some diditReference → decision.isOver = true
  | _, _ => True

theorem expire_must (hcreating : r.operationalSubstatus = .kycSessionCreating)
    (hlimit : r.updatedAt + cfg.creatingTimeoutMs ≤ limit) :
    (Job.program cfg .expireCreations).Must (toldOf limit r)
      fun op => ∃ failedAt, op = .failSessionStart r.accountId r.sessionStartId failedAt := by
  refine Prog.must_bind (Prog.must_perform_then fun now hnow => Prog.must_perform_then fun stuck hstuck => ?_)
  refine Prog.must_bind (Prog.must_foldlM (fun acted => ?_) (hstuck hcreating) 0)
  have hdue : isSessionStuck r.updatedAt now cfg.creatingTimeoutMs = true := by
    have hnow' : limit ≤ now := hnow
    exact decide_eq_true (by omega)
  rw [expireOne, if_pos hdue]
  exact Prog.must_bind (Prog.must_perform ⟨now, rfl⟩)

/-- A sweep that asks about a session that is over applies that it is. -/
structure Closing (limit : ℤ) (diditReference : DiditReference) (input : OutcomeInput) : Prop where
  source : input.source = .reconciliation
  session : input.diditReference = diditReference
  recent : limit ≤ input.providerUpdatedAt
  outcome : input.outcome.eligibilityState = .notStarted ∧ input.outcome.operationalSubstatus = .kycRestartRequired

theorem closing_of_over {session : StuckOpen} (hover : decision.isOver = true) {now : ℤ} (hnow : limit ≤ now) :
    Closing limit diditReference (session.outcomeInput diditReference decision now) := by
  refine ⟨rfl, rfl, hnow, ?_⟩
  obtain hstatus | hstatus := of_decide_eq_true hover
  · simp only [StuckOpen.outcomeInput, hstatus]
    exact ⟨rfl, rfl⟩
  · simp only [StuckOpen.outcomeInput, hstatus]
    exact ⟨rfl, rfl⟩

theorem not_pending_of_over (hover : decision.isOver = true) : ¬ isStillPending decision.status = true := by
  obtain hstatus | hstatus := of_decide_eq_true hover <;> rw [hstatus] <;> decide

theorem reconcile_must (hopen : r.operationalSubstatus = .kycSessionOpen)
    (href : r.diditReference = some diditReference) (hlimit : r.updatedAt + cfg.openThresholdMs ≤ limit) :
    (Job.program cfg .reconcileOpen).Must (toldOf limit r)
      fun op => ∃ input, op = .applyProviderOutcome input ∧ Closing limit diditReference input := by
  refine Prog.must_bind (Prog.must_perform_then fun now hnow => Prog.must_perform_then fun stuck hstuck => ?_)
  refine Prog.must_bind (Prog.must_foldlM (fun acted => ?_) (hstuck hopen) 0)
  have hdue : isSessionStuck r.stuckOpen.updatedAt now cfg.openThresholdMs = true := by
    have hnow' : limit ≤ now := hnow
    exact decide_eq_true (show cfg.openThresholdMs ≤ now - r.updatedAt by omega)
  have hsession : r.stuckOpen.diditReference = some diditReference := href
  rw [reconcileOne, if_pos hdue, hsession]
  refine Prog.must_perform_then fun decision hdecision => ?_
  have hover : decision.isOver = true := hdecision href
  rw [if_neg (not_pending_of_over hover)]
  exact Prog.must_bind (Prog.must_perform ⟨_, rfl, closing_of_over hover hnow⟩)

/-- What the sweeps read, past the limit, of a session that is over. -/
theorem told_of_run (hrow : w.row accountId = some r) (hover : SessionOver accountId w) (hnow : limit ≤ w.now)
    (hrun : op.run c w = some (a, w')) : toldOf limit r op a := by
  have hmem := (row_some hrow).1
  cases op with
  | clock =>
    cases hrun
    exact hnow
  | listStuckSessionCreationsForTimer =>
    cases hrun
    intro hcreating
    exact mem_append_left _ (List.mem_map.mpr ⟨r, mem_filter.mpr ⟨hmem, decide_eq_true hcreating⟩, rfl⟩)
  | listStuckOpenSessionsForTimer =>
    cases hrun
    intro hopen
    exact mem_append_left _ (List.mem_map.mpr ⟨r, mem_filter.mpr ⟨hmem, decide_eq_true hopen⟩, rfl⟩)
  | getDecision diditReference =>
    cases hrun
    exact fun href => hover r hrow diditReference href
  | _ => trivial

theorem row_failSessionStart (hrow : w.row accountId = some r)
    (hcreating : r.operationalSubstatus = .kycSessionCreating) :
    ∃ r', (failSessionStart r.accountId r.sessionStartId failedAt w).row accountId = some r' ∧
      canStartSession r'.operationalSubstatus = true := by
  have hpicked : r.isCreating r.accountId r.sessionStartId = true := isCreating_iff.mpr ⟨rfl, rfl, hcreating⟩
  have hany : (w.rows.any (KycEligibility.isCreating r.accountId r.sessionStartId)) = true :=
    List.any_eq_true.mpr ⟨r, (row_some hrow).1, hpicked⟩
  rw [failSessionStart, if_pos hany]
  refine ⟨_, row_rewrite_account hrow rfl fun _ => rfl, ?_⟩
  rw [if_pos hpicked]
  rfl

theorem row_applyProviderOutcome (hinv : Orderly w) (hrow : w.row accountId = some r)
    (href : r.diditReference = some diditReference) {input : OutcomeInput}
    (hclosing : Closing limit diditReference input)
    (hlimit : ∀ last, r.providerUpdatedAt = some last → last ≤ limit) {id : Nat}
    (hnew : EventKey.reconciliation id ∉ w.auditKeys) :
    ∃ r', (applyProviderOutcome id input w).2.row accountId = some r' ∧
      canStartSession r'.operationalSubstatus = true := by
  obtain ⟨hsource, rfl, hrecent, hstate, hsubstatus⟩ := hclosing
  have hkey : ¬ (w.auditKeys.contains (input.source.key id)) = true := by
    rw [hsource]
    simpa [EventSource.key] using hnew
  have hfresh : ¬ isStale r.providerUpdatedAt input.providerUpdatedAt = true := by
    intro hstale
    obtain ⟨last, hlast, hlt⟩ := isStale_iff.mp hstale
    have := hlimit last hlast
    omega
  rw [applyProviderOutcome, if_neg hkey, hinv.find (row_some hrow).1 href]
  simp only [if_neg hfresh]
  refine ⟨_, row_rewrite_account hrow rfl fun _ => rfl, ?_⟩
  rw [if_pos (isOf_iff.mpr rfl)]
  have hafter : r.substatusAfter input = .kycRestartRequired := by
    rw [KycEligibility.substatusAfter, if_neg, hsubstatus]
    rintro ⟨heligible, -, -⟩
    cases hstate.symm.trans heligible
  show canStartSession (r.substatusAfter input) = true
  rw [hafter]
  rfl

section Liveness

variable {cfg : Configuration} {accountId : AccountId} {r : KycEligibility} {b : Behaviour (system cfg)} {m : ℕ}

/-- What holds from some time on, of a row that does not change. -/
structure Settled (accountId : AccountId) (r : KycEligibility) (b : Behaviour (system cfg)) (m : ℕ) : Prop where
  row : ∀ n, m ≤ n → (b.state n).world.row accountId = some r
  orderly : ∀ n, Orderly (b.state n).world
  ended : ∀ n, SessionOver accountId (b.state n).world
  time : ∀ limit, ∃ n, limit ≤ (b.state n).world.now

theorem Settled.later (h : Settled accountId r b m) (limit : ℤ) :
    ∃ n, m ≤ n ∧ ∀ k, n ≤ k → limit ≤ (b.state k).world.now := by
  obtain ⟨n, hn⟩ := h.time limit
  refine ⟨max m n, le_max_left m n, fun k hk => ?_⟩
  exact hn.trans (now_le ((le_max_right m n).trans hk))

theorem Settled.acts (h : Settled accountId r b m) (hj : b.KeepsCompleting j)
    (hmust : (Job.program cfg j).Must (toldOf limit r) F) :
    ∃ k, m ≤ k ∧ ∃ op c a, F op ∧ op.run c (b.state k).world = some (a, (b.state (k + 1)).world) := by
  obtain ⟨n, hn, hlimit⟩ := h.later limit
  obtain ⟨t, i, i', hi, hcompletes⟩ := hj n
  obtain ⟨k, hk, u, op, c, a, hop, hexec⟩ := hcompletes.occurs hmust fun k hk u op c a hexec =>
    told_of_run (h.row k (hn.trans (hi.trans hk.le))) (h.ended k) (hlimit k (hi.trans hk.le)) (exec_ok (t := u) hexec)
  exact ⟨k, hn.trans (hi.trans hk.le), op, c, a, hop, exec_ok (t := u) hexec⟩

theorem Settled.expires (h : Settled accountId r b m) (hcreating : r.operationalSubstatus = .kycSessionCreating)
    (hexpire : b.KeepsCompleting .expireCreations) :
    ∃ k r', m ≤ k ∧ (b.state (k + 1)).world.row accountId = some r' ∧
      canStartSession r'.operationalSubstatus = true := by
  obtain ⟨k, hk, _, c, a, ⟨failedAt, rfl⟩, hrun⟩ := h.acts hexpire (expire_must hcreating le_rfl)
  obtain ⟨r', hr', hcan⟩ := row_failSessionStart (h.row k hk) hcreating
  have hworld : failSessionStart r.accountId r.sessionStartId failedAt (b.state k).world = (b.state (k + 1)).world :=
    congrArg Prod.snd (some.inj hrun)
  exact ⟨k, r', hk, hworld ▸ hr', hcan⟩

theorem Settled.reconciles (h : Settled accountId r b m) (hopen : r.operationalSubstatus = .kycSessionOpen)
    (hreconcile : b.KeepsCompleting .reconcileOpen) :
    ∃ k r', m ≤ k ∧ (b.state (k + 1)).world.row accountId = some r' ∧
      canStartSession r'.operationalSubstatus = true := by
  obtain ⟨diditReference, href⟩ := ((h.orderly m).rows r (row_some (h.row m le_rfl)).1).opened hopen
  have hlimit : ∀ last, r.providerUpdatedAt = some last →
      last ≤ max (r.updatedAt + cfg.openThresholdMs) (r.providerUpdatedAt.getD 0) := by
    intro last hlast
    rw [hlast]
    exact le_max_right _ last
  obtain ⟨k, hk, _, c, a, ⟨input, rfl, hclosing⟩, hrun⟩ :=
    h.acts hreconcile (reconcile_must hopen href (le_max_left _ (r.providerUpdatedAt.getD 0)))
  obtain ⟨hnew, hrun⟩ := ite_none_left_eq_some.mp hrun
  obtain ⟨r', hr', hcan⟩ := row_applyProviderOutcome (h.orderly k) (h.row k hk) href hclosing hlimit
    fun hclaimed => hnew ⟨hclosing.source, hclaimed⟩
  have hworld : (applyProviderOutcome c.id input (b.state k).world).2 = (b.state (k + 1)).world :=
    congrArg Prod.snd (some.inj hrun)
  exact ⟨k, r', hk, hworld ▸ hr', hcan⟩

/-- Whatever happened before, an account whose session is over at the provider
can start again, if the sweeps look at its session and keep completing. -/
theorem restarts_after_lost_webhook (cfg : Configuration) (now : ℤ) (accounts : List Account)
    (decisions : DiditReference → DiditDecisionSummary) (accountId : AccountId)
    (haccount : ∃ a ∈ accounts, a.id = accountId) (b : Behaviour (system cfg))
    (hhistory : Reachable (system cfg) Guard.free (idle (World.start now accounts decisions)) (b.state 0))
    (hover : ∀ n, SessionOver accountId (b.state n).world) (hexpire : b.KeepsCompleting .expireCreations)
    (hreconcile : b.KeepsCompleting .reconcileOpen) (htime : ∀ limit, ∃ n, limit ≤ (b.state n).world.now)
    (hcovered : Covered accountId (b.state 0).world)
    (hallow : ∀ n, (undisturbed accountId).Allows (b.state n) (b.act n)) :
    ∃ n, CanRestart accountId (b.state n).world := by
  have hreach : ∀ n, Reachable (system cfg) Guard.free (idle (World.start now accounts decisions)) (b.state n) :=
    fun n => hhistory.trans (b.reachable (fun k => Guard.allows_free (b.state k) (b.act k) rfl) n)
  have hexists : ∀ n, ∃ a ∈ (b.state n).world.accounts, a.id = accountId := by
    intro n
    rw [accounts_reachable (hreach n)]
    exact haccount
  by_contra hnever
  have hstuck : ∀ n, ∃ r, (b.state n).world.row accountId = some r ∧
      canStartSession r.operationalSubstatus = false := by
    intro n
    by_contra hnone
    refine hnever ⟨n, canRestart_of_row (hexists n) fun r hr => ?_⟩
    by_contra hstart
    exact hnone ⟨r, hr, by simpa using hstart⟩
  have horderly := fun n => orderly_reachable (hreach n)
  obtain ⟨m, r, hunder, hrow⟩ := row_settles hallow horderly hcovered hstuck
  have hsettled : Settled accountId r b m := ⟨hrow, horderly, hover, htime⟩
  have hrestart : ∃ k r', m ≤ k ∧ (b.state (k + 1)).world.row accountId = some r' ∧
      canStartSession r'.operationalSubstatus = true := by
    obtain hcreating | hopen := hunder
    · exact hsettled.expires hcreating hexpire
    · exact hsettled.reconciles hopen hreconcile
  obtain ⟨k, r', hk, hr', hcan⟩ := hrestart
  obtain rfl : r = r' := some.inj ((hrow (k + 1) (hk.trans k.le_succ)).symm.trans hr')
  rw [hunder.not_start] at hcan
  cases hcan

end Liveness

/-- The sweeps take turns. -/
def sweepOf (hour : ℕ) : Job := if hour % 2 = 0 then .expireCreations else .reconcileOpen

/-- One sweep every hour. -/
def hourly (n : ℕ) : Action Choice Event Job :=
  match n % 4 with
  | 0 => .env (.tick 3600000)
  | 1 => .spawn 0 (sweepOf (n / 4))
  | _ => .call 0 calm

/-- The sweep is about to list what is stuck, and ends if nothing is. -/
def Listing (thread : Run Unit) : Prop :=
  (∃ next, thread = .call .listStuckSessionCreationsForTimer next ∧ next (.ok []) = .ret ()) ∨
    ∃ next, thread = .call .listStuckOpenSessionsForTimer next ∧ next (.ok []) = .ret ()

def SweepPhase (cfg : Configuration) (n : ℕ) (thread : Run Unit) : Prop :=
  match n % 4 with
  | 0 => n ≠ 0 → thread = .ret ()
  | 1 => True
  | 2 => thread = Job.program cfg (sweepOf (n / 4))
  | _ => Listing thread

structure Sweeping (cfg : Configuration) (w : World) (n : ℕ) (s : Config World Failure Op Op.Out) : Prop where
  world : s.world = { w with now := w.now + 3600000 * ((n + 3) / 4 : ℕ) }
  phase : SweepPhase cfg n (s.threads 0)

theorem program_sweepOf (cfg : Configuration) (hour : ℕ) :
    ∃ next, Job.program cfg (sweepOf hour) = .call .clock next ∧ ∀ now, Listing (next (.ok now)) := by
  unfold sweepOf
  split
  · exact ⟨_, rfl, fun _ => .inl ⟨_, rfl, rfl⟩⟩
  · exact ⟨_, rfl, fun _ => .inr ⟨_, rfl, rfl⟩⟩

theorem step_call (hthread : s.threads 0 = .call op rest) (hexec : exec 0 op calm s.world = some (.ok a, s.world)) :
    (system cfg).step s (.call 0 calm) = some ⟨s.world, update s.threads 0 (rest (.ok a))⟩ := by
  have hexec' : (system cfg).exec 0 op calm s.world = some (.ok a, s.world) := hexec
  simp only [Semantics.step, hthread, hexec', map_some]

theorem step_listing (h : Listing (s.threads 0)) (hcreations : listStuckSessionCreationsForTimer s.world = [])
    (hopen : listStuckOpenSessionsForTimer s.world = []) :
    (system cfg).step s (.call 0 calm) = some ⟨s.world, update s.threads 0 (.ret ())⟩ := by
  obtain ⟨next, hthread, hend⟩ | ⟨next, hthread, hend⟩ := h
  · rw [← hend]
    refine step_call hthread ?_
    rw [← hcreations]
    rfl
  · rw [← hend]
    refine step_call hthread ?_
    rw [← hopen]
    rfl

theorem Sweeping.next (h : Sweeping cfg w n s) (hn : n % 4 ≠ 0) (hphase : SweepPhase cfg (n + 1) thread) :
    Sweeping cfg w (n + 1) ⟨s.world, update s.threads 0 thread⟩ := by
  refine ⟨?_, by simpa only [update_self] using hphase⟩
  have hhour : (n + 1 + 3) / 4 = (n + 3) / 4 := by omega
  rw [hhour]
  exact h.world

theorem phase_cases (n : ℕ) : n % 4 = 0 ∨ n % 4 = 1 ∨ n % 4 = 2 ∨ n % 4 = 3 := by omega

/-- The sweeps that find nothing can go on for ever. -/
theorem sweeping_step (hcreations : listStuckSessionCreationsForTimer w = [])
    (hopen : listStuckOpenSessionsForTimer w = []) (n : ℕ) (s : Config World Failure Op Op.Out)
    (h : Sweeping cfg w n s) : ∃ s', (system cfg).step s (hourly n) = some s' ∧ Sweeping cfg w (n + 1) s' := by
  have hphase := h.phase
  rcases phase_cases n with hn | hn | hn | hn <;> simp only [SweepPhase, hn] at hphase <;> simp only [hourly, hn]
  · have hnext : (n + 1) % 4 = 1 := by omega
    have hhour : (n + 1 + 3) / 4 = (n + 3) / 4 + 1 := by omega
    refine ⟨⟨{ s.world with now := s.world.now + 3600000 }, s.threads⟩, rfl, ?_, by simp only [SweepPhase, hnext]⟩
    rw [h.world, hhour]
    push_cast
    simp only [World.mk.injEq, and_true]
    omega
  · have hnext : (n + 1) % 4 = 2 := by omega
    have hhour : (n + 1) / 4 = n / 4 := by omega
    exact ⟨_, rfl, h.next (by omega) (by simp only [SweepPhase, hnext, hhour]; rfl)⟩
  · have hnext : (n + 1) % 4 = 3 := by omega
    obtain ⟨next, hprogram, hlisting⟩ := program_sweepOf cfg (n / 4)
    refine ⟨_, step_call (hphase.trans hprogram) rfl, h.next (by omega) ?_⟩
    simp only [SweepPhase, hnext]
    exact hlisting _
  · have hnext : (n + 1) % 4 = 0 := by omega
    have hworld := h.world
    refine ⟨_, step_listing hphase ?_ ?_, h.next (by omega) ?_⟩
    · rw [hworld]
      exact hcreations
    · rw [hworld]
      exact hopen
    · simp only [SweepPhase, hnext, implies_true]

/-- In an hour in which there is nothing to do, a sweep asks only for the time
and for what is stuck. -/
theorem Sweeping.allows (h : Sweeping cfg w n s) (accountId : AccountId) :
    (undisturbed accountId).Allows s (hourly n) := by
  have hphase := h.phase
  rcases phase_cases n with hn | hn | hn | hn <;> simp only [SweepPhase, hn] at hphase <;>
    simp only [hourly, hn, Guard.Allows]
  · trivial
  · obtain ⟨next, hprogram, -⟩ := program_sweepOf cfg (n / 4)
    rw [hphase, hprogram]
    trivial
  · obtain ⟨next, hthread, -⟩ | ⟨next, hthread, -⟩ := hphase
    · rw [hthread]
      trivial
    · rw [hthread]
      trivial

theorem Sweeping.completes {b : Behaviour (system cfg)} (hact : b.act = hourly)
    (h : ∀ n, Sweeping cfg w n (b.state n)) (hour : ℕ) :
    b.Completes (sweepOf hour) 0 (4 * hour + 1) (4 * hour + 4) := by
  refine ⟨?_, by omega, ?_, fun k hk hk' j' => ?_⟩
  · rw [hact, hourly, show (4 * hour + 1) % 4 = 1 by omega, show (4 * hour + 1) / 4 = hour by omega]
    rfl
  · have hphase := (h (4 * hour + 4)).phase
    rw [SweepPhase, show (4 * hour + 4) % 4 = 0 by omega] at hphase
    exact hphase (by omega)
  · have hrest : k % 4 = 2 ∨ k % 4 = 3 := by omega
    obtain hrest | hrest := hrest <;> rw [hact, hourly, hrest] <;> nofun

theorem exists_sweeping
    (hcreations : listStuckSessionCreationsForTimer s.world = [])
    (hopen : listStuckOpenSessionsForTimer s.world = []) :
    ∃ b : Behaviour (system cfg), b.state 0 = s ∧ (∀ n, ∃ now, (b.state n).world = { s.world with now := now }) ∧
      (∀ j ∈ [Job.expireCreations, .reconcileOpen], b.KeepsCompleting j) ∧
      (∀ limit, ∃ n, limit ≤ (b.state n).world.now) ∧
      ∀ n accountId, (undisturbed accountId).Allows (b.state n) (b.act n) := by
  have hstart : Sweeping cfg s.world 0 s := ⟨by simp, fun hne => absurd rfl hne⟩
  obtain ⟨b, hb, hact, hsweeping⟩ := Behaviour.exists_of_extends hstart (sweeping_step hcreations hopen)
  refine ⟨b, hb, fun n => ⟨_, (hsweeping n).world⟩, ?_, fun limit => ?_, fun n accountId => ?_⟩
  · intro j hj n
    have hhour : ∃ hour, n ≤ hour ∧ sweepOf hour = j := by
      obtain rfl | hj := mem_cons.mp hj
      · exact ⟨2 * n, by omega, if_pos (by omega)⟩
      · obtain rfl := mem_singleton.mp hj
        exact ⟨2 * n + 1, by omega, if_neg (by omega)⟩
    obtain ⟨hour, hn, rfl⟩ := hhour
    exact ⟨0, _, _, by omega, Sweeping.completes hact hsweeping hour⟩
  · refine ⟨4 * (limit - s.world.now).toNat, ?_⟩
    rw [(hsweeping _).world]
    have hhours : (4 * (limit - s.world.now).toNat + 3) / 4 = (limit - s.world.now).toNat := by omega
    rw [hhours]
    show limit ≤ s.world.now + 3600000 * ((limit - s.world.now).toNat : ℤ)
    omega
  · rw [hact]
    exact (hsweeping n).allows accountId

def sessionOverTest (accountId : AccountId) (w : World) : Bool :=
  (w.row accountId).all fun r => r.diditReference.all fun diditReference => (w.decisions diditReference).isOver

theorem sessionOverTest_sound (h : sessionOverTest accountId w = true) : SessionOver accountId w := by
  intro r hr diditReference href
  simpa [sessionOverTest, hr, href] using h

instance (accountId : AccountId) (t : Nat) (op : Op) (w : World) :
    Decidable ((undisturbed accountId).call t op w) := by
  induction op using Op.casesOn <;> (dsimp only [undisturbed]; infer_instance)

def sampleTest (s : Config World Failure Op Op.Out) (a : Action Choice Event Job) : Bool :=
  sessionOverTest 1 s.world && threadTest (fun t op w => decide ((undisturbed 1).call t op w)) s a

theorem sampleTest_sound (s : Config World Failure Op Op.Out) (a : Action Choice Event Job)
    (h : sampleTest s a = true) : SessionOver 1 s.world ∧ (undisturbed 1).Allows s a := by
  obtain ⟨hover, hallow⟩ := Bool.and_eq_true_iff.mp h
  exact ⟨sessionOverTest_sound hover, (undisturbed 1).allows_of_decide (fun _ _ => trivial) s a hallow⟩

/-- Account 1 has opened session 5, which expires, and nothing is heard of it. -/
def sampleExpired : List RenewalAction := sampleStart 0 7 5 ++ [.env (.report 5 (sampleDecision .expired))]

/-- The open sessions are swept two hours later. -/
def sampleSweep : List RenewalAction := [.env (.tick 7200000), .spawn 1 .reconcileOpen] ++ renewalCalls 1 4

/-- The row is at `substatus`, its session is over, and the sweeps find nothing. -/
def isSettled (substatus : KycOperationalSubstatus) (w : World) : Bool :=
  sessionOverTest 1 w && decide ((w.row 1).map KycEligibility.operationalSubstatus = some substatus) &&
    decide (listStuckSessionCreationsForTimer w = []) && decide (listStuckOpenSessionsForTimer w = [])

theorem exists_sweeping_of_settled (cfg : Configuration) (h : isSettled substatus s.world = true) :
    ∃ b : Behaviour (system cfg), b.state 0 = s ∧
      (∀ n, SessionOver 1 (b.state n).world ∧ (undisturbed 1).Allows (b.state n) (b.act n)) ∧
      (∀ j ∈ [Job.expireCreations, .reconcileOpen], b.KeepsCompleting j) ∧
      (∀ limit, ∃ n, limit ≤ (b.state n).world.now) ∧
      ∀ n, ((b.state n).world.row 1).map KycEligibility.operationalSubstatus = some substatus := by
  simp only [isSettled, Bool.and_eq_true, decide_eq_true_eq] at h
  obtain ⟨⟨⟨hover, hrow⟩, hcreations⟩, hopen⟩ := h
  obtain ⟨b, hb, hworld, hjobs, htime, hallow⟩ := exists_sweeping hcreations hopen
  refine ⟨b, hb, fun n => ⟨?_, hallow n 1⟩, hjobs, htime, fun n => ?_⟩
  · obtain ⟨now, hn⟩ := hworld n
    rw [hn]
    exact sessionOverTest_sound hover
  · obtain ⟨now, hn⟩ := hworld n
    rw [hn]
    exact hrow

theorem not_canRestart_of_substatus (h : (w.row accountId).map KycEligibility.operationalSubstatus = some substatus)
    (hstart : canStartSession substatus = false) : ¬ CanRestart accountId w := by
  obtain ⟨r, hr, rfl⟩ := map_eq_some_iff.mp h
  exact not_canRestart_of_row hr hstart

theorem restarts_after_lost_webhook_sample : ∃ b : Behaviour (system sampleCfg),
    Reachable (system sampleCfg) Guard.free (idle sampleBeginning) (b.state 0) ∧ ¬ CanRestart 1 (b.state 0).world ∧
      ∃ n, CanRestart 1 (b.state n).world := by
  obtain ⟨s, hrun, hlook⟩ := exists_of_play (system sampleCfg) Guard.allows_free sampleExpired
    (idle sampleBeginning) (fun s =>
      decide ((s.world.row 1).map KycEligibility.operationalSubstatus = some .kycSessionOpen) &&
        ((system sampleCfg).play sampleTest sampleSweep s).any fun s' => isSettled .kycRestartRequired s'.world)
    (by decide +kernel)
  obtain ⟨hopen, hsweep⟩ := Bool.and_eq_true_iff.mp hlook
  have hrow := of_decide_eq_true hopen
  cases hplay : (system sampleCfg).play sampleTest sampleSweep s with
  | none => simp [hplay] at hsweep
  | some s' =>
    have hsettled : isSettled .kycRestartRequired s'.world = true := by simpa [hplay] using hsweep
    obtain ⟨b', rfl, hmeets, hjobs, htime, -⟩ := exists_sweeping_of_settled sampleCfg hsettled
    obtain ⟨b, rfl, hmeets, hjobs, htime⟩ := Behaviour.exists_of_play (Q := fun limit s => limit ≤ s.world.now)
      sampleTest_sound b' hmeets hjobs htime sampleSweep s hplay
    have hcovered : Covered 1 (b.state 0).world := by
      intro r hr
      rw [hr] at hrow
      exact .inr (.inr (some.inj hrow))
    exact ⟨b, hrun, not_canRestart_of_substatus hrow rfl, restarts_after_lost_webhook sampleCfg _ _ _ 1
      ⟨_, mem_singleton_self _, rfl⟩ b hrun (fun n => (hmeets n).1) (hjobs _ (by simp)) (hjobs _ (by simp)) htime
      hcovered fun n => (hmeets n).2⟩

/-- Session 5 has reported progress before it expires. -/
def sampleProgress : List RenewalAction :=
  sampleStart 0 7 5 ++ .spawn 1 (.webhook (sampleWebhook 1 .inProgress 1700000100)) :: renewalCalls 1 4 ++
    [.env (.report 5 (sampleDecision .expired))]

/-- The account waits for ever, while both sweeps complete every hour. -/
theorem lost_webhook_locks_out : ∃ b : Behaviour (system sampleCfg),
    Reachable (system sampleCfg) Guard.free (idle sampleBeginning) (b.state 0) ∧
      (∀ n, SessionOver 1 (b.state n).world) ∧ b.KeepsCompleting .expireCreations ∧ b.KeepsCompleting .reconcileOpen ∧
      (∀ limit, ∃ n, limit ≤ (b.state n).world.now) ∧ ∀ n, ¬ CanRestart 1 (b.state n).world := by
  obtain ⟨s, hrun, hlook⟩ := exists_of_play (system sampleCfg) Guard.allows_free sampleProgress
    (idle sampleBeginning) (fun s => isSettled .kycPending s.world) (by decide +kernel)
  obtain ⟨b, rfl, hmeets, hjobs, htime, hrow⟩ := exists_sweeping_of_settled sampleCfg hlook
  exact ⟨b, hrun, fun n => (hmeets n).1, hjobs _ (by simp), hjobs _ (by simp), htime,
    fun n => not_canRestart_of_substatus (hrow n) rfl⟩

end Kyc
