import VistaBlox.MintOnce

/-!
# Nobody is left behind a sweep

When a run is about to call `withdrawRaised`, every contributor has been minted their
contribution and has the one position of that mint. The reservation flow can break this with
a position that makes the job skip a contributor.
-/
namespace Settlement

open Evm Interleaving List
open IpoEscrow (contributionOf contributorsOf)

variable {eurc : Erc20} {chain : Chain} {token : TokenId}

/-- The contributor has received exactly their contribution, through one mint,
and holds the one position that carries that mint's intent. -/
def Settled (w : World eurc) (token : TokenId) (a : Address) : Prop :=
  minted w token a = contributionOf w.escrow token a ∧
  PropertyToken.balanceOf w.property a token = contributionOf w.escrow token a ∧
  ∃ i row h p, w.intents i = some row ∧ Registered w i.accountId a ∧ PivToken w i.pivId token ∧
    row.mintTxHash = some h ∧ Mints w h a token (contributionOf w.escrow token a) ∧
    w.positions.filter (fun p => p.escrowMintIntentId = some i) = [p]

variable {a : Address} {h : TxHash} {tx : Tx} {w : World eurc}

theorem Once.sender (hO : Once chain token w) (hL : Ledger chain w) (htx : w.txs[h]? = some tx)
    (hs : tx.status = .success) (hlog : (token, n) ∈ tx.mintLogs a) :
    ∃ i k row, tx.attempt = some (i, k) ∧ w.intents i = some row ∧
      row.walletAddress = a ∧ row.tokenId = token ∧ tx.delivered token a = n := by
  have hok := hL.txs h tx htx
  cases hatt : tx.attempt with
  | none => exact absurd hlog (hO.foreign h tx a n htx hatt)
  | some ik =>
    obtain ⟨_, row, hrow, _, hp⟩ := hok.attempt ik.1 ik.2 hatt
    have hmove := (hok.logged hs a token n).mp hlog
    rw [hp] at hmove
    cases hmove
    exact ⟨ik.1, ik.2, row, rfl, hrow, rfl, rfl, by simp [Tx.delivered, hp, mintPayload, hs]⟩

theorem log_of_delivered (hL : Ledger chain w) (htx : w.txs[h]? = some tx) (hne : tx.delivered token a ≠ 0) :
    tx.status = .success ∧ ∃ n, (token, n) ∈ tx.mintLogs a := by
  unfold Tx.delivered at hne
  split at hne
  · rename_i dst id n b hp
    split at hne
    · rename_i hc
      refine ⟨hc.1, n, ((hL.txs h tx htx).logged hc.1 a token n).mpr ?_⟩
      rw [hp, ← hc.2.1, ← hc.2.2]
      rfl
    · exact absurd rfl hne
  · exact absurd rfl hne

theorem intent_unique (hL : Ledger chain w) (hD : Distinct w) (hi : w.intents i = some row)
    (hj : w.intents j = some row') (hwallet : row.walletAddress = row'.walletAddress)
    (htoken : row.tokenId = row'.tokenId) : i = j := by
  have hrow := hL.rows i row hi
  have hrow' := hL.rows j row' hj
  have hpiv : i.pivId = j.pivId := hL.tokens _ _ _ hrow.piv (htoken ▸ hrow'.piv)
  obtain ⟨r, hr, hra, hrw⟩ := hrow.registered
  obtain ⟨r', hr', hra', hrw'⟩ := hrow'.registered
  obtain rfl := hD r hr r' hr' (by rw [hrw, hrw', hwallet])
  obtain ⟨p, x⟩ := i
  obtain ⟨p', x'⟩ := j
  simp only at hpiv hra hra'
  rw [hpiv, ← hra, ← hra']

theorem sum_map_single (l : List α) (f : α → Nat) (n : Nat) (x : α) (hx : l[n]? = some x)
    (h : ∀ m y, l[m]? = some y → f y ≠ 0 → m = n) : (l.map f).sum = f x := by
  induction l generalizing n with
  | nil => cases hx
  | cons y l ih =>
    cases n with
    | zero =>
      cases hx
      have hrest : (l.map f).sum = 0 := by
        rw [sum_eq_zero_iff]
        intro k hk
        obtain ⟨z, hz, rfl⟩ := mem_map.mp hk
        obtain ⟨m, hm⟩ := mem_iff_getElem?.mp hz
        by_contra hne
        exact absurd (h (m + 1) z hm hne) (by omega)
      rw [map_cons, sum_cons, hrest, Nat.add_zero]
    | succ n =>
      have hy : f y = 0 := by
        by_contra hne
        exact absurd (h 0 y rfl hne) (by omega)
      have hrest := ih n hx fun m z hz hne => by
        have := h (m + 1) z hz hne
        omega
      rw [map_cons, sum_cons, hy, hrest, Nat.zero_add]

theorem Delivered.settled (hL : Ledger chain w) (hO : Once chain token w) (hD : Distinct w)
    (h : Delivered w token a) : Settled w token a := by
  obtain ⟨i, row, hrow, hs, hwallet, htoken⟩ := h
  obtain ⟨hash, p, e, hh, hm, hp, _⟩ := hL.recorded i row hrow hs
  have hok := hL.rows i row hrow
  have hamount : row.mintAmount = contributionOf w.escrow token a := by
    rw [← hok.contribution, hwallet, htoken]
    rfl
  rw [hwallet, htoken, hamount] at hm
  obtain ⟨tx, htx, hstatus, hlog⟩ := id hm
  obtain ⟨j, k, row', hatt, hrow', hw', ht', hdelivered⟩ := hO.sender hL htx hstatus hlog
  have hminted : minted w token a = contributionOf w.escrow token a := by
    rw [← hdelivered]
    refine sum_map_single w.txs _ hash tx htx fun h' tx' htx' hne => ?_
    obtain ⟨hstatus', n', hlog'⟩ := log_of_delivered hL htx' hne
    obtain ⟨j', k', row'', hatt', hrow'', hw'', ht'', _⟩ := hO.sender hL htx' hstatus' hlog'
    obtain rfl := intent_unique hL hD hrow' hrow'' (hw'.trans hw''.symm) (ht'.trans ht''.symm)
    exact hO.one_success hL ⟨row', hrow', ht'⟩ ⟨tx', htx', hatt'⟩ ⟨tx, htx, hatt⟩ ⟨tx', htx', hstatus'⟩
      ⟨tx, htx, hstatus⟩
  exact ⟨hminted, (hO.balance a).trans hminted, i, row, hash, p, hrow, hwallet ▸ hok.registered,
    htoken ▸ hok.piv, hh, hm, hp⟩

/-- A thread is about to send the sweep of a token's campaign. -/
def Sweeping (s : Config (World eurc) Failure Op Op.Out) (t : Nat) (token : TokenId) : Prop :=
  ∃ next, s.threads t = .call (.write (.escrow (.withdrawRaised token)) none) next

theorem guard_of_conditions (h : Reachable (system chain eurc) (((timely chain token).and (emptyAtGrace token)).and
      ((mintedPositions token).and oneSpelling)) s s') :
    Reachable (system chain eurc) (guard chain token True True) s s' :=
  h.mono (fun _ _ _ h => ⟨fun _ => h.1.2, fun _ => h.2.1⟩) (fun _ _ h => ⟨fun _ => h.1.1, fun _ => h.2.2⟩)

/-- Whenever a run that meets the conditions reaches the sweep, every
contributor of the campaign is settled. -/
theorem nobody_behind_the_sweep {w : World eurc} {s : Config (World eurc) Failure Op Op.Out}
    (h₀ : Genesis chain w)
    (h : Reachable (system chain eurc) (((timely chain token).and (emptyAtGrace token)).and
      ((mintedPositions token).and oneSpelling)) (idle w) s) (t : Nat) (ht : Sweeping s t token) :
    ∀ a ∈ contributorsOf s.world.escrow token, Settled s.world token a := by
  intro a ha
  have hsecure := secure_of_genesis h₀ (guard_of_conditions h)
  obtain ⟨hL, hO, hD⟩ := hsecure.1
  obtain ⟨next, hthread⟩ := ht
  exact (((hsecure.req hthread).2 token rfl).2 trivial rfl a ha).settled hL (hO trivial) (hD trivial)

instance (t : Nat) (op : Op) (w : World eurc) : Decidable ((mintedPositions token).call t op w) := by
  dsimp only [mintedPositions, PivToken]
  split <;> infer_instance

instance (e : Event eurc) (w : World eurc) : Decidable (oneSpelling.env e w) := by
  dsimp only [oneSpelling]
  split <;> infer_instance

/-- The conditions on positions and addresses as a test of one step. -/
def settledTest (token : TokenId) (s : Config (World eurc) Failure Op Op.Out) (a : Step eurc) : Bool :=
  threadTest (fun t op w => decide ((mintedPositions token).call t op w)) s a &&
    envTest (fun e w => decide (oneSpelling.env e w)) s a

theorem settledTest_sound : ∀ (s : Config (World eurc) Failure Op Op.Out) (a : Step eurc),
    settledTest token s a = true → ((mintedPositions token).and oneSpelling).Allows s a :=
  Guard.allows_and ((mintedPositions token).allows_of_decide fun _ _ => trivial)
    (envTest_sound (fun _ _ => of_decide_eq_true) fun _ _ _ => trivial)

def sweepingTest (s : Config (World eurc) Failure Op Op.Out) (t : Nat) (token : TokenId) : Bool :=
  match s.threads t with
  | .call (.write (.escrow (.withdrawRaised t')) none) _ => t' = token
  | _ => false

theorem sweeping_of_test (h : sweepingTest s t token = true) : Sweeping s t token := by
  unfold sweepingTest at h
  split at h
  · rename_i t' next hthread
    obtain rfl := of_decide_eq_true h
    exact ⟨next, hthread⟩
  · cases h

theorem nobody_behind_the_sweep_of_one : ∃ s,
    Reachable (system sampleChain plainToken) (((timely sampleChain 7).and (emptyAtGrace 7)).and
      ((mintedPositions 7).and oneSpelling)) (idle sampleGenesis) s ∧ Sweeping s 0 7 ∧
    3 ∈ contributorsOf s.world.escrow 7 ∧ Settled s.world 7 3 := by
  obtain ⟨s, hs, hlook⟩ := exists_of_observe (Guard.allows_and onceTest_sound settledTest_sound)
    (show observe (fun s a => onceTest sampleChain 7 s a && settledTest 7 s a) recordedMint (fun s =>
        sweepingTest s 0 7 = true ∧ 3 ∈ contributorsOf s.world.escrow 7) = true from rfl)
  obtain ⟨hsweep, hmem⟩ := of_decide_eq_true hlook
  exact ⟨s, hs, sweeping_of_test hsweep, hmem,
    nobody_behind_the_sweep sampleGenesis_genesis hs 0 (sweeping_of_test hsweep) 3 hmem⟩

/-- The investor also holds a position of the same vehicle from the reservation
flow, so the job takes them for served and goes on to the sweep. -/
def skippedInvestor : List (Step plainToken) :=
  funded ++ .env (.commitOfferingFinalization 0 1 11 100) :: .spawn 0 .finalizeIpoEscrowCampaigns :: calls 0 6

theorem contributor_left_behind_the_sweep : Genesis sampleChain sampleGenesis ∧ ∃ s,
    Reachable (system sampleChain plainToken) ((timely sampleChain 7).and (emptyAtGrace 7)) (idle sampleGenesis) s ∧
    Sweeping s 0 7 ∧ 3 ∈ contributorsOf s.world.escrow 7 ∧
    contributionOf s.world.escrow 7 3 = 5 ∧ PropertyToken.balanceOf s.world.property 3 7 = 0 ∧
    ¬Settled s.world 7 3 := by
  obtain ⟨s, hs, hlook⟩ := exists_of_observe onceTest_sound
    (show observe (onceTest sampleChain 7) skippedInvestor (fun s =>
      sweepingTest s 0 7 = true ∧ 3 ∈ contributorsOf s.world.escrow 7 ∧
      contributionOf s.world.escrow 7 3 = 5 ∧ PropertyToken.balanceOf s.world.property 3 7 = 0) = true
      from rfl)
  obtain ⟨hsweep, hmem, hfive, hzero⟩ := of_decide_eq_true hlook
  refine ⟨sampleGenesis_genesis, s, hs, sweeping_of_test hsweep, hmem, hfive, hzero, fun hsettled => ?_⟩
  have hbalance := hsettled.2.1
  rw [hfive, hzero] at hbalance
  cases hbalance

end Settlement
