import VistaBlox.MintProtocol

/-!
# The mint ledger of a whole run

From an empty database and two fresh contracts the intents, positions and chain events
agree, and a contributor's mint succeeds at most once where the chain is timely and every
passed grace check finds the wallet empty.
-/
namespace Settlement

open Evm Interleaving List Option

variable {eurc : Erc20} {chain : Chain} {token : TokenId} {once settled : Prop}

/-- The tables are empty and both contracts have just been deployed. -/
structure Genesis (chain : Chain) (w : World eurc) : Prop where
  pivs : w.pivs = []
  wallets : w.wallets = []
  intents : ∀ i, w.intents i = none
  positions : w.positions = []
  chainEvents : w.chainEvents = []
  txs : w.txs = []
  attempts : w.attempts = []
  escrow : ∃ m eurcAddress ledger,
    IpoEscrow.deploy chain.ipoEscrowContractAddress m eurcAddress ledger = .ok w.escrow
  property : ∃ m, w.property = PropertyToken.deploy m

variable {w : World eurc}

theorem Genesis.inv (h : Genesis chain w) : (rules chain token once settled).inv w := by
  refine ⟨?_, fun _ => ⟨?_, fun a => ?_, ?_⟩, fun _ => ?_⟩
  · constructor <;> simp [h.pivs, h.wallets, h.intents, h.positions, h.chainEvents, h.txs, h.attempts, Sent, PivToken]
  · simp [h.attempts]
  · obtain ⟨m, hm⟩ := h.property
    simp [hm, minted, h.txs, PropertyToken.deploy]
  · simp [h.txs]
  · simp [Distinct, h.wallets]

/-- Every run from a genesis keeps the rules. -/
theorem secure_of_genesis (h₀ : Genesis chain w)
    (h : Reachable (system chain eurc) (guard chain token once settled) (idle w) s) :
    Secure (system chain eurc) (guard chain token once settled) (rules chain token once settled) s :=
  h.secure (sound_system eurc chain token once settled) (secure_idle w h₀.inv)

abbrev Step (eurc : Erc20) := Action Choice (Event eurc) Job

/-- `timely` as a test of one event. -/
def timelyTest (chain : Chain) (token : TokenId) (e : Event eurc) (w : World eurc) : Bool :=
  match e with
  | .mine h _ _ => w.attempts.all fun a =>
      w.now < a.attemptedAt + chain.inFlightGraceMs ∨ (w.txs[h]?.bind Tx.attempt) ≠ some (a.intentId, a.number)
  | .property _ c => c.transfer.all fun x => x.2.2.1 ≠ token
  | _ => true

theorem timelyTest_sound (e : Event eurc) (w : World eurc) (h : timelyTest chain token e w = true) :
    (timely chain token).env e w := by
  cases e with
  | mine =>
    rintro i k ⟨tx, htx, hatt⟩ _ ⟨a, ha, hai, hak, hle⟩
    simp only [timelyTest, List.all_eq_true, decide_eq_true_eq] at h
    obtain hlt | hne := h a ha
    · omega
    · exact hne (by rw [htx, hai, hak]; exact hatt)
  | property =>
    intro src dst n hc
    simp [timelyTest, hc] at h
  | _ => trivial

instance (t : Nat) (op : Op) (w : World eurc) : Decidable ((emptyAtGrace token).call t op w) := by
  dsimp only [emptyAtGrace]
  split <;> infer_instance

/-- The conditions for one mint as a test of one step. -/
def onceTest (chain : Chain) (token : TokenId) (s : Config (World eurc) Failure Op Op.Out) (a : Step eurc) : Bool :=
  envTest (timelyTest chain token) s a && threadTest (fun t op w => decide ((emptyAtGrace token).call t op w)) s a

theorem onceTest_sound : ∀ (s : Config (World eurc) Failure Op Op.Out) (a : Step eurc),
    onceTest chain token s a = true →
    ((timely chain token).and (emptyAtGrace token)).Allows s a :=
  Guard.allows_and (envTest_sound timelyTest_sound fun _ _ _ => trivial)
    ((emptyAtGrace token).allows_of_decide fun _ _ => trivial)

/-- A chain with one operator, and a grace period of ten. -/
def sampleChain : Chain := ⟨5, 200, 100, 10⟩

def sampleGenesis : World plainToken where
  now := 0
  block := 0
  pivs := []
  wallets := []
  intents := fun _ => none
  positions := []
  chainEvents := []
  escrow := ⟨Access.deployed .defaultAdmin 1, false, fun _ => .empty, fun _ _ => 0, fun _ => [], fun _ _ => false,
    [], Function.update (fun _ => 0) 3 7, [], 0⟩
  property := PropertyToken.deploy ⟨1, 0⟩
  txs := []
  attempts := []

theorem sampleGenesis_genesis : Genesis sampleChain sampleGenesis where
  pivs := rfl
  wallets := rfl
  intents _ := rfl
  positions := rfl
  chainEvents := rfl
  txs := rfl
  attempts := rfl
  escrow := ⟨⟨1, 0⟩, 9, Function.update (fun _ => 0) 3 7, rfl⟩
  property := ⟨⟨1, 0⟩, rfl⟩

/-- Investor 3, registered as account 11, funds the campaign of token 7 with
five units; the campaign succeeds and the operator may mint to them. -/
def funded : List (Step plainToken) := [
  .env (.escrow (.call ⟨1, 0⟩ (.role (.grantRole .campaignManager 2)))),
  .env (.escrow (.call ⟨2, 0⟩ (.openCampaign 7 5 10 4))),
  .env (.escrow (.call ⟨3, 1⟩ (.contribute 7 5))),
  .env (.escrow (.call ⟨6, 10⟩ (.finalize 7))),
  .env (.property ⟨1, 0⟩ (.role (.grantRole .minter 5))),
  .env (.property ⟨1, 0⟩ (.role (.grantRole .transferAgent 5))),
  .env (.property ⟨5, 0⟩ (.authorizeHolder 3 7)),
  .env (.registerWallet 11 ⟨3, 0⟩),
  .env (.openOffering ⟨1, some 7, some 0⟩)]

/-- A run of the job takes its next calls, none of which faults. -/
def calls (t n : Nat) : List (Step plainToken) := List.replicate n (.call t ⟨none, 0, false⟩)

/-- Play a schedule from the sample's genesis and look at where it ends. -/
def observe (test : Config (World plainToken) Failure Op Op.Out → Step plainToken → Bool)
    (actions : List (Step plainToken)) (look : Config (World plainToken) Failure Op Op.Out → Bool) : Bool :=
  ((system sampleChain plainToken).play test actions (idle sampleGenesis)).any look

theorem exists_of_observe (htest : ∀ s a, test s a = true → G.Allows s a) (h : observe test actions look = true) :
    ∃ s, Reachable (system sampleChain plainToken) G (idle sampleGenesis) s ∧ look s = true :=
  exists_of_play _ htest actions _ look h

variable {i : IntentId}

section Integrity

variable {s s' : Config (World eurc) Failure Op Op.Out}

theorem reachable_free (token : TokenId) (h : Reachable (system chain eurc) Guard.free s s') :
    Reachable (system chain eurc) (guard chain token False False) s s' :=
  h.mono (fun _ _ _ _ => ⟨False.elim, False.elim⟩) (fun _ _ _ => ⟨False.elim, False.elim⟩)

theorem advanced_of_reachable (h₀ : Genesis chain w) (h : Reachable (system chain eurc) Guard.free (idle w) s)
    (h' : Reachable (system chain eurc) Guard.free s s')
    (hrow : s.world.intents i = some row) : ∃ row', s'.world.intents i = some row' ∧ Advanced row row' := by
  refine (reachable_free 0 h').related (sound_system eurc chain 0 False False)
    (secure_of_genesis h₀ (reachable_free 0 h)) (fun w w' => ∀ row, w.intents i = some row →
      ∃ row', w'.intents i = some row' ∧ Advanced row row') (fun w row hr => ⟨row, hr, .refl row⟩) ?_
    (fun u w w' hr => hr.1.intents i) row hrow
  intro a b c hab hbc row hr
  obtain ⟨row', hr', hadv⟩ := hab row hr
  obtain ⟨row'', hr'', hadv'⟩ := hbc row' hr'
  exact ⟨row'', hr'', hadv.trans hadv'⟩

/-- One position references the intent, and it has one mint event, with the intent's hash. -/
def Booked (w : World eurc) (i : IntentId) (row : EscrowMintIntent) : Prop :=
  ∃ h p e, row.mintTxHash = some h ∧ w.positions.filter (fun p => p.escrowMintIntentId = some i) = [p] ∧
    w.chainEvents.filter (fun e => e.positionId = p.id ∧ e.eventType = .mint) = [e] ∧ e.chainTxHash = h

theorem Recorded.booked (h : Recorded w i row) : Booked w i row := by
  obtain ⟨hash, p, e, hh, _, hp, he, _, htx⟩ := h
  refine ⟨hash, p, e, hh, hp, ?_, htx⟩
  have hsplit : w.chainEvents.filter (fun e => e.positionId = p.id ∧ e.eventType = .mint) =
      (w.chainEvents.filter fun e => e.positionId = p.id).filter fun e => e.eventType = .mint := by
    rw [List.filter_filter]
    congr 1
    funext x
    rw [Bool.and_comm, ← Bool.decide_and]
  rw [hsplit, he]
  simp

/-- Every reachable ledger is consistent: an intent is recorded exactly when it
is booked; its attempt never goes back and a recorded row is final; a stored
hash is that of the attempt's own transaction or of a mint of exactly the
intent's amount that was found on the chain; and a position names a successful
mint of exactly that amount to the intent's wallet. -/
theorem mint_ledger_integrity {w : World eurc} {s : Config (World eurc) Failure Op Op.Out}
    (h₀ : Genesis chain w) (h : Reachable (system chain eurc) Guard.free (idle w) s) :
    (∀ i row, s.world.intents i = some row →
      (row.status = .recorded ↔ Booked s.world i row) ∧
      (∀ s', Reachable (system chain eurc) Guard.free s s' → ∃ row', s'.world.intents i = some row' ∧
        row.attempt ≤ row'.attempt ∧ (row.status = .recorded → row' = row)) ∧
      ∀ hash, row.mintTxHash = some hash → Sent s.world hash i row.attempt ∨
        Mints s.world hash row.walletAddress row.tokenId row.mintAmount) ∧
    ∀ p ∈ s.world.positions, ∀ i, p.escrowMintIntentId = some i →
      (p.pivId = i.pivId ∧ p.accountId = i.accountId) ∧
      ∃ row e, s.world.intents i = some row ∧
        s.world.chainEvents.filter (fun e => e.positionId = p.id ∧ e.eventType = .mint) = [e] ∧
        row.mintTxHash = some e.chainTxHash ∧
        Mints s.world e.chainTxHash row.walletAddress row.tokenId row.mintAmount := by
  have hL : Ledger chain s.world := (secure_of_genesis h₀ (reachable_free 0 h)).1.1
  refine ⟨fun i row hrow => ⟨⟨fun hs => (hL.recorded i row hrow hs).booked, ?_⟩, ?_, (hL.rows i row hrow).hash⟩, ?_⟩
  · rintro ⟨hash, p, e, _, hp, _⟩
    have hmem := mem_filter.mp (hp ▸ mem_singleton_self p)
    obtain ⟨_, row', hrow', hs⟩ := hL.referenced p hmem.1 i (by simpa using hmem.2)
    rw [hrow] at hrow'
    cases hrow'
    exact hs
  · intro s' h'
    obtain ⟨row', hrow', hadv⟩ := advanced_of_reachable h₀ h h' hrow
    exact ⟨row', hrow', hadv.attempt, hadv.recorded⟩
  · intro p hp i hi
    obtain ⟨hids, row, hrow, hs⟩ := hL.referenced p hp i hi
    have hrec := hL.recorded i row hrow hs
    obtain ⟨hash, q, e, hh, hq, he, htx⟩ := hrec.booked
    obtain ⟨hash', _, _, hh', hm, _⟩ := hrec
    have hpq : p ∈ s.world.positions.filter (fun p => p.escrowMintIntentId = some i) :=
      mem_filter.mpr ⟨hp, by simpa using hi⟩
    rw [hq, mem_singleton] at hpq
    subst hpq
    rw [hh] at hh'
    cases hh'
    exact ⟨hids, row, e, hrow, he, by rw [htx, hh], htx ▸ hm⟩

/-- One run mints for the investor and records the position. -/
def recordedMint : List (Step plainToken) :=
  funded ++ .spawn 0 .finalizeIpoEscrowCampaigns :: calls 0 15 ++ .env (.mine 3 11 true) :: calls 0 3

theorem mint_ledger_integrity_recorded : ∃ s row,
    Reachable (system sampleChain plainToken) Guard.free (idle sampleGenesis) s ∧
    s.world.intents ⟨1, 11⟩ = some row ∧ row.status = .recorded ∧ Booked s.world ⟨1, 11⟩ row := by
  obtain ⟨s, hs, hlook⟩ := exists_of_observe Guard.allows_free
    (show observe (fun _ _ => true) recordedMint (fun s =>
      (s.world.intents ⟨1, 11⟩).map EscrowMintIntent.status = some .recorded) = true from rfl)
  obtain ⟨row, hrow, hstatus⟩ := map_eq_some_iff.mp (of_decide_eq_true hlook)
  exact ⟨s, row, hs, hrow, hstatus, ((mint_ledger_integrity sampleGenesis_genesis hs).1 _ row hrow).1.mp hstatus⟩

/-- A run sends the mint and dies, a second one restarts the attempt and dies
before it sends; then the first transaction is mined, and a third run adopts it. -/
def adoptedMint : List (Step plainToken) :=
  funded ++ .spawn 0 .finalizeIpoEscrowCampaigns :: calls 0 14 ++ .env (.tick 10) ::
    .spawn 1 .finalizeIpoEscrowCampaigns :: calls 1 13 ++ .env (.mine 3 11 true) ::
    .spawn 2 .finalizeIpoEscrowCampaigns :: calls 2 11

theorem adopted_hash_of_an_older_attempt : Genesis sampleChain sampleGenesis ∧ ∃ s row,
    Reachable (system sampleChain plainToken) Guard.free (idle sampleGenesis) s ∧
    s.world.intents ⟨1, 11⟩ = some row ∧ row.mintTxHash = some 3 ∧ row.attempt = 2 ∧
    Sent s.world 3 ⟨1, 11⟩ 1 ∧ ¬Sent s.world 3 ⟨1, 11⟩ row.attempt := by
  obtain ⟨s, hs, hlook⟩ := exists_of_observe Guard.allows_free
    (show observe (fun _ _ => true) adoptedMint (fun s =>
      (s.world.intents ⟨1, 11⟩).map (fun row => (row.mintTxHash, row.attempt)) = some (some 3, 2) ∧
      s.world.txs[3]?.map Tx.attempt = some (some (⟨1, 11⟩, 1))) = true from rfl)
  obtain ⟨hrow, htx⟩ := of_decide_eq_true hlook
  obtain ⟨row, hrow, hfields⟩ := map_eq_some_iff.mp hrow
  obtain ⟨tx, htx, hatt⟩ := map_eq_some_iff.mp htx
  obtain ⟨hhash, hattempt⟩ := Prod.mk.injEq _ _ _ _ ▸ hfields
  refine ⟨sampleGenesis_genesis, s, row, hs, hrow, hhash, hattempt, ⟨tx, htx, hatt⟩, ?_⟩
  rintro ⟨tx', htx', hatt'⟩
  rw [htx] at htx'
  cases htx'
  rw [hatt, hattempt] at hatt'
  cases hatt'

/-- In every run an attempt sends at most one transaction, and what it sends mints
the contribution to a successful campaign, in the token of its vehicle, to the
wallet that gave it and that is registered to the intent's account. -/
theorem attempt_mints_contribution (h₀ : Genesis chain w) (h : Reachable (system chain eurc) Guard.free (idle w) s)
    {hash : TxHash} {tx : Tx} (htx : s.world.txs[hash]? = some tx) (hattempt : tx.attempt = some (i, k)) :
    (∀ hash', Sent s.world hash' i k → hash' = hash) ∧
    ∃ wallet token, Registered s.world i.accountId wallet ∧ PivToken s.world i.pivId token ∧
      (IpoEscrow.campaignOf s.world.escrow token).state = .successful ∧
      tx.payload = .property (.mint wallet token (IpoEscrow.contributionOf s.world.escrow token wallet) true) := by
  have hL := (secure_of_genesis h₀ (reachable_free 0 h)).1.1
  obtain ⟨-, row, hrow, -, hpayload⟩ := (hL.txs hash tx htx).attempt i k hattempt
  have hok := hL.rows i row hrow
  refine ⟨fun hash' hsent => hL.oneTx hash' hash i k hsent ⟨tx, htx, hattempt⟩,
    row.walletAddress, row.tokenId, hok.registered, hok.piv, hok.campaign, ?_⟩
  rw [IpoEscrow.contributionOf, hok.contribution]
  exact hpayload

theorem attempt_mints_contribution_recorded : ∃ s,
    Reachable (system sampleChain plainToken) Guard.free (idle sampleGenesis) s ∧
    Sent s.world 3 ⟨1, 11⟩ 1 ∧ ∀ hash, Sent s.world hash ⟨1, 11⟩ 1 → hash = 3 := by
  obtain ⟨s, hs, hlook⟩ := exists_of_observe Guard.allows_free
    (show observe (fun _ _ => true) recordedMint (fun s =>
      s.world.txs[3]?.map Tx.attempt = some (some (⟨1, 11⟩, 1))) = true from rfl)
  obtain ⟨tx, htx, hattempt⟩ := map_eq_some_iff.mp (of_decide_eq_true hlook)
  exact ⟨s, hs, ⟨tx, htx, hattempt⟩, (attempt_mints_contribution sampleGenesis_genesis hs htx hattempt).1⟩

end Integrity

theorem Once.one_success (hO : Once chain token w) (hL : Ledger chain w) (hof : OfToken token w i)
    (hs : Sent w h i k) (hs' : Sent w h' i k') (hsucc : Succeeded h w) (hsucc' : Succeeded h' w) : h = h' := by
  obtain ⟨row, hrow, ht⟩ := hof
  have hlast : ∀ {h k}, Sent w h i k → Succeeded h w → k = row.attempt := by
    rintro h k ⟨tx, htx, hatt⟩ ⟨tx', htx', hstatus⟩
    rw [htx] at htx'
    cases htx'
    obtain ⟨⟨u, a, ha, hai, hak, _⟩, row', hrow', hle, _⟩ := (hL.txs h tx htx).attempt i k hatt
    rw [hrow] at hrow'
    cases hrow'
    obtain hlt | heq := Nat.lt_or_eq_of_le hle
    · have hdead := hO.superseded a ha row (hai ▸ hrow) ht (hak ▸ hlt)
      rw [hai, hak] at hdead
      exact absurd hstatus (hdead.failed h tx htx hatt).1
    · exact heq
  obtain rfl := (hlast hs hsucc).trans (hlast hs' hsucc').symm
  exact hL.oneTx h h' i k hs hs'

theorem guard_of_timely_empty
    (h : Reachable (system chain eurc) ((timely chain token).and (emptyAtGrace token)) s s') :
    Reachable (system chain eurc) (guard chain token True False) s s' :=
  h.mono (fun _ _ _ h => ⟨fun _ => h.2, False.elim⟩) (fun _ _ h => ⟨fun _ => h.1, False.elim⟩)

/-- How many mints of an intent have succeeded. -/
def successes (w : World eurc) (i : IntentId) : Nat :=
  w.txs.countP fun tx => tx.attempt.map Prod.fst = some i ∧ tx.status = .success

theorem countP_le_one (l : List α) (h : ∀ (m n : Nat) x y, l[m]? = some x →
    l[n]? = some y → test x = true → test y = true → m = n) : l.countP test ≤ 1 := by
  induction l with
  | nil => exact Nat.zero_le 1
  | cons x l ih =>
    by_cases hx : test x = true
    · have hrest : l.countP test = 0 := by
        rw [countP_eq_zero]
        intro y hy hty
        obtain ⟨n, hn⟩ := mem_iff_getElem?.mp hy
        exact absurd (h 0 (n + 1) x y rfl hn hx hty) (by omega)
      rw [countP_cons_of_pos hx, hrest]
    · rw [countP_cons_of_neg hx]
      refine ih fun m n y z hy hz hty htz => ?_
      have := h (m + 1) (n + 1) y z hy hz hty htz
      omega

theorem Once.successes_le_one (hO : Once chain token w) (hL : Ledger chain w) (hof : OfToken token w i) :
    successes w i ≤ 1 := by
  refine countP_le_one w.txs fun h h' tx tx' htx htx' htest htest' => ?_
  simp only [decide_eq_true_eq, map_eq_some_iff] at htest htest'
  obtain ⟨⟨ik, hatt, rfl⟩, hs⟩ := htest
  obtain ⟨⟨ik', hatt', hi⟩, hs'⟩ := htest'
  exact hO.one_success hL hof ⟨tx, htx, hatt⟩ ⟨tx', htx', by rw [hatt', ← hi]⟩ ⟨tx, htx, hs⟩ ⟨tx', htx', hs'⟩

/-- On a timely chain, and as long as every grace check that passes does so
while the wallet is empty, at most one mint of an intent ever succeeds. -/
theorem no_double_mint {w : World eurc} {s : Config (World eurc) Failure Op Op.Out} (h₀ : Genesis chain w)
    (h : Reachable (system chain eurc) ((timely chain token).and (emptyAtGrace token)) (idle w) s)
    (i : IntentId) (hof : OfToken token s.world i) : successes s.world i ≤ 1 := by
  obtain ⟨hL, hO, _⟩ := (secure_of_genesis h₀ (guard_of_timely_empty h)).1
  exact (hO trivial).successes_le_one hL hof

theorem ofToken_of_map (h : (w.intents i).map EscrowMintIntent.tokenId = some token) : OfToken token w i := by
  obtain ⟨row, hrow, ht⟩ := map_eq_some_iff.mp h
  exact ⟨row, hrow, ht⟩

/-- A run dies after claiming the first attempt; a later one finds the grace
period over and the wallet empty, and mints. -/
def retriedMint : List (Step plainToken) :=
  funded ++ .spawn 0 .finalizeIpoEscrowCampaigns :: calls 0 13 ++ .env (.tick 10) ::
    .spawn 1 .finalizeIpoEscrowCampaigns :: calls 1 14 ++ [.env (.mine 3 12 true)]

theorem no_double_mint_retried : ∃ s,
    Reachable (system sampleChain plainToken) ((timely sampleChain 7).and (emptyAtGrace 7)) (idle sampleGenesis) s ∧
    OfToken 7 s.world ⟨1, 11⟩ ∧ successes s.world ⟨1, 11⟩ = 1 ∧ successes s.world ⟨1, 11⟩ ≤ 1 := by
  obtain ⟨s, hs, hlook⟩ := exists_of_observe onceTest_sound
    (show observe (onceTest sampleChain 7) retriedMint (fun s =>
      (s.world.intents ⟨1, 11⟩).map EscrowMintIntent.tokenId = some 7 ∧ successes s.world ⟨1, 11⟩ = 1) = true from rfl)
  obtain ⟨hid, hone⟩ := of_decide_eq_true hlook
  exact ⟨s, hs, ofToken_of_map hid, hone, no_double_mint sampleGenesis_genesis hs _ (ofToken_of_map hid)⟩

/-- A run sends the mint and dies; a second one reads an empty wallet, then the
mint is mined in time, then the second run reads the clock, finds the grace
period over and mints again. -/
def mintedBetweenReads : List (Step plainToken) :=
  funded ++ .spawn 0 .finalizeIpoEscrowCampaigns :: calls 0 14 ++ .spawn 1 .finalizeIpoEscrowCampaigns :: calls 1 9 ++
    [.env (.tick 9), .env (.mine 3 11 true), .env (.tick 1)] ++ calls 1 5 ++ [.env (.mine 4 12 true)]

theorem double_mint_on_timely_chain : Genesis sampleChain sampleGenesis ∧ ∃ s,
    Reachable (system sampleChain plainToken) (timely sampleChain 7) (idle sampleGenesis) s ∧
    OfToken 7 s.world ⟨1, 11⟩ ∧ successes s.world ⟨1, 11⟩ = 2 := by
  obtain ⟨s, hs, hlook⟩ := exists_of_observe (envTest_sound timelyTest_sound fun _ _ _ => trivial)
    (show observe (envTest (timelyTest sampleChain 7)) mintedBetweenReads (fun s =>
      (s.world.intents ⟨1, 11⟩).map EscrowMintIntent.tokenId = some 7 ∧ successes s.world ⟨1, 11⟩ = 2) = true from rfl)
  obtain ⟨hid, htwo⟩ := of_decide_eq_true hlook
  exact ⟨sampleGenesis_genesis, s, hs, ofToken_of_map hid, htwo⟩

end Settlement
