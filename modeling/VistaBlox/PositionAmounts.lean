import Mathlib.Algebra.Order.Ring.Rat
import Mathlib.Tactic.FieldSimp
import Mathlib.Tactic.Linarith
import VistaBlox.IpoEscrowAccounts
import VistaBlox.SweepComplete

/-!
# One unit per euro, as stored

The contribution is stored as the unit count with six decimals and as the cost basis with
two, so the two agree exactly for whole cents.
-/
namespace Settlement

open Currency (Decimal costBasisToUnitCount)
open Evm Interleaving List Option
open IpoEscrow (campaignOf contributionOf contributorsOf CampaignOk)

variable {eurc : Erc20} {chain : Chain} {token : TokenId}

/-- The number a decimal column holds. -/
def stored (units scale : Nat) : ℚ := units / 10 ^ scale

theorem stored_cents_eq_micros : stored cents 2 = stored micros 6 ↔ cents * 10 ^ 4 = micros := by
  unfold stored
  constructor
  · intro h
    have hq : (cents : ℚ) * 10 ^ 4 = micros := by
      field_simp at h
      linarith
    exact_mod_cast hq
  · rintro rfl
    push_cast
    field_simp
    norm_num

theorem sum_stored (l : List α) (column : α → Nat) (scale : Nat) :
    (l.map fun x => stored (column x) scale).sum = stored (l.map column).sum scale := by
  induction l with
  | nil => simp [stored]
  | cons x l ih =>
    rw [map_cons, sum_cons, ih, map_cons, sum_cons]
    simp only [stored]
    push_cast
    exact (add_div _ _ _).symm

def Position.units (p : Position) : ℚ := stored p.unitCount 6

def Position.costBasis (p : Position) : ℚ := stored p.costBasisEur 2

theorem numericColumn_some (h : numericColumn precision scale d = some n) :
    n = if d.scale ≤ scale then d.units * 10 ^ (scale - d.scale)
      else (d.units + 10 ^ (d.scale - scale) / 2) / 10 ^ (d.scale - scale) := by
  unfold numericColumn at h
  simp only [ite_none_right_eq_some, some.injEq] at h
  exact h.2.symm

theorem WrittenFrom.unitCount_eq (h : WrittenFrom row p) : p.unitCount = row.mintAmount := by
  simpa [costBasisToUnitCount, Decimal.ofMicros, Decimal.scale_fixed, Decimal.units_fixed] using numericColumn_some
    h.unitCount

theorem WrittenFrom.costBasisEur_eq (h : WrittenFrom row p) : p.costBasisEur = (row.mintAmount + 5000) / 10000 := by
  simpa [Decimal.ofMicros, Decimal.scale_fixed, Decimal.units_fixed] using numericColumn_some h.costBasisEur

theorem WrittenFrom.costBasis_eq_units_iff (h : WrittenFrom row p) :
    p.costBasis = p.units ↔ 10 ^ 4 ∣ row.mintAmount := by
  rw [Position.costBasis, Position.units, stored_cents_eq_micros, h.unitCount_eq, h.costBasisEur_eq]
  omega

/-- The positions the escrow job has recorded for a campaign's vehicle. -/
def escrowPositions (w : World eurc) (token : TokenId) : List Position :=
  w.positions.filter fun p =>
    p.escrowMintIntentId.isSome ∧ w.pivs.any (fun v => v.id = p.pivId ∧ v.tokenId = some token) = true

theorem mem_escrowPositions :
    p ∈ escrowPositions w token ↔
      p ∈ w.positions ∧ (∃ i, p.escrowMintIntentId = some i) ∧ PivToken w p.pivId token := by
  simp [escrowPositions, PivToken, isSome_iff_exists]

theorem Ledger.positions_nodup (hL : Ledger chain w) : w.positions.Nodup := by
  rw [nodup_iff_getElem?_ne_getElem?]
  intro m n hmn hn heq
  have hsome : w.positions[n]? = some w.positions[n] := getElem?_eq_getElem hn
  have hm := hL.numbered m _ (heq.trans hsome)
  have hn' := hL.numbered n _ hsome
  omega

theorem Ledger.intent_of_escrowPosition (hL : Ledger chain w) (hp : p ∈ escrowPositions w token) :
    ∃ i row, p.escrowMintIntentId = some i ∧ w.intents i = some row ∧ row.tokenId = token ∧
      WrittenFrom row p ∧ w.positions.filter (fun q => q.escrowMintIntentId = some i) = [p] := by
  obtain ⟨hmem, ⟨i, hi⟩, hpiv⟩ := mem_escrowPositions.mp hp
  obtain ⟨⟨hpivId, _⟩, row, hrow, hs⟩ := hL.referenced p hmem i hi
  have htoken := hL.vehicles _ _ _ (hpivId ▸ (hL.rows i row hrow).piv) hpiv
  obtain ⟨_, q, _, _, _, hq, _⟩ := hL.recorded i row hrow hs
  have hpq : p ∈ w.positions.filter (fun q => q.escrowMintIntentId = some i) :=
    mem_filter.mpr ⟨hmem, by simpa using hi⟩
  rw [hq, mem_singleton] at hpq
  subst hpq
  exact ⟨i, row, hi, hrow, htoken, hL.written p hmem i row hi hrow, hq⟩

theorem nodup_holders (hL : Ledger chain w) (hD : Distinct w) :
    ((escrowPositions w token).map Position.holderWalletAddress).Nodup := by
  refine (hL.positions_nodup.filter _).map_on fun p hp q hq hholder => ?_
  obtain ⟨i, row, _, hrow, htoken, hw, hpi⟩ := hL.intent_of_escrowPosition hp
  obtain ⟨j, row', _, hrow', htoken', hw', hqj⟩ := hL.intent_of_escrowPosition hq
  have hwallet : row.walletAddress = row'.walletAddress := by
    rw [hw.holder, hw'.holder] at hholder
    exact some.inj hholder
  obtain rfl := intent_unique hL hD hrow hrow' hwallet (htoken.trans htoken'.symm)
  rw [hpi] at hqj
  exact (cons.inj hqj).1

theorem contributor_of_escrowPosition (hL : Ledger chain w) (hok : CampaignOk w.escrow token)
    (hp : p ∈ escrowPositions w token) : ∃ a ∈ contributorsOf w.escrow token,
      p.holderWalletAddress = some a ∧ p.unitCount = contributionOf w.escrow token a := by
  obtain ⟨i, row, _, hrow, htoken, hw, _⟩ := hL.intent_of_escrowPosition hp
  have hrowOk := hL.rows i row hrow
  have hamount : contributionOf w.escrow token row.walletAddress = row.mintAmount := by
    rw [← hrowOk.contribution, htoken]
    rfl
  refine ⟨row.walletAddress, ?_, hw.holder, hw.unitCount_eq.trans hamount.symm⟩
  by_contra hnot
  have hzero := hok.unlisted row.walletAddress hnot
  have hpos := hrowOk.positive
  rw [← hamount] at hpos
  exact absurd hzero (Nat.pos_iff_ne_zero.mp hpos)

theorem escrowPosition_of_delivered (hL : Ledger chain w) (h : Delivered w token a) :
    ∃ p ∈ escrowPositions w token, p.holderWalletAddress = some a := by
  obtain ⟨i, row, hrow, hs, hwallet, htoken⟩ := h
  obtain ⟨_, p, _, _, _, hp, _⟩ := hL.recorded i row hrow hs
  have hmem := mem_filter.mp (hp ▸ mem_singleton_self p)
  have hi : p.escrowMintIntentId = some i := by simpa using hmem.2
  have hpiv : PivToken w p.pivId token := by
    rw [(hL.referenced p hmem.1 i hi).1.1, ← htoken]
    exact (hL.rows i row hrow).piv
  refine ⟨p, mem_escrowPositions.mpr ⟨hmem.1, ⟨i, hi⟩, hpiv⟩, ?_⟩
  rw [(hL.written p hmem.1 i row hi hrow).holder, hwallet]

theorem holders_perm_contributors (hL : Ledger chain w) (hD : Distinct w)
    (hok : CampaignOk w.escrow token)
    (hall : ∀ a ∈ contributorsOf w.escrow token, Delivered w token a) :
    ((escrowPositions w token).map Position.holderWalletAddress).Perm
      ((contributorsOf w.escrow token).map some) := by
  refine (perm_ext_iff_of_nodup (nodup_holders hL hD) (hok.nodup.map (some_injective _))).mpr fun o => ?_
  simp only [List.mem_map]
  constructor
  · rintro ⟨p, hp, rfl⟩
    obtain ⟨a, ha, hholder, _⟩ := contributor_of_escrowPosition hL hok hp
    exact ⟨a, ha, hholder.symm⟩
  · rintro ⟨a, ha, rfl⟩
    exact escrowPosition_of_delivered hL (hall a ha)

theorem sum_unitCount (hL : Ledger chain w) (hD : Distinct w) (hok : CampaignOk w.escrow token)
    (hstate : (campaignOf w.escrow token).state = .successful)
    (hall : ∀ a ∈ contributorsOf w.escrow token, Delivered w token a) :
    ((escrowPositions w token).map Position.unitCount).sum = (campaignOf w.escrow token).totalRaised := by
  let owed : Option Address → Nat := fun o => (o.map (contributionOf w.escrow token)).getD 0
  have hunits : (escrowPositions w token).map Position.unitCount =
      ((escrowPositions w token).map Position.holderWalletAddress).map owed := by
    rw [List.map_map]
    refine map_congr_left fun p hp => ?_
    obtain ⟨a, _, hholder, hamount⟩ := contributor_of_escrowPosition hL hok hp
    simp [owed, hholder, hamount]
  calc ((escrowPositions w token).map Position.unitCount).sum
      = (((escrowPositions w token).map Position.holderWalletAddress).map owed).sum := by rw [hunits]
    _ = (((contributorsOf w.escrow token).map some).map owed).sum :=
        ((holders_perm_contributors hL hD hok hall).map owed).sum_eq
    _ = ((w.escrow.contributorsList token).map (w.escrow.contributions token)).sum := by
        rw [List.map_map]
        rfl
    _ = ∑ a, w.escrow.contributions token a := IpoEscrow.sum_contributorsList hok
    _ = (campaignOf w.escrow token).totalRaised := hok.raised (fun hf => by
        rw [show (w.escrow.campaigns token).state = _ from hstate] at hf
        cases hf)

theorem sum_costBasis (hL : Ledger chain w) (hD : Distinct w) (hok : CampaignOk w.escrow token)
    (hstate : (campaignOf w.escrow token).state = .successful)
    (hall : ∀ a ∈ contributorsOf w.escrow token, Delivered w token a)
    (hcents : ∀ a ∈ contributorsOf w.escrow token, 10 ^ 4 ∣ contributionOf w.escrow token a) :
    ((escrowPositions w token).map Position.costBasis).sum =
      stored (campaignOf w.escrow token).totalRaised 6 := by
  have heach : ∀ p ∈ escrowPositions w token, p.costBasis = p.units := by
    intro p hp
    obtain ⟨a, ha, _, hamount⟩ := contributor_of_escrowPosition hL hok hp
    obtain ⟨_, row, _, _, _, hw, _⟩ := hL.intent_of_escrowPosition hp
    rw [hw.costBasis_eq_units_iff, ← hw.unitCount_eq, hamount]
    exact hcents a ha
  rw [map_congr_left heach, ← sum_unitCount hL hD hok hstate hall]
  exact sum_stored _ Position.unitCount 6

variable {c : Choice} {op : Op} {t : Nat}

/-- Somebody else sweeps the campaign only once every contributor's mint has been recorded. -/
def sweptLast (token : TokenId) : Guard (World eurc) (Event eurc) Op where
  call _ _ _ := True
  env e w := match e with
    | .escrow (.call _ (.withdrawRaised t)) =>
      t = token → ∀ a ∈ contributorsOf w.escrow token, Delivered w token a
    | _ => True

/-- The campaign has been swept, or the job has sent the sweep. -/
def SweepSent (w : World eurc) (token : TokenId) : Prop :=
  (w.escrow.campaigns token).swept = true ∨ ∃ tx ∈ w.txs, tx.payload = .escrow (.withdrawRaised token)

/-- Nobody is left to be served, and nobody will come. -/
def AllServed (w : World eurc) (token : TokenId) : Prop :=
  (w.escrow.campaigns token).state = .successful ∧
    ∀ a ∈ contributorsOf w.escrow token, Delivered w token a

structure Orderly (token : TokenId) (w : World eurc) : Prop where
  campaigns : ∀ t, CampaignOk w.escrow t
  served : SweepSent w token → AllServed w token

theorem AllServed.later (h : AllServed w token) (hE : Evolves w w') : AllServed w' token := by
  obtain ⟨hstate, _, hlist⟩ := hE.campaigns token h.1
  refine ⟨hstate, fun a ha => ?_⟩
  rw [contributorsOf, hlist] at ha
  obtain ⟨i, row, hrow, hs, hrest⟩ := h.2 a ha
  obtain ⟨row', hrow', hadv⟩ := hE.intents i row hrow
  obtain rfl := hadv.recorded hs
  exact ⟨i, row', hrow', hs, hrest⟩

theorem Orderly.later (h : Orderly token w) (hE : Evolves w w') (hok : ∀ t, CampaignOk w'.escrow t)
    (hsent : SweepSent w' token → SweepSent w token) : Orderly token w' :=
  ⟨hok, fun hs => (h.served (hsent hs)).later hE⟩

theorem Orderly.same (h : Orderly token w) (hE : Evolves w w') (hescrow : w'.escrow = w.escrow)
    (htxs : ∀ tx ∈ w'.txs, tx.payload = .escrow (.withdrawRaised token) →
      ∃ old ∈ w.txs, old.payload = .escrow (.withdrawRaised token)) : Orderly token w' := by
  refine h.later hE (hescrow ▸ h.campaigns) ?_
  rintro (hs | ⟨tx, htx, hp⟩)
  · exact .inl (hescrow ▸ hs)
  · exact .inr (htxs tx htx hp)

theorem run_chain (h : op.run chain t c w = some (r, w')) : w'.escrow = w.escrow ∧
      (w'.txs = w.txs ∨ ∃ payload attempt, op = .write payload attempt ∧
        w'.txs = w.txs ++ [⟨chain.operator, payload, attempt, .pending, 0, []⟩]) := by
  cases op with
  | read => cases h; exact ⟨rfl, .inl rfl⟩
  | createEscrowMintIntent input =>
    obtain rfl : (createEscrowMintIntent t input w).2 = w' := congrArg Prod.snd (some.inj h)
    unfold createEscrowMintIntent
    split
    · exact ⟨rfl, .inl rfl⟩
    · split <;> exact ⟨rfl, .inl rfl⟩
  | restartEscrowMintAttempt i k attemptedAt =>
    obtain rfl : (restartEscrowMintAttempt t i k attemptedAt w).2 = w' := congrArg Prod.snd (some.inj h)
    unfold restartEscrowMintAttempt
    split
    · split <;> exact ⟨rfl, .inl rfl⟩
    · exact ⟨rfl, .inl rfl⟩
  | recordEscrowMintSent i k hash =>
    obtain rfl : (recordEscrowMintSent i k hash w).2 = w' := congrArg Prod.snd (some.inj h)
    unfold recordEscrowMintSent
    split
    · split
      · exact ⟨rfl, .inl rfl⟩
      · split <;> exact ⟨rfl, .inl rfl⟩
    · exact ⟨rfl, .inl rfl⟩
  | recordEscrowMintedPosition input =>
    obtain rfl : (recordEscrowMintedPosition input w).2 = w' := congrArg Prod.snd (some.inj h)
    obtain hsame | ⟨_, _, _, _, _, _, _, _, heq⟩ := recordEscrowMintedPosition_cases (w := w) input
    · rw [hsame]
      exact ⟨rfl, .inl rfl⟩
    · rw [heq]
      exact ⟨rfl, .inl rfl⟩
  | write payload attempt =>
    cases h
    exact ⟨rfl, .inr ⟨payload, attempt, rfl, rfl⟩⟩
  | waitForTransactionReceipt =>
    obtain ⟨receipt, _, he⟩ := map_eq_some_iff.mp h
    cases he
    exact ⟨rfl, .inl rfl⟩

theorem Orderly.call (h : Orderly token w) (hE : Evolves w w') (hreq : Req chain token False True t op w)
    (hexec : exec chain t op c w = some (r, w')) : Orderly token w' := by
  obtain ⟨rfl, _⟩ | ⟨r₀, hrun, _⟩ := exec_run hexec
  · exact h
  obtain ⟨hescrow, htxs | ⟨payload, attempt, rfl, htxs⟩⟩ := run_chain hrun
  · exact h.same hE hescrow fun tx htx hp => ⟨tx, htxs ▸ htx, hp⟩
  by_cases hsweep : payload = .escrow (.withdrawRaised token)
  · have hserved : AllServed w token := by
      cases attempt with
      | none =>
        obtain ⟨hstate, hall⟩ := hreq.2 token hsweep
        exact ⟨hstate, hall trivial rfl⟩
      | some =>
        obtain ⟨_, row, _, hp⟩ := hreq
        rw [hsweep] at hp
        cases hp
    exact ⟨hescrow ▸ h.campaigns, fun _ => hserved.later hE⟩
  · refine h.same hE hescrow fun tx htx hp => ?_
    rw [htxs] at htx
    obtain htx | htx := mem_append.mp htx
    · exact ⟨tx, htx, hp⟩
    · rw [mem_singleton.mp htx] at hp
      exact absurd hp hsweep

theorem Orderly.mine (h : Orderly token w) {hash : TxHash} {tx : Tx} {timestamp : Nat} {accepted : Bool}
    (hE : Evolves w (w.mine chain hash tx timestamp accepted)) (htx : w.txs[hash]? = some tx) :
    Orderly token (w.mine chain hash tx timestamp accepted) := by
  have hmem := mem_of_getElem? htx
  have hset : ∀ {new : Tx} x, x ∈ w.txs.set hash new → new.payload = tx.payload →
      x.payload = .escrow (.withdrawRaised token) → ∃ old ∈ w.txs, old.payload = .escrow (.withdrawRaised token) := by
    intro new x hx hnew hp
    obtain hx | rfl := mem_or_eq_of_mem_set hx
    · exact ⟨x, hx, hp⟩
    · exact ⟨tx, hmem, hnew.symm.trans hp⟩
  unfold World.mine at hE ⊢
  simp only at hE ⊢
  split at hE
  · rename_i c hc
    split at hE
    · rename_i s hexec
      refine h.later hE (IpoEscrow.campaignOk_exec h.campaigns hexec) ?_
      rintro (hs | ⟨x, hx, hp⟩)
      · obtain hs | rfl := IpoEscrow.exec_swept hexec hs
        · exact .inl hs
        · exact .inr ⟨tx, hmem, hc⟩
      · exact .inr (hset x hx rfl hp)
    · exact h.same hE rfl fun x hx hp => hset x hx rfl hp
  · split at hE
    · exact h.same hE rfl fun x hx hp => hset x hx rfl hp
    · exact h.same hE rfl fun x hx hp => hset x hx rfl hp

theorem Orderly.escrow (h : Orderly token w) (e : IpoEscrow.Step eurc)
    (hE : Evolves w { w with escrow := IpoEscrow.step chain.ipoEscrowContractAddress w.escrow e })
    (hguard : (sweptLast token).env (.escrow e) w) :
    Orderly token { w with escrow := IpoEscrow.step chain.ipoEscrowContractAddress w.escrow e } := by
  have hok := IpoEscrow.campaignOk_step chain.ipoEscrowContractAddress h.campaigns e
  obtain hsame | ⟨m, c, rfl, _, hexec⟩ | ⟨l, n, _, _, hs⟩ :=
    IpoEscrow.step_cases chain.ipoEscrowContractAddress w.escrow e
  · refine h.later hE hok fun hsent => ?_
    rwa [SweepSent, hsame] at hsent
  · by_cases hc : c = .withdrawRaised token
    · subst hc
      obtain ⟨_, hstate, _⟩ := IpoEscrow.withdrawRaised_ok hexec
      exact ⟨hok, fun _ => AllServed.later ⟨hstate, hguard rfl⟩ hE⟩
    · refine h.later hE hok ?_
      rintro (hs | hs)
      · exact .inl ((IpoEscrow.exec_swept hexec hs).resolve_right hc)
      · exact .inr hs
  · refine h.later hE hok fun hsent => ?_
    rwa [SweepSent, hs] at hsent

theorem Orderly.env (h : Orderly token w) {e : Event eurc} (hE : Evolves w w')
    (hguard : (sweptLast token).env e w) (henv : env chain e w = some w') : Orderly token w' := by
  cases e with
  | tick => cases henv; exact h.same hE rfl fun tx htx hp => ⟨tx, htx, hp⟩
  | mine =>
    obtain ⟨tx, hp, rfl⟩ := map_eq_some_iff.mp henv
    exact h.mine hE (pendingTx_some hp).1
  | drop =>
    obtain ⟨tx, hp, rfl⟩ := map_eq_some_iff.mp henv
    refine h.same hE rfl fun x hx hpay => ?_
    obtain hx | rfl := mem_or_eq_of_mem_set hx
    · exact ⟨x, hx, hpay⟩
    · exact ⟨tx, mem_of_getElem? (pendingTx_some hp).1, hpay⟩
  | escrow e => cases henv; exact h.escrow e hE hguard
  | property m c =>
    cases henv
    have hplain : ∀ {new : Tx}, new.payload = .property c → ∀ x ∈ w.txs ++ [new],
        x.payload = .escrow (.withdrawRaised token) →
        ∃ old ∈ w.txs, old.payload = .escrow (.withdrawRaised token) := by
      intro new hnew x hx hp
      obtain hx | hx := mem_append.mp hx
      · exact ⟨x, hx, hp⟩
      · rw [mem_singleton.mp hx, hnew] at hp
        cases hp
    unfold World.foreignCall at hE ⊢
    split at hE <;> exact h.same hE rfl (hplain rfl)
  | registerWallet | openOffering =>
    simp only [Settlement.env] at henv
    split at henv
    · cases henv
    · cases henv
      exact h.same hE rfl fun tx htx hp => ⟨tx, htx, hp⟩
  | commitOfferingFinalization | moveIpoEnd =>
    cases henv
    exact h.same hE rfl fun tx htx hp => ⟨tx, htx, hp⟩

theorem Genesis.orderly (h : Genesis chain w) : Orderly token w := by
  obtain ⟨m, eurcAddress, ledger, hdeploy⟩ := h.escrow
  have hok := (IpoEscrow.accounts_deployed hdeploy).campaign
  refine ⟨hok, ?_⟩
  rintro (hs | ⟨tx, htx, _⟩)
  · rw [(IpoEscrow.deploy_ok hdeploy).1] at hs
    cases hs
  · rw [h.txs] at htx
    cases htx

/-- The conditions under which nobody is left behind a sweep, whoever sends it. -/
def sweepConditions (token : TokenId) : Guard (World eurc) (Event eurc) Op :=
  ((mintedPositions token).and oneSpelling).and (sweptLast token)

theorem guarded_of_conditions (h : Reachable (system chain eurc) (sweepConditions token) (idle w) s) :
    Reachable (system chain eurc) ((guard chain token False True).and (sweptLast token)) (idle w) s :=
  h.mono (fun _ _ _ hg => ⟨⟨False.elim, fun _ => hg.1.1⟩, hg.2⟩) fun _ _ hg => ⟨⟨False.elim, fun _ => hg.1.2⟩, hg.2⟩

theorem orderly_of_reachable (h₀ : Genesis chain w)
    (h : Reachable (system chain eurc) (sweepConditions token) (idle w) s) : Orderly token s.world :=
  (guarded_of_conditions h).invariant (sound_system eurc chain token False True) (secure_idle w h₀.inv)
    (Orderly token) h₀.orderly
    (fun _ _ _ _ _ _ _ ⟨_, hrely⟩ hreq _ hexec ho => ho.call hrely.1 hreq hexec)
    fun _ _ _ _ ⟨_, hrely⟩ hguard henv ho => ho.env hrely.1 hguard henv

/-- As stored, an escrow position's unit count is the contribution and the
minted amount, and its cost basis is its unit count exactly if the contribution
is one of whole cents. Where all are, the cost bases of a campaign swept under
the conditions add up to what it raised. -/
theorem position_amounts_iff_whole_cents (chain : Chain) (w : World eurc) (h₀ : Genesis chain w) :
    (∀ s, Reachable (system chain eurc) Guard.free (idle w) s → ∀ p ∈ s.world.positions, ∀ i,
      p.escrowMintIntentId = some i → ∃ row hash, s.world.intents i = some row ∧
        p.holderWalletAddress = some row.walletAddress ∧
        0 < contributionOf s.world.escrow row.tokenId row.walletAddress ∧
        p.units * 10 ^ 6 = contributionOf s.world.escrow row.tokenId row.walletAddress ∧
        Mints s.world hash row.walletAddress row.tokenId
          (contributionOf s.world.escrow row.tokenId row.walletAddress) ∧
        (p.costBasis = p.units ↔
          10 ^ 4 ∣ contributionOf s.world.escrow row.tokenId row.walletAddress)) ∧
    ∀ token s, Reachable (system chain eurc) (sweepConditions token) (idle w) s →
      (campaignOf s.world.escrow token).swept = true →
      (∀ a ∈ contributorsOf s.world.escrow token,
        10 ^ 4 ∣ contributionOf s.world.escrow token a) →
      ((escrowPositions s.world token).map Position.costBasis).sum =
        (campaignOf s.world.escrow token).totalRaised / 10 ^ 6 := by
  constructor
  · intro s hs p hp i hi
    have hL : Ledger chain s.world := (secure_of_genesis h₀ (reachable_free 0 hs)).1.1
    obtain ⟨_, row, hrow, hstatus⟩ := hL.referenced p hp i hi
    obtain ⟨hash, _, _, _, hm, _⟩ := hL.recorded i row hrow hstatus
    have hwritten := hL.written p hp i row hi hrow
    have hrowOk := hL.rows i row hrow
    have hamount : contributionOf s.world.escrow row.tokenId row.walletAddress = row.mintAmount :=
      hrowOk.contribution
    refine ⟨row, hash, hrow, hwritten.holder, ?_⟩
    rw [hamount]
    refine ⟨hrowOk.positive, ?_, hm, hwritten.costBasis_eq_units_iff⟩
    rw [Position.units, stored, hwritten.unitCount_eq]
    field_simp
  · intro token s hs hswept hcents
    have hsecure : (rules chain token False True).inv s.world :=
      (secure_of_genesis h₀ ((guarded_of_conditions hs).mono (fun _ _ _ hg => hg.1) fun _ _ hg => hg.1)).1
    have horderly := orderly_of_reachable h₀ hs
    obtain ⟨hstate, hall⟩ := horderly.served (.inl hswept)
    exact sum_costBasis hsecure.1 (hsecure.2.2 trivial) (horderly.campaigns token) hstate hall hcents

/-- Nobody but the job sweeps. -/
def ownSweepTest : Event eurc → World eurc → Bool
  | .escrow (.call _ (.withdrawRaised _)), _ => false
  | _, _ => true

theorem ownSweepTest_sound (e : Event eurc) (w : World eurc) (h : ownSweepTest e w = true) :
    (sweptLast token).env e w := by
  dsimp only [sweptLast]
  split
  · cases h
  · trivial

def sweepTest (token : TokenId) (s : Config (World eurc) Failure Op Op.Out) (a : Step eurc) : Bool :=
  settledTest token s a && envTest ownSweepTest s a

theorem sweepTest_sound (token : TokenId) : ∀ (s : Config (World eurc) Failure Op Op.Out) (a : Step eurc),
    sweepTest token s a = true → (sweepConditions token).Allows s a :=
  Guard.allows_and settledTest_sound (envTest_sound ownSweepTest_sound fun _ _ _ => trivial)

/-- A run of the job mints for the only investor, records the position and sweeps. -/
def sweptAfter (start : List (Step plainToken)) : List (Step plainToken) :=
  start ++ .spawn 0 .finalizeIpoEscrowCampaigns :: calls 0 15 ++ .env (.mine 3 11 true) :: calls 0 4 ++
    [.env (.mine 4 12 true)]

/-- The investor of the sample has two cents. -/
def centsGenesis : World plainToken :=
  { sampleGenesis with escrow := { sampleGenesis.escrow with eurcLedger := Function.update (fun _ => 0) 3 20000 } }

theorem centsGenesis_genesis : Genesis sampleChain centsGenesis :=
  { sampleGenesis_genesis with escrow := ⟨⟨1, 0⟩, 9, Function.update (fun _ => 0) 3 20000, rfl⟩ }

/-- The sample's campaign with a target of two cents, all from the one investor. -/
def fundedWithCents : List (Step plainToken) :=
  (funded.set 1 (.env (.escrow (.call ⟨2, 0⟩ (.openCampaign 7 20000 10 4))))).set 2
    (.env (.escrow (.call ⟨3, 1⟩ (.contribute 7 20000))))

theorem position_amounts_of_two_cents : Genesis sampleChain centsGenesis ∧ ∃ s,
    Reachable (system sampleChain plainToken) (sweepConditions 7) (idle centsGenesis) s ∧
    (campaignOf s.world.escrow 7).swept = true ∧
    (campaignOf s.world.escrow 7).totalRaised = 20000 ∧
    ((escrowPositions s.world 7).map Position.costBasis).sum =
      (campaignOf s.world.escrow 7).totalRaised / 10 ^ 6 := by
  obtain ⟨s, hs, hlook⟩ := exists_of_play (system sampleChain plainToken) (sweepTest_sound 7)
    (sweptAfter fundedWithCents) (idle centsGenesis) (fun s =>
      (campaignOf s.world.escrow 7).swept = true ∧
      (campaignOf s.world.escrow 7).totalRaised = 20000 ∧
      contributorsOf s.world.escrow 7 = [3] ∧ contributionOf s.world.escrow 7 3 = 20000) rfl
  obtain ⟨hswept, htotal, hlist, hgiven⟩ := of_decide_eq_true hlook
  have hcents : ∀ a ∈ contributorsOf s.world.escrow 7,
      10 ^ 4 ∣ contributionOf s.world.escrow 7 a := by
    intro a ha
    rw [hlist, mem_singleton] at ha
    rw [ha, hgiven]
    decide
  exact ⟨centsGenesis_genesis, s, hs, hswept, htotal,
    (position_amounts_iff_whole_cents sampleChain centsGenesis centsGenesis_genesis).2 7 s hs hswept hcents⟩

/-- Five millionths of a euro are five units and no cost basis, and the swept
campaign's cost bases add up to nothing. -/
theorem units_without_cost_basis : Genesis sampleChain sampleGenesis ∧ ∃ s,
    Reachable (system sampleChain plainToken) (sweepConditions 7) (idle sampleGenesis) s ∧
    (campaignOf s.world.escrow 7).swept = true ∧
    (∃ p ∈ s.world.positions, p.escrowMintIntentId.isSome ∧
      p.units * 10 ^ 6 = contributionOf s.world.escrow 7 3 ∧ p.costBasis ≠ p.units) ∧
    ((escrowPositions s.world 7).map Position.costBasis).sum ≠
      (campaignOf s.world.escrow 7).totalRaised / 10 ^ 6 := by
  obtain ⟨s, hs, hlook⟩ := exists_of_play (system sampleChain plainToken) (sweepTest_sound 7)
    (sweptAfter funded) (idle sampleGenesis) (fun s =>
      (campaignOf s.world.escrow 7).swept = true ∧
      (campaignOf s.world.escrow 7).totalRaised = 5 ∧
      contributionOf s.world.escrow 7 3 = 5 ∧
      (∃ p ∈ s.world.positions, p.escrowMintIntentId.isSome = true ∧ p.unitCount = 5 ∧ p.costBasisEur = 0) ∧
      (escrowPositions s.world 7).map Position.costBasisEur = [0]) rfl
  obtain ⟨hswept, htotal, hfive, ⟨p, hp, hsome, hunits, hcost⟩, hcosts⟩ := of_decide_eq_true hlook
  refine ⟨sampleGenesis_genesis, s, hs, hswept, ⟨p, hp, hsome, ?_, ?_⟩, ?_⟩
  · rw [Position.units, stored, hunits, hfive]
    norm_num
  · rw [Position.costBasis, Position.units, ne_eq, stored_cents_eq_micros, hunits, hcost]
    decide
  · have hsum := sum_stored (escrowPositions s.world 7) Position.costBasisEur 2
    rw [hcosts] at hsum
    rw [show ((escrowPositions s.world 7).map Position.costBasis).sum = _ from hsum, htotal]
    norm_num [stored]

end Settlement
