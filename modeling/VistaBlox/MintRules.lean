import VistaBlox.MintLedger

/-!
# Attempts, grace periods and the rules of the job
-/
namespace Settlement

open Currency (costBasisToUnitCount)
open Evm Interleaving List Option

def OfToken (token : TokenId) (w : World eurc) (i : IntentId) : Prop :=
  ∃ row, w.intents i = some row ∧ row.tokenId = token

/-- No mint of this attempt has succeeded or ever will: its grace period is over,
or its one transaction has been sent and has failed. -/
structure Dead (chain : Chain) (w : World eurc) (i : IntentId) (k : Nat) : Prop where
  failed : ∀ (h : TxHash) tx, w.txs[h]? = some tx → tx.attempt = some (i, k) →
    tx.status ≠ .success ∧ (tx.status = .pending → Expired chain w i k)
  closed : Expired chain w i k ∨ ∃ h, Sent w h i k

/-- No transaction of an expired attempt turned into a success. -/
def NoLateSuccess (chain : Chain) (token : TokenId) (w w' : World eurc) : Prop :=
  ∀ (h : TxHash) tx tx' i k, w.txs[h]? = some tx → w'.txs[h]? = some tx' → tx.attempt = some (i, k) →
    OfToken token w i → Expired chain w i k → tx.status = .pending → tx'.status ≠ .success

variable {chain : Chain} {token : TokenId} {w w' : World eurc}

theorem noLateSuccess_of_txs (h : w'.txs = w.txs) : NoLateSuccess chain token w w' := by
  intro hash tx tx' i k htx htx' _ _ _ hp
  rw [h, htx] at htx'
  cases htx'
  simp [hp]

theorem Dead.mono (hd : Dead chain w i k) (hE : Evolves w w') (hL : Ledger chain w')
    (hN : NoLateSuccess chain token w w') (hO : OfToken token w i) : Dead chain w' i k where
  failed h tx' htx' hatt' := by
    cases htx : w.txs[h]? with
    | none =>
      have hpending := hE.fresh h tx' htx' htx (by simp [hatt'])
      refine ⟨by simp [hpending], fun _ => ?_⟩
      obtain hexp | ⟨h₀, hsent⟩ := hd.closed
      · exact hE.expired hexp
      · obtain rfl := hL.oneTx h h₀ i k ⟨tx', htx', hatt'⟩ (hE.sent hsent)
        obtain ⟨tx, htx₀, _⟩ := hsent
        rw [htx] at htx₀
        cases htx₀
    | some tx =>
      obtain ⟨tx'', htx'', hadv⟩ := hE.txs h tx htx
      rw [htx'] at htx''
      cases htx''
      have hatt : tx.attempt = some (i, k) := hadv.attempt ▸ hatt'
      obtain ⟨hns, hexp⟩ := hd.failed h tx htx hatt
      by_cases hp : tx.status = .pending
      · exact ⟨hN h tx tx' i k htx htx' hatt hO (hexp hp) hp, fun _ => hE.expired (hexp hp)⟩
      · obtain rfl := hadv.settled hp
        exact ⟨hns, fun h => absurd h hp⟩
  closed := hd.closed.imp hE.expired (fun ⟨h, hs⟩ => ⟨h, hE.sent hs⟩)

/-- The units of a token a transaction has put into a wallet. -/
def Tx.delivered (tx : Tx) (token : TokenId) (a : Address) : Nat :=
  match tx.payload with
  | .property (.mint dst id n _) => if tx.status = .success ∧ id = token ∧ dst = a then n else 0
  | _ => 0

def minted (w : World eurc) (token : TokenId) (a : Address) : Nat :=
  (w.txs.map fun tx => tx.delivered token a).sum

variable {tx : Tx}

theorem delivered_of_not_success (h : tx.status ≠ .success) (token : TokenId) (a : Address) :
    tx.delivered token a = 0 := by
  unfold Tx.delivered
  split <;> simp [h]

theorem sum_map_set (txs : List Tx) (h : Nat) (old new : Tx) (f : Tx → Nat) (hold : txs[h]? = some old) :
    ((txs.set h new).map f).sum + f old = (txs.map f).sum + f new := by
  induction txs generalizing h with
  | nil => cases hold
  | cons tx txs ih =>
    cases h with
    | zero =>
      cases hold
      simp only [set_cons_zero, map_cons, sum_cons]
      omega
    | succ h =>
      have := ih h hold
      simp only [set_cons_succ, map_cons, sum_cons]
      omega

variable {h : TxHash}

theorem delivered_le_minted (htx : w.txs[h]? = some tx) (token : TokenId) (a : Address) :
    tx.delivered token a ≤ minted w token a := by
  refine single_le_sum (fun _ _ => Nat.zero_le _) _ (List.mem_map.mpr ⟨tx, ?_, rfl⟩)
  exact mem_of_getElem? htx

/-- What holds of one token identifier if nobody else issues it and mints are
mined in time. -/
structure Once (chain : Chain) (token : TokenId) (w : World eurc) : Prop where
  superseded : ∀ a ∈ w.attempts, ∀ row, w.intents a.intentId = some row → row.tokenId = token →
    a.number < row.attempt → Dead chain w a.intentId a.number
  balance : ∀ a, w.property.balances token a = minted w token a
  foreign : ∀ (h : TxHash) tx a n, w.txs[h]? = some tx → tx.attempt = none → (token, n) ∉ tx.mintLogs a

theorem Once.put (hO : Once chain token w) (hL : Ledger chain w) (hL' : Ledger chain (w.put row extra))
    (hold : ∀ r, w.intents row.id = some r → Advanced r row)
    (hextra : ∀ a ∈ extra, a.intentId = row.id ∧ a.number = row.attempt)
    (hdead : ∀ r, w.intents row.id = some r → r.tokenId = token → r.attempt < row.attempt →
      Dead chain w row.id r.attempt) : Once chain token (w.put row extra) where
  superseded a ha r hr ht hlt := by
    have hE : Evolves w (w.put row extra) := evolves_put hold
    have hmono : ∀ {i k}, Dead chain w i k → OfToken token w i → Dead chain (w.put row extra) i k :=
      fun hd hof => hd.mono hE hL' (noLateSuccess_of_txs rfl) hof
    obtain ha | ha := mem_append.mp ha
    · obtain ⟨r₀, hr₀, hle⟩ := hL.bounded a ha
      obtain ⟨r', hr', hadv⟩ := hE.intents _ r₀ hr₀
      rw [hr] at hr'
      cases hr'
      have ht₀ : r₀.tokenId = token := hadv.tokenId ▸ ht
      refine hmono ?_ ⟨r₀, hr₀, ht₀⟩
      obtain hlt₀ | heq := Nat.lt_or_eq_of_le hle
      · exact hO.superseded a ha r₀ hr₀ ht₀ hlt₀
      · obtain ⟨hi, rfl⟩ | ⟨_, hsame⟩ := put_intents_cases hr
        · rw [heq, hi]
          exact hdead r₀ (hi ▸ hr₀) ht₀ (heq ▸ hlt)
        · rw [hr₀] at hsame
          cases hsame
          omega
    · obtain ⟨hi, hk⟩ := hextra a ha
      rw [hi, put_intents_self] at hr
      cases hr
      omega
  balance := hO.balance
  foreign := hO.foreign

theorem Once.sameTables (hO : Once chain token w) (hS : SameTables w w') (hE : Evolves w w') (hL' : Ledger chain w')
    (hN : NoLateSuccess chain token w w') (hbalance : ∀ a, w'.property.balances token a + minted w token a =
      w.property.balances token a + minted w' token a)
    (hforeign : ∀ (h : TxHash) tx a n, w'.txs[h]? = some tx → tx.attempt = none → (token, n) ∉ tx.mintLogs a) :
    Once chain token w' where
  superseded a ha row hrow ht hlt := by
    rw [hS.attempts] at ha
    rw [hS.intents] at hrow
    exact (hO.superseded a ha row hrow ht hlt).mono hE hL' hN ⟨row, hrow, ht⟩
  balance a := by
    have h := hbalance a
    rw [hO.balance a] at h
    omega
  foreign := hforeign

/-- No two accounts are registered with spellings of one address. -/
def Distinct (w : World eurc) : Prop :=
  ∀ r ∈ w.wallets, ∀ r' ∈ w.wallets, r.walletAddress.address = r'.walletAddress.address → r = r'

/-- A contributor's mint has been recorded. -/
def Delivered (w : World eurc) (token : TokenId) (a : Address) : Prop :=
  ∃ i row, w.intents i = some row ∧ row.status = .recorded ∧ row.walletAddress = a ∧ row.tokenId = token

/-- The thread owns an attempt and has not sent its transaction yet. -/
def Claim (t : Nat) (i : IntentId) (k : Nat) (w : World eurc) : Prop := Claimed w t i k ∧ ∀ h, ¬Sent w h i k

section Rules

variable (chain : Chain) (token : TokenId) (once settled : Prop)

/-- A position is to be written with the wallet and the amount of an intent's row. -/
structure Describes (input : RecordEscrowMintedPositionInput) (row : EscrowMintIntent) : Prop where
  walletAddress : input.walletAddress = row.walletAddress
  costBasisEur : input.costBasisEur = .ofMicros row.mintAmount
  unitCount : input.unitCount = costBasisToUnitCount input.costBasisEur

theorem Describes.written (h : Describes input row) (hholder : p.holderWalletAddress = some input.walletAddress)
    (hunits : numericColumn 20 6 input.unitCount = some p.unitCount)
    (hcost : numericColumn 15 2 input.costBasisEur = some p.costBasisEur) : WrittenFrom row p where
  holder := h.walletAddress ▸ hholder
  unitCount := by rw [← h.costBasisEur, ← h.unitCount, hunits]
  costBasisEur := by rw [← h.costBasisEur, hcost]

/-- What has to hold whenever a thread is about to make a call. -/
def Req (t : Nat) (op : Op) (w : World eurc) : Prop :=
  match op with
  | .read _ | .waitForTransactionReceipt _ => True
  | .createEscrowMintIntent input =>
    Registered w input.id.accountId input.walletAddress ∧ PivToken w input.id.pivId input.tokenId ∧
    (w.escrow.campaigns input.tokenId).state = .successful ∧
    w.escrow.contributions input.tokenId input.walletAddress = input.mintAmount ∧
    input.tokenContractAddress = chain.propertyContractAddress
  | .restartEscrowMintAttempt i k _ => once → OfToken token w i → Dead chain w i k
  | .recordEscrowMintSent i k h => ∀ row, w.intents i = some row →
    Sent w h i k ∨ Mints w h row.walletAddress row.tokenId row.mintAmount
  | .recordEscrowMintedPosition input =>
    (input.pivId = input.escrowMintIntentId.pivId ∧ input.accountId = input.escrowMintIntentId.accountId) ∧
    ∀ row, w.intents input.escrowMintIntentId = some row → Describes input row ∧
      Mints w input.chainTxHash row.walletAddress row.tokenId row.mintAmount
  | .write payload (some (i, k)) => Claim t i k w ∧ ∃ row, w.intents i = some row ∧ payload = mintPayload row
  | .write payload none => (∀ c, payload = .property c → c.transfer = none) ∧
    ∀ t', payload = .escrow (.withdrawRaised t') → (w.escrow.campaigns t').state = .successful ∧
      (settled → t' = token → ∀ a ∈ IpoEscrow.contributorsOf w.escrow t', Delivered w t' a)

def rules : Rules (World eurc) Op where
  inv w := Ledger chain w ∧ (once → Once chain token w) ∧ (settled → Distinct w)
  rely t w w' := Evolves w w' ∧ Keeps t w w' ∧ (once → NoLateSuccess chain token w w')
  req := Req chain token once settled

/-- A step of one thread that keeps the invariant and that the others expect. -/
def Acceptable (t : Nat) (w w' : World eurc) : Prop :=
  (rules chain token once settled).inv w' ∧ ∀ u, u ≠ t → (rules chain token once settled).rely u w w'

variable {chain token once settled} {t : Nat}

theorem rely_refl (u : Nat) : (rules chain token once settled).rely u w w :=
  ⟨.refl w, fun _ _ _ h _ => h, fun _ => noLateSuccess_of_txs rfl⟩

theorem acceptable_refl (h : (rules chain token once settled).inv w) :
    Acceptable chain token once settled t w w := ⟨h, fun u _ => rely_refl u⟩

theorem acceptable_put (hinv : (rules chain token once settled).inv w) (hputs : Puts chain w row extra)
    (hdead : once → ∀ r, w.intents row.id = some r → r.tokenId = token → r.attempt < row.attempt →
      Dead chain w row.id r.attempt) : Acceptable chain token once settled t w (w.put row extra) := by
  obtain ⟨hL, hO, hD⟩ := hinv
  have hL' := hL.put hputs
  exact ⟨⟨hL', fun h => (hO h).put hL hL' hputs.advanced hputs.ofRow (hdead h), hD⟩,
    fun u _ => ⟨evolves_put hputs.advanced, keeps_put u, fun _ => noLateSuccess_of_txs rfl⟩⟩

theorem createEscrowMintIntent_cases (input : CreateEscrowMintIntentInput) :
    (∃ r, createEscrowMintIntent t input w = (r, w) ∧ ∀ row, r ≠ .ok (row, true)) ∨
    (w.intents input.id = none ∧ 0 < input.mintAmount ∧ createEscrowMintIntent t input w =
      (.ok (newIntent input, true), w.put (newIntent input) [⟨input.id, 1, input.attemptedAt, t⟩])) := by
  unfold createEscrowMintIntent
  split
  · exact .inl ⟨_, rfl, by simp⟩
  · split
    · exact .inl ⟨_, rfl, by simp⟩
    · exact .inr ⟨‹_›, by omega, rfl⟩

theorem create_acceptable (hinv : (rules chain token once settled).inv w)
    (hreq : Req chain token once settled t (.createEscrowMintIntent input) w) :
    Acceptable chain token once settled t w (createEscrowMintIntent t input w).2 := by
  obtain ⟨r, hsame, _⟩ | ⟨hnone, hpos, heq⟩ := createEscrowMintIntent_cases (t := t) (w := w) input
  · rw [hsame]; exact acceptable_refl hinv
  · rw [heq]
    obtain ⟨hreg, hpiv, hcamp, hcontr, hcontract⟩ := hreq
    have hid : (newIntent input).id = input.id := rfl
    refine acceptable_put hinv
      ⟨?_, ?_, ?_, ⟨rfl, ?_, ?_, hreg, hpiv, hcamp, hcontr, hpos, hcontract⟩, ?_, ?_, ?_⟩ ?_
    · intro r hr; rw [hid, hnone] at hr; cases hr
    · intro r hr; rw [hid, hnone] at hr; cases hr
    · simp [newIntent]
    · exact ⟨_, mem_append_right _ (mem_singleton_self _), rfl, rfl, rfl⟩
    · intro h hh; cases hh
    · intro a ha; rw [mem_singleton.mp ha]; exact ⟨rfl, rfl⟩
    · intro a _ b hb hbi
      obtain ⟨r, hr, _⟩ := hinv.1.bounded b hb
      rw [hbi, hid, hnone] at hr
      cases hr
    · intro a ha b hb; rw [mem_singleton.mp ha, mem_singleton.mp hb]
    · intro _ r hr; rw [hid, hnone] at hr; cases hr

def restarted (row : EscrowMintIntent) (attemptedAt : Nat) : EscrowMintIntent :=
  { row with status := .sending, mintTxHash := none, attempt := row.attempt + 1, attemptedAt := attemptedAt }

theorem restartEscrowMintAttempt_cases (i : IntentId) (k attemptedAt : Nat) :
    (∃ b, restartEscrowMintAttempt t i k attemptedAt w = (.ok b, w) ∧ b = false) ∨
    ∃ row, w.intents i = some row ∧ row.attempt = k ∧ row.status ≠ .recorded ∧
      restartEscrowMintAttempt t i k attemptedAt w =
        (.ok true, w.put (restarted row attemptedAt) [⟨i, row.attempt + 1, attemptedAt, t⟩]) := by
  unfold restartEscrowMintAttempt
  split
  · rename_i row hrow
    split
    · rename_i hc
      refine .inr ⟨row, hrow, hc.1, ?_, rfl⟩
      rcases hc.2 with h | h <;> simp [h]
    · exact .inl ⟨false, rfl, rfl⟩
  · exact .inl ⟨false, rfl, rfl⟩

theorem restart_acceptable (hinv : (rules chain token once settled).inv w)
    (hreq : Req chain token once settled t (.restartEscrowMintAttempt i k attemptedAt) w) :
    Acceptable chain token once settled t w (restartEscrowMintAttempt t i k attemptedAt w).2 := by
  obtain ⟨b, heq, _⟩ | ⟨row, hrow, hk, hopen, heq⟩ :=
    restartEscrowMintAttempt_cases (t := t) (w := w) i k attemptedAt
  · rw [heq]; exact acceptable_refl hinv
  · rw [heq]
    have hok := hinv.1.rows i row hrow
    have hid : (restarted row attemptedAt).id = i := hok.id
    have hrow' : w.intents (restarted row attemptedAt).id = some row := by rw [hid]; exact hrow
    have hsame : ∀ r, w.intents (restarted row attemptedAt).id = some r → r = row := by
      intro r hr; rw [hrow'] at hr; exact (some.inj hr).symm
    refine acceptable_put hinv ⟨?_, ?_, ?_,
      ⟨rfl, ?_, ?_, hid ▸ hok.registered, hid ▸ hok.piv, hok.campaign, hok.contribution, hok.positive, hok.contract⟩,
      ?_, ?_, ?_⟩ ?_
    · intro r hr
      obtain rfl := hsame r hr
      exact ⟨rfl, rfl, rfl, rfl, rfl, Nat.le_succ _, fun h => absurd h hopen⟩
    · intro r hr
      obtain rfl := hsame r hr
      exact hopen
    · simp [restarted]
    · exact ⟨_, mem_append_right _ (mem_singleton_self _), hid.symm, rfl, rfl⟩
    · intro h hh; cases hh
    · intro a ha; rw [mem_singleton.mp ha]; exact ⟨hid.symm, rfl⟩
    · intro a _ b hb hbi
      obtain ⟨r, hr, hle⟩ := hinv.1.bounded b hb
      rw [hbi] at hr
      obtain rfl := hsame r hr
      exact Nat.lt_succ_of_le hle
    · intro a ha b hb; rw [mem_singleton.mp ha, mem_singleton.mp hb]
    · intro honce r hr ht _
      obtain rfl := hsame r hr
      rw [hid, hk]
      exact hreq honce ⟨r, hrow, ht⟩

theorem put_nil : w.put row [] = w.putIntent row := by
  simp [World.put, World.putIntent]

theorem recordEscrowMintSent_cases (i : IntentId) (k : Nat) (h : TxHash) :
    (recordEscrowMintSent i k h w).2 = w ∨
    ∃ row, w.intents i = some row ∧ row.attempt = k ∧ row.status = .sending ∧
      (recordEscrowMintSent i k h w).2 = w.put { row with status := .mintSent, mintTxHash := some h } [] := by
  unfold recordEscrowMintSent
  split
  · rename_i row hrow
    split
    · rename_i hc
      exact .inr ⟨row, hrow, hc.1, hc.2, put_nil.symm⟩
    · split <;> exact .inl rfl
  · exact .inl rfl

theorem sent_acceptable (hinv : (rules chain token once settled).inv w)
    (hreq : Req chain token once settled t (.recordEscrowMintSent i k h) w) :
    Acceptable chain token once settled t w (recordEscrowMintSent i k h w).2 := by
  obtain hsame | ⟨row, hrow, hk, hopen, heq⟩ := recordEscrowMintSent_cases (w := w) i k h
  · rw [hsame]; exact acceptable_refl hinv
  · rw [heq]
    have hok := hinv.1.rows i row hrow
    have hid : row.id = i := hok.id
    have hsame : ∀ r, w.intents row.id = some r → r = row := by
      intro r hr; rw [hid, hrow] at hr; exact (some.inj hr).symm
    have hopen' : row.status ≠ .recorded := by simp [hopen]
    obtain ⟨a, ha, hai, hak, hat⟩ := hok.attempt
    refine acceptable_put hinv ⟨?_, ?_, by simp,
      ⟨rfl, ⟨a, mem_append_left _ ha, by rw [hai, ← hid], hak, hat⟩, ?_, hid ▸ hok.registered, hid ▸ hok.piv,
        hok.campaign, hok.contribution, hok.positive, hok.contract⟩, by simp, by simp, by simp⟩ ?_
    · intro r hr
      obtain rfl := hsame r hr
      exact ⟨rfl, rfl, rfl, rfl, rfl, le_rfl, fun h => absurd h hopen'⟩
    · intro r hr
      obtain rfl := hsame r hr
      exact hopen'
    · intro h' hh
      cases hh
      have := hreq row hrow
      rw [← hk, ← hid] at this
      exact this
    · intro _ r hr _ hlt
      obtain rfl := hsame r hr
      simp at hlt

theorem recordEscrowMintedPosition_cases (input : RecordEscrowMintedPositionInput) :
    (recordEscrowMintedPosition input w).2 = w ∨
    ∃ row u c, w.intents input.escrowMintIntentId = some row ∧ row.status = .mintSent ∧
      row.mintTxHash = some input.chainTxHash ∧
      numericColumn 20 6 input.unitCount = some u ∧ numericColumn 15 2 input.costBasisEur = some c ∧
      (recordEscrowMintedPosition input w).2 = w.record
        { row with status := .recorded, recordedAt := some input.activatedAt }
        ⟨w.positions.length, some input.escrowMintIntentId, none, input.pivId, input.accountId, u, c,
          some input.walletAddress, some input.activatedAt⟩
        ⟨w.positions.length, .mint, input.tokenContractAddress, input.tokenId, input.chainTxHash⟩ := by
  unfold recordEscrowMintedPosition
  simp only
  split
  · rename_i row hrow
    split
    · rename_i hc
      split
      · exact .inl rfl
      · split
        · rename_i hu hcost
          exact .inr ⟨row, _, _, hrow, hc.1, hc.2, hu, hcost, rfl⟩
        · exact .inl rfl
    · split <;> exact .inl rfl
  · split <;> exact .inl rfl

theorem record_acceptable (hinv : (rules chain token once settled).inv w)
    (hreq : Req chain token once settled t (.recordEscrowMintedPosition input) w) :
    Acceptable chain token once settled t w (recordEscrowMintedPosition input w).2 := by
  obtain hsame | ⟨row, u, c, hrow, hs, hh, hu, hcost, heq⟩ := recordEscrowMintedPosition_cases (w := w) input
  · rw [hsame]; exact acceptable_refl hinv
  · rw [heq]
    obtain ⟨hL, hO, hD⟩ := hinv
    obtain ⟨hdescribes, hm⟩ := hreq.2 row hrow
    obtain ⟨hE, hL'⟩ := hL.record { row with status := .recorded, recordedAt := some input.activatedAt }
      ⟨w.positions.length, some input.escrowMintIntentId, none, input.pivId, input.accountId, u, c,
        some input.walletAddress, some input.activatedAt⟩
      ⟨w.positions.length, .mint, input.tokenContractAddress, input.tokenId, input.chainTxHash⟩
      hrow (by simp [hs]) rfl hh hm rfl hreq.1 (hdescribes.written rfl hu hcost) rfl rfl rfl rfl
    refine ⟨⟨hL', fun h => ⟨fun a ha r hr ht hlt => ?_, (hO h).balance, (hO h).foreign⟩, hD⟩,
      fun u _ => ⟨hE, fun _ _ _ hs _ => hs, fun _ => noLateSuccess_of_txs rfl⟩⟩
    obtain ⟨r₀, hr₀, _⟩ := hL.bounded a ha
    have hid := (hL.rows _ row hrow).id
    have hatt : r₀.attempt = r.attempt := by
      by_cases hi : a.intentId = input.escrowMintIntentId
      · rw [hi, hrow] at hr₀
        cases hr₀
        simp only [World.record, World.putIntent, hid, hi, Function.update_self, some.injEq] at hr
        rw [← hr]
      · simp only [World.record, World.putIntent, hid, ne_eq, hi, not_false_eq_true, Function.update_of_ne, hr₀,
          some.injEq] at hr
        rw [hr]
    obtain ⟨r', hr', hadv⟩ := hE.intents _ r₀ hr₀
    rw [hr] at hr'
    cases hr'
    have ht₀ : r₀.tokenId = token := hadv.tokenId ▸ ht
    exact ((hO h).superseded a ha r₀ hr₀ ht₀ (hatt ▸ hlt)).mono hE hL' (noLateSuccess_of_txs rfl) ⟨r₀, hr₀, ht₀⟩

theorem mem_mintLogs {a : Address} {id : TokenId} {n : Nat} :
    (id, n) ∈ tx.mintLogs a ↔ ∃ op, PropertyToken.Event.transferSingle op 0 a id n ∈ tx.logs := by
  simp only [Tx.mintLogs, mem_filterMap]
  constructor
  · rintro ⟨e, he, hm⟩
    cases e with
    | transferSingle op =>
      simp only [ite_none_right_eq_some, some.injEq, Prod.mk.injEq] at hm
      obtain ⟨⟨rfl, rfl⟩, rfl, rfl⟩ := hm
      exact ⟨op, he⟩
    | _ => cases hm
  · rintro ⟨op, he⟩
    exact ⟨_, he, by simp⟩

theorem acceptable_append (hinv : (rules chain token once settled).inv w) (hsends : Sends w w' new)
    (hclaim : ∀ i k, new.attempt = some (i, k) → Claimed w t i k)
    (hbalance : once → ∀ a, w'.property.balances token a = w.property.balances token a + new.delivered token a)
    (hforeign : once → ∀ a n, new.attempt = none → (token, n) ∉ new.mintLogs a) :
    Acceptable chain token once settled t w w' := by
  obtain ⟨hL, hO, hD⟩ := hinv
  have hL' := hL.append hsends
  obtain ⟨hS, htxs, hnew, -, -⟩ := hsends
  have hE := hS.evolves_append htxs hnew
  have hN : NoLateSuccess chain token w w' := by
    intro h tx tx' i k htx htx' _ _ _ hp
    rw [htxs, get_append_old htx] at htx'
    cases htx'
    simp [hp]
  refine ⟨⟨hL', fun ho => (hO ho).sameTables hS hE hL' hN (fun a => ?_) ?_, ?_⟩, fun u hu => ⟨hE, ?_, fun _ => hN⟩⟩
  · simp only [minted, htxs, map_append, map_singleton, sum_append, sum_singleton,
      hbalance ho a]
    omega
  · intro h tx a n htx hatt
    rw [htxs] at htx
    obtain hold | ⟨_, rfl⟩ := get_append_cases htx
    · exact (hO ho).foreign h tx a n hold hatt
    · exact hforeign ho a n hatt
  · intro hs; unfold Distinct; rw [hS.wallets]; exact hD hs
  · rintro h i k ⟨tx, htx, hatt⟩ ⟨b, hb, hbi, hbk, hbu⟩
    rw [htxs] at htx
    obtain hold | ⟨_, rfl⟩ := get_append_cases htx
    · exact ⟨tx, hold, hatt⟩
    · obtain ⟨c, hc, hci, hck, hct⟩ := hclaim i k hatt
      obtain rfl := hL.oneClaim b hb c hc (hbi.trans hci.symm) (hbk.trans hck.symm)
      exact absurd (hbu.symm.trans hct) hu

theorem write_acceptable {payload : Payload} {attempt : Option (IntentId × Nat)}
    (hinv : (rules chain token once settled).inv w)
    (hreq : Req chain token once settled t (.write payload attempt) w) :
    Acceptable chain token once settled t w
      { w with txs := w.txs ++ [⟨chain.operator, payload, attempt, .pending, 0, []⟩] } := by
  have hS : SameTables w { w with txs := w.txs ++ [⟨chain.operator, payload, attempt, .pending, 0, []⟩] } :=
    sameTables_chain
  refine acceptable_append hinv ⟨hS, rfl, fun _ => rfl, ⟨?_, ?_, fun _ => rfl, by simp⟩, ?_⟩ ?_ ?_ ?_
  · rintro i k rfl
    obtain ⟨⟨hc, _⟩, row, hrow, hp⟩ := hreq
    obtain ⟨b, hb, hbi, hbk, _⟩ := id hc
    obtain ⟨r, hr, hle⟩ := hinv.1.bounded b hb
    rw [hbi, hrow] at hr
    cases hr
    exact ⟨⟨t, hc⟩, row, hrow, hbk ▸ hle, hp⟩
  · rintro rfl _
    exact hreq.1
  · rintro i k rfl
    exact hreq.1.2
  · rintro i k rfl
    exact hreq.1.1
  · intro _ a
    rw [delivered_of_not_success (by simp)]
    rfl
  · intro _ a n _
    simp [Tx.mintLogs]

/-- Every operation keeps the ledger, and others may rely on it. -/
theorem run_acceptable (hinv : (rules chain token once settled).inv w) (hreq : Req chain token once settled t op w)
    (h : op.run chain t c w = some (r, w')) : Acceptable chain token once settled t w w' := by
  cases op with
  | read => cases h; exact acceptable_refl hinv
  | createEscrowMintIntent input =>
    obtain rfl : (createEscrowMintIntent t input w).2 = w' := congrArg Prod.snd (some.inj h)
    exact create_acceptable hinv hreq
  | restartEscrowMintAttempt i k attemptedAt =>
    obtain rfl : (restartEscrowMintAttempt t i k attemptedAt w).2 = w' := congrArg Prod.snd (some.inj h)
    exact restart_acceptable hinv hreq
  | recordEscrowMintSent i k hash =>
    obtain rfl : (recordEscrowMintSent i k hash w).2 = w' := congrArg Prod.snd (some.inj h)
    exact sent_acceptable hinv hreq
  | recordEscrowMintedPosition input =>
    obtain rfl : (recordEscrowMintedPosition input w).2 = w' := congrArg Prod.snd (some.inj h)
    exact record_acceptable hinv hreq
  | write => cases h; exact write_acceptable hinv hreq
  | waitForTransactionReceipt =>
    obtain ⟨receipt, _, he⟩ := map_eq_some_iff.mp h
    cases he
    exact acceptable_refl hinv

theorem exec_run (h : exec chain t op c w = some (r, w')) :
    (w' = w ∧ ∃ e, r = .error e) ∨
    ∃ r₀, op.run chain t c w = some (r₀, w') ∧ (r = r₀ ∨ ∃ e, r = .error e) := by
  unfold exec at h
  split at h
  · exact .inr ⟨r, h, .inl rfl⟩
  · rename_i applied _
    simp only [some.injEq, Prod.mk.injEq] at h
    obtain ⟨hr, hw⟩ := h
    by_cases ha : applied
    · cases hrun : op.run chain t c w with
      | none => exact .inl ⟨by simpa [ha, hrun] using hw.symm, _, hr.symm⟩
      | some p =>
        refine .inr ⟨p.1, ?_, .inr ⟨_, hr.symm⟩⟩
        have hp : p.2 = w' := by simpa [ha, hrun] using hw
        rw [← hp]
    · exact .inl ⟨by simpa [ha] using hw.symm, _, hr.symm⟩

/-- The same with a fault before or after it. -/
theorem exec_acceptable (hinv : (rules chain token once settled).inv w) (hreq : Req chain token once settled t op w)
    (h : exec chain t op c w = some (r, w')) : Acceptable chain token once settled t w w' := by
  obtain ⟨rfl, _⟩ | ⟨r₀, hrun, _⟩ := exec_run h
  · exact acceptable_refl hinv
  · exact run_acceptable hinv hreq hrun

end Rules

end Settlement
