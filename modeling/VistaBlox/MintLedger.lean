import VistaBlox.FinalizeCampaigns

/-!
# What the mint ledger keeps

Rows, transactions and positions are judged one by one, and every judgement survives the
changes any operation can make (`Evolves`); an operation is looked at only where it writes.
-/
namespace Settlement

open Currency (costBasisToUnitCount)
open Evm Interleaving List Option

def Registered (w : World eurc) (accountId : AccountId) (a : Address) : Prop :=
  ∃ r ∈ w.wallets, r.accountId = accountId ∧ r.walletAddress.address = a

def PivToken (w : World eurc) (pivId : PivId) (tokenId : TokenId) : Prop :=
  ∃ p ∈ w.pivs, p.id = pivId ∧ p.tokenId = some tokenId

/-- A transaction was sent by a given attempt of an intent. -/
def Sent (w : World eurc) (h : TxHash) (i : IntentId) (k : Nat) : Prop :=
  ∃ tx, w.txs[h]? = some tx ∧ tx.attempt = some (i, k)

/-- A transaction's receipt has status success and logs a mint of exactly this. -/
def Mints (w : World eurc) (h : TxHash) (a : Address) (tokenId : TokenId) (n : Nat) : Prop :=
  ∃ tx, w.txs[h]? = some tx ∧ tx.status = .success ∧ (tokenId, n) ∈ tx.mintLogs a

/-- The attempt is on record and its grace period is over. -/
def Expired (chain : Chain) (w : World eurc) (i : IntentId) (k : Nat) : Prop :=
  ∃ a ∈ w.attempts, a.intentId = i ∧ a.number = k ∧ a.attemptedAt + chain.inFlightGraceMs ≤ w.now

def Claimed (w : World eurc) (t : Nat) (i : IntentId) (k : Nat) : Prop :=
  ∃ a ∈ w.attempts, a.intentId = i ∧ a.number = k ∧ a.claimant = t

/-- What may become of a row: it keeps what it mints, never goes back an
attempt, and is final once recorded. -/
structure Advanced (r r' : EscrowMintIntent) : Prop where
  id : r'.id = r.id
  walletAddress : r'.walletAddress = r.walletAddress
  tokenContractAddress : r'.tokenContractAddress = r.tokenContractAddress
  tokenId : r'.tokenId = r.tokenId
  mintAmount : r'.mintAmount = r.mintAmount
  attempt : r.attempt ≤ r'.attempt
  recorded : r.status = .recorded → r' = r

theorem Advanced.refl (r : EscrowMintIntent) : Advanced r r :=
  ⟨rfl, rfl, rfl, rfl, rfl, le_rfl, fun _ => rfl⟩

theorem Advanced.trans (h : Advanced a b) (h' : Advanced b c) : Advanced a c where
  id := h'.id.trans h.id
  walletAddress := h'.walletAddress.trans h.walletAddress
  tokenContractAddress := h'.tokenContractAddress.trans h.tokenContractAddress
  tokenId := h'.tokenId.trans h.tokenId
  mintAmount := h'.mintAmount.trans h.mintAmount
  attempt := h.attempt.trans h'.attempt
  recorded hr := by
    have hb := h.recorded hr
    exact (h'.recorded (hb ▸ hr)).trans hb

def mintPayload (row : EscrowMintIntent) : Payload :=
  .property (.mint row.walletAddress row.tokenId row.mintAmount true)

theorem Advanced.mintPayload (h : Advanced r r') : mintPayload r' = mintPayload r := by
  simp [Settlement.mintPayload, h.walletAddress, h.tokenId, h.mintAmount]

/-- What may become of a transaction: once mined or dropped it is final. -/
structure TxAdvanced (tx tx' : Tx) : Prop where
  payload : tx'.payload = tx.payload
  attempt : tx'.attempt = tx.attempt
  settled : tx.status ≠ .pending → tx' = tx

theorem TxAdvanced.refl (tx : Tx) : TxAdvanced tx tx := ⟨rfl, rfl, fun _ => rfl⟩

/-- What no step of anybody undoes. -/
structure Evolves (w w' : World eurc) : Prop where
  intents : ∀ i row, w.intents i = some row → ∃ row', w'.intents i = some row' ∧ Advanced row row'
  txs : ∀ (h : TxHash) tx, w.txs[h]? = some tx → ∃ tx', w'.txs[h]? = some tx' ∧ TxAdvanced tx tx'
  fresh : ∀ (h : TxHash) tx, w'.txs[h]? = some tx → w.txs[h]? = none → tx.attempt ≠ none → tx.status = .pending
  attempts : ∀ a ∈ w.attempts, a ∈ w'.attempts
  now : w.now ≤ w'.now
  wallets : ∀ r ∈ w.wallets, r ∈ w'.wallets
  pivs : ∀ p t, PivToken w p t → PivToken w' p t
  campaigns : ∀ t, (w.escrow.campaigns t).state = .successful →
    (w'.escrow.campaigns t).state = .successful ∧ w'.escrow.contributions t = w.escrow.contributions t ∧
    w'.escrow.contributorsList t = w.escrow.contributorsList t

theorem Evolves.refl (w : World eurc) : Evolves w w where
  intents _ row h := ⟨row, h, .refl row⟩
  txs _ tx h := ⟨tx, h, .refl tx⟩
  fresh _ _ h h' := by simp [h] at h'
  attempts _ h := h
  now := le_rfl
  wallets _ h := h
  pivs _ _ h := h
  campaigns _ h := ⟨h, rfl, rfl⟩

variable {a : Address} {chain : Chain} {h : TxHash} {i : IntentId} {k : Nat}

section Evolution

variable {w w' : World eurc} (hE : Evolves w w')

include hE

theorem Evolves.registered (h : Registered w x a) : Registered w' x a := by
  obtain ⟨r, hr, hx⟩ := h
  exact ⟨r, hE.wallets r hr, hx⟩

theorem Evolves.sent (hs : Sent w h i k) : Sent w' h i k := by
  obtain ⟨tx, htx, ha⟩ := hs
  obtain ⟨tx', htx', hadv⟩ := hE.txs h tx htx
  exact ⟨tx', htx', hadv.attempt.trans ha⟩

theorem Evolves.mints (hm : Mints w h a t n) : Mints w' h a t n := by
  obtain ⟨tx, htx, hs, hl⟩ := hm
  obtain ⟨tx', htx', hadv⟩ := hE.txs h tx htx
  obtain rfl := hadv.settled (by simp [hs])
  exact ⟨tx', htx', hs, hl⟩

theorem Evolves.expired (h : Expired chain w i k) : Expired chain w' i k := by
  obtain ⟨a, ha, hi, hk, hle⟩ := h
  exact ⟨a, hE.attempts a ha, hi, hk, hle.trans hE.now⟩

theorem Evolves.claimed (h : Claimed w t i k) : Claimed w' t i k := by
  obtain ⟨a, ha, hc⟩ := h
  exact ⟨a, hE.attempts a ha, hc⟩

end Evolution

/-- An intent's row is the faithful record of a contribution and of its latest attempt. -/
structure RowOk (chain : Chain) (w : World eurc) (i : IntentId) (row : EscrowMintIntent) : Prop where
  id : row.id = i
  attempt : ∃ a ∈ w.attempts, a.intentId = i ∧ a.number = row.attempt ∧ a.attemptedAt = row.attemptedAt
  hash : ∀ h, row.mintTxHash = some h →
    Sent w h i row.attempt ∨ Mints w h row.walletAddress row.tokenId row.mintAmount
  registered : Registered w i.accountId row.walletAddress
  piv : PivToken w i.pivId row.tokenId
  campaign : (w.escrow.campaigns row.tokenId).state = .successful
  contribution : w.escrow.contributions row.tokenId row.walletAddress = row.mintAmount
  positive : 0 < row.mintAmount
  contract : row.tokenContractAddress = chain.propertyContractAddress

variable {row : EscrowMintIntent} {w w' : World eurc}

theorem RowOk.mono (h : RowOk chain w i row) (hE : Evolves w w') : RowOk chain w' i row where
  id := h.id
  attempt := by
    obtain ⟨a, ha, hr⟩ := h.attempt
    exact ⟨a, hE.attempts a ha, hr⟩
  hash hash hh := (h.hash hash hh).imp hE.sent hE.mints
  registered := hE.registered h.registered
  piv := hE.pivs _ _ h.piv
  campaign := (hE.campaigns _ h.campaign).1
  contribution := by rw [(hE.campaigns _ h.campaign).2.1]; exact h.contribution
  positive := h.positive
  contract := h.contract

/-- The units a transaction is to move, if it moves any. -/
def Payload.transfer : Payload → Option (Address × Address × TokenId × Nat)
  | .property c => c.transfer
  | .escrow _ => none

/-- A transaction sent by an attempt carries that intent's mint, and a mined
transaction logs what it did and nothing else. -/
structure TxOk (w : World eurc) (tx : Tx) : Prop where
  attempt : ∀ i k, tx.attempt = some (i, k) → (∃ t, Claimed w t i k) ∧
    ∃ row, w.intents i = some row ∧ k ≤ row.attempt ∧ tx.payload = mintPayload row
  plain : tx.attempt = none → tx.status = .pending → ∀ c, tx.payload = .property c → c.transfer = none
  silent : tx.status ≠ .success → tx.logs = []
  logged : tx.status = .success → ∀ a t n, (t, n) ∈ tx.mintLogs a ↔ tx.payload.transfer = some (0, a, t, n)

theorem TxOk.mono (h : TxOk w tx) (hE : Evolves w w') : TxOk w' tx where
  attempt i k ha := by
    obtain ⟨⟨t, hc⟩, row, hrow, hk, hp⟩ := h.attempt i k ha
    obtain ⟨row', hrow', hadv⟩ := hE.intents i row hrow
    exact ⟨⟨t, hE.claimed hc⟩, row', hrow', hk.trans hadv.attempt, hp.trans hadv.mintPayload.symm⟩
  plain := h.plain
  silent := h.silent
  logged := h.logged

/-- A recorded intent has one position, and that position one mint event with
the intent's transaction. -/
def Recorded (w : World eurc) (i : IntentId) (row : EscrowMintIntent) : Prop :=
  ∃ h p e, row.mintTxHash = some h ∧ Mints w h row.walletAddress row.tokenId row.mintAmount ∧
    w.positions.filter (fun p => p.escrowMintIntentId = some i) = [p] ∧
    w.chainEvents.filter (fun e => e.positionId = p.id) = [e] ∧ e.eventType = .mint ∧ e.chainTxHash = h

/-- A position names the wallet of its intent and has the intent's amount, as its columns round it. -/
structure WrittenFrom (row : EscrowMintIntent) (p : Position) : Prop where
  holder : p.holderWalletAddress = some row.walletAddress
  unitCount : numericColumn 20 6 (costBasisToUnitCount (.ofMicros row.mintAmount)) = some p.unitCount
  costBasisEur : numericColumn 15 2 (.ofMicros row.mintAmount) = some p.costBasisEur

theorem WrittenFrom.advanced (h : WrittenFrom r p) (hadv : Advanced r r') :
    WrittenFrom r' p where
  holder := hadv.walletAddress ▸ h.holder
  unitCount := hadv.mintAmount ▸ h.unitCount
  costBasisEur := hadv.mintAmount ▸ h.costBasisEur

structure Ledger (chain : Chain) (w : World eurc) : Prop where
  rows : ∀ i row, w.intents i = some row → RowOk chain w i row
  txs : ∀ (h : TxHash) tx, w.txs[h]? = some tx → TxOk w tx
  oneTx : ∀ h h' i k, Sent w h i k → Sent w h' i k → h = h'
  bounded : ∀ a ∈ w.attempts, ∃ row, w.intents a.intentId = some row ∧ a.number ≤ row.attempt
  oneClaim : ∀ a ∈ w.attempts, ∀ b ∈ w.attempts, a.intentId = b.intentId → a.number = b.number → a = b
  recorded : ∀ i row, w.intents i = some row → row.status = .recorded → Recorded w i row
  referenced : ∀ p ∈ w.positions, ∀ i, p.escrowMintIntentId = some i →
    (p.pivId = i.pivId ∧ p.accountId = i.accountId) ∧ ∃ row, w.intents i = some row ∧ row.status = .recorded
  written : ∀ p ∈ w.positions, ∀ i row, p.escrowMintIntentId = some i → w.intents i = some row → WrittenFrom row p
  numbered : ∀ (n : Nat) p, w.positions[n]? = some p → p.id = n
  events : ∀ e ∈ w.chainEvents, e.positionId < w.positions.length
  accounts : ∀ r ∈ w.wallets, ∀ r' ∈ w.wallets, r.accountId = r'.accountId → r = r'
  tokens : ∀ p p' t, PivToken w p t → PivToken w p' t → p = p'
  vehicles : ∀ p t t', PivToken w p t → PivToken w p t' → t = t'

theorem Ledger.written_later (hL : Ledger chain w) (hE : Evolves w w') :
    ∀ p ∈ w.positions, ∀ i row, p.escrowMintIntentId = some i → w'.intents i = some row → WrittenFrom row p := by
  intro p hp i row hi hrow
  obtain ⟨_, r, hr, _⟩ := hL.referenced p hp i hi
  obtain ⟨row', hrow', hadv⟩ := hE.intents i r hr
  rw [hrow] at hrow'
  cases hrow'
  exact (hL.written p hp i r hi hr).advanced hadv

/-- Nobody else has sent a transaction for an attempt this thread has claimed. -/
def Keeps (t : Nat) (w w' : World eurc) : Prop :=
  ∀ h i k, Sent w' h i k → Claimed w t i k → Sent w h i k

/-- A row is written, together with the attempts it claims. -/
def World.put (w : World eurc) (row : EscrowMintIntent) (extra : List Attempt) : World eurc :=
  { w.putIntent row with attempts := w.attempts ++ extra }

theorem put_intents_self : (w.put row extra).intents row.id = some row := Function.update_self ..

theorem put_intents_cases (h : (w.put row extra).intents i = some r) :
    (i = row.id ∧ r = row) ∨ (i ≠ row.id ∧ w.intents i = some r) := by
  by_cases hi : i = row.id
  · subst hi
    rw [put_intents_self] at h
    exact .inl ⟨rfl, (some.inj h).symm⟩
  · exact .inr ⟨hi, by simpa [World.put, World.putIntent, hi] using h⟩

/-- The world evolves when an intent advances. -/
theorem evolves_put (hold : ∀ r, w.intents row.id = some r → Advanced r row) : Evolves w (w.put row extra) where
  intents i r hr := by
    by_cases hi : i = row.id
    · subst hi
      exact ⟨row, put_intents_self, hold r hr⟩
    · exact ⟨r, by simpa [World.put, World.putIntent, hi] using hr, .refl r⟩
  txs _ tx h := ⟨tx, h, .refl tx⟩
  fresh h tx htx hnone := by rw [show (w.put row extra).txs = w.txs from rfl, hnone] at htx; cases htx
  attempts a ha := mem_append_left _ ha
  now := le_rfl
  wallets _ h := h
  pivs _ _ h := h
  campaigns _ h := ⟨h, rfl, rfl⟩

theorem keeps_put (t : Nat) : Keeps t w (w.put row extra) := fun _ _ _ h _ => h

theorem Ledger.bounded_later (hL : Ledger chain w) (hE : Evolves w w') :
    ∀ a ∈ w.attempts, ∃ r, w'.intents a.intentId = some r ∧ a.number ≤ r.attempt := by
  intro a ha
  obtain ⟨r, hr, hle⟩ := hL.bounded a ha
  obtain ⟨r', hr', hadv⟩ := hE.intents _ r hr
  exact ⟨r', hr', hle.trans hadv.attempt⟩

/-- A row that may be written, with the attempts it adds. -/
structure Puts (chain : Chain) (w : World eurc) (row : EscrowMintIntent) (extra : List Attempt) : Prop where
  advanced : ∀ r, w.intents row.id = some r → Advanced r row
  unrecorded : ∀ r, w.intents row.id = some r → r.status ≠ .recorded
  status : row.status ≠ .recorded
  ok : RowOk chain (w.put row extra) row.id row
  ofRow : ∀ a ∈ extra, a.intentId = row.id ∧ a.number = row.attempt
  later : ∀ a ∈ extra, ∀ b ∈ w.attempts, b.intentId = row.id → b.number < row.attempt
  single : ∀ a ∈ extra, ∀ b ∈ extra, a = b

/-- A new or advanced intent keeps the ledger. -/
theorem Ledger.put (hL : Ledger chain w) (h : Puts chain w row extra) : Ledger chain (w.put row extra) := by
  obtain ⟨hold, hopen, hrow, hok, hextra, hnew, hsingle⟩ := h
  have hE : Evolves w (w.put row extra) := evolves_put hold
  constructor
  case rows =>
    intro i r hr
    obtain ⟨rfl, rfl⟩ | ⟨_, hr⟩ := put_intents_cases hr
    · exact hok
    · exact (hL.rows i r hr).mono hE
  case txs => exact fun h tx htx => (hL.txs h tx htx).mono hE
  case oneTx => exact hL.oneTx
  case bounded =>
    intro a ha
    obtain ha | ha := mem_append.mp ha
    · exact hL.bounded_later hE a ha
    · obtain ⟨hi, hk⟩ := hextra a ha
      exact ⟨row, hi ▸ put_intents_self, hk.le⟩
  case oneClaim =>
    intro a ha b hb hi hk
    obtain ha | ha := mem_append.mp ha <;> obtain hb | hb := mem_append.mp hb
    · exact hL.oneClaim a ha b hb hi hk
    · have hlt := hnew b hb a ha (hi.trans (hextra b hb).1)
      have hnum := (hextra b hb).2
      omega
    · have hlt := hnew a ha b hb (hi.symm.trans (hextra a ha).1)
      have hnum := (hextra a ha).2
      omega
    · exact hsingle a ha b hb
  case recorded =>
    intro i r hr hs
    obtain ⟨rfl, rfl⟩ | ⟨_, hr⟩ := put_intents_cases hr
    · exact absurd hs hrow
    · exact hL.recorded i r hr hs
  case referenced =>
    intro p hp i hi
    obtain ⟨hids, r, hr, hs⟩ := hL.referenced p hp i hi
    refine ⟨hids, r, ?_, hs⟩
    have hne : i ≠ row.id := fun he => hopen r (he ▸ hr) hs
    simpa [World.put, World.putIntent, hne] using hr
  case written => exact hL.written_later hE
  case numbered => exact hL.numbered
  case events => exact hL.events
  case accounts => exact hL.accounts
  case tokens => exact hL.tokens
  case vehicles => exact hL.vehicles

/-- Only transactions, contracts and the clock have moved. -/
structure SameTables (w w' : World eurc) : Prop where
  intents : w'.intents = w.intents
  attempts : w'.attempts = w.attempts
  positions : w'.positions = w.positions
  chainEvents : w'.chainEvents = w.chainEvents
  wallets : w'.wallets = w.wallets
  pivs : w'.pivs = w.pivs
  now : w.now ≤ w'.now
  campaigns : ∀ t, (w.escrow.campaigns t).state = .successful →
    (w'.escrow.campaigns t).state = .successful ∧ w'.escrow.contributions t = w.escrow.contributions t ∧
    w'.escrow.contributorsList t = w.escrow.contributorsList t

theorem sameTables_chain : SameTables w { w with block := block, property := property, txs := txs } :=
  ⟨rfl, rfl, rfl, rfl, rfl, rfl, le_rfl, fun _ h => ⟨h, rfl, rfl⟩⟩

variable {new old : Tx} {txs : List Tx}

theorem SameTables.evolves (hS : SameTables w w')
    (htxs : ∀ (h : TxHash) tx, w.txs[h]? = some tx → ∃ tx', w'.txs[h]? = some tx' ∧ TxAdvanced tx tx')
    (hfresh : ∀ (h : TxHash) tx, w'.txs[h]? = some tx → w.txs[h]? = none → tx.attempt ≠ none →
      tx.status = .pending) : Evolves w w' where
  intents i row h := ⟨row, by rw [hS.intents]; exact h, .refl row⟩
  txs := htxs
  fresh := hfresh
  attempts a ha := by rw [hS.attempts]; exact ha
  now := hS.now
  wallets r hr := by rw [hS.wallets]; exact hr
  pivs p t h := by unfold PivToken at h ⊢; rw [hS.pivs]; exact h
  campaigns := hS.campaigns

theorem Ledger.sameTables (hL : Ledger chain w) (hS : SameTables w w') (hE : Evolves w w')
    (htxs : ∀ (h : TxHash) tx, w'.txs[h]? = some tx → TxOk w' tx)
    (hone : ∀ h h' i k, Sent w' h i k → Sent w' h' i k → h = h') : Ledger chain w' where
  rows i row h := by
    rw [hS.intents] at h
    exact (hL.rows i row h).mono hE
  txs := htxs
  oneTx := hone
  bounded := by rw [hS.attempts, hS.intents]; exact hL.bounded
  oneClaim := by rw [hS.attempts]; exact hL.oneClaim
  recorded i row h hs := by
    rw [hS.intents] at h
    obtain ⟨hash, p, e, hh, hm, hrest⟩ := hL.recorded i row h hs
    exact ⟨hash, p, e, hh, hE.mints hm, by rw [hS.positions, hS.chainEvents]; exact hrest⟩
  referenced := by rw [hS.positions, hS.intents]; exact hL.referenced
  written := by rw [hS.positions, hS.intents]; exact hL.written
  numbered := by rw [hS.positions]; exact hL.numbered
  events := by rw [hS.chainEvents, hS.positions]; exact hL.events
  accounts := by rw [hS.wallets]; exact hL.accounts
  tokens := by unfold PivToken; rw [hS.pivs]; exact hL.tokens
  vehicles := by unfold PivToken; rw [hS.pivs]; exact hL.vehicles

theorem get_append_cases {h : Nat} (hh : (txs ++ [new])[h]? = some tx) :
    txs[h]? = some tx ∨ (h = txs.length ∧ tx = new) := by
  obtain hlt | hge := Nat.lt_or_ge h txs.length
  · exact .inl (by rwa [getElem?_append_left hlt] at hh)
  · rw [getElem?_append_right hge] at hh
    cases hk : h - txs.length with
    | zero => exact .inr ⟨by omega, by simpa [hk, eq_comm] using hh⟩
    | succ => simp [hk] at hh

theorem get_append_old (hh : txs[h]? = some tx) : (txs ++ [new])[h]? = some tx := by
  obtain ⟨hlt, _⟩ := List.getElem?_eq_some_iff.mp hh
  rw [getElem?_append_left hlt, hh]

theorem SameTables.evolves_append (hS : SameTables w w') (htxs : w'.txs = w.txs ++ [new])
    (hnew : new.attempt ≠ none → new.status = .pending) : Evolves w w' := by
  refine hS.evolves (fun h tx hh => ⟨tx, by rw [htxs]; exact get_append_old hh, .refl tx⟩) ?_
  intro h tx hh hnone hatt
  rw [htxs] at hh
  obtain hold | ⟨_, rfl⟩ := get_append_cases hh
  · rw [hold] at hnone; cases hnone
  · exact hnew hatt

/-- A transaction that may be sent. -/
structure Sends (w w' : World eurc) (new : Tx) : Prop where
  tables : SameTables w w'
  txs : w'.txs = w.txs ++ [new]
  pending : new.attempt ≠ none → new.status = .pending
  ok : TxOk w' new
  first : ∀ i k, new.attempt = some (i, k) → ∀ h, ¬Sent w h i k

/-- A transaction sent keeps the ledger. -/
theorem Ledger.append (hL : Ledger chain w) (h : Sends w w' new) : Ledger chain w' := by
  obtain ⟨hS, htxs, hnew, hok, hfirst⟩ := h
  have hE := hS.evolves_append htxs hnew
  have hsent : ∀ h i k, Sent w' h i k → Sent w h i k ∨ (h = w.txs.length ∧ new.attempt = some (i, k)) := by
    rintro h i k ⟨tx, htx, hatt⟩
    rw [htxs] at htx
    obtain hold | ⟨hh, rfl⟩ := get_append_cases htx
    · exact .inl ⟨tx, hold, hatt⟩
    · exact .inr ⟨hh, hatt⟩
  refine hL.sameTables hS hE (fun h tx htx => ?_) (fun h h' i k hs hs' => ?_)
  · rw [htxs] at htx
    obtain hold | ⟨_, rfl⟩ := get_append_cases htx
    · exact (hL.txs h tx hold).mono hE
    · exact hok
  · obtain hs | ⟨hh, hatt⟩ := hsent h i k hs <;> obtain hs' | ⟨hh', hatt'⟩ := hsent h' i k hs'
    · exact hL.oneTx h h' i k hs hs'
    · exact absurd hs (hfirst i k hatt' h)
    · exact absurd hs' (hfirst i k hatt h')
    · rw [hh, hh']

theorem get_set_cases (hold : txs[h]? = some old) (hh : (txs.set h new)[h']? = some tx) :
    (h' = h ∧ tx = new) ∨ (h' ≠ h ∧ txs[h']? = some tx) := by
  obtain ⟨hlt, _⟩ := List.getElem?_eq_some_iff.mp hold
  by_cases he : h' = h
  · subst he
    rw [getElem?_set_self hlt] at hh
    exact .inl ⟨rfl, (some.inj hh).symm⟩
  · rw [getElem?_set_ne (Ne.symm he)] at hh
    exact .inr ⟨he, hh⟩

theorem get_set_self (hold : txs[h]? = some old) : (txs.set h new)[h]? = some new := by
  obtain ⟨hlt, _⟩ := List.getElem?_eq_some_iff.mp hold
  exact getElem?_set_self hlt

theorem SameTables.evolves_set (hS : SameTables w w') (hold : w.txs[h]? = some old) (hadv : TxAdvanced old new)
    (htxs : w'.txs = w.txs.set h new) : Evolves w w' := by
  refine hS.evolves (fun h' tx hh => ?_) (fun h' tx hh hnone => ?_)
  · by_cases he : h' = h
    · subst he
      rw [hold] at hh
      cases hh
      exact ⟨new, by rw [htxs]; exact get_set_self hold, hadv⟩
    · exact ⟨tx, by rw [htxs, getElem?_set_ne (Ne.symm he), hh], .refl tx⟩
  · rw [htxs] at hh
    obtain ⟨rfl, rfl⟩ | ⟨_, hh⟩ := get_set_cases hold hh
    · rw [hold] at hnone; cases hnone
    · rw [hh] at hnone; cases hnone

theorem sent_set (hold : w.txs[h]? = some old) (hadv : TxAdvanced old new) (htxs : w'.txs = w.txs.set h new)
    (hs : Sent w' h' i k) : Sent w h' i k := by
  obtain ⟨tx, htx, hatt⟩ := hs
  rw [htxs] at htx
  obtain ⟨rfl, rfl⟩ | ⟨_, htx⟩ := get_set_cases hold htx
  · exact ⟨old, hold, hadv.attempt ▸ hatt⟩
  · exact ⟨tx, htx, hatt⟩

/-- A transaction mined keeps the ledger. -/
theorem Ledger.set (hL : Ledger chain w) (hS : SameTables w w') (hold : w.txs[h]? = some old)
    (hadv : TxAdvanced old new) (htxs : w'.txs = w.txs.set h new) (hdone : new.status ≠ .pending)
    (hsilent : new.status ≠ .success → new.logs = [])
    (hlogged : new.status = .success → ∀ a t n, (t, n) ∈ new.mintLogs a ↔
      new.payload.transfer = some (0, a, t, n)) : Ledger chain w' := by
  have hE := hS.evolves_set hold hadv htxs
  refine hL.sameTables hS hE (fun h' tx htx => ?_) (fun h' h'' i k hs hs' => ?_)
  · rw [htxs] at htx
    obtain ⟨rfl, rfl⟩ | ⟨_, htx⟩ := get_set_cases hold htx
    · have hmono := (hL.txs h' old hold).mono hE
      exact ⟨fun i k hatt => by rw [hadv.payload]; exact hmono.attempt i k (hadv.attempt ▸ hatt),
        fun _ hp => absurd hp hdone, hsilent, hlogged⟩
    · exact (hL.txs h' tx htx).mono hE
  · exact hL.oneTx h' h'' i k (sent_set hold hadv htxs hs) (sent_set hold hadv htxs hs')

theorem Ledger.position_lt (hL : Ledger chain w) (hp : p ∈ w.positions) : p.id < w.positions.length := by
  obtain ⟨n, hn, he⟩ := mem_iff_getElem.mp hp
  have hid := hL.numbered n p (List.getElem?_eq_some_iff.mpr ⟨hn, he⟩)
  omega

theorem Recorded.append (hL : Ledger chain w) (hE : Evolves w w') (extra : List ChainSettlementEvent)
    (hpos : w'.positions = w.positions ++ [p]) (hp : p.escrowMintIntentId ≠ some i)
    (hev : w'.chainEvents = w.chainEvents ++ extra) (hextra : ∀ e ∈ extra, e.positionId = w.positions.length)
    (h : Recorded w i row) : Recorded w' i row := by
  obtain ⟨hash, q, e, hh, hm, hq, he, hmint⟩ := h
  have hmem : q ∈ w.positions := mem_of_mem_filter (hq ▸ mem_singleton_self q)
  have hlt := hL.position_lt hmem
  refine ⟨hash, q, e, hh, hE.mints hm, ?_, ?_, hmint⟩
  · simp [hpos, filter_append, hq, hp]
  · have hnone : extra.filter (fun e => e.positionId = q.id) = [] := by
      rw [filter_eq_nil_iff]
      intro e' he'
      simp [hextra e' he']
      omega
    rw [hev, filter_append, he, hnone, append_nil]

theorem numbered_append (hL : Ledger chain w) (hid : p.id = w.positions.length) :
    ∀ (n : Nat) q, (w.positions ++ [p])[n]? = some q → q.id = n := by
  intro n q hq
  obtain hlt | hge := Nat.lt_or_ge n w.positions.length
  · rw [getElem?_append_left hlt] at hq
    exact hL.numbered n q hq
  · rw [getElem?_append_right hge] at hq
    cases hk : n - w.positions.length with
    | zero =>
      rw [hk] at hq
      cases hq
      omega
    | succ => simp [hk] at hq

theorem Ledger.reserve (hL : Ledger chain w) (p : Position) (hid : p.id = w.positions.length)
    (hnone : p.escrowMintIntentId = none) :
    Evolves w { w with positions := w.positions ++ [p] } ∧
      Ledger chain { w with positions := w.positions ++ [p] } := by
  have hE : Evolves w { w with positions := w.positions ++ [p] } := { Evolves.refl w with }
  refine ⟨hE, { hL with
    rows := fun i row h => (hL.rows i row h).mono hE
    txs := fun h tx htx => (hL.txs h tx htx).mono hE
    recorded := fun i row h hs => ?_
    referenced := fun q hq i hi => ?_
    written := fun q hq i row hi hrow => ?_
    numbered := numbered_append hL hid
    events := fun e he => ?_ }⟩
  · exact (hL.recorded i row h hs).append hL hE [] rfl (by simp [hnone]) (append_nil _).symm (by simp)
  · obtain hq | hq := mem_append.mp hq
    · exact hL.referenced q hq i hi
    · rw [mem_singleton.mp hq, hnone] at hi; cases hi
  · obtain hq | hq := mem_append.mp hq
    · exact hL.written q hq i row hi hrow
    · rw [mem_singleton.mp hq, hnone] at hi; cases hi
  · have hlt := hL.events e he
    simp only [length_append, length_singleton]
    omega

/-- The world after an intent has been recorded. -/
def World.record (w : World eurc) (row : EscrowMintIntent) (p : Position) (e : ChainSettlementEvent) :
    World eurc :=
  { w.putIntent row with positions := w.positions ++ [p], chainEvents := w.chainEvents ++ [e] }

section Record

variable {e : ChainSettlementEvent} {hash : TxHash}

theorem evolves_record (hold : ∀ r, w.intents row.id = some r → Advanced r row) : Evolves w (w.record row p e) :=
  { (evolves_put hold : Evolves w (w.put row [])) with attempts := fun _ h => h }

theorem Ledger.unreferenced (hL : Ledger chain w) (hr : w.intents i = some r) (hopen : r.status ≠ .recorded) :
    ∀ q ∈ w.positions, q.escrowMintIntentId ≠ some i := by
  intro q hq hi
  obtain ⟨_, r', hr', hs⟩ := hL.referenced q hq i hi
  rw [hr] at hr'
  cases hr'
  exact hopen hs

theorem Ledger.eventless (hL : Ledger chain w) :
    w.chainEvents.filter (fun e => e.positionId = w.positions.length) = [] := by
  rw [filter_eq_nil_iff]
  intro e he
  have hlt := hL.events e he
  simp only [decide_eq_true_eq]
  omega

theorem Ledger.recorded_now (hL : Ledger chain w) (hfree : ∀ q ∈ w.positions, q.escrowMintIntentId ≠ some i)
    (hhash : row.mintTxHash = some hash)
    (hm : Mints (w.record row p e) hash row.walletAddress row.tokenId row.mintAmount)
    (hp : p.escrowMintIntentId = some i) (hid : p.id = w.positions.length) (he : e.positionId = p.id)
    (htype : e.eventType = .mint) (htx : e.chainTxHash = hash) : Recorded (w.record row p e) i row := by
  have hnone : w.positions.filter (fun q => q.escrowMintIntentId = some i) = [] := by
    rw [filter_eq_nil_iff]
    exact fun q hq => by simpa using hfree q hq
  have hnil : w.chainEvents.filter (fun e' => e'.positionId = p.id) = [] := by
    rw [hid]
    exact hL.eventless
  refine ⟨hash, p, e, hhash, hm, ?_, ?_, htype, htx⟩
  · simp [World.record, filter_append, hnone, hp]
  · simp [World.record, filter_append, hnil, he]

/-- A recorded mint keeps the ledger. -/
theorem Ledger.record (hL : Ledger chain w) (row : EscrowMintIntent) (p : Position) (e : ChainSettlementEvent)
    (hr : w.intents i = some r) (hopen : r.status ≠ .recorded)
    (hrow : row = { r with status := .recorded, recordedAt := row.recordedAt }) (hhash : r.mintTxHash = some hash)
    (hm : Mints w hash r.walletAddress r.tokenId r.mintAmount) (hp : p.escrowMintIntentId = some i)
    (hids : p.pivId = i.pivId ∧ p.accountId = i.accountId) (hwritten : WrittenFrom r p)
    (hid : p.id = w.positions.length) (he : e.positionId = p.id) (htype : e.eventType = .mint)
    (htx : e.chainTxHash = hash) : Evolves w (w.record row p e) ∧ Ledger chain (w.record row p e) := by
  have hrok := hL.rows i r hr
  have hrowid : row.id = i := by rw [hrow]; exact hrok.id
  have hself : (w.record row p e).intents i = some row := by rw [← hrowid]; exact Function.update_self ..
  have hcases : ∀ j r', (w.record row p e).intents j = some r' →
      j = i ∧ r' = row ∨ j ≠ i ∧ w.intents j = some r' := by
    intro j r' hr'
    rw [← hrowid]
    exact put_intents_cases (show (w.put row []).intents j = some r' from hr')
  have hE : Evolves w (w.record row p e) := by
    refine evolves_record fun r' hr' => ?_
    rw [hrowid, hr] at hr'
    cases hr'
    rw [hrow]
    exact ⟨rfl, rfl, rfl, rfl, rfl, le_rfl, fun hs => absurd hs hopen⟩
  have hfree := hL.unreferenced hr hopen
  refine ⟨hE, { hL with
    rows := fun j r' hr' => ?_
    txs := fun h tx htx => (hL.txs h tx htx).mono hE
    bounded := hL.bounded_later hE
    recorded := fun j r' hr' hs => ?_
    referenced := fun q hq j hj => ?_
    written := fun q hq j r' hj hr' => ?_
    numbered := numbered_append hL hid
    events := fun e' he' => ?_ }⟩
  · obtain ⟨rfl, rfl⟩ | ⟨_, hr'⟩ := hcases j r' hr'
    · have hmono := hrok.mono hE
      rw [hrow]
      exact ⟨hmono.id, hmono.attempt, hmono.hash, hmono.registered, hmono.piv, hmono.campaign,
        hmono.contribution, hmono.positive, hmono.contract⟩
    · exact (hL.rows j r' hr').mono hE
  · obtain ⟨rfl, rfl⟩ | ⟨hj, hr'⟩ := hcases j r' hr'
    · refine hL.recorded_now hfree (by rw [hrow]; exact hhash) ?_ hp hid he htype htx
      rw [hrow]
      exact hE.mints hm
    · refine (hL.recorded j r' hr' hs).append hL hE [e] rfl ?_ rfl ?_
      · rw [hp]; exact fun h => hj (some.inj h).symm
      · simp [he, hid]
  · obtain hq | hq := mem_append.mp hq
    · obtain ⟨hq', r', hr', hs⟩ := hL.referenced q hq j hj
      have hne : j ≠ row.id := fun hji => hfree q hq (hrowid ▸ hji ▸ hj)
      exact ⟨hq', r', by simpa [World.record, World.putIntent, hne] using hr', hs⟩
    · obtain rfl := mem_singleton.mp hq
      rw [hp] at hj
      cases hj
      exact ⟨hids, row, hself, by rw [hrow]⟩
  · obtain hq | hq := mem_append.mp hq
    · exact hL.written_later hE q hq j r' hj hr'
    · obtain rfl := mem_singleton.mp hq
      rw [hp] at hj
      cases hj
      rw [hself] at hr'
      cases hr'
      rw [hrow]
      exact ⟨hwritten.holder, hwritten.unitCount, hwritten.costBasisEur⟩
  · have hlen : (w.record row p e).positions.length = w.positions.length + 1 := by simp [World.record]
    rw [hlen]
    obtain he' | he' := mem_append.mp he'
    · exact Nat.lt_succ_of_lt (hL.events e' he')
    · rw [mem_singleton.mp he', he, hid]; exact Nat.lt_succ_self _

end Record

end Settlement
