import VistaBlox.MintRules

/-!
# What happens around the job
-/
namespace Settlement

open Evm Interleaving List Option

variable {eurc : Erc20} (chain : Chain) (token : TokenId) (once settled : Prop)

/-- The chain as the job may expect it: a mint of the token is mined only before
its attempt's grace period is over, and nobody else issues, burns or
force-transfers the token. -/
def timely : Guard (World eurc) (Event eurc) Op where
  call _ _ _ := True
  env e w := match e with
    | .mine h _ _ => ∀ i k, Sent w h i k → OfToken token w i → ¬Expired chain w i k
    | .property _ c => ∀ src dst n, c.transfer ≠ some (src, dst, token, n)
    | _ => True

/-- A grace check that passes does so while the wallet still holds nothing. -/
def emptyAtGrace : Guard (World eurc) (Event eurc) Op where
  call _ op w := match op with
    | .read (.clock (.grace a t retryAt)) => t = token → retryAt ≤ w.now → PropertyToken.balanceOf w.property a t = 0
    | _ => True
  env _ _ := True

/-- A position found on the token's vehicle carries a mint intent. -/
def mintedPositions : Guard (World eurc) (Event eurc) Op where
  call _ op w := match op with
    | .read (.hasPosition pivId accountId) => PivToken w pivId token → ∀ p ∈ w.positions, p.pivId = pivId →
        p.accountId = accountId → p.escrowMintIntentId ≠ none
    | _ => True
  env _ _ := True

/-- No address is registered in two spellings. -/
def oneSpelling : Guard (World eurc) (Event eurc) Op where
  call _ _ _ := True
  env e w := match e with
    | .registerWallet _ text => ∀ r ∈ w.wallets, r.walletAddress.address ≠ text.address
    | _ => True

/-- The conditions on a run, in two groups. -/
def guard : Guard (World eurc) (Event eurc) Op where
  call t op w := (once → (emptyAtGrace token).call t op w) ∧ (settled → (mintedPositions token).call t op w)
  env e w := (once → (timely chain token).env e w) ∧ (settled → oneSpelling.env e w)

variable {chain token once settled} {w w' : World eurc}

/-- A step of no thread at all. -/
def Harmless (chain : Chain) (token : TokenId) (once settled : Prop) (w w' : World eurc) : Prop :=
  ∀ t, Acceptable chain token once settled t w w'

variable {h : TxHash}

theorem harmless_set (new : Tx) (hinv : (rules chain token once settled).inv w) (hS : SameTables w w')
    (hold : w.txs[h]? = some old) (hpending : old.status = .pending) (hpayload : new.payload = old.payload)
    (hattempt : new.attempt = old.attempt) (htxs : w'.txs = w.txs.set h new) (hdone : new.status ≠ .pending)
    (hsilent : new.status ≠ .success → new.logs = [])
    (hlogged : new.status = .success → ∀ a t n, (t, n) ∈ new.mintLogs a ↔
      new.payload.transfer = some (0, a, t, n))
    (hlate : once → new.status = .success → ∀ i k, old.attempt = some (i, k) → OfToken token w i →
      ¬Expired chain w i k)
    (hbalance : once → ∀ a, w'.property.balances token a = w.property.balances token a + new.delivered token a)
    (hforeign : once → ∀ a n, new.attempt = none → (token, n) ∉ new.mintLogs a) :
    Harmless chain token once settled w w' := by
  intro t
  obtain ⟨hL, hO, hD⟩ := hinv
  have hadv : TxAdvanced old new := ⟨hpayload, hattempt, fun hne => absurd hpending hne⟩
  have hE := hS.evolves_set hold hadv htxs
  have hL' := hL.set hS hold hadv htxs hdone hsilent hlogged
  have hN : once → NoLateSuccess chain token w w' := by
    intro ho h' tx tx' i k htx htx' hatt hof hexp hp hsucc
    rw [htxs] at htx'
    obtain ⟨rfl, rfl⟩ | ⟨_, htx'⟩ := get_set_cases hold htx'
    · rw [hold] at htx
      cases htx
      exact hlate ho hsucc i k hatt hof hexp
    · rw [htx] at htx'
      cases htx'
      rw [hp] at hsucc
      cases hsucc
  refine ⟨⟨hL', fun ho => (hO ho).sameTables hS hE hL' (hN ho) (fun a => ?_) ?_, ?_⟩,
    fun u _ => ⟨hE, fun h' i k hs _ => sent_set hold hadv htxs hs, hN⟩⟩
  · have hsum := sum_map_set w.txs h old new (fun tx => tx.delivered token a) hold
    rw [delivered_of_not_success (by simp [hpending])] at hsum
    simp only [minted, htxs, hbalance ho a]
    omega
  · intro h' tx a n htx hatt
    rw [htxs] at htx
    obtain ⟨rfl, rfl⟩ | ⟨_, htx⟩ := get_set_cases hold htx
    · exact hforeign ho a n hatt
    · exact (hO ho).foreign h' tx a n htx hatt
  · intro hs; unfold Distinct; rw [hS.wallets]; exact hD hs

theorem answered_transfer (accepted : Bool) (c : PropertyToken.Call) :
    (answered accepted c).transfer = c.transfer := by cases c <;> rfl

variable {s s' : PropertyToken.State}

theorem drop_log (h : s'.log = s.log ++ l) :
    s'.log.drop s.log.length = l := by rw [h, drop_left]

theorem step_frozen (escrow : Address) (s : IpoEscrow.State eurc) (e : IpoEscrow.Step eurc) (t : TokenId)
    (h : (s.campaigns t).state = .successful) :
    ((IpoEscrow.step escrow s e).campaigns t).state = .successful ∧
    (IpoEscrow.step escrow s e).contributions t = s.contributions t ∧
    (IpoEscrow.step escrow s e).contributorsList t = s.contributorsList t :=
  (IpoEscrow.step_view escrow s e t).frozen h

theorem exec_frozen {escrow : Address} {s s' : IpoEscrow.State eurc} {c : IpoEscrow.Call}
    (hc : IpoEscrow.exec escrow s m c = .ok s') (t : TokenId) (h : (s.campaigns t).state = .successful) :
    (s'.campaigns t).state = .successful ∧ s'.contributions t = s.contributions t ∧
    s'.contributorsList t = s.contributorsList t :=
  (IpoEscrow.exec_view hc t).frozen h

variable {c : PropertyToken.Call} {tx : Tx}

/-- What a call of the job or of others to the property token does to one
token identifier, seen through the transaction that carries it. -/
theorem delivered_of_transfer (hp : tx.payload = .property c)
    (hc : ∀ src dst n, c.transfer ≠ some (src, dst, token, n)) (a : Address) : tx.delivered token a = 0 := by
  unfold Tx.delivered
  rw [hp]
  cases c with
  | mint dst id n =>
    have hne : id ≠ token := fun he => hc 0 dst n (he ▸ rfl)
    simp [hne]
  | _ => rfl

theorem mined_logged (h : PropertyToken.exec s m (answered accepted c) = .ok s') (hp : tx.payload = .property c)
    (hlogs : tx.logs = s'.log.drop s.log.length) (a : Address) (t : TokenId) (n : Nat) :
    (t, n) ∈ tx.mintLogs a ↔ tx.payload.transfer = some (0, a, t, n) := by
  obtain ⟨l, hl, hall, hmem⟩ := PropertyToken.exec_log h
  rw [answered_transfer] at hall hmem
  rw [mem_mintLogs, hlogs, drop_log hl, hp]
  exact ⟨fun ⟨_, hop⟩ => hall _ hop _ rfl, fun hc => ⟨_, hmem 0 a t n hc⟩⟩

theorem pendingTx_some (hp : w.pendingTx h = some tx) : w.txs[h]? = some tx ∧ tx.status = .pending := by
  obtain ⟨htx, hs⟩ := filter_eq_some_iff.mp hp
  exact ⟨htx, by simpa using hs⟩

theorem harmless_failed (new : Tx) (hinv : (rules chain token once settled).inv w) (hS : SameTables w w')
    (hproperty : w'.property = w.property) (htx : w.txs[h]? = some tx) (hpending : tx.status = .pending)
    (hpayload : new.payload = tx.payload) (hattempt : new.attempt = tx.attempt) (htxs : w'.txs = w.txs.set h new)
    (hdone : new.status ≠ .pending) (hfailed : new.status ≠ .success) (hlogs : new.logs = tx.logs) :
    Harmless chain token once settled w w' := by
  have hnil : new.logs = [] := hlogs.trans ((hinv.1.txs h tx htx).silent (by simp [hpending]))
  refine harmless_set new hinv hS htx hpending hpayload hattempt htxs hdone (fun _ => hnil)
    (fun hs => absurd hs hfailed) (fun _ hs => absurd hs hfailed) (fun _ a => ?_)
    (fun _ a n _ => by simp [Tx.mintLogs, hnil])
  rw [delivered_of_not_success hfailed, hproperty, Nat.add_zero]

theorem mined_balance (new : Tx) (hinv : (rules chain token once settled).inv w) (htx : w.txs[h]? = some tx)
    (hpending : tx.status = .pending) (hp : tx.payload = .property c)
    (hexec : PropertyToken.exec w.property m (answered accepted c) = .ok s') (hnew : new.payload = tx.payload)
    (hsuccess : new.status = .success) (a : Address) :
    s'.balances token a = w.property.balances token a + new.delivered token a := by
  have hok := hinv.1.txs h tx htx
  cases hatt : tx.attempt with
  | none =>
    have hc : c.transfer = none := hok.plain hatt hpending c hp
    rw [PropertyToken.exec_other hexec token (by simp [answered_transfer, hc]),
      delivered_of_transfer (hnew.trans hp) (by simp [hc]), Nat.add_zero]
  | some ik =>
    obtain ⟨_, row, _, _, hpay⟩ := hok.attempt ik.1 ik.2 hatt
    rw [hp] at hpay
    cases hpay
    by_cases hid : row.tokenId = token
    · subst hid
      rw [PropertyToken.mint_balance (show PropertyToken.mint _ _ _ _ _ accepted = _ from hexec) a]
      by_cases ha : a = row.walletAddress
      · simp [Tx.delivered, hnew, hp, hsuccess, ha]
      · simp [Tx.delivered, hnew, hp, ha, Ne.symm ha]
    · rw [PropertyToken.exec_other hexec token (by simp [answered, PropertyToken.Call.transfer, hid]),
        delivered_of_transfer (hnew.trans hp) (by simp [PropertyToken.Call.transfer, hid]), Nat.add_zero]

theorem mine_harmless {timestamp : Nat} (hinv : (rules chain token once settled).inv w)
    (hp : w.pendingTx h = some tx) (hguard : once → ∀ i k, Sent w h i k → OfToken token w i → ¬Expired chain w i k) :
    Harmless chain token once settled w (w.mine chain h tx timestamp accepted) := by
  obtain ⟨htx, hpending⟩ := pendingTx_some hp
  have hlate : once → ∀ i k, tx.attempt = some (i, k) → OfToken token w i → ¬Expired chain w i k :=
    fun ho i k hatt => hguard ho i k ⟨tx, htx, hatt⟩
  have hsilent := (hinv.1.txs h tx htx).silent (by simp [hpending])
  have hreverted : Harmless chain token once settled w
      (w.setTx h { tx with status := .reverted, block := w.block + 1 }) :=
    harmless_failed { tx with status := .reverted, block := w.block + 1 } hinv sameTables_chain rfl htx hpending
      rfl rfl rfl (by simp) (by simp) rfl
  unfold World.mine
  simp only
  split
  · rename_i c hc
    split
    · rename_i s hexec
      refine harmless_set { tx with status := .success, block := w.block + 1 } hinv
        ⟨rfl, rfl, rfl, rfl, rfl, rfl, le_rfl, exec_frozen hexec⟩ htx hpending rfl rfl rfl (by simp)
        (fun hs => absurd rfl hs) ?_ (fun ho _ => hlate ho) ?_ ?_
      · intro _ a t n; simp [Tx.mintLogs, hsilent, hc, Payload.transfer]
      · intro _ a
        have hz : Tx.delivered { tx with status := .success, block := w.block + 1 } token a = 0 := by
          simp [Tx.delivered, hc]
        rw [hz]; rfl
      · intro _ a n _; simp [Tx.mintLogs, hsilent]
    · exact hreverted
  · rename_i c hc
    split
    · rename_i s hexec
      refine harmless_set
        { tx with status := .success, block := w.block + 1, logs := s.log.drop w.property.log.length } hinv
        sameTables_chain htx hpending rfl rfl rfl (by simp)
        (fun hs => absurd rfl hs) (fun _ => mined_logged hexec hc rfl) (fun ho _ => hlate ho)
        (fun _ a => mined_balance
          { tx with status := .success, block := w.block + 1, logs := s.log.drop w.property.log.length }
          hinv htx hpending hc hexec rfl rfl a) ?_
      intro _ a n hatt
      have hplain := (hinv.1.txs h tx htx).plain hatt hpending c hc
      intro hm
      have hmoved := (mined_logged hexec (by exact hc) rfl a token n).mp hm
      simp [hc, Payload.transfer, hplain] at hmoved
    · exact hreverted

theorem foreign_harmless (hinv : (rules chain token once settled).inv w)
    (hguard : once → ∀ src dst n, c.transfer ≠ some (src, dst, token, n)) :
    Harmless chain token once settled w (w.foreignCall m c) := by
  intro t
  unfold World.foreignCall
  split
  · rename_i s hexec
    have hlogged : ∀ a t n, (t, n) ∈ Tx.mintLogs ⟨m.sender, .property c, none, .success, w.block + 1,
        s.log.drop w.property.log.length⟩ a ↔ c.transfer = some (0, a, t, n) := by
      obtain ⟨accepted, haccepted⟩ : ∃ accepted, answered accepted c = c := by
        cases c with
        | mint dst id n accepted => exact ⟨accepted, rfl⟩
        | _ => exact ⟨true, rfl⟩
      exact mined_logged (haccepted.symm ▸ hexec) rfl rfl
    refine acceptable_append hinv
      ⟨sameTables_chain, rfl, fun h => absurd rfl h, ⟨by simp, by simp, by simp, ?_⟩, by simp⟩ (by simp) ?_ ?_
    · exact fun _ => hlogged
    · intro ho a
      rw [delivered_of_transfer rfl (hguard ho), Nat.add_zero]
      exact congrFun (PropertyToken.exec_other hexec token (hguard ho)) a
    · intro ho a n _
      rw [hlogged]
      exact hguard ho 0 a n
  · refine acceptable_append hinv
      ⟨sameTables_chain, rfl, fun h => absurd rfl h, ⟨by simp, by simp, by simp, by simp⟩, by simp⟩ (by simp) ?_ ?_
    · intro _ a
      rw [delivered_of_not_success (by simp)]
      rfl
    · intro _ a n _; simp [Tx.mintLogs]

theorem harmless_quiet (hinv : (rules chain token once settled).inv w) (hS : SameTables w w')
    (htxs : w'.txs = w.txs) (hproperty : w'.property = w.property) : Harmless chain token once settled w w' := by
  intro t
  obtain ⟨hL, hO, hD⟩ := hinv
  have hE : Evolves w w' := by
    refine hS.evolves (fun h tx htx => ⟨tx, by rw [htxs]; exact htx, .refl tx⟩) (fun h tx htx hnone => ?_)
    rw [htxs, hnone] at htx
    cases htx
  have hsent : ∀ {h i k}, Sent w' h i k → Sent w h i k := by
    rintro h i k ⟨tx, htx, hatt⟩
    exact ⟨tx, by rw [← htxs]; exact htx, hatt⟩
  have hL' := hL.sameTables hS hE (fun h tx htx => (hL.txs h tx (by rw [← htxs]; exact htx)).mono hE)
    (fun h h' i k hs hs' => hL.oneTx h h' i k (hsent hs) (hsent hs'))
  refine ⟨⟨hL', fun ho => (hO ho).sameTables hS hE hL' (noLateSuccess_of_txs htxs) (fun a => ?_) ?_, ?_⟩,
    fun u _ => ⟨hE, fun h i k hs _ => hsent hs, fun _ => noLateSuccess_of_txs htxs⟩⟩
  · rw [hproperty, minted, minted, htxs]
  · rw [htxs]; exact (hO ho).foreign
  · intro hs; unfold Distinct; rw [hS.wallets]; exact hD hs

/-- Registrations, vehicles and positions of the reservation flow have been
added, and nothing the mint ledger's own tables hold has moved. -/
theorem harmless_tables (hinv : (rules chain token once settled).inv w) (hE : Evolves w w')
    (hL' : Ledger chain w') (hintents : w'.intents = w.intents) (hattempts : w'.attempts = w.attempts)
    (htxs : w'.txs = w.txs) (hproperty : w'.property = w.property) (hD' : settled → Distinct w') :
    Harmless chain token once settled w w' := by
  intro t
  obtain ⟨_, hO, _⟩ := hinv
  have hN : NoLateSuccess chain token w w' := noLateSuccess_of_txs htxs
  refine ⟨⟨hL', fun ho => ⟨fun a ha row hrow ht hlt => ?_, fun a => ?_, ?_⟩, hD'⟩,
    fun u _ => ⟨hE, ?_, fun _ => hN⟩⟩
  · rw [hattempts] at ha
    rw [hintents] at hrow
    exact ((hO ho).superseded a ha row hrow ht hlt).mono hE hL' hN ⟨row, hrow, ht⟩
  · rw [hproperty, minted, htxs]; exact (hO ho).balance a
  · rw [htxs]; exact (hO ho).foreign
  · rintro h i k ⟨tx, htx, hatt⟩ _
    exact ⟨tx, by rw [← htxs]; exact htx, hatt⟩

theorem register_harmless (hinv : (rules chain token once settled).inv w)
    (hnew : ∀ r ∈ w.wallets, r.accountId ≠ accountId ∧ r.walletAddress ≠ text)
    (hguard : settled → ∀ r ∈ w.wallets, r.walletAddress.address ≠ text.address) :
    Harmless chain token once settled w { w with wallets := w.wallets ++ [⟨accountId, text⟩] } := by
  obtain ⟨hL, hO, hD⟩ := id hinv
  have hE : Evolves w { w with wallets := w.wallets ++ [⟨accountId, text⟩] } :=
    { Evolves.refl w with wallets := fun r hr => mem_append_left _ hr }
  refine harmless_tables hinv hE { hL with
    rows := fun i row h => (hL.rows i row h).mono hE
    txs := fun h tx htx => (hL.txs h tx htx).mono hE
    accounts := ?_ } rfl rfl rfl rfl ?_
  · intro r hr r' hr' he
    obtain hr | hr := mem_append.mp hr <;> obtain hr' | hr' := mem_append.mp hr'
    · exact hL.accounts r hr r' hr' he
    · rw [mem_singleton.mp hr'] at he; exact absurd he (hnew r hr).1
    · rw [mem_singleton.mp hr] at he; exact absurd he.symm (hnew r' hr').1
    · rw [mem_singleton.mp hr, mem_singleton.mp hr']
  · intro hs r hr r' hr' he
    obtain hr | hr := mem_append.mp hr <;> obtain hr' | hr' := mem_append.mp hr'
    · exact hD hs r hr r' hr' he
    · rw [mem_singleton.mp hr'] at he; exact absurd he (hguard hs r hr)
    · rw [mem_singleton.mp hr] at he; exact absurd he.symm (hguard hs r' hr')
    · rw [mem_singleton.mp hr, mem_singleton.mp hr']

theorem pivs_harmless (hinv : (rules chain token once settled).inv w)
    (hkeep : ∀ p t, PivToken w p t → PivToken { w with pivs := pivs } p t)
    (htokens : ∀ p p' t, PivToken { w with pivs := pivs } p t → PivToken { w with pivs := pivs } p' t → p = p')
    (hvehicles : ∀ p t t', PivToken { w with pivs := pivs } p t → PivToken { w with pivs := pivs } p t' → t = t') :
    Harmless chain token once settled w { w with pivs := pivs } := by
  obtain ⟨hL, hO, hD⟩ := id hinv
  have hE : Evolves w { w with pivs := pivs } := { Evolves.refl w with pivs := hkeep }
  exact harmless_tables hinv hE { hL with
    rows := fun i row h => (hL.rows i row h).mono hE
    txs := fun h tx htx => (hL.txs h tx htx).mono hE
    tokens := htokens
    vehicles := hvehicles } rfl rfl rfl rfl hD

theorem open_harmless (hinv : (rules chain token once settled).inv w)
    (hnew : ∀ p ∈ w.pivs, p.id ≠ piv.id ∧ (p.tokenId.isSome → p.tokenId ≠ piv.tokenId)) :
    Harmless chain token once settled w { w with pivs := w.pivs ++ [piv] } := by
  have hcases : ∀ p t, PivToken { w with pivs := w.pivs ++ [piv] } p t →
      PivToken w p t ∨ (piv.id = p ∧ piv.tokenId = some t) := by
    rintro p t ⟨q, hq, hid, ht⟩
    obtain hq | hq := mem_append.mp hq
    · exact .inl ⟨q, hq, hid, ht⟩
    · rw [mem_singleton.mp hq] at hid ht; exact .inr ⟨hid, ht⟩
  have hfresh : ∀ p t, PivToken w p t → p ≠ piv.id ∧ piv.tokenId ≠ some t := by
    rintro p t ⟨q, hq, rfl, ht⟩
    obtain ⟨hid, htok⟩ := hnew q hq
    exact ⟨hid, fun h => htok (by simp [ht]) (ht.trans h.symm)⟩
  refine pivs_harmless hinv (fun p t ⟨q, hq, h⟩ => ⟨q, mem_append_left _ hq, h⟩) ?_ ?_
  · intro p p' t h h'
    obtain h | ⟨hid, ht⟩ := hcases p t h <;> obtain h' | ⟨hid', ht'⟩ := hcases p' t h'
    · exact hinv.1.tokens p p' t h h'
    · exact absurd ht' (hfresh p t h).2
    · exact absurd ht (hfresh p' t h').2
    · rw [← hid, ← hid']
  · intro p t t' h h'
    obtain h | ⟨hid, ht⟩ := hcases p t h <;> obtain h' | ⟨hid', ht'⟩ := hcases p t' h'
    · exact hinv.1.vehicles p t t' h h'
    · exact absurd hid'.symm (hfresh p t h).1
    · exact absurd hid.symm (hfresh p t' h').1
    · exact some.inj (ht.symm.trans ht')

theorem pivToken_moveIpoEnd (w : World eurc) (pivId : PivId) (ipoEndAt : Option Nat) (p : PivId) (t : TokenId) :
    PivToken { w with
      pivs := w.pivs.map fun p => if p.id = pivId then { p with ipoEndAt := ipoEndAt } else p } p t ↔
      PivToken w p t := by
  simp only [PivToken, List.mem_map]
  constructor
  · rintro ⟨_, ⟨q, hq, rfl⟩, hid, ht⟩
    refine ⟨q, hq, ?_⟩
    split at hid <;> split at ht <;> exact ⟨hid, ht⟩
  · rintro ⟨q, hq, hid, ht⟩
    refine ⟨_, ⟨q, hq, rfl⟩, ?_⟩
    split <;> exact ⟨hid, ht⟩

theorem env_harmless (hinv : (rules chain token once settled).inv w)
    (hguard : (guard chain token once settled).env e w) (h : env chain e w = some w') :
    Harmless chain token once settled w w' := by
  cases e with
  | tick =>
    cases h
    exact harmless_quiet hinv ⟨rfl, rfl, rfl, rfl, rfl, rfl, Nat.le_add_right _ _, fun _ h => ⟨h, rfl, rfl⟩⟩ rfl rfl
  | mine =>
    obtain ⟨tx, hp, rfl⟩ := map_eq_some_iff.mp h
    exact mine_harmless hinv hp hguard.1
  | drop =>
    obtain ⟨tx, hp, rfl⟩ := map_eq_some_iff.mp h
    obtain ⟨htx, hpending⟩ := pendingTx_some hp
    exact harmless_failed { tx with status := .dropped } hinv sameTables_chain rfl htx hpending rfl rfl rfl
      (by simp) (by simp) rfl
  | escrow =>
    cases h
    exact harmless_quiet hinv ⟨rfl, rfl, rfl, rfl, rfl, rfl, le_rfl, step_frozen _ _ _⟩ rfl rfl
  | property =>
    cases h
    exact foreign_harmless hinv hguard.1
  | registerWallet =>
    simp only [env] at h
    split at h
    · cases h
    · rename_i hnew
      cases h
      refine register_harmless hinv (fun r hr => ?_) hguard.2
      simp only [List.any_eq_true, decide_eq_true_eq, not_exists, not_and, not_or] at hnew
      exact hnew r hr
  | commitOfferingFinalization reservationId pivId accountId amountEur =>
    cases h
    obtain ⟨hE, hL'⟩ := hinv.1.reserve ⟨w.positions.length, none, some reservationId, pivId, accountId,
      amountEur * 10 ^ 4, amountEur, none, none⟩ rfl rfl
    exact harmless_tables hinv hE hL' rfl rfl rfl rfl hinv.2.2
  | openOffering =>
    simp only [env] at h
    split at h
    · cases h
    · rename_i hnew
      cases h
      refine open_harmless hinv (fun p hp => ?_)
      simp only [List.any_eq_true, decide_eq_true_eq, not_exists, not_and, not_or] at hnew
      exact hnew p hp
  | moveIpoEnd pivId ipoEndAt =>
    cases h
    have hiff := pivToken_moveIpoEnd w pivId ipoEndAt
    exact pivs_harmless hinv (fun p t => (hiff p t).mpr)
      (fun p p' t h h' => hinv.1.tokens p p' t ((hiff p t).mp h) ((hiff p' t).mp h'))
      (fun p t t' h h' => hinv.1.vehicles p t t' ((hiff p t).mp h) ((hiff p t').mp h'))

end Settlement
