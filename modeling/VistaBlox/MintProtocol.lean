import VistaBlox.MintEvents

/-!
# The job keeps its rules
-/
namespace Settlement

open Currency (Decimal)
open Evm Interleaving List Option

variable {eurc : Erc20} {chain : Chain} {token : TokenId} {once settled : Prop} {t : Nat}

abbrev Spec (eurc : Erc20) (chain : Chain) (token : TokenId) (once settled : Prop) (t : Nat)
    (P : World eurc → Prop) (p : Run α) (Q : α → World eurc → Prop) : Prop :=
  Triple (system chain eurc) (guard chain token once settled) (rules chain token once settled) t P p Q

abbrev Lasting (eurc : Erc20) (chain : Chain) (token : TokenId) (once settled : Prop)
    (F : World eurc → Prop) : Prop := (rules chain token once settled).Lasting F

variable {F : World eurc → Prop}

theorem lasting_of_evolves (h : ∀ w w', Evolves w w' → F w → F w') :
    Lasting eurc chain token once settled F := fun _ w w' _ _ hr hf => h w w' hr.1 hf

theorem lasting_and (h : Lasting eurc chain token once settled F) (h' : Lasting eurc chain token once settled F') :
    Lasting eurc chain token once settled (fun w => F w ∧ F' w) :=
  fun u w w' hi hi' hr hf => ⟨h u w w' hi hi' hr hf.1, h' u w w' hi hi' hr hf.2⟩

theorem lasting_imp (h : Lasting eurc chain token once settled F) :
    Lasting eurc chain token once settled (fun w => p → F w) :=
  fun u w w' hi hi' hr hf hp => h u w w' hi hi' hr (hf hp)

theorem lasting_const : Lasting eurc chain token once settled (fun _ => p) :=
  fun _ _ _ _ _ _ h => h

variable {P : World eurc → Prop}

theorem spec_bind (hF : Lasting eurc chain token once settled F) (hpre : ∀ w, P w → F w)
    (hp : Spec eurc chain token once settled t P p Q)
    (hf : ∀ a, Spec eurc chain token once settled t (fun w => F w ∧ Q a w) (f a) Q') :
    Spec eurc chain token once settled t P (p.bind f) Q' :=
  triple_bind (triple_pre (triple_frame hF hp) fun w _ h => ⟨hpre w h, h⟩) hf

theorem spec_invoke (hreq : ∀ w, (rules chain token once settled).inv w → P w → Req chain token once settled t op w)
    (hpost : ∀ w c a w', (rules chain token once settled).inv w → (rules chain token once settled).inv w' →
      Evolves w w' → P w → op.run chain t c w = some (.ok a, w') → Q a w')
    (hstable : ∀ a, (rules chain token once settled).Stable t (Q a)) :
    Spec eurc chain token once settled t P (invoke op) Q := by
  refine triple_perform hreq (fun w c r w' hinv hP _ hexec => ?_) hstable
  obtain ⟨hinv', hrely⟩ := exec_acceptable hinv (hreq w hinv hP) hexec
  refine ⟨hinv', hrely, fun a ha => ?_⟩
  obtain ⟨_, e, he⟩ | ⟨r₀, hrun, hr | ⟨e, he⟩⟩ := exec_run hexec
  · rw [ha] at he; cases he
  · rw [← hr, ha] at hrun
    exact hpost w c a w' hinv hinv' (hrely (t + 1) (Nat.succ_ne_self t)).1 hP hrun
  · rw [ha] at he; cases he

theorem spec_read (hpost : ∀ w pick a, (rules chain token once settled).inv w → P w →
      (guard chain token once settled).call t (.read q) w → q.answer pick w = .ok a → Q a w)
    (hstable : ∀ a, (rules chain token once settled).Stable t (Q a)) :
    Spec eurc chain token once settled t P (read q) Q := by
  refine triple_perform (fun _ _ _ => trivial) (fun w c r w' hinv hP hg hexec => ?_) hstable
  obtain ⟨hinv', hrely⟩ := exec_acceptable hinv (show Req chain token once settled t (.read q) w from trivial) hexec
  refine ⟨hinv', hrely, fun a ha => ?_⟩
  obtain ⟨_, e, he⟩ | ⟨r₀, hrun, hr | ⟨e, he⟩⟩ := exec_run hexec
  · rw [ha] at he; cases he
  · simp only [Op.run, some.injEq, Prod.mk.injEq] at hrun
    obtain ⟨hans, rfl⟩ := hrun
    exact hpost w c.pick a hinv hP hg (by rw [hans, ← hr, ha])
  · rw [ha] at he; cases he

theorem spec_attempt (hp : Spec eurc chain token once settled t P p Q) :
    Spec eurc chain token once settled t P (attempt p) (fun r w => ∀ a, r = .ok a → Q a w) := by
  refine triple_catch_any (triple_bind hp fun a => triple_ret fun w _ h => ?_)
    (fun e => triple_ret fun w _ _ => ?_)
  · intro a' ha; cases ha; exact h
  · intro a ha; cases ha

theorem spec_recovering (hp : Spec eurc chain token once settled t P p (fun _ _ => True)) :
    Spec eurc chain token once settled t P (recovering summary p) (fun _ _ => True) :=
  triple_catch_any hp (fun _ => triple_done)

/-- A transaction has been mined with status success, or has failed. -/
def Succeeded (h : TxHash) (w : World eurc) : Prop := ∃ tx, w.txs[h]? = some tx ∧ tx.status = .success

def Failed (h : TxHash) (w : World eurc) : Prop := ∃ tx, w.txs[h]? = some tx ∧ tx.status = .reverted

/-- The row that was read is still there, further on or the same. -/
def Known (row : EscrowMintIntent) (w : World eurc) : Prop :=
  ∃ row', w.intents row.id = some row' ∧ Advanced row row'

/-- The row carries the target's mint. -/
structure Fits (row : EscrowMintIntent) (target : MintTarget) : Prop where
  id : row.id = target.intentId
  walletAddress : row.walletAddress = target.walletAddress
  tokenId : row.tokenId = target.tokenId
  mintAmount : row.mintAmount = target.mintAmount

variable {row : EscrowMintIntent} {target : MintTarget}

theorem Fits.advanced (h : Fits row target) (hadv : Advanced row row') : Fits row' target :=
  ⟨hadv.id.trans h.id, hadv.walletAddress.trans h.walletAddress, hadv.tokenId.trans h.tokenId,
    hadv.mintAmount.trans h.mintAmount⟩

/-- What the job has established about the contributor it mints for. -/
structure Aim (chain : Chain) (target : MintTarget) (w : World eurc) : Prop where
  registered : Registered w target.accountId target.walletAddress
  piv : PivToken w target.pivId target.tokenId
  campaign : (w.escrow.campaigns target.tokenId).state = .successful
  contribution : w.escrow.contributions target.tokenId target.walletAddress = target.mintAmount
  contract : target.tokenContractAddress = chain.propertyContractAddress

/-- There is a row for the target, and it carries its mint. -/
def HasRow (target : MintTarget) (w : World eurc) : Prop :=
  ∃ row, w.intents target.intentId = some row ∧ Fits row target

/-- A successful mint of exactly the target's amount to its wallet, and the row that tracks it. -/
def Confirmed (target : MintTarget) (m : ConfirmedMint) (w : World eurc) : Prop :=
  m.intentId = target.intentId ∧ HasRow target w ∧
    Mints w m.txHash target.walletAddress target.tokenId target.mintAmount

theorem lasting_succeeded (h : TxHash) : Lasting eurc chain token once settled (Succeeded h) :=
  lasting_of_evolves fun w w' hE ⟨tx, htx, hs⟩ => by
    obtain ⟨tx', htx', hadv⟩ := hE.txs h tx htx
    obtain rfl := hadv.settled (by simp [hs])
    exact ⟨tx', htx', hs⟩

theorem lasting_failed (h : TxHash) : Lasting eurc chain token once settled (Failed h) :=
  lasting_of_evolves fun w w' hE ⟨tx, htx, hs⟩ => by
    obtain ⟨tx', htx', hadv⟩ := hE.txs h tx htx
    obtain rfl := hadv.settled (by simp [hs])
    exact ⟨tx', htx', hs⟩

variable {w w' : World eurc}

theorem Known.mono (h : Known row w) (hE : Evolves w w') : Known row w' := by
  obtain ⟨row', hrow', hadv⟩ := h
  obtain ⟨row'', hrow'', hadv'⟩ := hE.intents _ row' hrow'
  exact ⟨row'', hrow'', hadv.trans hadv'⟩

theorem HasRow.mono (h : HasRow target w) (hE : Evolves w w') : HasRow target w' := by
  obtain ⟨row, hrow, hfits⟩ := h
  obtain ⟨row', hrow', hadv⟩ := hE.intents _ row hrow
  exact ⟨row', hrow', hfits.advanced hadv⟩

theorem Known.hasRow (h : Known row w) (hfits : Fits row target) : HasRow target w := by
  obtain ⟨row', hrow', hadv⟩ := h
  exact ⟨row', hfits.id ▸ hrow', hfits.advanced hadv⟩

theorem Aim.mono (h : Aim chain target w) (hE : Evolves w w') : Aim chain target w' :=
  ⟨hE.registered h.registered, hE.pivs _ _ h.piv, (hE.campaigns _ h.campaign).1,
    by rw [(hE.campaigns _ h.campaign).2.1]; exact h.contribution, h.contract⟩

theorem lasting_aim : Lasting eurc chain token once settled (Aim chain target) :=
  lasting_of_evolves fun _ _ hE h => h.mono hE

theorem lasting_confirmed :
    Lasting eurc chain token once settled (Confirmed target m) :=
  lasting_of_evolves fun _ _ hE h => ⟨h.1, h.2.1.mono hE, hE.mints h.2.2⟩

theorem lasting_delivered : Lasting eurc chain token once settled (Delivered · token a) :=
  lasting_of_evolves fun _ _ hE ⟨i, row, hrow, hs, hrest⟩ => by
    obtain ⟨row', hrow', hadv⟩ := hE.intents i row hrow
    obtain rfl := hadv.recorded hs
    exact ⟨i, row', hrow', hs, hrest⟩

theorem stable_claim :
    (rules chain token once settled).Stable t (fun w : World eurc => Claim t i k w) :=
  fun _ _ _ _ hr ⟨hc, hnone⟩ => ⟨hr.1.claimed hc, fun h hs => hnone h (hr.2.1 h i k hs hc)⟩

variable {h : TxHash} {k : Nat}

theorem Ledger.mints_of_sent (hL : Ledger chain w) (hs : Sent w h target.intentId k) (hsucc : Succeeded h w)
    (hrow : HasRow target w) : Mints w h target.walletAddress target.tokenId target.mintAmount := by
  obtain ⟨tx, htx, hatt⟩ := hs
  obtain ⟨tx', htx', hstatus⟩ := hsucc
  rw [htx] at htx'
  cases htx'
  obtain ⟨row, hrow, hfits⟩ := hrow
  obtain ⟨_, row', hrow', _, hp⟩ := (hL.txs h tx htx).attempt _ _ hatt
  rw [hrow] at hrow'
  cases hrow'
  have hlog := ((hL.txs h tx htx).logged hstatus row.walletAddress row.tokenId row.mintAmount).mpr (by rw [hp]; rfl)
  rw [hfits.walletAddress, hfits.tokenId, hfits.mintAmount] at hlog
  exact ⟨tx, htx, hstatus, hlog⟩

variable {a : Address} {accountId : AccountId} {i : IntentId} {n : Nat} {pivId : PivId}

section Methods

theorem spec_write_plain (hp : ∀ c, payload = .property c → c.transfer = none)
    (hw : ∀ t', payload ≠ .escrow (.withdrawRaised t')) :
    Spec eurc chain token once settled t (fun _ => True) (invoke (.write payload none)) (fun _ _ => True) :=
  spec_invoke (fun _ _ _ => ⟨hp, fun t' h => absurd h (hw t')⟩) (fun _ _ _ _ _ _ _ _ _ => trivial)
    (fun _ _ _ _ _ _ _ => trivial)

theorem spec_wait (h : TxHash) : Spec eurc chain token once settled t (fun _ => True)
    (invoke (.waitForTransactionReceipt h))
    (fun receipt w => receipt.transactionHash = h → receipt.success = true → Succeeded h w) := by
  refine spec_invoke (fun _ _ _ => trivial) (fun w c receipt w' _ _ _ _ hrun hh hs => ?_)
    (fun receipt w w' hi hi' hr hp hh hs => lasting_succeeded h t w w' hi hi' hr (hp hh hs))
  obtain ⟨receipt', hwait, he⟩ := map_eq_some_iff.mp hrun
  cases he
  unfold Settlement.waitForTransactionReceipt at hwait
  split at hwait
  · rename_i found hfound
    cases hwait
    obtain ⟨tx, htx, hst⟩ := bind_eq_some_iff.mp hfound
    refine ⟨tx, htx, ?_⟩
    cases hstatus : tx.status <;> simp [hstatus] at hst
    · rfl
    · rw [← hst] at hs; cases hs
  · obtain ⟨tx, _, hif⟩ := bind_eq_some_iff.mp hwait
    simp only [ite_none_right_eq_some, some.injEq] at hif
    obtain ⟨⟨_, hne⟩, rfl⟩ := hif
    exact absurd hh hne

theorem spec_ensureHolderAuthorized : Spec eurc chain token once settled t (fun _ => True)
    (ensureHolderAuthorized target) (fun _ _ => True) := by
  refine triple_bind (spec_read (fun _ _ _ _ _ _ _ => trivial) (fun _ _ _ _ _ _ _ => trivial)) fun authorized => ?_
  cases authorized with
  | true => exact triple_done
  | false =>
    refine triple_bind (spec_write_plain (by rintro c ⟨⟩; rfl) (by simp)) fun hash => ?_
    refine triple_bind (spec_wait hash) fun receipt => ?_
    cases hs : receipt.success with
    | true => simpa [hs] using triple_done
    | false => simpa [hs] using triple_fail

/-- A claimed attempt that goes through has minted for the target. -/
theorem spec_sendMint : Spec eurc chain token once settled t
    (fun w => HasRow target w ∧ Claim t target.intentId k w) (sendMint target target.intentId k)
    (Confirmed target) := by
  have hrow : Lasting eurc chain token once settled (HasRow target) :=
    lasting_of_evolves fun _ _ hE h => h.mono hE
  have hsent : ∀ h, Lasting eurc chain token once settled (Sent · h target.intentId k) :=
    fun h => lasting_of_evolves fun _ _ hE hs => hE.sent hs
  refine spec_bind hrow (fun w h => h.1) (Q := fun (h : TxHash) w => Sent w h target.intentId k) ?_ fun h => ?_
  · refine spec_invoke (fun w _ h => ⟨h.2, ?_⟩) (fun w c a w' _ _ hE hP hrun => ?_) (fun a => hsent a t)
    · obtain ⟨row, hr, hf⟩ := h.1
      exact ⟨row, hr, by rw [mintPayload, hf.walletAddress, hf.tokenId, hf.mintAmount]⟩
    · cases hrun
      exact ⟨_, getElem?_concat_length .., rfl⟩
  refine spec_bind (lasting_and hrow (hsent h)) (fun _ h => h) (Q := fun _ _ => True) ?_ fun _ => ?_
  · refine triple_catch_any (spec_invoke (fun w _ hP _ _ => .inl hP.2) (fun _ _ _ _ _ _ _ _ _ => trivial)
      (fun _ _ _ _ _ _ _ => trivial)) fun e => triple_fail
  refine spec_bind (lasting_and hrow (hsent h)) (fun _ h => h.1)
    (triple_pre (spec_wait h) fun _ _ _ => trivial) fun receipt => ?_
  split
  · exact triple_fail
  · split
    · exact triple_fail
    · rename_i hhash hs
      refine triple_ret fun w hinv h => ?_
      obtain ⟨⟨hr, hst⟩, hsucc⟩ := h
      exact ⟨rfl, hr, hinv.1.mints_of_sent hst (hsucc (not_not.mp hhash) (by simpa using hs)) hr⟩

theorem spec_read_any :
    Spec eurc chain token once settled t (fun _ => True) (read q) (fun _ _ => True) :=
  spec_read (fun _ _ _ _ _ _ _ => trivial) (fun _ _ _ _ _ _ _ => trivial)

theorem spec_create (attemptedAt : Nat) (searchFromBlock : Option Nat) :
    Spec eurc chain token once settled t (Aim chain target)
      (invoke (.createEscrowMintIntent (intentInput target attemptedAt searchFromBlock)))
      (fun created w => created.2 = true → (created.1 = newIntent (intentInput target attemptedAt searchFromBlock) ∧
        Known created.1 w) ∧ Claim t target.intentId 1 w) := by
  refine spec_invoke (fun w _ h => ⟨h.registered, h.piv, h.campaign, h.contribution, h.contract⟩)
    (fun w c created w' hinv _ _ _ hrun htrue => ?_) (fun created => ?_)
  · have hrun' := some.inj hrun
    obtain ⟨r, hsame, hne⟩ | ⟨hnone, _, heq⟩ := createEscrowMintIntent_cases (t := t) (w := w)
      (intentInput target attemptedAt searchFromBlock)
    · rw [hsame] at hrun'
      cases hrun'
      exact absurd (by rw [← htrue]) (hne created.1)
    · rw [heq] at hrun'
      cases hrun'
      refine ⟨⟨rfl, _, put_intents_self, .refl _⟩,
        ⟨_, mem_append_right _ (mem_singleton_self _), rfl, rfl, rfl⟩, fun h ⟨tx, htx, hatt⟩ => ?_⟩
      obtain ⟨_, row, hrow, _⟩ := (hinv.1.txs h tx htx).attempt _ _ hatt
      rw [show target.intentId = (intentInput target attemptedAt searchFromBlock).id from rfl, hnone] at hrow
      cases hrow
  · refine Rules.Stable.imp_const fun _ => Rules.Stable.and (Rules.Stable.and ?_ ?_) stable_claim
    · exact Rules.stable_const
    · exact fun w w' _ _ hr h => h.mono hr.1

theorem newIntent_fits :
    Fits (newIntent (intentInput target attemptedAt searchFromBlock)) target := ⟨rfl, rfl, rfl, rfl⟩

theorem spec_sendFirstMint :
    Spec eurc chain token once settled t (Aim chain target) (sendFirstMint target) (Confirmed target) := by
  have haim : Lasting eurc chain token once settled (Aim chain target) := lasting_aim
  refine spec_bind haim (fun _ h => h) (triple_pre spec_ensureHolderAuthorized fun _ _ _ => trivial) fun _ => ?_
  refine spec_bind haim (fun _ h => h.1) (triple_pre spec_read_any fun _ _ _ => trivial) fun head => ?_
  refine spec_bind haim (fun _ h => h.1) (triple_pre spec_read_any fun _ _ _ => trivial) fun attemptedAt => ?_
  refine triple_bind (triple_pre (spec_create attemptedAt _) fun _ _ h => h.1) fun created => ?_
  cases hc : created.2 with
  | false => simpa [hc] using triple_fail
  | true =>
    simp only [if_true]
    refine triple_pre (triple_const (c := created.1.id = target.intentId ∧ created.1.attempt = 1)
      (P := fun w => HasRow target w ∧ Claim t target.intentId 1 w) fun he => ?_) fun w _ h => ?_
    · rw [he.1, he.2]
      exact spec_sendMint
    · obtain ⟨⟨he, hk⟩, hclaim⟩ := h trivial
      exact ⟨by rw [he]; exact ⟨rfl, rfl⟩, hk.hasRow (he ▸ newIntent_fits), hclaim⟩

/-- The row, and that its latest attempt is beyond success. -/
def Doomed (chain : Chain) (token : TokenId) (once : Prop) (row : EscrowMintIntent) (w : World eurc) : Prop :=
  Known row w ∧ (once → row.tokenId = token → Dead chain w row.id row.attempt)

theorem lasting_doomed :
    Lasting eurc chain token once settled (Doomed chain token once row) := by
  intro u w w' _ hinv' hr ⟨hk, hd⟩
  refine ⟨hk.mono hr.1, fun ho ht => ?_⟩
  obtain ⟨row', hrow', hadv⟩ := hk
  exact (hd ho ht).mono hr.1 hinv'.1 (hr.2.2 ho) ⟨row', hrow', hadv.tokenId.trans ht⟩

theorem spec_restart :
    Spec eurc chain token once settled t (Doomed chain token once row)
      (invoke (.restartEscrowMintAttempt row.id row.attempt attemptedAt))
      (fun restarted w => restarted = true → Claim t row.id (row.attempt + 1) w) := by
  refine spec_invoke (fun w _ h ho hof => ?_) (fun w c b w' hinv _ _ h hrun htrue => ?_)
    (fun b => Rules.Stable.imp_const fun _ => stable_claim)
  · obtain ⟨⟨row', hrow', hadv⟩, hd⟩ := h
    obtain ⟨row'', hrow'', ht⟩ := hof
    rw [hrow'] at hrow''
    cases hrow''
    exact hd ho (hadv.tokenId ▸ ht)
  · have hrun' := some.inj hrun
    obtain ⟨b', heq, hb'⟩ | ⟨row', hrow', hk, _, heq⟩ :=
      restartEscrowMintAttempt_cases (t := t) (w := w) row.id row.attempt attemptedAt
    · rw [heq] at hrun'
      cases hrun'
      rw [hb'] at htrue
      cases htrue
    · rw [heq] at hrun'
      cases hrun'
      refine ⟨⟨_, mem_append_right _ (mem_singleton_self _), rfl, by rw [hk], rfl⟩,
        fun h ⟨tx, htx, hatt⟩ => ?_⟩
      obtain ⟨_, row'', hrow'', hle, _⟩ := (hinv.1.txs h tx htx).attempt _ _ hatt
      rw [hrow'] at hrow''
      cases hrow''
      omega

/-- An attempt is restarted only when the one before it is dead. -/
theorem spec_restartMint (hfits : Fits row target) :
    Spec eurc chain token once settled t (Doomed chain token once row) (restartMint target row)
      (Confirmed target) := by
  have hdoom : Lasting eurc chain token once settled (Doomed chain token once row) := lasting_doomed
  refine spec_bind hdoom (fun _ h => h) (triple_pre spec_ensureHolderAuthorized fun _ _ _ => trivial) fun _ => ?_
  refine spec_bind hdoom (fun _ h => h.1) (triple_pre spec_read_any fun _ _ _ => trivial) fun attemptedAt => ?_
  refine spec_bind hdoom (fun _ h => h.1) (triple_pre spec_restart fun _ _ h => h.1) fun restarted => ?_
  cases restarted with
  | false => exact triple_fail
  | true =>
    rw [hfits.id]
    exact triple_pre spec_sendMint fun w _ h => ⟨h.1.1.hasRow hfits, hfits.id ▸ h.2 rfl⟩

theorem mem_mintEvents {wallet : Address} {fromBlock : Nat} {id : TokenId}
    (hm : ((id, n), h) ∈ mintEvents w wallet fromBlock) :
    ∃ tx, w.txs[h]? = some tx ∧ (id, n) ∈ tx.mintLogs wallet := by
  simp only [mintEvents, mem_flatMap] at hm
  obtain ⟨⟨tx, h'⟩, hmem, hlog⟩ := hm
  split at hlog
  · obtain ⟨log, hl, he⟩ := List.mem_map.mp hlog
    cases he
    exact ⟨tx, mem_zipIdx_iff_getElem?.mp hmem, hl⟩
  · cases hlog

theorem spec_findMintTransactionHash :
    Spec eurc chain token once settled t (fun _ => True) (findMintTransactionHash target fromBlock)
      (fun found w => ∀ h, found = some h → Mints w h target.walletAddress target.tokenId target.mintAmount) := by
  refine triple_bind (spec_read (Q := fun logs w => ∀ h, ((target.tokenId, target.mintAmount), h) ∈ logs →
    Mints w h target.walletAddress target.tokenId target.mintAmount) (fun w pick logs hinv _ _ ha h hm => ?_)
    (fun logs w w' _ _ hr hp h hm => hr.1.mints (hp h hm))) fun logs => ?_
  · cases ha
    obtain ⟨tx, htx, hlog⟩ := mem_mintEvents hm
    refine ⟨tx, htx, ?_, hlog⟩
    by_contra hne
    have hnil := (hinv.1.txs h tx htx).silent hne
    simp [Tx.mintLogs, hnil] at hlog
  · split
    · rename_i log hlog
      refine triple_ret fun w _ hp h hh => ?_
      cases hh
      have hmem := mem_filter.mp (hlog ▸ mem_singleton_self log)
      exact hp log.2 (by rw [← of_decide_eq_true hmem.2]; exact hmem.1)
    · exact triple_ret fun _ _ _ h hh => by cases hh

/-- What a method knows of the intent it was given, if it was given one. -/
def Given (target : MintTarget) (intent : Option EscrowMintIntent) (w : World eurc) : Prop :=
  ∀ row, intent = some row → Fits row target ∧ Known row w

theorem lasting_given :
    Lasting eurc chain token once settled (Given target intent) :=
  lasting_of_evolves fun _ _ hE h row hrow => ⟨(h row hrow).1, (h row hrow).2.mono hE⟩

theorem spec_intentToAdopt :
    Spec eurc chain token once settled t (fun w => Aim chain target w ∧ Given target intent w)
      (intentToAdopt target intent) (fun row w => Fits row target ∧ Known row w) := by
  cases intent with
  | some row => exact triple_ret fun w _ h => h.2 row rfl
  | none =>
    refine spec_bind lasting_aim (fun _ h => h.1) (triple_pre spec_read_any fun _ _ _ => trivial)
      fun attemptedAt => ?_
    refine triple_bind (triple_pre (spec_create attemptedAt none) fun _ _ h => h.1) fun created => ?_
    cases hc : created.2 with
    | false => simpa [hc] using triple_fail
    | true =>
      refine triple_ret fun w _ h => ?_
      obtain ⟨⟨he, hk⟩, _⟩ := h rfl
      exact ⟨he ▸ newIntent_fits, hk⟩

/-- What is adopted is a mint for the target. -/
theorem spec_adoptMintAlreadyOnChain :
    Spec eurc chain token once settled t (fun w => Aim chain target w ∧ Given target intent w)
      (adoptMintAlreadyOnChain target balance intent) (Confirmed target) := by
  unfold adoptMintAlreadyOnChain
  split
  · exact triple_fail
  · refine spec_bind (lasting_and lasting_aim lasting_given) (fun _ h => h)
      (triple_pre spec_findMintTransactionHash fun _ _ _ => trivial) fun found => ?_
    cases found with
    | none => exact triple_fail
    | some hash =>
      have hmints : Lasting eurc chain token once settled
          (Mints · hash target.walletAddress target.tokenId target.mintAmount) :=
        lasting_of_evolves fun _ _ hE h => hE.mints h
      refine spec_bind hmints (fun _ h => h.2 hash rfl)
        (triple_pre spec_intentToAdopt fun _ _ h => h.1) fun current => ?_
      have hknown : Lasting eurc chain token once settled (fun w => Fits current target ∧ Known current w) :=
        lasting_of_evolves fun _ _ hE h => ⟨h.1, h.2.mono hE⟩
      refine spec_bind (lasting_and hmints hknown) (fun _ h => h)
        (spec_invoke (Q := fun _ _ => True) (fun w _ h row hrow => ?_) (fun _ _ _ _ _ _ _ _ _ => trivial)
          (fun _ _ _ _ _ _ _ => trivial)) fun _ => ?_
      · obtain ⟨row', hrow', hadv⟩ := h.2.2
        rw [hrow] at hrow'
        cases hrow'
        have hfits := h.2.1.advanced hadv
        rw [hfits.walletAddress, hfits.tokenId, hfits.mintAmount]
        exact .inr h.1
      · exact triple_ret fun w _ h => ⟨h.1.2.1.id, h.1.2.2.hasRow h.1.2.1, h.1.1⟩

/-- What reading an intent's row establishes for good. -/
structure RowKnown (row : EscrowMintIntent) (w : World eurc) : Prop where
  known : Known row w
  attempt : ∃ a ∈ w.attempts, a.intentId = row.id ∧ a.number = row.attempt ∧ a.attemptedAt = row.attemptedAt
  hash : ∀ h, row.mintTxHash = some h →
    Sent w h row.id row.attempt ∨ Mints w h row.walletAddress row.tokenId row.mintAmount
  positive : 0 < row.mintAmount

theorem lasting_rowKnown : Lasting eurc chain token once settled (RowKnown row) :=
  lasting_of_evolves fun _ _ hE h =>
    ⟨h.known.mono hE, by obtain ⟨a, ha, hr⟩ := h.attempt; exact ⟨a, hE.attempts a ha, hr⟩,
      fun hash hh => (h.hash hash hh).imp hE.sent hE.mints, h.positive⟩

theorem RowOk.rowKnown (h : RowOk chain w i row) (hrow : w.intents i = some row) : RowKnown row w :=
  ⟨⟨row, h.id ▸ hrow, .refl row⟩, by rw [h.id]; exact h.attempt, by rw [h.id]; exact h.hash, h.positive⟩

theorem Once.not_success_of_empty (hO : Once chain token w) (hL : Ledger chain w) (htx : w.txs[h]? = some tx)
    (hatt : tx.attempt = some (i, k)) (hrow : w.intents i = some row) (ht : row.tokenId = token)
    (hzero : w.property.balances token row.walletAddress = 0) : tx.status ≠ .success := by
  intro hs
  obtain ⟨_, row', hrow', _, hp⟩ := (hL.txs h tx htx).attempt i k hatt
  rw [hrow] at hrow'
  cases hrow'
  have hle := delivered_le_minted htx token row.walletAddress
  rw [← hO.balance, hzero] at hle
  have hpos := (hL.rows i row hrow).positive
  simp [Tx.delivered, hp, mintPayload, hs, ht] at hle
  omega

/-- The grace check. The guard says the wallet still held nothing when the
clock was read, so the attempt it judges is beyond success. -/
theorem spec_graceCheck (hfits : Fits row target) :
    Spec eurc chain token once settled t (RowKnown row)
      (read (.clock (.grace target.walletAddress target.tokenId (row.attemptedAt + chain.inFlightGraceMs))))
      (fun now w => row.attemptedAt + chain.inFlightGraceMs ≤ now → Doomed chain token once row w) := by
  refine spec_read (fun w pick now hinv h hg ha hle => ?_)
    (fun now => Rules.Stable.imp_const fun _ => lasting_doomed t)
  cases ha
  refine ⟨h.known, fun ho ht => ?_⟩
  obtain ⟨a, hmem, hi, hk, hat⟩ := h.attempt
  have hexp : Expired chain w row.id row.attempt := ⟨a, hmem, hi, hk, by rw [hat]; exact hle⟩
  obtain ⟨row', hrow', hadv⟩ := h.known
  refine ⟨fun hash tx htx hatt => ⟨?_, fun _ => hexp⟩, .inl hexp⟩
  have hzero := hg.1 ho (hfits.tokenId ▸ ht) hle
  have ht' : row'.tokenId = token := hadv.tokenId.trans ht
  refine (hinv.2.1 ho).not_success_of_empty hinv.1 htx hatt hrow' ht' ?_
  rw [hadv.walletAddress, hfits.walletAddress, ← ht, hfits.tokenId]
  exact hzero

theorem spec_resolveInterruptedAttempt (hfits : Fits row target) :
    Spec eurc chain token once settled t (fun w => Aim chain target w ∧ RowKnown row w)
      (resolveInterruptedAttempt chain target row balance) (Confirmed target) := by
  unfold resolveInterruptedAttempt
  split
  · refine triple_pre spec_adoptMintAlreadyOnChain fun w _ h => ⟨h.1, fun r hr => ?_⟩
    cases hr
    exact ⟨hfits, h.2.known⟩
  · refine triple_bind (triple_pre (spec_graceCheck hfits) fun _ _ h => h.2) fun now => ?_
    split
    · exact triple_fail
    · rename_i hlt
      exact triple_pre (spec_restartMint hfits) fun w _ h => h (Nat.le_of_not_lt hlt)

theorem spec_findReceipt (h : TxHash) : Spec eurc chain token once settled t (fun _ => True) (findReceipt h)
    (fun found w => ∀ receipt, found = some receipt →
      (receipt.success = true → Succeeded h w) ∧ (receipt.success = false → Failed h w)) := by
  refine triple_catch_any (triple_bind (Q := fun receipt w => (receipt.success = true → Succeeded h w) ∧
    (receipt.success = false → Failed h w)) (spec_read (fun w pick receipt _ _ _ ha => ?_) fun receipt => ?_)
    fun receipt => triple_ret fun w _ hp r hr => by cases hr; exact hp) fun e => ?_
  · simp only [Query.answer] at ha
    split at ha
    · rename_i found hfound
      cases ha
      obtain ⟨tx, htx, hst⟩ := bind_eq_some_iff.mp hfound
      cases hstatus : tx.status <;> simp [hstatus] at hst
      · subst hst; exact ⟨fun _ => ⟨tx, htx, hstatus⟩, by simp⟩
      · subst hst; exact ⟨by simp, fun _ => ⟨tx, htx, hstatus⟩⟩
    · cases ha
  · exact lasting_and (lasting_imp (lasting_succeeded h)) (lasting_imp (lasting_failed h)) t
  · split
    · exact triple_ret fun _ _ _ r hr => by cases hr
    · exact triple_fail

theorem RowKnown.doomed (hL : Ledger chain w) (hk : RowKnown row w) (hh : row.mintTxHash = some h) (hf : Failed h w) :
    Doomed chain token once row w := by
  refine ⟨hk.known, fun _ _ => ?_⟩
  obtain ⟨tx, htx, hr⟩ := hf
  have hsent : Sent w h row.id row.attempt := by
    obtain hs | ⟨tx', htx', hs, _⟩ := hk.hash h hh
    · exact hs
    · rw [htx] at htx'
      cases htx'
      rw [hr] at hs
      cases hs
  refine ⟨fun h' tx' htx' hatt => ?_, .inr ⟨h, hsent⟩⟩
  obtain rfl := hL.oneTx h h' _ _ hsent ⟨tx', htx', hatt⟩
  rw [htx] at htx'
  cases htx'
  simp [hr]

theorem RowKnown.mints (hL : Ledger chain w) (hk : RowKnown row w) (hfits : Fits row target)
    (hh : row.mintTxHash = some h) (hs : Succeeded h w) :
    Mints w h target.walletAddress target.tokenId target.mintAmount := by
  obtain hsent | hm := hk.hash h hh
  · rw [hfits.id] at hsent
    exact hL.mints_of_sent hsent hs (hk.known.hasRow hfits)
  · rw [hfits.walletAddress, hfits.tokenId, hfits.mintAmount] at hm
    exact hm

theorem spec_resolveSentMint (hfits : Fits row target) :
    Spec eurc chain token once settled t (RowKnown row) (resolveSentMint target row balance)
      (Confirmed target) := by
  unfold resolveSentMint
  split
  · exact triple_fail
  · rename_i hash hh
    refine spec_bind lasting_rowKnown (fun _ h => h)
      (triple_pre (spec_findReceipt hash) fun _ _ _ => trivial) fun found => ?_
    cases found with
    | none => exact triple_fail
    | some receipt =>
      simp only
      split
      · rename_i hs
        exact triple_ret fun w hinv h => ⟨hfits.id, h.1.known.hasRow hfits,
          h.1.mints hinv.1 hfits hh ((h.2 receipt rfl).1 hs)⟩
      · split
        · exact triple_fail
        · rename_i hs _
          exact triple_pre (spec_restartMint hfits) fun w hinv h =>
            h.1.doomed hinv.1 hh ((h.2 receipt rfl).2 (by simpa using hs))

theorem delivered_of_position (hL : Ledger chain w) (hreg : Registered w accountId a)
    (hpiv : PivToken w pivId token) (hheld : hasPosition w pivId accountId = true)
    (hg : ∀ p ∈ w.positions, p.pivId = pivId → p.accountId = accountId → p.escrowMintIntentId ≠ none) :
    Delivered w token a := by
  simp only [hasPosition, List.any_eq_true, decide_eq_true_eq] at hheld
  obtain ⟨p, hp, hpp, hpa⟩ := hheld
  obtain ⟨i, hi⟩ := ne_none_iff_exists'.mp (hg p hp hpp hpa)
  obtain ⟨⟨hip, hia⟩, row, hrow, hs⟩ := hL.referenced p hp i hi
  have hok := hL.rows i row hrow
  refine ⟨i, row, hrow, hs, ?_, ?_⟩
  · obtain ⟨r, hr, hra, hrw⟩ := hok.registered
    obtain ⟨r', hr', hra', hrw'⟩ := hreg
    obtain rfl := hL.accounts r hr r' hr' (by rw [hra, hra', ← hia, hpa])
    rw [← hrw, hrw']
  · have hpv := hok.piv
    rw [← hip, hpp] at hpv
    exact hL.vehicles pivId _ _ hpv hpiv

theorem spec_hasPosition :
    Spec eurc chain token once settled t (fun w => Registered w accountId a ∧ PivToken w pivId tokenId)
      (read (.hasPosition pivId accountId))
      (fun held w => held = true → settled → tokenId = token → Delivered w token a) := by
  refine spec_read (fun w pick held hinv h hg ha htrue hs ht => ?_)
    (fun held => lasting_imp (lasting_imp (lasting_imp lasting_delivered)) t)
  cases ha
  subst ht
  exact delivered_of_position hinv.1 h.1 h.2 htrue (hg.2 hs h.2)

/-- What `obtainConfirmedMint` answers: a confirmed mint, or that the position is there already. -/
def Obtained (token : TokenId) (settled : Prop) (target : MintTarget) (answer : Option ConfirmedMint)
    (w : World eurc) : Prop :=
  match answer with
  | some m => Confirmed target m w
  | none => settled → target.tokenId = token → Delivered w token target.walletAddress

theorem spec_resolveExistingIntent (hfits : Fits row target) :
    Spec eurc chain token once settled t (fun w => Aim chain target w ∧ RowKnown row w)
      (resolveExistingIntent chain target row balance) (Obtained token settled target) := by
  unfold resolveExistingIntent
  split
  · refine triple_bind (triple_pre spec_hasPosition fun w _ h => ⟨h.1.registered, h.1.piv⟩) fun held => ?_
    cases held with
    | false => exact triple_fail
    | true => exact triple_ret fun w _ h => h rfl
  · exact triple_bind (triple_pre (spec_resolveSentMint hfits) fun _ _ h => h.2)
      fun m => triple_ret fun _ _ h => h
  · exact triple_bind (spec_resolveInterruptedAttempt hfits) fun m => triple_ret fun _ _ h => h

theorem spec_findEscrowMintIntent :
    Spec eurc chain token once settled t (fun _ => True) (read (.findEscrowMintIntent i))
      (fun intent w => ∀ row, intent = some row → row.id = i ∧ RowKnown row w) := by
  refine spec_read (fun w pick intent hinv _ _ ha row hrow => ?_) (fun intent w w' hi hi' hr h row hrow => ?_)
  · cases ha
    exact ⟨(hinv.1.rows i row hrow).id, (hinv.1.rows i row hrow).rowKnown hrow⟩
  · exact ⟨(h row hrow).1, lasting_rowKnown t w w' hi hi' hr (h row hrow).2⟩

/-- However it is obtained, the mint is the target's. -/
theorem spec_obtainConfirmedMint :
    Spec eurc chain token once settled t (Aim chain target) (obtainConfirmedMint chain target)
      (Obtained token settled target) := by
  have haim : Lasting eurc chain token once settled (Aim chain target) := lasting_aim
  refine spec_bind haim (fun _ h => h) (triple_pre spec_findEscrowMintIntent fun _ _ _ => trivial) fun intent => ?_
  cases intent with
  | none =>
    refine spec_bind haim (fun _ h => h.1) (triple_pre spec_read_any fun _ _ _ => trivial) fun balance => ?_
    simp only
    split
    · exact triple_bind (triple_pre spec_sendFirstMint fun _ _ h => h.1) fun m => triple_ret fun _ _ h => h
    · exact triple_bind (triple_pre spec_adoptMintAlreadyOnChain
        fun _ _ h => ⟨h.1, fun row hrow => by cases hrow⟩) fun m => triple_ret fun _ _ h => h
  | some row =>
    refine spec_bind (lasting_and haim (lasting_and lasting_const lasting_rowKnown))
      (fun _ h => ⟨h.1, h.2 row rfl⟩) (triple_pre spec_read_any fun _ _ _ => trivial) fun balance => ?_
    simp only [assertIntentMatchesTarget]
    split
    · rename_i hm
      refine triple_pre (triple_const (c := row.id = target.intentId)
        (P := fun w => Aim chain target w ∧ RowKnown row w) fun hid => ?_) fun w _ h => ⟨h.1.2.1, h.1.1, h.1.2.2⟩
      exact spec_resolveExistingIntent ⟨hid, hm.1, hm.2.2.1, hm.2.2.2⟩
    · exact triple_fail

theorem recordEscrowMintedPosition_ok (h : recordEscrowMintedPosition input w = (.ok n, w')) :
    ∃ p ∈ w'.positions, p.escrowMintIntentId = some input.escrowMintIntentId := by
  unfold recordEscrowMintedPosition at h
  have hfound : ∀ p, w.positionOf input.escrowMintIntentId = some p →
      p ∈ w.positions ∧ p.escrowMintIntentId = some input.escrowMintIntentId := fun p hp =>
    ⟨mem_of_find?_eq_some hp, by simpa using find?_some hp⟩
  simp only at h
  split at h
  · split at h
    · split at h
      · cases h
      · split at h
        · cases h
          exact ⟨_, mem_append_right _ (mem_singleton_self _), rfl⟩
        · cases h
    · split at h
      · cases h
        exact ⟨_, hfound _ ‹_›⟩
      · cases h
  · split at h
    · cases h
      exact ⟨_, hfound _ ‹_›⟩
    · cases h

theorem spec_recordMint :
    Spec eurc chain token once settled t (Confirmed target m) (recordMint target m)
      (fun _ w => target.tokenId = token → Delivered w token target.walletAddress) := by
  refine spec_bind lasting_confirmed (fun _ h => h) (triple_pre spec_read_any fun _ _ _ => trivial)
    fun activatedAt => ?_
  refine triple_bind (spec_invoke (Q := fun _ w => target.tokenId = token → Delivered w token target.walletAddress)
    (fun w _ h => ?_) (fun w c n w' _ hinv' hE h hrun ht => ?_)
    (fun n => lasting_imp lasting_delivered t)) fun n => triple_ret fun _ _ h => h
  · obtain ⟨hid, ⟨row, hrow, hfits⟩, hm⟩ := h.1
    refine ⟨by simp only [hid]; exact ⟨rfl, rfl⟩, fun r hr => ?_⟩
    simp only [hid, hrow, some.injEq] at hr
    rw [← hr, hfits.walletAddress, hfits.tokenId, hfits.mintAmount]
    exact ⟨⟨hfits.walletAddress.symm, congrArg Decimal.ofMicros hfits.mintAmount.symm, rfl⟩, hm⟩
  · obtain ⟨p, hp, hi⟩ := recordEscrowMintedPosition_ok (some.inj hrun)
    obtain ⟨_, row, hrow, hs⟩ := hinv'.1.referenced p hp _ hi
    obtain ⟨row', hrow', hfits⟩ := h.1.2.1.mono hE
    simp only [h.1.1, hrow', some.injEq] at hrow
    subst hrow
    exact ⟨_, row', hrow', hs, hfits.walletAddress, hfits.tokenId.trans ht⟩

variable {tokenId : TokenId}

/-- The vehicle's campaign has succeeded. -/
def Raised (pivId : PivId) (tokenId : TokenId) (w : World eurc) : Prop :=
  PivToken w pivId tokenId ∧ (w.escrow.campaigns tokenId).state = .successful

theorem lasting_raised : Lasting eurc chain token once settled (Raised pivId tokenId) :=
  lasting_of_evolves fun _ _ hE h => ⟨hE.pivs _ _ h.1, (hE.campaigns _ h.2).1⟩

theorem lasting_registered :
    Lasting eurc chain token once settled (Registered · accountId a) :=
  lasting_of_evolves fun _ _ hE h => hE.registered h

theorem spec_contributionOf :
    Spec eurc chain token once settled t (Raised pivId tokenId) (read (.contributionOf tokenId a))
      (fun n w => Raised pivId tokenId w ∧ w.escrow.contributions tokenId a = n) := by
  refine spec_read (fun w pick n _ h _ ha => ?_) fun n w w' hi hi' hr h => ?_
  · cases ha
    exact ⟨h, rfl⟩
  · refine ⟨lasting_raised t w w' hi hi' hr h.1, ?_⟩
    rw [(hr.1.campaigns _ h.1.2).2.1]
    exact h.2

theorem spec_mintForAccount :
    Spec eurc chain token once settled t (fun w => Raised pivId tokenId w ∧ Registered w accountId a)
      (mintForAccount chain pivId accountId tokenId a)
      (fun _ w => settled → tokenId = token → Delivered w token a) := by
  have hreg : Lasting eurc chain token once settled (Registered · accountId a) := lasting_registered
  refine spec_bind (lasting_and lasting_raised hreg) (fun _ h => h)
    (triple_pre spec_hasPosition fun _ _ h => ⟨h.2, h.1.1⟩) fun held => ?_
  cases held with
  | true => exact triple_ret fun w _ h => h.2 rfl
  | false =>
    refine spec_bind hreg (fun _ h => h.1.2) (triple_pre spec_contributionOf fun _ _ h => h.1.1) fun n => ?_
    split
    · exact triple_fail
    · refine triple_bind (triple_pre spec_obtainConfirmedMint fun w _ h =>
        ⟨h.1, h.2.1.1, h.2.1.2, h.2.2, rfl⟩) fun answer => ?_
      cases answer with
      | none => exact triple_ret fun w _ h => h
      | some => exact triple_post spec_recordMint fun _ _ _ h _ => h

theorem spec_resolveAccountIdForWallet :
    Spec eurc chain token once settled t (fun _ => True) (read (.resolveAccountIdForWallet a))
      (fun found w => ∀ accountId, found = some accountId → Registered w accountId a) := by
  refine spec_read (fun w pick found _ _ _ ha accountId hf => ?_)
    fun found w w' _ _ hr h accountId hf => hr.1.registered (h accountId hf)
  cases ha
  obtain ⟨r, hr, hid⟩ := map_eq_some_iff.mp hf
  have hmem := mem_filter.mp (mem_of_getElem? hr)
  exact ⟨r, hmem.1, hid, of_decide_eq_true hmem.2⟩

theorem spec_mintForContributor (a : Address) :
    Spec eurc chain token once settled t (Raised pivId tokenId) (mintForContributor chain pivId tokenId a)
      (fun _ w => settled → tokenId = token → Delivered w token a) := by
  refine spec_bind lasting_raised (fun _ h => h)
    (triple_pre spec_resolveAccountIdForWallet fun _ _ _ => trivial) fun found => ?_
  cases found with
  | none => exact triple_fail
  | some accountId => exact triple_pre spec_mintForAccount fun w _ h => ⟨h.1, h.2 accountId rfl⟩

/-- The contributors of a raised campaign, and those already served. -/
def Served (token : TokenId) (settled : Prop) (pivId : PivId) (tokenId : TokenId) (all done : List Address)
    (w : World eurc) : Prop :=
  Raised pivId tokenId w ∧ IpoEscrow.contributorsOf w.escrow tokenId = all ∧
    ∀ a ∈ done, settled → tokenId = token → Delivered w token a

theorem lasting_served (all done : List Address) :
    Lasting eurc chain token once settled (Served token settled pivId tokenId all done) :=
  fun u w w' hi hi' hr ⟨hraised, hall, hdone⟩ =>
    ⟨lasting_raised u w w' hi hi' hr hraised, (hr.1.campaigns _ hraised.2).2.2.trans hall,
      fun a ha hs ht => lasting_delivered u w w' hi hi' hr (hdone a ha hs ht)⟩

theorem spec_withdrawRaised (all : List Address) :
    Spec eurc chain token once settled t (Served token settled pivId tokenId all all) (withdrawRaised tokenId)
      (fun _ _ => True) := by
  refine triple_bind (spec_invoke (Q := fun _ _ => True) (fun w _ h => ⟨by simp, fun t' ht' => ?_⟩)
    (fun _ _ _ _ _ _ _ _ _ => trivial) (fun _ _ _ _ _ _ _ => trivial)) fun hash => ?_
  · cases ht'
    obtain ⟨hraised, hall, hdone⟩ := h
    refine ⟨hraised.2, fun hs ht a ha => ?_⟩
    rw [hall] at ha
    rw [ht] at hdone ⊢
    exact hdone a ha hs rfl
  · refine triple_bind (spec_wait hash) fun receipt => ?_
    split
    · exact triple_done
    · exact triple_fail

/-- The sweep is sent when every contributor is served. -/
theorem spec_mintAndSweep (done rest : List Address) :
    ∀ summary, Spec eurc chain token once settled t (Served token settled pivId tokenId (done ++ rest) done)
      (mintAndSweep chain pivId tokenId summary rest) (fun _ _ => True) := by
  induction rest generalizing done with
  | nil =>
    intro summary
    rw [append_nil]
    exact spec_recovering (triple_bind (spec_withdrawRaised done) fun _ => triple_done)
  | cons a rest ih =>
    intro summary
    refine spec_bind (lasting_served (done ++ a :: rest) done) (fun _ h => h)
      (triple_pre (spec_attempt (spec_mintForContributor a)) fun _ _ h => h.1) fun outcome => ?_
    cases outcome with
    | error => exact triple_done
    | ok outcome =>
      have hnext := ih (done ++ [a]) (summary.count outcome)
      rw [append_assoc, singleton_append] at hnext
      refine triple_pre hnext fun w _ ⟨⟨hraised, hall, hdone⟩, hnew⟩ => ⟨hraised, hall, fun b hb => ?_⟩
      obtain hb | hb := mem_append.mp hb
      · exact hdone b hb
      · rw [mem_singleton.mp hb]
        exact hnew outcome rfl

theorem spec_contributorsOf :
    Spec eurc chain token once settled t (Raised pivId tokenId) (read (.contributorsOf tokenId))
      (fun contributors => Served token settled pivId tokenId contributors []) := by
  refine spec_read (fun w pick contributors _ h _ ha => ?_) fun contributors => lasting_served contributors [] t
  cases ha
  exact ⟨h, rfl, by simp⟩

theorem spec_processResolved :
    Spec eurc chain token once settled t
      (fun w => PivToken w pivId tokenId ∧ (campaign.state = .successful → Raised pivId tokenId w))
      (processResolved chain pivId tokenId campaign summary) (fun _ _ => True) := by
  unfold processResolved
  split
  · exact triple_done
  · split
    · exact triple_done
    · rename_i hs
      exact spec_recovering (triple_bind (triple_pre spec_contributorsOf fun _ _ h => h.2 (not_not.mp hs))
        fun contributors => spec_mintAndSweep [] contributors _)

theorem spec_campaignOf :
    Spec eurc chain token once settled t (PivToken · pivId tokenId) (read (.campaignOf tokenId))
      (fun campaign w => PivToken w pivId tokenId ∧ (campaign.state = .successful → Raised pivId tokenId w)) := by
  refine spec_read (fun w pick campaign _ h _ ha => ?_) fun campaign w w' hi hi' hr h => ?_
  · cases ha
    exact ⟨h, fun hs => ⟨h, hs⟩⟩
  · exact ⟨hr.1.pivs _ _ h.1, fun hs => lasting_raised t w w' hi hi' hr (h.2 hs)⟩

theorem spec_finalizeCampaign :
    Spec eurc chain token once settled t (fun _ => True) (finalizeCampaign tokenId) (fun _ _ => True) := by
  refine triple_bind (spec_write_plain (by simp) (by simp)) fun hash => ?_
  refine triple_bind (triple_pre (spec_wait hash) fun _ _ _ => trivial) fun receipt => ?_
  split
  · exact triple_done
  · exact triple_fail

theorem spec_processCampaign :
    Spec eurc chain token once settled t (PivToken · pivId tokenId) (processCampaign chain (pivId, tokenId) summary)
      (fun _ _ => True) := by
  refine spec_recovering (triple_bind spec_campaignOf fun campaign => ?_)
  split
  · exact triple_done
  · split
    · refine spec_bind (lasting_of_evolves fun _ _ hE h => hE.pivs _ _ h) (fun _ h => h.1)
        (triple_pre spec_finalizeCampaign fun _ _ _ => trivial) fun _ => ?_
      exact spec_recovering (triple_bind (triple_pre spec_campaignOf fun _ _ h => h.1)
        fun campaign => spec_processResolved)
    · exact spec_processResolved

end Methods

theorem mem_findPivsWithPassedIpoDeadline (h : c ∈ findPivsWithPassedIpoDeadline w now) : PivToken w c.1 c.2 := by
  obtain ⟨p, hp, hc⟩ := mem_filterMap.mp h
  split at hc
  · rename_i tokenId endAt ht _
    split at hc
    · cases hc
      exact ⟨p, hp, rfl, ht⟩
    · cases hc
  · cases hc

theorem spec_processCandidate :
    Spec eurc chain token once settled t (PivToken · c.1 c.2) (processCandidate chain summary c)
      (fun _ _ => True) := by
  refine triple_bind spec_processCampaign fun progress => ?_
  split <;> exact triple_done

def Candidates (candidates : List (PivId × TokenId)) (w : World eurc) : Prop :=
  ∀ c ∈ candidates, PivToken w c.1 c.2

theorem lasting_candidates :
    Lasting eurc chain token once settled (Candidates candidates) :=
  lasting_of_evolves fun _ _ hE h c hc => hE.pivs _ _ (h c hc)

theorem spec_findPivs :
    Spec eurc chain token once settled t (fun _ => True) (read (.findPivsWithPassedIpoDeadline now))
      Candidates := by
  refine spec_read (fun w pick candidates _ _ _ ha c hc => ?_) fun candidates => lasting_candidates t
  cases ha
  exact mem_findPivsWithPassedIpoDeadline hc

theorem spec_execute : Spec eurc chain token once settled t (fun _ => True) (execute chain) (fun _ _ => True) := by
  refine triple_bind spec_read_any fun now => ?_
  refine triple_bind spec_findPivs fun candidates => ?_
  refine triple_post (triple_foldlM (I := fun _ => Candidates candidates) (processCandidate chain) [] candidates
    (fun acc pre c post hsplit => ?_) _) fun _ _ _ _ => trivial
  have hc : c ∈ candidates := by
    rw [nil_append] at hsplit
    rw [← hsplit]
    exact mem_append_right _ (mem_cons_self ..)
  exact triple_post (triple_pre (triple_frame lasting_candidates spec_processCandidate)
    fun w _ h => ⟨h, h c hc⟩) fun _ _ _ h => h.1

/-- The rules hold in every interleaving of runs and events. -/
theorem sound_system (eurc : Erc20) (chain : Chain) (token : TokenId) (once settled : Prop) :
    Sound (system chain eurc) (guard chain token once settled) (rules chain token once settled) where
  job _ j := by
    cases j with
    | finalizeIpoEscrowCampaigns => exact triple_bind spec_execute fun _ => triple_done
  env e w w' hinv hguard h := by
    have hharmless := env_harmless hinv hguard h
    exact ⟨(hharmless 0).1, fun t => (hharmless (t + 1)).2 t (Nat.succ_ne_self t).symm⟩

end Settlement
