import VistaBlox.MintOnce
import VistaBlox.Table

/-!
# Whose wallet a position is

A wallet registers itself on the chain, the watcher and the staff confirm what they find
there, and the job looks a contributor's account up in the same table, confirmed or not, in
one of two spellings.
-/
namespace Settlement

open Evm Interleaving Option

abbrev Commitment := Nat

structure Registration where
  accountId : AccountId
  walletAddress : WalletText
  registrationCommitment : Commitment
  requestedAt : Nat
  registeredAt : Option Nat
  registrationTxHash : Option TxHash
  registrationBlockNumber : Option Nat
  deriving DecidableEq

/-- A log of the registry contract; the sender is the wallet. -/
structure WalletRegistered where
  wallet : Address
  commitment : Commitment
  timestamp : Nat
  txHash : TxHash
  block : Nat
  deriving DecidableEq

structure RegisterWalletInput where
  accountId : AccountId
  walletAddress : WalletText
  registrationCommitment : Commitment
  requestedAt : Nat

inductive WalletAddressConflict where
  | addressMismatch | addressClaimed
  deriving DecidableEq, Repr

def newRegistration (input : RegisterWalletInput) : Registration where
  accountId := input.accountId
  walletAddress := input.walletAddress
  registrationCommitment := input.registrationCommitment
  requestedAt := input.requestedAt
  registeredAt := none
  registrationTxHash := none
  registrationBlockNumber := none

def registerWallet (input : RegisterWalletInput) (rows : List Registration) :
    Except WalletAddressConflict Registration × List Registration :=
  let existingForAccount := Table.find Registration.accountId rows input.accountId
  match existingForAccount.filter fun r => r.walletAddress = input.walletAddress with
  | some existing => (.ok existing, rows)
  | none =>
    if rows.any fun r => r.walletAddress = input.walletAddress ∧ r.accountId ≠ input.accountId then
      (.error .addressClaimed, rows)
    else if existingForAccount.isSome then (.error .addressMismatch, rows)
    else (.ok (newRegistration input), rows ++ [newRegistration input])

/-- `findFirst` without an order: any matching row may be the first. -/
def findPendingWalletRegistrationByCommitment (pick : Nat) (commitment : Commitment) (rows : List Registration) :
    Option Registration :=
  let found := rows.filter fun r => r.registrationCommitment = commitment ∧ r.registeredAt = none
  found[pick % found.length]?

def confirmWalletRegistration (accountId : AccountId) (registeredAt : Nat) (rows : List Registration) :
    List Registration :=
  Table.update Registration.accountId rows accountId fun r => { r with registeredAt := some registeredAt }

/-- The evidence the chain verifier finds in a transaction: block and time of a matching log. -/
def verify (logs : List WalletRegistered) (head : Nat) (txHash : TxHash) (walletAddress : WalletText)
    (commitment : Commitment) : Option WalletRegistered :=
  (logs.find? fun l => l.txHash = txHash ∧ l.wallet = walletAddress.address ∧ l.commitment = commitment).filter
    fun l => l.block + 3 ≤ head

inductive ReconcileFailure where
  | accountNotFound | unverified | uniqueViolation
  deriving DecidableEq, Repr

def reconcileWalletRegistration (logs : List WalletRegistered) (head : Nat) (accountId : AccountId) (txHash : TxHash)
    (rows : List Registration) : Except ReconcileFailure Registration × List Registration :=
  match Table.find Registration.accountId rows accountId with
  | none => (.error .accountNotFound, rows)
  | some wallet =>
    if wallet.registeredAt.isSome ∧ wallet.registrationTxHash = some txHash then (.ok wallet, rows)
    else match verify logs head txHash wallet.walletAddress wallet.registrationCommitment with
      | none => (.error .unverified, rows)
      | some evidence =>
        if rows.any fun r => r.registrationTxHash = some txHash ∧ r.accountId ≠ accountId then
          (.error .uniqueViolation, rows)
        else
          let reconciled (r : Registration) : Registration := { r with
            registeredAt := some (evidence.timestamp * 1000)
            registrationTxHash := some txHash
            registrationBlockNumber := some evidence.block }
          (.ok (reconciled wallet), Table.update Registration.accountId rows accountId reconciled)

/-- The table, the logs of the registry, and the accounts for which the watcher
has matched a log and is about to write. -/
structure Registrar where
  rows : List Registration
  logs : List WalletRegistered
  matched : List AccountId

/-- One log in the watcher's loop, up to the write. -/
def observeLog (pick : Nat) (log : WalletRegistered) (s : Registrar) : Registrar :=
  match findPendingWalletRegistrationByCommitment pick log.commitment s.rows with
  | none => s
  | some pending =>
    if pending.walletAddress.address ≠ log.wallet then s
    else { s with matched := s.matched ++ [pending.accountId] }

section Office

variable (eurc : Erc20)

/-- The registrar beside the settlement world, whose `wallets` are the registrar's rows. -/
structure Office where
  registrar : Registrar
  config : Config (World eurc) Failure Op Op.Out

inductive Move where
  | settlement (a : Step eurc)
  | registerWallet (input : RegisterWalletInput)
  | register (m : Msg) (commitment : Commitment) (txHash : TxHash) (block : Nat)
  | observe (pick : Nat) (log : WalletRegistered)
  | confirm (accountId : AccountId) (registeredAt : Nat)
  | reconcile (head : Nat) (accountId : AccountId) (txHash : TxHash)

variable {eurc} (chain : Chain)

def Registration.entry (r : Registration) : WalletRegistration := ⟨r.accountId, r.walletAddress⟩

def withWallets (wallets : List WalletRegistration) (c : Config (World eurc) Failure Op Op.Out) :
    Config (World eurc) Failure Op Op.Out := ⟨{ c.world with wallets := wallets }, c.threads⟩

def Office.setRows (s : Office eurc) (rows : List Registration) : Office eurc :=
  ⟨{ s.registrar with rows := rows }, withWallets (rows.map Registration.entry) s.config⟩

def Office.step (s : Office eurc) : Move eurc → Option (Office eurc)
  | .settlement (.env (.registerWallet ..)) => none
  | .settlement a => ((system chain eurc).step s.config a).map fun c => { s with config := c }
  | .registerWallet input => some (s.setRows (registerWallet input s.registrar.rows).2)
  | .register m commitment txHash block => some { s with registrar := { s.registrar with
      logs := s.registrar.logs ++ [⟨m.sender, commitment, m.timestamp, txHash, block⟩] } }
  | .observe pick log =>
    if log ∈ s.registrar.logs then some { s with registrar := observeLog pick log s.registrar } else none
  | .confirm accountId registeredAt =>
    if accountId ∈ s.registrar.matched then
      some (s.setRows (confirmWalletRegistration accountId registeredAt s.registrar.rows))
    else none
  | .reconcile head accountId txHash =>
    some (s.setRows (reconcileWalletRegistration s.registrar.logs head accountId txHash s.registrar.rows).2)

/-- Runs whose every step meets a condition, judged in the state before it. -/
inductive Office.Reachable (allowed : Office eurc → Move eurc → Prop) (s₀ : Office eurc) : Office eurc → Prop where
  | refl : Reachable allowed s₀ s₀
  | tail {s s' : Office eurc} (m : Move eurc) : Reachable allowed s₀ s → allowed s m → s.step chain m = some s' →
      Reachable allowed s₀ s'

def opened (w : World eurc) : Office eurc := ⟨⟨[], [], []⟩, idle w⟩

/-- A schedule is played step by step; each step has to pass the test first. -/
def Office.play (test : Office eurc → Move eurc → Bool) : List (Move eurc) → Office eurc → Option (Office eurc)
  | [], s => some s
  | m :: rest, s => if test s m then (s.step chain m).bind (Office.play test rest) else none

theorem Office.reachable_of_play (htest : ∀ s m, test s m = true → allowed s m) (moves : List (Move eurc)) :
    ∀ s s', Office.Reachable chain allowed s₀ s → Office.play chain test moves s = some s' →
      Office.Reachable chain allowed s₀ s' := by
  induction moves with
  | nil =>
    intro s s' hs h
    cases h
    exact hs
  | cons m rest ih =>
    intro s s' hs h
    simp only [Office.play, ite_none_right_eq_some] at h
    obtain ⟨hok, h⟩ := h
    obtain ⟨s₁, hm, hrest⟩ := bind_eq_some_iff.mp h
    exact ih s₁ s' (hs.tail m (htest s m hok) hm) hrest

theorem Office.exists_of_play (test : Office eurc → Move eurc → Bool) (htest : ∀ s m, test s m = true → allowed s m)
    (moves : List (Move eurc)) (s : Office eurc) (look : Office eurc → Bool)
    (h : (Office.play chain test moves s).any look = true) :
    ∃ s', Office.Reachable chain allowed s s' ∧ look s' = true := by
  cases hplay : Office.play chain test moves s with
  | none => simp [hplay] at h
  | some s' => exact ⟨s', Office.reachable_of_play chain htest moves s s' .refl hplay, by simpa [hplay] using h⟩

end Office

section Shadow

variable {eurc : Erc20} (chain : Chain)

theorem run_wallets (t : Nat) (c : Choice) (w : World eurc) (ws : List WalletRegistration) (op : Op)
    (hlook : ∀ a, op = .read (.resolveAccountIdForWallet a) →
      resolveAccountIdForWallet { w with wallets := ws } c.pick a = resolveAccountIdForWallet w c.pick a) :
    op.run chain t c { w with wallets := ws } =
      (op.run chain t c w).map fun r => (r.1, { r.2 with wallets := ws }) := by
  cases op with
  | read q =>
    cases q with
    | resolveAccountIdForWallet a => simp only [Op.run, Query.answer, hlook a rfl, map_some]
    | _ => rfl
  | createEscrowMintIntent =>
    simp only [Op.run, createEscrowMintIntent, map_some]
    split
    · rfl
    · split <;> rfl
  | restartEscrowMintAttempt =>
    simp only [Op.run, restartEscrowMintAttempt, map_some]
    split
    · split <;> rfl
    · rfl
  | recordEscrowMintSent =>
    simp only [Op.run, recordEscrowMintSent, map_some]
    split
    · split
      · rfl
      · split <;> rfl
    · rfl
  | recordEscrowMintedPosition input =>
    have hposition : World.positionOf { w with wallets := ws } input.escrowMintIntentId =
        w.positionOf input.escrowMintIntentId := rfl
    simp only [Op.run, recordEscrowMintedPosition, map_some, hposition]
    split
    · split
      · split
        · rfl
        · split <;> rfl
      · split <;> rfl
    · split <;> rfl
  | write => rfl
  | waitForTransactionReceipt =>
    simp only [Op.run, map_map]
    rfl

theorem exec_wallets (t : Nat) (c : Choice) (w : World eurc) (ws : List WalletRegistration) (op : Op)
    (hlook : ∀ a, op = .read (.resolveAccountIdForWallet a) →
      resolveAccountIdForWallet { w with wallets := ws } c.pick a = resolveAccountIdForWallet w c.pick a) :
    exec chain t op c { w with wallets := ws } =
      (exec chain t op c w).map fun r => (r.1, { r.2 with wallets := ws }) := by
  have hrun := run_wallets chain t c w ws op hlook
  unfold exec
  cases c.fault with
  | none => exact hrun
  | some applied =>
    rw [hrun]
    cases applied with
    | false => rfl
    | true => cases op.run chain t c w <;> rfl

theorem env_wallets (e : Event eurc) (w : World eurc) (ws : List WalletRegistration)
    (he : ∀ a text, e ≠ .registerWallet a text) :
    env chain e { w with wallets := ws } = (env chain e w).map fun w' => { w' with wallets := ws } := by
  cases e with
  | registerWallet a text => exact absurd rfl (he a text)
  | tick => rfl
  | mine hash timestamp accepted =>
    have hmine : ∀ tx : Tx, World.mine chain { w with wallets := ws } hash tx timestamp accepted =
        { World.mine chain w hash tx timestamp accepted with wallets := ws } := by
      intro tx
      simp only [World.mine]
      split <;> split <;> rfl
    simp only [env, map_map]
    exact map_congr fun tx _ => hmine tx
  | drop =>
    simp only [env, map_map]
    rfl
  | escrow => rfl
  | property =>
    simp only [env, map_some, World.foreignCall]
    split <;> rfl
  | commitOfferingFinalization => rfl
  | openOffering =>
    simp only [env]
    split <;> rfl
  | moveIpoEnd => rfl

variable (c : Config (World eurc) Failure Op Op.Out)

/-- A step of the settlement world is possible with other wallets in the table,
if the lookup it may make gives the same account. -/
theorem step_wallets (ws : List WalletRegistration) (ha : ∀ x text, a ≠ .env (.registerWallet x text))
    (hlook : ∀ (t : Nat) (choice : Choice) (addr : Address) next, a = .call t choice →
      c.threads t = .call (.read (.resolveAccountIdForWallet addr)) next →
      resolveAccountIdForWallet { c.world with wallets := ws } choice.pick addr =
        resolveAccountIdForWallet c.world choice.pick addr) :
    (system chain eurc).step (withWallets ws c) a = ((system chain eurc).step c a).map (withWallets ws) := by
  cases a with
  | spawn => rfl
  | env e =>
    have he := env_wallets chain e c.world ws fun x text h => ha x text (by rw [h])
    simp only [Semantics.step, withWallets, system, he, map_map]
    rfl
  | call t choice =>
    simp only [Semantics.step, withWallets]
    cases hthread : c.threads t with
    | ret => rfl
    | fail => rfl
    | call op next =>
      have hexec := exec_wallets chain t choice c.world ws op fun addr hop => by
        subst hop
        exact hlook t choice addr next rfl hthread
      simp only [system, hexec, map_map]
      rfl

theorem step_keeps_wallets {c c' : Config (World eurc) Failure Op Op.Out}
    (ha : ∀ x text, a ≠ .env (.registerWallet x text)) (h : (system chain eurc).step c a = some c') :
    c'.world.wallets = c.world.wallets := by
  have hsame := step_wallets chain c c.world.wallets ha fun _ _ _ _ _ _ => rfl
  have heq : withWallets c.world.wallets c = c := rfl
  rw [heq, h, map_some, some.injEq] at hsame
  rw [hsame]
  rfl

end Shadow

variable {accountId : AccountId} {r : Registration} {s : Registrar}

/-- The wallet registered itself on the chain with the row's commitment. -/
def Registration.Backed (logs : List WalletRegistered) (r : Registration) : Prop :=
  ∃ l ∈ logs, l.wallet = r.walletAddress.address ∧ l.commitment = r.registrationCommitment

theorem Registration.Backed.append (h : r.Backed logs) (l : WalletRegistered) : r.Backed (logs ++ [l]) := by
  obtain ⟨l', hl', heq⟩ := h
  exact ⟨l', List.mem_append_left _ hl', heq⟩

/-- A write that leaves the account's request as it is. -/
structure KeepsRequest (f : Registration → Registration) : Prop where
  accountId : ∀ r, (f r).accountId = r.accountId
  walletAddress : ∀ r, (f r).walletAddress = r.walletAddress
  registrationCommitment : ∀ r, (f r).registrationCommitment = r.registrationCommitment

/-- A write that records a confirmation. -/
structure Confirms (f : Registration → Registration) : Prop extends KeepsRequest f where
  registeredAt : ∀ r, (f r).registeredAt.isSome

theorem KeepsRequest.entry (hf : KeepsRequest f) (r : Registration) : (f r).entry = r.entry := by
  simp only [Registration.entry, hf.accountId, hf.walletAddress]

theorem KeepsRequest.backed (hf : KeepsRequest f) : (f r).Backed logs ↔ r.Backed logs := by
  simp only [Registration.Backed, hf.walletAddress, hf.registrationCommitment]

theorem KeepsRequest.update (hf : KeepsRequest f) (accountId : AccountId) :
    KeepsRequest fun r => if r.accountId = accountId then f r else r := by
  constructor <;> intro r <;> split
  · exact hf.accountId r
  · rfl
  · exact hf.walletAddress r
  · rfl
  · exact hf.registrationCommitment r
  · rfl

theorem Confirms.entries (hf : Confirms f) (rows : List Registration) (accountId : AccountId)
    (x : WalletRegistration) :
    (∃ r ∈ Table.update Registration.accountId rows accountId f, r.registeredAt.isSome ∧ r.entry = x) ↔
      (∃ r ∈ rows, r.registeredAt.isSome ∧ r.entry = x) ∨ ∃ r ∈ rows, r.accountId = accountId ∧ r.entry = x := by
  constructor
  · rintro ⟨r', hr', hsome, rfl⟩
    obtain ⟨r, hr, rfl⟩ := List.mem_map.mp hr'
    by_cases hid : r.accountId = accountId
    · simp only [hid, if_true, hf.entry]
      exact .inr ⟨r, hr, hid, rfl⟩
    · simp only [hid, if_false] at hsome ⊢
      exact .inl ⟨r, hr, hsome, rfl⟩
  · rintro (⟨r, hr, hsome, rfl⟩ | ⟨r, hr, hid, rfl⟩)
    · refine ⟨_, List.mem_map_of_mem hr, ?_, (hf.update accountId).entry r⟩
      split
      · exact hf.registeredAt r
      · exact hsome
    · refine ⟨_, List.mem_map_of_mem hr, ?_, (hf.update accountId).entry r⟩
      rw [if_pos hid]
      exact hf.registeredAt r

theorem confirmWalletRegistration_confirms (registeredAt : Nat) :
    Confirms fun r => { r with registeredAt := some registeredAt } :=
  ⟨⟨fun _ => rfl, fun _ => rfl, fun _ => rfl⟩, fun _ => rfl⟩

theorem verify_some (h : verify logs head txHash text commitment = some l) :
    l ∈ logs ∧ l.wallet = text.address ∧ l.commitment = commitment := by
  obtain ⟨hfind, _⟩ := filter_eq_some_iff.mp h
  have htest := List.find?_some hfind
  simp only [decide_eq_true_eq] at htest
  exact ⟨List.mem_of_find?_eq_some hfind, htest.2⟩

theorem reconcile_cases (head : Nat) :
    (reconcileWalletRegistration logs head accountId txHash rows).2 = rows ∨
      ∃ f wallet, Confirms f ∧ wallet ∈ rows ∧ wallet.accountId = accountId ∧ wallet.Backed logs ∧
        (reconcileWalletRegistration logs head accountId txHash rows).2 =
          Table.update Registration.accountId rows accountId f := by
  unfold reconcileWalletRegistration
  cases hfind : Table.find Registration.accountId rows accountId with
  | none => exact .inl rfl
  | some wallet =>
    obtain ⟨hmem, hid⟩ := Table.find_some hfind
    dsimp only
    split
    · exact .inl rfl
    · cases hverify : verify logs head txHash wallet.walletAddress wallet.registrationCommitment with
      | none => exact .inl rfl
      | some evidence =>
        obtain ⟨hlog, hwallet⟩ := verify_some hverify
        dsimp only
        split
        · exact .inl rfl
        · refine .inr ⟨_, wallet, ?_, hmem, hid, ⟨evidence, hlog, hwallet⟩, rfl⟩
          exact ⟨⟨fun _ => rfl, fun _ => rfl, fun _ => rfl⟩, fun _ => rfl⟩

theorem registerWallet_cases :
    (registerWallet input rows).2 = rows ∨
      (registerWallet input rows).2 = rows ++ [newRegistration input] ∧
        Table.find Registration.accountId rows input.accountId = none ∧
        ∀ r ∈ rows, r.walletAddress ≠ input.walletAddress := by
  unfold registerWallet
  dsimp only
  split
  · exact .inl rfl
  · split
    · exact .inl rfl
    · rename_i hclaimed
      split
      · exact .inl rfl
      · rename_i hexisting
        have hnone : Table.find Registration.accountId rows input.accountId = none := by simpa using hexisting
        refine .inr ⟨rfl, hnone, fun r hr htext => hclaimed ?_⟩
        exact List.any_eq_true.mpr ⟨r, hr, by simpa using ⟨htext, Table.find_none hnone r hr⟩⟩

/-- What the table owes to the chain. -/
structure Registrar.Sound (s : Registrar) : Prop where
  accounts : Table.Keyed Registration.accountId s.rows
  addresses : ∀ r ∈ s.rows, ∀ r' ∈ s.rows, r.walletAddress.address = r'.walletAddress.address → r = r'
  registered : ∀ r ∈ s.rows, r.registeredAt.isSome → r.Backed s.logs
  matched : ∀ a ∈ s.matched, ∃ r ∈ s.rows, r.accountId = a ∧ r.Backed s.logs

theorem Registrar.Sound.add (h : s.Sound) (hid : Table.find Registration.accountId s.rows r.accountId = none)
    (haddress : ∀ r' ∈ s.rows, r'.walletAddress.address ≠ r.walletAddress.address)
    (hregistered : r.registeredAt = none) :
    ({ s with rows := s.rows ++ [r] } : Registrar).Sound where
  accounts := h.accounts.append hid
  addresses := by
    intro x hx y hy hxy
    rw [List.mem_append, List.mem_singleton] at hx hy
    rcases hx with hx | rfl
    · rcases hy with hy | rfl
      · exact h.addresses x hx y hy hxy
      · exact absurd hxy (haddress x hx)
    · rcases hy with hy | rfl
      · exact absurd hxy.symm (haddress y hy)
      · rfl
  registered := by
    intro x hx hsome
    rw [List.mem_append, List.mem_singleton] at hx
    rcases hx with hx | rfl
    · exact h.registered x hx hsome
    · simp [hregistered] at hsome
  matched := by
    intro a ha
    obtain ⟨x, hx, hbacked⟩ := h.matched a ha
    exact ⟨x, List.mem_append_left _ hx, hbacked⟩

theorem Registrar.Sound.confirm (h : s.Sound) (hf : Confirms f)
    (hbacked : ∀ r ∈ s.rows, r.accountId = accountId → r.Backed s.logs) :
    ({ s with rows := Table.update Registration.accountId s.rows accountId f } : Registrar).Sound := by
  have hg := hf.toKeepsRequest.update accountId
  constructor
  · exact h.accounts.map fun r _ => hg.accountId r
  · intro x hx y hy hxy
    obtain ⟨r, hr, rfl⟩ := List.mem_map.mp hx
    obtain ⟨r', hr', rfl⟩ := List.mem_map.mp hy
    rw [hg.walletAddress, hg.walletAddress] at hxy
    rw [h.addresses r hr r' hr' hxy]
  · intro x hx hsome
    obtain ⟨r, hr, rfl⟩ := List.mem_map.mp hx
    rw [hg.backed]
    by_cases hid : r.accountId = accountId
    · exact hbacked r hr hid
    · rw [if_neg hid] at hsome
      exact h.registered r hr hsome
  · intro a ha
    obtain ⟨r, hr, hid, hback⟩ := h.matched a ha
    exact ⟨_, List.mem_map_of_mem hr, (hg.accountId r).trans hid, hg.backed.mpr hback⟩

theorem Registrar.Sound.matched_backed (h : s.Sound) (hmatched : accountId ∈ s.matched) :
    ∀ r ∈ s.rows, r.accountId = accountId → r.Backed s.logs := by
  intro r hr hid
  obtain ⟨r', hr', hid', hback⟩ := h.matched accountId hmatched
  rw [h.accounts.eq_of_key hr hr' (hid.trans hid'.symm)]
  exact hback

theorem Registrar.Sound.log (h : s.Sound) (l : WalletRegistered) :
    ({ s with logs := s.logs ++ [l] } : Registrar).Sound where
  accounts := h.accounts
  addresses := h.addresses
  registered r hr hsome := (h.registered r hr hsome).append l
  matched a ha := by
    obtain ⟨r, hr, hid, hback⟩ := h.matched a ha
    exact ⟨r, hr, hid, hback.append l⟩

theorem Registrar.Sound.observe (h : s.Sound) (pick : Nat) {log : WalletRegistered} (hlog : log ∈ s.logs) :
    (observeLog pick log s).Sound := by
  unfold observeLog
  cases hfind : findPendingWalletRegistrationByCommitment pick log.commitment s.rows with
  | none => exact h
  | some pending =>
    dsimp only
    split
    · exact h
    · rename_i haddress
      have hmem := List.mem_filter.mp (List.mem_of_getElem? hfind)
      simp only [decide_eq_true_eq] at hmem
      obtain ⟨hpending, hcommitment, _⟩ := hmem
      refine ⟨h.accounts, h.addresses, h.registered, fun a ha => ?_⟩
      rw [List.mem_append, List.mem_singleton] at ha
      rcases ha with ha | rfl
      · exact h.matched a ha
      · exact ⟨pending, hpending, rfl, log, hlog, (not_not.mp haddress).symm, hcommitment.symm⟩

section Proven

/-- An address is requested in one spelling, and looked up only when its
registration has been confirmed. -/
def proven (s : Office eurc) : Move eurc → Prop
  | .registerWallet input => ∀ r ∈ s.registrar.rows, r.walletAddress.address = input.walletAddress.address →
      r.walletAddress = input.walletAddress
  | .settlement (.call t _) => match s.config.threads t with
    | .call (.read (.resolveAccountIdForWallet a)) _ =>
      ∀ r ∈ s.registrar.rows, r.walletAddress.address = a → r.registeredAt.isSome
    | _ => True
  | _ => True

/-- The table's rows are the wallets of the settlement world, and the run would
have gone the same way with the confirmed ones alone. -/
structure Office.Shadows (chain : Chain) (w₀ : World eurc) (s : Office eurc) : Prop where
  wallets : s.config.world.wallets = s.registrar.rows.map Registration.entry
  confirmed : ∃ ws : List WalletRegistration,
    (∀ x, x ∈ ws ↔ ∃ r ∈ s.registrar.rows, r.registeredAt.isSome ∧ r.entry = x) ∧
    Interleaving.Reachable (system chain eurc) Guard.free (idle w₀) (withWallets ws s.config)

variable {w₀ : World eurc} {s : Office eurc}

variable {w : World eurc}

theorem resolve_of_mem (hy : y ∈ w.wallets)
    (hunique : ∀ x ∈ w.wallets, x.walletAddress.address = y.walletAddress.address → x = y) :
    resolveAccountIdForWallet w pick y.walletAddress.address = some y.accountId := by
  let found := w.wallets.filter fun r => r.walletAddress.address = y.walletAddress.address
  have hmem : y ∈ found := List.mem_filter.mpr ⟨hy, by simp⟩
  have hlt : pick % found.length < found.length := Nat.mod_lt _ (List.length_pos_of_mem hmem)
  have hpicked : found[pick % found.length] = y := by
    obtain ⟨hin, haddress⟩ := List.mem_filter.mp (List.getElem_mem hlt)
    exact hunique _ hin (by simpa using haddress)
  change found[pick % found.length]?.map WalletRegistration.accountId = _
  rw [List.getElem?_eq_getElem hlt, hpicked]
  rfl

theorem resolve_of_none (h : ∀ x ∈ w.wallets, x.walletAddress.address ≠ a) (pick : Nat) :
    resolveAccountIdForWallet w pick a = none := by
  have hfound : w.wallets.filter (fun r => r.walletAddress.address = a) = [] :=
    List.filter_eq_nil_iff.mpr fun x hx => by simpa using h x hx
  simp [resolveAccountIdForWallet, hfound]

theorem resolve_confirmed (hsound : s.registrar.Sound)
    (hwallets : s.config.world.wallets = s.registrar.rows.map Registration.entry)
    (hws : ∀ x, x ∈ ws ↔ ∃ r ∈ s.registrar.rows, r.registeredAt.isSome ∧ r.entry = x) (pick : Nat)
    (ha : ∀ r ∈ s.registrar.rows, r.walletAddress.address = a → r.registeredAt.isSome) :
    resolveAccountIdForWallet { s.config.world with wallets := ws } pick a =
      resolveAccountIdForWallet s.config.world pick a := by
  have hsub : ∀ x ∈ ws, x ∈ s.config.world.wallets := by
    intro x hx
    obtain ⟨r, hr, _, rfl⟩ := (hws x).mp hx
    rw [hwallets]
    exact List.mem_map_of_mem hr
  by_cases hrow : ∃ r ∈ s.registrar.rows, r.walletAddress.address = a
  · obtain ⟨r, hr, rfl⟩ := hrow
    have hunique : ∀ x ∈ s.config.world.wallets,
        x.walletAddress.address = r.entry.walletAddress.address → x = r.entry := by
      intro x hx haddress
      rw [hwallets] at hx
      obtain ⟨r', hr', rfl⟩ := List.mem_map.mp hx
      rw [hsound.addresses r' hr' r hr haddress]
    have hin : r.entry ∈ s.config.world.wallets := by
      rw [hwallets]
      exact List.mem_map_of_mem hr
    have hin' : r.entry ∈ ws := (hws _).mpr ⟨r, hr, ha r hr rfl, rfl⟩
    calc resolveAccountIdForWallet { s.config.world with wallets := ws } pick r.entry.walletAddress.address
        = some r.accountId := resolve_of_mem hin' (fun x hx => hunique x (hsub x hx))
      _ = resolveAccountIdForWallet s.config.world pick r.entry.walletAddress.address :=
          (resolve_of_mem hin hunique).symm
  · have hnone : ∀ x ∈ s.config.world.wallets, x.walletAddress.address ≠ a := by
      intro x hx haddress
      rw [hwallets] at hx
      obtain ⟨r, hr, rfl⟩ := List.mem_map.mp hx
      exact hrow ⟨r, hr, haddress⟩
    rw [resolve_of_none hnone, resolve_of_none fun x hx => hnone x (hsub x hx)]

theorem Office.Shadows.setRows (h : s.Shadows chain w₀)
    (hrows : ∀ x, (∃ r ∈ rows, r.registeredAt.isSome ∧ r.entry = x) ↔
      ∃ r ∈ s.registrar.rows, r.registeredAt.isSome ∧ r.entry = x) : (s.setRows rows).Shadows chain w₀ := by
  obtain ⟨ws, hws, hreach⟩ := h.confirmed
  exact ⟨rfl, ws, fun x => (hws x).trans (hrows x).symm, hreach⟩

theorem Registrar.Sound.confirmed_apart {g : Registrar} (hsound : g.Sound) {r' : Registration} (hr : r ∈ g.rows)
    (hpending : r.registeredAt = none) (hr' : r' ∈ g.rows) (hsome : r'.registeredAt.isSome) :
    ¬ (r'.accountId = r.accountId ∨ r'.walletAddress = r.walletAddress) := by
  intro hclash
  have hsame : r' = r := by
    rcases hclash with hid | htext
    · exact hsound.accounts.eq_of_key hr' hr hid
    · exact hsound.addresses r' hr' r hr (congrArg WalletText.address htext)
  rw [hsame, hpending] at hsome
  simp at hsome

theorem Office.Shadows.confirm (h : s.Shadows chain w₀) (hsound : s.registrar.Sound) {f : Registration → Registration}
    (hf : Confirms f) (accountId : AccountId) :
    (s.setRows (Table.update Registration.accountId s.registrar.rows accountId f)).Shadows chain w₀ := by
  by_cases hnew : ∃ r ∈ s.registrar.rows, r.accountId = accountId ∧ r.registeredAt = none
  · obtain ⟨r, hr, hid, hpending⟩ := hnew
    obtain ⟨ws, hws, hreach⟩ := h.confirmed
    have hfresh : ∀ x ∈ ws, ¬ (x.accountId = r.accountId ∨ x.walletAddress = r.walletAddress) := by
      intro x hx
      obtain ⟨r', hr', hsome, rfl⟩ := (hws x).mp hx
      exact hsound.confirmed_apart hr hpending hr' hsome
    refine ⟨rfl, ws ++ [r.entry], fun x => ?_,
      hreach.tail (.env (.registerWallet r.accountId r.walletAddress)) trivial ?_⟩
    · rw [List.mem_append, List.mem_singleton, hws, Office.setRows, hf.entries]
      refine or_congr_right ⟨?_, ?_⟩
      · rintro rfl
        exact ⟨r, hr, hid, rfl⟩
      · rintro ⟨r', hr', hid', rfl⟩
        rw [hsound.accounts.eq_of_key hr' hr (hid'.trans hid.symm)]
    · have hany : ws.any (fun x => x.accountId = r.accountId ∨ x.walletAddress = r.walletAddress) = false := by
        rw [List.any_eq_false]
        intro x hx
        simpa using hfresh x hx
      simp only [Semantics.step, system, env, withWallets, Office.setRows, hany]
      rfl
  · refine h.setRows fun x => (hf.entries s.registrar.rows accountId x).trans (or_iff_left_of_imp ?_)
    rintro ⟨r, hr, hid, rfl⟩
    refine ⟨r, hr, ?_, rfl⟩
    by_contra hnone
    exact hnew ⟨r, hr, hid, by simpa using hnone⟩

theorem Office.Shadows.settlement (h : s.Shadows chain w₀) (hsound : s.registrar.Sound)
    (ha : ∀ x text, a ≠ .env (.registerWallet x text)) (hproven : proven s (.settlement a))
    {c' : Config (World eurc) Failure Op Op.Out} (hstep : (system chain eurc).step s.config a = some c') :
    ({ s with config := c' } : Office eurc).Shadows chain w₀ := by
  obtain ⟨ws, hws, hreach⟩ := h.confirmed
  refine ⟨(step_keeps_wallets chain ha hstep).trans h.wallets, ws, hws, hreach.tail a ?_ ?_⟩
  · exact Guard.allows_free _ _ rfl
  · have hsame := step_wallets chain s.config ws ha fun t choice addr next hcall hthread => by
      subst hcall
      simp only [proven, hthread] at hproven
      exact resolve_confirmed hsound h.wallets hws choice.pick hproven
    rw [hsame, hstep]
    rfl

/-- What every proven run keeps. -/
structure Office.Sound (chain : Chain) (w₀ : World eurc) (s : Office eurc) : Prop where
  registrar : s.registrar.Sound
  shadows : s.Shadows chain w₀

theorem Office.Sound.request (h : s.Sound chain w₀) (hproven : proven s (.registerWallet input)) :
    (s.setRows (registerWallet input s.registrar.rows).2).Sound chain w₀ := by
  rcases registerWallet_cases with heq | ⟨heq, hid, htext⟩
  · rw [heq]
    exact ⟨h.registrar, h.shadows.setRows fun _ => Iff.rfl⟩
  · rw [heq]
    refine ⟨h.registrar.add hid (fun r hr haddress => htext r hr (hproven r hr haddress)) rfl, ?_⟩
    refine h.shadows.setRows fun x => ⟨?_, ?_⟩
    · rintro ⟨r, hr, hsome, rfl⟩
      rw [List.mem_append, List.mem_singleton] at hr
      rcases hr with hr | rfl
      · exact ⟨r, hr, hsome, rfl⟩
      · simp [newRegistration] at hsome
    · rintro ⟨r, hr, hsome, rfl⟩
      exact ⟨r, List.mem_append_left _ hr, hsome, rfl⟩

theorem observeLog_rows (pick : Nat) (log : WalletRegistered) (g : Registrar) :
    (observeLog pick log g).rows = g.rows := by
  unfold observeLog
  split
  · rfl
  · split <;> rfl

theorem settlement_step (hstep : s.step chain (.settlement a) = some s') :
    (∀ x text, a ≠ .env (.registerWallet x text)) ∧
      ∃ c', (system chain eurc).step s.config a = some c' ∧ { s with config := c' } = s' := by
  have ha : ∀ x text, a ≠ .env (.registerWallet x text) := by
    rintro x text rfl
    simp [Office.step] at hstep
  unfold Office.step at hstep
  split at hstep
  · rename_i heq
    exact absurd (Move.settlement.inj heq) (ha _ _)
  · rename_i heq
    cases heq
    exact ⟨ha, map_eq_some_iff.mp hstep⟩
  all_goals rename_i heq; cases heq

/-- Every proven move keeps the register and its shadow in line. -/
theorem Office.Sound.step (h : s.Sound chain w₀) (m : Move eurc) (hproven : proven s m)
    (hstep : s.step chain m = some s') : s'.Sound chain w₀ := by
  cases m with
  | settlement =>
    obtain ⟨ha, c', hc', rfl⟩ := settlement_step hstep
    exact ⟨h.registrar, h.shadows.settlement h.registrar ha hproven hc'⟩
  | registerWallet =>
    cases hstep
    exact h.request hproven
  | register =>
    cases hstep
    exact ⟨h.registrar.log _, h.shadows.wallets, h.shadows.confirmed⟩
  | observe pick =>
    simp only [Office.step, ite_none_right_eq_some, some.injEq] at hstep
    obtain ⟨hlog, rfl⟩ := hstep
    refine ⟨h.registrar.observe pick hlog, ?_, ?_⟩
    · rw [observeLog_rows]
      exact h.shadows.wallets
    · rw [observeLog_rows]
      exact h.shadows.confirmed
  | confirm accountId registeredAt =>
    simp only [Office.step, ite_none_right_eq_some, some.injEq] at hstep
    obtain ⟨hmatched, rfl⟩ := hstep
    have hf := confirmWalletRegistration_confirms registeredAt
    exact ⟨h.registrar.confirm hf (h.registrar.matched_backed hmatched), h.shadows.confirm h.registrar hf accountId⟩
  | reconcile head accountId =>
    cases hstep
    rcases reconcile_cases head with
      heq | ⟨f, wallet, hf, hmem, hid, hback, heq⟩
    · rw [heq]
      exact ⟨h.registrar, h.shadows.setRows fun _ => Iff.rfl⟩
    · rw [heq]
      refine ⟨h.registrar.confirm hf fun r hr hr' => ?_, h.shadows.confirm h.registrar hf accountId⟩
      rw [h.registrar.accounts.eq_of_key hr hmem (hr'.trans hid.symm)]
      exact hback

theorem opened_sound (h₀ : Genesis chain w₀) : (opened w₀).Sound chain w₀ := by
  refine ⟨⟨List.nodup_nil, ?_, ?_, ?_⟩, h₀.wallets, [], ?_, ?_⟩
  · simp [opened]
  · simp [opened]
  · simp [opened]
  · simp [opened]
  · have hidle : withWallets [] (idle w₀) = (idle w₀ : Config (World eurc) Failure Op Op.Out) := by
      simp only [withWallets, idle, ← h₀.wallets]
    exact hidle ▸ .refl

/-- Register and shadow are in line after every run of proven moves. -/
theorem Office.Reachable.sound (h₀ : Genesis chain w₀) (h : Office.Reachable chain proven (opened w₀) s) :
    s.Sound chain w₀ := by
  induction h with
  | refl => exact opened_sound h₀
  | tail m _ hproven hstep ih => exact ih.step m hproven hstep

/-- Rows of different accounts have different addresses, and a position
recorded by the escrow job belongs to an account whose wallet registered
itself with that account's commitment. -/
theorem position_proven (chain : Chain) (w₀ : World eurc) (h₀ : Genesis chain w₀) (s : Office eurc)
    (h : Office.Reachable chain proven (opened w₀) s) :
    (∀ r ∈ s.registrar.rows, ∀ r' ∈ s.registrar.rows, r.accountId ≠ r'.accountId →
      r.walletAddress.address ≠ r'.walletAddress.address) ∧
    ∀ p ∈ s.config.world.positions, p.escrowMintIntentId.isSome →
      ∃ r ∈ s.registrar.rows, p.accountId = r.accountId ∧ p.holderWalletAddress = some r.walletAddress.address ∧
        r.registeredAt.isSome ∧ ∃ l ∈ s.registrar.logs, l.wallet = r.walletAddress.address ∧
          l.commitment = r.registrationCommitment := by
  have hsound := h.sound h₀
  constructor
  · intro r hr r' hr' hne haddress
    exact hne (congrArg Registration.accountId (hsound.registrar.addresses r hr r' hr' haddress))
  · intro p hp hsome
    obtain ⟨i, hi⟩ := isSome_iff_exists.mp hsome
    obtain ⟨ws, hws, hreach⟩ := hsound.shadows.confirmed
    have hL : Ledger chain (withWallets ws s.config).world := (secure_of_genesis h₀ (reachable_free 0 hreach)).1.1
    obtain ⟨⟨_, haccount⟩, row, hrow, _⟩ := hL.referenced p hp i hi
    obtain ⟨x, hx, hid, haddress⟩ := (hL.rows i row hrow).registered
    obtain ⟨r, hr, hregistered, rfl⟩ := (hws x).mp hx
    refine ⟨r, hr, haccount.trans hid.symm, ?_, hregistered, hsound.registrar.registered r hr hregistered⟩
    rw [(hL.written p hp i row hi hrow).holder, ← haddress]
    rfl

instance (s : Office eurc) (m : Move eurc) : Decidable (proven s m) := by
  unfold proven
  split
  · infer_instance
  · split <;> infer_instance
  · infer_instance

/-- The campaign of `funded`, without the registration. -/
def fundedMoves : List (Move plainToken) :=
  funded.filterMap fun
    | .env (.registerWallet ..) => none
    | a => some (.settlement a)

/-- The wallet registers itself on the chain; the watcher sees the log and confirms account 11. -/
def confirmedMoves : List (Move plainToken) := [
  .registerWallet ⟨11, ⟨3, 0⟩, 42, 0⟩,
  .register ⟨3, 5⟩ 42 0 1,
  .observe 0 ⟨3, 42, 5, 0, 1⟩,
  .confirm 11 5]

def mintMoves : List (Move plainToken) :=
  (.spawn 0 .finalizeIpoEscrowCampaigns :: calls 0 15 ++ .env (.mine 3 11 true) :: calls 0 3).map .settlement

/-- Some position recorded by the job, with its account. -/
def recordedFor (accountId : AccountId) (s : Office plainToken) : Bool :=
  s.config.world.positions.any fun p => p.escrowMintIntentId.isSome ∧ p.accountId = accountId

theorem position_proven_confirmed : Genesis sampleChain sampleGenesis ∧ ∃ s,
    Office.Reachable sampleChain proven (opened sampleGenesis) s ∧
    ∃ p ∈ s.config.world.positions, p.escrowMintIntentId.isSome ∧ p.accountId = 11 ∧
      ∃ r ∈ s.registrar.rows, p.accountId = r.accountId ∧ p.holderWalletAddress = some r.walletAddress.address ∧
        r.registeredAt.isSome ∧ ∃ l ∈ s.registrar.logs, l.wallet = r.walletAddress.address ∧
          l.commitment = r.registrationCommitment := by
  obtain ⟨s, hs, hlook⟩ := Office.exists_of_play sampleChain
    (fun s m => decide (proven s m)) (fun _ _ => of_decide_eq_true)
    (confirmedMoves ++ fundedMoves ++ mintMoves) (opened sampleGenesis) (recordedFor 11) rfl
  obtain ⟨p, hp, hlook⟩ := List.any_eq_true.mp hlook
  obtain ⟨hsome, haccount⟩ := of_decide_eq_true hlook
  exact ⟨sampleGenesis_genesis, s, hs, p, hp, hsome, haccount,
    (position_proven sampleChain sampleGenesis sampleGenesis_genesis s hs).2 p hp hsome⟩

/-- Account 12 requests the investor's wallet in another spelling and never
confirms anything. The investor's own registration as account 11 is confirmed,
and the position goes to account 12. -/
theorem position_of_an_unproven_account : Genesis sampleChain sampleGenesis ∧ ∃ s,
    Office.Reachable sampleChain (fun _ _ => True) (opened sampleGenesis) s ∧
    (∃ p ∈ s.config.world.positions, p.escrowMintIntentId.isSome ∧ p.accountId = 12) ∧
    s.registrar.rows.map (fun r => (r.accountId, r.walletAddress.address, r.registeredAt)) =
      [(12, 3, none), (11, 3, some 5)] := by
  obtain ⟨s, hs, hlook⟩ := Office.exists_of_play sampleChain (fun _ _ => true) (fun _ _ _ => trivial)
    (.registerWallet ⟨12, ⟨3, 1⟩, 77, 0⟩ :: confirmedMoves ++ fundedMoves ++ mintMoves) (opened sampleGenesis)
    (fun s => recordedFor 12 s && s.registrar.rows.map
      (fun r => (r.accountId, r.walletAddress.address, r.registeredAt)) = [(12, 3, none), (11, 3, some 5)]) rfl
  obtain ⟨hrecorded, hrows⟩ := (Bool.and_eq_true _ _).mp hlook
  obtain ⟨p, hp, hlook⟩ := List.any_eq_true.mp hrecorded
  exact ⟨sampleGenesis_genesis, s, hs, ⟨p, hp, of_decide_eq_true hlook⟩, of_decide_eq_true hrows⟩

end Proven

end Settlement
