import VistaBlox.Currency
import VistaBlox.Interleaving
import VistaBlox.IpoEscrowDisposition
import VistaBlox.PropertySupply

/-!
# The settlement world

What the escrow finalization job reads and writes: tables, the two contracts, transactions
sent to the chain, the clock. Each operation is atomic and may throw, with or without
effect.

History: a transaction remembers which attempt of which intent sent it, and `attempts` lists
every attempt claimed, when it says it began, and by which thread.
-/
namespace Settlement

open Evm Interleaving
open Currency (Decimal costBasisToUnitCount)

abbrev PivId := Nat
abbrev AccountId := Nat
abbrev TxHash := Nat

/-- An intent's row is never deleted and `(piv_id, account_id)` is unique, so
the pair serves as the row's identifier. -/
structure IntentId where
  pivId : PivId
  accountId : AccountId
  deriving DecidableEq

inductive EscrowMintIntentStatus where
  | sending | mintSent | recorded
  deriving DecidableEq, Repr

structure EscrowMintIntent where
  id : IntentId
  walletAddress : Address
  tokenContractAddress : Address
  tokenId : TokenId
  mintAmount : Nat
  status : EscrowMintIntentStatus
  mintTxHash : Option TxHash
  attempt : Nat
  attemptedAt : Nat
  searchFromBlock : Option Nat
  recordedAt : Option Nat
  deriving DecidableEq

/-- What a `NUMERIC(precision, scale)` column stores, in steps of `10 ^ -scale`:
rounded half up, and refused if it has too many digits. -/
def numericColumn (precision scale : Nat) (d : Decimal) : Option Nat :=
  let stored :=
    if d.scale ≤ scale then d.units * 10 ^ (scale - d.scale)
    else (d.units + 10 ^ (d.scale - scale) / 2) / 10 ^ (d.scale - scale)
  if stored < 10 ^ precision then some stored else none

structure Position where
  id : Nat
  escrowMintIntentId : Option IntentId
  reservationId : Option Nat
  pivId : PivId
  accountId : AccountId
  unitCount : Nat
  costBasisEur : Nat
  holderWalletAddress : Option Address
  activatedAt : Option Nat
  deriving DecidableEq

inductive ChainEventType where
  | mint
  deriving DecidableEq, Repr

structure ChainSettlementEvent where
  positionId : Nat
  eventType : ChainEventType
  tokenContractAddress : Address
  tokenId : TokenId
  chainTxHash : TxHash
  deriving DecidableEq

/-- An address as text: the same twenty bytes can be spelled in many ways. -/
structure WalletText where
  address : Address
  spelling : Nat
  deriving DecidableEq

structure WalletRegistration where
  accountId : AccountId
  walletAddress : WalletText
  deriving DecidableEq

structure Piv where
  id : PivId
  tokenId : Option TokenId
  ipoEndAt : Option Nat
  deriving DecidableEq

inductive Payload where
  | escrow : IpoEscrow.Call → Payload
  | property : PropertyToken.Call → Payload
  deriving DecidableEq

inductive TxStatus where
  | pending | success | reverted | dropped
  deriving DecidableEq, Repr

/-- A transaction; its hash is its place in the list of all transactions. -/
structure Tx where
  sender : Address
  payload : Payload
  attempt : Option (IntentId × Nat)
  status : TxStatus
  block : Nat
  logs : List PropertyToken.Event
  deriving DecidableEq

structure Attempt where
  intentId : IntentId
  number : Nat
  attemptedAt : Nat
  claimant : Nat
  deriving DecidableEq

structure Chain where
  operator : Address
  propertyContractAddress : Address
  ipoEscrowContractAddress : Address
  inFlightGraceMs : Nat

structure World (eurc : Erc20) where
  now : Nat
  block : Nat
  pivs : List Piv
  wallets : List WalletRegistration
  intents : IntentId → Option EscrowMintIntent
  positions : List Position
  chainEvents : List ChainSettlementEvent
  escrow : IpoEscrow.State eurc
  property : PropertyToken.State
  txs : List Tx
  attempts : List Attempt

structure MintTarget where
  pivId : PivId
  accountId : AccountId
  tokenId : TokenId
  walletAddress : Address
  mintAmount : Nat
  tokenContractAddress : Address
  deriving DecidableEq

def MintTarget.intentId (target : MintTarget) : IntentId := ⟨target.pivId, target.accountId⟩

inductive Failure where
  | fault (detail : Nat)
  | transactionReceiptNotFound
  | uniqueViolation
  | checkViolation
  | numericOverflow
  | finalizeReverted (hash : TxHash)
  | withdrawRaisedReverted (hash : TxHash)
  | noRegisteredAccount (walletAddress : Address) (tokenId : TokenId)
  | noContribution (walletAddress : Address) (tokenId : TokenId)
  | recordedWithoutPosition (intentId : IntentId) (target : MintTarget)
  | sentWithoutHash (intentId : IntentId)
  | noReceiptYet (hash : TxHash) (target : MintTarget)
  | unexpectedBalance (target : MintTarget) (balance : Nat) (reverted : Option TxHash)
  | inFlight (target : MintTarget) (attemptedAt retryAt : Nat)
  | mintNotFound (target : MintTarget) (balance : Nat)
  | claimedByAnotherRun (target : MintTarget)
  | hashNotRecorded (hash : TxHash) (target : MintTarget) (cause : Failure)
  | replaced (hash replacement : TxHash) (target : MintTarget)
  | mintReverted (walletAddress : Address) (hash : TxHash)
  | authorizeHolderReverted (walletAddress : Address) (hash : TxHash)
  | intentMismatch (intent : EscrowMintIntent) (target : MintTarget)
  | notSending (intentId : IntentId) (attempt : Nat) (hash : TxHash)
  | notMintSent (intentId : IntentId) (hash : TxHash)
  deriving DecidableEq

structure CreateEscrowMintIntentInput where
  id : IntentId
  walletAddress : Address
  tokenContractAddress : Address
  tokenId : TokenId
  mintAmount : Nat
  attemptedAt : Nat
  searchFromBlock : Option Nat

structure RecordEscrowMintedPositionInput where
  escrowMintIntentId : IntentId
  pivId : PivId
  accountId : AccountId
  walletAddress : Address
  unitCount : Decimal
  costBasisEur : Decimal
  activatedAt : Nat
  tokenContractAddress : Address
  tokenId : TokenId
  chainTxHash : TxHash

section Repository

variable {eurc : Erc20}

def findPivsWithPassedIpoDeadline (w : World eurc) (now : Nat) : List (PivId × TokenId) :=
  w.pivs.filterMap fun p =>
    match p.tokenId, p.ipoEndAt with
    | some tokenId, some endAt => if endAt ≤ now then some (p.id, tokenId) else none
    | _, _ => none

/-- `findFirst` without an order: any matching row may be the first. -/
def resolveAccountIdForWallet (w : World eurc) (pick : Nat) (walletAddress : Address) : Option AccountId :=
  let rows := w.wallets.filter fun r => r.walletAddress.address = walletAddress
  rows[pick % rows.length]?.map WalletRegistration.accountId

def hasPosition (w : World eurc) (pivId : PivId) (accountId : AccountId) : Bool :=
  w.positions.any fun p => p.pivId = pivId ∧ p.accountId = accountId

def World.putIntent (w : World eurc) (row : EscrowMintIntent) : World eurc :=
  { w with intents := Function.update w.intents row.id (some row) }

def newIntent (input : CreateEscrowMintIntentInput) : EscrowMintIntent where
  id := input.id
  walletAddress := input.walletAddress
  tokenContractAddress := input.tokenContractAddress
  tokenId := input.tokenId
  mintAmount := input.mintAmount
  status := .sending
  mintTxHash := none
  attempt := 1
  attemptedAt := input.attemptedAt
  searchFromBlock := input.searchFromBlock
  recordedAt := none

def createEscrowMintIntent (t : Nat) (input : CreateEscrowMintIntentInput) (w : World eurc) :
    Except Failure (EscrowMintIntent × Bool) × World eurc :=
  if input.mintAmount = 0 then (.error .checkViolation, w)
  else match w.intents input.id with
    | some row => (.ok (row, false), w)
    | none => (.ok (newIntent input, true),
        { w.putIntent (newIntent input) with
          attempts := w.attempts ++ [⟨input.id, 1, input.attemptedAt, t⟩] })

def restartEscrowMintAttempt (t : Nat) (intentId : IntentId) (expectedAttempt attemptedAt : Nat)
    (w : World eurc) : Except Failure Bool × World eurc :=
  match w.intents intentId with
  | some row =>
    if row.attempt = expectedAttempt ∧ (row.status = .sending ∨ row.status = .mintSent) then
      (.ok true,
        { w.putIntent { row with
            status := .sending
            mintTxHash := none
            attempt := row.attempt + 1
            attemptedAt := attemptedAt } with
          attempts := w.attempts ++ [⟨intentId, row.attempt + 1, attemptedAt, t⟩] })
    else (.ok false, w)
  | none => (.ok false, w)

def recordEscrowMintSent (intentId : IntentId) (attempt : Nat) (txHash : TxHash) (w : World eurc) :
    Except Failure Unit × World eurc :=
  match w.intents intentId with
  | some row =>
    if row.attempt = attempt ∧ row.status = .sending then
      (.ok (), w.putIntent { row with status := .mintSent, mintTxHash := some txHash })
    else if row.attempt = attempt ∧ row.mintTxHash = some txHash then (.ok (), w)
    else (.error (.notSending intentId attempt txHash), w)
  | none => (.error (.notSending intentId attempt txHash), w)

def World.positionOf (w : World eurc) (intentId : IntentId) : Option Position :=
  w.positions.find? fun p => p.escrowMintIntentId = some intentId

def recordEscrowMintedPosition (input : RecordEscrowMintedPositionInput) (w : World eurc) :
    Except Failure Nat × World eurc :=
  let replay : Except Failure Nat × World eurc :=
    match w.positionOf input.escrowMintIntentId with
    | some existing => (.ok existing.id, w)
    | none => (.error (.notMintSent input.escrowMintIntentId input.chainTxHash), w)
  match w.intents input.escrowMintIntentId with
  | some row =>
    if row.status = .mintSent ∧ row.mintTxHash = some input.chainTxHash then
      if (w.positionOf input.escrowMintIntentId).isSome then (.error .uniqueViolation, w)
      else match numericColumn 20 6 input.unitCount, numericColumn 15 2 input.costBasisEur with
        | some unitCount, some costBasisEur =>
          (.ok w.positions.length,
            { w.putIntent { row with status := .recorded, recordedAt := some input.activatedAt } with
              positions := w.positions ++ [{
                id := w.positions.length
                escrowMintIntentId := some input.escrowMintIntentId
                reservationId := none
                pivId := input.pivId
                accountId := input.accountId
                unitCount := unitCount
                costBasisEur := costBasisEur
                holderWalletAddress := some input.walletAddress
                activatedAt := some input.activatedAt }]
              chainEvents := w.chainEvents ++
                [⟨w.positions.length, .mint, input.tokenContractAddress, input.tokenId, input.chainTxHash⟩] })
        | _, _ => (.error .numericOverflow, w)
    else replay
  | none => replay

end Repository

section ChainAccess

variable {eurc : Erc20}

/-- The mints a transaction logged: token identifier and value of every
`TransferSingle` from the zero address to a wallet. -/
def Tx.mintLogs (tx : Tx) (wallet : Address) : List (TokenId × Nat) :=
  tx.logs.filterMap fun
    | .transferSingle _ src dst id value => if src = 0 ∧ dst = wallet then some (id, value) else none
    | _ => none

def mintEvents (w : World eurc) (wallet : Address) (fromBlock : Nat) : List ((TokenId × Nat) × TxHash) :=
  w.txs.zipIdx.flatMap fun (tx, hash) =>
    if fromBlock ≤ tx.block then (tx.mintLogs wallet).map (·, hash) else []

/-- The receiver's answer to a mint is known only when the mint is mined. -/
def answered (accepted : Bool) : PropertyToken.Call → PropertyToken.Call
  | .mint dst id n _ => .mint dst id n accepted
  | c => c

def World.setTx (w : World eurc) (hash : TxHash) (tx : Tx) : World eurc :=
  { w with txs := w.txs.set hash tx, block := w.block + 1 }

/-- A pending transaction is executed in the next block. -/
def World.mine (chain : Chain) (w : World eurc) (hash : TxHash) (tx : Tx) (timestamp : Nat) (accepted : Bool) :
    World eurc :=
  let m : Msg := ⟨tx.sender, timestamp⟩
  let reverted := w.setTx hash { tx with status := .reverted, block := w.block + 1 }
  match tx.payload with
  | .escrow c =>
    match IpoEscrow.exec chain.ipoEscrowContractAddress w.escrow m c with
    | .ok s => { w.setTx hash { tx with status := .success, block := w.block + 1 } with escrow := s }
    | .error _ => reverted
  | .property c =>
    match PropertyToken.exec w.property m (answered accepted c) with
    | .ok s =>
      { w.setTx hash { tx with
          status := .success
          block := w.block + 1
          logs := s.log.drop w.property.log.length } with property := s }
    | .error _ => reverted

/-- What happens besides the job's own calls. -/
inductive Event (eurc : Erc20) where
  | tick (ms : Nat)
  | mine (hash : TxHash) (timestamp : Nat) (accepted : Bool)
  | drop (hash : TxHash)
  | escrow (e : IpoEscrow.Step eurc)
  | property (m : Msg) (c : PropertyToken.Call)
  | registerWallet (accountId : AccountId) (walletAddress : WalletText)
  | commitOfferingFinalization (reservationId : Nat) (pivId : PivId) (accountId : AccountId) (amountEur : Nat)
  | openOffering (piv : Piv)
  | moveIpoEnd (pivId : PivId) (ipoEndAt : Option Nat)

def World.pendingTx (w : World eurc) (hash : TxHash) : Option Tx :=
  w.txs[hash]?.filter fun tx => tx.status = .pending

/-- A transaction of somebody else to the property token, mined at once. -/
def World.foreignCall (w : World eurc) (m : Msg) (c : PropertyToken.Call) : World eurc :=
  match PropertyToken.exec w.property m c with
  | .ok s =>
    { w with
      property := s
      block := w.block + 1
      txs := w.txs ++ [⟨m.sender, .property c, none, .success, w.block + 1,
        s.log.drop w.property.log.length⟩] }
  | .error _ =>
    { w with
      block := w.block + 1
      txs := w.txs ++ [⟨m.sender, .property c, none, .reverted, w.block + 1, []⟩] }

def env (chain : Chain) : Event eurc → World eurc → Option (World eurc)
  | .tick ms, w => some { w with now := w.now + ms }
  | .mine hash timestamp accepted, w => (w.pendingTx hash).map fun tx => w.mine chain hash tx timestamp accepted
  | .drop hash, w => (w.pendingTx hash).map fun tx =>
      { w with txs := w.txs.set hash { tx with status := .dropped } }
  | .escrow e, w => some { w with escrow := IpoEscrow.step chain.ipoEscrowContractAddress w.escrow e }
  | .property m c, w => some (w.foreignCall m c)
  | .registerWallet accountId text, w =>
    if w.wallets.any (fun r => r.accountId = accountId ∨ r.walletAddress = text) then none
    else some { w with wallets := w.wallets ++ [⟨accountId, text⟩] }
  | .commitOfferingFinalization reservationId pivId accountId amountEur, w =>
    some { w with
      positions := w.positions ++ [{
        id := w.positions.length
        escrowMintIntentId := none
        reservationId := some reservationId
        pivId := pivId
        accountId := accountId
        unitCount := amountEur * 10 ^ 4
        costBasisEur := amountEur
        holderWalletAddress := none
        activatedAt := none }] }
  | .openOffering piv, w =>
    if w.pivs.any (fun p => p.id = piv.id ∨ (p.tokenId.isSome ∧ p.tokenId = piv.tokenId)) then none
    else some { w with pivs := w.pivs ++ [piv] }
  | .moveIpoEnd pivId ipoEndAt, w =>
    some { w with pivs := w.pivs.map fun p => if p.id = pivId then { p with ipoEndAt := ipoEndAt } else p }

end ChainAccess

/-- What a clock reading is used for. -/
inductive ClockUse where
  | ipoDeadline
  | grace (walletAddress : Address) (tokenId : TokenId) (retryAt : Nat)
  | attempt
  | activation
  deriving DecidableEq

inductive Query where
  | findPivsWithPassedIpoDeadline (now : Nat)
  | resolveAccountIdForWallet (walletAddress : Address)
  | hasPosition (pivId : PivId) (accountId : AccountId)
  | findEscrowMintIntent (id : IntentId)
  | campaignOf (tokenId : TokenId)
  | contributorsOf (tokenId : TokenId)
  | contributionOf (tokenId : TokenId) (walletAddress : Address)
  | balanceOf (walletAddress : Address) (tokenId : TokenId)
  | isHolderAuthorized (walletAddress : Address) (tokenId : TokenId)
  | getBlockNumber
  | mintEvents (walletAddress : Address) (fromBlock : Nat)
  | getTransactionReceipt (hash : TxHash)
  | clock (use : ClockUse)

structure Receipt where
  transactionHash : TxHash
  success : Bool
  deriving DecidableEq

@[reducible] def Query.Out : Query → Type
  | .findPivsWithPassedIpoDeadline _ => List (PivId × TokenId)
  | .resolveAccountIdForWallet _ => Option AccountId
  | .hasPosition _ _ => Bool
  | .findEscrowMintIntent _ => Option EscrowMintIntent
  | .campaignOf _ => IpoEscrow.Campaign
  | .contributorsOf _ => List Address
  | .contributionOf _ _ => Nat
  | .balanceOf _ _ => Nat
  | .isHolderAuthorized _ _ => Bool
  | .getBlockNumber => Nat
  | .mintEvents _ _ => List ((TokenId × Nat) × TxHash)
  | .getTransactionReceipt _ => Receipt
  | .clock _ => Nat

inductive Op where
  | read (q : Query)
  | createEscrowMintIntent (input : CreateEscrowMintIntentInput)
  | restartEscrowMintAttempt (intentId : IntentId) (expectedAttempt attemptedAt : Nat)
  | recordEscrowMintSent (intentId : IntentId) (attempt : Nat) (txHash : TxHash)
  | recordEscrowMintedPosition (input : RecordEscrowMintedPositionInput)
  | write (payload : Payload) (attempt : Option (IntentId × Nat))
  | waitForTransactionReceipt (hash : TxHash)

@[reducible] def Op.Out : Op → Type
  | .read q => q.Out
  | .createEscrowMintIntent _ => EscrowMintIntent × Bool
  | .restartEscrowMintAttempt .. => Bool
  | .recordEscrowMintSent .. => Unit
  | .recordEscrowMintedPosition _ => Nat
  | .write .. => TxHash
  | .waitForTransactionReceipt _ => Receipt

/-- `fault` makes the call throw, after it took effect or without effect. -/
structure Choice where
  fault : Option Bool
  pick : Nat
  status : Bool
  deriving DecidableEq

section Operations

variable {eurc : Erc20} (chain : Chain)

/-- The canonical chain's receipt of a mined transaction. -/
def receiptOf (w : World eurc) (hash : TxHash) : Option Receipt :=
  w.txs[hash]?.bind fun tx =>
    match tx.status with
    | .success => some ⟨hash, true⟩
    | .reverted => some ⟨hash, false⟩
    | .pending | .dropped => none

def Query.answer (pick : Nat) (w : World eurc) : (q : Query) → Except Failure q.Out
  | .findPivsWithPassedIpoDeadline now => .ok (Settlement.findPivsWithPassedIpoDeadline w now)
  | .resolveAccountIdForWallet a => .ok (Settlement.resolveAccountIdForWallet w pick a)
  | .hasPosition pivId accountId => .ok (Settlement.hasPosition w pivId accountId)
  | .findEscrowMintIntent id => .ok (w.intents id)
  | .campaignOf t => .ok (IpoEscrow.campaignOf w.escrow t)
  | .contributorsOf t => .ok (IpoEscrow.contributorsOf w.escrow t)
  | .contributionOf t a => .ok (IpoEscrow.contributionOf w.escrow t a)
  | .balanceOf a t => .ok (PropertyToken.balanceOf w.property a t)
  | .isHolderAuthorized a t => .ok (PropertyToken.isHolderAuthorized w.property a t)
  | .getBlockNumber => .ok w.block
  | .mintEvents a fromBlock => .ok (Settlement.mintEvents w a fromBlock)
  | .getTransactionReceipt h => match receiptOf w h with
    | some receipt => .ok receipt
    | none => .error .transactionReceiptNotFound
  | .clock _ => .ok w.now

/-- The wait ends with the transaction's own receipt, or with the receipt of a
transaction that took its place. -/
def waitForTransactionReceipt (pick : Nat) (status : Bool) (hash : TxHash) (w : World eurc) : Option Receipt :=
  match receiptOf w hash with
  | some receipt => some receipt
  | none => w.txs[hash]?.bind fun tx =>
      if tx.status = .dropped ∧ pick ≠ hash then some ⟨pick, status⟩ else none

/-- One operation without a fault; `none` while it has to wait. -/
def Op.run (t : Nat) (c : Choice) (w : World eurc) : (op : Op) → Option (Except Failure op.Out × World eurc)
  | .read q => some (q.answer c.pick w, w)
  | .createEscrowMintIntent input => some (Settlement.createEscrowMintIntent t input w)
  | .restartEscrowMintAttempt i k attemptedAt => some (Settlement.restartEscrowMintAttempt t i k attemptedAt w)
  | .recordEscrowMintSent i k h => some (Settlement.recordEscrowMintSent i k h w)
  | .recordEscrowMintedPosition input => some (Settlement.recordEscrowMintedPosition input w)
  | .write payload attempt => some (.ok w.txs.length,
      { w with txs := w.txs ++ [⟨chain.operator, payload, attempt, .pending, 0, []⟩] })
  | .waitForTransactionReceipt h =>
    (Settlement.waitForTransactionReceipt c.pick c.status h w).map fun receipt => (.ok receipt, w)

def exec (t : Nat) (op : Op) (c : Choice) (w : World eurc) : Option (Except Failure op.Out × World eurc) :=
  match c.fault with
  | none => op.run chain t c w
  | some applied => some (.error (.fault c.pick),
      if applied then ((op.run chain t c w).map Prod.snd).getD w else w)

end Operations

end Settlement
