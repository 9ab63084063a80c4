import VistaBlox.Settlement

/-!
# The escrow finalization job

`FinalizeIpoEscrowCampaignsService`, method by method. A method that throws in the source
throws here; only what the job's own `catch` keeps is passed on as a value.
-/
namespace Settlement

open Currency (Decimal costBasisToUnitCount)
open Evm Interleaving

abbrev Run := Prog Failure Op Op.Out

def invoke (op : Op) : Run op.Out := Prog.perform op

def read (q : Query) : Run q.Out := invoke (.read q)

/-- `try { … } catch (error)`, with the error as a value. -/
def attempt (p : Run α) : Run (Except Failure α) :=
  Prog.catchWith (p.bind fun a => .ret (.ok a)) (fun e => .ret (.error e))

structure FinalizeIpoEscrowCampaignsSummary where
  pivsChecked : Nat
  campaignsFinalized : Nat
  campaignsSuccessful : Nat
  campaignsFailed : Nat
  positionsMinted : Nat
  mintsReconciled : Nat
  errors : List (PivId × TokenId × Failure)

structure ConfirmedMint where
  intentId : IntentId
  txHash : TxHash
  sentThisRun : Bool

inductive MintOutcome where
  | skipped | minted | reconciled
  deriving DecidableEq, Repr

section Methods

variable (chain : Chain)

def findReceipt (hash : TxHash) : Run (Option Receipt) :=
  Prog.catchWith ((read (.getTransactionReceipt hash)).bind fun receipt => .ret (some receipt))
    (fun e => if e = .transactionReceiptNotFound then .ret none else .fail e)

/-- The only mint of exactly this amount in the token's logs, if there is exactly one. -/
def findMintTransactionHash (target : MintTarget) (fromBlock : Option Nat) : Run (Option TxHash) := do
  let logs ← read (.mintEvents target.walletAddress (fromBlock.getD 0))
  match logs.filter (fun log => log.1 = (target.tokenId, target.mintAmount)) with
  | [log] => return some log.2
  | _ => return none

def assertIntentMatchesTarget (intent : EscrowMintIntent) (target : MintTarget) : Run Unit :=
  if intent.walletAddress = target.walletAddress ∧
      intent.tokenContractAddress = target.tokenContractAddress ∧
      intent.tokenId = target.tokenId ∧ intent.mintAmount = target.mintAmount then .ret ()
  else .fail (.intentMismatch intent target)

def ensureHolderAuthorized (target : MintTarget) : Run Unit := do
  let authorized ← read (.isHolderAuthorized target.walletAddress target.tokenId)
  if authorized then return ()
  else
    let hash ← invoke
      (.write (.property (.authorizeHolder target.walletAddress target.tokenId)) none)
    let receipt ← invoke (.waitForTransactionReceipt hash)
    if receipt.success then return () else .fail (.authorizeHolderReverted target.walletAddress hash)

def sendMint (target : MintTarget) (intentId : IntentId) (attempt : Nat) : Run ConfirmedMint := do
  let hash ← invoke
    (.write (.property (.mint target.walletAddress target.tokenId target.mintAmount true))
      (some (intentId, attempt)))
  let _ ← Prog.catchWith (invoke (.recordEscrowMintSent intentId attempt hash))
    (fun e => .fail (.hashNotRecorded hash target e))
  let receipt ← invoke (.waitForTransactionReceipt hash)
  if receipt.transactionHash ≠ hash then .fail (.replaced hash receipt.transactionHash target)
  else if receipt.success = false then .fail (.mintReverted target.walletAddress hash)
  else return ⟨intentId, hash, true⟩

def searchFromBlockMargin : Nat := 32

def intentInput (target : MintTarget) (attemptedAt : Nat) (searchFromBlock : Option Nat) :
    CreateEscrowMintIntentInput :=
  ⟨target.intentId, target.walletAddress, target.tokenContractAddress, target.tokenId, target.mintAmount,
    attemptedAt, searchFromBlock⟩

def sendFirstMint (target : MintTarget) : Run ConfirmedMint := do
  ensureHolderAuthorized target
  let head ← read .getBlockNumber
  let attemptedAt ← read (.clock .attempt)
  let created ← invoke (.createEscrowMintIntent (intentInput target attemptedAt
    (some (if searchFromBlockMargin < head then head - searchFromBlockMargin else 0))))
  if created.2 then sendMint target created.1.id created.1.attempt
  else .fail (.claimedByAnotherRun target)

def restartMint (target : MintTarget) (intent : EscrowMintIntent) : Run ConfirmedMint := do
  ensureHolderAuthorized target
  let attemptedAt ← read (.clock .attempt)
  let restarted ← invoke (.restartEscrowMintAttempt intent.id intent.attempt attemptedAt)
  if restarted then sendMint target intent.id (intent.attempt + 1)
  else .fail (.claimedByAnotherRun target)

/-- The intent an adopted mint is recorded on: the one read, or a new one. -/
def intentToAdopt (target : MintTarget) : Option EscrowMintIntent → Run EscrowMintIntent
  | some intent => .ret intent
  | none => do
    let attemptedAt ← read (.clock .attempt)
    let created ← invoke (.createEscrowMintIntent (intentInput target attemptedAt none))
    if created.2 then return created.1 else .fail (.claimedByAnotherRun target)

def adoptMintAlreadyOnChain (target : MintTarget) (balance : Nat) (intent : Option EscrowMintIntent) :
    Run ConfirmedMint := do
  if balance ≠ target.mintAmount then .fail (.unexpectedBalance target balance none)
  else
    let found ← findMintTransactionHash target (intent.bind EscrowMintIntent.searchFromBlock)
    match found with
    | none => .fail (.mintNotFound target balance)
    | some hash =>
      let current ← intentToAdopt target intent
      invoke (.recordEscrowMintSent current.id current.attempt hash)
      return ⟨current.id, hash, false⟩

def resolveInterruptedAttempt (target : MintTarget) (intent : EscrowMintIntent) (balance : Nat) :
    Run ConfirmedMint := do
  if balance ≠ 0 then adoptMintAlreadyOnChain target balance (some intent)
  else
    let retryAt := intent.attemptedAt + chain.inFlightGraceMs
    let now ← read (.clock (.grace target.walletAddress target.tokenId retryAt))
    if now < retryAt then .fail (.inFlight target intent.attemptedAt retryAt)
    else restartMint target intent

def resolveSentMint (target : MintTarget) (intent : EscrowMintIntent) (balance : Nat) : Run ConfirmedMint :=
  match intent.mintTxHash with
  | none => .fail (.sentWithoutHash intent.id)
  | some hash => do
    let receipt ← findReceipt hash
    match receipt with
    | none => .fail (.noReceiptYet hash target)
    | some receipt =>
      if receipt.success then return ⟨intent.id, hash, false⟩
      else if balance ≠ 0 then .fail (.unexpectedBalance target balance (some hash))
      else restartMint target intent

def resolveExistingIntent (target : MintTarget) (intent : EscrowMintIntent) (balance : Nat) :
    Run (Option ConfirmedMint) :=
  match intent.status with
  | .recorded => do
    let held ← read (.hasPosition target.pivId target.accountId)
    if held then return none else .fail (.recordedWithoutPosition intent.id target)
  | .mintSent => do return some (← resolveSentMint target intent balance)
  | .sending => do return some (← resolveInterruptedAttempt chain target intent balance)

def obtainConfirmedMint (target : MintTarget) : Run (Option ConfirmedMint) := do
  let intent ← read (.findEscrowMintIntent target.intentId)
  let balance ← read (.balanceOf target.walletAddress target.tokenId)
  match intent with
  | none =>
    if balance = 0 then return some (← sendFirstMint target)
    else return some (← adoptMintAlreadyOnChain target balance none)
  | some intent =>
    assertIntentMatchesTarget intent target
    resolveExistingIntent chain target intent balance

def recordMint (target : MintTarget) (mint : ConfirmedMint) : Run MintOutcome := do
  let activatedAt ← read (.clock .activation)
  -- what `fromEurcMicros` writes, by `Decimal.text_ofMicros`
  let costBasisEur := Decimal.ofMicros target.mintAmount
  let _ ← invoke (.recordEscrowMintedPosition {
    escrowMintIntentId := mint.intentId
    pivId := target.pivId
    accountId := target.accountId
    walletAddress := target.walletAddress
    unitCount := costBasisToUnitCount costBasisEur
    costBasisEur := costBasisEur
    activatedAt := activatedAt
    tokenContractAddress := target.tokenContractAddress
    tokenId := target.tokenId
    chainTxHash := mint.txHash })
  return if mint.sentThisRun then .minted else .reconciled

def mintTarget (pivId : PivId) (accountId : AccountId) (tokenId : TokenId) (walletAddress : Address)
    (mintAmount : Nat) : MintTarget :=
  ⟨pivId, accountId, tokenId, walletAddress, mintAmount, chain.propertyContractAddress⟩

/-- The part of `mintForContributor` after the account has been found. -/
def mintForAccount (pivId : PivId) (accountId : AccountId) (tokenId : TokenId) (walletAddress : Address) :
    Run MintOutcome := do
  let held ← read (.hasPosition pivId accountId)
  if held then return .skipped
  else
    let mintAmount ← read (.contributionOf tokenId walletAddress)
    if mintAmount = 0 then .fail (.noContribution walletAddress tokenId)
    else
      let mint ← obtainConfirmedMint chain (mintTarget chain pivId accountId tokenId walletAddress mintAmount)
      match mint with
      | none => return .skipped
      | some mint => recordMint (mintTarget chain pivId accountId tokenId walletAddress mintAmount) mint

def mintForContributor (pivId : PivId) (tokenId : TokenId) (walletAddress : Address) : Run MintOutcome := do
  let accountId ← read (.resolveAccountIdForWallet walletAddress)
  match accountId with
  | none => .fail (.noRegisteredAccount walletAddress tokenId)
  | some accountId => mintForAccount chain pivId accountId tokenId walletAddress

/-- The summary as the job's `catch` would find it, and the error if one was thrown. -/
abbrev Progress := FinalizeIpoEscrowCampaignsSummary × Option Failure

def recovering (summary : FinalizeIpoEscrowCampaignsSummary) (p : Run Progress) : Run Progress :=
  Prog.catchWith p (fun e => .ret (summary, some e))

def FinalizeIpoEscrowCampaignsSummary.count (summary : FinalizeIpoEscrowCampaignsSummary) :
    MintOutcome → FinalizeIpoEscrowCampaignsSummary
  | .skipped => summary
  | .minted => { summary with positionsMinted := summary.positionsMinted + 1 }
  | .reconciled => { summary with
      positionsMinted := summary.positionsMinted + 1
      mintsReconciled := summary.mintsReconciled + 1 }

def withdrawRaised (tokenId : TokenId) : Run Unit := do
  let hash ← invoke (.write (.escrow (.withdrawRaised tokenId)) none)
  let receipt ← invoke (.waitForTransactionReceipt hash)
  if receipt.success then return () else .fail (.withdrawRaisedReverted hash)

/-- Mint the contributors in order, then sweep. -/
def mintAndSweep (pivId : PivId) (tokenId : TokenId) (summary : FinalizeIpoEscrowCampaignsSummary) :
    List Address → Run Progress
  | [] => recovering summary (do
      withdrawRaised tokenId
      return (summary, none))
  | walletAddress :: rest => do
    let outcome ← attempt (mintForContributor chain pivId tokenId walletAddress)
    match outcome with
    | .error e => return (summary, some e)
    | .ok outcome => mintAndSweep pivId tokenId (summary.count outcome) rest

/-- The part of `processCampaign` after the campaign is no longer open. -/
def processResolved (pivId : PivId) (tokenId : TokenId) (campaign : IpoEscrow.Campaign)
    (summary : FinalizeIpoEscrowCampaignsSummary) : Run Progress :=
  if campaign.state = .failed then
    .ret ({ summary with campaignsFailed := summary.campaignsFailed + 1 }, none)
  else if campaign.state ≠ .successful then .ret (summary, none)
  else
    let counted := { summary with campaignsSuccessful := summary.campaignsSuccessful + 1 }
    recovering counted (do
      let contributors ← read (.contributorsOf tokenId)
      mintAndSweep chain pivId tokenId counted contributors)

def finalizeCampaign (tokenId : TokenId) : Run Unit := do
  let hash ← invoke (.write (.escrow (.finalize tokenId)) none)
  let receipt ← invoke (.waitForTransactionReceipt hash)
  if receipt.success then return () else .fail (.finalizeReverted hash)

def processCampaign (candidate : PivId × TokenId) (summary : FinalizeIpoEscrowCampaignsSummary) :
    Run Progress :=
  recovering summary (do
    let campaign ← read (.campaignOf candidate.2)
    if campaign.swept then return (summary, none)
    else if campaign.state = .opened then
      finalizeCampaign candidate.2
      let counted := { summary with campaignsFinalized := summary.campaignsFinalized + 1 }
      recovering counted (do
        let campaign ← read (.campaignOf candidate.2)
        processResolved chain candidate.1 candidate.2 campaign counted)
    else processResolved chain candidate.1 candidate.2 campaign summary)

/-- One round of the loop in `execute`. -/
def processCandidate (summary : FinalizeIpoEscrowCampaignsSummary) (candidate : PivId × TokenId) :
    Run FinalizeIpoEscrowCampaignsSummary := do
  let progress ← processCampaign chain candidate summary
  match progress.2 with
  | none => return progress.1
  | some e => return { progress.1 with errors := progress.1.errors ++ [(candidate.1, candidate.2, e)] }

def execute : Run FinalizeIpoEscrowCampaignsSummary := do
  let now ← read (.clock .ipoDeadline)
  let candidates ← read (.findPivsWithPassedIpoDeadline now)
  candidates.foldlM (processCandidate chain) ⟨candidates.length, 0, 0, 0, 0, 0, []⟩

end Methods

inductive Job where
  | finalizeIpoEscrowCampaigns

/-- Any number of runs of the job against one settlement world. -/
def system (chain : Chain) (eurc : Erc20) :
    Semantics (World eurc) Choice (Event eurc) Job Failure Op Op.Out where
  exec := exec chain
  env := env chain
  job
    | .finalizeIpoEscrowCampaigns => (execute chain).bind fun _ => .ret ()

end Settlement
