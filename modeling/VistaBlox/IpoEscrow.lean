import VistaBlox.Evm

/-!
# The IPO contribution escrow

`VistaBloxIpoEscrow`: every entry point is a function from the state to a new state or a
revert, in the order the contract checks. `EURC` calls nobody back, so a call runs to its
end and the reentrancy guard is no field.

History: `payouts` lists the `EURC` transfers made and their campaigns; `direct` is the
`EURC` that arrived without `contribute`.
-/
namespace IpoEscrow

open Evm
open Function (update)

inductive Role where
  | defaultAdmin
  | campaignManager
  | other : Nat → Role
  deriving DecidableEq

inductive CampaignState where
  | notOpened | opened | successful | failed
  deriving DecidableEq, Repr

structure Campaign where
  targetAmount : Nat
  totalRaised : Nat
  deadline : Nat
  treasury : Address
  state : CampaignState
  swept : Bool
  deriving DecidableEq

/-- An unwritten storage slot. -/
def Campaign.empty : Campaign := ⟨0, 0, 0, 0, .notOpened, false⟩

inductive Event where
  | campaignOpened (tokenId : TokenId) (targetAmount deadline : Nat) (treasury actor : Address)
  | deadlineExtended (tokenId : TokenId) (newDeadline : Nat) (actor : Address)
  | contributed (tokenId : TokenId) (contributor : Address) (amount newTotalRaised : Nat)
  | campaignFinalized (tokenId : TokenId) (successful : Bool) (totalRaised : Nat)
  | raisedWithdrawn (tokenId : TokenId) (treasury : Address) (amount : Nat)
  | contributionWithdrawn (tokenId : TokenId) (contributor : Address) (amount : Nat)
  deriving DecidableEq

inductive Error where
  | zeroAddress
  | zeroAmount
  | invalidDeadline
  | campaignAlreadyOpened (tokenId : TokenId)
  | campaignNotOpen (tokenId : TokenId)
  | deadlineNotReached (tokenId : TokenId)
  | deadlineAlreadyPassed (tokenId : TokenId)
  | targetExceeded (tokenId : TokenId) (attempted remaining : Nat)
  | campaignNotSuccessful (tokenId : TokenId)
  | campaignNotFailed (tokenId : TokenId)
  | alreadySwept (tokenId : TokenId)
  | noContribution (tokenId : TokenId) (contributor : Address)
  | library (e : LibraryError Role)
  | arithmetic
  | eurcFailed
  deriving DecidableEq

inductive PayoutKind where
  | sweep | refund
  deriving DecidableEq, Repr

structure Payout where
  tokenId : TokenId
  recipient : Address
  amount : Nat
  kind : PayoutKind
  deriving DecidableEq

structure State (eurc : Erc20) where
  access : Access Role
  paused : Bool
  campaigns : TokenId → Campaign
  contributions : TokenId → Address → Nat
  contributorsList : TokenId → List Address
  hasContributed : TokenId → Address → Bool
  log : List Event
  eurcLedger : eurc.Ledger
  payouts : List Payout
  direct : Nat

variable {eurc : Erc20}

section

variable (escrow : Address) (s : State eurc) (m : Msg) (tokenId : TokenId)

/-- The constructor. What the address already held counts as sent directly. -/
def deploy (eurcAddress : Address) (ledger : eurc.Ledger) : Except Error (State eurc) := do
  revertIf (eurcAddress = 0) Error.zeroAddress
  return {
    access := Access.deployed .defaultAdmin m.sender
    paused := false
    campaigns := fun _ => .empty
    contributions := fun _ _ => 0
    contributorsList := fun _ => []
    hasContributed := fun _ _ => false
    log := []
    eurcLedger := ledger
    payouts := []
    direct := eurc.balanceOf ledger escrow }

def State.putCampaign (c : Campaign) : State eurc :=
  { s with campaigns := update s.campaigns tokenId c }

def State.emit (e : Event) : State eurc := { s with log := s.log ++ [e] }

def openCampaign (targetAmount deadline : Nat) (treasury : Address) : Except Error (State eurc) := do
  s.access.onlyRole .library m .campaignManager
  revertIf ((s.campaigns tokenId).state ≠ .notOpened) (.campaignAlreadyOpened tokenId)
  revertIf (targetAmount = 0) .zeroAmount
  revertIf (treasury = 0) .zeroAddress
  revertIf (deadline ≤ m.timestamp) .invalidDeadline
  return (s.putCampaign tokenId ⟨targetAmount, 0, deadline, treasury, .opened, false⟩).emit
    (.campaignOpened tokenId targetAmount deadline treasury m.sender)

def extendDeadline (newDeadline : Nat) : Except Error (State eurc) := do
  s.access.onlyRole .library m .campaignManager
  let campaign := s.campaigns tokenId
  revertIf (campaign.state ≠ .opened) (.campaignNotOpen tokenId)
  revertIf (newDeadline ≤ m.timestamp) .invalidDeadline
  return (s.putCampaign tokenId { campaign with deadline := newDeadline }).emit
    (.deadlineExtended tokenId newDeadline m.sender)

/-- `EURC.safeTransferFrom(contributor, address(this), amount)` -/
def pull (contributor : Address) (amount : Nat) : Except Error (State eurc) :=
  match eurc.transferFrom s.eurcLedger escrow contributor escrow amount with
  | none => .error .eurcFailed
  | some ledger => .ok { s with eurcLedger := ledger }

/-- `EURC.safeTransfer(recipient, amount)`, noted as a payout of its campaign. -/
def push (p : Payout) : Except Error (State eurc) :=
  match eurc.transfer s.eurcLedger escrow p.recipient p.amount with
  | none => .error .eurcFailed
  | some ledger => .ok { s with eurcLedger := ledger, payouts := s.payouts ++ [p] }

/-- The bookkeeping of one accepted contribution, before the token is pulled. -/
def State.book (contributor : Address) (total owed : Nat) : State eurc :=
  let booked := { s.putCampaign tokenId { s.campaigns tokenId with totalRaised := total } with
    contributions := update s.contributions tokenId
      (update (s.contributions tokenId) contributor owed) }
  if s.hasContributed tokenId contributor then booked
  else { booked with
    hasContributed := update s.hasContributed tokenId
      (update (s.hasContributed tokenId) contributor true)
    contributorsList := update s.contributorsList tokenId
      (s.contributorsList tokenId ++ [contributor]) }

def contribute (amount : Nat) : Except Error (State eurc) := do
  whenNotPaused .library s.paused
  let campaign := s.campaigns tokenId
  revertIf (campaign.state ≠ .opened) (.campaignNotOpen tokenId)
  revertIf (campaign.deadline ≤ m.timestamp) (.deadlineAlreadyPassed tokenId)
  revertIf (amount = 0) .zeroAmount
  let remaining ← checkedSub Error.arithmetic campaign.targetAmount campaign.totalRaised
  revertIf (remaining < amount) (.targetExceeded tokenId amount remaining)
  let total ← checkedAdd Error.arithmetic campaign.totalRaised amount
  let owed ← checkedAdd Error.arithmetic (s.contributions tokenId m.sender) amount
  let pulled ← pull escrow (s.book tokenId m.sender total owed) m.sender amount
  return pulled.emit (.contributed tokenId m.sender amount total)

def finalize : Except Error (State eurc) := do
  whenNotPaused .library s.paused
  let campaign := s.campaigns tokenId
  revertIf (campaign.state ≠ .opened) (.campaignNotOpen tokenId)
  revertIf (m.timestamp < campaign.deadline) (.deadlineNotReached tokenId)
  let successful := decide (campaign.targetAmount ≤ campaign.totalRaised)
  return (s.putCampaign tokenId
      { campaign with state := if successful then .successful else .failed }).emit
    (.campaignFinalized tokenId successful campaign.totalRaised)

def withdrawRaised : Except Error (State eurc) := do
  whenNotPaused .library s.paused
  let campaign := s.campaigns tokenId
  revertIf (campaign.state ≠ .successful) (.campaignNotSuccessful tokenId)
  revertIf (campaign.swept = true) (.alreadySwept tokenId)
  let paid ← push escrow (s.putCampaign tokenId { campaign with swept := true })
    ⟨tokenId, campaign.treasury, campaign.totalRaised, .sweep⟩
  return paid.emit (.raisedWithdrawn tokenId campaign.treasury campaign.totalRaised)

def withdraw : Except Error (State eurc) := do
  whenNotPaused .library s.paused
  revertIf ((s.campaigns tokenId).state ≠ .failed) (.campaignNotFailed tokenId)
  let amount := s.contributions tokenId m.sender
  revertIf (amount = 0) (.noContribution tokenId m.sender)
  let cleared := { s with
    contributions := update s.contributions tokenId
      (update (s.contributions tokenId) m.sender 0) }
  let paid ← push escrow cleared ⟨tokenId, m.sender, amount, .refund⟩
  return paid.emit (.contributionWithdrawn tokenId m.sender amount)

def contributionOf (contributor : Address) : Nat :=
  s.contributions tokenId contributor

def contributorsOf : List Address := s.contributorsList tokenId

def campaignOf : Campaign := s.campaigns tokenId

def pause : Except Error (State eurc) := do
  s.access.onlyRole .library m .defaultAdmin
  whenNotPaused .library s.paused
  return { s with paused := true }

def unpause : Except Error (State eurc) := do
  s.access.onlyRole .library m .defaultAdmin
  whenPaused .library s.paused
  return { s with paused := false }

def changeRole (c : RoleCall Role) : Except Error (State eurc) := do
  let access ← s.access.call .library .defaultAdmin m c
  return { s with access := access }

inductive Call where
  | openCampaign (tokenId : TokenId) (targetAmount deadline : Nat) (treasury : Address)
  | extendDeadline (tokenId : TokenId) (newDeadline : Nat)
  | contribute (tokenId : TokenId) (amount : Nat)
  | finalize (tokenId : TokenId)
  | withdrawRaised (tokenId : TokenId)
  | withdraw (tokenId : TokenId)
  | pause
  | unpause
  | role (c : RoleCall Role)
  deriving DecidableEq

def exec : Call → Except Error (State eurc)
  | .openCampaign t target deadline treasury => openCampaign s m t target deadline treasury
  | .extendDeadline t deadline => extendDeadline s m t deadline
  | .contribute t amount => contribute escrow s m t amount
  | .finalize t => finalize s m t
  | .withdrawRaised t => withdrawRaised escrow s t
  | .withdraw t => withdraw escrow s m t
  | .pause => pause s m
  | .unpause => unpause s m
  | .role c => changeRole s m c

/-- A transaction to the contract, or activity of other parties on `EURC`. -/
inductive Step (eurc : Erc20) where
  | call : Msg → Call → Step eurc
  | eurc : eurc.Ledger → Step eurc

/-- A reverted call changes nothing. The contract never calls itself, so no
message comes from its own address; and only the contract spends its balance,
so the activity of others can only add to it. -/
def step : Step eurc → State eurc
  | .call m c => if m.sender = escrow then s else
    match exec escrow s m c with
    | .ok s' => s'
    | .error _ => s
  | .eurc ledger =>
    if eurc.balanceOf s.eurcLedger escrow ≤ eurc.balanceOf ledger escrow then
      { s with
        eurcLedger := ledger
        direct := s.direct + (eurc.balanceOf ledger escrow - eurc.balanceOf s.eurcLedger escrow) }
    else s

def run (steps : List (Step eurc)) : State eurc :=
  steps.foldl (step escrow) s

end

/-- The states of the contract's life, from its construction on. -/
inductive Reachable (escrow : Address) : State eurc → Prop where
  | deployed (m : Msg) (eurcAddress : Address) (ledger : eurc.Ledger) (s : State eurc) :
      deploy escrow m eurcAddress ledger = .ok s → Reachable escrow s
  | step (s : State eurc) (e : Step eurc) : Reachable escrow s → Reachable escrow (step escrow s e)

theorem reachable_run (escrow : Address) (s : State eurc) (steps : List (Step eurc))
    (h : Reachable escrow s) : Reachable escrow (run escrow s steps) := by
  induction steps generalizing s with
  | nil => exact h
  | cons e steps ih => exact ih (step escrow s e) (.step s e h)

end IpoEscrow
