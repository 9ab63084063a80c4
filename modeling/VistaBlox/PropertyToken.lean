import VistaBlox.Evm

/-!
# The property token

`VistaBloxProperty`. Balances move through `update` alone, the chain of overrides of the
library's `_update`: the contract's checks, the supply tracker, the pause flag, the
balances. A receiver is asked to accept a mint at its end: its answer is an input of `mint`,
and what it calls meanwhile counts as calls made next.
-/
namespace PropertyToken

open Evm Function

inductive Role where
  | defaultAdmin
  | minter
  | burner
  | pauser
  | transferAgent
  | document
  | other : Nat → Role
  deriving DecidableEq

abbrev Bytes32 := BitVec 256

inductive Event where
  | tokenPaused (tokenId : TokenId) (actor : Address)
  | tokenUnpaused (tokenId : TokenId) (actor : Address)
  | holderAuthorized (tokenId : TokenId) (holder actor : Address)
  | holderDeauthorized (tokenId : TokenId) (holder actor : Address)
  | forcedTransfer (tokenId : TokenId) (src dst : Address) (amount : Nat) (reasonCode : Bytes32) (actor : Address)
  | documentHashSet (tokenId : TokenId) (documentHash : Bytes32) (documentUri : String) (actor : Address)
  | transferSingle (operator src dst : Address) (id : TokenId) (value : Nat)
  | transferBatch (operator src dst : Address) (items : List (TokenId × Nat))
  deriving DecidableEq

inductive Error where
  | transferLaneClosed
  | tokenIsPaused (tokenId : TokenId)
  | holderNotAuthorized (tokenId : TokenId) (holder : Address)
  | insufficientBalance (sender : Address) (balance needed : Nat) (tokenId : TokenId)
  | invalidReceiver (receiver : Address)
  | invalidSender (sender : Address)
  | library (e : LibraryError Role)
  | arithmetic
  deriving DecidableEq

structure State where
  access : Access Role
  paused : Bool
  balances : TokenId → Address → Nat
  totalSupply : TokenId → Nat
  totalSupplyAll : Nat
  tokenPaused : TokenId → Bool
  authorizedHolders : TokenId → Address → Bool
  documentHash : TokenId → Bytes32
  documentUri : TokenId → String
  log : List Event

section

variable (s : State) (m : Msg) (src dst : Address) (tokenId : TokenId) (items : List (TokenId × Nat))

def deploy : State where
  access := Access.deployed .defaultAdmin m.sender
  paused := false
  balances := fun _ _ => 0
  totalSupply := fun _ => 0
  totalSupplyAll := 0
  tokenPaused := fun _ => false
  authorizedHolders := fun _ _ => false
  documentHash := fun _ => 0
  documentUri := fun _ => ""
  log := []

def State.emit (e : Event) : State := { s with log := s.log ++ [e] }

def balanceOf (account : Address) (id : TokenId) : Nat := s.balances id account

def State.setBalance (id : TokenId) (account : Address) (n : Nat) : State :=
  { s with balances := update s.balances id (update (s.balances id) account n) }

def State.setSupply (id : TokenId) (n : Nat) : State :=
  { s with totalSupply := update s.totalSupply id n }

def takeFrom (id : TokenId) (value : Nat) : Except Error State :=
  if src ≠ 0 then do
    let balance := s.balances id src
    revertIf (balance < value) (.insufficientBalance src balance value id)
    return s.setBalance id src (balance - value)
  else return s

def giveTo (id : TokenId) (value : Nat) : Except Error State :=
  if dst ≠ 0 then do
    let balance ← checkedAdd .arithmetic (s.balances id dst) value
    return s.setBalance id dst balance
  else return s

/-- One round of the loop in `ERC1155._update`. -/
def moveBalance (src dst : Address) (s : State) (item : TokenId × Nat) : Except Error State := do
  let debited ← takeFrom s src item.1 item.2
  giveTo debited dst item.1 item.2

/-- `ERC1155._update` -/
def baseUpdate : Except Error State := do
  let moved ← items.foldlM (moveBalance src dst) s
  return moved.emit (match items with
    | [(id, value)] => .transferSingle m.sender src dst id value
    | _ => .transferBatch m.sender src dst items)

/-- `ERC1155Pausable._update` -/
def pausableUpdate : Except Error State := do
  whenNotPaused .library s.paused
  baseUpdate s m src dst items

def issue (acc : State × Nat) (item : TokenId × Nat) : Except Error (State × Nat) := do
  let supply ← checkedAdd .arithmetic (acc.1.totalSupply item.1) item.2
  let total ← checkedAdd .arithmetic acc.2 item.2
  return (acc.1.setSupply item.1 supply, total)

def issueAll : Except Error State :=
  if src = 0 then do
    let issued ← items.foldlM issue (s, 0)
    let all ← checkedAdd .arithmetic issued.1.totalSupplyAll issued.2
    return { issued.1 with totalSupplyAll := all }
  else return s

/-- Subtraction of 256-bit words in an unchecked block. -/
def wrappingSub (a b : Nat) : Nat := (a + wordBound - b) % wordBound

def retire (acc : State × Nat) (item : TokenId × Nat) : State × Nat :=
  (acc.1.setSupply item.1 (wrappingSub (acc.1.totalSupply item.1) item.2), (acc.2 + item.2) % wordBound)

def retireAll : State :=
  if dst = 0 then
    let retired := items.foldl retire (s, 0)
    { retired.1 with totalSupplyAll := wrappingSub retired.1.totalSupplyAll retired.2 }
  else s

/-- `ERC1155Supply._update` -/
def supplyUpdate : Except Error State := do
  let moved ← pausableUpdate s m src dst items
  let issued ← issueAll moved src items
  return retireAll issued dst items

/-- The contract's own check of one item, before the library sees any. -/
def checkItem (item : TokenId × Nat) : Except Error Unit := do
  revertIf (s.tokenPaused item.1 = true) (.tokenIsPaused item.1)
  revertIf (dst ≠ 0 ∧ s.authorizedHolders item.1 dst = false) (.holderNotAuthorized item.1 dst)

def update : Except Error State := do
  forM items (checkItem s dst)
  supplyUpdate s m src dst items

/-- `accepted` is the answer of `dst` if it is a contract, and true otherwise. -/
def mint (amount : Nat) (accepted : Bool) : Except Error State := do
  s.access.onlyRole .library m .minter
  revertIf (dst = 0) (.invalidReceiver 0)
  let minted ← update s m 0 dst [(tokenId, amount)]
  revertIf (accepted = false) (.invalidReceiver dst)
  return minted

def burn (amount : Nat) : Except Error State := do
  s.access.onlyRole .library m .burner
  revertIf (src = 0) (.invalidSender 0)
  update s m src 0 [(tokenId, amount)]

def pauseToken : Except Error State := do
  s.access.onlyRole .library m .pauser
  return { s with tokenPaused := Function.update s.tokenPaused tokenId true }.emit
    (.tokenPaused tokenId m.sender)

def unpauseToken : Except Error State := do
  s.access.onlyRole .library m .pauser
  return { s with tokenPaused := Function.update s.tokenPaused tokenId false }.emit
    (.tokenUnpaused tokenId m.sender)

def pause : Except Error State := do
  s.access.onlyRole .library m .defaultAdmin
  whenNotPaused .library s.paused
  return { s with paused := true }

def unpause : Except Error State := do
  s.access.onlyRole .library m .defaultAdmin
  whenPaused .library s.paused
  return { s with paused := false }

def State.setAuthorized (holder : Address) (b : Bool) : State :=
  { s with
    authorizedHolders := Function.update s.authorizedHolders tokenId
      (Function.update (s.authorizedHolders tokenId) holder b) }

def authorizeHolder (holder : Address) (tokenId : TokenId) : Except Error State := do
  s.access.onlyRole .library m .transferAgent
  return (s.setAuthorized tokenId holder true).emit (.holderAuthorized tokenId holder m.sender)

def deauthorizeHolder (holder : Address) (tokenId : TokenId) : Except Error State := do
  s.access.onlyRole .library m .transferAgent
  return (s.setAuthorized tokenId holder false).emit (.holderDeauthorized tokenId holder m.sender)

def isHolderAuthorized (holder : Address) (tokenId : TokenId) : Bool :=
  s.authorizedHolders tokenId holder

def forceTransfer (amount : Nat) (reasonCode : Bytes32) : Except Error State := do
  s.access.onlyRole .library m .transferAgent
  let moved ← update s m src dst [(tokenId, amount)]
  return moved.emit (.forcedTransfer tokenId src dst amount reasonCode m.sender)

def setDocumentHash (documentHash : Bytes32) (documentUri : String) : Except Error State := do
  s.access.onlyRole .library m .document
  return { s with
    documentHash := Function.update s.documentHash tokenId documentHash
    documentUri := Function.update s.documentUri tokenId documentUri }.emit
    (.documentHashSet tokenId documentHash documentUri m.sender)

def changeRole (c : RoleCall Role) : Except Error State := do
  let access ← s.access.call .library .defaultAdmin m c
  return { s with access := access }

inductive Call where
  | mint (dst : Address) (tokenId : TokenId) (amount : Nat) (accepted : Bool)
  | burn (src : Address) (tokenId : TokenId) (amount : Nat)
  | pauseToken (tokenId : TokenId)
  | unpauseToken (tokenId : TokenId)
  | pause
  | unpause
  | authorizeHolder (holder : Address) (tokenId : TokenId)
  | deauthorizeHolder (holder : Address) (tokenId : TokenId)
  | forceTransfer (src dst : Address) (tokenId : TokenId) (amount : Nat) (reasonCode : Bytes32)
  | setDocumentHash (tokenId : TokenId) (documentHash : Bytes32) (documentUri : String)
  | safeTransferFrom (src dst : Address) (tokenId : TokenId) (amount : Nat)
  | safeBatchTransferFrom (src dst : Address) (items : List (TokenId × Nat))
  | role (c : RoleCall Role)
  deriving DecidableEq

def exec : Call → Except Error State
  | .mint dst id n accepted => mint s m dst id n accepted
  | .burn src id n => burn s m src id n
  | .pauseToken id => pauseToken s m id
  | .unpauseToken id => unpauseToken s m id
  | .pause => pause s m
  | .unpause => unpause s m
  | .authorizeHolder holder id => authorizeHolder s m holder id
  | .deauthorizeHolder holder id => deauthorizeHolder s m holder id
  | .forceTransfer src dst id n reason => forceTransfer s m src dst id n reason
  | .setDocumentHash id hash uri => setDocumentHash s m id hash uri
  | .safeTransferFrom .. => .error .transferLaneClosed
  | .safeBatchTransferFrom .. => .error .transferLaneClosed
  | .role c => changeRole s m c

/-- A reverted call changes nothing. -/
def step (c : Call) : State :=
  match exec s m c with
  | .ok s' => s'
  | .error _ => s

def run (calls : List (Msg × Call)) : State := calls.foldl (fun s mc => step s mc.1 mc.2) s

end

end PropertyToken
