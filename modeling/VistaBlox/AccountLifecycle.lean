import VistaBlox.DeviceEnrolment
import VistaBlox.DpopBinding

/-!
# How accounts are closed, recovered and signed in to

Closure requests, recovery cases, staff offboarding and the device login, as programs over
calls. A call is one transaction and may throw, with or without effect. Times are
milliseconds on one clock.

History: accounts closed or offboarded, the statuses of a case, reviews and decisions with
their reference, devices revoked, and each session's device.
-/
namespace AccountLifecycle

open Interleaving
open DpopBinding (AccountStatus)
open DeviceEnrolment (Challenge DeviceChallenge MobilePlatform)

abbrev AccountId := Nat
abbrev UserId := Nat
abbrev RequestId := Nat
abbrev CaseId := Nat
abbrev DeviceId := Nat
abbrev SessionId := Nat
abbrev Jkt := Nat
abbrev DiditReference := Nat
abbrev Address := Nat

inductive Population where
  | customer | staffPartner
  deriving DecidableEq, Repr

inductive ClosureRequestStatus where
  | pending | approved | rejected | cancelled
  deriving DecidableEq, Repr

inductive CaseStatus where
  | «open» | approved | rejected | completed
  deriving DecidableEq, Repr

inductive Decision where
  | approved | rejected
  deriving DecidableEq, Repr

inductive AuthenticationLevel where
  | unassured | oauthPending | staffPasskey | deviceBiometric
  deriving DecidableEq, Repr

structure Account where
  id : AccountId
  betterAuthUserId : UserId
  status : AccountStatus
  contactEmail : Option Address
  isStaff : Bool
  deriving DecidableEq

structure AuthUser where
  id : UserId
  email : Address
  population : Population
  disabledAt : Option ℤ
  recoveryRequiredAt : Option ℤ
  deriving DecidableEq

structure ClosureRequest where
  id : RequestId
  accountId : AccountId
  status : ClosureRequestStatus
  reason : Option String
  requestedAt : ℤ
  resolvedAt : Option ℤ
  resolvedBy : Option AccountId
  resolutionNote : Option String
  deriving DecidableEq

structure RecoveryCase where
  id : CaseId
  accountId : AccountId
  status : CaseStatus
  freshDiditVerificationRef : Option DiditReference
  reviewedByPrimary : Option AccountId
  reviewedBySecondary : Option AccountId
  cooldownEndsAt : Option ℤ
  createdAt : ℤ
  resolvedAt : Option ℤ
  deriving DecidableEq

/-- The platform is `none` where the column holds no mobile platform. -/
structure Device where
  deviceId : DeviceId
  accountId : AccountId
  betterAuthUserId : UserId
  dpopJkt : Jkt
  platform : Option MobilePlatform
  active : Bool
  lastSeenAt : Option ℤ
  deriving DecidableEq

/-- A row of `auth_session`; its token is its id. -/
structure AuthSession where
  id : SessionId
  userId : UserId
  authenticationLevel : AuthenticationLevel
  dpopJkt : Option Jkt
  createdAt : ℤ
  expiresAt : ℤ
  device : Option DeviceId
  deriving DecidableEq

structure Review where
  caseId : CaseId
  reviewer : AccountId
  diditReference : Option DiditReference
  deriving DecidableEq

structure Ruling where
  caseId : CaseId
  reviewer : AccountId
  decision : Decision
  diditReference : Option DiditReference
  deriving DecidableEq

structure Revocation where
  caseId : CaseId
  deviceId : DeviceId
  deriving DecidableEq

structure World where
  now : ℤ
  accounts : List Account
  users : List AuthUser
  requests : List ClosureRequest
  cases : List RecoveryCase
  devices : List Device
  challenges : List DeviceChallenge
  sessions : List AuthSession
  closed : List AccountId
  statuses : List (CaseId × CaseStatus)
  reviews : List Review
  rulings : List Ruling
  revocations : List Revocation
  logins : List DeviceId

inductive Failure where
  | closureTargetNotFound
  | closureTargetNotActive
  | requestAlreadyPending
  | noPendingRequest
  | requestNotPending
  | recoveryTargetNotFound
  | recoveryTargetIsStaff
  | recoveryTargetNotActive
  | caseAlreadyOpen
  | caseNotOpen
  | caseNotFound
  | primaryReviewUnavailable
  | sameReviewer
  | decisionUnavailable
  | caseNotApproved
  | completionDeliveryFailed
  | completionFailed
  | customerAccountTargetInvalid
  | staffAccountTargetInvalid
  | selfActionForbidden
  | targetUnavailable
  | deviceLoginFailed
  | platformUnsupported
  | challengeReplayed
  | challengeExpired
  | accountRestricted
  | accountMappingMissing
  | staffAccountDisabled
  | recoveryRequired
  | staffPasskeyRequired
  | fault
  deriving DecidableEq, Repr

/-- The mails of the recovery. -/
inductive Email where
  | caseOpened | caseApproved | caseRejected | recoveryCompleted | deviceReenrolment | passkeyRecovery
  deriving DecidableEq, Repr

inductive Op where
  | clock
  | findTarget (accountId : AccountId)
  | findPendingForAccount (accountId : AccountId)
  | findRequest (requestId : RequestId)
  | createRequest (accountId : AccountId) (reason : Option String) (requestedAt : ℤ)
  | cancel (requestId : RequestId) (accountId : AccountId) (cancelledAt : ℤ)
  | decide (requestId : RequestId) (reviewer : AccountId) (decision : Decision) (note : Option String) (decidedAt : ℤ)
  | findTargetForRecovery (accountId : AccountId)
  | findOpenCaseForAccount (accountId : AccountId)
  | findCase (caseId : CaseId)
  | openCase (accountId : AccountId) (openedAt : ℤ)
  | createDiditSession (accountId : AccountId)
  | recordDiditSession (caseId : CaseId) (diditReference : DiditReference)
  | recordPrimaryReview (caseId : CaseId) (reviewer : AccountId)
  | decideCase (caseId : CaseId) (reviewer : AccountId) (decision : Decision) (decidedAt : ℤ)
  | completeCase (caseId : CaseId) (cooldownEndsAt : ℤ)
  | revokeDevicesForRecovery (caseId : CaseId) (accountId : AccountId)
  | recordRecoveryAuditEvent (caseId : CaseId) (action : String)
  | sendEmail (email : Email) (address : Address)
  | issuePasskeyBootstrap (userId : UserId)
  | completeOffboarding (accountId : AccountId)
  | findUserById (userId : UserId)
  | setRecoveryRequiredAt (userId : UserId) (at? : Option ℤ)
  | setDisabledAt (userId : UserId) (disabledAt : ℤ)
  | listSessions (userId : UserId)
  | deleteUserSessions (userId : UserId)
  | deleteSession (sessionId : SessionId)
  | requireDpopProofForSessionCreation
  | findByDpopJkt (dpopJkt : Jkt)
  | consume (challenge : Challenge) (dpopJkt : Jkt) (deviceId : DeviceId)
  | wasConsumedWithinReplayWindow (challenge : Challenge) (dpopJkt : Jkt) (deviceId : DeviceId)
  | verifyDeviceAuthJws (deviceId : DeviceId)
  | touchLastSeen (deviceId : DeviceId) (lastSeenAt : ℤ)
  | findByBetterAuthUserId (userId : UserId)
  | insertSession (userId : UserId) (dpopJkt : Jkt) (device : DeviceId)
  | setSessionCookie

@[reducible] def Op.Out : Op → Type
  | .clock => ℤ
  | .findTarget _ => Option Account
  | .findPendingForAccount _ => Option ClosureRequest
  | .findRequest _ => Option ClosureRequest
  | .createRequest .. => ClosureRequest
  | .cancel .. => Option ClosureRequest
  | .decide .. => Option ClosureRequest
  | .findTargetForRecovery _ => Option Account
  | .findOpenCaseForAccount _ => Option RecoveryCase
  | .findCase _ => Option RecoveryCase
  | .openCase .. => RecoveryCase
  | .createDiditSession _ => DiditReference
  | .recordDiditSession .. => Option RecoveryCase
  | .recordPrimaryReview .. => Option RecoveryCase
  | .decideCase .. => Option RecoveryCase
  | .completeCase .. => Option RecoveryCase
  | .revokeDevicesForRecovery .. => List DeviceId
  | .recordRecoveryAuditEvent .. => Unit
  | .sendEmail .. => Unit
  | .issuePasskeyBootstrap _ => Unit
  | .completeOffboarding _ => Unit
  | .findUserById _ => Option AuthUser
  | .setRecoveryRequiredAt .. => Unit
  | .setDisabledAt .. => Unit
  | .listSessions _ => List AuthSession
  | .deleteUserSessions _ => Unit
  | .deleteSession _ => Unit
  | .requireDpopProofForSessionCreation => Unit
  | .findByDpopJkt _ => Option Device
  | .consume .. => Bool
  | .wasConsumedWithinReplayWindow .. => Bool
  | .verifyDeviceAuthJws _ => Bool
  | .touchLastSeen .. => Unit
  | .findByBetterAuthUserId _ => Option Account
  | .insertSession .. => AuthSession
  | .setSessionCookie => Unit

def World.setStatus (accountId : AccountId) (status : AccountStatus) (w : World) : World :=
  { w with accounts := w.accounts.map fun a => if a.id = accountId then { a with status } else a }

def Decision.requestStatus : Decision → ClosureRequestStatus
  | .approved => .approved
  | .rejected => .rejected

def Decision.caseStatus : Decision → CaseStatus
  | .approved => .approved
  | .rejected => .rejected

def ClosureRequest.isPending (requestId : RequestId) (r : ClosureRequest) : Bool :=
  r.id = requestId ∧ r.status = .pending

/-- `findFirst` without an order: the world picks. -/
def findPendingForAccount (pick : Nat) (accountId : AccountId) (w : World) : Option ClosureRequest :=
  let pending := w.requests.filter fun r => r.accountId = accountId ∧ r.status = .pending
  (pending.drop (pick % pending.length)).head?

def createRequest (id : RequestId) (accountId : AccountId) (reason : Option String) (requestedAt : ℤ) :
    ClosureRequest :=
  ⟨id, accountId, .pending, reason, requestedAt, none, none, none⟩

def cancel (requestId : RequestId) (accountId : AccountId) (cancelledAt : ℤ) (w : World) :
    Option ClosureRequest × World :=
  match w.requests.find? fun r => r.isPending requestId ∧ r.accountId = accountId with
  | none => (none, w)
  | some request => (some { request with status := .cancelled, resolvedAt := some cancelledAt },
      { w with requests := w.requests.map fun r =>
          if r.isPending requestId ∧ r.accountId = accountId then
            { r with status := .cancelled, resolvedAt := some cancelledAt }
          else r })

def ClosureRequest.resolve (decision : Decision) (resolvedBy : AccountId) (note : Option String) (resolvedAt : ℤ)
    (r : ClosureRequest) : ClosureRequest :=
  { r with
    status := decision.requestStatus
    resolvedAt := some resolvedAt
    resolvedBy := some resolvedBy
    resolutionNote := note }

/-- An approved closure also closes the account, in the same transaction. -/
def decide (requestId : RequestId) (reviewer : AccountId) (decision : Decision) (note : Option String) (decidedAt : ℤ)
    (w : World) : Option ClosureRequest × World :=
  match w.requests.find? (ClosureRequest.isPending requestId) with
  | none => (none, w)
  | some request =>
    (some (request.resolve decision reviewer note decidedAt),
      { w with
        requests := w.requests.map fun r =>
          if r.isPending requestId then r.resolve decision reviewer note decidedAt else r
        accounts := if decision = .approved then (w.setStatus request.accountId .suspendedRestricted).accounts
          else w.accounts
        closed := if decision = .approved then w.closed ++ [request.accountId] else w.closed })

/-- The newest open case. -/
def findOpenCaseForAccount (accountId : AccountId) (w : World) : Option RecoveryCase :=
  let «open» := w.cases.filter fun c => c.accountId = accountId ∧ c.status = .open
  («open».filter fun c => «open».all fun other => other.createdAt ≤ c.createdAt).head?

def openCase (id : CaseId) (accountId : AccountId) (openedAt : ℤ) (w : World) : RecoveryCase × World :=
  (⟨id, accountId, .open, none, none, none, none, openedAt, none⟩,
    { w with
      cases := w.cases ++ [⟨id, accountId, .open, none, none, none, none, openedAt, none⟩]
      accounts := (w.setStatus accountId .recoveryReview).accounts
      statuses := w.statuses ++ [(id, .open)] })

def RecoveryCase.isOpen (caseId : CaseId) (c : RecoveryCase) : Bool := c.id = caseId ∧ c.status = .open

def RecoveryCase.isReviewable (caseId : CaseId) (c : RecoveryCase) : Bool :=
  c.isOpen caseId ∧ c.reviewedByPrimary = none ∧ c.freshDiditVerificationRef ≠ none

def RecoveryCase.isDecidable (caseId : CaseId) (reviewer : AccountId) (c : RecoveryCase) : Bool :=
  c.isOpen caseId ∧ c.reviewedByPrimary ≠ none ∧ c.reviewedByPrimary ≠ some reviewer

def RecoveryCase.isApproved (caseId : CaseId) (c : RecoveryCase) : Bool := c.id = caseId ∧ c.status = .approved

/-- `updateMany` on the cases. -/
def rewriteCases (rows : RecoveryCase → Bool) (set : RecoveryCase → RecoveryCase) (cases : List RecoveryCase) :
    List RecoveryCase :=
  cases.map fun c => if rows c then set c else c

def recordDiditSession (caseId : CaseId) (diditReference : DiditReference) (w : World) : Option RecoveryCase × World :=
  match w.cases.find? (RecoveryCase.isOpen caseId) with
  | none => (none, w)
  | some c => (some { c with freshDiditVerificationRef := some diditReference },
      { w with
        cases := rewriteCases (RecoveryCase.isOpen caseId)
          (fun c => { c with freshDiditVerificationRef := some diditReference }) w.cases })

def recordPrimaryReview (caseId : CaseId) (reviewer : AccountId) (w : World) : Option RecoveryCase × World :=
  match w.cases.find? (RecoveryCase.isReviewable caseId) with
  | none => (none, w)
  | some c => (some { c with reviewedByPrimary := some reviewer },
      { w with
        cases := rewriteCases (RecoveryCase.isReviewable caseId)
          (fun c => { c with reviewedByPrimary := some reviewer }) w.cases
        reviews := w.reviews ++ [⟨caseId, reviewer, c.freshDiditVerificationRef⟩] })

def RecoveryCase.decide (decision : Decision) (reviewer : AccountId) (decidedAt : ℤ) (c : RecoveryCase) :
    RecoveryCase :=
  { c with status := decision.caseStatus, reviewedBySecondary := some reviewer, resolvedAt := some decidedAt }

def decideCase (caseId : CaseId) (reviewer : AccountId) (decision : Decision) (decidedAt : ℤ) (w : World) :
    Option RecoveryCase × World :=
  match w.cases.find? (RecoveryCase.isDecidable caseId reviewer) with
  | none => (none, w)
  | some c =>
    (some (c.decide decision reviewer decidedAt),
      { w with
        cases := rewriteCases (RecoveryCase.isDecidable caseId reviewer)
          (RecoveryCase.decide decision reviewer decidedAt) w.cases
        statuses := w.statuses ++ [(caseId, decision.caseStatus)]
        rulings := w.rulings ++ [⟨caseId, reviewer, decision, c.freshDiditVerificationRef⟩] })

def completeCase (caseId : CaseId) (cooldownEndsAt : ℤ) (w : World) : Option RecoveryCase × World :=
  match w.cases.find? (RecoveryCase.isApproved caseId) with
  | none => (none, w)
  | some c => (some { c with status := .completed, cooldownEndsAt := some cooldownEndsAt },
      { w with
        cases := rewriteCases (RecoveryCase.isApproved caseId)
          (fun c => { c with status := .completed, cooldownEndsAt := some cooldownEndsAt }) w.cases
        accounts := (w.setStatus c.accountId .active).accounts
        statuses := w.statuses ++ [(caseId, .completed)] })

def activeDevices (accountId : AccountId) (w : World) : List DeviceId :=
  (w.devices.filter fun d => d.accountId = accountId ∧ d.active).map Device.deviceId

def revokeDevicesForRecovery (caseId : CaseId) (accountId : AccountId) (w : World) : List DeviceId × World :=
  (activeDevices accountId w, { w with
    devices := w.devices.map fun d => if d.accountId = accountId ∧ d.active then { d with active := false } else d
    revocations := w.revocations ++ (activeDevices accountId w).map (Revocation.mk caseId) })

/-- The roles go, and the account is closed. -/
def completeOffboarding (accountId : AccountId) (w : World) : World :=
  { w with
    accounts := w.accounts.map fun a =>
      if a.id = accountId then { a with status := .suspendedRestricted, isStaff := false } else a
    closed := w.closed ++ [accountId] }

def setUser (userId : UserId) (set : AuthUser → AuthUser) (w : World) : World :=
  { w with users := w.users.map fun u => if u.id = userId then set u else u }

def deleteUserSessions (userId : UserId) (w : World) : World :=
  { w with sessions := w.sessions.filter fun s => s.userId ≠ userId }

def consume (challenge : Challenge) (dpopJkt : Jkt) (deviceId : DeviceId) (w : World) : Bool × World :=
  (w.challenges.any (DeviceChallenge.consumable .login challenge dpopJkt deviceId w.now), { w with
    challenges := w.challenges.map fun r =>
      if r.consumable .login challenge dpopJkt deviceId w.now then { r with consumedAt := some w.now } else r })

def challengeReplayWindowMs : ℤ := 120000

def wasConsumedWithinReplayWindow (challenge : Challenge) (dpopJkt : Jkt) (deviceId : DeviceId) (w : World) : Bool :=
  w.challenges.any (DeviceChallenge.consumedSince .login challenge dpopJkt deviceId (w.now - challengeReplayWindowMs))

def deviceSessionAbsoluteLifetimeMs : ℤ := 1800000

def deviceSession (id : SessionId) (userId : UserId) (dpopJkt : Jkt) (device : DeviceId) (createdAt : ℤ) :
    AuthSession :=
  ⟨id, userId, .deviceBiometric, some dpopJkt, createdAt, createdAt + deviceSessionAbsoluteLifetimeMs, some device⟩

/-- `fault` makes the call throw, after it took effect or without effect. `id` is
drawn for a new row, `reference` by the identity provider, `valid` answers a
signature check. -/
structure Choice where
  fault : Option Bool
  id : Nat
  pick : Nat
  reference : DiditReference
  valid : Bool

/-- Row ids are never drawn twice. -/
def Op.run (c : Choice) (w : World) : (op : Op) → Option (op.Out × World)
  | .clock => some (w.now, w)
  | .findTarget accountId => some (w.accounts.find? fun a => a.id = accountId, w)
  | .findPendingForAccount accountId => some (AccountLifecycle.findPendingForAccount c.pick accountId w, w)
  | .findRequest requestId => some (w.requests.find? fun r => r.id = requestId, w)
  | .createRequest accountId reason requestedAt =>
    if (w.requests.any fun r => r.id = c.id) = true then none
    else some (AccountLifecycle.createRequest c.id accountId reason requestedAt,
      { w with requests := w.requests ++ [AccountLifecycle.createRequest c.id accountId reason requestedAt] })
  | .cancel requestId accountId cancelledAt => some (AccountLifecycle.cancel requestId accountId cancelledAt w)
  | .decide requestId reviewer decision note decidedAt =>
    some (AccountLifecycle.decide requestId reviewer decision note decidedAt w)
  | .findTargetForRecovery accountId => some (w.accounts.find? fun a => a.id = accountId, w)
  | .findOpenCaseForAccount accountId => some (AccountLifecycle.findOpenCaseForAccount accountId w, w)
  | .findCase caseId => some (w.cases.find? fun r => r.id = caseId, w)
  | .openCase accountId openedAt =>
    if (w.cases.any fun r => r.id = c.id) = true then none
    else some (AccountLifecycle.openCase c.id accountId openedAt w)
  | .createDiditSession _ => some (c.reference, w)
  | .recordDiditSession caseId diditReference => some (AccountLifecycle.recordDiditSession caseId diditReference w)
  | .recordPrimaryReview caseId reviewer => some (AccountLifecycle.recordPrimaryReview caseId reviewer w)
  | .decideCase caseId reviewer decision decidedAt =>
    some (AccountLifecycle.decideCase caseId reviewer decision decidedAt w)
  | .completeCase caseId cooldownEndsAt => some (AccountLifecycle.completeCase caseId cooldownEndsAt w)
  | .revokeDevicesForRecovery caseId accountId => some (AccountLifecycle.revokeDevicesForRecovery caseId accountId w)
  | .recordRecoveryAuditEvent .. => some ((), w)
  | .sendEmail .. => some ((), w)
  | .issuePasskeyBootstrap _ => some ((), w)
  | .completeOffboarding accountId => some ((), AccountLifecycle.completeOffboarding accountId w)
  | .findUserById userId => some (w.users.find? fun u => u.id = userId, w)
  | .setRecoveryRequiredAt userId at? => some ((), setUser userId (fun u => { u with recoveryRequiredAt := at? }) w)
  | .setDisabledAt userId disabledAt => some ((), setUser userId (fun u => { u with disabledAt := some disabledAt }) w)
  | .listSessions userId => some (w.sessions.filter fun s => s.userId = userId, w)
  | .deleteUserSessions userId => some ((), AccountLifecycle.deleteUserSessions userId w)
  | .deleteSession sessionId => some ((), { w with sessions := w.sessions.filter fun s => s.id ≠ sessionId })
  | .requireDpopProofForSessionCreation => some ((), w)
  | .findByDpopJkt dpopJkt => some (w.devices.find? fun d => d.dpopJkt = dpopJkt ∧ d.active, w)
  | .consume challenge dpopJkt deviceId => some (AccountLifecycle.consume challenge dpopJkt deviceId w)
  | .wasConsumedWithinReplayWindow challenge dpopJkt deviceId =>
    some (AccountLifecycle.wasConsumedWithinReplayWindow challenge dpopJkt deviceId w, w)
  | .verifyDeviceAuthJws _ => some (c.valid, w)
  | .touchLastSeen deviceId lastSeenAt => some ((), { w with
      devices := w.devices.map fun d =>
        if d.deviceId = deviceId then { d with lastSeenAt := some lastSeenAt } else d })
  | .findByBetterAuthUserId userId => some (w.accounts.find? fun a => a.betterAuthUserId = userId, w)
  | .insertSession userId dpopJkt device =>
    if (w.sessions.any fun s => s.id = c.id) = true then none
    else some (deviceSession c.id userId dpopJkt device w.now, { w with
      sessions := w.sessions ++ [deviceSession c.id userId dpopJkt device w.now]
      logins := w.logins ++ [device] })
  | .setSessionCookie => some ((), w)

def exec (_ : Nat) (op : Op) (c : Choice) (w : World) : Option (Except Failure op.Out × World) :=
  (op.run c w).map fun r => match c.fault with
    | none => (.ok r.1, r.2)
    | some applied => (.error .fault, if applied then r.2 else w)

/-- The clock moves on, a login challenge is issued, and a session is created by
another way of signing in. -/
inductive Event where
  | tick (ms : ℤ)
  | issue (challenge : Challenge) (dpopJkt : Jkt) (deviceId : DeviceId) (ttlMs : ℤ)
  | signIn (id : SessionId) (userId : UserId) (authenticationLevel : AuthenticationLevel) (dpopJkt : Option Jkt)
      (expiresAt : ℤ)

def env : Event → World → Option World
  | .tick ms, w => if 0 ≤ ms then some { w with now := w.now + ms } else none
  | .issue challenge dpopJkt deviceId ttlMs, w =>
    if (w.challenges.any fun r => r.challenge = challenge) = true then none
    else some { w with challenges := w.challenges ++ [⟨challenge, .login, dpopJkt, deviceId, w.now + ttlMs, none⟩] }
  | .signIn id userId authenticationLevel dpopJkt expiresAt, w =>
    if (w.sessions.any fun s => s.id = id) = true then none
    else some { w with sessions := w.sessions ++ [⟨id, userId, authenticationLevel, dpopJkt, w.now, expiresAt, none⟩] }

abbrev Run := Prog Failure Op Op.Out

def invoke (op : Op) : Run op.Out := Prog.perform op

/-- A call whose failure is only logged. -/
def attempt (p : Run Unit) : Run Unit := Prog.catchWith p fun _ => .ret ()

def assertCustomerUser : Option AuthUser → Run AuthUser
  | none => .fail .customerAccountTargetInvalid
  | some user => if user.population = .staffPartner then .fail .customerAccountTargetInvalid else .ret user

def assertStaffUser : Option AuthUser → Run AuthUser
  | none => .fail .staffAccountTargetInvalid
  | some user => if user.population = .staffPartner then .ret user else .fail .staffAccountTargetInvalid

def revokeAllSessions (userId : UserId) : Run Unit := do
  let user ← invoke (.findUserById userId)
  let _ ← assertCustomerUser user
  let now ← invoke .clock
  invoke (.setRecoveryRequiredAt userId (some now))
  invoke (.deleteUserSessions userId)

def revokeSessionsForRecoveryCompletion (userId : UserId) : Run Unit := do
  let user ← invoke (.findUserById userId)
  let _ ← assertCustomerUser user
  let _ ← invoke (.listSessions userId)
  invoke (.deleteUserSessions userId)

def clearRecoveryRequired (userId : UserId) : Run Unit := do
  let user ← invoke (.findUserById userId)
  let _ ← assertCustomerUser user
  invoke (.setRecoveryRequiredAt userId none)

def sendRecoveryCompletionEmail (userId : UserId) : Run Unit := do
  let user ← invoke (.findUserById userId)
  let customerUser ← assertCustomerUser user
  invoke (.issuePasskeyBootstrap userId)
  invoke (.sendEmail .passkeyRecovery customerUser.email)

/-- A user disabled before keeps that date. -/
def disable (staffUser : AuthUser) (userId : UserId) (disabledAt : ℤ) : Run Unit :=
  match staffUser.disabledAt with
  | none => invoke (.setDisabledAt userId disabledAt)
  | some _ => .ret ()

def disableAndRevoke (userId : UserId) (disabledAt : ℤ) : Run Unit := do
  let user ← invoke (.findUserById userId)
  let staffUser ← assertStaffUser user
  disable staffUser userId disabledAt
  invoke (.deleteUserSessions userId)

def requestAccountClosure (accountId : AccountId) (reason : Option String) : Run ClosureRequest := do
  let target ← invoke (.findTarget accountId)
  match target with
  | none => .fail .closureTargetNotFound
  | some target =>
    if target.status ≠ .active then .fail .closureTargetNotActive
    else do
      let existing ← invoke (.findPendingForAccount accountId)
      match existing with
      | some _ => .fail .requestAlreadyPending
      | none => do
        let now ← invoke .clock
        invoke (.createRequest accountId reason now)

def cancelAccountClosure (accountId : AccountId) : Run ClosureRequest := do
  let pending ← invoke (.findPendingForAccount accountId)
  match pending with
  | none => .fail .noPendingRequest
  | some pending => do
    let now ← invoke .clock
    let cancelled ← invoke (.cancel pending.id accountId now)
    match cancelled with
    | none => .fail .noPendingRequest
    | some cancelled => return cancelled

/-- Live access is killed first. -/
def endAccess (accountId : AccountId) : Run Unit := do
  let target ← invoke (.findTarget accountId)
  match target with
  | none => .fail .closureTargetNotFound
  | some target => revokeAllSessions target.betterAuthUserId

def decideRequest (requestId : RequestId) (reviewer : AccountId) (decision : Decision) (note : Option String) :
    Run ClosureRequest := do
  let decidedAt ← invoke .clock
  let decided ← invoke (.decide requestId reviewer decision note decidedAt)
  match decided with
  | none => .fail .requestNotPending
  | some decided => return decided

def decideAccountClosureRequest (requestId : RequestId) (reviewer : AccountId) (decision : Decision)
    (note : Option String) : Run ClosureRequest := do
  let request ← invoke (.findRequest requestId)
  match request with
  | none => .fail .requestNotPending
  | some request =>
    if request.status ≠ .pending then .fail .requestNotPending
    else match decision with
      | .approved => do
        endAccess request.accountId
        decideRequest requestId reviewer decision note
      | .rejected => decideRequest requestId reviewer decision note

def recoveryCooldownMs : ℤ := 72 * 60 * 60 * 1000

/-- Best-effort notification. -/
def notify (email : Email) (contactEmail : Option Address) : Run Unit :=
  match contactEmail with
  | none => .ret ()
  | some address => attempt (invoke (.sendEmail email address))

def openAccountRecoveryCase (accountId : AccountId) : Run RecoveryCase := do
  let target ← invoke (.findTargetForRecovery accountId)
  match target with
  | none => .fail .recoveryTargetNotFound
  | some target =>
    if target.isStaff then .fail .recoveryTargetIsStaff
    else if target.status ≠ .active then .fail .recoveryTargetNotActive
    else do
      let existingOpenCase ← invoke (.findOpenCaseForAccount accountId)
      match existingOpenCase with
      | some _ => .fail .caseAlreadyOpen
      | none => do
        let openedAt ← invoke .clock
        revokeAllSessions target.betterAuthUserId
        let created ← invoke (.openCase accountId openedAt)
        notify .caseOpened target.contactEmail
        return created

def createRecoveryDiditSession (caseId : CaseId) : Run RecoveryCase := do
  let existingCase ← invoke (.findCase caseId)
  match existingCase with
  | none => .fail .caseNotOpen
  | some existingCase =>
    if existingCase.status ≠ .open then .fail .caseNotOpen
    else do
      let diditReference ← invoke (.createDiditSession existingCase.accountId)
      let updated ← invoke (.recordDiditSession caseId diditReference)
      match updated with
      | none => .fail .caseNotOpen
      | some updated => return updated

def recordPrimaryRecoveryReview (caseId : CaseId) (actor : AccountId) : Run RecoveryCase := do
  let updated ← invoke (.recordPrimaryReview caseId actor)
  match updated with
  | none => .fail .primaryReviewUnavailable
  | some updated => return updated

def decideAccountRecoveryCase (caseId : CaseId) (actor : AccountId) (decision : Decision) : Run RecoveryCase := do
  let existingCase ← invoke (.findCase caseId)
  match existingCase with
  | none => .fail .caseNotFound
  | some existingCase =>
    if existingCase.reviewedByPrimary = some actor then .fail .sameReviewer
    else do
      let now ← invoke .clock
      let updated ← invoke (.decideCase caseId actor decision now)
      match updated with
      | none => .fail .decisionUnavailable
      | some updated => do
        let target ← invoke (.findTargetForRecovery updated.accountId)
        notify (match decision with | .approved => .caseApproved | .rejected => .caseRejected)
          (target.bind Account.contactEmail)
        return updated

/-- The devices are revoked, every session is ended, and the flag is cleared;
whatever fails, the case remains approved. -/
def endCustomerDeviceAccess (caseId : CaseId) (accountId : AccountId) (userId : UserId) : Run Unit :=
  Prog.catchWith
    (do
      let _ ← invoke (.revokeDevicesForRecovery caseId accountId)
      revokeSessionsForRecoveryCompletion userId
      invoke (.recordRecoveryAuditEvent caseId "authentication.account_recovery_sessions_revoked")
      clearRecoveryRequired userId
      invoke (.recordRecoveryAuditEvent caseId "authentication.account_recovery_restriction_cleared"))
    fun _ => .fail .completionFailed

def notifyCustomer (caseId : CaseId) (contactEmail : Option Address) : Run Unit := do
  notify .deviceReenrolment contactEmail
  attempt (invoke (.recordRecoveryAuditEvent caseId "authentication.account_recovery_reenrolment_notice"))

def notifyCompleted (caseId : CaseId) (target : Account) : Run Unit :=
  if target.isStaff then notify .recoveryCompleted target.contactEmail
  else notifyCustomer caseId target.contactEmail

/-- What ends the customer's old access, or sends a staff member a new one. -/
def endOldAccess (caseId : CaseId) (target : Account) : Run Unit :=
  if target.isStaff then
    Prog.catchWith (sendRecoveryCompletionEmail target.betterAuthUserId) fun _ => .fail .completionDeliveryFailed
  else endCustomerDeviceAccess caseId target.id target.betterAuthUserId

def completeAccountRecovery (caseId : CaseId) : Run RecoveryCase := do
  let existingCase ← invoke (.findCase caseId)
  match existingCase with
  | none => .fail .caseNotApproved
  | some existingCase =>
    if existingCase.status ≠ .approved then .fail .caseNotApproved
    else do
      let target ← invoke (.findTargetForRecovery existingCase.accountId)
      match target with
      | none => .fail .caseNotApproved
      | some target => do
        let completedAt ← invoke .clock
        endOldAccess caseId target
        let updated ← invoke (.completeCase caseId (completedAt + recoveryCooldownMs))
        match updated with
        | none => .fail .caseNotApproved
        | some updated => do
          notifyCompleted caseId target
          return updated

def offboardStaffAccount (accountId actor : AccountId) : Run Unit :=
  if accountId = actor then .fail .selfActionForbidden
  else do
    let target ← invoke (.findTarget accountId)
    match target with
    | none => .fail .targetUnavailable
    | some target => do
      let completedAt ← invoke .clock
      disableAndRevoke target.betterAuthUserId completedAt
      invoke (.completeOffboarding target.id)

structure LoginInput where
  deviceId : Option DeviceId
  dpopJkt : Jkt
  challenge : Challenge

/-- `LoginDeviceService` past its lookup. -/
def verifyLogin (policy : List MobilePlatform) (input : LoginInput) (device : Device) : Run Device :=
  if (device.platform.any fun platform => policy.contains platform) = false then .fail .platformUnsupported
  else do
    let consumed ← invoke (.consume input.challenge input.dpopJkt device.deviceId)
    if consumed then do
      let verified ← invoke (.verifyDeviceAuthJws device.deviceId)
      if verified then do
        let now ← invoke .clock
        invoke (.touchLastSeen device.deviceId now)
        return device
      else .fail .deviceLoginFailed
    else do
      let recentlyUsed ← invoke (.wasConsumedWithinReplayWindow input.challenge input.dpopJkt device.deviceId)
      .fail (if recentlyUsed then .challengeReplayed else .challengeExpired)

def loginDevice (policy : List MobilePlatform) (input : LoginInput) : Run Device := do
  let device ← invoke (.findByDpopJkt input.dpopJkt)
  match device with
  | none => .fail .deviceLoginFailed
  | some device =>
    if device.active = false ∨ (input.deviceId.any fun id => id ≠ device.deviceId) = true then .fail .deviceLoginFailed
    else verifyLogin policy input device

/-- The session library's insert, behind the hook that looks at the user. -/
def createSession (device : Device) (dpopJkt : Jkt) : Run AuthSession := do
  let user ← invoke (.findUserById device.betterAuthUserId)
  if user.any (fun user => user.disabledAt.isSome) then .fail .staffAccountDisabled
  else if user.any (fun user => user.recoveryRequiredAt.isSome) then .fail .recoveryRequired
  else if user.any (fun user => user.population = .staffPartner) then .fail .staffPasskeyRequired
  else invoke (.insertSession device.betterAuthUserId dpopJkt device.deviceId)

def isNewer (a b : AuthSession) : Bool :=
  if a.createdAt ≠ b.createdAt then b.createdAt < a.createdAt else b.id < a.id

/-- Every live session of the device but the newest. -/
def sessionsToSupersede (sessions : List AuthSession) (dpopJkt : Jkt) (now : ℤ) : List AuthSession :=
  match sessions.filter fun s => s.authenticationLevel = .deviceBiometric ∧ s.dpopJkt = some dpopJkt ∧
    now < s.expiresAt with
  | [] => []
  | first :: rest =>
    let newest := rest.foldl (fun kept s => if isNewer s kept then s else kept) first
    (first :: rest).filter fun s => s.id ≠ newest.id

def supersedeEarlierDeviceSessions (userId : UserId) (dpopJkt : Jkt) : Run Unit := do
  let sessions ← invoke (.listSessions userId)
  let now ← invoke .clock
  (sessionsToSupersede sessions dpopJkt now).foldlM (fun _ earlier => attempt (invoke (.deleteSession earlier.id))) ()

def finishLogin (device : Device) (dpopJkt : Jkt) : Run Unit := do
  let user ← invoke (.findUserById device.betterAuthUserId)
  match user with
  | none => .fail .accountMappingMissing
  | some _ => do
    invoke .setSessionCookie
    attempt (supersedeEarlierDeviceSessions device.betterAuthUserId dpopJkt)

/-- The session of a ceremony that failed does not stay. -/
def discardCeremonySession (session : AuthSession) (error : Failure) : Run Unit := do
  attempt (invoke (.deleteSession session.id))
  .fail error

def loginVerify (policy : List MobilePlatform) (input : LoginInput) : Run Unit := do
  invoke .requireDpopProofForSessionCreation
  let device ← loginDevice policy input
  let account ← invoke (.findByBetterAuthUserId device.betterAuthUserId)
  match account with
  | none => .fail .accountRestricted
  | some account =>
    if account.status ≠ .active then .fail .accountRestricted
    else do
      let session ← createSession device input.dpopJkt
      Prog.catchWith (finishLogin device input.dpopJkt) (discardCeremonySession session)

inductive Job where
  | requestClosure (accountId : AccountId) (reason : Option String)
  | cancelClosure (accountId : AccountId)
  | decideClosure (requestId : RequestId) (reviewer : AccountId) (decision : Decision) (note : Option String)
  | openRecovery (accountId : AccountId)
  | createDiditSession (caseId : CaseId)
  | primaryReview (caseId : CaseId) (actor : AccountId)
  | decideRecovery (caseId : CaseId) (actor : AccountId) (decision : Decision)
  | completeRecovery (caseId : CaseId)
  | offboard (accountId actor : AccountId)
  | login (policy : List MobilePlatform) (input : LoginInput)

/-- The answer goes to the caller. -/
def answered {α : Type} (p : Run α) : Run Unit := p >>= fun _ => .ret ()

def Job.program : Job → Run Unit
  | .requestClosure accountId reason => answered (requestAccountClosure accountId reason)
  | .cancelClosure accountId => answered (cancelAccountClosure accountId)
  | .decideClosure requestId reviewer decision note =>
    answered (decideAccountClosureRequest requestId reviewer decision note)
  | .openRecovery accountId => answered (openAccountRecoveryCase accountId)
  | .createDiditSession caseId => answered (createRecoveryDiditSession caseId)
  | .primaryReview caseId actor => answered (recordPrimaryRecoveryReview caseId actor)
  | .decideRecovery caseId actor decision => answered (decideAccountRecoveryCase caseId actor decision)
  | .completeRecovery caseId => answered (completeAccountRecovery caseId)
  | .offboard accountId actor => offboardStaffAccount accountId actor
  | .login policy input => loginVerify policy input

def system : Semantics World Choice Event Job Failure Op Op.Out where
  exec := exec
  env := env
  job := Job.program

/-- Accounts with their users and devices; nothing has happened yet. -/
def World.start (now : ℤ) (accounts : List Account) (users : List AuthUser) (devices : List Device) : World :=
  ⟨now, accounts, users, [], [], devices, [], [], [], [], [], [], [], []⟩

theorem run_world (h : some p = some (a, w')) : w' = p.2 := by
  cases h
  rfl

theorem exec_inv
    (h : system.exec t op c w = some (r, w')) :
    ∃ a w₁, op.run c w = some (a, w₁) ∧ ((r = .ok a ∧ w' = w₁) ∨ (r = .error .fault ∧ (w' = w₁ ∨ w' = w))) := by
  obtain ⟨⟨a, w₁⟩, hrun, hr⟩ := Option.map_eq_some_iff.mp h
  refine ⟨a, w₁, hrun, ?_⟩
  split at hr
  · cases hr
    exact .inl ⟨rfl, rfl⟩
  · rename_i applied _
    cases hr
    cases applied with
    | true => exact .inr ⟨rfl, .inl rfl⟩
    | false => exact .inr ⟨rfl, .inr rfl⟩

end AccountLifecycle
