import Mathlib.Data.Int.Basic
import VistaBlox.Interleaving

/-!
# Device enrolment and its single-use challenges

Challenges, devices, and the enrolment that spends a challenge. Times are the database's, in
microseconds. A statement's `now()` is read when it starts and its effect is seen when it
commits, so the two are separate calls; so are the deadline check, which locks the
challenge, and the insert, which commits within a minute of it or not at all.

History: challenges issued, consumptions, those not yet committed, and the answers to
challenges that could not be consumed.
-/
namespace DeviceEnrolment

open Interleaving

abbrev Challenge := Nat
abbrev Jkt := Nat
abbrev AccountId := Nat
abbrev DeviceId := Nat

def milliseconds (n : ℤ) : ℤ := 1000 * n

def challengeReplayWindow : ℤ := milliseconds 120000

def enrolmentInsertDeadline : ℤ := milliseconds 60000

/-- What the statement, lock and idle timeouts leave the insert transaction
after its check, at the very most. -/
def transactionLifetime : ℤ := milliseconds 60000

inductive Purpose where
  | enrolDevice | login
  deriving DecidableEq, Repr

inductive MobilePlatform where
  | android | ios
  deriving DecidableEq, Repr

def androidOnlyMobilePlatformPolicy : List MobilePlatform := [.android]

structure DeviceChallenge where
  challenge : Challenge
  purpose : Purpose
  dpopJkt : Jkt
  deviceId : Option DeviceId
  expiresAt : ℤ
  consumedAt : Option ℤ
  deriving DecidableEq

/-- `challenge` is the one whose consumption the device was registered for. -/
structure Device where
  deviceId : DeviceId
  accountId : AccountId
  dpopJkt : Jkt
  active : Bool
  challenge : Challenge
  deriving DecidableEq

/-- `FOR SHARE` on a challenge, by the transaction of a thread. -/
structure Lock where
  thread : Nat
  challenge : Challenge
  since : ℤ
  deriving DecidableEq

/-- A consumption that has started but not committed. -/
structure Started where
  thread : Nat
  challenge : Challenge
  dpopJkt : Jkt
  startedAt : ℤ
  deriving DecidableEq

structure Consumption where
  challenge : Challenge
  consumedAt : ℤ
  deriving DecidableEq

inductive Verdict where
  | expired | replayed
  deriving DecidableEq, Repr

/-- When a challenge was presented, and whether it had been issued by then. -/
structure Presentation where
  challenge : Challenge
  presentedAt : ℤ
  known : Bool
  deriving DecidableEq

/-- The answer to an issued challenge that could not be consumed. -/
structure Answer where
  verdict : Verdict
  challenge : Challenge
  presentedAt : ℤ
  deriving DecidableEq

structure World where
  now : ℤ
  challenges : List DeviceChallenge
  devices : List Device
  locks : List Lock
  issued : List (Challenge × Jkt)
  consuming : List Started
  consumptions : List Consumption
  answers : List Answer

inductive Failure where
  | challengeExpired
  | challengeReplayed
  | alreadyEnrolled
  | platformUnsupported
  | fault
  deriving DecidableEq, Repr

inductive Op where
  | databaseNow
  | present (challenge : Challenge)
  | issue (challenge : Challenge) (purpose : Purpose) (dpopJkt : Jkt) (deviceId : Option DeviceId) (ttlSeconds : ℤ)
  | findActiveDeviceForAccount (accountId : AccountId)
  | findByDpopJkt (dpopJkt : Jkt)
  | startConsume (challenge : Challenge) (dpopJkt : Jkt)
  | consume (challenge : Challenge) (dpopJkt : Jkt) (now : ℤ)
  | wasConsumedWithinReplayWindow (challenge : Challenge) (dpopJkt : Jkt) (now : ℤ)
  | verifyDeviceAuthJws
  | verifyAttestation
  | checkInsertDeadline (challenge : Challenge) (dpopJkt : Jkt)
  | insertDevice (accountId : AccountId) (dpopJkt : Jkt) (challenge : Challenge)
  | finishCeremony
  | delete (deviceId : DeviceId)
  | pruneExpired (now : ℤ)
  | answer (verdict : Verdict) (presented : Presentation)

@[reducible] def Op.Out : Op → Type
  | .databaseNow => ℤ
  | .present _ => Presentation
  | .issue .. => ℤ
  | .findActiveDeviceForAccount _ => Option DeviceId
  | .findByDpopJkt _ => Option DeviceId
  | .startConsume .. => ℤ
  | .consume .. => Bool
  | .wasConsumedWithinReplayWindow .. => Bool
  | .verifyDeviceAuthJws => Unit
  | .verifyAttestation => Unit
  | .checkInsertDeadline .. => Bool
  | .insertDevice .. => DeviceId
  | .finishCeremony => Unit
  | .delete _ => Unit
  | .pruneExpired _ => Nat
  | .answer .. => Unit

/-- The rows a statement about a challenge selects. -/
def DeviceChallenge.isFor (purpose : Purpose) (challenge : Challenge) (dpopJkt : Jkt) (row : DeviceChallenge) : Bool :=
  row.challenge = challenge ∧ row.purpose = purpose ∧ row.dpopJkt = dpopJkt

/-- `consumed_at IS NULL AND expires_at > now()`, beside `device_id IS NOT DISTINCT FROM`. -/
def DeviceChallenge.consumable (purpose : Purpose) (challenge : Challenge) (dpopJkt : Jkt) (deviceId : Option DeviceId)
    (now : ℤ) (row : DeviceChallenge) : Bool :=
  row.isFor purpose challenge dpopJkt ∧ row.deviceId = deviceId ∧ row.consumedAt = none ∧ now < row.expiresAt

/-- `consumed_at >= …`, of the rows that `consume` looks for. -/
def DeviceChallenge.consumedSince (purpose : Purpose) (challenge : Challenge) (dpopJkt : Jkt)
    (deviceId : Option DeviceId) (since : ℤ) (row : DeviceChallenge) : Bool :=
  row.isFor purpose challenge dpopJkt ∧ row.deviceId = deviceId ∧ row.consumedAt.any (since ≤ ·)

/-- `expires_at < now() - interval` -/
def DeviceChallenge.prunable (now : ℤ) (row : DeviceChallenge) : Bool := row.expiresAt < now - challengeReplayWindow

def Lock.live (now : ℤ) (l : Lock) : Bool := now < l.since + transactionLifetime

def present (challenge : Challenge) (w : World) : Presentation :=
  ⟨challenge, w.now, w.issued.any fun i => i.1 = challenge⟩

/-- Only the presentation of an issued challenge can be a replay. -/
def answer (verdict : Verdict) (presented : Presentation) (w : World) : World :=
  if presented.known then { w with answers := w.answers ++ [⟨verdict, presented.challenge, presented.presentedAt⟩] }
  else w

/-- A challenge is 256 random bits: none is drawn twice. -/
def issue (challenge : Challenge) (purpose : Purpose) (dpopJkt : Jkt) (deviceId : Option DeviceId)
    (ttlSeconds : ℤ) (w : World) : Option (ℤ × World) :=
  if (w.issued.any fun i => i.1 = challenge) = true then none
  else
    let expiresAt := w.now + milliseconds (1000 * ttlSeconds)
    some (expiresAt, { w with
      challenges := w.challenges ++ [⟨challenge, purpose, dpopJkt, deviceId, expiresAt, none⟩]
      issued := w.issued ++ [(challenge, dpopJkt)] })

def findActiveDeviceForAccount (accountId : AccountId) (w : World) : Option DeviceId :=
  (w.devices.find? fun d => d.accountId = accountId ∧ d.active).map Device.deviceId

def findByDpopJkt (dpopJkt : Jkt) (w : World) : Option DeviceId :=
  (w.devices.find? fun d => d.dpopJkt = dpopJkt ∧ d.active).map Device.deviceId

def startConsume (t : Nat) (challenge : Challenge) (dpopJkt : Jkt) (w : World) : World :=
  { w with consuming := w.consuming ++ [⟨t, challenge, dpopJkt, w.now⟩] }

/-- The statement commits: it takes effect on the row as it is then, with the
`now()` of its start. -/
def consume (t : Nat) (challenge : Challenge) (dpopJkt : Jkt) (now : ℤ) (w : World) : Bool × World :=
  if (w.challenges.any (DeviceChallenge.consumable .enrolDevice challenge dpopJkt none now)) = true then
    (true, { w with
      challenges := w.challenges.map fun row =>
        if row.consumable .enrolDevice challenge dpopJkt none now then { row with consumedAt := some now } else row
      consuming := w.consuming.filter fun p => p.thread ≠ t
      consumptions := w.consumptions ++ [⟨challenge, now⟩] })
  else (false, { w with consuming := w.consuming.filter fun p => p.thread ≠ t })

def wasConsumedWithinReplayWindow (challenge : Challenge) (dpopJkt : Jkt) (now : ℤ) (w : World) : Bool :=
  w.challenges.any (DeviceChallenge.consumedSince .enrolDevice challenge dpopJkt none (now - challengeReplayWindow))

/-- `consumed_at > clock_timestamp() - interval … FOR SHARE` -/
def checkInsertDeadline (t : Nat) (challenge : Challenge) (dpopJkt : Jkt) (w : World) : Bool × World :=
  if (w.challenges.any fun row => row.isFor .enrolDevice challenge dpopJkt ∧
      row.consumedAt.any fun consumedAt => w.now - enrolmentInsertDeadline < consumedAt) = true then
    (true, { w with locks := (w.locks.filter fun l => l.thread ≠ t) ++ [⟨t, challenge, w.now⟩] })
  else (false, w)

/-- The insert, under the two unique indexes and the primary key, and the commit. -/
def insertDevice (t : Nat) (fresh : DeviceId) (accountId : AccountId) (dpopJkt : Jkt) (challenge : Challenge)
    (w : World) : Except Failure DeviceId × World :=
  let released := { w with locks := w.locks.filter fun l => l.thread ≠ t }
  if (w.locks.any fun l => l.thread = t ∧ l.challenge = challenge ∧ l.live w.now) = false then (.error .fault,
    released)
  else if (w.devices.any fun d => d.deviceId = fresh) = true then (.error .fault, released)
  else if (w.devices.any fun d => d.active ∧ (d.accountId = accountId ∨ d.dpopJkt = dpopJkt)) = true then
    (.error .alreadyEnrolled, released)
  else (.ok fresh, { released with devices := w.devices ++ [⟨fresh, accountId, dpopJkt, true, challenge⟩] })

/-- The delete waits for whoever holds one of its rows. -/
def pruneExpired (now : ℤ) (w : World) : Option (Nat × World) :=
  if (w.challenges.any fun row => row.prunable now ∧
      w.locks.any fun l => l.challenge = row.challenge ∧ l.live w.now) = true then none
  else some ((w.challenges.filter (DeviceChallenge.prunable now)).length,
    { w with challenges := w.challenges.filter fun row => !row.prunable now })

/-- `fault` makes the call throw, after it took effect or without effect. -/
structure Choice where
  fault : Option Bool
  fresh : DeviceId

def Op.run (t : Nat) (c : Choice) (w : World) : (op : Op) → Option (Except Failure op.Out × World)
  | .databaseNow => some (.ok w.now, w)
  | .present challenge => some (.ok (DeviceEnrolment.present challenge w), w)
  | .issue challenge purpose dpopJkt deviceId ttlSeconds =>
    (DeviceEnrolment.issue challenge purpose dpopJkt deviceId ttlSeconds w).map fun r => (.ok r.1, r.2)
  | .findActiveDeviceForAccount accountId => some (.ok (DeviceEnrolment.findActiveDeviceForAccount accountId w), w)
  | .findByDpopJkt dpopJkt => some (.ok (DeviceEnrolment.findByDpopJkt dpopJkt w), w)
  | .startConsume challenge dpopJkt => some (.ok w.now, DeviceEnrolment.startConsume t challenge dpopJkt w)
  | .consume challenge dpopJkt now =>
    let r := DeviceEnrolment.consume t challenge dpopJkt now w
    some (.ok r.1, r.2)
  | .wasConsumedWithinReplayWindow challenge dpopJkt now =>
    some (.ok (DeviceEnrolment.wasConsumedWithinReplayWindow challenge dpopJkt now w), w)
  | .verifyDeviceAuthJws => some (.ok (), w)
  | .verifyAttestation => some (.ok (), w)
  | .checkInsertDeadline challenge dpopJkt =>
    let r := DeviceEnrolment.checkInsertDeadline t challenge dpopJkt w
    some (.ok r.1, r.2)
  | .insertDevice accountId dpopJkt challenge =>
    some (DeviceEnrolment.insertDevice t c.fresh accountId dpopJkt challenge w)
  | .finishCeremony => some (.ok (), w)
  | .delete deviceId => some (.ok (), { w with devices := w.devices.filter fun d => d.deviceId ≠ deviceId })
  | .pruneExpired now => (DeviceEnrolment.pruneExpired now w).map fun r => (.ok r.1, r.2)
  | .answer verdict presented => some (.ok (), DeviceEnrolment.answer verdict presented w)

def exec (t : Nat) (op : Op) (c : Choice) (w : World) : Option (Except Failure op.Out × World) :=
  (op.run t c w).map fun r => match c.fault with
    | none => r
    | some applied => (.error .fault, if applied then r.2 else w)

/-- The clock moves on, and a device is revoked. -/
inductive Event where
  | tick (us : ℤ)
  | revoke (deviceId : DeviceId)

def env : Event → World → Option World
  | .tick us, w => if 0 ≤ us then some { w with now := w.now + us } else none
  | .revoke deviceId, w => some { w with
      devices := w.devices.map fun d => if d.deviceId = deviceId then { d with active := false } else d }

abbrev Run := Prog Failure Op Op.Out

def invoke (op : Op) : Run op.Out := Prog.perform op

structure EnrolDeviceInput where
  accountId : AccountId
  dpopJkt : Jkt
  challenge : Challenge
  platform : Option MobilePlatform

def isMobilePlatformSupported (policy : List MobilePlatform) : Option MobilePlatform → Bool
  | some platform => platform ∈ policy
  | none => false

/-- One answer, and the error that goes with it. -/
def refuse {α : Type} (verdict : Verdict) (presented : Presentation) : Run α := do
  invoke (.answer verdict presented)
  match verdict with
  | .expired => .fail .challengeExpired
  | .replayed => .fail .challengeReplayed

/-- `findByDpopJkt(…) ?? findActiveDeviceForAccount(…)` -/
def findRegistered (input : EnrolDeviceInput) : Run (Option DeviceId) := do
  let byKey ← invoke (.findByDpopJkt input.dpopJkt)
  match byKey with
  | some deviceId => return some deviceId
  | none => invoke (.findActiveDeviceForAccount input.accountId)

def throwForUnusableChallenge {α : Type} (input : EnrolDeviceInput) (presented : Presentation) : Run α := do
  let now ← invoke .databaseNow
  let recentlyUsed ← invoke (.wasConsumedWithinReplayWindow input.challenge input.dpopJkt now)
  if recentlyUsed then refuse .replayed presented
  else do
    let registered ← findRegistered input
    match registered with
    | some _ => .fail .alreadyEnrolled
    | none => refuse .expired presented

/-- The repository's `create`. -/
def create (input : EnrolDeviceInput) : Run DeviceId := do
  let fresh ← invoke (.checkInsertDeadline input.challenge input.dpopJkt)
  if fresh then invoke (.insertDevice input.accountId input.dpopJkt input.challenge)
  else .fail .challengeExpired

/-- What follows the consumption. -/
def register (input : EnrolDeviceInput) : Run DeviceId := do
  invoke .verifyDeviceAuthJws
  let alreadyEnrolled ← invoke (.findByDpopJkt input.dpopJkt)
  match alreadyEnrolled with
  | some _ => .fail .alreadyEnrolled
  | none => do
    invoke .verifyAttestation
    create input

def execute (policy : List MobilePlatform) (input : EnrolDeviceInput) : Run DeviceId := do
  let presented ← invoke (.present input.challenge)
  if isMobilePlatformSupported policy input.platform then do
    let existing ← invoke (.findActiveDeviceForAccount input.accountId)
    match existing with
    | some _ => .fail .alreadyEnrolled
    | none => do
      let now ← invoke (.startConsume input.challenge input.dpopJkt)
      let consumed ← invoke (.consume input.challenge input.dpopJkt now)
      if consumed then register input else throwForUnusableChallenge input presented
  else .fail .platformUnsupported

/-- The device is rolled back if the session that goes with it cannot be made. -/
def enrolVerify (policy : List MobilePlatform) (input : EnrolDeviceInput) : Run Unit := do
  let deviceId ← execute policy input
  Prog.catchWith (invoke .finishCeremony) fun e =>
    Prog.bind (Prog.catchWith (invoke (.delete deviceId)) fun _ => .ret ()) fun _ => .fail e

inductive Job where
  | issue (challenge : Challenge) (purpose : Purpose) (dpopJkt : Jkt) (deviceId : Option DeviceId) (ttlSeconds : ℤ)
  | enrolVerify (policy : List MobilePlatform) (input : EnrolDeviceInput)
  | deviceChallengePrune

def Job.program : Job → Run Unit
  | .issue challenge purpose dpopJkt deviceId ttlSeconds => do
    let _ ← invoke (.issue challenge purpose dpopJkt deviceId ttlSeconds)
  | .enrolVerify policy input => DeviceEnrolment.enrolVerify policy input
  | .deviceChallengePrune => do
    let now ← invoke .databaseNow
    let _ ← invoke (.pruneExpired now)

def system : Semantics World Choice Event Job Failure Op Op.Out where
  exec := exec
  env := env
  job := Job.program

end DeviceEnrolment
