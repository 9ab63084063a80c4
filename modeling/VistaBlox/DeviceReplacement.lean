import Mathlib.Data.Int.Basic
import VistaBlox.Interleaving

/-!
# Self-service device replacement

A customer asks for a code by email and spends it to have the devices revoked. Each call of
a service is one atomic step and may throw, with or without effect. One clock, in
milliseconds.

History: completed replacements, requests refused for the cooldown, and comparisons of
codes. A count of codes also answers how many there are in all, and a comparison how many
wrong ones went before; the later write carries that number along.
-/
namespace DeviceReplacement

open Interleaving

abbrev AccountId := Nat
abbrev SessionId := Nat
abbrev CodeId := Nat
abbrev DeviceId := Nat
abbrev Code := Nat
abbrev Hash := Nat

structure DeviceReplacementConfig where
  codeTtlMs : ℤ
  maxAttempts : Nat
  cooldownMs : ℤ
  requestWindowMs : ℤ
  maxRequestsPerWindow : Nat

structure DeviceReplacementTarget where
  contactEmail : Option Nat
  isStaff : Bool

structure DeviceReplacementCode where
  id : CodeId
  accountId : AccountId
  sessionId : Option SessionId
  codeHash : Hash
  expiresAt : ℤ
  attemptsUsed : Nat
  consumedAt : Option ℤ
  createdAt : ℤ
  deriving DecidableEq

structure Device where
  deviceId : DeviceId
  accountId : AccountId
  active : Bool
  deriving DecidableEq

/-- A completed replacement. -/
structure Replacement where
  accountId : AccountId
  codeId : CodeId
  completedAt : ℤ
  wrongBefore : Nat
  deriving DecidableEq

/-- A request refused for the cooldown. -/
structure CooldownRefusal where
  accountId : AccountId
  refusedAt : ℤ
  deriving DecidableEq

structure Comparison where
  codeId : CodeId
  equal : Bool
  deriving DecidableEq

structure World where
  now : ℤ
  codes : List DeviceReplacementCode
  devices : List Device
  deviceKeyMethods : List AccountId
  comparisons : List Comparison
  replacements : List Replacement
  cooldownRefusals : List CooldownRefusal

inductive Failure where
  | targetNotFound
  | targetIsStaff
  | cooldown
  | requestRateLimited
  | codeInvalid
  | fault
  deriving DecidableEq, Repr

inductive Op where
  | clock
  | findReplacementTarget (accountId : AccountId)
  | recordAuditEvent (accountId : AccountId) (action : String) (occurredAt : ℤ)
  | findLastConsumedAt (accountId : AccountId)
  | refuseForCooldown (accountId : AccountId) (now : ℤ)
  | countCreatedSince (accountId : AccountId) (since : ℤ)
  | generateCode
  | revokePendingForAccount (accountId : AccountId) (now : ℤ)
  | create (accountId : AccountId) (sessionId : SessionId) (codeHash : Hash) (expiresAt : ℤ) (asOf : Nat)
  | sendDeviceReplacementCodeEmail (email : Nat) (code : Code)
  | findPendingForAccount (accountId : AccountId) (now : ℤ)
  | safeCodeEquals (codeId : CodeId) (submittedHash codeHash : Hash)
  | incrementAttempts (codeId : CodeId) (now : ℤ)
  | consumeAndReplace (codeId : CodeId) (codeHash : Hash) (now : ℤ) (maxAttempts : Nat) (accountId : AccountId)
      (wrongBefore : Nat)

@[reducible] def Op.Out : Op → Type
  | .clock => ℤ
  | .findReplacementTarget _ => Option DeviceReplacementTarget
  | .recordAuditEvent .. => Unit
  | .findLastConsumedAt _ => Option ℤ
  | .refuseForCooldown .. => Unit
  | .countCreatedSince .. => Nat × Nat
  | .generateCode => Code
  | .revokePendingForAccount .. => Unit
  | .create .. => Unit
  | .sendDeviceReplacementCodeEmail .. => Unit
  | .findPendingForAccount .. => Option DeviceReplacementCode
  | .safeCodeEquals .. => Bool × Nat
  | .incrementAttempts .. => Unit
  | .consumeAndReplace .. => Bool

def DeviceReplacementCode.unconsumed (accountId : AccountId) (code : DeviceReplacementCode) : Bool :=
  code.accountId = accountId ∧ code.consumedAt = none

/-- Unconsumed and unexpired. -/
def DeviceReplacementCode.pending (accountId : AccountId) (now : ℤ) (code : DeviceReplacementCode) : Bool :=
  code.unconsumed accountId ∧ now < code.expiresAt

def codesOf (accountId : AccountId) (w : World) : Nat := w.codes.countP fun code => code.accountId = accountId

/-- The largest `consumed_at` of the account. -/
def findLastConsumedAt (accountId : AccountId) (w : World) : Option ℤ :=
  ((w.codes.filter fun code => code.accountId = accountId).filterMap DeviceReplacementCode.consumedAt).max?

def countCreatedSince (accountId : AccountId) (since : ℤ) (w : World) : Nat :=
  w.codes.countP fun code => code.accountId = accountId ∧ since ≤ code.createdAt

def revokePendingForAccount (accountId : AccountId) (now : ℤ) (w : World) : World :=
  { w with codes := w.codes.map fun code =>
      if code.unconsumed accountId then { code with consumedAt := some now } else code }

def create (id : CodeId) (accountId : AccountId) (sessionId : SessionId) (codeHash : Hash) (expiresAt : ℤ)
    (w : World) : World :=
  { w with codes := w.codes ++ [⟨id, accountId, some sessionId, codeHash, expiresAt, 0, none, w.now⟩] }

/-- A newest one; the world picks among codes of one instant. -/
def findPendingForAccount (pick : Nat) (accountId : AccountId) (now : ℤ) (w : World) : Option DeviceReplacementCode :=
  let pending := w.codes.filter (DeviceReplacementCode.pending accountId now)
  let newest := pending.filter fun code => pending.all fun other => other.createdAt ≤ code.createdAt
  (newest.drop (pick % newest.length)).head?

def wrongComparisons (codeId : CodeId) (w : World) : Nat :=
  w.comparisons.countP fun c => c.codeId = codeId ∧ c.equal = false

def safeCodeEquals (codeId : CodeId) (submittedHash codeHash : Hash) (w : World) : (Bool × Nat) × World :=
  let equal := decide (submittedHash = codeHash)
  ((equal, wrongComparisons codeId w), { w with comparisons := w.comparisons ++ [⟨codeId, equal⟩] })

def incrementAttempts (codeId : CodeId) (now : ℤ) (w : World) : World :=
  { w with codes := w.codes.map fun code =>
      if code.id = codeId ∧ code.consumedAt = none ∧ now < code.expiresAt then
        { code with attemptsUsed := code.attemptsUsed + 1 }
      else code }

def DeviceReplacementCode.spendable (codeId : CodeId) (codeHash : Hash) (now : ℤ) (maxAttempts : Nat)
    (code : DeviceReplacementCode) : Bool :=
  code.id = codeId ∧ code.codeHash = codeHash ∧ code.consumedAt = none ∧ now < code.expiresAt ∧
    code.attemptsUsed < maxAttempts

/-- The code is spent, the account's devices are revoked and its device keys
removed from the login methods, in one transaction. -/
def consumeAndReplace (codeId : CodeId) (codeHash : Hash) (now : ℤ) (maxAttempts : Nat) (accountId : AccountId)
    (wrongBefore : Nat) (w : World) : Bool × World :=
  if (w.codes.any (DeviceReplacementCode.spendable codeId codeHash now maxAttempts)) = true then
    (true, { w with
      codes := w.codes.map fun code =>
        if code.spendable codeId codeHash now maxAttempts then { code with consumedAt := some now } else code
      devices := w.devices.map fun d => if d.accountId = accountId then { d with active := false } else d
      deviceKeyMethods := w.deviceKeyMethods.filter fun a => a ≠ accountId
      replacements := w.replacements ++ [⟨accountId, codeId, now, wrongBefore⟩] })
  else (false, w)

/-- `fault` makes the call throw, after it took effect or without effect. -/
structure Choice where
  fault : Option Bool
  target : Option DeviceReplacementTarget
  code : Code
  codeId : CodeId
  pick : Nat

/-- Row ids are never drawn twice. -/
def Op.run (c : Choice) (w : World) : (op : Op) → Option (op.Out × World)
  | .clock => some (w.now, w)
  | .findReplacementTarget _ => some (c.target, w)
  | .recordAuditEvent .. => some ((), w)
  | .findLastConsumedAt accountId => some (DeviceReplacement.findLastConsumedAt accountId w, w)
  | .refuseForCooldown accountId now =>
    some ((), { w with cooldownRefusals := w.cooldownRefusals ++ [⟨accountId, now⟩] })
  | .countCreatedSince accountId since =>
    some ((DeviceReplacement.countCreatedSince accountId since w, codesOf accountId w), w)
  | .generateCode => some (c.code, w)
  | .revokePendingForAccount accountId now => some ((), DeviceReplacement.revokePendingForAccount accountId now w)
  | .create accountId sessionId codeHash expiresAt _ =>
    if (w.codes.any fun code => code.id = c.codeId) = true then none
    else some ((), DeviceReplacement.create c.codeId accountId sessionId codeHash expiresAt w)
  | .sendDeviceReplacementCodeEmail .. => some ((), w)
  | .findPendingForAccount accountId now => some (DeviceReplacement.findPendingForAccount c.pick accountId now w, w)
  | .safeCodeEquals codeId submittedHash codeHash =>
    some (DeviceReplacement.safeCodeEquals codeId submittedHash codeHash w)
  | .incrementAttempts codeId now => some ((), DeviceReplacement.incrementAttempts codeId now w)
  | .consumeAndReplace codeId codeHash now maxAttempts accountId wrongBefore =>
    some (DeviceReplacement.consumeAndReplace codeId codeHash now maxAttempts accountId wrongBefore w)

def exec (_ : Nat) (op : Op) (c : Choice) (w : World) : Option (Except Failure op.Out × World) :=
  (op.run c w).map fun r => match c.fault with
    | none => (.ok r.1, r.2)
    | some applied => (.error .fault, if applied then r.2 else w)

/-- The clock moves on, and a device is enrolled. -/
inductive Event where
  | tick (ms : ℤ)
  | enrol (deviceId : DeviceId) (accountId : AccountId)

def env : Event → World → Option World
  | .tick ms, w => if 0 ≤ ms then some { w with now := w.now + ms } else none
  | .enrol deviceId accountId, w => some { w with
      devices := w.devices ++ [⟨deviceId, accountId, true⟩]
      deviceKeyMethods := w.deviceKeyMethods ++ [accountId] }

abbrev Run := Prog Failure Op Op.Out

def invoke (op : Op) : Run op.Out := Prog.perform op

section Services

variable (config : DeviceReplacementConfig) (hashCode : Code → Hash)

/-- Both services first look at the account. -/
def replacementTarget (accountId : AccountId) : Run DeviceReplacementTarget := do
  let target ← invoke (.findReplacementTarget accountId)
  match target with
  | none => .fail .targetNotFound
  | some target => if target.isStaff then .fail .targetIsStaff else .ret target

/-- The replacement cooldown. -/
def checkCooldown (accountId : AccountId) (now : ℤ) : Run Unit := do
  let lastReplacement ← invoke (.findLastConsumedAt accountId)
  match lastReplacement with
  | none => return ()
  | some last =>
    if now - last < config.cooldownMs then do
      invoke (.refuseForCooldown accountId now)
      .fail .cooldown
    else return ()

/-- The request rate limit; answers how many codes there were in all. -/
def checkRequestRate (accountId : AccountId) (now : ℤ) : Run Nat := do
  let recentRequests ← invoke (.countCreatedSince accountId (now - config.requestWindowMs))
  if config.maxRequestsPerWindow ≤ recentRequests.1 then .fail .requestRateLimited
  else return recentRequests.2

/-- A fresh code supersedes any still-pending one. -/
def issueCode (accountId : AccountId) (sessionId : SessionId) (now : ℤ) (asOf : Nat) : Run Code := do
  let code ← invoke .generateCode
  invoke (.revokePendingForAccount accountId now)
  invoke (.create accountId sessionId (hashCode code) (now + config.codeTtlMs) asOf)
  return code

/-- Best-effort delivery. -/
def deliver (email : Nat) (code : Code) : Run Unit :=
  Prog.catchWith (invoke (.sendDeviceReplacementCodeEmail email code)) fun _ => .ret ()

def requestDeviceReplacement (accountId : AccountId) (sessionId : SessionId) : Run Unit := do
  let target ← replacementTarget accountId
  match target.contactEmail with
  | none => do
    let now ← invoke .clock
    invoke (.recordAuditEvent accountId "authentication.device_replacement_unavailable" now)
  | some contactEmail => do
    let now ← invoke .clock
    checkCooldown config accountId now
    let asOf ← checkRequestRate config accountId now
    let code ← issueCode config hashCode accountId sessionId now asOf
    invoke (.recordAuditEvent accountId "authentication.device_replacement_requested" now)
    deliver contactEmail code

/-- A code of another session is not accepted; one of none is. -/
def boundElsewhere (pending : DeviceReplacementCode) (sessionId : SessionId) : Bool :=
  pending.sessionId.any fun bound => bound ≠ sessionId

def spendCode (pending : DeviceReplacementCode) (accountId : AccountId) (code : Code) (now : ℤ) : Run Unit := do
  let compared ← invoke (.safeCodeEquals pending.id (hashCode code) pending.codeHash)
  if compared.1 then do
    let replaced ← invoke (.consumeAndReplace pending.id pending.codeHash now config.maxAttempts accountId compared.2)
    if replaced then return () else .fail .codeInvalid
  else do
    invoke (.incrementAttempts pending.id now)
    .fail .codeInvalid

def verifyDeviceReplacement (accountId : AccountId) (sessionId : SessionId) (code : Code) : Run Unit := do
  let _ ← replacementTarget accountId
  let now ← invoke .clock
  let pending ← invoke (.findPendingForAccount accountId now)
  match pending with
  | none => .fail .codeInvalid
  | some pending =>
    if boundElsewhere pending sessionId then .fail .codeInvalid
    else spendCode config hashCode pending accountId code now

end Services

inductive Job where
  | request (accountId : AccountId) (sessionId : SessionId)
  | verify (accountId : AccountId) (sessionId : SessionId) (code : Code)

def Job.program (config : DeviceReplacementConfig) (hashCode : Code → Hash) : Job → Run Unit
  | .request accountId sessionId => requestDeviceReplacement config hashCode accountId sessionId
  | .verify accountId sessionId code => verifyDeviceReplacement config hashCode accountId sessionId code

def system (config : DeviceReplacementConfig) (hashCode : Code → Hash) :
    Semantics World Choice Event Job Failure Op Op.Out where
  exec := exec
  env := env
  job := Job.program config hashCode

def World.start (now : ℤ) : World := ⟨now, [], [], [], [], [], []⟩

variable {accountId : AccountId} {now : ℤ}

theorem spendable_iff {code : DeviceReplacementCode} {codeId : CodeId} {codeHash : Hash} {maxAttempts : Nat} :
    code.spendable codeId codeHash now maxAttempts = true ↔ code.id = codeId ∧ code.codeHash = codeHash ∧
      code.consumedAt = none ∧ now < code.expiresAt ∧ code.attemptsUsed < maxAttempts := by
  simp [DeviceReplacementCode.spendable]

theorem findPendingForAccount_mem (h : findPendingForAccount pick accountId now w = some pending) :
    pending ∈ w.codes ∧ pending.pending accountId now = true := by
  have hnewest := List.mem_of_mem_drop (List.mem_of_mem_head? h)
  exact List.mem_filter.mp (List.mem_filter.mp hnewest).1

theorem triple_replacementTarget
    (h : Triple (system config hashCode) G R t P (invoke (.findReplacementTarget accountId)) fun _ => P) :
    Triple (system config hashCode) G R t P (replacementTarget accountId) fun _ => P := by
  refine triple_bind h fun target => ?_
  split
  · exact triple_fail
  · split
    · exact triple_fail
    · exact triple_ret fun _ _ hw => hw

end DeviceReplacement
