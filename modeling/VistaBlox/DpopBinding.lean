import Mathlib.Data.List.Infix
import VistaBlox.Dpop

/-!
# Sessions and the keys they are bound to

The two doors a request on a session goes through. Each reads the session, has a proof
verified, and may then write its key to the session it read as unbound. The write names the
session and nothing else.

A row's id and its token are one name here.
-/
namespace DpopBinding

open Interleaving JsonText
open Dpop (Jose Request FetchRequest FetchHeaders DpopEnforcementOptions DpopProofClaims DpopSessionDecision lit)

inductive AccountStatus where
  | active | recoveryReview | suspendedRestricted
  deriving DecidableEq, Repr

/-- A row of `auth_session`. -/
structure AuthSession where
  id : Text
  userId : Text
  dpopJkt : Option Text
  createdAt : ℤ
  deriving DecidableEq

def AuthSession.toSession (r : AuthSession) : Dpop.Session := ⟨r.dpopJkt, r.createdAt⟩

structure Binding where
  session : Text
  jkt : Text
  deriving DecidableEq

/-- What a request read of its session, how many keys had been written by then,
and the proof it has had recorded since. -/
structure Sight where
  session : Text
  read : Option Text
  bindings : Nat
  proof : Option DpopProofClaims
  deriving DecidableEq

/-- `created` and `bindings` list every session and every key written to one,
`sights` what the requests under way have read, `served` what the requests let
through had. -/
structure World (R : Type) where
  proofs : Dpop.World R
  sessions : List AuthSession
  created : List Text
  bindings : List Binding
  sights : Nat → Option Sight
  served : List Sight

/-- What a request is refused with. -/
inductive Refusal where
  | dpop (f : Dpop.Failure)
  | authenticationRequired
  | accountMappingMissing
  | accountRestricted
  deriving DecidableEq, Repr

inductive Op where
  | proof (op : Dpop.Op)
  | resolve (session : Text)
  | bindDpopKey (session jkt : Text)
  | updateSession (session jkt : Text)
  | findByBetterAuthUserId (userId : Text)
  | next

@[reducible] def Op.Out : Op → Type
  | .proof op => op.Out
  | .resolve _ => Option AuthSession
  | .bindDpopKey _ _ => Unit
  | .updateSession _ _ => Unit
  | .findByBetterAuthUserId _ => Option AccountStatus
  | .next => Unit

/-- `fault` makes the call throw, after it took effect or without effect. A
session may be found but not usable, and the accounts answer as they please. -/
structure Choice where
  fault : Option Bool
  unusable : Bool
  account : Option AccountStatus

/-- The clock moves on; the session library creates and deletes sessions. -/
inductive Event (R : Type) where
  | tick (ms : R)
  | create (row : AuthSession)
  | delete (session : Text)

section Calls

variable {R : Type}

def AuthSession.bound (jkt : Text) (row : AuthSession) : AuthSession := { row with dpopJkt := some jkt }

/-- `UPDATE "auth_session" SET "dpopJkt" = $1 WHERE "id" = $2` -/
def bindKey (session jkt : Text) (w : World R) : World R :=
  { w with
    sessions := w.sessions.map fun row => if row.id = session then row.bound jkt else row
    bindings := if w.sessions.any fun row => row.id = session then w.bindings ++ [⟨session, jkt⟩] else w.bindings }

def look (t : Nat) (session : Text) (w : World R) : Option AuthSession × World R :=
  match w.sessions.find? fun row => row.id = session with
  | none => (none, w)
  | some row => (some row,
      { w with sights := Function.update w.sights t (some ⟨row.id, row.dpopJkt, w.bindings.length, none⟩) })

/-- The record of a new proof is one the request can show. -/
def noteProof (t : Nat) (claims : DpopProofClaims) (w : World R) : World R :=
  { w with sights := Function.update w.sights t ((w.sights t).map fun v => { v with proof := some claims }) }

variable [Ring R] [LinearOrder R] [FloorRing R]

def runProof (lib : Jose) (t : Nat) (op : Dpop.Op) (w : World R) : op.Out × World R :=
  let r := op.run lib w.proofs
  let w' := { w with proofs := r.2 }
  match op, r.1 with
  | .recordProof claims _, accepted => (accepted, if accepted then noteProof t claims w' else w')
  | _, answer => (answer, w')

def Op.run (lib : Jose) (t : Nat) (c : Choice) (w : World R) : (op : Op) → op.Out × World R
  | .proof op => runProof lib t op w
  | .resolve session => if c.unusable then (none, w) else look t session w
  | .bindDpopKey session jkt => ((), bindKey session jkt w)
  | .updateSession session jkt => ((), bindKey session jkt w)
  | .findByBetterAuthUserId _ => (c.account, w)
  | .next => ((), { w with served := w.served ++ (w.sights t).toList })

def exec (lib : Jose) (t : Nat) (op : Op) (c : Choice) (w : World R) : Option (Except Refusal op.Out × World R) :=
  match c.fault with
  | none => some (.ok (op.run lib t c w).1, (op.run lib t c w).2)
  | some applied => some (.error (.dpop (.fault 0)), if applied then (op.run lib t c w).2 else w)

/-- A new session may have its key from the start; ids are never used again. -/
def create (row : AuthSession) (w : World R) : World R :=
  { w with
    sessions := w.sessions ++ [row]
    created := w.created ++ [row.id]
    bindings := w.bindings ++ (row.dpopJkt.map fun jkt => ⟨row.id, jkt⟩).toList }

def env : Event R → World R → Option (World R)
  | .tick ms, w => (Dpop.env (.tick ms) w.proofs).map fun proofs => { w with proofs }
  | .create row, w => if row.id ∈ w.created then none else some (DpopBinding.create row w)
  | .delete session, w => some { w with sessions := w.sessions.filter fun row => row.id ≠ session }

end Calls

abbrev Run := Prog Refusal Op Op.Out

def invoke (op : Op) : Run op.Out := Prog.perform op

def proofAnswer (op : Dpop.Op) : Except Refusal (Op.proof op).Out → Except Dpop.Failure op.Out
  | .ok a => .ok a
  | .error (.dpop f) => .error f
  | .error _ => .error (.fault 0)

/-- A program of the proof verifier as a part of a request. -/
def proofs {α : Type} (p : Dpop.Run α) : Run α := p.embed Op.proof proofAnswer Refusal.dpop

section Doors

variable (lib : Jose)

/-- `sessions.bindDpopKey?.(identity.providerSessionId, claims.jkt)`, if there is a key to bind. -/
def bindFound (session : Text) : Option Text → Run Unit
  | some jkt => invoke (.bindDpopKey session jkt)
  | none => .ret ()

/-- The account must be there and active; then the request goes on. -/
def admitAccount : Option AccountStatus → Run Unit
  | none => .fail .accountMappingMissing
  | some .active => invoke .next
  | some _ => .fail .accountRestricted

def requireAuthentication (request : Request) (session : Text) (dpop : Option DpopEnforcementOptions) :
    Run Unit := do
  let identity ← invoke (.resolve session)
  match identity with
  | none => .fail .authenticationRequired
  | some identity =>
    let jkt ← proofs (Dpop.requireAuthentication lib request identity.toSession dpop)
    bindFound identity.id jkt
    let account ← invoke (.findByBetterAuthUserId identity.userId)
    admitAccount account

/-- These do their own verification. -/
def isSessionUpgradeCeremonyPath (path : Text) : Bool :=
  path = lit "/passkey/verify-authentication" ∨ path = lit "/passkey/verify-registration" ∨
    path = lit "/device/enrol/verify" ∨ path = lit "/device/login/verify"

def bindDecided (session : Text) : DpopSessionDecision → Run Unit
  | .bind jkt => invoke (.updateSession session jkt)
  | .pass => .ret ()

def betterAuthDpopHook (path : Text) (request : FetchRequest) (headers : FetchHeaders) (session : Text)
    (dpop : DpopEnforcementOptions) : Run Unit :=
  if isSessionUpgradeCeremonyPath path then .ret ()
  else do
    let current ← invoke (.resolve session)
    match current with
    | none => return ()
    | some row =>
      let decision ← proofs (Dpop.betterAuthDpopHook lib request headers row.toSession dpop)
      bindDecided row.id decision.1
      invoke .next

end Doors

/-- Requests on sessions, beside everything else that uses the proof table. -/
inductive Job where
  | requireAuthentication (request : Request) (session : Text) (dpop : Option DpopEnforcementOptions)
  | betterAuthDpopHook (path : Text) (request : FetchRequest) (headers : FetchHeaders) (session : Text)
      (dpop : DpopEnforcementOptions)
  | other (job : Dpop.Job)

def Job.program (lib : Jose) : Job → Run Unit
  | .requireAuthentication request session dpop => DpopBinding.requireAuthentication lib request session dpop
  | .betterAuthDpopHook path request headers session dpop =>
    DpopBinding.betterAuthDpopHook lib path request headers session dpop
  | .other job => proofs (job.program lib)

def system (R : Type) [Ring R] [LinearOrder R] [FloorRing R] (lib : Jose) :
    Semantics (World R) Choice (Event R) Job Refusal Op Op.Out where
  exec := exec lib
  env := env
  job := Job.program lib

end DpopBinding
