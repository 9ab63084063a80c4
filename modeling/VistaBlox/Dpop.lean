import Mathlib.Algebra.Order.Floor.Defs
import VistaBlox.Interleaving
import VistaBlox.JsonText

/-!
# Proofs of possession

The verifier of DPoP proofs, the table of used proofs, and everything that verifies a proof
and records it, beside the job that prunes the table.

One clock, read in whole milliseconds. How a token is decoded, its signature checked and its
key hashed is left open.
-/
namespace Dpop

open Interleaving JsonText

/-- A string literal as text. -/
def lit (s : String) : Text := units s.toList

def iatWindowSeconds : Nat := 60

inductive InvalidReason where
  | malformedProof | malformedHeader | typ | alg | jwk | signature | htm | htu | iat | jti | ath
  deriving DecidableEq, Repr

inductive DpopVerificationError where
  | proofMissing
  | proofInvalid (reason : InvalidReason)
  | replay
  | keyMismatch
  deriving DecidableEq, Repr

/-- What a program throws: one of the verifier's errors, or a failure of a call. -/
inductive Failure where
  | dpop (e : DpopVerificationError)
  | fault (n : Nat)
  deriving DecidableEq, Repr

def toUpperCase (t : Text) : Text := t.map fun c => if 97 ≤ c ∧ c ≤ 122 then c - 32 else c

def toLowerCase (t : Text) : Text := t.map fun c => if 65 ≤ c ∧ c ≤ 90 then c + 32 else c

def isBase64Url (c : Nat) : Bool := (65 ≤ c ∧ c ≤ 90) ∨ (97 ≤ c ∧ c ≤ 122) ∨ (48 ≤ c ∧ c ≤ 57) ∨ c = 95 ∨ c = 45

/-- `JTI_PATTERN` -/
def jtiPattern (jti : Text) : Bool := 16 ≤ jti.length ∧ jti.length ≤ 64 ∧ jti.all isBase64Url = true

/-- A parsed base URL. -/
structure Url where
  protocol : Text
  hostname : Text
  port : Text

def buildHtu (base : Url) (rawPathWithMaybeQuery : Text) : Text :=
  let path := rawPathWithMaybeQuery.takeWhile fun c => c ≠ 63 ∧ c ≠ 35
  let isDefaultPort : Bool := base.port = [] ∨ (base.protocol = lit "https:" ∧ base.port = lit "443") ∨
    (base.protocol = lit "http:" ∧ base.port = lit "80")
  let host := if isDefaultPort then toLowerCase base.hostname
    else toLowerCase base.hostname ++ lit ":" ++ base.port
  base.protocol ++ lit "//" ++ host ++ path

/-- The exact characters after `Bearer `. -/
def bearerToken (authorization : Option Text) : Option Text :=
  authorization.bind fun header => if toLowerCase (header.take 7) = lit "bearer " then some (header.drop 7) else none

/-- A token's numbers are whole. -/
abbrev Value := Json ℤ

def Value.field (v : Value) (name : String) : Option Value :=
  match v with
  | .object fields => (fields.find? fun f => f.1 = lit name).map Prod.snd
  | _ => none

def Value.text : Value → Option Text
  | .scalar (.string s) => some s
  | _ => none

def Value.whole : Value → Option ℤ
  | .scalar (.number (.finite n)) => some n
  | _ => none

/-- What the verifier takes from outside: the decoded first part of a token,
the payload of a token whose signature holds under its own key at a time, the
thumbprint of a key, and the digest of a bearer token. -/
structure Jose where
  protectedHeader : Text → Option Value
  jwtVerify : Text → ℤ → Option Value
  calculateJwkThumbprint : Value → Text
  sha256 : Text → Text

/-- `iat` is kept beside what the code returns, to tell proofs apart. -/
structure DpopProofClaims where
  jkt : Text
  jti : Text
  iat : ℤ
  deriving DecidableEq

structure ProofInput where
  header : Option Text
  method : Text
  url : Text
  bearerToken : Option Text

def publicP256 (jwk : Value) : Bool :=
  match jwk with
  | .object _ => (jwk.field "kty").bind Value.text = some (lit "EC") ∧
      (jwk.field "crv").bind Value.text = some (lit "P-256") ∧
      ((jwk.field "x").bind Value.text).isSome = true ∧ ((jwk.field "y").bind Value.text).isSome = true ∧
      (jwk.field "d").isNone = true
  | _ => false

def invalid {α : Type} (reason : InvalidReason) : Except DpopVerificationError α := .error (.proofInvalid reason)

/-- The checks before the signature: the embedded key, if they pass. -/
def embeddedKey (lib : Jose) (header : Text) : Except DpopVerificationError Value :=
  if header.count 46 ≠ 2 then invalid .malformedProof
  else match lib.protectedHeader (header.takeWhile fun c => c ≠ 46) with
    | none | some (.scalar _) => invalid .malformedHeader
    | some parsed =>
      if (parsed.field "typ").bind Value.text ≠ some (lit "dpop+jwt") then invalid .typ
      else if (parsed.field "alg").bind Value.text ≠ some (lit "ES256") then invalid .alg
      else match parsed.field "jwk" with
        | none => invalid .jwk
        | some jwk => if publicP256 jwk then .ok jwk else invalid .jwk

def checkTarget (input : ProofInput) (payload : Value) : Except DpopVerificationError Unit :=
  if (payload.field "htm").bind Value.text ≠ some (toUpperCase input.method) then invalid .htm
  else if (payload.field "htu").bind Value.text ≠ some input.url then invalid .htu
  else .ok ()

/-- Whether a proof of a given second is fresh at a given `Date`. -/
def iatAccepted (now iat : ℤ) : Bool := (now / 1000 - iat).natAbs ≤ iatWindowSeconds

def checkIat (now : ℤ) (payload : Value) : Except DpopVerificationError ℤ :=
  match (payload.field "iat").bind Value.whole with
  | some iat => if iatAccepted now iat then .ok iat else invalid .iat
  | none => invalid .iat

def checkJti (payload : Value) : Except DpopVerificationError Text :=
  match (payload.field "jti").bind Value.text with
  | some jti => if jtiPattern jti then .ok jti else invalid .jti
  | none => invalid .jti

def checkAth (lib : Jose) (input : ProofInput) (payload : Value) : Except DpopVerificationError Unit :=
  match input.bearerToken with
  | none => .ok ()
  | some token => if (payload.field "ath").bind Value.text = some (lib.sha256 token) then .ok () else invalid .ath

/-- The checks after the freshness check has passed. -/
def claimsOf (lib : Jose) (input : ProofInput) (jwk payload : Value) (iat : ℤ) :
    Except DpopVerificationError DpopProofClaims := do
  let jti ← checkJti payload
  checkAth lib input payload
  return ⟨lib.calculateJwkThumbprint jwk, jti, iat⟩

section Store

structure DpopReplay where
  proof : DpopProofClaims
  expiresAt : ℤ
  deriving DecidableEq

def DpopProofClaims.key (c : DpopProofClaims) : Text × Text := (c.jkt, c.jti)

/-- `accepted` lists every record that was new. -/
structure World (R : Type) where
  now : R
  replays : List DpopReplay
  accepted : List DpopProofClaims

variable {R : Type}

/-- `INSERT … ON CONFLICT (jkt, jti) DO NOTHING RETURNING jkt` -/
def recordProof (claims : DpopProofClaims) (expiresAt : ℤ) (w : World R) : Bool × World R :=
  if w.replays.any fun r => r.proof.key = claims.key then (false, w)
  else (true, { w with
    replays := w.replays ++ [⟨claims, expiresAt⟩]
    accepted := w.accepted ++ [claims] })

def pruneExpired (now : ℤ) (w : World R) : Nat × World R :=
  ((w.replays.filter fun r => r.expiresAt < now).length,
    { w with replays := w.replays.filter fun r => !decide (r.expiresAt < now) })

/-- What a `Date` is read for. -/
inductive DateUse where
  | freshness
  | expiry (claims : DpopProofClaims) (replayWindowSeconds : Nat)
  | prune

inductive Op where
  | date (use : DateUse)
  | jwtVerify (header : Text)
  | recordProof (claims : DpopProofClaims) (expiresAt : ℤ)
  | pruneExpired (now : ℤ)

@[reducible] def Op.Out : Op → Type
  | .date _ => ℤ
  | .jwtVerify _ => Option Value
  | .recordProof _ _ => Bool
  | .pruneExpired _ => Nat

/-- `fault` makes the call throw, after it took effect or without effect. -/
structure Choice where
  fault : Option Bool

/-- The clock moves on. -/
inductive Event (R : Type) where
  | tick (ms : R)

variable [Ring R] [LinearOrder R] [FloorRing R]

def Op.run (lib : Jose) (w : World R) : (op : Op) → op.Out × World R
  | .date _ => (⌊w.now⌋, w)
  | .jwtVerify header => (lib.jwtVerify header ⌊w.now⌋, w)
  | .recordProof claims expiresAt => Dpop.recordProof claims expiresAt w
  | .pruneExpired now => Dpop.pruneExpired now w

def exec (lib : Jose) (_ : Nat) (op : Op) (c : Choice) (w : World R) : Option (Except Failure op.Out × World R) :=
  match c.fault with
  | none => some (.ok (op.run lib w).1, (op.run lib w).2)
  | some applied => some (.error (.fault 0), if applied then (op.run lib w).2 else w)

def env : Event R → World R → Option (World R)
  | .tick ms, w => if 0 ≤ ms then some { w with now := w.now + ms } else none

end Store

abbrev Run := Prog Failure Op Op.Out

def invoke (op : Op) : Run op.Out := Prog.perform op

def ofExcept {α : Type} : Except DpopVerificationError α → Run α
  | .ok a => .ret a
  | .error e => .fail (.dpop e)

/-- `try { … } catch (error)`, with the error as a value. -/
def attempt {α : Type} (p : Run α) : Run (Except Failure α) :=
  Prog.catchWith (p.bind fun a => .ret (.ok a)) (fun e => .ret (.error e))

section Acceptors

variable (lib : Jose)

def verifyDpopProof (input : ProofInput) : Run DpopProofClaims :=
  match input.header.map (trim id) with
  | none | some [] => .fail (.dpop .proofMissing)
  | some header => do
    let jwk ← ofExcept (embeddedKey lib header)
    let verified ← invoke (.jwtVerify header)
    match verified with
    | none => .fail (.dpop (.proofInvalid .signature))
    | some payload =>
      ofExcept (checkTarget input payload)
      let now ← invoke (.date .freshness)
      let iat ← ofExcept (checkIat now payload)
      ofExcept (claimsOf lib input jwk payload iat)

structure DpopEnforcementOptions where
  baseUrl : Url
  replayWindowSeconds : Option Nat
  phase1CutoverAt : Option ℤ

/-- `recordProof(jkt, jti, new Date(Date.now() + replayWindowSeconds * 1000))` -/
def record (replayWindowSeconds : Option Nat) (claims : DpopProofClaims) : Run Bool := do
  let window := replayWindowSeconds.getD 120
  let now ← invoke (.date (.expiry claims window))
  invoke (.recordProof claims (now + window * 1000))

/-- A header as the server framework presents it. -/
inductive HeaderValue where
  | single (value : Text)
  | several (values : List Text)

structure Request where
  method : Text
  originalUrl : Text
  dpop : Option HeaderValue
  authorization : Option Text

structure Session where
  dpopJkt : Option Text
  createdAt : ℤ

def readDpopHeader (request : Request) : Option Text :=
  match request.dpop with
  | some (.single value) => some value
  | _ => none

def isPreCutover (phase1CutoverAt : Option ℤ) (sessionCreatedAt : ℤ) : Bool :=
  match phase1CutoverAt with
  | none => true
  | some cutover => sessionCreatedAt < cutover

def Request.proofInput (request : Request) (base : Url) : ProofInput where
  header := readDpopHeader request
  method := request.method
  url := buildHtu base request.originalUrl
  bearerToken := bearerToken request.authorization

/-- A bound session: a fresh, matching, unreplayed proof is mandatory. -/
def enforceBoundSessionProof (request : Request) (boundJkt : Text) (dpop : Option DpopEnforcementOptions) :
    Run Unit :=
  match dpop with
  | none => .fail (.dpop .proofMissing)
  | some dpop => do
    let claims ← verifyDpopProof lib (request.proofInput dpop.baseUrl)
    if claims.jkt ≠ boundJkt then .fail (.dpop .keyMismatch)
    else
      let accepted ← record dpop.replayWindowSeconds claims
      if accepted then return () else .fail (.dpop .replay)

/-- An unbound session: the key to bind it to, if any. -/
def maybeBindUnboundSession (request : Request) (sessionCreatedAt : ℤ) (dpop : Option DpopEnforcementOptions) :
    Run (Option Text) :=
  match dpop, readDpopHeader request with
  | some dpop, some _ => do
    let verified ← attempt (verifyDpopProof lib (request.proofInput dpop.baseUrl))
    match verified with
    | .error _ => return none
    | .ok claims =>
      if isPreCutover dpop.phase1CutoverAt sessionCreatedAt then
        let accepted ← record dpop.replayWindowSeconds claims
        return if accepted then some claims.jkt else none
      else .fail (.dpop .keyMismatch)
  | _, _ => .ret none

/-- The part of `requireAuthentication` that deals with the proof. -/
def requireAuthentication (request : Request) (session : Session) (dpop : Option DpopEnforcementOptions) :
    Run (Option Text) :=
  match session.dpopJkt with
  | some boundJkt => do
    enforceBoundSessionProof lib request boundJkt dpop
    return none
  | none => maybeBindUnboundSession lib request session.createdAt dpop

/-- Here the first of several headers counts, and no bearer token does. -/
def requireDpopOnly (request : Request) (dpop : DpopEnforcementOptions) (recordReplays : Bool) : Run Text := do
  let claims ← verifyDpopProof lib {
    header := match request.dpop with
      | some (.single value) => some value
      | some (.several values) => values.head?
      | none => none
    method := request.method
    url := buildHtu dpop.baseUrl request.originalUrl
    bearerToken := none }
  if recordReplays then
    let accepted ← record dpop.replayWindowSeconds claims
    if accepted then return claims.jkt else .fail (.dpop .replay)
  else return claims.jkt

inductive DpopSessionDecision where
  | pass
  | bind (jkt : Text)

/-- The decision, and the claims `onVerified` is called with. -/
def decideDpopForSession (input : ProofInput) (session : Session) (dpop : DpopEnforcementOptions) :
    Run (DpopSessionDecision × Option DpopProofClaims) :=
  match session.dpopJkt with
  | some boundJkt => do
    let claims ← verifyDpopProof lib input
    if claims.jkt ≠ boundJkt then .fail (.dpop .keyMismatch)
    else
      let accepted ← record dpop.replayWindowSeconds claims
      if accepted then return (.pass, some claims) else .fail (.dpop .replay)
  | none =>
    match input.header with
    | none => .ret (.pass, none)
    | some _ => do
      let verified ← attempt (verifyDpopProof lib input)
      match verified with
      | .error _ => return (.pass, none)
      | .ok claims =>
        if isPreCutover dpop.phase1CutoverAt session.createdAt then
          let accepted ← record dpop.replayWindowSeconds claims
          return if accepted then (.bind claims.jkt, some claims) else (.pass, none)
        else .fail (.dpop .keyMismatch)

structure FetchHeaders where
  dpop : Option Text
  authorization : Option Text

structure FetchRequest where
  method : Text
  pathname : Text

structure DpopCreationContext where
  headers : Option FetchHeaders
  request : Option FetchRequest

/-- `cached` is what `dpopClaimsByRequest` holds for the request. -/
def tryBindDpopAtCreation (context : DpopCreationContext) (dpop : Option DpopEnforcementOptions)
    (cached : Option DpopProofClaims) : Run (Option Text) :=
  match dpop, cached, context.request, context.headers with
  | some _, some claims, some _, _ => .ret (some claims.jkt)
  | some dpop, none, some request, some ⟨some header, authorization⟩ =>
    Prog.catchWith (do
      let claims ← verifyDpopProof lib
        ⟨some header, request.method, buildHtu dpop.baseUrl request.pathname, bearerToken authorization⟩
      let accepted ← record dpop.replayWindowSeconds claims
      return if accepted then some claims.jkt else none) (fun _ => .ret none)
  | _, _, _, _ => .ret none

def verifyAndCacheDpopProof (context : DpopCreationContext) (dpop : Option DpopEnforcementOptions)
    (ignoreAuthorizationHeader : Bool) : Run DpopProofClaims :=
  match dpop, context.request with
  | some dpop, some request => do
    let authorization := if ignoreAuthorizationHeader then none else context.headers.bind FetchHeaders.authorization
    let claims ← verifyDpopProof lib ⟨context.headers.bind FetchHeaders.dpop, request.method,
      buildHtu dpop.baseUrl request.pathname, bearerToken authorization⟩
    let accepted ← record dpop.replayWindowSeconds claims
    if accepted then return claims else .fail (.dpop .replay)
  | _, _ => .fail (.dpop .proofMissing)

def assertDpopKeyMatchesPendingSession (context : DpopCreationContext) (boundJkt : Text)
    (dpop : Option DpopEnforcementOptions) : Run DpopProofClaims := do
  let claims ← verifyAndCacheDpopProof lib context dpop false
  if claims.jkt ≠ boundJkt then .fail (.dpop .keyMismatch) else return claims

/-- The claims that end up in `dpopClaimsByRequest`, if any. -/
def resolvePendingSessionDpopKey (context : DpopCreationContext) (session : Session)
    (dpop : Option DpopEnforcementOptions) : Run (Option DpopProofClaims) :=
  match dpop, session.dpopJkt with
  | none, _ => .ret none
  | some dpop, some boundJkt => do
    let claims ← assertDpopKeyMatchesPendingSession lib context boundJkt (some dpop)
    return some claims
  | some dpop, none =>
    if (context.headers.bind FetchHeaders.dpop).isNone then .ret none
    else do
      let verified ← attempt (verifyAndCacheDpopProof lib context (some dpop) false)
      match verified with
      | .error _ => return none
      | .ok claims =>
        if isPreCutover dpop.phase1CutoverAt session.createdAt then return some claims
        else .fail (.dpop .keyMismatch)

/-- The hook before the session library's own routes. -/
def betterAuthDpopHook (request : FetchRequest) (headers : FetchHeaders) (session : Session)
    (dpop : DpopEnforcementOptions) : Run (DpopSessionDecision × Option DpopProofClaims) :=
  decideDpopForSession lib ⟨headers.dpop, request.method, buildHtu dpop.baseUrl request.pathname,
    bearerToken headers.authorization⟩ session dpop

end Acceptors

/-- What the instances of the server and the worker run. A route behind the
hook and a ceremony go on to create a session, which binds the key once more. -/
inductive Job where
  | requireAuthentication (request : Request) (session : Session) (dpop : Option DpopEnforcementOptions)
  | requireDpopOnly (request : Request) (dpop : DpopEnforcementOptions) (recordReplays : Bool)
  | betterAuthRoute (request : FetchRequest) (headers : FetchHeaders) (session : Session)
      (dpop : DpopEnforcementOptions) (createsSession : Bool)
  | signIn (context : DpopCreationContext) (dpop : Option DpopEnforcementOptions)
  | enrolVerify (context : DpopCreationContext) (boundJkt : Text) (dpop : Option DpopEnforcementOptions)
  | loginVerify (context : DpopCreationContext) (dpop : Option DpopEnforcementOptions)
  | passkeyVerify (context : DpopCreationContext) (session : Session) (dpop : Option DpopEnforcementOptions)
  | dpopReplayPrune

def Job.program (lib : Jose) : Job → Run Unit
  | .requireAuthentication request session dpop => do
    let _ ← Dpop.requireAuthentication lib request session dpop
  | .requireDpopOnly request dpop recordReplays => do
    let _ ← Dpop.requireDpopOnly lib request dpop recordReplays
  | .betterAuthRoute request headers session dpop createsSession => do
    let decided ← betterAuthDpopHook lib request headers session dpop
    if createsSession then
      let _ ← tryBindDpopAtCreation lib ⟨some headers, some request⟩ (some dpop) decided.2
    else return ()
  | .signIn context dpop => do
    let _ ← tryBindDpopAtCreation lib context dpop none
  | .enrolVerify context boundJkt dpop => do
    let claims ← assertDpopKeyMatchesPendingSession lib context boundJkt dpop
    let _ ← tryBindDpopAtCreation lib context dpop (some claims)
  | .loginVerify context dpop => do
    let claims ← verifyAndCacheDpopProof lib context dpop true
    let _ ← tryBindDpopAtCreation lib context dpop (some claims)
  | .passkeyVerify context session dpop => do
    let cached ← resolvePendingSessionDpopKey lib context session dpop
    let _ ← tryBindDpopAtCreation lib context dpop cached
  | .dpopReplayPrune => do
    let now ← invoke (.date .prune)
    let _ ← invoke (.pruneExpired now)

def system (R : Type) [Ring R] [LinearOrder R] [FloorRing R] (lib : Jose) :
    Semantics (World R) Choice (Event R) Job Failure Op Op.Out where
  exec := exec lib
  env := env
  job := Job.program lib

end Dpop
