import Mathlib.Algebra.Order.Archimedean.Real.Basic
import Mathlib.Algebra.Order.Floor.Ring
import VistaBlox.Dpop
import VistaBlox.SeenOnce

/-!
# No proof of possession is accepted twice

A proof is fresh for up to 121 seconds and its record is kept for 120, so a proof dated a
full minute ahead can be pruned while it is fresh, and accepted again.
-/
namespace Dpop

open Interleaving JsonText List Option

variable {c : DpopProofClaims} {iat now : ℤ}

section Window

/-- The first millisecond at which a proof is no longer fresh. -/
def DpopProofClaims.staleAt (c : DpopProofClaims) : ℤ := 1000 * (c.iat + iatWindowSeconds + 1)

/-- A record dated now is kept until the proof is stale. -/
def Outlives (now : ℤ) (replayWindowSeconds : Nat) (c : DpopProofClaims) : Prop :=
  c.staleAt ≤ now + replayWindowSeconds * 1000 + 1

theorem iatAccepted_iff : iatAccepted now iat = true ↔ 1000 * (iat - 60) ≤ now ∧ now < 1000 * (iat + 61) := by
  unfold iatAccepted iatWindowSeconds
  rw [decide_eq_true_iff]
  omega

theorem lt_staleAt (h : iatAccepted now c.iat = true) : now < c.staleAt := by
  have hlt := (iatAccepted_iff.mp h).2
  unfold DpopProofClaims.staleAt iatWindowSeconds
  omega

theorem not_iatAccepted (h : c.staleAt ≤ now) : iatAccepted now c.iat = false := by
  rw [← Bool.not_eq_true]
  exact fun hacc => absurd (lt_staleAt hacc) (not_lt_of_ge h)

theorem DpopProofClaims.eq_of_key {c c' : DpopProofClaims} (hkey : c.key = c'.key) (hiat : c.iat = c'.iat) :
    c = c' := by
  cases c
  cases c'
  simp_all [DpopProofClaims.key]

end Window

variable {op : Op}

section Rules

variable {R : Type} [Ring R] [LinearOrder R] [FloorRing R]

/-- A record is dated late enough to outlive its proof and inserted while the proof is
still fresh, and a key and identifier are presented with one date only. -/
def punctual : Guard (World R) (Event R) Op where
  call _ op w := match op with
    | .date (.expiry claims window) => Outlives ⌊w.now⌋ window claims
    | .recordProof claims _ =>
      iatAccepted ⌊w.now⌋ claims.iat = true ∧ ∀ c ∈ w.accepted, c.key = claims.key → c.iat = claims.iat
    | _ => True
  env _ _ := True

/-- The table as a memory of the proofs that have been used. -/
def World.memory (w : World R) : SeenOnce.Memory DpopProofClaims ℤ :=
  ⟨⌊w.now⌋, w.replays.map DpopReplay.proof, w.accepted⟩

/-- Every record is kept until its proof is stale, and the table has only ever
admitted what was fresh and forgotten what was not. -/
structure Sound (w₀ w : World R) : Prop where
  kept : ∀ r ∈ w.replays, r.proof.staleAt ≤ r.expiresAt + 1
  history : SeenOnce.Steps DpopProofClaims.key DpopProofClaims.staleAt w₀.memory w.memory

def rules (w₀ : World R) : Rules (World R) Op where
  inv := Sound w₀
  rely _ w w' := w.now ≤ w'.now
  req _ op w := match op with
    | .recordProof claims expiresAt => claims.staleAt ≤ expiresAt + 1
    | .pruneExpired now => now ≤ ⌊w.now⌋
    | _ => True

variable {w₀ w : World R}

/-- Recording a fresh proof is an admission, or changes nothing. -/
theorem recordProof_sound (h : Sound w₀ w) (hkept : claims.staleAt ≤ expiresAt + 1)
    (hfresh : iatAccepted ⌊w.now⌋ claims.iat = true)
    (hone : ∀ c ∈ w.accepted, c.key = claims.key → c.iat = claims.iat) :
    Sound w₀ (recordProof claims expiresAt w).2 := by
  unfold recordProof
  split
  · exact h
  · rename_i hnew
    simp only [List.any_eq_true, decide_eq_true_eq, not_exists, not_and] at hnew
    have henter : SeenOnce.Step DpopProofClaims.key DpopProofClaims.staleAt w.memory _ :=
      .enter w.memory claims (by simpa [World.memory] using hnew)
        (fun c hc hkey => DpopProofClaims.eq_of_key hkey (hone c hc hkey)) (lt_staleAt hfresh)
    refine ⟨fun r hr => ?_, h.history.tail ?_⟩
    · obtain hr | hr := mem_append.mp hr
      · exact h.kept r hr
      · rw [mem_singleton.mp hr]
        exact hkept
    · simpa [World.memory] using henter

theorem pruneExpired_sound (h : Sound w₀ w) (hnow : now ≤ ⌊w.now⌋) : Sound w₀ (pruneExpired now w).2 := by
  refine ⟨fun r hr => h.kept r (mem_of_mem_filter hr), h.history.tail ?_⟩
  refine SeenOnce.Step.forget w.memory _ (filter_sublist.map _) fun c hc hgone => ?_
  obtain ⟨r, hr, rfl⟩ := List.mem_map.mp hc
  have hexpired : r.expiresAt < now := by
    by_contra hlive
    exact hgone (List.mem_map_of_mem (mem_filter.mpr ⟨hr, by simpa using hlive⟩))
  have hkept := h.kept r hr
  exact show r.proof.staleAt ≤ ⌊w.now⌋ by omega

theorem run_now : (op.run lib w).2.now = w.now := by
  cases op with
  | recordProof =>
    simp only [Op.run, recordProof]
    split <;> rfl
  | _ => rfl

/-- Every operation keeps the table a memory of the accepted proofs. -/
theorem run_sound (lib : Jose) (h : Sound w₀ w) (hreq : (rules w₀).req t op w) (hguard : punctual.call t op w) :
    Sound w₀ (op.run lib w).2 := by
  cases op with
  | date => exact h
  | jwtVerify => exact h
  | recordProof => exact recordProof_sound h hreq hguard.1 hguard.2
  | pruneExpired => exact pruneExpired_sound h hreq

end Rules

section Programs

variable {R : Type} [Ring R] [LinearOrder R] [FloorRing R] {w₀ : World R} {lib : Jose} {t : Nat} {α : Type}

theorem spec_invoke (hreq : ∀ w, P w → (rules w₀).req t op w)
    (hpost : ∀ w, P w → punctual.call t op w → Q (op.run lib w).1 (op.run lib w).2)
    (hstable : ∀ a, (rules w₀).Stable t (Q a)) : Triple (system R lib) punctual (rules w₀) t P (invoke op) Q := by
  refine triple_perform (fun w _ => hreq w) (fun w c r w' hinv hP hg hexec => ?_) hstable
  have hrun := run_sound lib hinv (hreq w hP) hg
  simp only [system, exec] at hexec
  split at hexec
  · cases hexec
    exact ⟨hrun, fun _ _ => run_now.ge, fun a ha => Except.ok.inj ha ▸ hpost w hP hg⟩
  · rename_i applied _
    simp only [some.injEq, Prod.mk.injEq] at hexec
    obtain ⟨rfl, rfl⟩ := hexec
    cases applied with
    | true => exact ⟨hrun, fun _ _ => run_now.ge, fun _ ha => nomatch ha⟩
    | false => exact ⟨hinv, fun _ _ => le_rfl, fun _ ha => nomatch ha⟩

variable (w₀ lib t) in
/-- A program that keeps to the rules wherever it is started. -/
def Safe (p : Run α) : Prop := Triple (system R lib) punctual (rules w₀) t (fun _ => True) p fun _ _ => True

theorem safe_ret (a : α) : Safe w₀ lib t (.ret a : Run α) := triple_done

theorem safe_fail : Safe w₀ lib t (.fail e : Run α) := triple_fail

variable {p : Run α}

theorem safe_bind (hp : Safe w₀ lib t p) (hf : ∀ a, Safe w₀ lib t (f a)) :
    Safe w₀ lib t (p.bind f) := triple_bind hp hf

theorem safe_ofExcept : Safe w₀ lib t (ofExcept r) := by
  cases r with
  | ok a => exact safe_ret a
  | error => exact safe_fail

theorem safe_catch (hp : Safe w₀ lib t p) (hh : ∀ e, Safe w₀ lib t (handler e)) :
    Safe w₀ lib t (p.catchWith handler) := triple_catch_any hp hh

theorem safe_attempt (hp : Safe w₀ lib t p) : Safe w₀ lib t (attempt p) :=
  safe_catch (safe_bind hp fun a => safe_ret (Except.ok a)) fun e => safe_ret (Except.error e)

theorem safe_ite {c : Prop} [Decidable c] {q : Run α} (hp : Safe w₀ lib t p) (hq : Safe w₀ lib t q) :
    Safe w₀ lib t (if c then p else q) := by
  split
  · exact hp
  · exact hq

theorem safe_invoke (hreq : ∀ w, (rules w₀).req t op w) : Safe w₀ lib t (invoke op) :=
  spec_invoke (fun w _ => hreq w) (fun _ _ _ => trivial) fun _ => Rules.stable_const

theorem safe_verifyDpopProof : Safe w₀ lib t (verifyDpopProof lib input) := by
  unfold verifyDpopProof
  split
  · exact safe_fail
  · exact safe_fail
  · refine safe_bind safe_ofExcept fun jwk => safe_bind (safe_invoke fun _ => trivial) fun verified => ?_
    cases verified with
    | none => exact safe_fail
    | some =>
      exact safe_bind safe_ofExcept fun _ => safe_bind (safe_invoke fun _ => trivial) fun now =>
        safe_bind safe_ofExcept fun iat => safe_ofExcept

theorem safe_record : Safe w₀ lib t (record window claims) := by
  have hdate : Triple (system R lib) punctual (rules w₀) t (fun _ => True)
      (invoke (.date (.expiry claims (window.getD 120)))) fun now _ => Outlives now (window.getD 120) claims :=
    spec_invoke (fun _ _ => trivial) (fun _ _ hg => hg) fun _ => Rules.stable_const
  exact triple_bind hdate fun now =>
    spec_invoke (fun _ h => h) (fun _ _ _ => trivial) fun _ => Rules.stable_const

theorem safe_enforceBoundSessionProof :
    Safe w₀ lib t (enforceBoundSessionProof lib request boundJkt dpop) := by
  unfold enforceBoundSessionProof
  split
  · exact safe_fail
  · exact safe_bind safe_verifyDpopProof fun claims => safe_ite safe_fail <|
      safe_bind safe_record fun accepted => safe_ite (safe_ret _) safe_fail

theorem safe_maybeBindUnboundSession :
    Safe w₀ lib t (maybeBindUnboundSession lib request createdAt dpop) := by
  unfold maybeBindUnboundSession
  split
  · refine safe_bind (safe_attempt safe_verifyDpopProof) fun verified => ?_
    cases verified with
    | error => exact safe_ret _
    | ok =>
      exact safe_ite (safe_bind safe_record fun accepted => safe_ret _) safe_fail
  · exact safe_ret _

theorem safe_requireAuthentication :
    Safe w₀ lib t (requireAuthentication lib request session dpop) := by
  unfold requireAuthentication
  split
  · exact safe_bind safe_enforceBoundSessionProof fun _ => safe_ret _
  · exact safe_maybeBindUnboundSession

theorem safe_requireDpopOnly :
    Safe w₀ lib t (requireDpopOnly lib request dpop recordReplays) := by
  refine safe_bind safe_verifyDpopProof fun claims => safe_ite ?_ (safe_ret _)
  exact safe_bind safe_record fun accepted => safe_ite (safe_ret _) safe_fail

theorem safe_decideDpopForSession :
    Safe w₀ lib t (decideDpopForSession lib input session dpop) := by
  unfold decideDpopForSession
  split
  · exact safe_bind safe_verifyDpopProof fun claims => safe_ite safe_fail <|
      safe_bind safe_record fun accepted => safe_ite (safe_ret _) safe_fail
  · split
    · exact safe_ret _
    · refine safe_bind (safe_attempt safe_verifyDpopProof) fun verified => ?_
      cases verified with
      | error => exact safe_ret _
      | ok =>
        exact safe_ite (safe_bind safe_record fun accepted => safe_ret _) safe_fail

theorem safe_tryBindDpopAtCreation : Safe w₀ lib t (tryBindDpopAtCreation lib context dpop cached) := by
  unfold tryBindDpopAtCreation
  split
  · exact safe_ret _
  · exact safe_catch (safe_bind safe_verifyDpopProof fun claims => safe_bind safe_record fun accepted =>
      safe_ret _) fun _ => safe_ret _
  · exact safe_ret _

theorem safe_verifyAndCacheDpopProof :
    Safe w₀ lib t (verifyAndCacheDpopProof lib context dpop ignoreAuthorizationHeader) := by
  unfold verifyAndCacheDpopProof
  split
  · exact safe_bind safe_verifyDpopProof fun claims => safe_bind safe_record fun accepted =>
      safe_ite (safe_ret _) safe_fail
  · exact safe_fail

theorem safe_assertDpopKeyMatchesPendingSession :
    Safe w₀ lib t (assertDpopKeyMatchesPendingSession lib context boundJkt dpop) :=
  safe_bind (safe_verifyAndCacheDpopProof) fun _ => safe_ite safe_fail (safe_ret _)

theorem safe_resolvePendingSessionDpopKey :
    Safe w₀ lib t (resolvePendingSessionDpopKey lib context session dpop) := by
  unfold resolvePendingSessionDpopKey
  split
  · exact safe_ret _
  · exact safe_bind (safe_assertDpopKeyMatchesPendingSession) fun _ => safe_ret _
  · refine safe_ite (safe_ret _) (safe_bind (safe_attempt (safe_verifyAndCacheDpopProof)) fun verified => ?_)
    cases verified with
    | error => exact safe_ret _
    | ok => exact safe_ite (safe_ret _) safe_fail

end Programs

section Runs

variable {R : Type} [Ring R] [LinearOrder R] [FloorRing R] {w₀ : World R} {lib : Jose} {t : Nat}

theorem safe_prune : Safe w₀ lib t (Job.dpopReplayPrune.program lib) := by
  have hdate : Triple (system R lib) punctual (rules w₀) t (fun _ => True) (invoke (.date .prune))
      fun now w => now ≤ ⌊w.now⌋ :=
    spec_invoke (fun _ _ => trivial) (fun _ _ _ => le_rfl)
      fun now w w' _ _ hnow hle => le_trans hle (Int.floor_mono hnow)
  refine triple_bind hdate fun now => ?_
  exact triple_bind (spec_invoke (fun _ h => h) (fun _ _ _ => trivial) fun _ => Rules.stable_const)
    fun _ => safe_ret _

theorem safe_program (job : Job) : Safe w₀ lib t (job.program lib) := by
  cases job with
  | requireAuthentication =>
    exact safe_bind (safe_requireAuthentication) fun _ => safe_ret _
  | requireDpopOnly => exact safe_bind (safe_requireDpopOnly) fun _ => safe_ret _
  | betterAuthRoute =>
    exact safe_bind (safe_decideDpopForSession) fun _ =>
      safe_ite (safe_bind (safe_tryBindDpopAtCreation) fun _ => safe_ret _) (safe_ret _)
  | signIn => exact safe_bind (safe_tryBindDpopAtCreation) fun _ => safe_ret _
  | enrolVerify =>
    exact safe_bind (safe_assertDpopKeyMatchesPendingSession) fun _ =>
      safe_bind (safe_tryBindDpopAtCreation) fun _ => safe_ret _
  | loginVerify =>
    exact safe_bind (safe_verifyAndCacheDpopProof) fun _ =>
      safe_bind (safe_tryBindDpopAtCreation) fun _ => safe_ret _
  | passkeyVerify =>
    exact safe_bind (safe_resolvePendingSessionDpopKey) fun _ =>
      safe_bind (safe_tryBindDpopAtCreation) fun _ => safe_ret _
  | dpopReplayPrune => exact safe_prune

variable [IsStrictOrderedRing R]

/-- The memory survives every interleaving of requests and prunes. -/
theorem system_sound (w₀ : World R) (lib : Jose) : Interleaving.Sound (system R lib) punctual (rules w₀) := by
  refine ⟨fun t job => safe_program job, fun e w w' hinv _ hstep => ?_⟩
  obtain ⟨ms⟩ := e
  simp only [system, env, ite_none_right_eq_some, some.injEq] at hstep
  obtain ⟨hms, rfl⟩ := hstep
  have hlater : w.now ≤ w.now + ms := le_add_of_nonneg_right hms
  exact ⟨⟨hinv.kept, hinv.history.tail (.pass w.memory _ (Int.floor_mono hlater))⟩, fun _ => hlater⟩

theorem secure_of_run (hempty : w.replays = []) (hrun : Reachable (system R lib) punctual (idle w) s) :
    Secure (system R lib) punctual (rules w) s :=
  hrun.secure (system_sound w lib) (secure_idle w ⟨by simp [hempty], .refl⟩)

/-- From an empty table, in every run where records are dated late enough and inserted
in time and each pair of key and identifier has one date, no such pair is accepted
twice, and whatever the prune job is about to delete is the record of a proof that
is stale from now on. -/
theorem proof_accepted_once (lib : Jose) (w : World R) (hempty : w.replays = []) (hnone : w.accepted = [])
    (s : Config (World R) Failure Op Op.Out) (hrun : Reachable (system R lib) punctual (idle w) s) :
    (∀ jkt jti, (s.world.accepted.map DpopProofClaims.key).count (jkt, jti) ≤ 1) ∧
      ∀ t now next, s.threads t = .call (.pruneExpired now) next → ∀ r ∈ s.world.replays,
        r ∉ (pruneExpired now s.world).2.replays → ∀ τ, s.world.now ≤ τ → iatAccepted ⌊τ⌋ r.proof.iat = false := by
  have hsecure := secure_of_run hempty hrun
  refine ⟨fun jkt jti => nodup_iff_count_le_one.mp (hsecure.1.history.nodup hnone) _, ?_⟩
  intro t now next hcall r hr hgone τ hτ
  have hnow : now ≤ ⌊s.world.now⌋ := hsecure.req hcall
  have hkept := hsecure.1.kept r hr
  have hexpired : r.expiresAt < now := by
    by_contra hlive
    exact hgone (mem_filter.mpr ⟨hr, by simpa using hlive⟩)
  have hfloor := Int.floor_mono hτ
  exact not_iatAccepted (by omega)

end Runs

section Clock

variable {R : Type} [Ring R]

/-- A world whose clock shows a whole number of milliseconds. -/
def World.cast (R : Type) [Ring R] (w : World ℤ) : World R := ⟨w.now, w.replays, w.accepted⟩

def Event.cast (R : Type) [Ring R] : Event ℤ → Event R
  | .tick ms => .tick ms

theorem recordProof_cast :
    recordProof claims expiresAt (w.cast R) =
      ((recordProof claims expiresAt w).1, (recordProof claims expiresAt w).2.cast R) := by
  have hsame : (w.cast R).replays = w.replays := rfl
  unfold recordProof
  rw [hsame]
  by_cases hseen : (w.replays.any fun r => r.proof.key = claims.key) = true
  · rw [if_pos hseen, if_pos hseen]
  · rw [if_neg hseen, if_neg hseen]
    rfl

variable [LinearOrder R] [IsStrictOrderedRing R] [FloorRing R]

theorem run_cast (lib : Jose) (op : Op) (w : World ℤ) :
    op.run lib (w.cast R) = ((op.run lib w).1, (op.run lib w).2.cast R) := by
  cases op with
  | date | jwtVerify => simp [Op.run, World.cast]
  | recordProof => exact recordProof_cast
  | pruneExpired => rfl

theorem reachable_cast (h : Reachable (system ℤ lib) G s₀ s)
    (hcall : ∀ t op w, G.call t op w → G'.call t op (w.cast R)) (henv : ∀ e w, G'.env e w) :
    Reachable (system R lib) G' (s₀.map (World.cast R)) (s.map (World.cast R)) := by
  refine h.map (World.cast R) (Event.cast R) rfl (fun t op c w => ?_) (fun e w => ?_) hcall fun e w _ => henv _ _
  · simp only [system, exec, run_cast]
    split
    · rfl
    · rename_i applied _
      cases applied <;> rfl
  · obtain ⟨ms⟩ := e
    simp only [system, env, Event.cast, Int.cast_nonneg_iff]
    split
    · simp [World.cast]
    · rfl

theorem punctual_cast (t : Nat) (op : Op) (w : World ℤ) (h : punctual.call t op w) :
    punctual.call t op (w.cast R) := by
  have hnow : ⌊(w.cast R).now⌋ = ⌊w.now⌋ := Int.floor_intCast w.now
  unfold punctual at h ⊢
  simp only [hnow]
  exact h

end Clock

/-- Any token is a proof of one second, by one key, for `POST https://api/login`. -/
def sampleJose (iat : ℤ) : Jose where
  protectedHeader _ := some (.object [(lit "typ", .scalar (.string (lit "dpop+jwt"))),
    (lit "alg", .scalar (.string (lit "ES256"))), (lit "jwk", .object [(lit "kty", .scalar (.string (lit "EC"))),
      (lit "crv", .scalar (.string (lit "P-256"))), (lit "x", .scalar (.string (lit "x"))),
      (lit "y", .scalar (.string (lit "y")))])])
  jwtVerify _ _ := some (.object [(lit "htm", .scalar (.string (lit "POST"))),
    (lit "htu", .scalar (.string (lit "https://api/login"))), (lit "iat", .scalar (.number (.finite iat))),
    (lit "jti", .scalar (.string (lit "0123456789abcdef")))])
  calculateJwkThumbprint _ := lit "key"
  sha256 := id

def sampleProof (iat : ℤ) : DpopProofClaims := ⟨lit "key", lit "0123456789abcdef", iat⟩

/-- Instance `t` handles a request with that token, to its end. -/
def sampleRequest (t : Nat) : List (Action Choice (Event ℤ) Job) :=
  [.spawn t (.requireDpopOnly ⟨lit "post", lit "/login", some (.single (lit "a.b.c")), none⟩
    ⟨⟨lit "https:", lit "api", []⟩, none, none⟩ true), .call t ⟨none⟩, .call t ⟨none⟩, .call t ⟨none⟩, .call t ⟨none⟩]

/-- A request, the prune job some time later, and the same request to another instance. -/
def sampleRun (ms : ℤ) : List (Action Choice (Event ℤ) Job) :=
  sampleRequest 1 ++ [.env (.tick ms), .spawn 2 .dpopReplayPrune, .call 2 ⟨none⟩, .call 2 ⟨none⟩] ++ sampleRequest 3

instance (t : Nat) (op : Op) (w : World ℤ) : Decidable (punctual.call t op w) := by
  dsimp only [punctual, Outlives]
  split <;> infer_instance

theorem idle_cast :
    (idle ⟨0, [], []⟩ : Config (World ℤ) Failure Op Op.Out).map (World.cast ℝ) = idle ⟨0, [], []⟩ := by
  simp [Config.map, idle, World.cast]

/-- The same proof presented again within its minute, after a prune. -/
theorem proof_accepted_once_replayed : ∃ s, Reachable (system ℝ (sampleJose 0)) punctual (idle ⟨0, [], []⟩) s ∧
    s.world.accepted = [sampleProof 0] ∧
      ∀ jkt jti, (s.world.accepted.map DpopProofClaims.key).count (jkt, jti) ≤ 1 := by
  obtain ⟨s, hrun, hlook⟩ := exists_of_play (system ℤ (sampleJose 0))
    (punctual.allows_of_decide fun _ _ => trivial) (sampleRun 60000) (idle ⟨0, [], []⟩)
    (fun s => s.world.accepted = [sampleProof 0]) rfl
  have hreal : Reachable (system ℝ (sampleJose 0)) punctual _ _ :=
    reachable_cast hrun punctual_cast fun _ _ => trivial
  rw [idle_cast] at hreal
  exact ⟨_, hreal, of_decide_eq_true hlook, (proof_accepted_once (sampleJose 0) _ rfl rfl _ hreal).1⟩

/-- A proof dated a minute ahead, with the default window: its record expires
after 120 seconds, is pruned a millisecond later, and the proof is accepted by
another instance in that same millisecond. -/
theorem future_proof_accepted_twice : ∃ s, Reachable (system ℝ (sampleJose 60)) Guard.free (idle ⟨0, [], []⟩) s ∧
    s.world.accepted = [sampleProof 60, sampleProof 60] := by
  obtain ⟨s, hrun, hlook⟩ := exists_of_play (system ℤ (sampleJose 60)) Guard.allows_free
    (sampleRun 120001) (idle ⟨0, [], []⟩) (fun s => s.world.accepted = [sampleProof 60, sampleProof 60]) rfl
  have hreal : Reachable (system ℝ (sampleJose 60)) Guard.free _ _ :=
    reachable_cast hrun (fun _ _ _ _ => trivial) fun _ _ => trivial
  rw [idle_cast] at hreal
  exact ⟨_, hreal, of_decide_eq_true hlook⟩

end Dpop
