import VistaBlox.KycRenewal
import VistaBlox.Recording

/-!
# A session start and the session before it

While a session is created the row's reference still names the previous session. An outcome
of that one, applied in the meantime, takes the mark away, and the new session cannot be
recorded.

The history tells which thread has drawn which start and which session.
-/
namespace Kyc

open Interleaving List Option
open Function (update update_of_ne update_self)

section History

structure StartHistory where
  starts : SessionStartId → Option Nat
  sessions : DiditReference → Option Nat

def StartHistory.none : StartHistory := ⟨fun _ => .none, fun _ => .none⟩

def noteStart : Note World StartHistory Failure Op Op.Out
  | t, .randomUUID, _, (.ok sessionStartId, _), h => { h with starts := update h.starts sessionStartId (some t) }
  | t, .createSession .., _, (.ok session, _), h =>
    { h with sessions := update h.sessions session.sessionId (some t) }
  | _, _, _, _, h => h

variable (accountId : AccountId) (sessionStartId : SessionStartId)

/-- The provider's answer is accepted, and no sweep declares the start dead. -/
def startAlive : Guard (World × StartHistory) Event Op where
  call _ op _ := match op with
    | .failSessionStart accountId' sessionStartId' _ =>
        ¬ (accountId' = accountId ∧ sessionStartId' = some sessionStartId)
    | _ => True
  env _ _ := True

/-- No outcome of the previous session is applied while the start is made. -/
def previousQuiet : Guard (World × StartHistory) Event Op where
  call _ op w := match op with
    | .applyProviderOutcome input => (∀ eventId, input.source = .webhook eventId → .webhook eventId ∉ w.1.auditKeys) →
        ∀ r ∈ w.1.rows, r.isCreating accountId (some sessionStartId) = true →
          r.diditReference = some input.diditReference → isStale r.providerUpdatedAt input.providerUpdatedAt = true
    | _ => True
  env _ _ := True

/-- The row is marked with the start. -/
def Creating (w : World) : Prop :=
  ∃ r, w.row accountId = some r ∧ r.isCreating accountId (some sessionStartId) = true

/-- Nothing has been recorded of the session. -/
structure Unrecorded (diditReference : DiditReference) (w : World) : Prop where
  rows : ∀ r ∈ w.rows, r.diditReference ≠ some diditReference
  keys : EventKey.sessionStarted diditReference ∉ w.auditKeys

/-- What is recorded, and what a thread has, was drawn. -/
structure Drawn (w : World × StartHistory) : Prop where
  orderly : Orderly w.1
  starts : ∀ sessionStartId t, w.2.starts sessionStartId = some t → sessionStartId ∈ w.1.startIds
  sessions : ∀ diditReference t, w.2.sessions diditReference = some t → diditReference ∈ w.1.sessions
  recorded : ∀ diditReference, diditReference ∉ w.1.sessions → Unrecorded diditReference w.1

/-- A session is recorded by the thread that created it, for the start which that
thread has drawn. -/
def startRules : Rules (World × StartHistory) Op where
  inv := Drawn
  rely t w w' :=
    (∀ sessionStartId', w.2.starts sessionStartId' = some t → w'.2.starts sessionStartId' = some t ∧
      (sessionStartId' = sessionStartId → Creating accountId sessionStartId w.1 →
        Creating accountId sessionStartId w'.1)) ∧
    ∀ diditReference, w.2.sessions diditReference = some t → w'.2.sessions diditReference = some t ∧
      (Unrecorded diditReference w.1 → Unrecorded diditReference w'.1)
  req t op w := op.Evaluated ∧ match op with
    | .completeSessionStart accountId' sessionStartId' diditReference _ _ =>
      w.2.starts sessionStartId' = some t ∧ w.2.sessions diditReference = some t ∧ Unrecorded diditReference w.1 ∧
        (accountId' = accountId → sessionStartId' = sessionStartId → Creating accountId sessionStartId w.1)
    | _ => True

end History

variable {diditReference : DiditReference} {h : StartHistory}

section Steps

variable {accountId : AccountId} {sessionStartId : SessionStartId} {op : Op} {c : Choice} {w w' : World} {a : op.Out}
  {r : KycEligibility}

/-- A row that is marked keeps its mark and its eligibility, until the start is
completed. -/
theorem run_creating (horderly : Orderly w) (halive : (startAlive accountId sessionStartId).call t op (w, h))
    (hquiet : (previousQuiet accountId sessionStartId).call t op (w, h)) (hrow : w.row accountId = some r)
    (hcreating : r.isCreating accountId (some sessionStartId) = true) (hrun : op.run c w = some (a, w'))
    (hother : ∀ diditReference providerStatus completedAt,
      op ≠ .completeSessionStart accountId sessionStartId diditReference providerStatus completedAt) :
    ∃ r', w'.row accountId = some r' ∧ r'.isCreating accountId (some sessionStartId) = true ∧
      r'.eligibilityState = r.eligibilityState := by
  obtain ⟨haccount, hstart, hsubstatus⟩ := isCreating_iff.mp hcreating
  have hmem := (row_some hrow).1
  have hnot : r.eligibilityState ≠ .eligible := (horderly.rows r hmem).not_eligible (by simp [hsubstatus])
  have hkept : ∀ {p : KycEligibility → Bool} {set : KycEligibility → KycEligibility},
      w'.rows = (rewriteRows p set w).rows → (∀ r, (set r).accountId = r.accountId) →
      (p r = true → (set r).isCreating accountId (some sessionStartId) = true ∧
        (set r).eligibilityState = r.eligibilityState) →
      ∃ r', w'.row accountId = some r' ∧ r'.isCreating accountId (some sessionStartId) = true ∧
        r'.eligibilityState = r.eligibilityState := by
    intro p set hrows hid hset
    refine ⟨_, row_rewrite_account hrow hrows hid, ?_⟩
    split
    · rename_i hp
      exact hset hp
    · exact ⟨hcreating, rfl⟩
  generalize hrows : w'.rows = rows
  have hstep := run_rowStep hrun
  rw [hrows] at hstep
  cases hstep with
  | same =>
    refine ⟨r, ?_, hcreating, rfl⟩
    unfold World.row at hrow ⊢
    rw [hrows]
    exact hrow
  | create =>
    refine ⟨r, ?_, hcreating, rfl⟩
    unfold World.row at hrow ⊢
    rw [hrows, find?_append, hrow]
    rfl
  | reserve hcurrent hstart =>
    refine hkept hrows (fun _ => rfl) fun hp => ?_
    obtain rfl := horderly.keyed.eq_of_key hmem (row_some hcurrent).1
      ((isOf_iff.mp hp).trans (row_some hcurrent).2.symm)
    rw [hsubstatus] at hstart
    cases hstart
  | complete =>
    refine hkept hrows (fun _ => rfl) fun hp => ?_
    obtain ⟨rfl, hsame, -⟩ := isCreating_iff.mp hp
    rw [hstart] at hsame
    cases hsame
    exact absurd (by rw [haccount]) (hother _ _ _)
  | fail =>
    refine hkept hrows (fun _ => rfl) fun hp => ?_
    obtain ⟨rfl, hsame, -⟩ := isCreating_iff.mp hp
    exact absurd ⟨haccount, hsame.symm.trans hstart⟩ halive
  | reserveProof | completeProof | failProof => exact hkept hrows (fun _ => rfl) fun _ => ⟨hcreating, rfl⟩
  | outcome hnew hcurrent hstale =>
    refine hkept hrows (fun _ => rfl) fun hp => ?_
    obtain rfl := horderly.keyed.eq_of_key hmem (mem_of_find?_eq_some hcurrent) (isOf_iff.mp hp)
    have hstill := hquiet hnew r hmem hcreating (hasReference_iff.mp (find?_some hcurrent))
    rw [hstale] at hstill
    cases hstill
  | proof =>
    refine hkept hrows (fun _ => rfl) fun _ => ⟨?_, rfl⟩
    refine isCreating_iff.mpr ⟨haccount, hstart, ?_⟩
    exact (if_pos hnot).trans hsubstatus
  | lapse =>
    refine hkept hrows (fun _ => rfl) fun hp => ?_
    exact absurd (isEligible_iff.mp hp).2 hnot

theorem unrecorded_rewrite (h : ∀ r ∈ w.rows, r.diditReference ≠ some diditReference) {p : KycEligibility → Bool}
    {set : KycEligibility → KycEligibility}
    (hset : ∀ r, (set r).diditReference = some diditReference → r.diditReference = some diditReference) :
    ∀ r ∈ (rewriteRows p set w).rows, r.diditReference ≠ some diditReference := by
  intro r' hr' href
  obtain ⟨r, hr, rfl⟩ := List.mem_map.mp hr'
  split at href
  · exact h r hr (hset r href)
  · exact h r hr href

theorem run_unrecorded (h : Unrecorded diditReference w) (hrun : op.run c w = some (a, w'))
    (hother : ∀ accountId sessionStartId providerStatus completedAt,
      op ≠ .completeSessionStart accountId sessionStartId diditReference providerStatus completedAt) :
    Unrecorded diditReference w' := by
  constructor
  · have hstep := run_rowStep hrun
    generalize w'.rows = rows at hstep
    cases hstep with
    | same => exact h.rows
    | create =>
      intro r hr href
      obtain hr | rfl := Table.mem_add hr
      · exact h.rows r hr href
      · cases href
    | complete =>
      refine unrecorded_rewrite h.rows fun r href => ?_
      cases href
      exact absurd rfl (hother _ _ _ _)
    | _ => exact unrecorded_rewrite h.rows fun _ => id
  · intro hkey
    obtain hold | ⟨accountId, sessionStartId, providerStatus, completedAt, rfl⟩ := (run_frame hrun).keys _ hkey
    · exact h.keys hold
    · exact hother _ _ _ _ rfl

theorem noteStart_cases (hrun : op.run c w = some (a, w')) (hanswer : ∀ b, answer = .ok b → b = a) :
    noteStart t op w (answer, w') h = h ∨
    (∃ id, noteStart t op w (answer, w') h = { h with starts := update h.starts id (some t) } ∧
      id ∉ w.startIds ∧ id ∈ w'.startIds) ∨
    ∃ id, noteStart t op w (answer, w') h = { h with sessions := update h.sessions id (some t) } ∧
      id ∉ w.sessions ∧ id ∈ w'.sessions := by
  cases answer with
  | error =>
    left
    cases op <;> rfl
  | ok b =>
    obtain rfl := hanswer b rfl
    cases op with
    | randomUUID =>
      obtain ⟨hnew, hnext⟩ := ite_none_left_eq_some.mp hrun
      cases hnext
      exact .inr (.inl ⟨c.id, rfl, hnew, by simp⟩)
    | createSession =>
      obtain ⟨hnew, hnext⟩ := ite_none_left_eq_some.mp hrun
      cases hnext
      exact .inr (.inr ⟨c.id, rfl, hnew, by simp⟩)
    | _ => exact .inl rfl

theorem noteStart_error (e : Failure) : noteStart t op w (.error e, w') h = h := by
  cases op <;> rfl

theorem noteStart_drawn (hstarts : ∀ id u, h.starts id = some u → id ∈ w.startIds)
    (hsessions : ∀ id u, h.sessions id = some u → id ∈ w.sessions) (hframe : Frame op w w') (hnote : h' = h ∨
      (∃ id, h' = { h with starts := update h.starts id (some t) } ∧ id ∉ w.startIds ∧ id ∈ w'.startIds) ∨
      ∃ id, h' = { h with sessions := update h.sessions id (some t) } ∧ id ∉ w.sessions ∧ id ∈ w'.sessions) :
    ((∀ id u, h.starts id = some u → h'.starts id = some u) ∧
      ∀ id u, h.sessions id = some u → h'.sessions id = some u) ∧
    (∀ id u, h'.starts id = some u → id ∈ w'.startIds) ∧ ∀ id u, h'.sessions id = some u → id ∈ w'.sessions := by
  obtain rfl | ⟨drawn, rfl, hnew, hmem⟩ | ⟨drawn, rfl, hnew, hmem⟩ := hnote
  · exact ⟨⟨fun _ _ => id, fun _ _ => id⟩, fun id u hid => hframe.startIds (hstarts id u hid),
      fun id u hid => hframe.sessions (hsessions id u hid)⟩
  · refine ⟨⟨fun id u hid => ?_, fun _ _ => id⟩, fun id u hid => ?_,
      fun id u hid => hframe.sessions (hsessions id u hid)⟩
    · have hother : id ≠ drawn := fun hid' => hnew (hid' ▸ hstarts id u hid)
      simpa [update_of_ne hother] using hid
    · by_cases hid' : id = drawn
      · exact hid' ▸ hmem
      · exact hframe.startIds (hstarts id u (by simpa [update_of_ne hid'] using hid))
  · refine ⟨⟨fun _ _ => id, fun id u hid => ?_⟩, fun id u hid => hframe.startIds (hstarts id u hid),
      fun id u hid => ?_⟩
    · have hother : id ≠ drawn := fun hid' => hnew (hid' ▸ hsessions id u hid)
      simpa [update_of_ne hother] using hid
    · by_cases hid' : id = drawn
      · exact hid' ▸ hmem
      · exact hframe.sessions (hsessions id u (by simpa [update_of_ne hid'] using hid))

/-- Every call keeps the drawn ids on record, and the mark of a start on its row. -/
theorem exec_drawn {cfg : Configuration} {w w' : World × StartHistory} (hinv : Drawn w)
    (hreq : (startRules accountId sessionStartId).req t op w)
    (hguard : ((startAlive accountId sessionStartId).and (previousQuiet accountId sessionStartId)).call t op w)
    (hexec : ((system cfg).recording noteStart).exec t op c w = some (answer, w')) :
    Drawn w' ∧ ∀ u, u ≠ t → (startRules accountId sessionStartId).rely u w w' := by
  obtain ⟨hplain, hnote⟩ := recording_exec hexec
  have hcall : exec t op c w.1 = some (answer, w'.1) := hplain
  obtain ⟨a, hrun, hfree, hanswer⟩ | ⟨rfl, hsame⟩ := exec_inv (t := t) hcall
  · have hframe := run_frame hrun
    obtain ⟨⟨hkeepStarts, hkeepSessions⟩, hstarts, hsessions⟩ := noteStart_drawn hinv.starts hinv.sessions hframe
      (hnote ▸ noteStart_cases (t := t) (h := w.2) hrun hanswer)
    -- a completion records the thread's own session
    have hunrecorded : ∀ diditReference, w.2.sessions diditReference ≠ some t → Unrecorded diditReference w.1 →
        Unrecorded diditReference w'.1 := by
      intro diditReference hother hbefore
      refine run_unrecorded hbefore hrun ?_
      rintro accountId' sessionStartId' providerStatus completedAt rfl
      exact hother hreq.2.2.1
    refine ⟨⟨run_orderly hinv.orderly hreq.1 hfree hrun, hstarts, hsessions, fun diditReference hnew => ?_⟩,
      fun u hu => ⟨fun id hid => ⟨hkeepStarts id u hid, ?_⟩, fun diditReference hid => ⟨hkeepSessions _ u hid, ?_⟩⟩⟩
    · have hbefore : diditReference ∉ w.1.sessions := fun hold => hnew (hframe.sessions hold)
      exact hunrecorded diditReference (fun hmine => hbefore (hinv.sessions _ t hmine)) (hinv.recorded _ hbefore)
    · rintro rfl ⟨r, hrow, hcreating⟩
      obtain ⟨r', hrow', hcreating', -⟩ := run_creating hinv.orderly hguard.1 hguard.2 hrow hcreating hrun (by
        rintro diditReference providerStatus completedAt rfl
        exact hu (some.inj (hid.symm.trans hreq.2.1)))
      exact ⟨r', hrow', hcreating'⟩
    · exact hunrecorded diditReference fun hmine => hu (some.inj (hid.symm.trans hmine))
  · rw [noteStart_error] at hnote
    obtain ⟨world, history⟩ := w
    obtain ⟨world', history'⟩ := w'
    obtain rfl : world' = world := hsame
    obtain rfl : history' = history := hnote
    exact ⟨hinv, fun u _ => ⟨fun _ hid => ⟨hid, fun _ => id⟩, fun _ hid => ⟨hid, id⟩⟩⟩

end Steps

abbrev StartSpec (cfg : Configuration) (accountId : AccountId) (sessionStartId : SessionStartId) {α : Type} :=
  Triple (α := α) ((system cfg).recording noteStart)
    ((startAlive accountId sessionStartId).and (previousQuiet accountId sessionStartId))
    (startRules accountId sessionStartId)

theorem start_call (hreq : ∀ w, P w → (startRules accountId sessionStartId).req t op w)
    (hstep : ∀ w w' a, Drawn w → P w → w'.2 = noteStart t op w.1 (.ok a, w'.1) w.2 →
      (∃ c, op.run c w.1 = some (a, w'.1)) → Q a w')
    (hstable : ∀ a, (startRules accountId sessionStartId).Stable t (Q a)) :
    StartSpec cfg accountId sessionStartId t P (invoke op) Q := by
  refine triple_perform (fun w _ => hreq w) (fun w c r w' hinv hP hguard hexec => ?_) hstable
  obtain ⟨hdrawn, hrely⟩ := exec_drawn hinv (hreq w hP) hguard hexec
  refine ⟨hdrawn, hrely, fun a ha => ?_⟩
  subst ha
  obtain ⟨hplain, hnote⟩ := recording_exec hexec
  exact hstep w w' a hinv hP hnote ⟨c, exec_ok (t := t) hplain⟩

theorem start_any (hreq : ∀ w, P w → (startRules accountId sessionStartId).req t op w) :
    StartSpec cfg accountId sessionStartId t P (invoke op) fun _ _ => True :=
  start_call hreq (fun _ _ _ _ _ _ _ => trivial) fun _ => Rules.stable_const

def Op.completes : Op → Bool
  | .completeSessionStart .. => true
  | _ => false

theorem req_of_evaluated (hop : op.Evaluated) (hother : op.completes = false) :
    (startRules accountId sessionStartId).req t op w := by
  cases op with
  | completeSessionStart => cases hother
  | applyProviderOutcome => exact ⟨hop, trivial⟩
  | _ => exact ⟨trivial, trivial⟩

/-- What a start knows once it is reserved: its own draw, and the mark on the row. -/
def Reserved (t : Nat) (accountId : AccountId) (sessionStartId : SessionStartId) (accountId' : AccountId)
    (sessionStartId' : SessionStartId) (w : World × StartHistory) : Prop :=
  w.2.starts sessionStartId' = some t ∧
    (accountId' = accountId → sessionStartId' = sessionStartId → Creating accountId sessionStartId w.1)

theorem reserved_stable :
    (startRules accountId sessionStartId).Stable t (Reserved t accountId sessionStartId accountId'
      sessionStartId') := by
  intro w w' _ _ hrely h
  obtain ⟨hmine, hcreating⟩ := hrely.1 sessionStartId' h.1
  exact ⟨hmine, fun ha hs => hcreating hs (h.2 ha hs)⟩

/-- The provider has created a session for the thread. -/
def Created (t : Nat) (diditReference : DiditReference) (w : World × StartHistory) : Prop :=
  w.2.sessions diditReference = some t ∧ Unrecorded diditReference w.1

theorem created_stable :
    (startRules accountId sessionStartId).Stable t (Created t diditReference) := by
  intro w w' _ _ hrely h
  obtain ⟨hmine, hunrecorded⟩ := hrely.2 diditReference h.1
  exact ⟨hmine, hunrecorded h.2⟩

theorem creating_of_reserved (h : (reserveSessionStart accountId sessionStartId residenceCountryCode
      taxResidenceCountryCode startedAt w).1 = true) :
    Creating accountId sessionStartId (reserveSessionStart accountId sessionStartId residenceCountryCode
      taxResidenceCountryCode startedAt w).2 := by
  unfold reserveSessionStart at h ⊢
  split
  · rename_i hmissing
    rw [if_pos hmissing] at h
    cases h
  · rename_i hpresent
    rw [if_neg hpresent] at h
    split
    · rename_i hnone
      refine ⟨newRow accountId sessionStartId residenceCountryCode taxResidenceCountryCode startedAt, ?_,
        isCreating_iff.mpr ⟨rfl, rfl, rfl⟩⟩
      simp only [World.row, World.logged, find?_append, hnone, none_or]
      exact find?_cons_of_pos (isOf_iff.mpr rfl)
    · rename_i current hcurrent
      split
      · refine ⟨_, row_rewrite_account hcurrent rfl fun _ => rfl, ?_⟩
        rw [if_pos (find?_some hcurrent)]
        exact isCreating_iff.mpr ⟨(row_some hcurrent).2, rfl, rfl⟩
      · rename_i hstart
        simp only [hcurrent, if_neg hstart] at h
        cases h

theorem abandonStart_start :
    StartSpec cfg accountId sessionStartId t P (abandonStart accountId' sessionStartId' error) Q := by
  refine triple_bind (start_any (fun _ _ => ⟨trivial, trivial⟩)) fun failedAt => ?_
  exact triple_bind (start_any (fun _ _ => ⟨trivial, trivial⟩)) fun _ => triple_fail

theorem completeStart_start :
    StartSpec cfg accountId sessionStartId t
      (fun w => Reserved t accountId sessionStartId accountId' sessionStartId' w ∧ Created t session.sessionId w)
      (completeStart accountId' sessionStartId' session) fun _ _ => True := by
  refine triple_bind (start_call (Q := fun _ w => Reserved t accountId sessionStartId accountId' sessionStartId' w ∧
    Created t session.sessionId w) (fun _ _ => ⟨trivial, trivial⟩) ?_
    fun _ => reserved_stable.and created_stable) fun completedAt => ?_
  · rintro w w' now - hP hnote ⟨c, hrun⟩
    obtain rfl : w' = w := Prod.ext (congrArg Prod.snd (some.inj hrun)).symm hnote
    exact hP
  refine triple_bind (start_any (fun w hP => ⟨trivial, hP.1.1, hP.2.1, hP.2.2, hP.1.2⟩)) fun completed => ?_
  split
  · refine triple_bind (Q := fun _ _ => True) ?_ fun _ => triple_done
    exact triple_catch_any (start_any (fun _ _ => ⟨trivial, trivial⟩)) fun _ => triple_done
  · exact abandonStart_start

/-- A start completes with its own id and session only. -/
theorem startKycSession_start :
    StartSpec cfg accountId sessionStartId t (fun _ => True)
      (startKycSession cfg accountId' residenceCountryCode taxResidenceCountryCode) fun _ _ => True := by
  have hmine : ∀ id, (startRules accountId sessionStartId).Stable t fun w => w.2.starts id = some t :=
    fun id w w' _ _ hrely h => (hrely.1 id h).1
  refine triple_bind (start_call (Q := fun id w => w.2.starts id = some t) (fun _ _ => ⟨trivial, trivial⟩)
    (fun w w' id _ _ hnote _ => ?_) hmine) fun id => ?_
  · simp [hnote, noteStart]
  refine triple_bind (start_call (Q := fun _ w => w.2.starts id = some t) (fun _ _ => ⟨trivial, trivial⟩)
    (fun w w' _ _ hid hnote _ => ?_) fun _ => hmine id) fun startedAt => ?_
  · rw [hnote]
    exact hid
  refine triple_bind (start_call (Q := fun reserved w => reserved = true →
    Reserved t accountId sessionStartId accountId' id w) (fun _ _ => ⟨trivial, trivial⟩) ?_
    fun reserved => Rules.Stable.imp_const fun _ => reserved_stable) fun reserved => ?_
  · rintro w w' reserved - hid hnote ⟨c, hrun⟩ rfl
    have hdone := some.inj hrun
    refine ⟨by rw [hnote]; exact hid, ?_⟩
    rintro rfl rfl
    rw [← show _ = w'.1 from congrArg Prod.snd hdone]
    exact creating_of_reserved (congrArg Prod.fst hdone)
  split
  · rename_i hreserved
    refine triple_bind (triple_catch_any (Q := fun session w => Reserved t accountId sessionStartId accountId' id w ∧
      Created t session.sessionId w) (start_call (fun _ _ => ⟨trivial, trivial⟩) ?_ fun session =>
        reserved_stable.and created_stable) fun error => abandonStart_start) fun session => ?_
    · rintro w w' session hinv hP hnote ⟨c, hrun⟩
      obtain ⟨hnew, hnext⟩ := ite_none_left_eq_some.mp hrun
      have hdone := some.inj hnext
      have hid : c.id = session.sessionId := congrArg (fun x => x.1.sessionId) hdone
      have hworld : { w.1 with sessions := w.1.sessions ++ [c.id] } = w'.1 := congrArg Prod.snd hdone
      have hunrecorded := hinv.recorded c.id hnew
      rw [hid] at hunrecorded
      obtain ⟨hstarts, hcreating⟩ := hP hreserved
      refine ⟨⟨by rw [hnote]; exact hstarts, ?_⟩, by simp [hnote, noteStart], ?_⟩
      · rw [← hworld]
        exact hcreating
      · rw [← hworld]
        exact ⟨hunrecorded.rows, hunrecorded.keys⟩
    split
    · exact abandonStart_start
    · exact completeStart_start
  · exact triple_fail

theorem Drawn.outside (hinv : Drawn (w, h)) (hrows : w'.rows = w.rows) (hkeys : w'.auditKeys = w.auditKeys)
    (hstarts : w'.startIds = w.startIds) (hsessions : w'.sessions = w.sessions) : Drawn (w', h) := by
  refine ⟨hinv.orderly.same hrows, fun id t hid => ?_, fun id t hid => ?_, fun id hid => ⟨?_, ?_⟩⟩
  · rw [hstarts]
    exact hinv.starts id t hid
  · rw [hsessions]
    exact hinv.sessions id t hid
  · rw [hsessions] at hid
    rw [hrows]
    exact (hinv.recorded id hid).rows
  · rw [hsessions] at hid
    rw [hkeys]
    exact (hinv.recorded id hid).keys

/-- Starts keep to their own rows however the jobs interleave. -/
theorem start_sound (cfg : Configuration) (accountId : AccountId) (sessionStartId : SessionStartId) :
    Sound ((system cfg).recording noteStart)
      ((startAlive accountId sessionStartId).and (previousQuiet accountId sessionStartId))
      (startRules accountId sessionStartId) where
  job t j := by
    by_cases hj : ∃ accountId' residence tax, j = .startSession accountId' residence tax
    · obtain ⟨accountId', residence, tax, rfl⟩ := hj
      exact triple_bind startKycSession_start fun _ => triple_done
    · have hother : ∀ op : Op, j.Makes op → op.completes = false := by
        intro op hop
        cases op with
        | completeSessionStart =>
          cases j with
          | startSession => exact absurd ⟨_, _, _, rfl⟩ hj
          | _ => exact hop.elim
        | _ => rfl
      exact triple_calls (fun op w hop _ => req_of_evaluated hop.evaluated (hother op hop))
        (fun op c w r w' hop hinv hguard hexec =>
          exec_drawn hinv (req_of_evaluated hop.evaluated (hother op hop)) hguard hexec) (Job.makes cfg j)
  env e w w' hinv _ henv := by
    obtain ⟨world, history⟩ := w
    obtain ⟨world', history'⟩ := w'
    obtain ⟨hplain, hsame⟩ := recording_env henv
    obtain rfl : history' = history := hsame
    have hevent : env e world = some world' := hplain
    cases e with
    | tick =>
      obtain ⟨-, hnext⟩ := ite_none_right_eq_some.mp hevent
      cases hnext
      exact ⟨hinv.outside rfl rfl rfl rfl, fun _ => ⟨fun _ hid => ⟨hid, fun _ => id⟩, fun _ hid =>
        ⟨hid, fun h => ⟨h.rows, h.keys⟩⟩⟩⟩
    | report =>
      cases hevent
      exact ⟨hinv.outside rfl rfl rfl rfl, fun _ => ⟨fun _ hid => ⟨hid, fun _ => id⟩, fun _ hid =>
        ⟨hid, fun h => ⟨h.rows, h.keys⟩⟩⟩⟩

theorem drawn_start (now : ℤ) (accounts : List Account) (decisions : DiditReference → DiditDecisionSummary) :
    Drawn (World.start now accounts decisions, .none) where
  orderly := ⟨nodup_nil, fun _ hr => absurd hr not_mem_nil, fun _ hr => absurd hr not_mem_nil⟩
  starts _ _ h := by cases h
  sessions _ _ h := by cases h
  recorded _ _ := ⟨fun _ hr => absurd hr not_mem_nil, not_mem_nil⟩

theorem exec_complete (horderly : Orderly w) (hcreating : Creating accountId sessionStartId w)
    (hunrecorded : Unrecorded diditReference w) (providerStatus : DiditStatus) (completedAt : ℤ)
    (hc : c.fault = none) : ∃ w' r,
      exec t (.completeSessionStart accountId sessionStartId diditReference providerStatus completedAt) c w =
        some (.ok true, w') ∧
      w'.rows.find? (KycEligibility.hasReference diditReference) = some r ∧ r.accountId = accountId := by
  obtain ⟨r, hrow, hmarked⟩ := hcreating
  have hany : w.rows.any (KycEligibility.isCreating accountId (some sessionStartId)) = true :=
    List.any_eq_true.mpr ⟨r, (row_some hrow).1, hmarked⟩
  have hfree : (Op.completeSessionStart accountId sessionStartId diditReference providerStatus
      completedAt).conflicts w =
      false := by
    simp only [Op.conflicts, hany, Bool.true_and, Bool.or_eq_false_iff, List.any_eq_false]
    refine ⟨by simpa using hunrecorded.keys, fun r' hr' hconflict => ?_⟩
    exact hunrecorded.rows r' hr' (of_decide_eq_true hconflict).2
  have hrun : (Op.completeSessionStart accountId sessionStartId diditReference providerStatus completedAt).run c w =
      some (completeSessionStart accountId sessionStartId diditReference providerStatus completedAt w) := rfl
  have hdone : (completeSessionStart accountId sessionStartId diditReference providerStatus completedAt
      w).1 = true := by
    rw [completeSessionStart, if_pos hany]
  have hrows : (completeSessionStart accountId sessionStartId diditReference providerStatus completedAt w).2.rows =
      (rewriteRows (KycEligibility.isCreating accountId (some sessionStartId))
        (KycEligibility.open diditReference providerStatus completedAt) w).rows := by
    rw [completeSessionStart, if_pos hany]
    rfl
  have hrow' := row_rewrite_account hrow hrows fun _ => rfl
  rw [if_pos hmarked] at hrow'
  refine ⟨(completeSessionStart accountId sessionStartId diditReference providerStatus completedAt w).2,
    r.open diditReference providerStatus completedAt, ?_, ?_, (row_some hrow).2⟩
  · rw [exec, hrun, map_some, hfree, hc]
    simp [hdone]
  · refine (run_orderly horderly ?_ hfree hrun).find (row_some hrow').1 rfl
    trivial

/-- In every run in which the start is not given up and no outcome of the previous
session is applied meanwhile, it completes: its session is the recorded one, and
until then nothing changes the eligibility. -/
theorem start_completes (cfg : Configuration) (now : ℤ) (accounts : List Account)
    (decisions : DiditReference → DiditDecisionSummary) (accountId : AccountId) (sessionStartId : SessionStartId)
    (s : Config (World × StartHistory) Failure Op Op.Out)
    (h : Reachable ((system cfg).recording noteStart)
      ((startAlive accountId sessionStartId).and (previousQuiet accountId sessionStartId))
      (idle (World.start now accounts decisions, .none)) s) :
    (∀ t diditReference providerStatus completedAt next, s.threads t = .call
        (.completeSessionStart accountId sessionStartId diditReference providerStatus completedAt) next →
      ∀ c : Choice, c.fault = none → ∃ s' r,
        ((system cfg).recording noteStart).step s (.call t c) = some s' ∧ s'.threads t = next (.ok true) ∧
        s'.world.1.rows.find? (KycEligibility.hasReference diditReference) = some r ∧ r.accountId = accountId) ∧
    ∀ (action : RenewalAction) s',
      ((startAlive accountId sessionStartId).and (previousQuiet accountId sessionStartId)).Allows s action →
      ((system cfg).recording noteStart).step s action = some s' →
      (∀ t c diditReference providerStatus completedAt next, action = .call t c → s.threads t ≠ .call
        (.completeSessionStart accountId sessionStartId diditReference providerStatus completedAt) next) →
      ∀ r, s.world.1.row accountId = some r → r.isCreating accountId (some sessionStartId) = true →
        ∃ r', s'.world.1.row accountId = some r' ∧ r'.isCreating accountId (some sessionStartId) = true ∧
          r'.eligibilityState = r.eligibilityState := by
  have hsecure := h.secure (start_sound cfg accountId sessionStartId)
      (secure_idle _ (drawn_start now accounts decisions))
  constructor
  · intro t diditReference providerStatus completedAt next ht c hc
    obtain ⟨-, -, -, hunrecorded, hcreating⟩ := hsecure.req ht
    obtain ⟨w', r, hexec, hfind, haccount⟩ := exec_complete (t := t) hsecure.1.orderly (hcreating rfl rfl) hunrecorded
      providerStatus completedAt hc
    have hplain : (system cfg).exec t (.completeSessionStart accountId sessionStartId diditReference providerStatus
      completedAt) c s.world.1 = some (.ok true, w') := hexec
    refine ⟨_, r, (Semantics.step_call _ ht c).trans (congrArg (Option.map _) (exec_recording hplain s.world.2)), ?_,
      hfind, haccount⟩
    exact update_self ..
  · intro action s' hallow hstep hother r hrow hcreating
    have hsame : s'.world.1.rows = s.world.1.rows → ∃ r', s'.world.1.row accountId = some r' ∧
        r'.isCreating accountId (some sessionStartId) = true ∧ r'.eligibilityState = r.eligibilityState := by
      intro hrows
      refine ⟨r, ?_, hcreating, rfl⟩
      unfold World.row at hrow ⊢
      rw [hrows]
      exact hrow
    cases action with
    | spawn =>
      cases hstep
      exact hsame rfl
    | env e =>
      obtain ⟨w', henv, rfl⟩ := map_eq_some_iff.mp hstep
      have hevent : env e s.world.1 = some w'.1 := (recording_env henv).1
      exact hsame (env_rows hevent)
    | call t c =>
      cases ht : s.threads t with
      | ret | fail => simp [Semantics.step, ht] at hstep
      | call op next =>
        rw [Semantics.step_call _ ht] at hstep
        obtain ⟨x, hexec, rfl⟩ := map_eq_some_iff.mp hstep
        have hplain : exec t op c s.world.1 = some (x.1, x.2.1) := (recording_exec hexec).1
        simp only [Guard.Allows, ht] at hallow
        obtain ⟨a, hrun, -, -⟩ | ⟨-, hunchanged⟩ := exec_inv (t := t) hplain
        · refine run_creating hsecure.1.orderly hallow.1 hallow.2 hrow hcreating hrun ?_
          rintro diditReference providerStatus completedAt rfl
          exact hother t c _ _ _ next rfl ht
        · exact hsame (congrArg World.rows hunchanged)

abbrev StartConfig := Config (World × StartHistory) Failure Op Op.Out

instance (accountId : AccountId) (sessionStartId : SessionStartId) (t : Nat) (op : Op)
    (w : World × StartHistory) : Decidable ((startAlive accountId sessionStartId).call t op w) := by
  induction op using Op.casesOn <;> (dsimp only [startAlive]; infer_instance)

instance (accountId : AccountId) (sessionStartId : SessionStartId) (t : Nat) (op : Op)
    (w : World × StartHistory) : Decidable ((previousQuiet accountId sessionStartId).call t op w) := by
  induction op using Op.casesOn <;> (dsimp only [previousQuiet]; infer_instance)

/-- The provider reports on session 5. -/
def sampleReport (t : Nat) (input : DiditWebhook) (n : Nat) : List RenewalAction :=
  .spawn t (.webhook input) :: renewalCalls t n

/-- Session 5 has expired, and account 1 has reserved start 8. -/
def sampleReserved : List RenewalAction :=
  sampleStart 0 7 5 ++ sampleReport 1 (sampleWebhook 1 .expired 1700000100) 4 ++
    [.spawn 2 (.startSession 1 "DE" "DE"), .call 2 { calm with id := 8 }] ++ renewalCalls 2 2

/-- The provider creates session 6. -/
def sampleCreated : List RenewalAction :=
  .call 2 { calm with id := 6, session := (.notStarted, 1, 1) } :: renewalCalls 2 1

/-- Thread 2 is about to record session 6 for start 8 of account 1. -/
def isCompleting (s : StartConfig) : Bool :=
  match s.threads 2 with
  | .call (.completeSessionStart 1 8 6 _ _) _ => true
  | _ => false

theorem isCompleting_thread (h : isCompleting s = true) : ∃ providerStatus completedAt next,
    s.threads 2 = .call (.completeSessionStart 1 8 6 providerStatus completedAt) next := by
  unfold isCompleting at h
  split at h
  · exact ⟨_, _, _, ‹_›⟩
  · cases h

theorem start_completes_sample : ∃ s s' r,
    Reachable ((system sampleCfg).recording noteStart) ((startAlive 1 8).and (previousQuiet 1 8))
        (idle (sampleBeginning, .none)) s ∧
      ((system sampleCfg).recording noteStart).step s (.call 2 calm) = some s' ∧
      s'.world.1.rows.find? (KycEligibility.hasReference 6) = some r ∧ r.accountId = 1 := by
  obtain ⟨s, hrun, hlook⟩ := exists_of_play ((system sampleCfg).recording noteStart)
    (Guard.allows_and ((startAlive 1 8).allows_of_decide fun _ _ => trivial)
      ((previousQuiet 1 8).allows_of_decide fun _ _ => trivial)) (sampleReserved ++ sampleCreated)
    (idle (sampleBeginning, .none)) isCompleting (by decide +kernel)
  obtain ⟨providerStatus, completedAt, next, ht⟩ := isCompleting_thread hlook
  obtain ⟨s', r, hstep, -, hfind, haccount⟩ := (start_completes sampleCfg _ _ _ 1 8 s hrun).1 2 6 providerStatus
    completedAt next ht calm rfl
  exact ⟨s, s', r, hrun, hstep, hfind, haccount⟩

/-- Start 8 of account 1 is being made, and the account is in that state. -/
def isReserved (state : KycEligibilityState) (w : World) : Bool :=
  (w.row 1).any fun r => r.isCreating 1 (some 8) ∧ r.eligibilityState = state

/-- The account is in that state, and session 6 cannot be recorded. -/
def isOrphaned (state : KycEligibilityState) (s : StartConfig) : Bool :=
  ((s.world.1.row 1).any fun r => r.eligibilityState = state) && match s.threads 2 with
    | .call (.completeSessionStart 1 8 6 providerStatus completedAt) _ =>
      !(completeSessionStart 1 8 6 providerStatus completedAt s.world.1).1 &&
        (s.world.1.rows.find? (KycEligibility.hasReference 6)).isNone
    | _ => false

/-- While start 8 is made, a late report on the expired session 5 verifies the
account; session 6, which the provider has created, is not recorded. -/
theorem late_report_orphans_session : ∃ m s r r' providerStatus completedAt next,
    Reachable ((system sampleCfg).recording noteStart) (startAlive 1 8) (idle (sampleBeginning, .none)) m ∧
      m.world.1.row 1 = some r ∧ r.isCreating 1 (some 8) = true ∧ r.eligibilityState = .notStarted ∧
      Reachable ((system sampleCfg).recording noteStart) (startAlive 1 8) m s ∧
      s.world.1.row 1 = some r' ∧ r'.eligibilityState = .eligible ∧
      s.threads 2 = .call (.completeSessionStart 1 8 6 providerStatus completedAt) next ∧
      completeSessionStart 1 8 6 providerStatus completedAt s.world.1 = (false, s.world.1) ∧
      s.world.1.rows.find? (KycEligibility.hasReference 6) = none := by
  obtain ⟨m, s, hm, hs, hlook⟩ := exists_of_play_play ((system sampleCfg).recording noteStart)
    ((startAlive 1 8).allows_of_decide fun _ _ => trivial) sampleReserved
    (sampleApprove 3 5 (sampleWebhook 2 .approved 1700000200) ++ sampleCreated) (idle (sampleBeginning, .none))
    (fun m s => isReserved .notStarted m.world.1 && isOrphaned .eligible s) (by decide +kernel)
  obtain ⟨hreserved, horphaned⟩ := Bool.and_eq_true_iff.mp hlook
  obtain ⟨r, hr, hmarked⟩ := (Option.any_eq_true _ _).mp hreserved
  obtain ⟨hcreating, hstate⟩ := of_decide_eq_true hmarked
  obtain ⟨hrow, hthread⟩ := Bool.and_eq_true_iff.mp horphaned
  obtain ⟨r', hr', hstate'⟩ := (Option.any_eq_true _ _).mp hrow
  split at hthread
  · rename_i providerStatus completedAt next ht
    obtain ⟨hfailed, hnone⟩ := Bool.and_eq_true_iff.mp hthread
    refine ⟨m, s, r, r', providerStatus, completedAt, next, hm, hr, hcreating, hstate, hs, hr',
      of_decide_eq_true hstate', ht, ?_, by simpa using hnone⟩
    unfold completeSessionStart at hfailed ⊢
    split at hfailed
    · cases hfailed
    · rename_i hunmarked
      rw [if_neg hunmarked]
  · cases hthread

end Kyc
