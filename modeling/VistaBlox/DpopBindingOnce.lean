import Mathlib.Data.List.Basic
import VistaBlox.DpopBinding

/-!
# A session keeps the first key it is bound to

The key is written to a session that was read as unbound some calls earlier, so of two
requests with different keys the second can replace the first.
-/
namespace DpopBinding

open Interleaving JsonText List Option
open Dpop (Jose DpopProofClaims DpopEnforcementOptions lit)
open Function (update_of_ne update_self)

section Rules

variable {R : Type}

/-- What a request read was so when it read it. -/
def Sight.Holds (bindings : List Binding) (v : Sight) : Prop :=
  match v.read with
  | none => ∀ b ∈ bindings.take v.bindings, b.session ≠ v.session
  | some jkt => ⟨v.session, jkt⟩ ∈ bindings

/-- A request that read its session as bound has shown a proof by that key. -/
def Sight.Proven (v : Sight) : Prop := ∀ jkt, v.read = some jkt → v.proof.map DpopProofClaims.jkt = some jkt

/-- The first key written to a session. -/
def firstKey (bindings : List Binding) (session : Text) : Option Text :=
  (bindings.find? fun b => b.session = session).map Binding.jkt

structure Sound (w : World R) : Prop where
  stored : ∀ r ∈ w.sessions, r.dpopJkt = firstKey w.bindings r.id
  one : ∀ b ∈ w.bindings, ∀ b' ∈ w.bindings, b'.session = b.session → b'.jkt = b.jkt
  listed : ∀ r ∈ w.sessions, r.id ∈ w.created
  known : ∀ b ∈ w.bindings, b.session ∈ w.created
  counted : ∀ t v, w.sights t = some v → v.bindings ≤ w.bindings.length
  seen : ∀ t v, w.sights t = some v → v.Holds w.bindings
  served : ∀ v ∈ w.served, v.Proven ∧ ∀ jkt, v.read = some jkt → ⟨v.session, jkt⟩ ∈ w.bindings

/-- The request of this thread is at a sight with the property. -/
def At (t : Nat) (φ : Sight → Prop) (w : World R) : Prop := ∃ v, w.sights t = some v ∧ φ v

def rules : Rules (World R) Op where
  inv := Sound
  rely t w w' := w.bindings <+: w'.bindings ∧ w'.sights t = w.sights t
  req t op w := match op with
    | .bindDpopKey session _ | .updateSession session _ => At t (fun v => v.session = session ∧ v.read = none) w
    | .next => At t Sight.Proven w
    | _ => True

/-- Nobody has written another key to the session since this request read it. -/
def Undisturbed (t : Nat) (session jkt : Text) (w : World R) : Prop :=
  ∀ v, w.sights t = some v → ∀ b ∈ w.bindings.drop v.bindings, b.session = session → b.jkt = jkt

def firstSight : Guard (World R) (Event R) Op where
  call t op w := match op with
    | .bindDpopKey session jkt | .updateSession session jkt => Undisturbed t session jkt w
    | _ => True
  env _ _ := True

theorem stable_at (t : Nat) (φ : Sight → Prop) : (rules (R := R)).Stable t (At t φ) := by
  rintro w w' _ _ ⟨_, hsame⟩ ⟨v, hv, hφ⟩
  exact ⟨v, hsame.trans hv, hφ⟩

theorem mem_of_firstKey (h : firstKey bindings session = some jkt) : ⟨session, jkt⟩ ∈ bindings := by
  obtain ⟨b, hb, rfl⟩ := map_eq_some_iff.mp h
  have hsession : b.session = session := by simpa using find?_some hb
  subst hsession
  exact mem_of_find?_eq_some hb

theorem not_mem_of_firstKey (h : firstKey bindings session = none) : ∀ b ∈ bindings, b.session ≠ session := by
  simpa [firstKey] using h

theorem firstKey_append (bindings more : List Binding) (session : Text) :
    firstKey (bindings ++ more) session = (firstKey bindings session).or (firstKey more session) := by
  simp only [firstKey, find?_append]
  cases bindings.find? fun b => b.session = session <;> simp

@[simp] theorem firstKey_nil : firstKey [] session = none := rfl

@[simp] theorem firstKey_singleton :
    firstKey [b] session = if b.session = session then some b.jkt else none := by
  by_cases h : b.session = session <;> simp [firstKey, h]

theorem firstKey_of_extends (h : bindings <+: bindings') (hfirst : firstKey bindings session = some jkt) :
    firstKey bindings' session = some jkt := by
  obtain ⟨more, rfl⟩ := h
  rw [firstKey_append, hfirst]
  rfl

theorem firstKey_eq (h : Sound w) (hmem : ⟨session, jkt⟩ ∈ w.bindings) :
    firstKey w.bindings session = some jkt := by
  cases hfirst : firstKey w.bindings session with
  | none => exact absurd rfl (not_mem_of_firstKey hfirst _ hmem)
  | some => exact congrArg some (h.one _ hmem _ (mem_of_firstKey hfirst) rfl)

theorem Sight.Holds.append {bindings more : List Binding} {v : Sight} (hcount : v.bindings ≤ bindings.length)
    (h : v.Holds bindings) : v.Holds (bindings ++ more) := by
  unfold Sight.Holds at h ⊢
  split
  · rename_i hread
    rw [take_append_of_le_length hcount]
    simpa [hread] using h
  · rename_i jkt hread
    simp only [hread] at h
    exact mem_append_left _ h

end Rules

section Steps

variable {R : Type} {w : World R} {t : Nat}

theorem Sound.extend (h : Sound w) {sessions : List AuthSession} {created : List Text} {more : List Binding}
    (hstored : ∀ r ∈ sessions, r.dpopJkt = firstKey (w.bindings ++ more) r.id)
    (hone : ∀ b ∈ w.bindings ++ more, ∀ b' ∈ more, b'.session = b.session → b'.jkt = b.jkt)
    (hlisted : ∀ r ∈ sessions, r.id ∈ created) (hcreated : ∀ id ∈ w.created, id ∈ created)
    (hmore : ∀ b ∈ more, b.session ∈ created) :
    Sound { w with sessions := sessions, created := created, bindings := w.bindings ++ more } where
  stored := hstored
  one b hb b' hb' hsame := by
    obtain hb' | hb' := mem_append.mp hb'
    · obtain hb | hb := mem_append.mp hb
      · exact h.one b hb b' hb' hsame
      · exact (hone b' (mem_append_left _ hb') b hb hsame.symm).symm
    · exact hone b hb b' hb' hsame
  listed := hlisted
  known b hb := (mem_append.mp hb).elim (fun hb => hcreated _ (h.known b hb)) (hmore b)
  counted u v hv := (h.counted u v hv).trans (by simp)
  seen u v hv := (h.seen u v hv).append (h.counted u v hv)
  served v hv := ⟨(h.served v hv).1, fun jkt hread => mem_append_left _ ((h.served v hv).2 jkt hread)⟩

/-- Where the session was read as unbound and nobody has written another key
since, every key written to it is the one about to be. -/
theorem agrees_of_undisturbed (h : Sound w) (hreq : At t (fun v => v.session = session ∧ v.read = none) w)
    (hguard : Undisturbed t session jkt w) : ∀ b ∈ w.bindings, b.session = session → b.jkt = jkt := by
  obtain ⟨v, hv, hsession, hread⟩ := hreq
  intro b hb hb_session
  have hsplit : b ∈ w.bindings.take v.bindings ++ w.bindings.drop v.bindings := by
    rwa [take_append_drop]
  obtain hearly | hlate := mem_append.mp hsplit
  · have hholds := h.seen t v hv
    simp only [Sight.Holds, hread] at hholds
    exact absurd (hb_session.trans hsession.symm) (hholds b hearly)
  · exact hguard v hv b hlate hb_session

theorem bindKey_sound (h : Sound w) (hagrees : ∀ b ∈ w.bindings, b.session = session → b.jkt = jkt) :
    Sound (bindKey session jkt w) := by
  unfold bindKey
  split
  · rename_i hfound
    refine h.extend (fun r hr => ?_) (fun b hb b' hb' hsame => ?_) (fun r hr => ?_) (fun id hid => hid) fun b hb => ?_
    · obtain ⟨row, hrow, rfl⟩ := List.mem_map.mp hr
      split
      · rename_i hid
        subst hid
        show some jkt = firstKey (w.bindings ++ _) row.id
        rw [firstKey_append]
        cases hfirst : firstKey w.bindings row.id with
        | none => simp
        | some => simp [← hagrees _ (mem_of_firstKey hfirst) rfl]
      · rename_i hid
        rw [firstKey_append, ← h.stored row hrow]
        simp [Ne.symm hid]
    · rw [mem_singleton.mp hb'] at hsame ⊢
      obtain hb | hb := mem_append.mp hb
      · exact (hagrees b hb hsame.symm).symm
      · rw [mem_singleton.mp hb]
    · obtain ⟨row, hrow, rfl⟩ := List.mem_map.mp hr
      split <;> exact h.listed row hrow
    · rw [mem_singleton.mp hb]
      obtain ⟨row, hrow, hid⟩ := List.any_eq_true.mp hfound
      exact of_decide_eq_true hid ▸ h.listed row hrow
  · rename_i hnone
    have hsame : (w.sessions.map fun row => if row.id = session then row.bound jkt else row) = w.sessions := by
      refine (map_congr_left fun row hrow => if_neg fun hid => hnone ?_).trans (List.map_id _)
      exact List.any_eq_true.mpr ⟨row, hrow, decide_eq_true hid⟩
    rw [hsame]
    exact h

theorem create_sound (h : Sound w) (hfresh : row.id ∉ w.created) : Sound (create row w) := by
  have hnone : firstKey w.bindings row.id = none := by
    cases hfirst : firstKey w.bindings row.id with
    | none => rfl
    | some => exact absurd (h.known _ (mem_of_firstKey hfirst)) hfresh
  have hmore : ∀ b ∈ (row.dpopJkt.map fun jkt => (⟨row.id, jkt⟩ : Binding)).toList,
      b.session = row.id ∧ row.dpopJkt = some b.jkt := by
    intro b hb
    obtain ⟨jkt, hjkt, rfl⟩ := map_eq_some_iff.mp (mem_toList.mp hb)
    exact ⟨rfl, hjkt⟩
  refine h.extend (fun r hr => ?_) (fun b hb b' hb' hsame => ?_) (fun r hr => ?_) (fun id hid => ?_) fun b hb => ?_
  · obtain hr | hr := mem_append.mp hr
    · have hother : row.id ≠ r.id := fun hid => hfresh (hid ▸ h.listed r hr)
      rw [firstKey_append, ← h.stored r hr]
      cases row.dpopJkt <;> simp [hother]
    · rw [mem_singleton.mp hr, firstKey_append, hnone]
      cases row.dpopJkt <;> simp
  · obtain ⟨hid, hkey⟩ := hmore b' hb'
    obtain hb | hb := mem_append.mp hb
    · exact absurd (hid ▸ hsame ▸ h.known b hb) hfresh
    · exact some.inj (hkey.symm.trans (hmore b hb).2)
  · obtain hr | hr := mem_append.mp hr
    · exact mem_append_left _ (h.listed r hr)
    · simp [mem_singleton.mp hr]
  · exact mem_append_left _ hid
  · simp [(hmore b hb).1]

theorem look_sound (h : Sound w) (session : Text) : Sound (look t session w).2 := by
  unfold look
  split
  · exact h
  · rename_i row hrow
    have hmem := mem_of_find?_eq_some hrow
    have hnew : (⟨row.id, row.dpopJkt, w.bindings.length, none⟩ : Sight).Holds w.bindings := by
      unfold Sight.Holds
      split
      · rename_i hread
        simpa using not_mem_of_firstKey ((h.stored row hmem).symm.trans hread)
      · rename_i jkt hread
        exact mem_of_firstKey ((h.stored row hmem).symm.trans hread)
    refine ⟨h.stored, h.one, h.listed, h.known, fun u v hv => ?_, fun u v hv => ?_, h.served⟩
    all_goals
      by_cases hu : u = t
      · subst hu
        simp only [update_self, some.injEq] at hv
        subst hv
        first | exact le_rfl | exact hnew
      · simp only [update_of_ne hu] at hv
        first | exact h.counted u v hv | exact h.seen u v hv

theorem noteProof_sound (h : Sound w) : Sound (noteProof t claims w) := by
  have hold : ∀ u v, (noteProof t claims w).sights u = some v →
      ∃ v', w.sights u = some v' ∧ v'.bindings = v.bindings ∧ (v'.Holds w.bindings → v.Holds w.bindings) := by
    intro u v hv
    simp only [noteProof] at hv
    by_cases hu : u = t
    · subst hu
      simp only [update_self, map_eq_some_iff] at hv
      obtain ⟨v', hv', rfl⟩ := hv
      exact ⟨v', hv', rfl, fun hh => hh⟩
    · exact ⟨v, by simpa [update_of_ne hu] using hv, rfl, fun hh => hh⟩
  refine ⟨h.stored, h.one, h.listed, h.known, fun u v hv => ?_, fun u v hv => ?_, h.served⟩
  · obtain ⟨v', hv', hcount, -⟩ := hold u v hv
    exact hcount ▸ h.counted u v' hv'
  · obtain ⟨v', hv', -, hholds⟩ := hold u v hv
    exact hholds (h.seen u v' hv')

theorem Sound.withProofs (h : Sound w) (proofs : Dpop.World R) : Sound { w with proofs } :=
  ⟨h.stored, h.one, h.listed, h.known, h.counted, h.seen, h.served⟩

theorem next_sound (h : Sound w) (hreq : At t Sight.Proven w) :
    Sound { w with served := w.served ++ (w.sights t).toList } := by
  obtain ⟨v, hv, hproven⟩ := hreq
  refine ⟨h.stored, h.one, h.listed, h.known, h.counted, h.seen, fun v' hv' => ?_⟩
  obtain hold | hnew := mem_append.mp hv'
  · exact h.served v' hold
  · rw [hv, toList_some, mem_singleton] at hnew
    subst hnew
    refine ⟨hproven, fun jkt hread => ?_⟩
    have hholds := h.seen t _ hv
    simpa only [Sight.Holds, hread] using hholds

end Steps

section Calls

variable {R : Type} [Ring R] [LinearOrder R] [FloorRing R] {lib : Jose} {t : Nat} {w : World R}

theorem runProof_cases (lib : Jose) (t : Nat) (op : Dpop.Op) (w : World R) :
    (∃ proofs, (runProof lib t op w).2 = { w with proofs }) ∨
      ∃ proofs claims, (runProof lib t op w).2 = noteProof t claims { w with proofs } := by
  cases op with
  | recordProof claims =>
    simp only [runProof]
    split
    · exact .inr ⟨_, claims, rfl⟩
    · exact .inl ⟨_, rfl⟩
  | _ => exact .inl ⟨_, rfl⟩

omit [Ring R] [LinearOrder R] [FloorRing R] in
theorem bindKey_extends : w.bindings <+: (bindKey session jkt w).bindings := by
  unfold bindKey
  split
  · exact prefix_append _ _
  · exact prefix_rfl

/-- A request does not touch what another has read. -/
theorem run_rely (op : Op) (c : Choice) (hu : u ≠ t) : (rules (R := R)).rely u w (op.run lib t c w).2 := by
  cases op with
  | proof op =>
    obtain ⟨proofs, hrun⟩ | ⟨proofs, claims, hrun⟩ := runProof_cases lib t op w
    · exact hrun ▸ ⟨prefix_rfl, rfl⟩
    · exact hrun ▸ ⟨prefix_rfl, update_of_ne hu _ _⟩
  | resolve =>
    simp only [Op.run, look]
    split
    · exact ⟨prefix_rfl, rfl⟩
    · split
      · exact ⟨prefix_rfl, rfl⟩
      · exact ⟨prefix_rfl, update_of_ne hu _ _⟩
  | bindDpopKey | updateSession => exact ⟨bindKey_extends, rfl⟩
  | findByBetterAuthUserId | next => exact ⟨prefix_rfl, rfl⟩

/-- Every operation keeps the sessions bound to their first keys. -/
theorem run_sound (op : Op) (c : Choice) (h : Sound w) (hreq : rules.req t op w) (hguard : firstSight.call t op w) :
    Sound (op.run lib t c w).2 := by
  cases op with
  | proof op =>
    obtain ⟨proofs, hrun⟩ | ⟨proofs, claims, hrun⟩ := runProof_cases lib t op w
    · exact hrun ▸ h.withProofs proofs
    · exact hrun ▸ noteProof_sound (h.withProofs proofs)
  | resolve session =>
    simp only [Op.run]
    split
    · exact h
    · exact look_sound h session
  | bindDpopKey
  | updateSession => exact bindKey_sound h (agrees_of_undisturbed h hreq hguard)
  | findByBetterAuthUserId => exact h
  | next => exact next_sound h hreq

theorem exec_keeps (h : Sound w) (hreq : rules.req t op w) (hguard : firstSight.call t op w)
    (hexec : exec lib t op c w = some (r, w')) :
    (rules.inv w' ∧ ∀ u, u ≠ t → rules.rely u w w') ∧
      (w' = w ∨ w' = (op.run lib t c w).2) ∧ ∀ a, r = .ok a → (a, w') = op.run lib t c w := by
  have hrun : rules.inv (op.run lib t c w).2 ∧ ∀ u, u ≠ t → rules.rely u w (op.run lib t c w).2 :=
    ⟨run_sound op c h hreq hguard, fun u hu => run_rely op c hu⟩
  simp only [exec] at hexec
  split at hexec
  · cases hexec
    exact ⟨hrun, .inr rfl, fun a ha => Except.ok.inj ha ▸ rfl⟩
  · rename_i applied _
    simp only [some.injEq, Prod.mk.injEq] at hexec
    obtain ⟨rfl, rfl⟩ := hexec
    cases applied with
    | true => exact ⟨hrun, .inr rfl, fun _ ha => nomatch ha⟩
    | false => exact ⟨⟨h, fun _ _ => ⟨prefix_rfl, rfl⟩⟩, .inl rfl, fun _ ha => nomatch ha⟩

abbrev Spec (R : Type) [Ring R] [LinearOrder R] [FloorRing R] (lib : Jose) {α : Type} :=
  Triple (α := α) (system R lib) firstSight rules

theorem spec_invoke (hreq : ∀ w, P w → rules.req t op w)
    (hpost : ∀ w c, P w → Q (op.run lib t c w).1 (op.run lib t c w).2) (hstable : ∀ a, rules.Stable t (Q a)) :
    Spec R lib t P (invoke op) Q := by
  refine triple_perform (fun w _ => hreq w) (fun w c r w' hinv hP hg hexec => ?_) hstable
  obtain ⟨⟨hinv', hrely⟩, -, hok⟩ := exec_keeps hinv (hreq w hP) hg hexec
  refine ⟨hinv', hrely, fun a ha => ?_⟩
  have hrun := hok a ha
  have hgoal := hpost w c hP
  rw [← hrun] at hgoal
  exact hgoal

end Calls

section Programs

variable {R : Type} [Ring R] [LinearOrder R] [FloorRing R] {lib : Jose} {t : Nat} {α : Type}

theorem spec_proofs (hφ : ∀ v claims, φ v → φ { v with proof := some claims }) (p : Dpop.Run α) :
    Spec R lib t (At t φ) (proofs p) fun _ => At t φ := by
  refine triple_embed _ _ _ (fun _ _ _ _ => trivial) (fun op c w r w' hinv hat hg hexec => ?_) (stable_at t φ) p
  obtain ⟨⟨hinv', hrely⟩, hworld, -⟩ := exec_keeps hinv (show rules.req t (.proof op) w from trivial) hg hexec
  refine ⟨hinv', hrely, ?_⟩
  obtain ⟨v, hv, hv'⟩ := hat
  obtain rfl | rfl := hworld
  · exact ⟨v, hv, hv'⟩
  · obtain ⟨proofs, hrun⟩ | ⟨proofs, claims, hrun⟩ := runProof_cases lib t op w
    · exact ⟨v, (congrArg (fun w : World R => w.sights t) hrun).trans hv, hv'⟩
    · refine ⟨{ v with proof := some claims }, ?_, hφ v claims hv'⟩
      refine (congrArg (fun w : World R => w.sights t) hrun).trans ?_
      simp [noteProof, hv]

theorem spec_proofs_any :
    Spec R lib t (fun _ => True) (proofs p) fun _ _ => True := by
  refine triple_embed _ _ _ (fun _ _ _ _ => trivial) (fun op c w r w' hinv _ hg hexec => ?_)
    Rules.stable_const p
  obtain ⟨hkeep, -, -⟩ := exec_keeps hinv (show rules.req t (.proof op) w from trivial) hg hexec
  exact ⟨hkeep.1, hkeep.2, trivial⟩

theorem ok_of_proofAnswer (h : proofAnswer op r = .ok a) : r = .ok a := by
  unfold proofAnswer at h
  split at h
  · exact congrArg Except.ok (Except.ok.inj h)
  · cases h
  · cases h

theorem spec_proofs_bind (hp : Spec R lib t P (proofs p) Q)
    (hf : ∀ a, Spec R lib t (Q a) (proofs (f a)) Q') :
    Spec R lib t P (proofs (p.bind f)) Q' := by
  rw [proofs, Prog.embed_bind]
  exact triple_bind hp hf

theorem spec_record (hφ : ∀ v claims, φ v → φ { v with proof := some claims }) (window : Option Nat)
    (claims : DpopProofClaims) :
    Spec R lib t (At t φ) (proofs (Dpop.record window claims))
      fun accepted w => accepted = true → At t (fun v => φ v ∧ v.proof = some claims) w := by
  refine spec_proofs_bind (spec_proofs hφ _) fun now => ?_
  refine triple_embed_perform _ _ _ (fun _ _ _ => trivial) (fun w c r w' hinv hat hg hexec => ?_)
    fun a => Rules.Stable.imp_const fun _ => stable_at t _
  obtain ⟨hkeep, -, hok⟩ := exec_keeps hinv (show rules.req t (.proof _) w from trivial) hg hexec
  refine ⟨hkeep.1, hkeep.2, fun a ha haccepted => ?_⟩
  subst haccepted
  obtain rfl : r = .ok true := ok_of_proofAnswer ha
  have hrun := hok true rfl
  obtain ⟨v, hv, hv'⟩ := hat
  simp only [Op.run, runProof] at hrun
  obtain ⟨hfst, hsnd⟩ := Prod.mk.inj hrun
  rw [← hfst, if_pos rfl] at hsnd
  subst hsnd
  exact ⟨{ v with proof := some claims }, by simp [noteProof, hv], hφ v claims hv', rfl⟩

/-- A request with the session's key is proven once its proof is recorded. -/
theorem spec_matching (input : Dpop.ProofInput) (boundJkt : Text) (window : Option Nat)
    (answer : DpopProofClaims → α) :
    Spec R lib t (At t fun v => v.read = some boundJkt)
      (proofs ((Dpop.verifyDpopProof lib input).bind fun claims =>
        if claims.jkt ≠ boundJkt then .fail (.dpop .keyMismatch)
        else (Dpop.record window claims).bind fun accepted =>
          if accepted then .ret (answer claims) else .fail (.dpop .replay)))
      fun a w => (∃ claims, a = answer claims) ∧ At t Sight.Proven w := by
  refine spec_proofs_bind (spec_proofs (fun _ _ h => h) _) fun claims => ?_
  split
  · exact triple_fail
  · rename_i hmatch
    refine spec_proofs_bind (spec_record (fun _ _ h => h) window claims) fun accepted => ?_
    cases accepted with
    | false => exact triple_fail
    | true =>
      refine triple_ret fun w _ h => ?_
      obtain ⟨v, hv, hread, hproof⟩ := h rfl
      refine ⟨⟨claims, rfl⟩, v, hv, fun jkt hjkt => ?_⟩
      rw [hproof, ← hjkt, hread, map_some, not_not.mp hmatch]

/-- Where the request stands once its proof has been dealt with: it has proven
the key it read, and if it is to write one it read none. -/
def Judged (t : Nat) (session : Text) (toBind : Option Text) : World R → Prop :=
  At t fun v => v.Proven ∧ (toBind.isSome = true → v.session = session ∧ v.read = none)

theorem spec_unbound (p : Dpop.Run α) (toBind : α → Option Text) :
    Spec R lib t (At t fun v => v.session = session ∧ v.read = none) (proofs p)
      fun a => Judged t session (toBind a) := by
  refine triple_post (spec_proofs (fun _ _ h => h) p) fun a w _ h => ?_
  obtain ⟨v, hv, hsession, hread⟩ := h
  exact ⟨v, hv, fun jkt hjkt => (some_ne_none jkt (hjkt.symm.trans hread)).elim, fun _ => ⟨hsession, hread⟩⟩

omit [Ring R] [LinearOrder R] [FloorRing R] in
theorem judged_of_proven (h : At t Sight.Proven w) : Judged t session none w := by
  obtain ⟨v, hv, hproven⟩ := h
  exact ⟨v, hv, hproven, fun hnone => nomatch hnone⟩

theorem spec_enforceBoundSessionProof (request : Dpop.Request) (boundJkt : Text)
    (dpop : Option DpopEnforcementOptions) :
    Spec R lib t (At t fun v => v.read = some boundJkt)
      (proofs (Dpop.enforceBoundSessionProof lib request boundJkt dpop)) fun _ => At t Sight.Proven := by
  cases dpop with
  | none => exact triple_fail
  | some dpop => exact triple_post (spec_matching _ boundJkt dpop.replayWindowSeconds fun _ => ()) fun _ _ _ h => h.2

theorem spec_proof_requireAuthentication (request : Dpop.Request) (row : AuthSession)
    (dpop : Option DpopEnforcementOptions) :
    Spec R lib t (At t fun v => v.session = row.id ∧ v.read = row.dpopJkt)
      (proofs (Dpop.requireAuthentication lib request row.toSession dpop)) (Judged t row.id) := by
  unfold Dpop.requireAuthentication
  split
  · rename_i boundJkt hbound
    have hcheck : Spec R lib t _ _ _ :=
      spec_enforceBoundSessionProof request boundJkt dpop
    refine spec_proofs_bind (triple_pre hcheck fun w _ h => ?_) fun _ =>
      triple_ret fun w _ h => judged_of_proven h
    obtain ⟨v, hv, -, hread⟩ := h
    exact ⟨v, hv, hread.trans hbound⟩
  · rename_i hunbound
    refine triple_pre (spec_unbound _ id) fun w _ h => ?_
    obtain ⟨v, hv, hsession, hread⟩ := h
    exact ⟨v, hv, hsession, hread.trans hunbound⟩

/-- The key a decision asks to write. -/
def keyToBind : Dpop.DpopSessionDecision → Option Text
  | .bind jkt => some jkt
  | .pass => none

theorem spec_proof_decideDpopForSession (input : Dpop.ProofInput) (row : AuthSession) (dpop : DpopEnforcementOptions) :
    Spec R lib t (At t fun v => v.session = row.id ∧ v.read = row.dpopJkt)
      (proofs (Dpop.decideDpopForSession lib input row.toSession dpop))
      fun decided => Judged t row.id (keyToBind decided.1) := by
  unfold Dpop.decideDpopForSession
  split
  · rename_i boundJkt hbound
    have hcheck : Spec R lib t _ _ _ :=
      spec_matching input boundJkt dpop.replayWindowSeconds fun claims => (Dpop.DpopSessionDecision.pass, some claims)
    refine triple_pre (triple_post hcheck fun decided w _ h => ?_) fun w _ h => ?_
    · obtain ⟨⟨claims, rfl⟩, hproven⟩ := h
      exact judged_of_proven hproven
    · obtain ⟨v, hv, -, hread⟩ := h
      exact ⟨v, hv, hread.trans hbound⟩
  · rename_i hunbound
    refine triple_pre (spec_unbound _ (keyToBind ∘ Prod.fst)) fun w _ h => ?_
    obtain ⟨v, hv, hsession, hread⟩ := h
    exact ⟨v, hv, hsession, hread.trans hunbound⟩

theorem spec_silent (hreq : ∀ w : World R, At t φ w → rules.req t op w)
    (hsights : ∀ (w : World R) c, (op.run lib t c w).2.sights = w.sights) :
    Spec R lib t (At t φ) (invoke op) fun _ => At t φ := by
  refine spec_invoke hreq (fun w c h => ?_) fun _ => stable_at t φ
  obtain ⟨v, hv, hφ⟩ := h
  exact ⟨v, (congrFun (hsights w c) t).trans hv, hφ⟩

theorem spec_write (hop : op = .bindDpopKey session jkt ∨ op = .updateSession session jkt) :
    Spec R lib t (Judged t session (some jkt)) (invoke op) fun _ => At t Sight.Proven := by
  have hkeep : Spec R lib t (Judged t session (some jkt)) (invoke op)
      fun _ => Judged t session (some jkt) := by
    obtain rfl | rfl := hop
    all_goals
      refine spec_silent (fun w h => ?_) fun _ _ => rfl
      obtain ⟨v, hv, -, hunbound⟩ := h
      exact ⟨v, hv, hunbound rfl⟩
  refine triple_post hkeep fun _ w _ h => ?_
  obtain ⟨v, hv, hproven, -⟩ := h
  exact ⟨v, hv, hproven⟩

theorem spec_nothing_to_bind :
    Spec R lib t (Judged t session none) (.ret () : Run Unit) fun _ => At t Sight.Proven := by
  refine triple_ret fun w _ h => ?_
  obtain ⟨v, hv, hproven, -⟩ := h
  exact ⟨v, hv, hproven⟩

theorem spec_next : Spec R lib t (At t Sight.Proven) (invoke .next) fun _ _ => True :=
  spec_invoke (fun _ h => h) (fun _ _ _ => trivial) fun _ => Rules.stable_const

theorem spec_resolve :
    Spec R lib t (fun _ => True) (invoke (.resolve session))
      fun found w => ∀ row, found = some row → At t (fun v => v.session = row.id ∧ v.read = row.dpopJkt) w := by
  refine spec_invoke (fun _ _ => trivial) (fun w c _ row hrow => ?_) ?_
  · simp only [Op.run, look] at hrow ⊢
    split at hrow
    · cases hrow
    · rename_i husable
      rw [if_neg husable]
      split at hrow
      · cases hrow
      · rename_i found hfound
        cases hrow
        exact ⟨_, update_self .., rfl, rfl⟩
  · exact fun found w w' hinv hinv' hrely h row hrow => stable_at t _ w w' hinv hinv' hrely (h row hrow)

/-- The guard calls the handler only for a proven request. -/
theorem spec_requireAuthentication :
    Spec R lib t (fun _ => True) (requireAuthentication lib request session dpop)
      fun _ _ => True := by
  refine triple_bind (spec_resolve) fun found => ?_
  cases found with
  | none => exact triple_fail
  | some row =>
    refine triple_pre (triple_bind (spec_proof_requireAuthentication request row dpop) fun jkt => ?_)
      fun w _ h => h row rfl
    refine triple_bind (Q := fun _ => At t Sight.Proven) ?_ fun _ => ?_
    · cases jkt with
      | none => exact spec_nothing_to_bind
      | some => exact spec_write (.inl rfl)
    · refine triple_bind (spec_silent (fun _ _ => trivial) fun _ _ => rfl) fun account => ?_
      unfold admitAccount
      split
      · exact triple_fail
      · exact spec_next
      · exact triple_fail

/-- The hook of the sign-in library calls it only for a proven request. -/
theorem spec_betterAuthDpopHook (headers : Dpop.FetchHeaders) :
    Spec R lib t (fun _ => True)
      (betterAuthDpopHook lib path request headers session dpop) fun _ _ => True := by
  unfold betterAuthDpopHook
  split
  · exact triple_done
  · refine triple_bind (spec_resolve) fun found => ?_
    cases found with
    | none => exact triple_done
    | some row =>
      refine triple_pre (triple_bind (spec_proof_decideDpopForSession _ row dpop) fun decided => ?_)
        fun w _ h => h row rfl
      refine triple_bind (Q := fun _ => At t Sight.Proven) ?_ fun _ => spec_next
      cases decided.1 with
      | pass => exact spec_nothing_to_bind
      | bind => exact spec_write (.inr rfl)

end Programs

section Runs

variable {R : Type} [Ring R] [LinearOrder R] [FloorRing R] {lib : Jose}

omit [FloorRing R] in
theorem env_keeps (h : Sound w) (hstep : env e w = some w') : Sound w' ∧ ∀ t, (rules (R := R)).rely t w w' := by
  cases e with
  | tick =>
    obtain ⟨proofs, -, rfl⟩ := map_eq_some_iff.mp hstep
    exact ⟨h.withProofs proofs, fun _ => ⟨prefix_rfl, rfl⟩⟩
  | create =>
    simp only [env, ite_none_left_eq_some, some.injEq] at hstep
    obtain ⟨hfresh, rfl⟩ := hstep
    exact ⟨create_sound h hfresh, fun _ => ⟨prefix_append _ _, rfl⟩⟩
  | delete session =>
    cases hstep
    have hold : ∀ r ∈ w.sessions.filter fun row => row.id ≠ session, r ∈ w.sessions :=
      fun r hr => mem_of_mem_filter hr
    exact ⟨⟨fun r hr => h.stored r (hold r hr), h.one, fun r hr => h.listed r (hold r hr), h.known, h.counted, h.seen,
      h.served⟩, fun _ => ⟨prefix_rfl, rfl⟩⟩

/-- The bindings are sound however the requests interleave. -/
theorem system_sound (lib : Jose) : Interleaving.Sound (system R lib) firstSight rules := by
  refine ⟨fun t job => ?_, fun e w w' hinv _ hstep => env_keeps hinv hstep⟩
  cases job with
  | requireAuthentication => exact spec_requireAuthentication
  | betterAuthDpopHook path request headers =>
    exact spec_betterAuthDpopHook headers
  | other => exact spec_proofs_any

/-- No session yet, and no request. -/
def World.start (proofs : Dpop.World R) : World R := ⟨proofs, [], [], [], fun _ => none, []⟩

omit [Ring R] [LinearOrder R] [FloorRing R] in
theorem start_sound (proofs : Dpop.World R) : Sound (World.start proofs) := by
  constructor <;> simp [World.start]

/-- In every run in which no key is written over another request's, a session
that has a key keeps it, and every request let through on a session it read as
bound has shown a proof by the first key the session was bound to. -/
theorem session_bound_to_first_key (lib : Jose) (proofs : Dpop.World R) (s s' : Config (World R) Refusal Op Op.Out)
    (hs : Reachable (system R lib) firstSight (idle (World.start proofs)) s)
    (hs' : Reachable (system R lib) firstSight s s') :
    (∀ row ∈ s.world.sessions, ∀ row' ∈ s'.world.sessions, row'.id = row.id →
      ∀ jkt, row.dpopJkt = some jkt → row'.dpopJkt = some jkt) ∧
    ∀ v ∈ s'.world.served, ∀ jkt, v.read = some jkt →
      v.proof.map DpopProofClaims.jkt = some jkt ∧ firstKey s'.world.bindings v.session = some jkt := by
  have hsecure := hs.secure (system_sound lib) (secure_idle _ (start_sound proofs))
  have hsound : Sound s'.world := (hs'.secure (system_sound lib) hsecure).1
  have hextends : s.world.bindings <+: s'.world.bindings :=
    hs'.related (system_sound lib) hsecure (fun w w' => w.bindings <+: w'.bindings) (fun _ => prefix_rfl)
      (fun _ _ _ h h' => h.trans h') fun _ _ _ h => h.1
  constructor
  · intro row hrow row' hrow' hid jkt hjkt
    have hfirst : firstKey s.world.bindings row.id = some jkt := (hsecure.1.stored row hrow).symm.trans hjkt
    rw [hsound.stored row' hrow', hid]
    exact firstKey_of_extends hextends hfirst
  · intro v hv jkt hread
    obtain ⟨hproven, hbound⟩ := hsound.served v hv
    exact ⟨hproven jkt hread, firstKey_eq hsound (hbound jkt hread)⟩

end Runs

/-- Any token is a proof for `POST https://api/me`, by the key its first part
names, and told apart from others by its last. -/
def sampleJose : Jose where
  protectedHeader part := some (.object [(lit "typ", .scalar (.string (lit "dpop+jwt"))),
    (lit "alg", .scalar (.string (lit "ES256"))), (lit "jwk", .object [(lit "kty", .scalar (.string (lit "EC"))),
      (lit "crv", .scalar (.string (lit "P-256"))), (lit "x", .scalar (.string part)),
      (lit "y", .scalar (.string (lit "y")))])])
  jwtVerify token _ := some (.object [(lit "htm", .scalar (.string (lit "POST"))),
    (lit "htu", .scalar (.string (lit "https://api/me"))), (lit "iat", .scalar (.number (.finite 0))),
    (lit "jti", .scalar (.string (lit "0123456789abcdef" ++ token.drop 4)))])
  calculateJwkThumbprint jwk := ((jwk.field "x").bind Dpop.Value.text).getD []
  sha256 := id

def sampleRequest (token : String) : Job :=
  .requireAuthentication ⟨lit "post", lit "/me", some (.single (lit token)), none⟩ (lit "session")
    (some ⟨⟨lit "https:", lit "api", []⟩, none, none⟩)

def sampleCall (t : Nat) : Action Choice (Event ℤ) Job := .call t ⟨none, false, some .active⟩

/-- The session is read, and the proof verified and recorded. -/
def sampleSight (t : Nat) (token : String) : List (Action Choice (Event ℤ) Job) :=
  [.spawn t (sampleRequest token), sampleCall t, sampleCall t, sampleCall t, sampleCall t, sampleCall t]

/-- The account is read, and the request goes on. -/
def samplePass (t : Nat) : List (Action Choice (Event ℤ) Job) := [sampleCall t, sampleCall t]

/-- The same after the key has been written. -/
def sampleWrite (t : Nat) : List (Action Choice (Event ℤ) Job) := sampleCall t :: samplePass t

def sampleSession : Action Choice (Event ℤ) Job := .env (.create ⟨lit "session", lit "user", none, 0⟩)

def sampleStart : Config (World ℤ) Refusal Op Op.Out := idle (World.start ⟨0, [], []⟩)

instance (t : Nat) (session jkt : Text) (w : World R) : Decidable (Undisturbed t session jkt w) :=
  decidable_of_iff (∀ v ∈ w.sights t, ∀ b ∈ w.bindings.drop v.bindings, b.session = session → b.jkt = jkt) Iff.rfl

instance (t : Nat) (op : Op) (w : World R) : Decidable (firstSight.call t op w) := by
  dsimp only [firstSight]
  split <;> infer_instance

/-- What is looked at: the keys of the sessions, and the last request let through. -/
def sampleKeys (s : Config (World ℤ) Refusal Op Op.Out) : List (Text × Option Text) :=
  s.world.sessions.map fun row => (row.id, row.dpopJkt)

/-- One request binds the session, and the next one by the same key passes. -/
theorem session_bound_to_first_key_sample :
    ∃ s s', Reachable (system ℤ sampleJose) firstSight sampleStart s ∧
      Reachable (system ℤ sampleJose) firstSight s s' ∧
      sampleKeys s = [(lit "session", some (lit "a"))] ∧ s'.world.served.map Sight.read = [none, some (lit "a")] ∧
      ∀ v ∈ s'.world.served, ∀ jkt, v.read = some jkt → v.proof.map DpopProofClaims.jkt = some jkt ∧
        firstKey s'.world.bindings v.session = some jkt := by
  obtain ⟨s, s', hs, hs', hlook⟩ := exists_of_play_play (system ℤ sampleJose)
    (firstSight.allows_of_decide fun _ _ => trivial) (sampleSession :: sampleSight 1 "a.b.1" ++ sampleWrite 1)
      (sampleSight 2 "a.b.2" ++ samplePass 2) sampleStart
    (fun s s' => sampleKeys s = [(lit "session", some (lit "a"))] ∧
      s'.world.served.map Sight.read = [none, some (lit "a")]) rfl
  obtain ⟨hkeys, hserved⟩ := of_decide_eq_true hlook
  exact ⟨s, s', hs, hs', hkeys, hserved, (session_bound_to_first_key sampleJose _ s s' hs hs').2⟩

/-- Two requests read the session as unbound, by different keys, and both write.
The session ends with the second key, and a request by that key passes. -/
theorem session_rebound_by_overlapping_requests :
    ∃ s s', Reachable (system ℤ sampleJose) Guard.free sampleStart s ∧
      Reachable (system ℤ sampleJose) Guard.free s s' ∧
      sampleKeys s = [(lit "session", some (lit "a"))] ∧ sampleKeys s' = [(lit "session", some (lit "z"))] ∧
      s'.world.served.map Sight.read = [none, none, some (lit "z")] ∧
      firstKey s'.world.bindings (lit "session") = some (lit "a") := by
  obtain ⟨s, s', hs, hs', hlook⟩ := exists_of_play_play (system ℤ sampleJose) Guard.allows_free
    (sampleSession :: sampleSight 1 "a.b.1" ++ sampleSight 2 "z.b.1" ++ sampleWrite 1)
    (sampleWrite 2 ++ sampleSight 3 "z.b.2" ++ samplePass 3) sampleStart
    (fun s s' => sampleKeys s = [(lit "session", some (lit "a"))] ∧ sampleKeys s' = [(lit "session", some (lit "z"))] ∧
      s'.world.served.map Sight.read = [none, none, some (lit "z")] ∧
      firstKey s'.world.bindings (lit "session") = some (lit "a")) rfl
  exact ⟨s, s', hs, hs', of_decide_eq_true hlook⟩

end DpopBinding
