import VistaBlox.OfferingSessions

/-!
# Rules for the sessions
-/
namespace OfferingSessions

open Interleaving Offering ReadCommitted List Option

/-- What a lock protects: the row, with its history variable. -/
def content (db : Ledger) : Row → (Option OfferingRecord × Nat) ⊕ (Option Reservation × Nat)
  | .offering o => .inl (db.tables.offering o, db.resets o)
  | .reservation r => .inr (db.tables.reservation r, db.against r)

/-- From the select of a reset to its commit no reconfirmation of the offering
is between its read of the offering and its commit. -/
def noOverlap : Guard World Empty Op where
  call _ op w := match op with
    | .readOffering o => ∀ x ∈ w.resetting, x.2 ≠ o
    | .selectReconfirmed o => ∀ x ∈ w.reading, x.2 ≠ o
    | _ => True
  env _ _ := True

structure Inv (w : World) : Prop where
  keyed : Table.Keyed Reservation.id w.committed.tables.reservations
  current : ∀ r ∈ w.committed.tables.reservations, r.reservationStage = .reconfirmed →
    w.committed.against r.id = w.committed.resets r.offeringId
  grounds : ∀ g ∈ w.committed.grounds, g.against = g.resets
  apart : ∀ x ∈ w.resetting, ∀ y ∈ w.reading, x.2 ≠ y.2

/-- What the others leave to a session. -/
structure Steady (t : Nat) (w w' : World) : Prop where
  store : Undisturbed content t w.store w'.store
  reading : ∀ o, (t, o) ∈ w'.reading ↔ (t, o) ∈ w.reading
  resetting : ∀ o, (t, o) ∈ w'.resetting ↔ (t, o) ∈ w.resetting
  resets : ∀ o, (t, o) ∈ w.reading → w'.committed.resets o = w.committed.resets o
  reconfirmed : ∀ o, (t, o) ∈ w.resetting → ∀ r ∈ w'.committed.tables.reservations, r.offeringId = o →
    r.reservationStage = .reconfirmed → r ∈ w.committed.tables.reservations

def rules : Rules World Op where
  inv := Inv
  rely := Steady
  req _ _ _ := True

variable {t u : Nat} {w w' : World}

theorem mem_filter_session (xs : List (Nat × OfferingId)) (hu : u ≠ t) (o : OfferingId) :
    (u, o) ∈ xs.filter (fun x => x.1 ≠ t) ↔ (u, o) ∈ xs := by
  simp [hu]

theorem not_mem_filter_session (xs : List (Nat × OfferingId)) (o : OfferingId) :
    (t, o) ∉ xs.filter (fun x => x.1 ≠ t) := by
  simp

theorem mem_mark (h : ∀ o, (t, o) ∈ xs ↔ none = some o) :
    (t, o') ∈ (t, o) :: xs ↔ some o = some o' := by
  have hno : (t, o') ∉ xs := fun hmem => by cases (h o').mp hmem
  simp [hno, eq_comm]

theorem steady_of_store (hcommitted : w'.committed = w.committed)
    (hstore : Undisturbed content u w.store w'.store) (hreading : ∀ o, (u, o) ∈ w'.reading ↔ (u, o) ∈ w.reading)
    (hresetting : ∀ o, (u, o) ∈ w'.resetting ↔ (u, o) ∈ w.resetting) : Steady u w w' := by
  refine ⟨hstore, hreading, hresetting, fun o _ => by rw [hcommitted], fun o _ r hr _ _ => ?_⟩
  rwa [hcommitted] at hr

theorem Inv.store (hw : Inv w) {store : Store Row Write Ledger} (hcommitted : store.committed = w.store.committed) :
    Inv { w with store := store } := by
  have hsame : World.committed { w with store := store } = w.committed := hcommitted
  exact ⟨by rw [hsame]; exact hw.keyed, by rw [hsame]; exact hw.current, by rw [hsame]; exact hw.grounds, hw.apart⟩

theorem apart_filter (h : ∀ x ∈ w.resetting, ∀ y ∈ w.reading, x.2 ≠ y.2) :
    ∀ x ∈ w.resetting.filter (fun x => x.1 ≠ t), ∀ y ∈ w.reading.filter (fun x => x.1 ≠ t), x.2 ≠ y.2 :=
  fun x hx y hy => h x (mem_of_mem_filter hx) y (mem_of_mem_filter hy)

theorem rollback_step (hw : Inv w) : Inv (w.rollback t) ∧ ∀ u, u ≠ t → Steady u w (w.rollback t) :=
  ⟨⟨hw.keyed, hw.current, hw.grounds, apart_filter hw.apart⟩, fun _ hu =>
    steady_of_store rfl (rollback_undisturbed hu) (mem_filter_session _ hu) (mem_filter_session _ hu)⟩

/-- What a session may commit. -/
structure Fair (t : Nat) (w : World) : Prop where
  frame : ∀ row, w.store.holder row ≠ some t → content (w.view t) row = content w.committed row
  keyed : Table.Keyed Reservation.id (w.view t).tables.reservations
  current : ∀ r ∈ (w.view t).tables.reservations, r.reservationStage = .reconfirmed →
    (w.view t).against r.id = (w.view t).resets r.offeringId
  grounds : ∀ g ∈ (w.view t).grounds, g.against = g.resets
  resets : ∀ o, (t, o) ∉ w.resetting → (w.view t).resets o = w.committed.resets o
  reconfirmed : ∀ r ∈ (w.view t).tables.reservations, r.reservationStage = .reconfirmed →
    r ∈ w.committed.tables.reservations ∨ (t, r.offeringId) ∈ w.reading

theorem Fair.of_nothing (hw : Inv w) (h : w.store.pending t = []) : Fair t w := by
  have hview := w.view_of_nothing h
  refine ⟨fun _ _ => by rw [hview], ?_, ?_, ?_, fun _ _ => by rw [hview], fun r hr _ => ?_⟩
  · rw [hview]; exact hw.keyed
  · rw [hview]; exact hw.current
  · rw [hview]; exact hw.grounds
  · rw [hview] at hr
    exact .inl hr

/-- A fair transaction commits without breaking the invariant. -/
theorem Fair.step (h : Fair t w) (hw : Inv w) : Inv (w.commit t) ∧ ∀ u, u ≠ t → Steady u w (w.commit t) := by
  refine ⟨⟨h.keyed, h.current, h.grounds, apart_filter hw.apart⟩, fun u hu => ⟨commit_undisturbed hu h.frame,
    mem_filter_session _ hu, mem_filter_session _ hu, fun o ho => ?_, fun o ho r hr hof hs => ?_⟩⟩
  · exact h.resets o fun hreset => hw.apart _ hreset _ ho rfl
  · refine (h.reconfirmed r hr hs).resolve_right fun hread => ?_
    exact hw.apart _ ho _ hread hof.symm

section Sessions

/-- What a session knows: its writes, the offering whose terms it has read, the
offering it resets, rows it holds, and a fact about the committed ledger. -/
structure Session (t : Nat) (xs : List Write) (rd rs : Option OfferingId) (held : List Row) (E : Ledger → Prop)
    (w : World) : Prop where
  pending : w.store.pending t = xs
  reading : ∀ o, (t, o) ∈ w.reading ↔ rd = some o
  resetting : ∀ o, (t, o) ∈ w.resetting ↔ rs = some o
  held : ∀ row ∈ held, w.store.holder row = some t
  fact : E w.committed

/-- A fact that the other sessions cannot make false. -/
def Survives (rd rs : Option OfferingId) (held : List Row) (E : Ledger → Prop) : Prop :=
  ∀ db db' : Ledger, (∀ row ∈ held, content db' row = content db row) →
    (∀ o, rd = some o → db'.resets o = db.resets o) →
    (∀ o, rs = some o → ∀ r ∈ db'.tables.reservations, r.offeringId = o → r.reservationStage = .reconfirmed →
      r ∈ db.tables.reservations) → E db → E db'

variable {xs : List Write} {rd rs : Option OfferingId} {held : List Row} {E : Ledger → Prop}

theorem Session.stable (hE : Survives rd rs held E) : rules.Stable t (Session t xs rd rs held E) := by
  intro w w' _ _ hs h
  refine ⟨hs.store.pending.trans h.pending, fun o => (hs.reading o).trans (h.reading o),
    fun o => (hs.resetting o).trans (h.resetting o), fun row hrow => (hs.store.holder row).mpr (h.held row hrow), ?_⟩
  exact hE w.committed w'.committed (fun row hrow => hs.store.content row (h.held row hrow))
    (fun o ho => hs.resets o ((h.reading o).mpr ho)) (fun o ho => hs.reconfirmed o ((h.resetting o).mpr ho)) h.fact

theorem Survives.weaken (hE : Survives rd rs held E) (hsub : held ⊆ held') : Survives rd rs held' E :=
  fun db db' hc hr hn => hE db db' (fun row hrow => hc row (hsub hrow)) hr hn

theorem Survives.and (hE : Survives rd rs held E) (hE' : Survives rd rs held E') :
    Survives rd rs held (fun db => E db ∧ E' db) :=
  fun db db' hc hr hn h => ⟨hE db db' hc hr hn h.1, hE' db db' hc hr hn h.2⟩

theorem survives_true : Survives rd rs held (fun _ => True) := fun _ _ _ _ _ _ => trivial

theorem survives_reservation {id : ReservationId} (row : Option Reservation) (hid : .reservation id ∈ held) :
    Survives rd rs held (fun db => db.tables.reservation id = row) := by
  intro db db' hc _ _ h
  have hsame := Sum.inr.inj (hc _ hid)
  rw [← h]
  exact congrArg Prod.fst hsame

abbrev Spec (t : Nat) (P : World → Prop) (p : Run α) (Q : α → World → Prop) : Prop :=
  Triple system noOverlap rules t P p Q

theorem spec_invoke (hstep : ∀ w a w', Inv w → P w → noOverlap.call t op w → op.run t w = some (a, w') →
      Inv w' ∧ (∀ u, u ≠ t → Steady u w w') ∧ Q a w') (hstable : ∀ a, rules.Stable t (Q a)) :
    Spec t P (invoke op) Q := by
  refine triple_perform (fun _ _ _ => trivial) (fun w abort r w' hw hP hg hexec => ?_) hstable
  simp only [system, exec] at hexec
  split at hexec
  · obtain ⟨rfl, rfl⟩ := Prod.mk.inj (some.inj hexec)
    exact ⟨(rollback_step hw).1, (rollback_step hw).2, fun a ha => by cases ha⟩
  · obtain ⟨⟨a, w₁⟩, hrun, heq⟩ := map_eq_some_iff.mp hexec
    obtain ⟨rfl, rfl⟩ := Prod.mk.inj heq
    obtain ⟨hi, hs, hq⟩ := hstep w a w₁ hw hP hg hrun
    exact ⟨hi, hs, fun a' ha => Except.ok.inj ha ▸ hq⟩

theorem spec_begin : Spec t (fun _ => True) (invoke .begin) (fun _ => Session t [] none none [] (fun _ => True)) := by
  refine spec_invoke (fun w a w' hw _ _ hrun => ?_) fun _ => Session.stable survives_true
  obtain ⟨-, rfl⟩ := Prod.mk.inj (some.inj hrun)
  refine ⟨(rollback_step hw).1, (rollback_step hw).2, ?_, fun o => ?_, fun o => ?_, fun row hrow => ?_, trivial⟩
  · simp [World.rollback, World.leave, Store.rollback]
  · exact ⟨fun h => absurd h (not_mem_filter_session w.reading o), fun h => by cases h⟩
  · exact ⟨fun h => absurd h (not_mem_filter_session w.resetting o), fun h => by cases h⟩
  · cases hrow

theorem spec_rollback : Spec t (fun _ => True) (invoke .rollback) (fun _ _ => True) := by
  refine spec_invoke (fun w a w' hw _ _ hrun => ?_) fun _ _ _ _ _ _ _ => trivial
  obtain ⟨-, rfl⟩ := Prod.mk.inj (some.inj hrun)
  exact ⟨(rollback_step hw).1, (rollback_step hw).2, trivial⟩

theorem spec_commit : Spec t (fun w => Fair t w) (invoke .commit) (fun _ _ => True) := by
  refine spec_invoke (fun w a w' hw hfair _ hrun => ?_) fun _ _ _ _ _ _ _ => trivial
  obtain ⟨-, rfl⟩ := Prod.mk.inj (some.inj hrun)
  exact ⟨(hfair.step hw).1, (hfair.step hw).2, trivial⟩

/-- A transaction whose body ends fair keeps the invariant. -/
theorem spec_transaction (hbody : Spec t (Session t [] none none [] (fun _ => True)) body (fun _ w => Fair t w)) :
    Spec t (fun _ => True) (transaction body) (fun _ _ => True) := by
  refine triple_bind spec_begin fun _ => ?_
  refine triple_bind (triple_catch_any hbody fun e => ?_) fun a => ?_
  · exact triple_bind spec_rollback fun _ => triple_fail
  · exact triple_bind spec_commit fun _ => triple_done

theorem spec_conflict (a : α) : Spec t (Session t [] rd rs held E) (.ret a) (fun _ w => Fair t w) :=
  triple_ret fun _ hw h => .of_nothing hw h.pending

theorem lock_step (hw : Inv w) (h : Session t xs rd rs held E w) (hlock : w.store.lock t row = some store) :
    Inv { w with store := store } ∧ (∀ u, u ≠ t → Steady u w { w with store := store }) ∧
      Session t xs rd rs (row :: held) E { w with store := store } := by
  have heq := lock_eq hlock
  have hcommitted : store.committed = w.store.committed := by rw [heq]
  refine ⟨hw.store hcommitted, fun u hu => steady_of_store hcommitted (lock_undisturbed hlock hu)
    (fun _ => Iff.rfl) fun _ => Iff.rfl, ?_, h.reading, h.resetting, fun row' hrow' => ?_, ?_⟩
  · rw [← h.pending, heq]
  · refine lock_held hlock ?_
    rcases mem_cons.mp hrow' with rfl | hmem
    · exact .inl rfl
    · exact .inr (h.held row' hmem)
  · show E store.committed
    rw [hcommitted]
    exact h.fact

/-- The lock keeps the row as it was read. -/
theorem spec_lockReservation (id : ReservationId) (hE : Survives rd rs held E) :
    Spec t (Session t [] rd rs held E) (invoke (.lockReservation id))
      (fun row => Session t [] rd rs (.reservation id :: held) (fun db => E db ∧ db.tables.reservation id = row)) := by
  refine spec_invoke (fun w row w' hw h _ hrun => ?_) fun row => Session.stable
    ((hE.weaken (subset_cons_self ..)).and (survives_reservation row (mem_cons_self ..)))
  obtain ⟨store, hlock, heq⟩ := map_eq_some_iff.mp hrun
  obtain ⟨rfl, rfl⟩ := Prod.mk.inj heq
  obtain ⟨hi, hs, hsess⟩ := lock_step hw h hlock
  refine ⟨hi, hs, hsess.pending, hsess.reading, hsess.resetting, hsess.held, hsess.fact, ?_⟩
  rw [w.view_of_nothing h.pending, World.committed, World.committed, lock_eq hlock]

theorem spec_lockOffering (o : OfferingId) (hE : Survives rd rs held E) :
    Spec t (Session t xs rd rs held E) (invoke (.lockOffering o))
      (fun _ => Session t xs rd rs (.offering o :: held) E) := by
  refine spec_invoke (fun w row w' hw h _ hrun => ?_) fun _ => Session.stable (hE.weaken (subset_cons_self ..))
  obtain ⟨store, hlock, heq⟩ := map_eq_some_iff.mp hrun
  obtain ⟨-, rfl⟩ := Prod.mk.inj heq
  exact lock_step hw h hlock

theorem spec_query (hop : ∀ w, ∃ a, op.run t w = some (a, w)) (hE : Survives rd rs held E) :
    Spec t (Session t xs rd rs held E) (invoke op) (fun _ => Session t xs rd rs held E) := by
  refine spec_invoke (fun w a w' hw h _ hrun => ?_) fun _ => Session.stable hE
  obtain ⟨a', hop⟩ := hop w
  obtain ⟨-, rfl⟩ := Prod.mk.inj (some.inj (hop.symm.trans hrun))
  exact ⟨hw, fun u _ => steady_of_store rfl (.refl content u _) (fun _ => Iff.rfl) fun _ => Iff.rfl, h⟩

theorem spec_readOffering (o : OfferingId) (hE : Survives (some o) rs held E) :
    Spec t (Session t [] none rs held E) (invoke (.readOffering o))
      (fun read => Session t [] (some o) rs held (fun db => E db ∧ db.resets o = read.2)) := by
  refine spec_invoke (fun w read w' hw h hg hrun => ?_) fun read => Session.stable
    (hE.and fun db db' _ hr _ hold => (hr o rfl).trans hold)
  obtain ⟨rfl, rfl⟩ := Prod.mk.inj (some.inj hrun)
  refine ⟨⟨hw.keyed, hw.current, hw.grounds, fun x hx y hy => ?_⟩, fun u hu => ?_, h.pending, fun o' => ?_,
    h.resetting, h.held, h.fact, ?_⟩
  · rcases mem_cons.mp hy with rfl | hy
    · exact hg x hx
    · exact hw.apart x hx y hy
  · exact steady_of_store rfl (.refl content u _) (fun o' => by simp [hu]) fun _ => Iff.rfl
  · exact mem_mark h.reading
  · show w.committed.resets o = (w.view t).resets o
    rw [w.view_of_nothing h.pending]

/-- The reconfirmed reservations of the offering are all among the candidates. -/
def Candidates (o : OfferingId) (ids : List ReservationId) (db : Ledger) : Prop :=
  ∀ r ∈ db.tables.reservations, r.offeringId = o → r.reservationStage = .reconfirmed → r.id ∈ ids

theorem survives_candidates (o : OfferingId) (ids : List ReservationId) :
    Survives rd (some o) held (Candidates o ids) :=
  fun _ _ _ _ hn h r hr hof hs => h r (hn o rfl r hr hof hs) hof hs

theorem spec_selectReconfirmed (o : OfferingId) :
    Spec t (Session t [] none none held (fun _ => True)) (invoke (.selectReconfirmed o))
      (fun ids => Session t [] none (some o) held (Candidates o ids)) := by
  refine spec_invoke (fun w ids w' hw h hg hrun => ?_) fun ids => Session.stable (survives_candidates o ids)
  obtain ⟨rfl, rfl⟩ := Prod.mk.inj (some.inj hrun)
  refine ⟨⟨hw.keyed, hw.current, hw.grounds, fun x hx y hy => ?_⟩, fun u hu => ?_, h.pending, h.reading, fun o' => ?_,
    h.held, fun r hr hof hs => ?_⟩
  · rcases mem_cons.mp hx with rfl | hx
    · exact (hg y hy).symm
    · exact hw.apart x hx y hy
  · exact steady_of_store rfl (.refl content u _) (fun _ => Iff.rfl) fun o' => by simp [hu]
  · exact mem_mark h.resetting
  · rw [w.view_of_nothing h.pending]
    exact List.mem_map_of_mem (mem_filter.mpr ⟨hr, by simp [isReconfirmed, hof, hs]⟩)

theorem spec_write (x : Write) (hE : Survives rd rs held E) :
    Spec t (Session t xs rd rs held E) (invoke (.write x)) (fun _ => Session t (xs ++ [x]) rd rs held E) := by
  refine spec_invoke (fun w a w' hw h _ hrun => ?_) fun _ => Session.stable hE
  cases hrow : x.target with
  | none =>
    simp only [Op.run, hrow, some.injEq, Prod.mk.injEq, true_and] at hrun
    subst hrun
    exact ⟨hw.store rfl, fun u hu => steady_of_store rfl (write_undisturbed x hu) (fun _ => Iff.rfl) fun _ => Iff.rfl,
      by simp [Store.write, h.pending], h.reading, h.resetting, h.held, h.fact⟩
  | some row =>
    simp only [Op.run, hrow, map_eq_some_iff, Prod.mk.injEq, true_and] at hrun
    obtain ⟨store, hlock, rfl⟩ := hrun
    obtain ⟨hi, -, hsess⟩ := lock_step hw h hlock
    have hpending : store.pending t = xs := hsess.pending
    refine ⟨hi.store rfl, fun u hu => ?_, by simp [Store.write, hpending], hsess.reading, hsess.resetting,
      fun row' hrow' => hsess.held row' (mem_cons_of_mem row hrow'), hsess.fact⟩
    refine steady_of_store ?_ ((lock_undisturbed hlock hu).trans (write_undisturbed x hu)) (fun _ => Iff.rfl)
      fun _ => Iff.rfl
    show store.committed = w.store.committed
    rw [lock_eq hlock]

theorem spec_writeAll (ys : List Write) (hE : Survives rd rs held E) :
    ∀ xs, Spec t (Session t xs rd rs held E) (writeAll ys) (fun _ => Session t (xs ++ ys) rd rs held E) := by
  induction ys with
  | nil =>
    intro xs
    refine triple_ret fun w _ h => ?_
    simpa using h
  | cons y ys ih =>
    intro xs
    refine triple_bind (spec_write y hE) fun _ => ?_
    have h := ih (xs ++ [y])
    simpa using h

/-- The rows of reservations. -/
def rowsOf (rs : List Reservation) : List Row := rs.map fun r => .reservation r.id

/-- Locking the candidates one by one. `F` says what is known when some are
kept and some are still to be looked at. -/
theorem spec_lockMatching (test : Reservation → Bool) (F : List Reservation → List ReservationId → Ledger → Prop)
    (hF : ∀ kept rest, Survives rd rs (rowsOf kept ++ held) (F kept rest))
    (hstep : ∀ kept id rest w, Inv w → F kept (id :: rest) w.committed →
      F (kept ++ ((w.committed.tables.reservation id).filter test).toList) rest w.committed)
    (ids : List ReservationId) :
    ∀ kept, Spec t (Session t [] rd rs (rowsOf kept ++ held) (F kept ids)) (lockMatching test ids kept)
      (fun rows => Session t [] rd rs (rowsOf rows ++ held) (F rows [])) := by
  induction ids with
  | nil => exact fun kept => triple_ret fun _ _ h => h
  | cons id ids ih =>
    intro kept
    refine triple_bind (spec_lockReservation id (hF kept (id :: ids))) fun row => ?_
    refine triple_pre (ih (kept ++ (row.filter test).toList)) fun w hw h => ?_
    obtain ⟨hfact, hrow⟩ := h.fact
    refine ⟨h.pending, h.reading, h.resetting, fun x hx => h.held x ?_, ?_⟩
    · simp only [rowsOf, map_append, append_assoc, mem_append] at hx
      rcases hx with hx | hx | hx
      · exact mem_cons_of_mem _ (mem_append_left _ hx)
      · obtain ⟨r, hr, rfl⟩ := List.mem_map.mp hx
        have hid := (Table.find_some (hrow.trans (filter_eq_some_iff.mp (mem_toList.mp hr)).1)).2
        rw [hid]
        exact mem_cons_self ..
      · exact mem_cons_of_mem _ (mem_append_right _ hx)
    · rw [← hrow]
      exact hstep kept id ids w hw hfact

end Sessions

end OfferingSessions
