import VistaBlox.SessionRules

/-!
# The transactions, statement by statement
-/
namespace OfferingSessions

open Interleaving Offering ReadCommitted List Option

section Writes

/-- The write keeps the keys of the rows. -/
def Write.KeepsKeys : Write → Prop
  | .reservation _ f _ => ∀ r, (f r).id = r.id
  | .offering _ f _ => ∀ row, (f row).id = row.id
  | _ => True

/-- The write reconfirms nothing. -/
def Write.Unconfirming : Write → Prop
  | .reservation _ f seen => (∀ r, (f r).reservationStage ≠ .reconfirmed) ∧ seen = none
  | _ => True

/-- The offering a write resets. -/
def Write.resets : Write → Option OfferingId
  | .offering id _ true => some id
  | _ => none

variable {x : Write} {xs : List Write} {db : Ledger}

theorem apply_content (hx : x.KeepsKeys) (hrow : x.target ≠ some row) :
    content (db.apply x) row = content db row := by
  cases x with
  | reservation id f seen =>
    cases row with
    | offering => rfl
    | reservation r =>
      have hne : r ≠ id := fun h => hrow (by rw [h]; rfl)
      have hfind : (db.tables.setReservation id f).reservation r = db.tables.reservation r :=
        Table.find_update_ne hx hne
      cases seen with
      | none => simp only [content, Ledger.apply, hfind, map_none, getD_none]
      | some => simp [content, Ledger.apply, hfind, hne]
  | offering id f reset =>
    cases row with
    | reservation => rfl
    | offering o =>
      have hne : o ≠ id := fun h => hrow (by rw [h]; rfl)
      have hfind : (db.tables.setOffering id f).offering o = db.tables.offering o := Table.find_update_ne hx hne
      cases reset <;> simp [content, Ledger.apply, hfind, hne]
  | position => cases row <;> rfl
  | moneyEvent => cases row <;> rfl
  | materialityRecord => cases row <;> rfl

theorem apply_keyed (hx : x.KeepsKeys) (h : Table.Keyed Reservation.id db.tables.reservations) :
    Table.Keyed Reservation.id (db.apply x).tables.reservations := by
  cases x with
  | reservation =>
    refine Table.Keyed.map h fun r _ => ?_
    split
    · exact hx r
    · rfl
  | offering => exact h
  | position => exact h
  | moneyEvent => exact h
  | materialityRecord => exact h

theorem foldl_keyed (hxs : ∀ x ∈ xs, x.KeepsKeys) :
    ∀ db : Ledger, Table.Keyed Reservation.id db.tables.reservations →
      Table.Keyed Reservation.id (xs.foldl Ledger.apply db).tables.reservations := by
  induction xs with
  | nil => exact fun _ h => h
  | cons x xs ih =>
    intro db h
    exact ih (fun y hy => hxs y (mem_cons_of_mem x hy)) _ (apply_keyed (hxs x (mem_cons_self ..)) h)

theorem apply_reconfirmed (hx : x.Unconfirming) (hr : r ∈ (db.apply x).tables.reservations)
    (hs : r.reservationStage = .reconfirmed) : r ∈ db.tables.reservations := by
  cases x with
  | reservation =>
    obtain ⟨y, hy, rfl⟩ := List.mem_map.mp hr
    split at hs
    · exact absurd hs (hx.1 y)
    · rename_i hne
      rwa [if_neg hne]
  | offering => exact hr
  | position => exact hr
  | moneyEvent => exact hr
  | materialityRecord => exact hr

theorem apply_against (hx : x.Unconfirming) : (db.apply x).against = db.against := by
  cases x with
  | reservation => rw [hx.2]; rfl
  | offering => rfl
  | position => rfl
  | moneyEvent => rfl
  | materialityRecord => rfl

theorem apply_resets (hx : x.resets ≠ some o) : (db.apply x).resets o = db.resets o := by
  cases x with
  | offering id f reset =>
    cases reset with
    | false => rfl
    | true =>
      have hne : o ≠ id := fun h => hx (by rw [h]; rfl)
      simp [Ledger.apply, hne]
  | reservation => rfl
  | position => rfl
  | moneyEvent => rfl
  | materialityRecord => rfl

theorem foldl_reconfirmed (hxs : ∀ x ∈ xs, x.Unconfirming) : ∀ (db : Ledger) (r : Reservation),
    r ∈ (xs.foldl Ledger.apply db).tables.reservations → r.reservationStage = .reconfirmed →
      r ∈ db.tables.reservations := by
  induction xs with
  | nil => exact fun _ _ h _ => h
  | cons x xs ih =>
    intro db r hr hs
    have hmid := ih (fun y hy => hxs y (mem_cons_of_mem x hy)) _ r hr hs
    exact apply_reconfirmed (hxs x (mem_cons_self ..)) hmid hs

theorem foldl_against (hxs : ∀ x ∈ xs, x.Unconfirming) : ∀ db : Ledger,
    (xs.foldl Ledger.apply db).against = db.against :=
  Table.foldl_keeps Ledger.against fun x hx _ => apply_against (hxs x hx)

theorem foldl_resets (hxs : ∀ x ∈ xs, x.resets ≠ some o) : ∀ db : Ledger,
    (xs.foldl Ledger.apply db).resets o = db.resets o :=
  Table.foldl_keeps (fun db : Ledger => db.resets o) fun x hx _ => apply_resets (hxs x hx)

theorem foldl_taken_back (hxs : ∀ x ∈ xs, x.Unconfirming ∧ x.KeepsKeys) {id : ReservationId}
    {f : Reservation → Reservation} (hmem : .reservation id f none ∈ xs) : ∀ (db : Ledger),
    ∀ r ∈ (xs.foldl Ledger.apply db).tables.reservations, r.id = id → r.reservationStage ≠ .reconfirmed := by
  induction xs with
  | nil => cases hmem
  | cons x xs ih =>
    intro db r hr hid hs
    rcases mem_cons.mp hmem with rfl | hmem
    · have hmid := foldl_reconfirmed (fun y hy => (hxs y (mem_cons_of_mem _ hy)).1) _ r hr hs
      obtain ⟨hx, hkeys⟩ := hxs _ (mem_cons_self ..)
      obtain ⟨y, hy, rfl⟩ := List.mem_map.mp hmid
      split at hs
      · exact hx.1 y hs
      · rename_i hne
        rw [if_neg hne] at hid
        exact hne hid
    · exact ih (fun y hy => hxs y (mem_cons_of_mem x hy)) hmem _ r hr hid hs

theorem foldl_grounds (hxs : ∀ x ∈ xs, x.Unconfirming) : ∀ db : Ledger,
    (∀ o p, .position o p ∈ xs → db.against p.reservationId = db.resets o ∧ ∀ x ∈ xs, x.resets ≠ some o) →
    ∀ g ∈ (xs.foldl Ledger.apply db).grounds, g ∈ db.grounds ∨ g.against = g.resets := by
  induction xs with
  | nil => exact fun _ _ g hg => .inl hg
  | cons x xs ih =>
    intro db hpos g hg
    have hx := hxs x (mem_cons_self ..)
    have hlater : ∀ o p, .position o p ∈ xs → (db.apply x).against p.reservationId = (db.apply x).resets o ∧
        ∀ y ∈ xs, y.resets ≠ some o := by
      intro o p hp
      obtain ⟨heq, hno⟩ := hpos o p (mem_cons_of_mem x hp)
      rw [apply_against hx, apply_resets (hno x (mem_cons_self ..))]
      exact ⟨heq, fun y hy => hno y (mem_cons_of_mem x hy)⟩
    obtain hmid | heq := ih (fun y hy => hxs y (mem_cons_of_mem x hy)) _ hlater g hg
    · cases x with
      | position o p =>
        rcases mem_append.mp hmid with hmid | hmid
        · exact .inl hmid
        · obtain rfl := mem_singleton.mp hmid
          exact .inr (hpos o p (mem_cons_self ..)).1
      | reservation => exact .inl hmid
      | offering => exact .inl hmid
      | moneyEvent => exact .inl hmid
      | materialityRecord => exact .inl hmid
    · exact .inr heq

end Writes

section Fairness

variable {t : Nat} {xs : List Write} {rd rs : Option OfferingId} {held : List Row} {E : Ledger → Prop} {w : World}

theorem Session.view_eq (h : Session t xs rd rs held E w) : w.view t = xs.foldl Ledger.apply w.committed := by
  rw [World.view, Store.view, h.pending]
  rfl

theorem Session.frame (h : Session t xs rd rs held E w)
    (hxs : ∀ x ∈ xs, x.KeepsKeys ∧ ∀ row, x.target = some row → row ∈ held) (row : Row)
    (hrow : w.store.holder row ≠ some t) : content (w.view t) row = content w.committed row := by
  rw [h.view_eq]
  refine Table.foldl_keeps (content · row) (fun x hx db => ?_) w.committed
  refine apply_content (hxs x hx).1 (fun htarget => ?_)
  exact hrow (h.held row ((hxs x hx).2 row htarget))

theorem Session.fair (h : Session t xs rd rs held E w) (hw : Inv w)
    (hxs : ∀ x ∈ xs, x.Unconfirming ∧ x.KeepsKeys ∧ ∀ row, x.target = some row → row ∈ held)
    (hreset : ∀ x ∈ xs, ∀ o, x.resets = some o → rs = some o ∧
      ∀ r ∈ (xs.foldl Ledger.apply w.committed).tables.reservations, r.offeringId = o →
        r.reservationStage ≠ .reconfirmed)
    (hpos : ∀ o p, .position o p ∈ xs → w.committed.against p.reservationId = w.committed.resets o ∧
      ∀ x ∈ xs, x.resets ≠ some o) : Fair t w where
  frame := h.frame fun x hx => (hxs x hx).2
  keyed := by
    rw [h.view_eq]
    exact foldl_keyed (fun x hx => (hxs x hx).2.1) w.committed hw.keyed
  current r hr hs := by
    rw [h.view_eq] at hr ⊢
    rw [foldl_against fun x hx => (hxs x hx).1, foldl_resets fun x hx hres => (hreset x hx _ hres).2 r hr rfl hs]
    exact hw.current r (foldl_reconfirmed (fun x hx => (hxs x hx).1) _ r hr hs) hs
  grounds g hg := by
    rw [h.view_eq] at hg
    obtain hold | heq := foldl_grounds (fun x hx => (hxs x hx).1) w.committed hpos g hg
    · exact hw.grounds g hold
    · exact heq
  resets o ho := by
    rw [h.view_eq]
    exact foldl_resets (fun x hx hres => ho ((h.resetting o).mpr (hreset x hx o hres).1)) w.committed
  reconfirmed r hr hs := by
    rw [h.view_eq] at hr
    exact .inl (foldl_reconfirmed (fun x hx => (hxs x hx).1) _ r hr hs)

end Fairness

/-- What a reconfirmation knows when it writes: its own row, and the reset count of the terms it has read. -/
def Terms (row : Reservation) (seen : Nat) (db : Ledger) : Prop :=
  db.tables.reservation row.id = some row ∧ db.resets row.offeringId = seen

theorem survives_terms (row : Reservation) (seen : Nat) (hheld : .reservation row.id ∈ held) :
    Survives (some row.offeringId) none held (Terms row seen) :=
  (survives_reservation (some row) hheld).and fun _ _ _ hr _ h => (hr _ rfl).trans h

theorem fair_reconfirm
    (h : Session t [.reservation row.id (Reservation.reconfirm reconfirmedAt) (some seen)] (some row.offeringId) none
      held (Terms row seen) w) (hw : Inv w) (hheld : .reservation row.id ∈ held) : Fair t w := by
  have hview : w.view t =
      w.committed.apply (.reservation row.id (Reservation.reconfirm reconfirmedAt) (some seen)) := h.view_eq
  have hkeys : (Write.reservation row.id (Reservation.reconfirm reconfirmedAt) (some seen)).KeepsKeys := fun _ => rfl
  obtain ⟨hmem, -⟩ := Table.find_some h.fact.1
  have hcases : ∀ r ∈ (w.view t).tables.reservations, r = row.reconfirm reconfirmedAt ∨
      r ∈ w.committed.tables.reservations ∧ r.id ≠ row.id := by
    intro r hr
    rw [hview] at hr
    obtain ⟨y, hy, rfl⟩ := List.mem_map.mp hr
    by_cases hid : y.id = row.id
    · rw [if_pos hid, hw.keyed.eq_of_key hy hmem hid]
      exact .inl rfl
    · rw [if_neg hid]
      exact .inr ⟨hy, hid⟩
  refine ⟨h.frame ?_, ?_, fun r hr hs => ?_, ?_, fun o _ => by rw [hview]; rfl, fun r hr hs => ?_⟩
  · simp only [mem_singleton, forall_eq]
    exact ⟨hkeys, fun x hx => some.inj hx ▸ hheld⟩
  · rw [hview]
    exact apply_keyed hkeys hw.keyed
  · obtain rfl | ⟨hold, hne⟩ := hcases r hr
    · rw [hview]
      show Function.update w.committed.against row.id seen row.id = w.committed.resets row.offeringId
      rw [Function.update_self, h.fact.2]
    · rw [hview]
      show Function.update w.committed.against row.id seen r.id = w.committed.resets r.offeringId
      rw [Function.update_of_ne hne]
      exact hw.current r hold hs
  · rw [hview]
    exact hw.grounds
  · obtain rfl | ⟨hold, -⟩ := hcases r hr
    · exact .inr ((h.reading row.offeringId).mpr rfl)
    · exact .inl hold

theorem spec_reconfirmLocked (reconfirmedAt : Nat) (row : Reservation) :
    Spec t (Session t [] none none [.reservation row.id] (fun db => db.tables.reservation row.id = some row))
      (reconfirmLocked reconfirmedAt row) (fun _ w => Fair t w) := by
  have hheld : Row.reservation row.id ∈ [Row.reservation row.id] := mem_cons_self ..
  refine triple_bind (spec_readOffering row.offeringId (survives_reservation (some row) hheld)) fun read => ?_
  obtain ⟨found, seen⟩ := read
  have hterms := survives_terms row seen hheld
  cases found with
  | none => exact triple_fail
  | some =>
    refine triple_bind (spec_query (fun _ => ⟨_, rfl⟩) hterms) fun pack => ?_
    split_ifs
    · exact spec_conflict _
    · exact spec_conflict _
    · refine triple_bind (spec_write _ hterms) fun _ => ?_
      exact triple_ret fun w hw h => fair_reconfirm h hw hheld

/-- A reconfirmation keeps the invariant whatever runs beside it. -/
theorem spec_reconfirmReservation (reconfirmedAt : Nat) (id : ReservationId) (a : AccountId) :
    Spec t (fun _ => True) (reconfirmReservation reconfirmedAt id a) (fun _ _ => True) := by
  refine spec_transaction (triple_bind (spec_lockReservation id survives_true) fun row => ?_)
  cases row with
  | none => exact spec_conflict _
  | some reservation =>
    dsimp only
    split_ifs
    · exact spec_conflict _
    · exact spec_conflict _
    · refine triple_pre (spec_reconfirmLocked reconfirmedAt reservation) fun w _ h => ?_
      have hid := (Table.find_some h.fact.2).2
      subst hid
      exact ⟨h.pending, h.reading, h.resetting, h.held, h.fact.2⟩

/-- What a reset knows while it locks its candidates. -/
def Collected (o : OfferingId) (kept : List Reservation) (rest : List ReservationId) (db : Ledger) : Prop :=
  Candidates o (kept.map Reservation.id ++ rest) db

theorem collected_step (o : OfferingId) (kept : List Reservation) (id : ReservationId) (rest : List ReservationId)
    (w : World) (hw : Inv w) (h : Collected o kept (id :: rest) w.committed) :
    Collected o (kept ++ ((w.committed.tables.reservation id).filter (isReconfirmed o)).toList) rest w.committed := by
  intro r hr hof hs
  have hmem := h r hr hof hs
  simp only [map_append, append_assoc, mem_append, mem_cons] at hmem ⊢
  rcases hmem with hmem | rfl | hmem
  · exact .inl hmem
  · refine .inr (.inl ?_)
    have hfind : w.committed.tables.reservation r.id = some r := hw.keyed.find hr
    rw [hfind]
    simp [Option.filter, isReconfirmed, hof, hs]
  · exact .inr (.inr hmem)

def resetWrites (input : ClassifyMaterialityInput) (rows : List Reservation) : List Write :=
  rows.map (fun r => .reservation r.id Reservation.reset none) ++
    [.offering input.offeringId (OfferingRecord.moveWindow input.classifiedAt) true]

theorem spec_resetReconfirmations :
    Spec t (Session t [] none none [.offering input.offeringId] (fun _ => True)) (resetReconfirmations input)
      (fun _ w => ∃ rows, Session t (resetWrites input rows) none (some input.offeringId)
        (rowsOf rows ++ [.offering input.offeringId]) (Collected input.offeringId rows []) w) := by
  have hsurvives : ∀ kept rest, Survives none (some input.offeringId) (rowsOf kept ++ [.offering input.offeringId])
      (Collected input.offeringId kept rest) := fun _ _ => survives_candidates _ _
  refine triple_bind (spec_selectReconfirmed input.offeringId) fun ids => ?_
  refine triple_bind (spec_lockMatching (isReconfirmed input.offeringId) (Collected input.offeringId) hsurvives
    (collected_step input.offeringId) ids []) fun rows => ?_
  refine triple_bind (spec_writeAll _ (hsurvives rows []) []) fun _ => ?_
  refine triple_bind (spec_write _ (hsurvives rows [])) fun _ => ?_
  exact triple_ret fun w _ h => ⟨rows, h⟩

theorem fair_reset
    (h : Session t (resetWrites input rows ++ [.materialityRecord (record input)]) none (some input.offeringId)
      (rowsOf rows ++ [.offering input.offeringId]) (Collected input.offeringId rows []) w) (hw : Inv w) :
    Fair t w := by
  have hxs : ∀ x ∈ resetWrites input rows ++ [.materialityRecord (record input)], x.Unconfirming ∧ x.KeepsKeys ∧
      ∀ row, x.target = some row → row ∈ rowsOf rows ++ [.offering input.offeringId] := by
    simp only [resetWrites, mem_append, List.mem_map, mem_singleton]
    rintro x ((⟨r, hr, rfl⟩ | rfl) | rfl)
    · exact ⟨⟨fun _ => by simp [Reservation.reset], rfl⟩, fun _ => rfl, fun row hrow =>
        .inl (List.mem_map.mpr ⟨r, hr, some.inj hrow⟩)⟩
    · exact ⟨trivial, fun _ => rfl, fun row hrow => .inr (some.inj hrow).symm⟩
    · exact ⟨trivial, trivial, fun row hrow => by cases hrow⟩
  refine h.fair hw hxs (fun x hx o hres => ?_) fun o p hp => ?_
  · have hoff : o = input.offeringId := by
      simp only [resetWrites, mem_append, List.mem_map, mem_singleton] at hx
      rcases hx with (⟨r, hr, rfl⟩ | rfl) | rfl
      · cases hres
      · exact (some.inj hres).symm
      · cases hres
    subst hoff
    refine ⟨rfl, fun r hr hof hs => ?_⟩
    have hold := foldl_reconfirmed (fun x hx => (hxs x hx).1) _ r hr hs
    obtain ⟨row, hrow, hid⟩ := List.mem_map.mp (by simpa using h.fact r hold hof hs : r.id ∈ rows.map Reservation.id)
    have hwrite : Write.reservation row.id Reservation.reset none ∈
        resetWrites input rows ++ [.materialityRecord (record input)] :=
      mem_append_left _ (mem_append_left _ (List.mem_map.mpr ⟨row, hrow, rfl⟩))
    exact foldl_taken_back (fun x hx => ⟨(hxs x hx).1, (hxs x hx).2.1⟩) hwrite _ r hr hid.symm hs
  · simp [resetWrites] at hp

theorem fair_record (h : Session t [.materialityRecord (record input)] none none held E w) (hw : Inv w) :
    Fair t w := by
  refine h.fair hw (fun x hx => ?_) (fun x hx o hres => ?_) fun o p hp => ?_
  · obtain rfl := mem_singleton.mp hx
    exact ⟨trivial, trivial, fun row hrow => by cases hrow⟩
  · obtain rfl := mem_singleton.mp hx
    cases hres
  · simp at hp

/-- A material change keeps the invariant whatever runs beside it. -/
theorem spec_classifyMateriality :
    Spec t (fun _ => True) (classifyMateriality input) (fun _ _ => True) := by
  refine spec_transaction (triple_bind (spec_lockOffering input.offeringId survives_true) fun row => ?_)
  cases row with
  | none => exact spec_conflict _
  | some offering =>
    dsimp only
    split_ifs with hactive hreset
    · exact spec_conflict _
    · refine triple_bind spec_resetReconfirmations fun reset => ?_
      refine triple_exists fun rows => ?_
      refine triple_bind (spec_write _ (survives_candidates _ _)) fun _ => ?_
      exact triple_ret fun w hw h => fair_reset h hw
    · refine triple_bind (Q := fun _ => Session t [] none none [.offering input.offeringId] fun _ => True)
        (triple_ret fun _ _ h => h) fun reset => ?_
      refine triple_bind (spec_write _ survives_true) fun _ => ?_
      exact triple_ret fun w hw h => fair_record h hw

/-- What the commit knows of the reservations it has locked: they are as they
were, and the reconfirmed ones were reconfirmed against the current terms. -/
def Gathered (o : OfferingId) (rows : List Reservation) (_ : List ReservationId) (db : Ledger) : Prop :=
  ∀ r ∈ rows, r.offeringId = o ∧ (r.reservationStage = .reconfirmed → db.against r.id = db.resets o)

theorem survives_gathered (o : OfferingId) (rows : List Reservation) (rest : List ReservationId) :
    Survives none none (rowsOf rows ++ [.offering o]) (Gathered o rows rest) := by
  intro db db' hc _ _ h r hr
  refine ⟨(h r hr).1, fun hs => ?_⟩
  have hagainst := congrArg Prod.snd (Sum.inr.inj (hc (.reservation r.id)
    (mem_append_left _ (List.mem_map.mpr ⟨r, hr, rfl⟩))))
  have hresets := congrArg Prod.snd (Sum.inl.inj (hc (.offering o)
    (mem_append_right _ (mem_singleton_self _))))
  exact hagainst.trans (((h r hr).2 hs).trans hresets.symm)

theorem gathered_step (o : OfferingId) (kept : List Reservation) (id : ReservationId) (rest : List ReservationId)
    (w : World) (hw : Inv w) (h : Gathered o kept (id :: rest) w.committed) :
    Gathered o (kept ++ ((w.committed.tables.reservation id).filter (committed o)).toList) rest w.committed := by
  refine forall_mem_append.mpr ⟨h, fun r hr => ?_⟩
  obtain ⟨hfind, hsel⟩ := filter_eq_some_iff.mp (mem_toList.mp hr)
  have hof : r.offeringId = o := (of_decide_eq_true hsel).1
  refine ⟨hof, fun hs => ?_⟩
  rw [← hof]
  exact hw.current r (Table.find_some hfind).1 hs

theorem settle_unconfirming (finalizedAt : Nat) (row r : Reservation) :
    (row.settle finalizedAt r).reservationStage ≠ .reconfirmed := by
  unfold Reservation.settle
  split <;> simp

theorem settleWrites_spec (hx : x ∈ settleWrites finalizedAt pivId wallet eventId row) :
    x.Unconfirming ∧ x.KeepsKeys ∧ (∀ target, x.target = some target → target = .reservation row.id) ∧
      x.resets = none ∧ ∀ o p, x = .position o p →
        row.reservationStage = .reconfirmed ∧ o = row.offeringId ∧ p.reservationId = row.id := by
  have hsettle : Write.Unconfirming (.reservation row.id (row.settle finalizedAt) none) ∧
      Write.KeepsKeys (.reservation row.id (row.settle finalizedAt) none) :=
    ⟨⟨settle_unconfirming finalizedAt row, rfl⟩, fun r => (settle_kept finalizedAt r row).1⟩
  unfold settleWrites at hx
  split at hx
  · rename_i hs
    simp only [mem_cons, not_mem_nil, or_false] at hx
    rcases hx with rfl | rfl | rfl
    · refine ⟨trivial, trivial, fun _ h => (by cases h), rfl, fun o p h => ?_⟩
      cases h
      exact ⟨hs, rfl, rfl⟩
    · exact ⟨hsettle.1, hsettle.2, fun _ h => (some.inj h).symm, rfl, fun _ _ h => by cases h⟩
    · exact ⟨trivial, trivial, fun _ h => (by cases h), rfl, fun _ _ h => by cases h⟩
  · obtain rfl := mem_singleton.mp hx
    exact ⟨hsettle.1, hsettle.2, fun _ h => (some.inj h).symm, rfl, fun _ _ h => by cases h⟩

def finalOffering (row : OfferingRecord) : OfferingRecord := { row with status := .finalOffering }

/-- The writes come from the reservations the commit has locked. -/
def Settles (finalizedAt : Nat) (pivId : PivId) (wallet : AccountId → Option Nat) (rows : List Reservation)
    (xs : List Write) : Prop :=
  ∀ x ∈ xs, ∃ row ∈ rows, ∃ eventId, x ∈ settleWrites finalizedAt pivId wallet eventId row

theorem fair_commit (hxs : Settles finalizedAt pivId wallet rows xs)
    (h : Session t (xs ++ [.offering o finalOffering false]) none none (rowsOf rows ++ [.offering o])
      (Gathered o rows []) w) (hw : Inv w) : Fair t w := by
  have hcases : ∀ x ∈ xs ++ [.offering o finalOffering false],
      (∃ row ∈ rows, ∃ eventId, x ∈ settleWrites finalizedAt pivId wallet eventId row) ∨
        x = .offering o finalOffering false := by
    intro x hx
    rcases mem_append.mp hx with hx | hx
    · exact .inl (hxs x hx)
    · exact .inr (mem_singleton.mp hx)
  have hresets : ∀ x ∈ xs ++ [.offering o finalOffering false], x.resets = none := by
    intro x hx
    obtain ⟨row, -, eventId, hx⟩ | rfl := hcases x hx
    · exact (settleWrites_spec hx).2.2.2.1
    · rfl
  refine h.fair hw (fun x hx => ?_) (fun x hx o' hres => by rw [hresets x hx] at hres; cases hres) fun o' p hp => ?_
  · obtain ⟨row, hrow, eventId, hx⟩ | rfl := hcases x hx
    · obtain ⟨hun, hkeys, htarget, -⟩ := settleWrites_spec hx
      exact ⟨hun, hkeys, fun target h' =>
        mem_append_left _ (List.mem_map.mpr ⟨row, hrow, (htarget target h').symm⟩)⟩
    · exact ⟨trivial, fun _ => rfl, fun target h' => mem_append_right _
        (mem_singleton.mpr (some.inj h').symm)⟩
  · refine ⟨?_, fun x hx => by rw [hresets x hx]; exact fun hno => by cases hno⟩
    obtain ⟨row, hrow, eventId, hx⟩ | hx := hcases _ hp
    · obtain ⟨hs, rfl, hid⟩ := (settleWrites_spec hx).2.2.2.2 o' p rfl
      obtain ⟨hof, hcurrent⟩ := h.fact row hrow
      rw [hid, hof]
      exact hcurrent hs
    · cases hx

theorem spec_settleLocked :
    Spec t (Session t [] none none [.offering o] (fun _ => True)) (settleLocked fresh finalizedAt o)
      (fun _ w => Fair t w) := by
  refine triple_bind (spec_query (fun _ => ⟨_, rfl⟩) survives_true) fun found => ?_
  refine triple_bind (triple_pre (spec_lockMatching (committed o) (Gathered o) (survives_gathered o)
    (gathered_step o) found.1 []) fun w _ h => ?_) fun rows => ?_
  · exact ⟨h.pending, h.reading, h.resetting, h.held, fun r hr => by cases hr⟩
  have hsurvives := survives_gathered o rows []
  refine triple_bind (spec_query (fun _ => ⟨_, rfl⟩) hsurvives) fun piv => ?_
  cases piv with
  | none => exact triple_fail
  | some pivId =>
    have hloop := triple_foldlM (S := system) (G := noOverlap) (R := rules) (t := t)
      (I := fun pre w => ∃ xs, Settles finalizedAt pivId found.2 pre xs ∧
        Session t xs none none (rowsOf rows ++ [.offering o]) (Gathered o rows []) w)
      (settleOne fresh finalizedAt pivId found.2) [] rows (fun counts pre row _ _ => ?_) (0, 0)
    · refine triple_bind (triple_pre hloop fun w _ h => ⟨[], fun x hx => (by cases hx), h⟩) fun counts => ?_
      refine triple_exists fun xs => triple_const fun hxs => ?_
      refine triple_bind (spec_write _ hsurvives) fun _ => ?_
      exact triple_ret fun w hw h => fair_commit hxs h hw
    · refine triple_exists fun xs => triple_const fun hxs => ?_
      refine triple_bind (spec_writeAll _ hsurvives _) fun _ => ?_
      refine triple_ret fun w _ h => ⟨_, forall_mem_append.mpr ⟨fun x hx => ?_, fun x hx => ?_⟩, h⟩
      · obtain ⟨y, hy, hxy⟩ := hxs x hx
        exact ⟨y, mem_append_left _ hy, hxy⟩
      · exact ⟨row, mem_append_right _ (mem_singleton_self row), _, hx⟩

/-- The settlement keeps the invariant whatever runs beside it. -/
theorem spec_commitOfferingFinalization :
    Spec t (fun _ => True) (commitOfferingFinalization fresh finalizedAt o) (fun _ _ => True) := by
  refine spec_transaction (triple_bind (spec_lockOffering o survives_true) fun row => ?_)
  cases row with
  | none => exact spec_conflict _
  | some =>
    dsimp only
    split_ifs
    · exact spec_conflict _
    · exact spec_conflict _
    · exact triple_bind spec_settleLocked fun counts => triple_ret fun _ _ h => h

/-- No interleaving of the three transactions breaks the invariant. -/
theorem sound_system : Sound system noOverlap rules where
  job t j := by
    have hend : ∀ {α : Type} {p : Run α}, Spec t (fun _ => True) p (fun _ _ => True) →
        Spec t (fun _ => True) (p.bind fun _ => .ret ()) (fun _ _ => True) :=
      fun hp => triple_bind hp fun _ => triple_done
    cases j with
    | reconfirmReservation id a reconfirmedAt => exact hend (spec_reconfirmReservation reconfirmedAt id a)
    | classifyMateriality => exact hend (spec_classifyMateriality)
    | commitOfferingFinalization =>
      exact hend (spec_commitOfferingFinalization)
  env e := e.elim

end OfferingSessions
