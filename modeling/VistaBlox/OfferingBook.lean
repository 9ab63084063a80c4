import VistaBlox.Offering

/-!
# The book of an offering

`Book` holds in every run. `ClosedBook` and `Landed` hold in the runs that meet a further
condition, so they stand behind a proposition each.

A transaction on existing reservations is a `Restages`; a new hold, money event or offering
has a lemma of its own.
-/
namespace Offering

open List

def MoneyEvent.funded (e : MoneyEvent) : Bool := isReservationFunded (some e.capitalState)

theorem mem_eventsOf : e ∈ eventsOf events r ↔ e ∈ events ∧ e.reservationId = r := by
  simp [eventsOf]

theorem latestMoney_mem (h : latestMoney events r = some e) : e ∈ events ∧ e.reservationId = r :=
  mem_eventsOf.mp (argmax_mem h)

theorem latestMoney_concat_other (h : e.reservationId ≠ r) : latestMoney (events ++ [e]) r = latestMoney events r := by
  simp [latestMoney, eventsOf, filter_append, h]

theorem eventsOf_concat (h : e.reservationId = r) : eventsOf (events ++ [e]) r = eventsOf events r ++ [e] := by
  simp [eventsOf, filter_append, h]

theorem latestMoney_concat (h : e.reservationId = r) :
    latestMoney (events ++ [e]) r = some e ∨ ∃ last, latestMoney events r = some last ∧
      latestMoney (events ++ [e]) r = some last ∧ ¬ last.order < e.order := by
  unfold latestMoney
  rw [eventsOf_concat h, argmax_concat]
  cases (eventsOf events r).argmax MoneyEvent.order with
  | none => exact .inl rfl
  | some last =>
    by_cases hlt : last.order < e.order
    · exact .inl (if_pos hlt)
    · exact .inr ⟨last, rfl, if_neg hlt, hlt⟩

theorem latestMoney_newest (h : e.reservationId = r)
    (hnew : ∀ e' ∈ events, e'.reservationId = r → e'.recordedAt < e.recordedAt) :
    latestMoney (events ++ [e]) r = some e := by
  obtain h | ⟨last, hlast, -, hlt⟩ := latestMoney_concat h
  · exact h
  · obtain ⟨hmem, hr⟩ := latestMoney_mem hlast
    exact absurd (Prod.Lex.left _ _ (hnew last hmem hr)) hlt

theorem latestCapitalState_of_latest (h : latestMoney events r = some e) :
    isReservationFunded (latestCapitalState events r) = e.funded := by
  rw [latestCapitalState, h]
  rfl

theorem exists_funded (h : isReservationFunded (latestCapitalState events r) = true) :
    ∃ e ∈ events, e.reservationId = r ∧ e.funded = true := by
  cases hlast : latestMoney events r with
  | none => simp [latestCapitalState, hlast, isReservationFunded] at h
  | some e =>
    obtain ⟨hmem, hr⟩ := latestMoney_mem hlast
    exact ⟨e, hmem, hr, by rwa [latestCapitalState_of_latest hlast] at h⟩

/-- Where money has ever landed, the latest event says so. -/
def Landed (events : List MoneyEvent) : Prop :=
  ∀ e ∈ events, e.funded = true → isReservationFunded (latestCapitalState events e.reservationId) = true

/-- One more event keeps `Landed` if it is a funded one on top of a funded
state or on top of everything, or an unfunded one where no money has landed. -/
theorem Landed.concat (h : Landed events)
    (hfunded : e.funded = true → isReservationFunded (latestCapitalState events e.reservationId) = true ∨
      ∀ e' ∈ events, e'.reservationId = e.reservationId → e'.recordedAt < e.recordedAt)
    (hunfunded : e.funded = false → ∀ e' ∈ events, e'.reservationId = e.reservationId → e'.funded = false) :
    Landed (events ++ [e]) := by
  have hnew : e.funded = true → isReservationFunded (latestCapitalState (events ++ [e]) e.reservationId) = true := by
    intro he
    obtain hstate | hover := hfunded he
    · obtain hlast | ⟨last, hlast, hlast', -⟩ := latestMoney_concat (rfl : e.reservationId = e.reservationId)
      · rwa [latestCapitalState_of_latest hlast]
      · rw [latestCapitalState_of_latest hlast] at hstate
        rwa [latestCapitalState_of_latest hlast']
    · rwa [latestCapitalState_of_latest (latestMoney_newest rfl hover)]
  intro e' he' hf'
  by_cases hr : e.reservationId = e'.reservationId
  · rw [← hr]
    refine hnew ?_
    by_contra he
    rcases mem_append.mp he' with hmem | hmem
    · exact absurd hf' (by simp [hunfunded (by simpa using he) e' hmem hr.symm])
    · obtain rfl := mem_singleton.mp hmem
      exact he hf'
  · rcases mem_append.mp he' with hmem | hmem
    · rw [latestCapitalState, latestMoney_concat_other hr]
      exact h e' hmem hf'
    · obtain rfl := mem_singleton.mp hmem
      exact absurd rfl hr

theorem Landed.append (h : Landed events)
    (hadded : ∀ e ∈ added, e.funded = true ∧ ∃ e' ∈ events, e'.reservationId = e.reservationId ∧ e'.funded = true) :
    Landed (events ++ added) := by
  induction added generalizing events with
  | nil => simpa using h
  | cons e added ih =>
    obtain ⟨hf, e₀, hmem, hr, hf₀⟩ := hadded e (mem_cons_self ..)
    have hstate := h e₀ hmem hf₀
    rw [hr] at hstate
    have hone := h.concat (fun _ => .inl hstate) (fun hun => absurd hf (by simp [hun]))
    rw [← singleton_append, ← append_assoc]
    refine ih hone fun e' he' => ?_
    obtain ⟨hf', e₁, hmem₁, hr₁, hf₁⟩ := hadded e' (mem_cons_of_mem e he')
    exact ⟨hf', e₁, mem_append_left _ hmem₁, hr₁, hf₁⟩

/-- A stage no transaction leaves. -/
def ReservationStage.terminal (s : ReservationStage) : Prop := s = .finalized ∨ s = .cancelled ∨ s = .lapsed

/-- A stage in which the commit of the finalization finds a reservation. -/
def ReservationStage.awaitsCommit (s : ReservationStage) : Prop := s = .awaitingReconfirmation ∨ s = .reconfirmed

/-- A stage a reservation has before the final terms. -/
def ReservationStage.beforeTerms (s : ReservationStage) : Prop := s = .initiated ∨ s = .lapsed

/-- What can become of a reservation. -/
structure Staged (r r' : Reservation) : Prop where
  id : r'.id = r.id
  offeringId : r'.offeringId = r.offeringId
  amountEur : r'.amountEur = r.amountEur
  terminal : r.reservationStage.terminal → r' = r

theorem Staged.refl (r : Reservation) : Staged r r := ⟨rfl, rfl, rfl, fun _ => rfl⟩

theorem Staged.trans (h : Staged a b) (h' : Staged b c) : Staged a c where
  id := h'.id.trans h.id
  offeringId := h'.offeringId.trans h.offeringId
  amountEur := h'.amountEur.trans h.amountEur
  terminal ht := by
    obtain rfl := h.terminal ht
    exact h'.terminal ht

theorem Staged.live (h : Staged r r') (hlive : r'.reservationStage.live = true) :
    r.reservationStage.live = true := by
  by_contra hdead
  have hterm : r.reservationStage.terminal := by
    cases hs : r.reservationStage <;> simp_all [ReservationStage.live, ReservationStage.terminal]
  exact hdead (h.terminal hterm ▸ hlive)

def OfferingRecord.published (o : OfferingRecord) : Bool := o.finalOfferingPublishedAt.isSome

def Published (w : Database) (o : OfferingId) : Prop := ∃ row ∈ w.offerings, row.id = o ∧ row.published = true

/-- What every run keeps true of the tables. -/
structure Book (w : Database) : Prop where
  offerings : Table.Keyed OfferingRecord.id w.offerings
  reservations : Table.Keyed Reservation.id w.reservations
  positive : ∀ r ∈ w.reservations, 0 < r.amountEur
  placed : ∀ r ∈ w.reservations, ∃ o ∈ w.offerings, o.id = r.offeringId
  priced : ∀ e ∈ w.moneyEvents, ∃ r ∈ w.reservations, r.id = e.reservationId ∧ r.amountEur = e.amountEur
  capacity : ∀ o ∈ w.offerings, reservedCapacityEur w.reservations o.id ≤ o.targetRaiseEur
  beforeTerms : ∀ r ∈ w.reservations, ¬ Published w r.offeringId → r.reservationStage.beforeTerms
  backed : ∀ r ∈ w.reservations, r.reservationStage.awaitsCommit →
    ∃ e ∈ w.moneyEvents, e.reservationId = r.id ∧ e.funded = true

/-- The live reservations take the whole target, and none is still to be paid. -/
structure Closed (reservations : List Reservation) (o : OfferingRecord) : Prop where
  full : reservedCapacityEur reservations o.id = o.targetRaiseEur
  settled : ∀ r ∈ reservations, r.offeringId = o.id → r.reservationStage ≠ .initiated

/-- From the publication to the commit an offering's book is closed. -/
def ClosedBook (w : Database) : Prop :=
  ∀ o ∈ w.offerings, o.published = true → o.status = .preOffering → Closed w.reservations o

structure Inv (covered ordered : Prop) (w : Database) : Prop where
  book : Book w
  closed : covered → ClosedBook w
  landed : ordered → Landed w.moneyEvents

/-- What no step of anybody undoes. -/
structure Moves (covered : Prop) (w w' : Database) : Prop where
  published : ∀ o, Published w o → Published w' o
  reservations : ∀ r ∈ w.reservations, ∃ r' ∈ w'.reservations, Staged r r'
  moneyEvents : w.moneyEvents <+: w'.moneyEvents
  held : covered → ∀ r' ∈ w'.reservations, (∃ r ∈ w.reservations, Staged r r') ∨ ¬ Published w r'.offeringId

theorem Moves.refl (covered : Prop) (w : Database) : Moves covered w w :=
  ⟨fun _ h => h, fun r hr => ⟨r, hr, .refl r⟩, prefix_refl _, fun _ r hr => .inl ⟨r, hr, .refl r⟩⟩

theorem Moves.trans (h : Moves covered a b) (h' : Moves covered b c) :
    Moves covered a c where
  published o ho := h'.published o (h.published o ho)
  reservations r hr := by
    obtain ⟨r₁, hr₁, hs₁⟩ := h.reservations r hr
    obtain ⟨r₂, hr₂, hs₂⟩ := h'.reservations r₁ hr₁
    exact ⟨r₂, hr₂, hs₁.trans hs₂⟩
  moneyEvents := h.moneyEvents.trans h'.moneyEvents
  held hc r₂ hr₂ := by
    obtain ⟨r₁, hr₁, hs₁⟩ | hun := h'.held hc r₂ hr₂
    · obtain ⟨r, hr, hs⟩ | hun := h.held hc r₁ hr₁
      · exact .inl ⟨r, hr, hs.trans hs₁⟩
      · exact .inr (hs₁.offeringId ▸ hun)
    · exact .inr fun hp => hun (h.published _ hp)

theorem reservedCapacityEur_map (hg : ∀ r ∈ rs, (g r).offeringId = r.offeringId ∧ (g r).amountEur = r.amountEur)
    (o : OfferingId) :
    reservedCapacityEur (rs.map g) o =
      Table.tally (fun r => r.offeringId = o ∧ (g r).reservationStage.live = true) Reservation.amountEur rs := by
  unfold reservedCapacityEur
  rw [Table.tally_map]
  exact Table.tally_congr (fun r hr => by rw [(hg r hr).1]) (fun r hr _ => (hg r hr).2)

theorem Closed.map (h : Closed rs o)
    (hg : ∀ r ∈ rs, (g r).offeringId = r.offeringId ∧ (g r).amountEur = r.amountEur)
    (hstage : ∀ r ∈ rs, r.offeringId = o.id → (g r).reservationStage.live = r.reservationStage.live ∧
      ((g r).reservationStage = .initiated → r.reservationStage = .initiated)) : Closed (rs.map g) o where
  full := by
    rw [reservedCapacityEur_map hg, ← h.full]
    refine Table.tally_congr (fun r hr => ?_) (fun _ _ _ => rfl)
    by_cases ho : r.offeringId = o.id
    · simp [ho, (hstage r hr ho).1]
    · simp [ho]
  settled := by
    intro r' hr' ho hinit
    obtain ⟨r, hr, rfl⟩ := List.mem_map.mp hr'
    have hof : r.offeringId = o.id := (hg r hr).1.symm.trans ho
    exact h.settled r hr hof ((hstage r hr hof).2 hinit)

/-- A change of the terms of an offering. -/
structure Reterms (o o' : OfferingRecord) : Prop where
  id : o'.id = o.id
  targetRaiseEur : o'.targetRaiseEur = o.targetRaiseEur
  published : o.published = true → o'.published = true

theorem Reterms.refl (o : OfferingRecord) : Reterms o o := ⟨rfl, rfl, fun h => h⟩

/-- The part of the book that has nothing to do with money. -/
structure Register (w : Database) : Prop where
  offerings : Table.Keyed OfferingRecord.id w.offerings
  reservations : Table.Keyed Reservation.id w.reservations
  placed : ∀ r ∈ w.reservations, ∃ o ∈ w.offerings, o.id = r.offeringId
  capacity : ∀ o ∈ w.offerings, reservedCapacityEur w.reservations o.id ≤ o.targetRaiseEur

theorem Book.register (hw : Book w) : Register w :=
  ⟨hw.offerings, hw.reservations, hw.placed, hw.capacity⟩

theorem Register.map (hw : Register w) (hoff : w'.offerings = w.offerings.map f)
    (hres : w'.reservations = w.reservations.map g) (hf : ∀ o ∈ w.offerings, Reterms o (f o))
    (hg : ∀ r ∈ w.reservations, Staged r (g r)) : Register w' where
  offerings := by
    rw [hoff]
    exact hw.offerings.map fun o ho => (hf o ho).id
  reservations := by
    rw [hres]
    exact hw.reservations.map fun r hr => (hg r hr).id
  placed := by
    rw [hres, List.forall_mem_map]
    intro r hr
    obtain ⟨o, ho, hid⟩ := hw.placed r hr
    refine ⟨f o, hoff ▸ List.mem_map_of_mem ho, ?_⟩
    rw [(hf o ho).id, hid, (hg r hr).offeringId]
  capacity := by
    rw [hoff, List.forall_mem_map, hres]
    intro o ho
    rw [reservedCapacityEur_map fun r hr => ⟨(hg r hr).offeringId, (hg r hr).amountEur⟩, (hf o ho).id,
      (hf o ho).targetRaiseEur]
    refine le_trans (Table.tally_mono fun r hr hlive => ?_) (hw.capacity o ho)
    simp only [decide_eq_true_eq] at hlive ⊢
    exact ⟨hlive.1, (hg r hr).live hlive.2⟩

/-- A transaction on existing rows: it rewrites offerings and reservations in
place and adds events that confirm landed money. -/
structure Restages (w w' : Database) (f : OfferingRecord → OfferingRecord) (g : Reservation → Reservation)
    (added : List MoneyEvent) : Prop where
  offerings : w'.offerings = w.offerings.map f
  reservations : w'.reservations = w.reservations.map g
  moneyEvents : w'.moneyEvents = w.moneyEvents ++ added
  reterms : ∀ o ∈ w.offerings, Reterms o (f o)
  staged : ∀ r ∈ w.reservations, Staged r (g r)
  confirms : ∀ e ∈ added, e.funded = true ∧ ∃ r ∈ w.reservations, r.id = e.reservationId ∧
    r.amountEur = e.amountEur ∧ ∃ e' ∈ w.moneyEvents, e'.reservationId = r.id ∧ e'.funded = true
  beforeTerms : ∀ r ∈ w.reservations, r.reservationStage.beforeTerms →
    (g r).reservationStage.beforeTerms ∨ Published w' r.offeringId
  backed : ∀ r ∈ w.reservations, (g r).reservationStage.awaitsCommit → r.reservationStage.awaitsCommit ∨
    ∃ e ∈ w.moneyEvents, e.reservationId = r.id ∧ e.funded = true

namespace Restages

theorem kept (h : Restages w w' f g added) (r : Reservation) (hr : r ∈ w.reservations) :
    (g r).offeringId = r.offeringId ∧ (g r).amountEur = r.amountEur :=
  ⟨(h.staged r hr).offeringId, (h.staged r hr).amountEur⟩

theorem published (h : Restages w w' f g added) (o : OfferingId) (ho : Published w o) : Published w' o := by
  obtain ⟨row, hrow, hid, hp⟩ := ho
  have ht := h.reterms row hrow
  exact ⟨f row, h.offerings ▸ List.mem_map_of_mem hrow, ht.id.trans hid, ht.published hp⟩

theorem register (h : Restages w w' f g added) (hw : Register w) : Register w' :=
  hw.map h.offerings h.reservations h.reterms h.staged

theorem book (h : Restages w w' f g added) (hw : Book w) : Book w' where
  offerings := (h.register hw.register).offerings
  reservations := (h.register hw.register).reservations
  positive := by
    rw [h.reservations, List.forall_mem_map]
    intro r hr
    rw [(h.staged r hr).amountEur]
    exact hw.positive r hr
  placed := (h.register hw.register).placed
  priced := by
    intro e he
    have hold : ∃ r ∈ w.reservations, r.id = e.reservationId ∧ r.amountEur = e.amountEur := by
      rw [h.moneyEvents, mem_append] at he
      obtain he | he := he
      · exact hw.priced e he
      · obtain ⟨-, r, hr, hid, ham, -⟩ := h.confirms e he
        exact ⟨r, hr, hid, ham⟩
    obtain ⟨r, hr, hid, ham⟩ := hold
    have hs := h.staged r hr
    exact ⟨g r, h.reservations ▸ List.mem_map_of_mem hr, hs.id.trans hid, hs.amountEur.trans ham⟩
  capacity := (h.register hw.register).capacity
  beforeTerms := by
    rw [h.reservations, List.forall_mem_map]
    intro r hr hun
    rw [(h.staged r hr).offeringId] at hun
    have hbefore := hw.beforeTerms r hr fun hp => hun (h.published _ hp)
    exact (h.beforeTerms r hr hbefore).resolve_right hun
  backed := by
    rw [h.reservations, List.forall_mem_map]
    intro r hr hawait
    have hold : ∃ e ∈ w.moneyEvents, e.reservationId = r.id ∧ e.funded = true := by
      obtain hr' | hfund := h.backed r hr hawait
      · exact hw.backed r hr hr'
      · exact hfund
    obtain ⟨e, he, hid, hf⟩ := hold
    exact ⟨e, h.moneyEvents ▸ mem_append_left _ he, hid.trans (h.staged r hr).id.symm, hf⟩

theorem moves (h : Restages w w' f g added) : Moves covered w w' where
  published := h.published
  reservations r hr := ⟨g r, h.reservations ▸ List.mem_map_of_mem hr, h.staged r hr⟩
  moneyEvents := h.moneyEvents ▸ prefix_append _ _
  held _ r' hr' := by
    rw [h.reservations] at hr'
    obtain ⟨r, hr, rfl⟩ := List.mem_map.mp hr'
    exact .inl ⟨r, hr, h.staged r hr⟩

theorem inv (h : Restages w w' f g added) (hw : Inv covered ordered w) (hclosed : covered → ClosedBook w') :
    Inv covered ordered w' ∧ Moves covered w w' := by
  refine ⟨⟨h.book hw.book, hclosed, fun hord => ?_⟩, h.moves⟩
  rw [h.moneyEvents]
  refine (hw.landed hord).append fun e he => ?_
  obtain ⟨hf, r, -, hid, -, e', he', hid', hf'⟩ := h.confirms e he
  exact ⟨hf, e', he', hid'.trans hid, hf'⟩

end Restages

theorem Inv.same (hw : Inv covered ordered w) (ho : w'.offerings = w.offerings)
    (hr : w'.reservations = w.reservations) (hm : w'.moneyEvents = w.moneyEvents) :
    Inv covered ordered w' ∧ Moves covered w w' := by
  have h : Restages w w' (fun o => o) (fun r => r) [] :=
    ⟨by simpa using ho, by simpa using hr, by simpa using hm, fun o _ => .refl o, fun r _ => .refl r, by simp,
      fun _ _ hs => .inl hs, fun _ _ hs => .inl hs⟩
  refine h.inv hw fun hc => ?_
  unfold ClosedBook
  rw [ho, hr]
  exact hw.closed hc

theorem Inv.same_after (h : Inv covered ordered w₁ ∧ Moves covered w w₁) (ho : w₂.offerings = w₁.offerings)
    (hr : w₂.reservations = w₁.reservations) (hm : w₂.moneyEvents = w₁.moneyEvents) :
    Inv covered ordered w₂ ∧ Moves covered w w₂ :=
  ⟨(h.1.same ho hr hm).1, h.2.trans (h.1.same ho hr hm).2⟩

section NewRows

theorem Book.offering_eq (hw : Book w) (ho : o ∈ w.offerings) (ho' : o' ∈ w.offerings) (hid : o.id = o'.id) :
    o = o' := hw.offerings.eq_of_key ho ho' hid

theorem Book.no_events (hw : Book w) {id : ReservationId} (h : w.reservation id = none) :
    ∀ e ∈ w.moneyEvents, e.reservationId ≠ id := by
  rintro e he rfl
  obtain ⟨r, hr, hid, -⟩ := hw.priced e he
  exact Table.find_none h r hr hid

theorem reservedCapacityEur_concat (rs : List Reservation) (r : Reservation) (o : OfferingId) :
    reservedCapacityEur (rs ++ [r]) o = reservedCapacityEur rs o +
      if r.offeringId = o ∧ r.reservationStage.live = true then r.amountEur else 0 := by
  unfold reservedCapacityEur
  rw [Table.tally_append]
  simp only [decide_eq_true_eq]

/-- What the transaction has checked, with the offering locked, when it inserts
a hold. It has not checked that the terms are unpublished. -/
structure Holdable (w : Database) (input : CreateReservationInput) (o : OfferingRecord) : Prop where
  mem : o ∈ w.offerings
  id : o.id = input.offeringId
  status : o.status = .preOffering
  fits : input.amountEur ≤ o.targetRaiseEur - reservedCapacityEur w.reservations input.offeringId
  positive : 0 < input.amountEur
  fresh : w.reservation input.reservationId = none

variable {input : CreateReservationInput} {fresh : Nat → Nat}

/-- Where the books are closed at publication, no hold comes after it. -/
theorem Holdable.unpublished (h : Holdable w input o) (hw : Book w) (hclosed : ClosedBook w) :
    ¬ Published w input.offeringId := by
  rintro ⟨row, hrow, hid, hp⟩
  obtain rfl := hw.offering_eq hrow h.mem (hid.trans h.id.symm)
  have hfull := (hclosed row hrow hp h.status).full
  rw [hid] at hfull
  have := h.fits
  have := h.positive
  omega

theorem Holdable.register (h : Holdable w input o) (hw : Register w) : Register (w.hold fresh input) where
  offerings := hw.offerings
  reservations := hw.reservations.append h.fresh
  placed := forall_mem_append.mpr ⟨hw.placed, by simpa [newReservation] using ⟨o, h.mem, h.id⟩⟩
  capacity := by
    intro o' ho'
    have hcap := hw.capacity o' ho'
    show reservedCapacityEur (w.reservations ++ [newReservation input]) o'.id ≤ o'.targetRaiseEur
    rw [reservedCapacityEur_concat]
    by_cases hid : input.offeringId = o'.id
    · obtain rfl := hw.offerings.eq_of_key h.mem ho' (h.id.trans hid)
      have hfits := h.fits
      rw [hid] at hfits
      split
      · show _ + input.amountEur ≤ _
        omega
      · exact hcap
    · rw [if_neg fun hof => hid hof.1]
      exact hcap

theorem Holdable.book (h : Holdable w input o) (hw : Book w) : Book (w.hold fresh input) where
  offerings := hw.offerings
  reservations := (h.register hw.register).reservations
  positive := forall_mem_append.mpr ⟨hw.positive, by simpa [newReservation] using h.positive⟩
  placed := (h.register hw.register).placed
  priced := by
    refine forall_mem_append.mpr ⟨fun e he => ?_, ?_⟩
    · obtain ⟨r, hr, hrest⟩ := hw.priced e he
      exact ⟨r, mem_append_left _ hr, hrest⟩
    · rw [forall_mem_singleton]
      exact ⟨newReservation input, mem_append_right _ (mem_singleton_self _), rfl, rfl⟩
  capacity := (h.register hw.register).capacity
  beforeTerms := forall_mem_append.mpr ⟨hw.beforeTerms, by simp [newReservation, ReservationStage.beforeTerms]⟩
  backed := by
    refine forall_mem_append.mpr ⟨fun r hr hs => ?_, by simp [newReservation, ReservationStage.awaitsCommit]⟩
    obtain ⟨e, he, hrest⟩ := hw.backed r hr hs
    exact ⟨e, mem_append_left _ he, hrest⟩

theorem Holdable.closed (h : Holdable w input o) (hw : Book w) (hclosed : ClosedBook w) :
    ClosedBook (w.hold fresh input) := by
  intro o' ho' hp hpre
  have hne : (newReservation input).offeringId ≠ o'.id :=
    fun hid => h.unpublished hw hclosed ⟨o', ho', hid.symm, hp⟩
  have hold := hclosed o' ho' hp hpre
  refine ⟨?_, forall_mem_append.mpr ⟨hold.settled, by simpa using fun hid => absurd hid hne⟩⟩
  show reservedCapacityEur (w.reservations ++ [newReservation input]) o'.id = o'.targetRaiseEur
  rw [reservedCapacityEur_concat, if_neg fun hof => hne hof.1]
  exact hold.full

/-- A hold within the capacity keeps the invariant. -/
theorem Holdable.inv (h : Holdable w input o) (hw : Inv covered ordered w) :
    Inv covered ordered (w.hold fresh input) ∧ Moves covered w (w.hold fresh input) := by
  have hnone := hw.book.no_events h.fresh
  refine ⟨⟨h.book hw.book, fun hc => h.closed hw.book (hw.closed hc), fun hord => ?_⟩, ?_⟩
  · exact (hw.landed hord).concat (fun hf => by simp [initiatedEvent, MoneyEvent.funded, isReservationFunded,
      fundedCapitalStates] at hf) (fun _ e he hid => absurd hid (hnone e he))
  · refine ⟨fun _ hp => hp, fun r hr => ⟨r, mem_append_left _ hr, .refl r⟩, prefix_append _ _,
      fun hc => forall_mem_append.mpr ⟨fun r hr => .inl ⟨r, hr, .refl r⟩, ?_⟩⟩
    rw [forall_mem_singleton]
    exact .inr (h.unpublished hw.book (hw.closed hc))

/-- A money event of a reservation's own amount keeps the invariant. -/
theorem Inv.record (hw : Inv covered ordered w)
    (hr : ∃ r ∈ w.reservations, r.id = e.reservationId ∧ r.amountEur = e.amountEur)
    (hlanded : ordered → Landed (w.moneyEvents ++ [e])) :
    Inv covered ordered { w with moneyEvents := w.moneyEvents ++ [e] } ∧
      Moves covered w { w with moneyEvents := w.moneyEvents ++ [e] } := by
  have hb := hw.book
  refine ⟨⟨⟨hb.offerings, hb.reservations, hb.positive, hb.placed, ?_, hb.capacity, hb.beforeTerms, ?_⟩,
    hw.closed, hlanded⟩, fun _ hp => hp, fun r hr => ⟨r, hr, .refl r⟩, prefix_append _ _,
    fun _ r hr => .inl ⟨r, hr, .refl r⟩⟩
  · exact forall_mem_append.mpr ⟨hb.priced, by simpa using hr⟩
  · intro r hr hs
    obtain ⟨e', he', hrest⟩ := hb.backed r hr hs
    exact ⟨e', mem_append_left _ he', hrest⟩

theorem Register.openOffering (hw : Register w) (hfresh : w.offering o.id = none) :
    Register { w with offerings := w.offerings ++ [o] } where
  offerings := hw.offerings.append hfresh
  reservations := hw.reservations
  placed := by
    intro r hr
    obtain ⟨row, hrow, hid⟩ := hw.placed r hr
    exact ⟨row, mem_append_left _ hrow, hid⟩
  capacity := by
    have hnew : ∀ r ∈ w.reservations, r.offeringId ≠ o.id := by
      intro r hr hid
      obtain ⟨row, hrow, hrow'⟩ := hw.placed r hr
      exact Table.find_none hfresh row hrow (hrow'.trans hid)
    refine forall_mem_append.mpr ⟨hw.capacity, ?_⟩
    rw [forall_mem_singleton]
    show reservedCapacityEur w.reservations o.id ≤ o.targetRaiseEur
    rw [reservedCapacityEur, Table.tally_of_none fun r hr => by simp [hnew r hr]]
    exact Nat.zero_le _

/-- A new offering, not yet published, keeps the invariant. -/
theorem Inv.openOffering (hw : Inv covered ordered w) (hfresh : w.offering o.id = none) (hun : o.published = false) :
    Inv covered ordered { w with offerings := w.offerings ++ [o] } ∧
      Moves covered w { w with offerings := w.offerings ++ [o] } := by
  have hb := hw.book
  have hreg := hb.register.openOffering hfresh
  have hpub : ∀ id, Published { w with offerings := w.offerings ++ [o] } id → Published w id := by
    rintro id ⟨row, hrow, hid, hp⟩
    rcases mem_append.mp hrow with hrow | hrow
    · exact ⟨row, hrow, hid, hp⟩
    · rw [mem_singleton.mp hrow, hun] at hp
      cases hp
  refine ⟨⟨⟨hreg.offerings, hb.reservations, hb.positive, hreg.placed, hb.priced, hreg.capacity,
    fun r hr hp => hb.beforeTerms r hr fun hp' => hp ?_, hb.backed⟩,
    fun hc => forall_mem_append.mpr ⟨hw.closed hc, ?_⟩, hw.landed⟩,
    fun id hp => ?_, fun r hr => ⟨r, hr, .refl r⟩, prefix_refl _, fun _ r hr => .inl ⟨r, hr, .refl r⟩⟩
  · obtain ⟨row, hrow, hrest⟩ := hp'
    exact ⟨row, mem_append_left _ hrow, hrest⟩
  · rw [forall_mem_singleton, hun]
    exact fun h => by cases h
  · obtain ⟨row, hrow, hrest⟩ := hp
    exact ⟨row, mem_append_left _ hrow, hrest⟩

end NewRows

end Offering
