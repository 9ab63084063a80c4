import VistaBlox.OfferingCapacity

/-!
# Positions from reservations
-/
namespace Offering

open List Option

/-- A transaction of the repository, or a step of its surroundings. -/
inductive Transaction where
  | environment (event : Event)
  | createReservation (fresh : Nat → Nat) (input : CreateReservationInput)
  | recordMoneyEvent (fresh : Nat → Nat) (input : MoneyEventInput)
  | expireReservation (id : ReservationId)
  | publishFinalOfferingTerms (fresh : Nat → Nat) (offeringId : OfferingId) (publishedAt : Nat)
  | reconfirmReservation (id : ReservationId) (accountId : AccountId) (reconfirmedAt : Nat)
  | classifyMateriality (input : ClassifyMaterialityInput)
  | publishDisclosurePack (offeringId : OfferingId) (documents : List DisclosureDocumentType) (publishedAt : Nat)
  | commitOfferingFinalization (fresh : Nat → Nat) (offeringId : OfferingId) (finalizedAt : Nat)

def Transaction.apply (w : Database) : Transaction → Database
  | .environment event => (env event w).getD w
  | .createReservation fresh input => (Offering.createReservation fresh input w).2
  | .recordMoneyEvent fresh input => (Offering.recordMoneyEvent fresh input w).2
  | .expireReservation id => (Offering.expireReservation id w).2
  | .publishFinalOfferingTerms fresh o publishedAt => (Offering.publishFinalOfferingTerms fresh o publishedAt w).2
  | .reconfirmReservation id accountId reconfirmedAt =>
    (Offering.reconfirmReservation id accountId reconfirmedAt w).2
  | .classifyMateriality input => (Offering.classifyMateriality input w).2
  | .publishDisclosurePack o documents publishedAt => (Offering.publishDisclosurePack o documents publishedAt w).2
  | .commitOfferingFinalization fresh o finalizedAt => (Offering.commitOfferingFinalization fresh o finalizedAt w).2

/-- The tables after some transactions. -/
def Database.after (w : Database) (txs : List Transaction) : Database := txs.foldl Transaction.apply w

theorem after_concat (w : Database) (txs : List Transaction) (tx : Transaction) :
    w.after (txs ++ [tx]) = tx.apply (w.after txs) := foldl_concat ..

def ReservationStage.confirmed (s : ReservationStage) : Prop := s = .reconfirmed ∨ s = .finalized

/-- What a reconfirmation of a reservation at a time finds. -/
structure Grant (w : Database) (r : Reservation) (at' : Nat) : Prop where
  awaiting : ∃ r₀ ∈ w.reservations, r₀.id = r.id ∧ r₀.accountId = r.accountId ∧
    r₀.reservationStage = .awaitingReconfirmation
  window : ∃ row ∈ w.offerings, row.id = r.offeringId ∧ ∃ endAt, row.effectiveRightsEndAt = some endAt ∧ at' < endAt
  pack : hasCompletePack w r.offeringId = true

/-- The transaction has just made `r` reconfirmed, for the account that owns it. -/
def Granting (w : Database) (tx : Transaction) (r : Reservation) : Prop :=
  r.reservationStage = .reconfirmed ∧ ∃ at', tx = .reconfirmReservation r.id r.accountId at' ∧ Grant w r at'

/-- The positions of the table stand for the finalized reservations. -/
structure Positioned (w : Database) : Prop extends Register w where
  unique : Table.Keyed Position.reservationId w.positions
  issued : ∀ p ∈ w.positions, ∃ r ∈ w.reservations, r.id = p.reservationId ∧ r.reservationStage = .finalized ∧
    p.unitCount = r.amountEur ∧ p.costBasisEur = r.amountEur
  finalized : ∀ r ∈ w.reservations, r.reservationStage = .finalized →
    (∃ p ∈ w.positions, p.reservationId = r.id) ∧ ∃ row ∈ w.offerings, row.id = r.offeringId ∧
      row.status = .finalOffering

/-- A transaction on existing rows: it rewrites them in place and issues positions
for reservations that it moves from reconfirmed to finalized. -/
structure Revision (tx : Transaction) (w w' : Database) (f : OfferingRecord → OfferingRecord)
    (g : Reservation → Reservation) (new : List Position) : Prop where
  offerings : w'.offerings = w.offerings.map f
  reservations : w'.reservations = w.reservations.map g
  positions : w'.positions = w.positions ++ new
  reterms : ∀ o ∈ w.offerings, Reterms o (f o)
  final : ∀ o ∈ w.offerings, o.status = .finalOffering → (f o).status = .finalOffering
  staged : ∀ r ∈ w.reservations, Staged r (g r)
  owner : ∀ r ∈ w.reservations, (g r).accountId = r.accountId
  confirmed : ∀ r ∈ w.reservations, (g r).reservationStage.confirmed →
    r.reservationStage.confirmed ∨ Granting w tx (g r)
  unique : Table.Keyed Position.reservationId new
  issued : ∀ p ∈ new, ∃ r ∈ w.reservations, r.id = p.reservationId ∧ r.reservationStage = .reconfirmed ∧
    (g r).reservationStage = .finalized ∧ p.unitCount = r.amountEur ∧ p.costBasisEur = r.amountEur
  finalized : ∀ r ∈ w.reservations, (g r).reservationStage = .finalized → r.reservationStage = .finalized ∨
    (∃ p ∈ new, p.reservationId = r.id) ∧ ∃ row ∈ w'.offerings, row.id = r.offeringId ∧ row.status = .finalOffering

namespace Revision

variable {tx : Transaction} {w w' : Database} {f : OfferingRecord → OfferingRecord} {g : Reservation → Reservation}
  {new : List Position}

theorem register (h : Revision tx w w' f g new) (hw : Register w) : Register w' :=
  hw.map h.offerings h.reservations h.reterms h.staged

theorem unissued (h : Revision tx w w' f g new) (hw : Positioned w) (hp : p ∈ w.positions) (hq : q ∈ new) :
    p.reservationId ≠ q.reservationId := by
  intro hpq
  obtain ⟨r, hr, hid, hfin, -⟩ := hw.issued p hp
  obtain ⟨r', hr', hid', hrec, -⟩ := h.issued q hq
  obtain rfl := hw.reservations.eq_of_key hr hr' (by rw [hid, hid', hpq])
  rw [hfin] at hrec
  cases hrec

theorem positioned (h : Revision tx w w' f g new) (hw : Positioned w) : Positioned w' where
  toRegister := h.register hw.toRegister
  unique := by
    rw [h.positions, Table.Keyed, map_append]
    refine List.Nodup.append hw.unique h.unique ?_
    intro id hid hid'
    obtain ⟨p, hp, rfl⟩ := List.mem_map.mp hid
    obtain ⟨q, hq, hpq⟩ := List.mem_map.mp hid'
    exact h.unissued hw hp hq hpq.symm
  issued := by
    rw [h.positions, forall_mem_append, h.reservations]
    constructor
    · intro p hp
      obtain ⟨r, hr, hid, hfin, hamount⟩ := hw.issued p hp
      have hsame := (h.staged r hr).terminal (.inl hfin)
      exact ⟨r, List.mem_map.mpr ⟨r, hr, hsame⟩, hid, hfin, hamount⟩
    · intro p hp
      obtain ⟨r, hr, hid, -, hfin, hamount⟩ := h.issued p hp
      have hs := h.staged r hr
      rw [← hs.amountEur] at hamount
      exact ⟨g r, List.mem_map_of_mem hr, hs.id.trans hid, hfin, hamount⟩
  finalized := by
    rw [h.reservations, List.forall_mem_map, h.positions]
    intro r hr hfin
    rw [(h.staged r hr).id, (h.staged r hr).offeringId]
    obtain hold | ⟨⟨p, hp, hid⟩, hrow⟩ := h.finalized r hr hfin
    · obtain ⟨⟨p, hp, hid⟩, row, hrow, hrid, hstatus⟩ := hw.finalized r hr hold
      refine ⟨⟨p, mem_append_left _ hp, hid⟩, f row, h.offerings ▸ List.mem_map_of_mem hrow, ?_⟩
      exact ⟨(h.reterms row hrow).id.trans hrid, h.final row hrow hstatus⟩
    · exact ⟨⟨p, mem_append_right _ hp, hid⟩, hrow⟩

theorem refl (tx : Transaction) (w : Database) : Revision tx w w (fun o => o) (fun r => r) [] where
  offerings := (List.map_id' _).symm
  reservations := (List.map_id' _).symm
  positions := (append_nil _).symm
  reterms o _ := .refl o
  final _ _ hstatus := hstatus
  staged r _ := .refl r
  owner _ _ := rfl
  confirmed _ _ hc := .inl hc
  unique := nodup_nil
  issued := by simp
  finalized _ _ hfin := .inl hfin

theorem select {p : Reservation → Bool} {h : Reservation → Reservation} (hoff : w'.offerings = w.offerings.map f)
    (hres : w'.reservations = w.reservations.map fun r => if p r then h r else r) (hpos : w'.positions = w.positions)
    (hf : ∀ o ∈ w.offerings, Reterms o (f o))
    (hfinal : ∀ o ∈ w.offerings, o.status = .finalOffering → (f o).status = .finalOffering)
    (hstaged : ∀ r ∈ w.reservations, p r = true → Staged r (h r)) (howner : ∀ r, (h r).accountId = r.accountId)
    (hconfirmed : ∀ r ∈ w.reservations, p r = true → (h r).reservationStage = .reconfirmed → Granting w tx (h r))
    (hnone : ∀ r ∈ w.reservations, p r = true → (h r).reservationStage ≠ .finalized) :
    Revision tx w w' f (fun r => if p r then h r else r) [] where
  offerings := hoff
  reservations := hres
  positions := by rw [hpos, append_nil]
  reterms := hf
  final := hfinal
  staged r hr := by
    cases hp : p r with
    | true => exact hstaged r hr hp
    | false => exact .refl r
  owner r _ := by
    cases p r with
    | true => exact howner r
    | false => rfl
  confirmed r hr hc := by
    cases hp : p r with
    | true =>
      rw [hp] at hc
      obtain hrec | hfin := hc
      · exact .inr (hconfirmed r hr hp hrec)
      · exact absurd hfin (hnone r hr hp)
    | false =>
      rw [hp] at hc
      exact .inl hc
  unique := nodup_nil
  issued := by simp
  finalized r hr hfin := by
    cases hp : p r with
    | true =>
      rw [hp] at hfin
      exact absurd hfin (hnone r hr hp)
    | false =>
      rw [hp] at hfin
      exact .inl hfin

end Revision

section Changes

/-- What one transaction can do to offerings, reservations and positions. -/
inductive Change (tx : Transaction) (w : Database) : Database → Prop where
  | revised (h : Revision tx w w' f g new) : Change tx w w'
  | held (h : Holdable w input row) :
      Change tx w (w.hold fresh input)
  | opened (h : w.offering row.id = none) :
      Change tx w { w with offerings := w.offerings ++ [row] }

variable {tx : Transaction} {w w' : Database} {o : OfferingId} {fresh : Nat → Nat}

theorem Change.same (hoff : w'.offerings = w.offerings) (hres : w'.reservations = w.reservations)
    (hpos : w'.positions = w.positions) : Change tx w w' := by
  have h := Revision.refl tx w
  exact .revised ⟨hoff.trans h.offerings, hres.trans h.reservations, hpos.trans h.positions, h.reterms, h.final,
    h.staged, h.owner, h.confirmed, h.unique, h.issued, fun r _ hfin => .inl hfin⟩

theorem final_setOffering {f : OfferingRecord → OfferingRecord}
    (hf : ∀ row, row.status = .finalOffering → (f row).status = .finalOffering) : ∀ row ∈ w.offerings,
      row.status = .finalOffering → (if row.id = o then f row else row).status = .finalOffering := by
  intro row _ hstatus
  split
  · exact hf row hstatus
  · exact hstatus

theorem Change.setReservation (hw : Register w) {id : ReservationId} {current : Reservation}
    {h : Reservation → Reservation} {s : ReservationStage} (hfind : w.reservation id = some current)
    (hs : current.reservationStage = s) (hstaged : ∀ r, r.reservationStage = s → Staged r (h r))
    (howner : ∀ r, (h r).accountId = r.accountId)
    (hconfirmed : (h current).reservationStage = .reconfirmed → Granting w tx (h current))
    (hnone : (h current).reservationStage ≠ .finalized) : Change tx w (w.setReservation id h) := by
  have hcurrent : ∀ r ∈ w.reservations, decide (r.id = id) = true → r = current := by
    intro r hr hid
    obtain ⟨hmem, hcid⟩ := Table.find_some hfind
    exact hw.reservations.eq_of_key hr hmem ((of_decide_eq_true hid).trans hcid.symm)
  refine .revised (f := fun o => o) (.select (p := fun r => decide (r.id = id)) (h := h) ?_ ?_ ?_ (fun o _ => .refl o)
    (fun _ _ hstatus => hstatus) ?_ howner ?_ ?_)
  · simp [Database.setReservation]
  · simp [Database.setReservation, Table.update]
  · rfl
  · exact fun r hr hid => hstaged r (hw.found hfind hs r hr hid)
  · intro r hr hid
    rw [hcurrent r hr hid]
    exact hconfirmed
  · intro r hr hid
    rw [hcurrent r hr hid]
    exact hnone

theorem expireReservation_change (hw : Register w) (id : ReservationId) :
    Change tx w (expireReservation id w).2 := by
  unfold expireReservation
  split
  · exact .revised (.refl tx w)
  · rename_i current hfind
    split_ifs with hstage hfund
    · exact .revised (.refl tx w)
    · exact .revised (.refl tx w)
    · exact .setReservation (h := Reservation.lapse) hw hfind (not_not.mp hstage)
        (fun r hs => .stage (.inl hs) rfl rfl rfl) (fun _ => rfl) (fun hrec => by cases hrec)
        (fun hfin => by cases hfin)

theorem reconfirmReservation_change (hw : Register w) (id : ReservationId) (a : AccountId) (at' : Nat) :
    Change (.reconfirmReservation id a at') w (reconfirmReservation id a at' w).2 := by
  unfold reconfirmReservation
  split
  · exact .revised (.refl _ w)
  · rename_i current hfind
    split_ifs with hacc hstage hwindow hpack
    · exact .revised (.refl _ w)
    · exact .revised (.refl _ w)
    · exact .revised (.refl _ w)
    · exact .revised (.refl _ w)
    · have hawait := not_not.mp hstage
      refine .setReservation (h := Reservation.reconfirm at') hw hfind hawait
        (fun r hs => .stage (.inr (.inl hs)) rfl rfl rfl) (fun _ => rfl) (fun _ => ?_) (fun hfin => by cases hfin)
      obtain ⟨hmem, hid⟩ := Table.find_some hfind
      obtain rfl := not_not.mp hacc
      subst hid
      refine ⟨rfl, at', rfl, ⟨current, hmem, rfl, rfl, hawait⟩, ?_, eq_true_of_ne_false hpack⟩
      cases hoffering : w.offering current.offeringId with
      | none => simp [hoffering] at hwindow
      | some row =>
        obtain ⟨hrow, hrid⟩ := Table.find_some hoffering
        refine ⟨row, hrow, hrid, ?_⟩
        cases hend : row.effectiveRightsEndAt with
        | none => simp [hoffering, hend] at hwindow
        | some endAt => exact ⟨endAt, rfl, by simpa [hoffering, hend, isReconfirmationWindowOpen] using hwindow⟩

theorem resetReconfirmations_positions (at' : Nat) : (resetReconfirmations o at' w).positions = w.positions :=
  Table.foldl_keeps Database.positions (fun _ _ _ => by rfl) w

theorem classifyMateriality_change (hw : Register w) :
    Change tx w (classifyMateriality input w).2 := by
  unfold classifyMateriality
  split
  · exact .revised (.refl tx w)
  · split
    · exact .revised (.refl tx w)
    · cases materialityResetTriggered input.classification with
      | false => exact .same rfl rfl rfl
      | true =>
        refine .revised (.select (resetReconfirmations_offerings input.classifiedAt)
          (resetReconfirmations_reservations hw input.classifiedAt) (resetReconfirmations_positions input.classifiedAt)
          (reterms_setOffering fun row => ⟨rfl, rfl, fun h => h⟩) (final_setOffering fun _ h => h) (fun r _ hp => ?_)
          (fun _ => rfl) (fun r _ _ hrec => by cases hrec) (fun r _ _ hfin => by cases hfin))
        exact .stage (.inr (.inr (of_decide_eq_true hp).2)) rfl rfl rfl

theorem publishLoop_positions :
    (publishLoop fresh publishedAt o w).database.positions = w.positions := by
  refine Table.foldl_keeps (fun s : PublishState => s.database.positions) (fun row _ s => ?_) _
  unfold publishStep
  split <;> rfl

theorem publishFinalOfferingTerms_positions :
    (publishFinalOfferingTerms fresh o publishedAt w).2.positions = w.positions := by
  unfold publishFinalOfferingTerms
  split
  · rfl
  · split_ifs <;> first | rfl | exact publishLoop_positions

theorem publishFinalOfferingTerms_change (hw : Register w) :
    Change tx w (publishFinalOfferingTerms fresh o publishedAt w).2 := by
  obtain ⟨hsame, -⟩ | ⟨row, terms, -, h⟩ := publish_cases fresh publishedAt o hw
  · rw [hsame]
    exact .revised (.refl tx w)
  · refine .revised (.select h.offerings h.reservations publishFinalOfferingTerms_positions
      (reterms_setOffering Publication.reterms) (final_setOffering fun _ h => h) (fun r _ hp => Publication.staged hp)
      (fun _ => rfl) (fun r _ _ hrec => ?_) (fun r _ _ hfin => ?_))
    · rw [Publication.termsOffered_stage] at hrec
      split at hrec <;> cases hrec
    · rw [Publication.termsOffered_stage] at hfin
      split at hfin <;> cases hfin

section Commit

variable {pivId : PivId} {finalizedAt : Nat} {r : Reservation}

theorem settled_owner : (r.settled finalizedAt).accountId = r.accountId := by
  unfold Reservation.settled Reservation.settle
  split <;> rfl

theorem settled_confirmed : (r.settled finalizedAt).reservationStage.confirmed ↔
    r.reservationStage = .reconfirmed := by
  unfold Reservation.settled Reservation.settle ReservationStage.confirmed
  split <;> simp_all

theorem settled_finalized :
    (r.settled finalizedAt).reservationStage = .finalized ↔ r.reservationStage = .reconfirmed := by
  unfold Reservation.settled Reservation.settle
  split <;> simp_all

theorem mem_issued :
    p ∈ ((commitRows w o).filter fun r => r.reservationStage = .reconfirmed).map
      (Reservation.position pivId accounts) ↔
      ∃ r ∈ w.reservations, committed o r = true ∧ r.reservationStage = .reconfirmed ∧
        r.position pivId accounts = p := by
  simp only [List.mem_map, mem_filter, commitRows, committed, decide_eq_true_eq, and_assoc]

theorem commit_revision (hw : Register w) (hfind : w.offering o = some offering) :
    Revision tx w ((afterCommit fresh offering.pivId o finalizedAt w).setOffering o fun row => { row with
        status := .finalOffering })
      (fun row => if row.id = o then { row with status := .finalOffering } else row)
      (fun r => if committed o r then r.settled finalizedAt else r)
      (((commitRows w o).filter fun r => r.reservationStage = .reconfirmed).map
        (Reservation.position offering.pivId w.accounts)) := by
  have hoff := afterCommit_offerings fresh offering.pivId o finalizedAt w
  obtain ⟨hmem, hid⟩ := Table.find_some hfind
  constructor
  case offerings =>
    rw [← hoff]
    rfl
  case reservations => exact afterCommit_reservations fresh offering.pivId o finalizedAt hw
  case positions => exact afterCommit_positions fresh offering.pivId o finalizedAt w
  case reterms => exact reterms_setOffering fun row => ⟨rfl, rfl, fun h => h⟩
  case final => exact final_setOffering fun _ _ => rfl
  case staged =>
    intro r _
    split
    · rename_i hp
      exact committed_staged o finalizedAt hp
    · exact .refl r
  case owner =>
    intro r _
    split
    · exact settled_owner
    · rfl
  case confirmed =>
    intro r _ hc
    split at hc
    · exact .inl (.inl (settled_confirmed.mp hc))
    · exact .inl hc
  case unique =>
    rw [Table.Keyed, List.map_map]
    exact hw.reservations.sublist ((filter_sublist.trans filter_sublist).map Reservation.id)
  case issued =>
    intro p hp
    obtain ⟨r, hr, hcom, hrec, rfl⟩ := mem_issued.mp hp
    exact ⟨r, hr, rfl, hrec, by rw [if_pos hcom, settled_finalized, hrec], rfl, rfl⟩
  case finalized =>
    intro r hr hfin
    split at hfin
    · rename_i hcom
      rw [settled_finalized] at hfin
      refine .inr ⟨⟨_, mem_issued.mpr ⟨r, hr, hcom, hfin, rfl⟩, rfl⟩, { offering with status := .finalOffering }, ?_⟩
      refine ⟨List.mem_map.mpr ⟨offering, hoff ▸ hmem, if_pos hid⟩, ?_, rfl⟩
      exact hid.trans (of_decide_eq_true hcom).1.symm
    · exact .inl hfin

theorem commitOfferingFinalization_change (hw : Register w) :
    Change tx w (commitOfferingFinalization fresh o finalizedAt w).2 := by
  unfold commitOfferingFinalization
  split
  · exact .revised (.refl tx w)
  · rename_i offering hfind
    split_ifs
    · exact .revised (.refl tx w)
    · exact .revised (.refl tx w)
    · exact .revised (commit_revision hw hfind)

end Commit

theorem env_change : Change tx w ((env event w).getD w) := by
  cases event with
  | tick | setAccount => exact .same rfl rfl rfl
  | openOffering =>
    simp only [env]
    split_ifs with hused
    · exact .revised (.refl tx w)
    · exact .opened (by simpa using (not_or.mp hused).1)

theorem recordMoneyEvent_change : Change tx w (recordMoneyEvent fresh input w).2 := by
  unfold recordMoneyEvent
  split_ifs <;> exact .same rfl rfl rfl

theorem publishDisclosurePack_change :
    Change tx w (publishDisclosurePack o documents publishedAt w).2 := by
  unfold publishDisclosurePack
  split
  · exact .same rfl rfl rfl
  · split_ifs <;> exact .same rfl rfl rfl

theorem Creation.change (h : Creation fresh input w result) : Change tx w result.2 := by
  cases h with
  | refused | conflict | reused => exact .revised (.refl tx w)
  | created row h => exact .held h

theorem apply_change (hw : Register w) (tx : Transaction) : Change tx w (tx.apply w) := by
  cases tx with
  | environment => exact env_change
  | createReservation fresh input => exact (creation fresh input w).change
  | recordMoneyEvent => exact recordMoneyEvent_change
  | expireReservation id => exact expireReservation_change hw id
  | publishFinalOfferingTerms => exact publishFinalOfferingTerms_change hw
  | reconfirmReservation id a at' => exact reconfirmReservation_change hw id a at'
  | classifyMateriality => exact classifyMateriality_change hw
  | publishDisclosurePack => exact publishDisclosurePack_change
  | commitOfferingFinalization => exact commitOfferingFinalization_change hw

theorem Change.positioned (h : Change tx w w') (hw : Positioned w) : Positioned w' := by
  cases h with
  | revised h => exact h.positioned hw
  | held h =>
    refine ⟨h.register hw.toRegister, hw.unique, fun p hp => ?_, ?_⟩
    · obtain ⟨r, hr, hrest⟩ := hw.issued p hp
      exact ⟨r, mem_append_left _ hr, hrest⟩
    · exact forall_mem_append.mpr ⟨hw.finalized, by simp [newReservation]⟩
  | opened h =>
    refine ⟨hw.toRegister.openOffering h, hw.unique, hw.issued, fun r hr hfin => ?_⟩
    obtain ⟨hp, row, hrow, hrest⟩ := hw.finalized r hr hfin
    exact ⟨hp, row, mem_append_left _ hrow, hrest⟩

theorem Change.confirmed (h : Change tx w w') (hr' : r' ∈ w'.reservations) (hc : r'.reservationStage.confirmed) :
    (∃ r ∈ w.reservations, r.id = r'.id ∧ r.accountId = r'.accountId ∧
      r.offeringId = r'.offeringId ∧ r.reservationStage.confirmed) ∨ Granting w tx r' := by
  cases h with
  | revised h =>
    rw [h.reservations] at hr'
    obtain ⟨r, hr, rfl⟩ := List.mem_map.mp hr'
    obtain hold | hnew := h.confirmed r hr hc
    · have hs := h.staged r hr
      exact .inl ⟨r, hr, hs.id.symm, (h.owner r hr).symm, hs.offeringId.symm, hold⟩
    · exact .inr hnew
  | held =>
    obtain hr' | hr' := mem_append.mp hr'
    · exact .inl ⟨r', hr', rfl, rfl, rfl, hc⟩
    · rw [mem_singleton.mp hr'] at hc
      simp [newReservation, ReservationStage.confirmed] at hc
  | opened => exact .inl ⟨r', hr', rfl, rfl, rfl, hc⟩

end Changes

section Histories

variable {w : Database} {txs : List Transaction} {r r' : Reservation}

theorem after_positioned (hw : Positioned w) : ∀ txs : List Transaction, Positioned (w.after txs) := by
  intro txs
  induction txs using List.reverseRecOn with
  | nil => exact hw
  | append_singleton txs tx ih =>
    rw [after_concat]
    exact (apply_change ih.toRegister tx).positioned ih

/-- Somewhere in the history the owner reconfirmed the reservation, in time and
with a complete pack published, and it has stayed confirmed from there on. -/
def ReconfirmedIn (w : Database) (txs : List Transaction) (r : Reservation) : Prop :=
  ∃ before at' since, txs = before ++ .reconfirmReservation r.id r.accountId at' :: since ∧
    Grant (w.after before) r at' ∧
    (∃ r' ∈ (w.after (before ++ [.reconfirmReservation r.id r.accountId at'])).reservations, r'.id = r.id ∧
      r'.reservationStage = .reconfirmed) ∧
    ∀ part, part <+: since →
      ∃ r' ∈ (w.after (before ++ .reconfirmReservation r.id r.accountId at' :: part)).reservations, r'.id = r.id ∧
        r'.reservationStage.confirmed

theorem ReconfirmedIn.concat (h : ReconfirmedIn w txs r) (hid : r.id = r'.id) (howner : r.accountId = r'.accountId)
    (hoff : r.offeringId = r'.offeringId) (hr' : r' ∈ (w.after (txs ++ [tx])).reservations)
    (hc : r'.reservationStage.confirmed) : ReconfirmedIn w (txs ++ [tx]) r' := by
  obtain ⟨before, at', since, rfl, ⟨hawait, hwindow, hpack⟩, hmoved, hstayed⟩ := h
  rw [hid, howner] at hawait hmoved hstayed hr' ⊢
  rw [hoff] at hwindow hpack
  refine ⟨before, at', since ++ [tx], by simp, ⟨hawait, hwindow, hpack⟩, hmoved, fun part hpart => ?_⟩
  obtain rfl | hpart := prefix_concat_iff.mp hpart
  · exact ⟨r', by simpa using hr', rfl, hc⟩
  · exact hstayed part hpart

theorem reconfirmedIn_of_confirmed (hw : Positioned w) (hnone : ∀ r ∈ w.reservations, ¬ r.reservationStage.confirmed) :
    ∀ (txs : List Transaction), ∀ r ∈ (w.after txs).reservations, r.reservationStage.confirmed →
      ReconfirmedIn w txs r := by
  intro txs
  induction txs using List.reverseRecOn with
  | nil => exact fun r hr hc => absurd hc (hnone r hr)
  | append_singleton txs tx ih =>
    intro r' hr' hc
    have hchange := apply_change (after_positioned hw txs).toRegister tx
    obtain ⟨r, hr, hid, howner, hoff, hold⟩ | ⟨hrec, at', rfl, hgrant⟩ :=
      hchange.confirmed (after_concat w txs tx ▸ hr') hc
    · exact (ih r hr hold).concat hid howner hoff hr' hc
    · refine ⟨txs, at', [], rfl, hgrant, ⟨r', hr', rfl, hrec⟩, fun part hpart => ?_⟩
      rw [prefix_nil.mp hpart]
      exact ⟨r', hr', rfl, hc⟩

end Histories

section Exactness

variable {w : Database} {o : OfferingRecord}

/-- The euros of the positions that come from reservations of an offering. -/
def positionedEur (w : Database) (o : OfferingId) : Nat :=
  Table.tally (fun p => (w.reservation p.reservationId).any fun r => r.offeringId = o) Position.costBasisEur
    w.positions

def Reservation.isFinalized (r : Reservation) : Bool := r.reservationStage = .finalized

/-- What a position says of its reservation. -/
def Position.holding (p : Position) : ReservationId × Nat × Nat := (p.reservationId, p.unitCount, p.costBasisEur)

/-- What the position of a finalized reservation should say. -/
def Reservation.holding (r : Reservation) : ReservationId × Nat × Nat := (r.id, r.amountEur, r.amountEur)

theorem Positioned.holdings (hw : Positioned w) :
    (w.positions.map Position.holding).Perm
      ((w.reservations.filter Reservation.isFinalized).map Reservation.holding) := by
  have hpositions : (w.positions.map Position.holding).Nodup := by
    refine List.Nodup.of_map Prod.fst ?_
    rw [List.map_map]
    exact hw.unique
  have hreservations : ((w.reservations.filter Reservation.isFinalized).map Reservation.holding).Nodup := by
    refine List.Nodup.of_map Prod.fst ?_
    rw [List.map_map]
    exact hw.reservations.sublist (filter_sublist.map Reservation.id)
  refine (perm_ext_iff_of_nodup hpositions hreservations).mpr fun holding => ?_
  simp only [List.mem_map, mem_filter, Reservation.isFinalized, decide_eq_true_eq]
  constructor
  · rintro ⟨p, hp, rfl⟩
    obtain ⟨r, hr, hid, hfin, hunits, hcost⟩ := hw.issued p hp
    exact ⟨r, ⟨hr, hfin⟩, by rw [Reservation.holding, Position.holding, hid, hunits, hcost]⟩
  · rintro ⟨r, ⟨hr, hfin⟩, rfl⟩
    obtain ⟨⟨p, hp, hid⟩, -⟩ := hw.finalized r hr hfin
    obtain ⟨r', hr', hid', -, hunits, hcost⟩ := hw.issued p hp
    obtain rfl := hw.reservations.eq_of_key hr' hr (hid'.trans hid)
    exact ⟨p, hp, by rw [Reservation.holding, Position.holding, hid, hunits, hcost]⟩

theorem Positioned.positionedEur_eq (hw : Positioned w) (o : OfferingId) : positionedEur w o =
    Table.tally (fun r => r.isFinalized && decide (r.offeringId = o)) Reservation.amountEur w.reservations := by
  have hperm := ((hw.holdings.filter fun holding => (w.reservation holding.1).any fun r => r.offeringId = o).map
    fun holding => holding.2.2).sum_eq
  simp only [List.filter_map, List.map_map, List.filter_filter, Function.comp_def, Position.holding,
    Reservation.holding] at hperm
  refine hperm.trans (Table.tally_congr (fun r hr => ?_) fun _ _ _ => rfl)
  rw [Database.reservation, hw.reservations.find hr, any_some, Bool.and_comm]

theorem Positioned.positionedEur_le (hw : Positioned w) (ho : o ∈ w.offerings) :
    positionedEur w o.id ≤ o.targetRaiseEur := by
  rw [hw.positionedEur_eq]
  refine le_trans (Table.tally_mono fun r _ hr => ?_) (hw.capacity o ho)
  simp only [Reservation.isFinalized, Bool.and_eq_true, decide_eq_true_eq] at hr ⊢
  exact ⟨hr.2, by rw [hr.1]; rfl⟩

theorem launch_positioned (now : Nat) : Positioned (launch now) where
  offerings := nodup_nil
  reservations := nodup_nil
  placed := by simp [launch]
  capacity := by simp [launch]
  unique := nodup_nil
  issued := by simp [launch]
  finalized := by simp [launch]

/-- After any transactions the positions are exactly those of the finalized
reservations, each of the reservation's amount, on offerings that are final and
within their targets, and each finalized reservation was reconfirmed by its
owner while it could be. -/
theorem positions_exact (now : Nat) (txs : List Transaction) :
    Table.Keyed Position.reservationId ((launch now).after txs).positions ∧
    (((launch now).after txs).positions.map Position.holding).Perm
      ((((launch now).after txs).reservations.filter Reservation.isFinalized).map Reservation.holding) ∧
    (∀ p ∈ ((launch now).after txs).positions, ∃ r, ((launch now).after txs).reservation p.reservationId = some r ∧
      ∃ row, ((launch now).after txs).offering r.offeringId = some row ∧ row.status = .finalOffering) ∧
    (∀ r ∈ ((launch now).after txs).reservations, r.isFinalized = true → ReconfirmedIn (launch now) txs r) ∧
    ∀ o ∈ ((launch now).after txs).offerings, positionedEur ((launch now).after txs) o.id ≤ o.targetRaiseEur := by
  have hw := after_positioned (launch_positioned now) txs
  refine ⟨hw.unique, hw.holdings, fun p hp => ?_, fun r hr hfin => ?_, fun o ho => hw.positionedEur_le ho⟩
  · obtain ⟨r, hr, hid, hfin, -⟩ := hw.issued p hp
    obtain ⟨-, row, hrow, hrid, hstatus⟩ := hw.finalized r hr hfin
    exact ⟨r, hid ▸ hw.reservations.find hr, row, hrid ▸ hw.offerings.find hrow, hstatus⟩
  · exact reconfirmedIn_of_confirmed (launch_positioned now) (by simp [launch]) txs r hr
      (.inr (of_decide_eq_true hfin))

end Exactness

end Offering
