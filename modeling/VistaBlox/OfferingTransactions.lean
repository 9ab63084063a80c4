import VistaBlox.OfferingBook

/-!
# The transactions keep the book
-/
namespace Offering

open Currency (costBasisToUnitCount)
open List Option

variable {covered ordered : Prop} {w w' : Database} {o : OfferingId} {fresh : Nat → Nat}

variable {r : Reservation} {s : ReservationStage}

def Reservation.lapse (r : Reservation) : Reservation := { r with reservationStage := .lapsed }

def Reservation.reconfirm (at' : Nat) (r : Reservation) : Reservation :=
  { r with reservationStage := .reconfirmed, reconfirmedAt := some at' }

def Reservation.reset (r : Reservation) : Reservation :=
  { r with reservationStage := .awaitingReconfirmation, reconfirmedAt := none }

/-- What the publishing loop makes of a row, given the capital state it found for it. -/
def Reservation.offerTerms (latest : Option CapitalState) (r : Reservation) : Reservation :=
  { r with reservationStage := if isReservationFunded latest then .awaitingReconfirmation else .cancelled }

/-- What the commit loop makes of a row. -/
def Reservation.settle (at' : Nat) (row r : Reservation) : Reservation :=
  if row.reservationStage = .reconfirmed then
    { r with reservationStage := .finalized, reservationFinalizedAt := some at' }
  else { r with reservationStage := .lapsed }

theorem not_terminal (h : s = .initiated ∨ s = .awaitingReconfirmation ∨ s = .reconfirmed) : ¬ s.terminal := by
  rcases h with rfl | rfl | rfl <;> simp [ReservationStage.terminal]

theorem Staged.stage (hs : r.reservationStage = .initiated ∨ r.reservationStage = .awaitingReconfirmation ∨
      r.reservationStage = .reconfirmed) (hid : r'.id = r.id) (hof : r'.offeringId = r.offeringId)
    (ham : r'.amountEur = r.amountEur) : Staged r r' :=
  ⟨hid, hof, ham, fun h => absurd h (not_terminal hs)⟩

variable {id : ReservationId} {row : OfferingRecord} {rs : List Reservation}

section Selections

variable {f : OfferingRecord → OfferingRecord} {p : Reservation → Bool} {h : Reservation → Reservation}

theorem Restages.select (hoff : w'.offerings = w.offerings.map f)
    (hres : w'.reservations = w.reservations.map fun r => if p r then h r else r)
    (hmon : w'.moneyEvents = w.moneyEvents ++ added) (hf : ∀ row ∈ w.offerings, Reterms row (f row))
    (hstaged : ∀ r ∈ w.reservations, p r = true → Staged r (h r))
    (hbefore : ∀ r ∈ w.reservations, p r = true → r.reservationStage.beforeTerms →
      (h r).reservationStage.beforeTerms ∨ Published w' r.offeringId)
    (hbacked : ∀ r ∈ w.reservations, p r = true → (h r).reservationStage.awaitsCommit →
      r.reservationStage.awaitsCommit ∨ ∃ e ∈ w.moneyEvents, e.reservationId = r.id ∧ e.funded = true)
    (hadded : ∀ e ∈ added, e.funded = true ∧ ∃ r ∈ w.reservations, r.id = e.reservationId ∧
      r.amountEur = e.amountEur ∧ ∃ e' ∈ w.moneyEvents, e'.reservationId = r.id ∧ e'.funded = true) :
    Restages w w' f (fun r => if p r then h r else r) added where
  offerings := hoff
  reservations := hres
  moneyEvents := hmon
  reterms := hf
  staged r hr := by
    cases hp : p r with
    | true => exact hstaged r hr hp
    | false => exact .refl r
  confirms := hadded
  beforeTerms r hr hs := by
    cases hp : p r with
    | true => exact hbefore r hr hp hs
    | false => exact .inl hs
  backed r hr hs := by
    cases hp : p r with
    | true =>
      rw [hp] at hs
      exact hbacked r hr hp hs
    | false =>
      rw [hp] at hs
      exact .inl hs

theorem Closed.select (hc : Closed rs row) (hstaged : ∀ r ∈ rs, p r = true → Staged r (h r))
    (hstage : ∀ r ∈ rs, p r = true → r.offeringId = row.id → (h r).reservationStage.live = r.reservationStage.live ∧
      (h r).reservationStage ≠ .initiated) : Closed (rs.map fun r => if p r then h r else r) row := by
  refine hc.map (fun r hr => ?_) (fun r hr hid => ?_)
  · cases hp : p r with
    | true => exact ⟨(hstaged r hr hp).offeringId, (hstaged r hr hp).amountEur⟩
    | false => exact ⟨rfl, rfl⟩
  · cases hp : p r with
    | true => exact ⟨(hstage r hr hp hid).1, fun h' => absurd h' (hstage r hr hp hid).2⟩
    | false => exact ⟨rfl, fun h' => h'⟩

theorem Closed.reterms (hc : Closed rs row) (ht : Reterms row row') : Closed rs row' := by
  obtain ⟨hfull, hsettled⟩ := hc
  exact ⟨by rw [ht.id, ht.targetRaiseEur]; exact hfull, by rw [ht.id]; exact hsettled⟩

theorem Register.found (hw : Register w) (hfind : w.reservation id = some current)
    (hs : current.reservationStage = s) :
    ∀ r ∈ w.reservations, decide (r.id = id) = true → r.reservationStage = s := by
  obtain ⟨hmem, hid⟩ := Table.find_some hfind
  intro r hr hrid
  rw [hw.reservations.eq_of_key hr hmem ((of_decide_eq_true hrid).trans hid.symm), hs]

theorem setReservation_inv (hw : Inv covered ordered w)
    (hsel : ∀ r ∈ w.reservations, decide (r.id = id) = true → r.reservationStage = s)
    (hstaged : ∀ r, r.reservationStage = s → Staged r (h r))
    (hbefore : ∀ r, r.reservationStage = s → s.beforeTerms → (h r).reservationStage.beforeTerms)
    (hbacked : ∀ r, r.reservationStage = s → (h r).reservationStage.awaitsCommit → s.awaitsCommit)
    (hlive : ∀ r, r.reservationStage = s → s = .initiated ∨
      (h r).reservationStage.live = s.live ∧ (h r).reservationStage ≠ .initiated) :
    Inv covered ordered (w.setReservation id h) ∧ Moves covered w (w.setReservation id h) := by
  have hR : Restages w (w.setReservation id h) (fun row => row)
      (fun r => if decide (r.id = id) then h r else r) [] := by
    refine .select (by simp [Database.setReservation]) (by simp [Database.setReservation, Table.update])
      (by simp [Database.setReservation]) (fun row _ => .refl row) (fun r hr hid => hstaged r (hsel r hr hid))
      (fun r hr hid hb => ?_) (fun r hr hid ha => ?_) (by simp)
    · rw [hsel r hr hid] at hb
      exact .inl (hbefore r (hsel r hr hid) hb)
    · rw [hsel r hr hid]
      exact .inl (hbacked r (hsel r hr hid) ha)
  refine hR.inv hw fun hc row hrow hp hpre => ?_
  rw [hR.reservations]
  have hclosed := hw.closed hc row hrow hp hpre
  refine hclosed.select (fun r hr hid => hstaged r (hsel r hr hid)) fun r hr hid hof => ?_
  have hs := hsel r hr hid
  rw [hs]
  exact (hlive r hs).resolve_left fun hinit => hclosed.settled r hr hof (hs.trans hinit)

end Selections

theorem expireReservation_inv (hw : Inv covered ordered w) (id : ReservationId) :
    Inv covered ordered (expireReservation id w).2 ∧ Moves covered w (expireReservation id w).2 := by
  unfold expireReservation
  split
  · exact ⟨hw, .refl covered w⟩
  · rename_i current hfind
    split_ifs with hstage hfund
    · exact ⟨hw, .refl covered w⟩
    · exact ⟨hw, .refl covered w⟩
    · refine setReservation_inv (h := Reservation.lapse) hw (hw.book.register.found hfind (not_not.mp hstage))
        (fun r hs => .stage (.inl hs) rfl rfl rfl) (fun r _ _ => .inr rfl) (fun r _ ha => ?_) fun r _ => .inl rfl
      simp [Reservation.lapse, ReservationStage.awaitsCommit] at ha

theorem reconfirmReservation_inv (hw : Inv covered ordered w) (id : ReservationId) (a : AccountId) (at' : Nat) :
    Inv covered ordered (reconfirmReservation id a at' w).2 ∧ Moves covered w (reconfirmReservation id a at' w).2 := by
  unfold reconfirmReservation
  split
  · exact ⟨hw, .refl covered w⟩
  · rename_i current hfind
    split_ifs with hacc hstage hwindow hpack
    · exact ⟨hw, .refl covered w⟩
    · exact ⟨hw, .refl covered w⟩
    · exact ⟨hw, .refl covered w⟩
    · exact ⟨hw, .refl covered w⟩
    · refine setReservation_inv (h := Reservation.reconfirm at') hw (hw.book.register.found hfind (not_not.mp hstage))
        (fun r hs => .stage (.inr (.inl hs)) rfl rfl rfl) (fun r _ hb => ?_) (fun _ _ _ => .inl rfl)
        fun _ _ => .inr ⟨rfl, by simp [Reservation.reconfirm]⟩
      simp [ReservationStage.beforeTerms] at hb

theorem reterms_setOffering {f : OfferingRecord → OfferingRecord} (hf : ∀ row, Reterms row (f row)) :
    ∀ row ∈ w.offerings, Reterms row (if row.id = o then f row else row) := by
  intro row _
  split
  · exact hf row
  · exact .refl row

def OfferingRecord.moveWindow (at' : Nat) (row : OfferingRecord) : OfferingRecord :=
  { row with
    platformRightsEndAt := some (computeEffectiveRightsEndAt at')
    effectiveRightsEndAt := some (computeEffectiveRightsEndAt at') }

theorem resetReconfirmations_reservations (hw : Register w) (at' : Nat) :
    (resetReconfirmations o at' w).reservations = w.reservations.map fun r =>
      if decide (r.offeringId = o ∧ r.reservationStage = .reconfirmed) then r.reset else r := by
  have hfold : ∀ (rows : List Reservation) (db : Database),
      (rows.foldl (fun db row => db.setReservation row.id Reservation.reset) db).reservations =
        rows.foldl (fun rs row => Table.update Reservation.id rs row.id Reservation.reset) db.reservations :=
    fun rows db => (foldl_hom Database.reservations fun _ _ => rfl).symm
  exact (hfold (resetRows w o) w).trans
    (Table.foldl_rewrite_filter (h := fun _ => Reservation.reset) (fun _ _ => rfl) _ hw.reservations)

theorem resetReconfirmations_offerings (at' : Nat) : (resetReconfirmations o at' w).offerings =
    w.offerings.map fun row => if row.id = o then row.moveWindow at' else row :=
  congrArg (Table.update OfferingRecord.id · o (OfferingRecord.moveWindow at'))
    (Table.foldl_keeps Database.offerings (fun _ _ _ => by rfl) w)

theorem resetReconfirmations_moneyEvents : (resetReconfirmations o at' w).moneyEvents = w.moneyEvents :=
  Table.foldl_keeps Database.moneyEvents (fun _ _ _ => by rfl) w

theorem resetReconfirmations_inv (hw : Inv covered ordered w) :
    Inv covered ordered (resetReconfirmations o at' w) ∧ Moves covered w (resetReconfirmations o at' w) := by
  have hsel : ∀ r : Reservation, decide (r.offeringId = o ∧ r.reservationStage = .reconfirmed) = true →
      r.reservationStage = .reconfirmed := fun r hp => (of_decide_eq_true hp).2
  have hstaged : ∀ r ∈ w.reservations, decide (r.offeringId = o ∧ r.reservationStage = .reconfirmed) = true →
      Staged r r.reset := fun r _ hp => .stage (.inr (.inr (hsel r hp))) rfl rfl rfl
  have hreterms : ∀ row ∈ w.offerings, Reterms row (if row.id = o then row.moveWindow at' else row) :=
    reterms_setOffering fun row => ⟨rfl, rfl, fun h => h⟩
  have hR := Restages.select (resetReconfirmations_offerings at')
    (resetReconfirmations_reservations hw.book.register at')
    (resetReconfirmations_moneyEvents.trans (append_nil _).symm) hreterms hstaged
    (fun r _ hp hb => by simp [ReservationStage.beforeTerms, hsel r hp] at hb)
    (fun r _ hp _ => .inl (.inr (hsel r hp))) (by simp)
  refine hR.inv hw fun hc => ?_
  unfold ClosedBook
  rw [hR.offerings, hR.reservations, List.forall_mem_map]
  intro row hrow hp hpre
  have hsame : row.published = true ∧ row.status = .preOffering := by
    split at hp <;> split at hpre <;> exact ⟨hp, hpre⟩
  refine Closed.reterms ((hw.closed hc row hrow hsame.1 hsame.2).select hstaged fun r _ hsr _ => ?_)
    (hreterms row hrow)
  simp [Reservation.reset, hsel r hsr, ReservationStage.live]

theorem classifyMateriality_inv (hw : Inv covered ordered w) (input : ClassifyMaterialityInput) :
    Inv covered ordered (classifyMateriality input w).2 ∧ Moves covered w (classifyMateriality input w).2 := by
  unfold classifyMateriality
  split
  · exact ⟨hw, .refl covered w⟩
  · split
    · exact ⟨hw, .refl covered w⟩
    · cases materialityResetTriggered input.classification with
      | false => exact hw.same rfl rfl rfl
      | true => exact Inv.same_after (resetReconfirmations_inv hw) rfl rfl rfl

section Commit

variable (fresh : Nat → Nat) (pivId : PivId) (o : OfferingId) (finalizedAt : Nat)

/-- The database after the commit loop. -/
def afterCommit (w : Database) : Database :=
  ((commitRows w o).foldl (commitStep fresh pivId finalizedAt) ⟨w, 0, 0⟩).database

def committed (r : Reservation) : Bool := r.offeringId = o ∧
  (r.reservationStage = .awaitingReconfirmation ∨ r.reservationStage = .reconfirmed)

def Reservation.settled (r : Reservation) : Reservation := r.settle finalizedAt r

theorem settle_kept (row r : Reservation) : (r.settle finalizedAt row).id = row.id ∧
    (r.settle finalizedAt row).offeringId = row.offeringId ∧ (r.settle finalizedAt row).amountEur = row.amountEur := by
  unfold Reservation.settle
  split <;> exact ⟨rfl, rfl, rfl⟩

theorem afterCommit_reservations (hw : Register w) : (afterCommit fresh pivId o finalizedAt w).reservations =
    w.reservations.map fun r => if committed o r then r.settled finalizedAt else r := by
  have hstep : ∀ (s : CommitState) (row : Reservation),
      Table.update Reservation.id s.database.reservations row.id (row.settle finalizedAt) =
        (commitStep fresh pivId finalizedAt s row).database.reservations := by
    intro s row
    unfold commitStep Reservation.settle
    split <;> rfl
  have hfold : ∀ (rows : List Reservation) (s : CommitState),
      rows.foldl (fun rs row => Table.update Reservation.id rs row.id (row.settle finalizedAt))
        s.database.reservations = (rows.foldl (commitStep fresh pivId finalizedAt) s).database.reservations :=
    fun rows s => foldl_hom (fun s : CommitState => s.database.reservations) hstep
  exact (hfold (commitRows w o) ⟨w, 0, 0⟩).symm.trans
    (Table.foldl_rewrite_filter (fun row r => (settle_kept finalizedAt r row).1) (committed o) hw.reservations)

theorem afterCommit_moneyEvents (w : Database) : ∃ added,
    (afterCommit fresh pivId o finalizedAt w).moneyEvents = w.moneyEvents ++ added ∧
      ∀ e ∈ added, ∃ row ∈ commitRows w o, row.reservationStage = .reconfirmed ∧ e.reservationId = row.id ∧
        e.amountEur = row.amountEur ∧ e.capitalState = .eurcFinalized := by
  refine Table.foldl_appends (fun s : CommitState => s.database.moneyEvents) (fun s row => ?_) (commitRows w o) _
  unfold commitStep
  split
  · rename_i hrec
    exact ⟨_, rfl, by simp [hrec]⟩
  · exact ⟨[], (append_nil _).symm, by simp⟩

theorem afterCommit_offerings (w : Database) : (afterCommit fresh pivId o finalizedAt w).offerings = w.offerings := by
  refine Table.foldl_keeps (fun s : CommitState => s.database.offerings) (fun row _ s => ?_) _
  unfold commitStep
  split <;> rfl

theorem commitStep_accounts (s : CommitState) (row : Reservation) :
    (commitStep fresh pivId finalizedAt s row).database.accounts = s.database.accounts := by
  unfold commitStep
  split <;> rfl

/-- The position the commit loop creates for a row. -/
def Reservation.position (accounts : AccountId → Option AccountReadiness) (row : Reservation) : Position :=
  ⟨row.id, pivId, row.accountId, costBasisToUnitCount row.amountEur, row.amountEur,
    (accounts row.accountId).bind AccountReadiness.walletAddress⟩

theorem afterCommit_positions (w : Database) : (afterCommit fresh pivId o finalizedAt w).positions = w.positions ++
    ((commitRows w o).filter fun r => r.reservationStage = .reconfirmed).map
      (Reservation.position pivId w.accounts) := by
  have hfold : ∀ (rows : List Reservation) (s : CommitState),
      (rows.foldl (commitStep fresh pivId finalizedAt) s).database.positions = s.database.positions ++
        (rows.filter fun r => r.reservationStage = .reconfirmed).map
          (Reservation.position pivId s.database.accounts) := by
    intro rows
    induction rows with
    | nil => simp
    | cons row rows ih =>
      intro s
      rw [foldl_cons, ih, commitStep_accounts]
      by_cases hrec : row.reservationStage = .reconfirmed
      · simp [commitStep, hrec, Reservation.position]
      · simp [commitStep, hrec, Database.setReservation]
  exact hfold (commitRows w o) ⟨w, 0, 0⟩

theorem committed_staged (h : committed o r = true) : Staged r (r.settled finalizedAt) := by
  obtain ⟨hid, hof, ham⟩ := settle_kept finalizedAt r r
  exact .stage (.inr (of_decide_eq_true h).2) hid hof ham

theorem settled_over (r : Reservation) : ¬ (r.settled finalizedAt).reservationStage.awaitsCommit := by
  unfold Reservation.settled Reservation.settle
  split <;> simp [ReservationStage.awaitsCommit]

theorem afterCommit_confirms (hw : Book w) {e : MoneyEvent} {row : Reservation} (hrow : row ∈ commitRows w o)
    (hrec : row.reservationStage = .reconfirmed) (hid : e.reservationId = row.id) (ham : e.amountEur = row.amountEur)
    (hstate : e.capitalState = .eurcFinalized) : e.funded = true ∧ ∃ r ∈ w.reservations, r.id = e.reservationId ∧
      r.amountEur = e.amountEur ∧ ∃ e' ∈ w.moneyEvents, e'.reservationId = r.id ∧ e'.funded = true := by
  have hmem := mem_of_mem_filter hrow
  exact ⟨by rw [MoneyEvent.funded, hstate]; rfl, row, hmem, hid.symm, ham.symm, hw.backed row hmem (.inr hrec)⟩

theorem commitOfferingFinalization_inv (hw : Inv covered ordered w) :
    Inv covered ordered (commitOfferingFinalization fresh o finalizedAt w).2 ∧
      Moves covered w (commitOfferingFinalization fresh o finalizedAt w).2 := by
  unfold commitOfferingFinalization
  split
  · exact ⟨hw, .refl covered w⟩
  · rename_i offering _
    split_ifs
    · exact ⟨hw, .refl covered w⟩
    · exact ⟨hw, .refl covered w⟩
    · obtain ⟨added, hadded, hevents⟩ := afterCommit_moneyEvents fresh offering.pivId o finalizedAt w
      have hoff := afterCommit_offerings fresh offering.pivId o finalizedAt w
      have hR : Restages w ((afterCommit fresh offering.pivId o finalizedAt w).setOffering o fun row => { row with
          status := .finalOffering }) (fun row => if row.id = o then { row with status := .finalOffering } else row)
          (fun r => if committed o r then r.settled finalizedAt else r) added := by
        refine .select (by rw [← hoff]; rfl) (afterCommit_reservations fresh offering.pivId o finalizedAt
          hw.book.register)
          hadded (reterms_setOffering fun row => ⟨rfl, rfl, fun h => h⟩)
            (fun r _ hp => committed_staged o finalizedAt hp)
          (fun r _ hp hb => ?_) (fun r _ _ ha => absurd ha (settled_over finalizedAt r)) fun e he => ?_
        · obtain hs | hs := (of_decide_eq_true hp).2 <;> simp [ReservationStage.beforeTerms, hs] at hb
        · obtain ⟨row, hrow, hrec, hid, ham, hstate⟩ := hevents e he
          exact afterCommit_confirms o hw.book hrow hrec hid ham hstate
      refine hR.inv hw fun hc => ?_
      unfold ClosedBook
      rw [hR.offerings, hR.reservations, List.forall_mem_map]
      intro row hrow hp hpre
      by_cases hid : row.id = o
      · simp [hid] at hpre
      · simp only [hid, if_false] at hp hpre ⊢
        refine (hw.closed hc row hrow hp hpre).select (fun r _ hp => committed_staged o finalizedAt hp)
          fun r _ hp hof => absurd (hof.symm.trans (of_decide_eq_true hp).1) hid

end Commit

section Publish

/-- An unpaid-for or paid-for hold of the offering, as the publishing loop meets it. -/
def holdOf (o : OfferingId) (r : Reservation) : Bool := r.offeringId = o ∧ r.reservationStage = .initiated

def fundedIn (w : Database) (r : Reservation) : Bool := isReservationFunded (latestCapitalState w.moneyEvents r.id)

theorem Book.latestAmountEur_eq (hw : Book w) (hr : r ∈ w.reservations) (hf : fundedIn w r = true) :
    latestAmountEur w.moneyEvents r = r.amountEur := by
  unfold latestAmountEur
  cases hlast : latestMoney w.moneyEvents r.id with
  | none => simp [fundedIn, latestCapitalState, hlast, isReservationFunded] at hf
  | some e =>
    obtain ⟨hmem, hid⟩ := latestMoney_mem hlast
    obtain ⟨r', hr', hid', ham⟩ := hw.priced e hmem
    obtain rfl := hw.reservations.eq_of_key hr' hr (hid'.trans hid)
    exact ham.symm

theorem Book.fundedEur_eq (hw : Book w) (o : OfferingId) : fundedEur w o =
    Table.tally (fun r => decide (r.offeringId = o ∧ r.reservationStage.live = true) && fundedIn w r)
      Reservation.amountEur w.reservations := by
  refine Table.tally_congr (fun r _ => ?_) fun r hr hf => hw.latestAmountEur_eq hr ?_
  · simp only [fundedIn, Bool.decide_and, Bool.decide_eq_true]
  · exact (of_decide_eq_true hf).2

theorem Book.fundedEur_le (hw : Book w) (o : OfferingId) : fundedEur w o ≤ reservedCapacityEur w.reservations o := by
  rw [hw.fundedEur_eq]
  exact Table.tally_mono fun r _ h => (Bool.and_eq_true_iff.mp h).1

theorem Book.live_iff_hold (hw : Book w) (hun : ¬ Published w o) (hr : r ∈ w.reservations) :
    decide (r.offeringId = o ∧ r.reservationStage.live = true) = holdOf o r := by
  unfold holdOf
  refine decide_eq_decide.mpr (and_congr_right ?_)
  rintro rfl
  obtain hs | hs := hw.beforeTerms r hr hun <;> simp [hs, ReservationStage.live]

/-- The database after the publishing loop, and how many holds the loop cancelled. -/
def publishLoop (fresh : Nat → Nat) (publishedAt : Nat) (o : OfferingId) (w : Database) : PublishState :=
  (publishRows w o).foldl (publishStep fresh publishedAt) ⟨w, 0, 0⟩

def Reservation.termsOffered (w : Database) (r : Reservation) : Reservation :=
  r.offerTerms (latestCapitalState w.moneyEvents r.id)

def OfferingRecord.publish (publishedAt : Nat) (row : OfferingRecord) : OfferingRecord :=
  { row with
    finalOfferingPublishedAt := some publishedAt
    platformRightsEndAt := some (computeEffectiveRightsEndAt publishedAt)
    effectiveRightsEndAt := some (computeEffectiveRightsEndAt publishedAt) }

variable (fresh : Nat → Nat) (publishedAt : Nat) (o : OfferingId)

theorem publishLoop_reservations (hw : Register w) : (publishLoop fresh publishedAt o w).database.reservations =
    w.reservations.map fun r => if holdOf o r then r.termsOffered w else r := by
  have hstep : ∀ (s : PublishState) (row : Reservation × Option CapitalState),
      Table.update Reservation.id s.database.reservations row.1.id (Reservation.offerTerms row.2) =
        (publishStep fresh publishedAt s row).database.reservations := by
    intro s row
    unfold publishStep
    split <;> simp_all [Database.setReservation, Reservation.offerTerms, Table.update]
  have hfold : ∀ (rows : List (Reservation × Option CapitalState)) (s : PublishState),
      rows.foldl (fun rs row => Table.update Reservation.id rs row.1.id (Reservation.offerTerms row.2))
        s.database.reservations = (rows.foldl (publishStep fresh publishedAt) s).database.reservations :=
    fun rows s => foldl_hom (fun s : PublishState => s.database.reservations) hstep
  rw [publishLoop, ← hfold, publishRows, foldl_map]
  exact Table.foldl_rewrite_filter
    (h := fun row r => r.offerTerms (latestCapitalState w.moneyEvents row.id)) (fun _ _ => rfl) (holdOf o)
    hw.reservations

theorem publishLoop_moneyEvents (w : Database) : ∃ added,
    (publishLoop fresh publishedAt o w).database.moneyEvents = w.moneyEvents ++ added ∧
      ∀ e ∈ added, ∃ row ∈ publishRows w o, isReservationFunded row.2 = true ∧ e.reservationId = row.1.id ∧
        e.amountEur = row.1.amountEur ∧ e.capitalState = .reconfirmationPending := by
  refine Table.foldl_appends (fun s : PublishState => s.database.moneyEvents) (fun s row => ?_) (publishRows w o) _
  unfold publishStep
  split
  · rename_i hf
    exact ⟨_, rfl, by simp [hf]⟩
  · exact ⟨[], (append_nil _).symm, by simp⟩

theorem publishLoop_offerings (w : Database) :
    (publishLoop fresh publishedAt o w).database.offerings = w.offerings := by
  refine Table.foldl_keeps (fun s : PublishState => s.database.offerings) (fun row _ s => ?_) _
  unfold publishStep
  split <;> rfl

theorem publishLoop_cancelled (w : Database) : (publishLoop fresh publishedAt o w).reservationsCancelled =
    w.reservations.countP fun r => holdOf o r && !fundedIn w r := by
  have hcount : ∀ (rows : List (Reservation × Option CapitalState)) (s : PublishState),
      (rows.foldl (publishStep fresh publishedAt) s).reservationsCancelled =
        s.reservationsCancelled + rows.countP fun row => !isReservationFunded row.2 := by
    intro rows
    induction rows with
    | nil => exact fun _ => rfl
    | cons row rows ih =>
      intro s
      rw [foldl_cons, ih, countP_cons]
      unfold publishStep
      split
      · simp_all
      · simp_all
        omega
  rw [publishLoop, hcount, publishRows, countP_map, countP_filter, Nat.zero_add]
  exact countP_congr fun r _ => by simp [holdOf, fundedIn, and_comm]

/-- A publication that went through. -/
structure Publication (w w' : Database) (row : OfferingRecord) (cancelled : Nat) : Prop where
  mem : row ∈ w.offerings
  id : row.id = o
  status : row.status = .preOffering
  unpublished : row.published = false
  reached : row.targetRaiseEur ≤ publishedFundedEur w o
  offerings : w'.offerings = w.offerings.map fun row => if row.id = o then row.publish publishedAt else row
  reservations : w'.reservations = w.reservations.map fun r => if holdOf o r then r.termsOffered w else r
  moneyEvents : ∃ added, w'.moneyEvents = w.moneyEvents ++ added ∧
      ∀ e ∈ added, ∃ row ∈ publishRows w o, isReservationFunded row.2 = true ∧ e.reservationId = row.1.id ∧
        e.amountEur = row.1.amountEur ∧ e.capitalState = .reconfirmationPending
  cancelled : cancelled = w.reservations.countP fun r => holdOf o r && !fundedIn w r

/-- Publication changes nothing, or is the change that `Publication` describes. -/
theorem publish_cases (hw : Register w) : (publishFinalOfferingTerms fresh o publishedAt w).2 = w ∧
      (∀ terms, (publishFinalOfferingTerms fresh o publishedAt w).1 ≠ .ok terms) ∨
    ∃ row terms, (publishFinalOfferingTerms fresh o publishedAt w).1 = .ok terms ∧ Publication publishedAt o w
      (publishFinalOfferingTerms fresh o publishedAt w).2 row terms.reservationsCancelled := by
  unfold publishFinalOfferingTerms
  split
  · exact .inl ⟨rfl, fun _ h => by cases h⟩
  · rename_i row hfind
    split_ifs with hstatus hpub hgate hpack
    · exact .inl ⟨rfl, fun _ h => by cases h⟩
    · exact .inl ⟨rfl, fun _ h => by cases h⟩
    · exact .inl ⟨rfl, fun _ h => by cases h⟩
    · exact .inl ⟨rfl, fun _ h => by cases h⟩
    · obtain ⟨hmem, hid⟩ := Table.find_some hfind
      refine .inr ⟨row, _, rfl, hmem, hid, not_not.mp hstatus, by simpa [OfferingRecord.published] using hpub, ?_, ?_,
        publishLoop_reservations fresh publishedAt o hw, publishLoop_moneyEvents fresh publishedAt o w,
        publishLoop_cancelled fresh publishedAt o w⟩
      · simp only [canPublishFinalOfferingTerms, Bool.not_eq_false, decide_eq_true_eq] at hgate
        exact hgate.2.2
      · exact congrArg (Table.update OfferingRecord.id · o (OfferingRecord.publish publishedAt))
          (publishLoop_offerings fresh publishedAt o w)

variable {publishedAt : Nat} {o : OfferingId} {row : OfferingRecord} {cancelled : Nat}

namespace Publication

theorem not_published (h : Publication publishedAt o w w' row cancelled) (hw : Book w) : ¬ Published w o := by
  rintro ⟨row', hrow', hid, hp⟩
  obtain rfl := hw.offering_eq hrow' h.mem (hid.trans h.id.symm)
  rw [h.unpublished] at hp
  cases hp

theorem published (h : Publication publishedAt o w w' row cancelled) : Published w' o := by
  refine ⟨row.publish publishedAt, ?_, h.id, rfl⟩
  rw [h.offerings]
  exact List.mem_map.mpr ⟨row, h.mem, if_pos h.id⟩

theorem staged (hr : holdOf o r = true) : Staged r (r.termsOffered w) :=
  .stage (.inl (of_decide_eq_true hr).2) rfl rfl rfl

theorem termsOffered_stage (r : Reservation) : (r.termsOffered w).reservationStage =
    if fundedIn w r then .awaitingReconfirmation else .cancelled := rfl

theorem reterms (row : OfferingRecord) : Reterms row (row.publish publishedAt) := ⟨rfl, rfl, fun _ => rfl⟩

theorem restages (h : Publication publishedAt o w w' row cancelled) : ∃ added, Restages w w'
    (fun row => if row.id = o then row.publish publishedAt else row)
    (fun r => if holdOf o r then r.termsOffered w else r) added := by
  obtain ⟨added, hadded, hevents⟩ := h.moneyEvents
  refine ⟨added, .select h.offerings h.reservations hadded (reterms_setOffering reterms) (fun r _ hp => staged hp)
    (fun r _ hp _ => .inr ((of_decide_eq_true hp).1 ▸ h.published)) (fun r _ _ ha => ?_) fun e he => ?_⟩
  · rw [termsOffered_stage] at ha
    cases hf : fundedIn w r with
    | true => exact .inr (exists_funded hf)
    | false => simp [hf, ReservationStage.awaitsCommit] at ha
  · obtain ⟨found, hfound, hf, hid, ham, hstate⟩ := hevents e he
    obtain ⟨r, hr, rfl⟩ := List.mem_map.mp hfound
    exact ⟨by rw [MoneyEvent.funded, hstate]; rfl, r, mem_of_mem_filter hr, hid.symm, ham.symm, exists_funded hf⟩

theorem reservedCapacityEur_eq (h : Publication publishedAt o w w' row cancelled) (hw : Book w) :
    reservedCapacityEur w'.reservations o = fundedEur w o := by
  obtain ⟨added, hR⟩ := h.restages
  rw [h.reservations, reservedCapacityEur_map hR.kept, hw.fundedEur_eq]
  refine Table.tally_congr (fun r hr => ?_) fun _ _ _ => rfl
  rw [hw.live_iff_hold (h.not_published hw) hr]
  cases hp : holdOf o r with
  | true =>
    rw [if_pos rfl, termsOffered_stage]
    simp only [holdOf, decide_eq_true_eq] at hp
    cases hf : fundedIn w r <;> simp [hp.1, ReservationStage.live]
  | false =>
    have hdead := (hw.live_iff_hold (h.not_published hw) hr).trans hp
    simpa using hdead

theorem closed (h : Publication publishedAt o w w' row cancelled) (hw : Book w)
    (hfund : row.targetRaiseEur ≤ fundedEur w o) : Closed w'.reservations row where
  full := by
    rw [h.id, h.reservedCapacityEur_eq hw]
    have hle := hw.fundedEur_le o
    have hcap := hw.capacity row h.mem
    rw [h.id] at hcap
    omega
  settled := by
    rw [h.reservations, List.forall_mem_map, h.id]
    intro r _ hof hinit
    cases hp : holdOf o r with
    | true =>
      rw [hp, if_pos rfl, termsOffered_stage] at hinit
      split at hinit <;> cases hinit
    | false =>
      rw [hp] at hinit hof
      exact absurd hp (by simpa [holdOf] using ⟨hof, hinit⟩)

end Publication

theorem publishFinalOfferingTerms_inv (hw : Inv covered ordered w)
    (hfund : covered → ∀ row, w.offering o = some row → row.targetRaiseEur ≤ publishedFundedEur w o →
      row.targetRaiseEur ≤ fundedEur w o) :
    Inv covered ordered (publishFinalOfferingTerms fresh o publishedAt w).2 ∧
      Moves covered w (publishFinalOfferingTerms fresh o publishedAt w).2 := by
  obtain ⟨hsame, -⟩ | ⟨row, terms, -, h⟩ := publish_cases fresh publishedAt o hw.book.register
  · rw [hsame]
    exact ⟨hw, .refl covered w⟩
  · obtain ⟨added, hR⟩ := h.restages
    refine hR.inv hw fun hc => ?_
    have hfind : w.offering o = some row := h.id ▸ hw.book.offerings.find h.mem
    unfold ClosedBook
    rw [hR.offerings, List.forall_mem_map]
    intro row' hrow' hp hpre
    by_cases hid : row'.id = o
    · obtain rfl := hw.book.offering_eq hrow' h.mem (hid.trans h.id.symm)
      rw [if_pos hid]
      exact (h.closed hw.book (hfund hc row' hfind h.reached)).reterms (Publication.reterms row')
    · simp only [hid, if_false] at hp hpre ⊢
      rw [hR.reservations]
      exact (hw.closed hc row' hrow' hp hpre).select (fun r _ hp => Publication.staged hp)
        fun r _ hp hof => absurd (hof.symm.trans (of_decide_eq_true hp).1) hid

end Publish

/-- The ways the transaction can end. -/
inductive Creation (fresh : Nat → Nat) (input : CreateReservationInput) (w : Database) :
    Except DatabaseError CreateReservationResult × Database → Prop where
  | refused (e : DatabaseError) : Creation fresh input w (.error e, w)
  | conflict (c : CreateReservationConflict) : Creation fresh input w (.ok (.conflict c), w)
  | reused (r : Reservation) (hr : r ∈ w.reservations) : Creation fresh input w
      (.ok (.reused r.id r.createdAt ⟨r.amountEur, r.reservationStage, latestCapitalState w.moneyEvents r.id⟩), w)
  | created (row : OfferingRecord) (h : Holdable w input row) :
      Creation fresh input w (.ok (.created input.reservationId input.createdAt), w.hold fresh input)

theorem creation (fresh : Nat → Nat) (input : CreateReservationInput) (w : Database) :
    Creation fresh input w (createReservation fresh input w) := by
  unfold createReservation
  split
  · exact .conflict _
  · rename_i row hfind
    obtain ⟨hmem, hid⟩ := Table.find_some hfind
    by_cases hstatus : row.status = .preOffering
    · rw [if_neg (not_not.mpr hstatus)]
      split
      · rename_i existing hreplay
        obtain ⟨key, -, hkey⟩ := bind_eq_some_iff.mp hreplay
        exact .reused existing (mem_of_find?_eq_some hkey)
      · split_ifs with hcap hpos hdup
        · exact .conflict _
        · exact .refused _
        · exact .refused _
        · exact .created row ⟨hmem, hid, hstatus, not_lt.mp hcap, Nat.pos_of_ne_zero hpos, by simpa using hdup⟩
    · rw [if_pos hstatus]
      exact .conflict _

theorem Creation.inv (h : Creation fresh input w result) (hw : Inv covered ordered w) :
    Inv covered ordered result.2 ∧ Moves covered w result.2 := by
  cases h with
  | refused | conflict | reused => exact ⟨hw, .refl covered w⟩
  | created row h => exact h.inv hw

end Offering
