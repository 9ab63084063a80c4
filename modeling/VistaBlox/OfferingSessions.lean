import VistaBlox.Interleaving
import VistaBlox.OfferingTransactions
import VistaBlox.ReadCommitted

/-!
# Reconfirmation, statement by statement

Three transactions as the database runs them, in sessions that lock rows and commit under
READ COMMITTED. A `SELECT … FOR UPDATE` finds its candidates in one snapshot, then locks
them one by one and tests each again in its latest version.

History: the ledger counts the committed resets of each offering, and remembers the count
each reconfirmation had read and each position was created with. The world remembers which
sessions are past the read of a reconfirmation or the select of a reset.
-/
namespace OfferingSessions

open Currency (costBasisToUnitCount)
open Interleaving Offering ReadCommitted

inductive Row where
  | offering (id : OfferingId)
  | reservation (id : ReservationId)
  deriving DecidableEq

/-- The reset count a position's reconfirmation had read, and the one it was created at. -/
structure Ground where
  reservationId : ReservationId
  against : Nat
  resets : Nat
  deriving DecidableEq

structure Ledger where
  tables : Database
  resets : OfferingId → Nat
  against : ReservationId → Nat
  grounds : List Ground

inductive Write where
  | reservation (id : ReservationId) (f : Reservation → Reservation) (seen : Option Nat)
  | offering (id : OfferingId) (f : OfferingRecord → OfferingRecord) (reset : Bool)
  | position (offeringId : OfferingId) (p : Position)
  | moneyEvent (e : MoneyEvent)
  | materialityRecord (m : MaterialityRecord)

/-- The row a write locks; an insert locks none that anybody else could want. -/
def Write.target : Write → Option Row
  | .reservation id .. => some (.reservation id)
  | .offering id .. => some (.offering id)
  | _ => none

def Ledger.apply (db : Ledger) : Write → Ledger
  | .reservation id f seen => { db with
      tables := db.tables.setReservation id f
      against := (seen.map (Function.update db.against id)).getD db.against }
  | .offering id f reset => { db with
      tables := db.tables.setOffering id f
      resets := if reset then Function.update db.resets id (db.resets id + 1) else db.resets }
  | .position o p => { db with
      tables := { db.tables with positions := db.tables.positions ++ [p] }
      grounds := db.grounds ++ [⟨p.reservationId, db.against p.reservationId, db.resets o⟩] }
  | .moneyEvent e => { db with tables := { db.tables with moneyEvents := db.tables.moneyEvents ++ [e] } }
  | .materialityRecord m => { db with
      tables := { db.tables with materialityRecords := db.tables.materialityRecords ++ [m] } }

structure World where
  store : Store Row Write Ledger
  reading : List (Nat × OfferingId)
  resetting : List (Nat × OfferingId)

namespace World

def committed (w : World) : Ledger := w.store.committed

def view (w : World) (t : Nat) : Ledger := w.store.view Ledger.apply t

theorem view_of_nothing (w : World) (h : w.store.pending t = []) : w.view t = w.committed := by
  rw [view, Store.view, h]
  rfl

/-- The session's transaction is over; so is what it was doing. -/
def leave (w : World) (t : Nat) (store : Store Row Write Ledger) : World :=
  ⟨store, w.reading.filter fun x => x.1 ≠ t, w.resetting.filter fun x => x.1 ≠ t⟩

def rollback (w : World) (t : Nat) : World := w.leave t (w.store.rollback t)

def commit (w : World) (t : Nat) : World := w.leave t (w.store.commit Ledger.apply t)

end World

inductive Op where
  | begin
  | lockReservation (id : ReservationId)
  | lockOffering (id : OfferingId)
  | readOffering (id : OfferingId)
  | readCurrentPack (id : OfferingId)
  | readPivId (id : OfferingId)
  | selectReconfirmed (id : OfferingId)
  | selectUnsettled (id : OfferingId)
  | write (x : Write)
  | commit
  | rollback

@[reducible] def Op.Out : Op → Type
  | .lockReservation _ => Option Reservation
  | .lockOffering _ => Option OfferingRecord
  | .readOffering _ => Option OfferingRecord × Nat
  | .readCurrentPack _ => Option DisclosurePack
  | .readPivId _ => Option PivId
  | .selectReconfirmed _ => List ReservationId
  | .selectUnsettled _ => List ReservationId × (AccountId → Option Nat)
  | _ => Unit

def isReconfirmed (o : OfferingId) (r : Reservation) : Bool := r.offeringId = o ∧ r.reservationStage = .reconfirmed

/-- `none` stands for a session that waits for a lock. -/
def Op.run (t : Nat) (w : World) : (op : Op) → Option (op.Out × World)
  | .begin => some ((), w.rollback t)
  | .lockReservation id => (w.store.lock t (.reservation id)).map fun store =>
      ((w.view t).tables.reservation id, { w with store := store })
  | .lockOffering id => (w.store.lock t (.offering id)).map fun store =>
      ((w.view t).tables.offering id, { w with store := store })
  | .readOffering id =>
      some (((w.view t).tables.offering id, (w.view t).resets id), { w with reading := (t, id) :: w.reading })
  | .readCurrentPack id => some (currentPack (w.view t).tables id, w)
  | .readPivId id => some (((w.view t).tables.offering id).map OfferingRecord.pivId, w)
  | .selectReconfirmed id =>
      some ((((w.view t).tables.reservations.filter (isReconfirmed id)).map Reservation.id),
        { w with resetting := (t, id) :: w.resetting })
  | .selectUnsettled id =>
      some (((((w.view t).tables.reservations.filter (committed id)).map Reservation.id),
        fun a => ((w.view t).tables.accounts a).bind AccountReadiness.walletAddress), w)
  | .write x => match x.target with
    | none => some ((), { w with store := w.store.write t x })
    | some row => (w.store.lock t row).map fun store => ((), { w with store := store.write t x })
  | .commit => some ((), w.commit t)
  | .rollback => some ((), w.rollback t)

inductive Failure where
  | aborted | notFound
  deriving DecidableEq, Repr

/-- A statement may fail for any reason, also while it waits; its transaction is then rolled back. -/
def exec (t : Nat) (op : Op) (abort : Bool) (w : World) : Option (Except Failure op.Out × World) :=
  if abort then some (.error .aborted, w.rollback t) else (op.run t w).map fun r => (.ok r.1, r.2)

abbrev Run := Prog Failure Op Op.Out

def invoke (op : Op) : Run op.Out := Prog.perform op

/-- What the body returns is committed, conflicts too; what it throws is rolled back. -/
def transaction (body : Run α) : Run α := do
  invoke .begin
  let result ← Prog.catchWith body fun e => do
    invoke .rollback
    .fail e
  invoke .commit
  return result

/-- Lock the candidates one by one and keep those whose latest version still passes the test. -/
def lockMatching (test : Reservation → Bool) : List ReservationId → List Reservation → Run (List Reservation)
  | [], kept => .ret kept
  | id :: rest, kept => do
    let row ← invoke (.lockReservation id)
    lockMatching test rest (kept ++ (row.filter test).toList)

def writeAll : List Write → Run Unit
  | [] => .ret ()
  | x :: xs => do
    invoke (.write x)
    writeAll xs

section Reconfirm

variable (reconfirmedAt : Nat)

/-- The part after the reservation is locked. -/
def reconfirmLocked (reservation : Reservation) : Run (Except ReconfirmConflict Nat) := do
  let read ← invoke (.readOffering reservation.offeringId)
  match read.1 with
  | none => .fail .notFound
  | some offering =>
    let pack ← invoke (.readCurrentPack reservation.offeringId)
    if offering.effectiveRightsEndAt.all fun endAt => isReconfirmationWindowOpen endAt reconfirmedAt = false then
      return .error .windowClosed
    else if isCompleteDisclosurePack ((pack.map DisclosurePack.documents).getD []) = false then
      return .error .disclosurePackIncomplete
    else
      invoke (.write (.reservation reservation.id (Reservation.reconfirm reconfirmedAt) (some read.2)))
      return .ok reconfirmedAt

def reconfirmReservation (id : ReservationId) (accountId : AccountId) : Run (Except ReconfirmConflict Nat) :=
  transaction do
    let row ← invoke (.lockReservation id)
    match row with
    | none => return .error .notFound
    | some reservation =>
      if reservation.accountId ≠ accountId then return .error .notFound
      else if reservation.reservationStage ≠ .awaitingReconfirmation then return .error .notAwaitingReconfirmation
      else reconfirmLocked reconfirmedAt reservation

end Reconfirm

section Classify

variable (input : ClassifyMaterialityInput)

/-- The reset: how long the window lasts now, and how many reservations were reset. -/
def resetReconfirmations : Run (Option Nat × Nat) := do
  let ids ← invoke (.selectReconfirmed input.offeringId)
  let rows ← lockMatching (isReconfirmed input.offeringId) ids []
  writeAll (rows.map fun r => .reservation r.id Reservation.reset none)
  invoke (.write (.offering input.offeringId (OfferingRecord.moveWindow input.classifiedAt) true))
  return (some (computeEffectiveRightsEndAt input.classifiedAt), rows.length)

def record : MaterialityRecord :=
  ⟨input.offeringId, input.changeDescription, input.classification, input.thresholdType,
    materialityResetTriggered input.classification, input.accountId, input.classifiedAt⟩

def classifyMateriality : Run (Except ClassifyConflict ClassifiedMateriality) := transaction do
  let row ← invoke (.lockOffering input.offeringId)
  match row with
  | none => return .error .offeringNotFound
  | some offering =>
    if offering.status ≠ .preOffering ∨ offering.finalOfferingPublishedAt = none then
      return .error .noActiveReconfirmationWindow
    else
      let reset ← if materialityResetTriggered input.classification then resetReconfirmations input
        else .ret (offering.effectiveRightsEndAt, 0)
      invoke (.write (.materialityRecord (record input)))
      return .ok ⟨input.classification, materialityResetTriggered input.classification, reset.1, reset.2⟩

end Classify

section Commit

variable (fresh : Nat → Nat) (finalizedAt : Nat)

/-- The writes for one reservation. -/
def settleWrites (pivId : PivId) (wallet : AccountId → Option Nat) (eventId : Nat) (row : Reservation) :
    List Write :=
  if row.reservationStage = .reconfirmed then
    [.position row.offeringId ⟨row.id, pivId, row.accountId, costBasisToUnitCount row.amountEur, row.amountEur,
        wallet row.accountId⟩,
      .reservation row.id (row.settle finalizedAt) none,
      .moneyEvent ⟨eventId, row.id, .internal, none, .eurcFinalized, row.amountEur, none, finalizedAt⟩]
  else [.reservation row.id (row.settle finalizedAt) none]

def settleOne (pivId : PivId) (wallet : AccountId → Option Nat) (counts : Nat × Nat) (row : Reservation) :
    Run (Nat × Nat) := do
  writeAll (settleWrites finalizedAt pivId wallet (fresh counts.1) row)
  return if row.reservationStage = .reconfirmed then (counts.1 + 1, counts.2) else (counts.1, counts.2 + 1)

/-- The part after the offering is locked and its window found closed. -/
def settleLocked (o : OfferingId) : Run (Nat × Nat) := do
  let found ← invoke (.selectUnsettled o)
  let rows ← lockMatching (committed o) found.1 []
  let piv ← invoke (.readPivId o)
  match piv with
  | none => .fail .notFound
  | some pivId =>
    let counts ← rows.foldlM (settleOne fresh finalizedAt pivId found.2) (0, 0)
    invoke (.write (.offering o (fun row => { row with status := .finalOffering }) false))
    return counts

def commitOfferingFinalization (o : OfferingId) : Run (Except CommitConflict (Nat × Nat)) := transaction do
  let row ← invoke (.lockOffering o)
  match row with
  | none => return .error .offeringNotFound
  | some offering =>
    if offering.status ≠ .preOffering ∨ offering.finalOfferingPublishedAt = none then
      return .error .notPublishableState
    else if offering.effectiveRightsEndAt.all fun endAt => isReconfirmationWindowOpen endAt finalizedAt then
      return .error .windowStillOpen
    else
      let counts ← settleLocked fresh finalizedAt o
      return .ok counts

end Commit

inductive Job where
  | reconfirmReservation (id : ReservationId) (accountId : AccountId) (reconfirmedAt : Nat)
  | classifyMateriality (input : ClassifyMaterialityInput)
  | commitOfferingFinalization (o : OfferingId) (finalizedAt : Nat) (fresh : Nat → Nat)

def Job.run : Job → Run Unit
  | .reconfirmReservation id a reconfirmedAt =>
    (OfferingSessions.reconfirmReservation reconfirmedAt id a).bind fun _ => .ret ()
  | .classifyMateriality input => (OfferingSessions.classifyMateriality input).bind fun _ => .ret ()
  | .commitOfferingFinalization o finalizedAt fresh =>
    (OfferingSessions.commitOfferingFinalization fresh finalizedAt o).bind fun _ => .ret ()

/-- Any number of sessions on one database; nothing else touches it. -/
def system : Semantics World Bool Empty Job Failure Op Op.Out where
  exec := exec
  env e := e.elim
  job := Job.run

end OfferingSessions
