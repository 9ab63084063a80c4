import VistaBlox.SessionSpecs

/-!
# A material change and the reconfirmations before it

A reset finds the committed reconfirmations by its select. One that has read the offering
before the reset commits, and commits after the select, escapes it: the two transactions
lock different rows.
-/
namespace OfferingSessions

open Interleaving Offering ReadCommitted

/-- Sessions start on a committed database; nothing is locked or written yet. -/
def opened (db : Database) : World :=
  ⟨⟨⟨db, fun _ => 0, fun _ => 0, []⟩, fun _ => none, fun _ => []⟩, [], []⟩

theorem opened_inv (h : Table.Keyed Reservation.id db.reservations) : Inv (opened db) :=
  ⟨h, fun _ _ _ => rfl, by simp [opened, World.committed], by simp [opened]⟩

/-- In every run in which no reset overlaps a reconfirmation of its offering:
every reconfirmed reservation was reconfirmed by a transaction that read the
offering after the last committed reset, and so was every reconfirmation that
a position was created from. -/
theorem reset_invalidates_reconfirmations {db : Database} (hdb : Table.Keyed Reservation.id db.reservations)
    {s : Config World Failure Op Op.Out} (h : Reachable system noOverlap (idle (opened db)) s) :
    (∀ r ∈ s.world.committed.tables.reservations, r.reservationStage = .reconfirmed →
      s.world.committed.against r.id = s.world.committed.resets r.offeringId) ∧
    ∀ g ∈ s.world.committed.grounds, g.against = g.resets := by
  have hinv : Inv s.world := (h.secure sound_system (secure_idle _ (opened_inv hdb))).1
  exact ⟨hinv.current, hinv.grounds⟩

/-- An offering in its reconfirmation window, with one reservation awaiting. -/
def sampleDatabase : Database where
  now := 0
  accounts _ := none
  offerings := [⟨1, 1, 100, .preOffering, some 0, some 1000, some 1000, 100⟩]
  reservations := [⟨1, 1, 1, none, 100, .awaitingReconfirmation, some 1, 0, none, none⟩]
  moneyEvents := []
  disclosurePacks := [⟨1, 1, disclosureDocumentTypes, 0, none, true⟩]
  materialityRecords := []
  positions := []

theorem sampleDatabase_keyed : Table.Keyed Reservation.id sampleDatabase.reservations := by
  simp [Table.Keyed, sampleDatabase]

/-- A change of the appraisal, found material at time 20. -/
def materialChange : ClassifyMaterialityInput := ⟨1, 9, "appraisal", .reviewedMaterial, some .valuation, 20⟩

def calls (t n : Nat) : List (Action Bool Empty Job) := List.replicate n (.call t false)

instance (t : Nat) (op : Op) (w : World) : Decidable (noOverlap.call t op w) := by
  induction op using Op.casesOn <;> (dsimp only [noOverlap]; infer_instance)

/-- Reconfirm, reset, reconfirm again, commit: one after the other. -/
def oneAfterTheOther : List (Action Bool Empty Job) :=
  [.spawn 1 (.reconfirmReservation 1 1 10)] ++ calls 1 6 ++ [.spawn 2 (.classifyMateriality materialChange)] ++
  calls 2 8 ++ [.spawn 3 (.reconfirmReservation 1 1 30)] ++ calls 3 6 ++
  [.spawn 4 (.commitOfferingFinalization 1 700000000 fun _ => 0)] ++ calls 4 10

/-- The reset commits while the reconfirmation has read the old terms and not yet written. -/
def resetMeanwhile : List (Action Bool Empty Job) :=
  [.spawn 1 (.reconfirmReservation 1 1 10)] ++ calls 1 4 ++ [.spawn 2 (.classifyMateriality materialChange)] ++
  calls 2 6 ++ calls 1 2

theorem reset_invalidates_reconfirmations_one_after_the_other :
    ∃ s, Reachable system noOverlap (idle (opened sampleDatabase)) s ∧ s.world.committed.resets 1 = 1 ∧
      (∃ g ∈ s.world.committed.grounds, g.reservationId = 1 ∧ g.against = g.resets) ∧
      ∀ r ∈ s.world.committed.tables.reservations, r.reservationStage = .reconfirmed →
        s.world.committed.against r.id = s.world.committed.resets r.offeringId := by
  obtain ⟨s, hs, hlook⟩ := exists_of_play system
    (noOverlap.allows_of_decide fun _ _ => trivial) oneAfterTheOther
    (idle (opened sampleDatabase)) (fun s => decide (s.world.committed.resets 1 = 1) &&
      s.world.committed.grounds.any fun g => decide (g.reservationId = 1)) rfl
  simp only [Bool.and_eq_true, List.any_eq_true, decide_eq_true_eq] at hlook
  obtain ⟨hresets, g, hg, hid⟩ := hlook
  obtain ⟨hcurrent, hgrounds⟩ := reset_invalidates_reconfirmations sampleDatabase_keyed hs
  exact ⟨s, hs, hresets, ⟨g, hg, hid, hgrounds g hg⟩, hcurrent⟩

theorem reconfirmation_escapes_reset : ∃ s s', Reachable system Guard.free (idle (opened sampleDatabase)) s ∧
    Reachable system Guard.free s s' ∧
    (∃ r ∈ s.world.committed.tables.reservations, r.reservationStage = .reconfirmed ∧
      s.world.committed.against r.id < s.world.committed.resets r.offeringId) ∧
    ∃ g ∈ s'.world.committed.grounds, g.against < g.resets := by
  obtain ⟨s, s', hs, hs', hlook⟩ := exists_of_play_play system Guard.allows_free resetMeanwhile
    ([.spawn 4 (.commitOfferingFinalization 1 700000000 fun _ => 0)] ++ calls 4 10) (idle (opened sampleDatabase))
    (fun s s' => (s.world.committed.tables.reservations.any fun r => decide (r.reservationStage = .reconfirmed) &&
        decide (s.world.committed.against r.id < s.world.committed.resets r.offeringId)) &&
      s'.world.committed.grounds.any fun g => decide (g.against < g.resets)) rfl
  simp only [Bool.and_eq_true, List.any_eq_true, decide_eq_true_eq] at hlook
  exact ⟨s, s', hs, hs', hlook.1, hlook.2⟩

end OfferingSessions
