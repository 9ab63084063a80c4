import VistaBlox.OfferingProtocol

/-!
# No oversell, no late holds

The live reservations of an offering stay within its target, and one that is over stays as
it is. But a hold is taken with the capacity checked under the lock, not the publication.
-/
namespace Offering

open Interleaving List

abbrev State := Config Database Failure Op Op.Out

abbrev Step := Action Choice Event Job

/-- The module's tables before its first offering. -/
def launch (now : Nat) : Database := ⟨now, fun _ => none, [], [], [], [], [], []⟩

variable {options : CreateReservationServiceOptions} {covered ordered : Prop} {now : Nat} {s s' : State}

theorem launch_inv : Inv covered ordered (launch now) where
  book := {
    offerings := nodup_nil
    reservations := nodup_nil
    positive := by simp [launch]
    placed := by simp [launch]
    priced := by simp [launch]
    capacity := by simp [launch]
    beforeTerms := by simp [launch]
    backed := by simp [launch] }
  closed _ := by simp [launch, ClosedBook]
  landed _ := by simp [launch, Landed]

/-- Every run from an empty database keeps the invariant. -/
theorem secure_of_launch (h : Reachable (system options) (guard covered ordered) (idle (launch now)) s) :
    Secure (system options) (guard covered ordered) (rules covered ordered) s :=
  h.secure (sound_system options covered ordered) (secure_idle _ launch_inv)

/-- Later tables have moved forward from earlier ones. -/
theorem moves_of_run (h : Reachable (system options) (guard covered ordered) (idle (launch now)) s)
    (h' : Reachable (system options) (guard covered ordered) s s') : Moves covered s.world s'.world :=
  h'.related (sound_system options covered ordered) (secure_of_launch h) (Moves covered) (.refl covered)
    (fun _ _ _ => .trans) fun _ _ _ h => h

theorem reachable_free (h : Reachable (system options) Guard.free s s') :
    Reachable (system options) (guard False False) s s' :=
  h.mono (fun _ _ _ _ => ⟨False.elim, False.elim⟩) fun _ _ _ => trivial

theorem reachable_fullyFunded (h : Reachable (system options) fullyFunded s s') :
    Reachable (system options) (guard True False) s s' :=
  h.mono (fun _ _ _ hg => ⟨fun _ => hg, False.elim⟩) fun _ _ _ => trivial

theorem book_of_run (h : Reachable (system options) Guard.free (idle (launch now)) s) : Book s.world :=
  (secure_of_launch (reachable_free h)).1.book

/-- In every run the live reservations stay within the target, and a
reservation that is over is found unchanged ever after. In the runs whose
publications happen with the target really funded, no hold is taken on a
published offering. -/
theorem no_oversell_no_late_hold (h : Reachable (system options) Guard.free (idle (launch now)) s)
    (h' : Reachable (system options) Guard.free s s') :
    (∀ o ∈ s.world.offerings, reservedCapacityEur s.world.reservations o.id ≤ o.targetRaiseEur) ∧
    (∀ r ∈ s.world.reservations, r.reservationStage.terminal → s'.world.reservation r.id = some r) ∧
    (Reachable (system options) fullyFunded (idle (launch now)) s → Reachable (system options) fullyFunded s s' →
      ∀ o, Published s.world o → ∀ r' ∈ s'.world.reservations, r'.offeringId = o →
        ∃ r ∈ s.world.reservations, r.id = r'.id) := by
  refine ⟨(book_of_run h).capacity, fun r hr hterm => ?_, fun hf hf' o hp r' hr' ho => ?_⟩
  · obtain ⟨r', hr', hs⟩ := (moves_of_run (reachable_free h) (reachable_free h')).reservations r hr
    obtain rfl := hs.terminal hterm
    exact (book_of_run (h.trans h')).reservations.find hr'
  · obtain ⟨r, hr, hs⟩ | hun :=
      (moves_of_run (reachable_fullyFunded hf) (reachable_fullyFunded hf')).held trivial r' hr'
    · exact ⟨r, hr, hs.id.symm⟩
    · exact absurd (ho ▸ hp) hun

/-- Reservations wait a quarter of an hour for their money. -/
def sampleOptions : CreateReservationServiceOptions := ⟨true, 15⟩

def investor : AccountReadiness :=
  ⟨.active, [.deviceKey, .google], some "eligible", some 1000000000000, some 77, none⟩

/-- An offering open to two investors, with a full disclosure pack. -/
def opened (targetRaiseEur : Nat) : List Step := [
  .env (.openOffering 1 1 targetRaiseEur),
  .env (.setAccount 1 (some investor)),
  .env (.setAccount 2 (some investor)),
  .spawn 0 (.publishDisclosurePack 1 disclosureDocumentTypes),
  .call 0 ⟨none, fun _ => 0, []⟩,
  .call 0 ⟨none, fun _ => 0, []⟩]

/-- A thread takes its next calls; identifiers drawn on the way are `id`. -/
def calls (t n id : Nat) : List Step := replicate n (.call t ⟨none, fun _ => id, []⟩)

/-- A request runs to its end: a reservation `id` with the money events `event` and `event + 1`. -/
def requested (t id event : Nat) : List Step := calls t 5 id ++ calls t 3 event ++ calls t 1 (event + 1)

/-- A thread takes its next calls while the onramp reports a purchase of one euro. -/
def purchased (t n : Nat) : List Step :=
  replicate n (.call t ⟨none, fun _ => 0, [⟨9, .success, "EURC", 1000000⟩]⟩)

instance (t : Nat) (op : Op) (w : Database) : Decidable (fullyFunded.call t op w) := by
  induction op using Op.casesOn <;> (dsimp only [fullyFunded]; infer_instance)

/-- Investor 1 pays for the whole offering. -/
def paid : List Step := opened 100 ++
  [.spawn 1 (.createReservation ⟨1, 1, 100, none⟩)] ++ requested 1 1 10 ++
  [.spawn 2 .pollOnrampTransactions] ++ calls 2 1 0 ++ purchased 2 3

/-- The final terms are published. -/
def finalized : List Step := [.spawn 3 (.finalizeOffering 1)] ++ calls 3 2 2

/-- Investor 1 reconfirms, the window ends and the offering is committed. -/
def reconfirmedAndCommitted : List Step :=
  [.spawn 4 (.reconfirmReservation 1 1)] ++ calls 4 2 0 ++
  [.env (.tick 700000000), .spawn 5 .commitOfferingFinalization] ++ calls 5 3 3

/-- Investor 1 holds the whole offering; the hold lapses while a poll that has
listed it still waits for the onramp, and the money arrives afterwards. -/
def strandedMoney : List Step := opened 100 ++
  [.spawn 1 (.createReservation ⟨1, 1, 100, none⟩)] ++ requested 1 1 10 ++
  [.spawn 2 .pollOnrampTransactions] ++ calls 2 1 0 ++
  [.env (.tick 2000000), .spawn 3 .expireUnfundedReservations] ++ calls 3 3 0 ++ purchased 2 3

/-- Investor 2 has read the offering, then the terms are published. -/
def publishedMeanwhile : List Step := strandedMoney ++
  [.spawn 4 (.createReservation ⟨1, 2, 100, none⟩)] ++ calls 4 4 2 ++ [.spawn 5 (.finalizeOffering 1)] ++ calls 5 2 0

theorem no_oversell_no_late_hold_committed : ∃ s s', Reachable (system sampleOptions) fullyFunded (idle (launch 0)) s ∧
    Reachable (system sampleOptions) fullyFunded s s' ∧ Published s.world 1 ∧
    (∃ r ∈ s'.world.reservations, r.offeringId = 1 ∧ r.reservationStage = .finalized) ∧
    (∀ o ∈ s.world.offerings, reservedCapacityEur s.world.reservations o.id ≤ o.targetRaiseEur) ∧
    ∀ r' ∈ s'.world.reservations, r'.offeringId = 1 → ∃ r ∈ s.world.reservations, r.id = r'.id := by
  obtain ⟨s, s', hs, hs', hlook⟩ := exists_of_play_play (system sampleOptions)
    (fullyFunded.allows_of_decide fun _ _ => trivial) (paid ++ finalized) reconfirmedAndCommitted
    (idle (launch 0))
    (fun s s' => (s.world.offerings.any fun row => decide (row.id = 1) && row.published) &&
      s'.world.reservations.any fun r => decide (r.offeringId = 1) && decide (r.reservationStage = .finalized)) rfl
  simp only [Bool.and_eq_true, any_eq_true, decide_eq_true_eq] at hlook
  obtain ⟨hcap, -, hheld⟩ := no_oversell_no_late_hold hs.free hs'.free
  exact ⟨s, s', hs, hs', hlook.1, hlook.2, hcap, hheld hs hs' 1 hlook.1⟩

theorem late_hold : ∃ s s', Reachable (system sampleOptions) Guard.free (idle (launch 0)) s ∧
    Reachable (system sampleOptions) Guard.free s s' ∧ Published s.world 1 ∧
    ∃ r' ∈ s'.world.reservations, r'.offeringId = 1 ∧ ∀ r ∈ s.world.reservations, r.id ≠ r'.id := by
  obtain ⟨s, s', hs, hs', hlook⟩ := exists_of_play_play (system sampleOptions)
    Guard.allows_free publishedMeanwhile (calls 4 2 2) (idle (launch 0))
    (fun s s' => (s.world.offerings.any fun row => decide (row.id = 1) && row.published) &&
      s'.world.reservations.any fun r' => decide (r'.offeringId = 1) &&
        s.world.reservations.all fun r => decide (r.id ≠ r'.id)) rfl
  simp only [Bool.and_eq_true, any_eq_true, all_eq_true, decide_eq_true_eq] at hlook
  exact ⟨s, s', hs, hs', hlook.1, hlook.2⟩

end Offering
