import VistaBlox.OfferingCapacity

/-!
# Landed money

Requests and the poll look at a reservation in one step and write its money event in
another. A replayed request that looked before the money landed hides it.
-/
namespace Offering

open Interleaving

variable {options : CreateReservationServiceOptions} {now : Nat} {s s' : State}

theorem reachable_ordered (h : Reachable (system options) (inOrder.and noMoneyMeanwhile) s s') :
    Reachable (system options) (guard False True) s s' :=
  h.mono (fun _ _ _ hg => ⟨False.elim, fun _ => hg⟩) fun _ _ _ => trivial

/-- Where money has landed, the latest event says so in every run. -/
theorem landed_of_run (h : Reachable (system options) (inOrder.and noMoneyMeanwhile) (idle (launch now)) s) :
    Landed s.world.moneyEvents := (secure_of_launch (reachable_ordered h)).1.landed trivial

variable {r : ReservationId}

theorem Landed.funded (h : Landed events) (hr : ∃ e ∈ events, e.reservationId = r ∧ e.funded = true) :
    isReservationFunded (latestCapitalState events r) = true := by
  obtain ⟨e, he, rfl, hf⟩ := hr
  exact h e he hf

theorem expireReservation_of_funded (h : isReservationFunded (latestCapitalState w.moneyEvents r) = true) :
    expireReservation r w = (false, w) := by
  unfold expireReservation
  split
  · rfl
  · split_ifs
    · rfl
    · rfl

/-- In every run in which money never lands between a look and an unfunded
write, and landed money is written in the order of its times: a funded
reservation stays funded, and a reservation for which `eurc_reserved` was ever
recorded is not expired. -/
theorem landed_money_stays (h : Reachable (system options) (inOrder.and noMoneyMeanwhile) (idle (launch now)) s)
    (h' : Reachable (system options) (inOrder.and noMoneyMeanwhile) s s') (r : ReservationId) :
    (isReservationFunded (latestCapitalState s.world.moneyEvents r) = true →
      isReservationFunded (latestCapitalState s'.world.moneyEvents r) = true) ∧
    ((∃ e ∈ s.world.moneyEvents, e.reservationId = r ∧ e.capitalState = .eurcReserved) →
      expireReservation r s.world = (false, s.world)) := by
  refine ⟨fun hf => ?_, fun ⟨e, he, hr, hstate⟩ => ?_⟩
  · obtain ⟨e, he, hr, hfe⟩ := exists_funded hf
    have hkept := (moves_of_run (reachable_ordered h) (reachable_ordered h')).moneyEvents
    exact (landed_of_run (h.trans h')).funded ⟨e, hkept.subset he, hr, hfe⟩
  · have hf : e.funded = true := by
      rw [MoneyEvent.funded, hstate]
      rfl
    exact expireReservation_of_funded ((landed_of_run h).funded ⟨e, he, hr, hf⟩)

instance (t : Nat) (op : Op) (w : Database) : Decidable ((inOrder.and noMoneyMeanwhile).call t op w) := by
  induction op using Op.casesOn <;> (dsimp only [Guard.and, inOrder, noMoneyMeanwhile]; infer_instance)

theorem landed_money_stays_published : ∃ s s',
    Reachable (system sampleOptions) (inOrder.and noMoneyMeanwhile) (idle (launch 0)) s ∧
    Reachable (system sampleOptions) (inOrder.and noMoneyMeanwhile) s s' ∧
    isReservationFunded (latestCapitalState s.world.moneyEvents 1) = true ∧ Published s'.world 1 ∧
    isReservationFunded (latestCapitalState s'.world.moneyEvents 1) = true ∧
    expireReservation 1 s.world = (false, s.world) := by
  obtain ⟨s, s', hs, hs', hlook⟩ := exists_of_play_play (system sampleOptions)
    ((inOrder.and noMoneyMeanwhile).allows_of_decide fun _ _ => ⟨trivial, trivial⟩) paid finalized
    (idle (launch 0))
    (fun s s' => (isReservationFunded (latestCapitalState s.world.moneyEvents 1) &&
      s.world.moneyEvents.any fun e => decide (e.reservationId = 1) && decide (e.capitalState = .eurcReserved)) &&
      s'.world.offerings.any fun row => decide (row.id = 1) && row.published) rfl
  simp only [Bool.and_eq_true, List.any_eq_true, decide_eq_true_eq] at hlook
  obtain ⟨⟨hf, hreserved⟩, hp⟩ := hlook
  obtain ⟨hstays, hexpire⟩ := landed_money_stays hs hs' 1
  exact ⟨s, s', hs, hs', hf, hp, hstays hf, hexpire hreserved⟩

/-- Investor 1 repeats a request under its key. The repetition has found the
reservation unfunded and is about to open a session when a poll records the
purchase of the first request. -/
def landedDuringReplay : List Step := opened 200 ++
  [.spawn 1 (.createReservation ⟨1, 1, 100, some "k"⟩)] ++ requested 1 1 10 ++
  [.spawn 2 (.createReservation ⟨1, 1, 100, some "k"⟩)] ++ calls 2 6 2 ++
  [.spawn 3 .pollOnrampTransactions] ++ calls 3 1 0 ++ purchased 3 3

theorem landed_money_hidden_by_replay : ∃ s s', Reachable (system sampleOptions) Guard.free (idle (launch 0)) s ∧
    Reachable (system sampleOptions) Guard.free s s' ∧
    isReservationFunded (latestCapitalState s.world.moneyEvents 1) = true ∧
    isReservationFunded (latestCapitalState s'.world.moneyEvents 1) = false ∧
    (∃ e ∈ s'.world.moneyEvents, e.reservationId = 1 ∧ e.capitalState = .eurcReserved) ∧
    (expireReservation 1 s'.world).1 = true := by
  obtain ⟨s, s', hs, hs', hlook⟩ := exists_of_play_play (system sampleOptions) Guard.allows_free
    landedDuringReplay (calls 2 3 3) (idle (launch 0))
    (fun s s' => isReservationFunded (latestCapitalState s.world.moneyEvents 1) &&
      !isReservationFunded (latestCapitalState s'.world.moneyEvents 1) &&
      (s'.world.moneyEvents.any fun e => decide (e.reservationId = 1) && decide (e.capitalState = .eurcReserved)) &&
      (expireReservation 1 s'.world).1) rfl
  simp only [Bool.and_eq_true, Bool.not_eq_true', List.any_eq_true, decide_eq_true_eq] at hlook
  obtain ⟨⟨⟨hf, hun⟩, hreserved⟩, hexpired⟩ := hlook
  exact ⟨s, s', hs, hs', hf, hun, hreserved, hexpired⟩

end Offering
