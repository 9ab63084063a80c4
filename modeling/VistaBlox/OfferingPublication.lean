import VistaBlox.OfferingCapacity

/-!
# What a publication means

The gate of `publishFinalOfferingTerms` sums the money of every reservation, over or not,
while the capacity counts the live ones only.
-/
namespace Offering

open Interleaving Table

variable {w w' : Database} {o : OfferingId}

/-- The amount a publication moves to `awaiting_reconfirmation`. -/
def movedEur (w w' : Database) (o : OfferingId) : Nat :=
  tally (fun r => r.offeringId = o ∧ r.reservationStage = .awaitingReconfirmation ∧ r ∉ w.reservations)
    Reservation.amountEur w'.reservations

/-- The money that landed on reservations of the offering that are over. -/
def strandedEur (w : Database) (o : OfferingId) : Nat :=
  tally (fun r => decide (r.offeringId = o ∧ isReservationFunded (latestCapitalState w.moneyEvents r.id) = true) &&
    !r.reservationStage.live) (latestAmountEur w.moneyEvents) w.reservations

theorem publishedFundedEur_eq (w : Database) (o : OfferingId) :
    publishedFundedEur w o = fundedEur w o + strandedEur w o := by
  have hsplit := tally_split
    (fun r => decide (r.offeringId = o ∧ isReservationFunded (latestCapitalState w.moneyEvents r.id) = true))
    (fun r => r.reservationStage.live) (latestAmountEur w.moneyEvents) w.reservations
  have hlive : fundedEur w o = tally (fun r => decide (r.offeringId = o ∧
      isReservationFunded (latestCapitalState w.moneyEvents r.id) = true) && r.reservationStage.live)
      (latestAmountEur w.moneyEvents) w.reservations :=
    tally_congr (fun r _ => by simp [and_right_comm, and_assoc, Bool.and_assoc]) fun _ _ _ => rfl
  rw [hlive]
  exact hsplit.symm

theorem Book.strandedEur_eq_zero (hw : Book w) (o : OfferingId) : strandedEur w o = 0 ↔
    ∀ r ∈ w.reservations, r.offeringId = o → r.reservationStage.live = false →
      isReservationFunded (latestCapitalState w.moneyEvents r.id) = false := by
  constructor
  · intro hzero r hr ho hdead
    have hnone := tally_eq_zero (fun x hx hx' => ?_) hzero r hr
    · simpa [ho, hdead] using hnone
    · simp only [Bool.and_eq_true, decide_eq_true_eq] at hx'
      rw [hw.latestAmountEur_eq hx hx'.1.2]
      exact hw.positive x hx
  · intro h
    refine tally_of_none fun r hr => ?_
    by_cases ho : r.offeringId = o
    · cases hlive : r.reservationStage.live with
      | true => simp
      | false => simp [h r hr ho hlive]
    · simp [ho]

namespace Publication

variable {publishedAt : Nat} {row : OfferingRecord} {cancelled : Nat}

theorem movedEur_eq (h : Publication publishedAt o w w' row cancelled) (hw : Book w) :
    movedEur w w' o = fundedEur w o := by
  unfold movedEur
  rw [h.reservations, tally_map, hw.fundedEur_eq]
  refine tally_congr (fun r hr => ?_) fun r _ _ => ?_
  · rw [hw.live_iff_hold (h.not_published hw) hr]
    cases hp : holdOf o r with
    | false => simp [hr]
    | true =>
      have hnew : fundedIn w r = true → r.termsOffered w ∉ w.reservations := by
        intro hf hmem
        have hstage := congrArg Reservation.reservationStage (hw.reservations.eq_of_key hmem hr rfl)
        rw [termsOffered_stage, hf, (of_decide_eq_true hp).2] at hstage
        cases hstage
      have hid : (r.termsOffered w).offeringId = o := (of_decide_eq_true hp).1
      simp only [if_true, hid, termsOffered_stage, true_and, Bool.true_and]
      cases hf : fundedIn w r with
      | false => simp
      | true => simpa using hnew hf
  · split <;> rfl

theorem cancelled_eq_zero (h : Publication publishedAt o w w' row cancelled) (hw : Book w)
    (hfull : fundedEur w o = reservedCapacityEur w.reservations o) : cancelled = 0 := by
  have hlive : ∀ r ∈ w.reservations, decide (r.offeringId = o ∧ r.reservationStage.live = true) = holdOf o r :=
    fun r hr => hw.live_iff_hold (h.not_published hw) hr
  have hsplit := tally_split (fun r => decide (r.offeringId = o ∧ r.reservationStage.live = true)) (fundedIn w)
    Reservation.amountEur w.reservations
  rw [← hw.fundedEur_eq, hfull] at hsplit
  have hzero : tally (fun r => decide (r.offeringId = o ∧ r.reservationStage.live = true) && !fundedIn w r)
      Reservation.amountEur w.reservations = 0 := by
    unfold reservedCapacityEur at hsplit
    omega
  rw [h.cancelled, List.countP_eq_zero]
  intro r hr
  have hnone := tally_eq_zero (fun x hx _ => hw.positive x hx) hzero r hr
  rw [hlive r hr] at hnone
  simp [hnone]

theorem full_of_stranded (h : Publication publishedAt o w w' row cancelled) (hw : Book w)
    (hzero : strandedEur w o = 0) : fundedEur w o = row.targetRaiseEur ∧
      fundedEur w o = reservedCapacityEur w.reservations o := by
  have hreached := h.reached
  rw [publishedFundedEur_eq, hzero] at hreached
  have hle := hw.fundedEur_le o
  have hcap := hw.capacity row h.mem
  rw [h.id] at hcap
  omega

end Publication

variable {options : CreateReservationServiceOptions} {now : Nat} {s : State} {fresh : Nat → Nat}
  {terms : PublishedTerms}

/-- Whenever a publication goes through: it moves exactly the target to
`awaiting_reconfirmation`, cancels nothing and counted what investors were
shown, if and only if no reservation of the offering that is over has landed
money. -/
theorem publication_fully_funded (h : Reachable (system options) Guard.free (idle (launch now)) s)
    (hpub : publishFinalOfferingTerms fresh o publishedAt s.world = (.ok terms, w')) :
    ((∃ row, s.world.offering o = some row ∧ movedEur s.world w' o = row.targetRaiseEur) ∧
      terms.reservationsCancelled = 0 ∧ publishedFundedEur s.world o = fundedEur s.world o) ↔
    ∀ r ∈ s.world.reservations, r.offeringId = o → r.reservationStage.live = false →
      isReservationFunded (latestCapitalState s.world.moneyEvents r.id) = false := by
  have hw := book_of_run h
  obtain ⟨-, hno⟩ | ⟨row, terms', hok, hP⟩ := publish_cases fresh publishedAt o hw.register
  · exact absurd (congrArg Prod.fst hpub) (hno terms)
  · rw [hpub] at hok hP
    obtain rfl : terms = terms' := Except.ok.inj hok
    rw [← hw.strandedEur_eq_zero]
    constructor
    · rintro ⟨-, -, hsame⟩
      rw [publishedFundedEur_eq] at hsame
      omega
    · intro hzero
      obtain ⟨htarget, hcap⟩ := hP.full_of_stranded hw hzero
      refine ⟨⟨row, ?_, ?_⟩, hP.cancelled_eq_zero hw hcap, ?_⟩
      · exact hP.id ▸ hw.offerings.find hP.mem
      · rw [hP.movedEur_eq hw, htarget]
      · rw [publishedFundedEur_eq, hzero, Nat.add_zero]

/-- Investor 2 takes the capacity that investor 1's lapsed hold gave back. -/
def resold : List Step := strandedMoney ++ [.spawn 4 (.createReservation ⟨1, 2, 100, none⟩)] ++ requested 4 2 20

theorem publication_fully_funded_paid : ∃ s terms w', Reachable (system sampleOptions) Guard.free (idle (launch 0)) s ∧
    publishFinalOfferingTerms (fun _ => 2) 1 50 s.world = (.ok terms, w') ∧ terms.reservationsCancelled = 0 ∧
    ∃ row, s.world.offering 1 = some row ∧ movedEur s.world w' 1 = row.targetRaiseEur := by
  obtain ⟨s, hs, hlook⟩ := exists_of_play (system sampleOptions) Guard.allows_free paid
    (idle (launch 0)) (fun s => (publishFinalOfferingTerms (fun _ => 2) 1 50 s.world).1.toBool &&
      s.world.reservations.all fun r => r.reservationStage.live) rfl
  simp only [Bool.and_eq_true, List.all_eq_true] at hlook
  obtain ⟨hok, hlive⟩ := hlook
  cases hpub : publishFinalOfferingTerms (fun _ => 2) 1 50 s.world with
  | mk result w' =>
    rw [hpub] at hok
    cases result with
    | error => cases hok
    | ok terms =>
      obtain ⟨hmoved, hcancelled, -⟩ := (publication_fully_funded hs hpub).mpr
        fun r hr _ hdead => absurd (hlive r hr) (by simp [hdead])
      exact ⟨s, terms, w', hs, hpub, hcancelled, hmoved⟩

theorem publication_of_stranded_money : ∃ s, Reachable (system sampleOptions) Guard.free (idle (launch 0)) s ∧
    ∃ row terms, s.world.offering 1 = some row ∧ row.targetRaiseEur = 100 ∧
      (publishFinalOfferingTerms (fun _ => 2) 1 3000000 s.world).1 = .ok terms ∧ terms.reservationsCancelled = 1 ∧
      movedEur s.world (publishFinalOfferingTerms (fun _ => 2) 1 3000000 s.world).2 1 = 0 ∧
      fundedEur s.world 1 = 0 ∧ publishedFundedEur s.world 1 = 100 := by
  obtain ⟨s, hs, hlook⟩ := exists_of_play (system sampleOptions) Guard.allows_free resold
    (idle (launch 0)) (fun s => (s.world.offering 1).any (fun row => row.targetRaiseEur = 100) &&
      (publishFinalOfferingTerms (fun _ => 2) 1 3000000 s.world).1.toOption.any (fun terms =>
        terms.reservationsCancelled = 1) &&
      decide (movedEur s.world (publishFinalOfferingTerms (fun _ => 2) 1 3000000 s.world).2 1 = 0 ∧
        fundedEur s.world 1 = 0 ∧ publishedFundedEur s.world 1 = 100)) rfl
  simp only [Bool.and_eq_true, Option.any_eq_true, decide_eq_true_eq] at hlook
  obtain ⟨⟨⟨row, hrow, htarget⟩, terms, hterms, hcancelled⟩, hmoved⟩ := hlook
  refine ⟨s, hs, row, terms, hrow, htarget, ?_, hcancelled, hmoved⟩
  cases hresult : (publishFinalOfferingTerms (fun _ => 2) 1 3000000 s.world).1 with
  | error =>
    rw [hresult] at hterms
    cases hterms
  | ok =>
    rw [hresult] at hterms
    exact congrArg Except.ok (Option.some.inj hterms)

end Offering
