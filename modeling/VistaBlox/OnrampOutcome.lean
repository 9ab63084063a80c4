import VistaBlox.OfferingServices
import VistaBlox.Currency

/-!
# What one poll of the onramp decides

The documented decision depends on which purchases the provider lists; the code looks at the
first successful one only.
-/
namespace Offering

open Interleaving List Option

section Pass

/-- A purchase as the provider reports it, its amount a decimal text. -/
structure BuyTransaction where
  transactionId : Nat
  status : OnrampTransactionStatus
  purchaseCurrency : String
  purchaseAmountValue : Currency.Decimal

/-- The purchase with its amount read. -/
def BuyTransaction.summary (t : BuyTransaction) : OnrampTransactionSummary :=
  ⟨t.transactionId, t.status, t.purchaseCurrency, t.purchaseAmountValue.micros⟩

/-- What the calls of one pass are answered. -/
structure Pass where
  pending : List PendingPurchaseReservationForTimer
  keyed : Table.Keyed PendingPurchaseReservationForTimer.reservationId pending
  asOf : Nat
  purchases : ReservationId → List BuyTransaction
  clock : Nat → Nat

def Pass.answer (p : Pass) (calls : Nat) : (op : Op) → Except Failure op.Out
  | .clock => .ok (p.clock calls)
  | .listPendingPurchaseReservationsForTimers => .ok (p.pending, p.asOf)
  | .listBuyTransactions r => .ok ((p.purchases r).map BuyTransaction.summary)
  | .recordMoneyEvent .. => .ok ()
  | _ => .error (.fault 0)

/-- The world of a pass is the calls made so far. -/
def Pass.system (p : Pass) : Semantics (List Op) Unit Empty Empty Failure Op Op.Out where
  exec _ op _ calls := some (p.answer calls.length op, calls ++ [op])
  env e := e.elim
  job j := j.elim

def recordedState (r : ReservationId) : Op → Option CapitalState
  | .recordMoneyEvent input _ => if input.reservationId = r then some input.capitalState else none
  | _ => none

/-- The capital states one pass records for a reservation. -/
def Pass.records (p : Pass) (r : ReservationId) : List CapitalState :=
  match p.system.alone 0 () pollOnrampTransactionsService [] with
  | some (_, calls) => calls.filterMap (recordedState r)
  | none => []

/-- The decision for one reservation, without the record it leads to. -/
def decision (reservedAmountEur : Nat) (transactions : List OnrampTransactionSummary) : Option CapitalState :=
  match resolveOutcome transactions with
  | .pending => none
  | .failed _ => some .purchaseFailed
  | .success t => if isPurchaseCovering t reservedAmountEur then some .eurcReserved else some .purchaseFailed

theorem outcomeEvent_decision (reservation : PendingPurchaseReservationForTimer) (recordedAt : Nat)
    (transactions : List OnrampTransactionSummary) :
    (outcomeEvent reservation recordedAt (resolveOutcome transactions)).map MoneyEventInput.capitalState =
      decision reservation.amountEur transactions := by
  unfold decision
  cases resolveOutcome transactions with
  | pending => rfl
  | failed => rfl
  | success =>
    simp only [outcomeEvent]
    split <;> rfl

variable (p : Pass)

def Pass.decision (r : PendingPurchaseReservationForTimer) : Option CapitalState :=
  Offering.decision r.amountEur ((p.purchases r.reservationId).map BuyTransaction.summary)

/-- What the rounds for some reservations record for one of them. -/
def Pass.recorded (rs : List PendingPurchaseReservationForTimer) (id : ReservationId) : List CapitalState :=
  (rs.filter fun r => r.reservationId = id).filterMap p.decision

theorem Pass.recorded_cons (r : PendingPurchaseReservationForTimer) (rs : List PendingPurchaseReservationForTimer)
    (id : ReservationId) : p.recorded (r :: rs) id = p.recorded [r] id ++ p.recorded rs id := by
  simp only [Pass.recorded, filter_cons, filter_nil]
  split
  · rw [← filterMap_append, singleton_append]
  · rfl

theorem yields_call {calls : List Op} (h : p.answer calls.length op = .ok out) :
    Yields p.system 0 () (· = calls) (invoke op) out (· = calls ++ [op]) := by
  refine yields_perform fun w hw => ⟨calls ++ [op], ?_, rfl⟩
  subst hw
  simp only [Pass.system, h]

theorem yields_pollOne (asOf acted : Nat) (r : PendingPurchaseReservationForTimer) (calls : List Op) :
    ∃ acted' more, Yields p.system 0 () (· = calls) (pollOne asOf acted r) acted' (· = calls ++ more) ∧
      ∀ id, more.filterMap (recordedState id) = p.recorded [r] id := by
  let transactions := (p.purchases r.reservationId).map BuyTransaction.summary
  have hlist : Yields p.system 0 () (· = calls) (invoke (.listBuyTransactions r.reservationId)) transactions
      (· = calls ++ [.listBuyTransactions r.reservationId]) := yields_call p rfl
  have hrecorded : ∀ id, p.recorded [r] id =
      if r.reservationId = id then (decision r.amountEur transactions).toList else [] := by
    intro id
    simp only [Pass.recorded, filter_cons, filter_nil, decide_eq_true_eq]
    split
    · cases hd : decision r.amountEur transactions <;> simp [Pass.decision, transactions, hd]
    · rfl
  by_cases hpending : resolveOutcome transactions = .pending
  · refine ⟨acted, [.listBuyTransactions r.reservationId], yields_bind hlist ?_, fun id => ?_⟩
    · simp only [hpending, if_true]
      exact yields_ret acted
    · rw [hrecorded, decision, hpending]
      simp [recordedState]
  · let recordedAt := p.clock (calls ++ [Op.listBuyTransactions r.reservationId]).length
    obtain ⟨event, hevent⟩ : ∃ event, outcomeEvent r recordedAt (resolveOutcome transactions) = some event := by
      cases houtcome : resolveOutcome transactions with
      | pending => exact absurd houtcome hpending
      | failed => exact ⟨_, rfl⟩
      | success => exact isSome_iff_exists.mp (by simp only [outcomeEvent]; split <;> rfl)
    have hdecision := outcomeEvent_decision r recordedAt transactions
    rw [hevent, map_some] at hdecision
    refine ⟨acted + 1, [.listBuyTransactions r.reservationId] ++ [.clock] ++ [.recordMoneyEvent event asOf],
      yields_bind hlist ?_, fun id => ?_⟩
    · have hclock : Yields p.system 0 () (· = calls ++ [Op.listBuyTransactions r.reservationId]) (invoke .clock)
          recordedAt (· = calls ++ [.listBuyTransactions r.reservationId] ++ [.clock]) := yields_call p rfl
      simp only [hpending, if_false, ← append_assoc]
      refine yields_bind hclock ?_
      rw [hevent]
      exact yields_bind (yields_call p rfl) (yields_ret _)
    · rw [hrecorded, ← hdecision, ← (outcomeEvent_of hevent).1]
      by_cases hid : event.reservationId = id <;> simp [filterMap_cons, recordedState, hid]

theorem yields_poll (asOf : Nat) (rs : List PendingPurchaseReservationForTimer) :
    ∀ acted calls, ∃ acted' more,
      Yields p.system 0 () (· = calls) (rs.foldlM (pollOne asOf) acted) acted' (· = calls ++ more) ∧
      ∀ id, more.filterMap (recordedState id) = p.recorded rs id := by
  induction rs with
  | nil => exact fun acted calls => ⟨acted, [], by simpa using yields_ret acted, fun id => rfl⟩
  | cons r rs ih =>
    intro acted calls
    obtain ⟨acted₁, first, hfirst, hrecorded₁⟩ := yields_pollOne p asOf acted r calls
    obtain ⟨acted₂, rest, hrest, hrecorded₂⟩ := ih acted₁ (calls ++ first)
    refine ⟨acted₂, first ++ rest, ?_, fun id => ?_⟩
    · rw [foldlM_cons, ← append_assoc]
      exact yields_bind hfirst hrest
    · rw [filterMap_append, hrecorded₁, hrecorded₂, ← Pass.recorded_cons]

theorem Pass.records_eq (hr : r ∈ p.pending) : p.records r.reservationId = (p.decision r).toList := by
  obtain ⟨acted, more, hpoll, hrecorded⟩ := yields_poll p p.asOf p.pending 0
    [.listPendingPurchaseReservationsForTimers]
  have hpass : Yields p.system 0 () (· = []) pollOnrampTransactionsService (p.pending.length, acted)
      (· = [.listPendingPurchaseReservationsForTimers] ++ more) :=
    yields_bind (yields_call p rfl) (yields_bind hpoll (yields_ret _))
  obtain ⟨_, hrun, rfl⟩ := hpass [] rfl
  have hone : p.pending.filter (fun r' => r'.reservationId = r.reservationId) = [r] := p.keyed.filter hr
  simp only [Pass.records, hrun, filterMap_append, hrecorded, Pass.recorded, hone]
  cases hd : p.decision r <;> simp [recordedState, hd]

end Pass

section Decision

/-- A purchase that pays for the reservation. -/
def BuyTransaction.Funds (reservedAmountEur : Nat) (t : BuyTransaction) : Prop :=
  t.status = .success ∧ t.purchaseCurrency = "EURC" ∧ 0 < t.purchaseAmountValue.micros ∧
    (Currency.Decimal.ofCents reservedAmountEur).micros * 9 / 10 ≤ t.purchaseAmountValue.micros

def BuyTransaction.InFlight (t : BuyTransaction) : Prop := t.status = .created ∨ t.status = .inProgress

variable (reservedAmountEur : Nat) (purchases : List BuyTransaction)

/-- The documented reason to book the reservation as funded. -/
def Funded : Prop := ∃ t ∈ purchases, t.Funds reservedAmountEur

/-- The documented reason to book the purchase as failed. -/
def Exhausted : Prop :=
  (∀ t ∈ purchases, ¬ t.Funds reservedAmountEur) ∧ (∀ t ∈ purchases, ¬ t.InFlight) ∧
    ∃ t ∈ purchases, t.status = .failed ∨ t.status = .success

/-- The recorded states are those the set of purchases calls for. -/
structure AsDocumented (recorded : List CapitalState) : Prop where
  eurcReserved : recorded = [.eurcReserved] ↔ Funded reservedAmountEur purchases
  purchaseFailed : recorded = [.purchaseFailed] ↔ Exhausted reservedAmountEur purchases
  nothing : recorded = [] ↔ ¬ Funded reservedAmountEur purchases ∧ ¬ Exhausted reservedAmountEur purchases

/-- All successful purchases fund the reservation, or none does and nothing is in flight. -/
def Uniform : Prop :=
  (∀ t ∈ purchases, t.status = .success → t.Funds reservedAmountEur) ∨
    (∀ t ∈ purchases, ¬ t.Funds reservedAmountEur) ∧ ∀ t ∈ purchases, ¬ t.InFlight

variable {reservedAmountEur : Nat} {purchases purchases' : List BuyTransaction}

theorem funds_iff {t : BuyTransaction} : t.Funds reservedAmountEur ↔
    t.status = .success ∧ isPurchaseCovering t.summary reservedAmountEur = true := by
  rw [BuyTransaction.Funds, Currency.Decimal.micros_ofCents, isPurchaseCovering, decide_eq_true_eq]
  rfl

theorem decision_of_success {t : BuyTransaction} (ht : purchases.find? (fun t => t.status = .success) = some t) :
    (t ∈ purchases ∧ t.status = .success) ∧
      ((t.Funds reservedAmountEur ∧
        decision reservedAmountEur (purchases.map BuyTransaction.summary) = some .eurcReserved) ∨
      (¬ t.Funds reservedAmountEur ∧
        decision reservedAmountEur (purchases.map BuyTransaction.summary) = some .purchaseFailed)) := by
  have hsuccess : t.status = .success := by simpa using find?_some ht
  have hfirst : (purchases.map BuyTransaction.summary).find? (fun t => t.status = .success) = some t.summary := by
    rw [find?_map]
    exact congrArg (Option.map BuyTransaction.summary) ht
  refine ⟨⟨mem_of_find?_eq_some ht, hsuccess⟩, ?_⟩
  simp only [decision, resolveOutcome, hfirst, funds_iff, hsuccess, true_and]
  cases isPurchaseCovering t.summary reservedAmountEur <;> simp

theorem decision_of_no_success (h : ∀ t ∈ purchases, t.status ≠ .success) :
    ((∃ t ∈ purchases, t.InFlight) ∧
      decision reservedAmountEur (purchases.map BuyTransaction.summary) = none) ∨
    (∀ t ∈ purchases, ¬ t.InFlight) ∧
      (((∃ t ∈ purchases, t.status = .failed) ∧
        decision reservedAmountEur (purchases.map BuyTransaction.summary) = some .purchaseFailed) ∨
      ((∀ t ∈ purchases, t.status ≠ .failed) ∧
        decision reservedAmountEur (purchases.map BuyTransaction.summary) = none)) := by
  have hfirst : (purchases.map BuyTransaction.summary).find? (fun t => t.status = .success) = none := by
    rw [find?_map, map_eq_none_iff, find?_eq_none]
    exact fun t ht hs => h t ht (of_decide_eq_true hs)
  simp only [decision, resolveOutcome, hfirst]
  cases hflight : (purchases.map BuyTransaction.summary).any fun t => t.status = .created ∨ t.status = .inProgress with
  | true =>
    rw [List.any_map, List.any_eq_true] at hflight
    obtain ⟨t, ht, hstatus⟩ := hflight
    have hopen := of_decide_eq_true hstatus
    exact .inl ⟨⟨t, ht, hopen⟩, rfl⟩
  | false =>
    rw [List.any_map, List.any_eq_false] at hflight
    refine .inr ⟨fun t ht (hopen : t.status = .created ∨ t.status = .inProgress) =>
      hflight t ht (decide_eq_true hopen), ?_⟩
    cases hfailed : (purchases.map BuyTransaction.summary).find? (fun t => t.status = .failed) with
    | some =>
      obtain ⟨t, ht, rfl⟩ := List.mem_map.mp (mem_of_find?_eq_some hfailed)
      have hstatus := find?_some hfailed
      exact .inl ⟨⟨t, ht, of_decide_eq_true hstatus⟩, rfl⟩
    | none =>
      rw [find?_map, map_eq_none_iff, find?_eq_none] at hfailed
      exact .inr ⟨fun t ht hstatus => hfailed t ht (decide_eq_true hstatus), rfl⟩

theorem Funded.not_exhausted (h : Funded reservedAmountEur purchases) : ¬ Exhausted reservedAmountEur purchases :=
  fun hexhausted => h.elim fun t ht => hexhausted.1 t ht.1 ht.2

theorem AsDocumented.funded (h : Funded reservedAmountEur purchases) :
    AsDocumented reservedAmountEur purchases [.eurcReserved] :=
  ⟨by simpa using h, by simpa using h.not_exhausted, by simpa using fun hn => absurd h hn⟩

theorem AsDocumented.exhausted (h : Exhausted reservedAmountEur purchases) :
    AsDocumented reservedAmountEur purchases [.purchaseFailed] :=
  ⟨by simpa using fun hf : Funded _ _ => hf.not_exhausted h, by simpa using h, by simpa using fun _ => h⟩

theorem AsDocumented.neither (h : ¬ Funded reservedAmountEur purchases)
    (h' : ¬ Exhausted reservedAmountEur purchases) :
    AsDocumented reservedAmountEur purchases [] :=
  ⟨by simpa using h, by simpa using h', by simpa using ⟨h, h'⟩⟩

theorem asDocumented_of_uniform (h : Uniform reservedAmountEur purchases) :
    AsDocumented reservedAmountEur purchases
      (decision reservedAmountEur (purchases.map BuyTransaction.summary)).toList := by
  cases hfirst : purchases.find? (fun t => t.status = .success) with
  | some t =>
    obtain ⟨⟨ht, hsuccess⟩, ⟨hfunds, hd⟩ | ⟨hfunds, hd⟩⟩ := decision_of_success hfirst
    · rw [hd]
      exact .funded ⟨t, ht, hfunds⟩
    · rw [hd]
      rcases h with hall | ⟨hnone, hflight⟩
      · exact absurd (hall t ht hsuccess) hfunds
      · exact .exhausted ⟨hnone, hflight, t, ht, .inr hsuccess⟩
  | none =>
    have hnone : ∀ t ∈ purchases, t.status ≠ .success := by simpa using hfirst
    have hfunds : ∀ t ∈ purchases, ¬ t.Funds reservedAmountEur := fun t ht hf => hnone t ht hf.1
    have hfunded : ¬ Funded reservedAmountEur purchases := fun ⟨t, ht, hf⟩ => hfunds t ht hf
    rcases decision_of_no_success hnone with ⟨⟨t, ht, hflight⟩, hd⟩ | ⟨hflight, ⟨⟨t, ht, hfailed⟩, hd⟩ | ⟨hfailed, hd⟩⟩
    · rw [hd]
      exact .neither hfunded fun hex => hex.2.1 t ht hflight
    · rw [hd]
      exact .exhausted ⟨hfunds, hflight, t, ht, .inl hfailed⟩
    · rw [hd]
      refine .neither hfunded fun ⟨_, _, t, ht, hstatus⟩ => ?_
      exact hstatus.elim (hfailed t ht) (hnone t ht)

theorem Funded.perm (hperm : purchases'.Perm purchases) :
    Funded reservedAmountEur purchases' ↔ Funded reservedAmountEur purchases := by
  simp only [Funded, hperm.mem_iff]

theorem Exhausted.perm (hperm : purchases'.Perm purchases) :
    Exhausted reservedAmountEur purchases' ↔ Exhausted reservedAmountEur purchases := by
  simp only [Exhausted, hperm.mem_iff]

theorem Uniform.perm (hperm : purchases'.Perm purchases) :
    Uniform reservedAmountEur purchases' ↔ Uniform reservedAmountEur purchases := by
  simp only [Uniform, hperm.mem_iff]

theorem AsDocumented.unique (hperm : purchases'.Perm purchases)
    (h : AsDocumented reservedAmountEur purchases recorded)
    (h' : AsDocumented reservedAmountEur purchases' recorded') : recorded' = recorded := by
  by_cases hfunded : Funded reservedAmountEur purchases
  · rw [h.eurcReserved.mpr hfunded, h'.eurcReserved.mpr ((Funded.perm hperm).mpr hfunded)]
  · by_cases hexhausted : Exhausted reservedAmountEur purchases
    · rw [h.purchaseFailed.mpr hexhausted, h'.purchaseFailed.mpr ((Exhausted.perm hperm).mpr hexhausted)]
    · rw [h.nothing.mpr ⟨hfunded, hexhausted⟩, h'.nothing.mpr
        ⟨(Funded.perm hperm).not.mpr hfunded, (Exhausted.perm hperm).not.mpr hexhausted⟩]

def Pass.withPurchases (p : Pass) (r : ReservationId) (purchases : List BuyTransaction) : Pass :=
  { p with purchases := Function.update p.purchases r purchases }

theorem Pass.records_withPurchases (p : Pass) (hr : r ∈ p.pending) (purchases : List BuyTransaction) :
    (p.withPurchases r.reservationId purchases).records r.reservationId =
      (Offering.decision r.amountEur (purchases.map BuyTransaction.summary)).toList := by
  have hrecords := (p.withPurchases r.reservationId purchases).records_eq (r := r) hr
  rw [hrecords]
  simp only [Pass.decision, Pass.withPurchases, Function.update_self]

/-- A pass decides by the set of purchases, whatever their order, exactly if
all successful purchases fund the reservation, or none does and nothing is in flight. -/
theorem poll_decides_by_set (p : Pass) (r : PendingPurchaseReservationForTimer) (hr : r ∈ p.pending) :
    (AsDocumented r.amountEur (p.purchases r.reservationId) (p.records r.reservationId) ∧
      ∀ purchases : List BuyTransaction, purchases.Perm (p.purchases r.reservationId) →
        (p.withPurchases r.reservationId purchases).records r.reservationId = p.records r.reservationId) ↔
    Uniform r.amountEur (p.purchases r.reservationId) := by
  rw [p.records_eq hr]
  constructor
  · rintro ⟨hdocumented, horder⟩
    by_cases hall : ∀ t ∈ p.purchases r.reservationId, t.status = .success → t.Funds r.amountEur
    · exact .inl hall
    · obtain ⟨t, ht, hsuccess, hfunds⟩ : ∃ t ∈ p.purchases r.reservationId,
          t.status = .success ∧ ¬ t.Funds r.amountEur := by simpa using hall
      obtain ⟨before, after, hsplit⟩ := append_of_mem ht
      have hperm : (t :: (before ++ after)).Perm (p.purchases r.reservationId) := by
        rw [hsplit]
        exact perm_middle.symm
      have hfirst : (t :: (before ++ after)).find? (fun t => t.status = .success) = some t := by simp [hsuccess]
      have hmoved := horder _ hperm
      rw [p.records_withPurchases hr] at hmoved
      obtain ⟨_, ⟨hf, _⟩ | ⟨_, hd⟩⟩ := @decision_of_success r.amountEur _ t hfirst
      · exact absurd hf hfunds
      · rw [hd] at hmoved
        obtain ⟨hnone, hflight, _⟩ := hdocumented.purchaseFailed.mp hmoved.symm
        exact .inr ⟨hnone, hflight⟩
  · intro huniform
    have hdocumented := asDocumented_of_uniform huniform
    refine ⟨hdocumented, fun purchases hperm => ?_⟩
    rw [p.records_withPurchases hr]
    exact hdocumented.unique hperm (asDocumented_of_uniform ((Uniform.perm hperm).mpr huniform))

/-- One reservation of a hundred euros is due. -/
def samplePass (purchases : List BuyTransaction) : Pass :=
  ⟨[⟨0, 11, 10000⟩], nodup_singleton _, 0, fun _ => purchases, fun _ => 0⟩

/-- A purchase of EURC, in cents. -/
def buy (transactionId : Nat) (status : OnrampTransactionStatus) (cents : Nat) : BuyTransaction :=
  ⟨transactionId, status, "EURC", .ofCents cents⟩

theorem funds_buy (h : 0 < cents) (hle : amount * 9 ≤ cents * 10) : (buy i .success cents).Funds amount := by
  refine ⟨rfl, rfl, ?_, ?_⟩
  · simp only [buy, Currency.Decimal.micros_ofCents]
    omega
  · simp only [buy, Currency.Decimal.micros_ofCents]
    omega

/-- A retry after a failed attempt, with the fee taken out of the credit. -/
theorem poll_decides_by_set_retried :
    let p := samplePass [buy 1 .failed 10000, buy 2 .success 9500]
    Funded 10000 (p.purchases 0) ∧ AsDocumented 10000 (p.purchases 0) (p.records 0) := by
  intro p
  have huniform : Uniform 10000 (p.purchases 0) := by
    refine .inl fun t ht hsuccess => ?_
    rcases mem_pair.mp ht with rfl | rfl
    · cases hsuccess
    · exact funds_buy (by decide) (by decide)
  have hfunded : Funded 10000 (p.purchases 0) :=
    ⟨buy 2 .success 9500, by simp [p, samplePass], funds_buy (by decide) (by decide)⟩
  exact ⟨hfunded, ((poll_decides_by_set p ⟨0, 11, 10000⟩ (by simp [p, samplePass])).mpr huniform).1⟩

/-- A purchase of one euro hides the one of ninety-five that follows it, and
the order of the two decides; a third in flight is not waited for. -/
theorem poll_decides_by_order :
    let small := buy 1 .success 100
    let covering := buy 2 .success 9500
    let waiting := buy 3 .inProgress 9500
    (samplePass [small, covering]).records 0 = [.purchaseFailed] ∧ Funded 10000 [small, covering] ∧
      (samplePass [covering, small]).records 0 = [.eurcReserved] ∧
      (samplePass [small, waiting]).records 0 = [.purchaseFailed] ∧ waiting.InFlight :=
  ⟨rfl, ⟨_, mem_pair.mpr (.inr rfl), funds_buy (by decide) (by decide)⟩, rfl, rfl, .inr rfl⟩

end Decision

end Offering
