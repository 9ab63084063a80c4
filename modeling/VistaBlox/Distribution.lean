import VistaBlox.Currency
import VistaBlox.ProRata

/-!
# Operating distributions

The rent of a period, less its deductions, is divided over the holders by units: texts,
computed with in millionths of a euro and rounded down three times. Division by zero and
texts that are no numbers throw.
-/
namespace Rental

open Currency List Option

abbrev PivId := Nat
abbrev PositionId := Nat
abbrev AccountId := Nat
abbrev RentCollectionId := Nat
abbrev DistributionId := Nat

inductive Failure where
  | fractionTooLong (value : Text)
  | syntaxError (text : Text)
  | totalUnitsNotPositive
  | divisionByZero
  | uniqueViolation
  deriving DecidableEq

def readBigInt (text : Text) : Except Failure Int :=
  match bigInt text with
  | some n => .ok n
  | none => .error (.syntaxError text)

/-- `a / b` on bigints. -/
def divide (a b : Int) : Except Failure Int := if b = 0 then .error .divisionByZero else .ok (a.tdiv b)

def microsPerUnit : Int := 1000000

def microsPerCent : Int := 10000

def toMicros (value : Text) : Except Failure Int :=
  let negative := value.head? = some '-'
  let unsigned := if negative then value.tail else value
  let whole := (splitAmount unsigned).1
  let fraction := (splitAmount unsigned).2.getD []
  if 6 < fraction.length then .error (.fractionTooLong value)
  else do
    let micros := (← readBigInt whole) * microsPerUnit + (← readBigInt (padEnd 6 '0' fraction))
    return if negative then -micros else micros

def fromMicros (value : Int) : Text := fromEurcMicros value

structure DistributionDeductions where
  grossRentEur : Text
  managementFeeEur : Text
  otherExpensesEur : Text
  reserveHoldbackEur : Text

def computeDistributableNet (input : DistributionDeductions) : Except Failure Text := do
  let net := (← toMicros input.grossRentEur) - (← toMicros input.managementFeeEur) -
    (← toMicros input.otherExpensesEur) - (← toMicros input.reserveHoldbackEur)
  let floored := if 0 < net then net else 0
  let wholeCents := floored.tdiv microsPerCent
  return bigIntText (wholeCents.tdiv 100) ++ '.' :: padStart 2 '0' (bigIntText (wholeCents.tmod 100))

def computeAmountPerUnit (distributableNetEur totalUnits : Text) : Except Failure Text := do
  let totalUnitsMicros ← toMicros totalUnits
  if totalUnitsMicros ≤ 0 then .error .totalUnitsNotPositive
  else do
    let scaledNet := (← toMicros distributableNetEur) * microsPerUnit
    let perUnitMicros ← divide scaledNet totalUnitsMicros
    return fromMicros perUnitMicros

def computeEntryAmount (unitCount amountPerUnitEur : Text) : Except Failure Text := do
  let scaled := ((← toMicros unitCount) * (← toMicros amountPerUnitEur)).tdiv microsPerUnit
  return fromMicros scaled

structure ActivePositionHolder where
  positionId : PositionId
  unitCount : Text
  walletAddress : Option Text
  deriving DecidableEq

structure RentCollectionRecord where
  id : RentCollectionId
  pivId : PivId
  periodStart : Nat
  periodEnd : Nat
  grossRentCollectedEur : Text
  recordedBy : AccountId
  notes : Option Text
  deriving DecidableEq

structure Entry where
  positionId : PositionId
  unitCountAtRecordDate : Text
  amountEurc : Text
  destinationWalletAddress : Text
  deriving DecidableEq

structure CreateOperatingDistributionInput where
  pivId : PivId
  rentCollectionId : RentCollectionId
  periodStart : Nat
  periodEnd : Nat
  recordDate : Nat
  grossRentEur : Text
  managementFeeEur : Text
  otherExpensesEur : Text
  reserveHoldbackEur : Text
  distributableNetEur : Text
  totalUnitsAtRecordDate : Text
  amountPerUnitEur : Text
  entries : List Entry
  deriving DecidableEq

structure Database where
  holders : PivId → List ActivePositionHolder
  rentCollections : List RentCollectionRecord
  distributions : List (DistributionId × CreateOperatingDistributionInput)

def Database.findDistribution (w : Database) (pivId : PivId) (periodStart periodEnd : Nat) :
    Option (DistributionId × CreateOperatingDistributionInput) :=
  w.distributions.find? fun d => d.2.pivId = pivId ∧ d.2.periodStart = periodStart ∧ d.2.periodEnd = periodEnd

def Database.findRentCollection (w : Database) (pivId : PivId) (periodStart periodEnd : Nat) :
    Option RentCollectionRecord :=
  w.rentCollections.find? fun r => r.pivId = pivId ∧ r.periodStart = periodStart ∧ r.periodEnd = periodEnd

def Database.recordRentCollection (w : Database) (r : RentCollectionRecord) : Except Failure Database :=
  if w.rentCollections.any fun x => x.id = r.id ∨
      (x.pivId = r.pivId ∧ x.periodStart = r.periodStart ∧ x.periodEnd = r.periodEnd) then .error .uniqueViolation
  else .ok { w with rentCollections := w.rentCollections ++ [r] }

def Database.createOperatingDistribution (w : Database) (id : DistributionId)
    (input : CreateOperatingDistributionInput) : Except Failure Database :=
  if w.distributions.any fun d => d.1 = id ∨ d.2.rentCollectionId = input.rentCollectionId ∨
      (d.2.pivId = input.pivId ∧ d.2.periodStart = input.periodStart ∧ d.2.periodEnd = input.periodEnd) then
    .error .uniqueViolation
  else .ok { w with distributions := w.distributions ++ [(id, input)] }

structure CalculateOperatingDistributionInput where
  pivId : PivId
  periodStart : Nat
  periodEnd : Nat
  grossRentCollectedEur : Text
  managementFeeEur : Text
  otherExpensesEur : Text
  reserveHoldbackEur : Text
  recordedBy : AccountId
  notes : Option Text

structure CalculateOperatingDistributionResult where
  operatingDistributionId : DistributionId
  distributableNetEur : Text
  amountPerUnitEur : Text
  entriesCreated : Nat
  skippedNoWalletPositionIds : List PositionId
  alreadyCalculated : Bool
  deriving DecidableEq

def toMicroUnits (value : Text) : Except Failure Int := do
  let whole := (splitAmount value).1
  let fraction := (splitAmount value).2.getD []
  return (← readBigInt whole) * microsPerUnit + (← readBigInt ((padEnd 6 '0' fraction).take 6))

def fromMicroUnits (value : Int) : Text :=
  bigIntText (value.tdiv microsPerUnit) ++ '.' :: padStart 6 '0' (bigIntText (value.tmod microsPerUnit))

def totalUnitsOf (holders : List ActivePositionHolder) : Except Failure Int :=
  holders.foldlM (fun sum holder => do return sum + (← toMicroUnits holder.unitCount)) 0

/-- The holders with a wallet, beside it. -/
def paidHolders (holders : List ActivePositionHolder) : List (ActivePositionHolder × Text) :=
  holders.filterMap fun holder => holder.walletAddress.map fun wallet => (holder, wallet)

def skippedHolders (holders : List ActivePositionHolder) : List PositionId :=
  (holders.filter fun holder => holder.walletAddress = none).map ActivePositionHolder.positionId

def entryOf (amountPerUnitEur : Text) (paid : ActivePositionHolder × Text) : Except Failure Entry := do
  let amountEurc ← computeEntryAmount paid.1.unitCount amountPerUnitEur
  return ⟨paid.1.positionId, paid.1.unitCount, amountEurc, paid.2⟩

/-- The rate and the entries; a period without units has nothing to divide by. -/
def divideNet (distributableNetEur : Text) (totalUnits : Int) (holders : List ActivePositionHolder) :
    Except Failure (Text × List Entry × List PositionId) :=
  if 0 < totalUnits then do
    let amountPerUnitEur ← computeAmountPerUnit distributableNetEur (fromMicroUnits totalUnits)
    let entries ← (paidHolders holders).mapM (entryOf amountPerUnitEur)
    return (amountPerUnitEur, entries, skippedHolders holders)
  else return ("0.000000".toList, [], [])

/-- What the service computes once it has the rent collection and the holders. -/
def calculate (input : CalculateOperatingDistributionInput) (rentCollectionId : RentCollectionId)
    (holders : List ActivePositionHolder) : Except Failure (CreateOperatingDistributionInput × List PositionId) := do
  let distributableNetEur ← computeDistributableNet ⟨input.grossRentCollectedEur, input.managementFeeEur,
    input.otherExpensesEur, input.reserveHoldbackEur⟩
  let totalUnits ← totalUnitsOf holders
  let (amountPerUnitEur, entries, skipped) ← divideNet distributableNetEur totalUnits holders
  return ({
    pivId := input.pivId
    rentCollectionId := rentCollectionId
    periodStart := input.periodStart
    periodEnd := input.periodEnd
    recordDate := input.periodEnd
    grossRentEur := input.grossRentCollectedEur
    managementFeeEur := input.managementFeeEur
    otherExpensesEur := input.otherExpensesEur
    reserveHoldbackEur := input.reserveHoldbackEur
    distributableNetEur := distributableNetEur
    totalUnitsAtRecordDate := fromMicroUnits totalUnits
    amountPerUnitEur := amountPerUnitEur
    entries := entries }, skipped)

/-- The period's rent collection, recorded if it is not there yet. -/
def Database.ensureRentCollection (w : Database) (fresh : Nat → Nat) (input : CalculateOperatingDistributionInput) :
    Except Failure (RentCollectionId × Database) :=
  match w.findRentCollection input.pivId input.periodStart input.periodEnd with
  | some rentCollection => .ok (rentCollection.id, w)
  | none => do
    let w ← w.recordRentCollection ⟨fresh 0, input.pivId, input.periodStart, input.periodEnd,
      input.grossRentCollectedEur, input.recordedBy, input.notes⟩
    return (fresh 0, w)

/-- A rent collection recorded on the way stays when a later step throws. -/
def execute (fresh : Nat → Nat) (input : CalculateOperatingDistributionInput) (w : Database) :
    Except Failure CalculateOperatingDistributionResult × Database :=
  match w.findDistribution input.pivId input.periodStart input.periodEnd with
  | some existing => (.ok ⟨existing.1, existing.2.distributableNetEur, existing.2.amountPerUnitEur,
      existing.2.entries.length, [], true⟩, w)
  | none =>
    match w.ensureRentCollection fresh input with
    | .error e => (.error e, w)
    | .ok (rentCollectionId, w₁) =>
      match calculate input rentCollectionId (w₁.holders input.pivId) with
      | .error e => (.error e, w₁)
      | .ok (row, skipped) =>
        match w₁.createOperatingDistribution (fresh 1) row with
        | .error e => (.error e, w₁)
        | .ok w₂ => (.ok ⟨fresh 1, row.distributableNetEur, row.amountPerUnitEur, row.entries.length, skipped, false⟩,
            w₂)

/-- A non-negative amount of at most six decimals. -/
structure Amount extends Decimal where
  fraction_length : (fraction.getD []).length ≤ 6

def Amount.text (a : Amount) : Text := a.toDecimal.text

def Amount.micros (a : Amount) : Nat := a.toDecimal.micros

theorem readBigInt_digits (hne : text ≠ []) (h : Digits text) :
    readBigInt text = .ok (Nat.ofDigitChars 10 text 0 : Nat) := by
  rw [readBigInt, bigInt_digits hne h]
  rfl

theorem head_text_ne_minus (d : Decimal) : d.text.head? ≠ some '-' := by
  obtain ⟨c, rest, hwhole⟩ := exists_cons_of_ne_nil d.whole_ne_nil
  have hc : c ≠ '-' := by
    rintro rfl
    exact absurd (d.whole_digits '-' (by simp [hwhole])) (by decide)
  unfold Decimal.text
  split <;> simpa [hwhole] using hc

theorem toMicros_text (a : Amount) : toMicros a.text = .ok (a.micros : Int) := by
  have hpad : padEnd 6 '0' (a.fraction.getD []) = cut 6 (a.fraction.getD []) := by
    have hlen := a.fraction_length
    refine (take_of_length_le ?_).symm
    rw [padEnd, length_append, length_replicate]
    omega
  have hwhole := readBigInt_digits a.whole_ne_nil a.whole_digits
  have hcut := readBigInt_digits (cut_ne_nil (n := 6) (by decide) _) (cut_digits a.fraction_getD)
  unfold toMicros Amount.text Amount.micros
  simp only [head_text_ne_minus, if_false, Decimal.splitAmount_text, Nat.not_lt.mpr a.fraction_length, hpad,
    hwhole, hcut, Decimal.micros_eq]
  rfl

theorem toMicroUnits_text (d : Decimal) : toMicroUnits d.text = .ok (d.micros : Int) := by
  have hwhole := readBigInt_digits d.whole_ne_nil d.whole_digits
  have hcut := readBigInt_digits (cut_ne_nil (n := 6) (by decide) _) (cut_digits d.fraction_getD)
  unfold cut at hcut
  unfold toMicroUnits
  simp only [Decimal.splitAmount_text, hwhole, hcut, Decimal.micros_eq]
  rfl

theorem toMicros_fixed (hn : 0 < n) (hsix : n ≤ 6) :
    toMicros (Decimal.fixed n value).text = .ok ((value * 10 ^ (6 - n) : Nat) : Int) := by
  have hlen : (padStart n '0' (Nat.toDigits 10 (value % 10 ^ n))).length = n :=
    length_padStart (Nat.mod_lt _ (Nat.pow_pos (by decide))) hn
  have h := toMicros_text ⟨.fixed n value, by rw [Decimal.fixed, getD_some, hlen]; exact hsix⟩
  rwa [Amount.micros, Decimal.micros_fixed hn hsix] at h

theorem toMicros_fromMicros (micros : Nat) : toMicros (fromMicros micros) = .ok (micros : Int) := by
  rw [fromMicros, ← Decimal.text_ofMicros]
  exact (toMicros_fixed (by decide) (by decide)).trans (by rw [Nat.sub_self, Nat.pow_zero, Nat.mul_one])

theorem fromMicroUnits_eq (micros : Nat) : fromMicroUnits micros = fromMicros micros := by
  have hdiv : (micros : Int).tdiv microsPerUnit = (micros / 10 ^ 6 : Nat) := rfl
  have hmod : (micros : Int).tmod microsPerUnit = (micros % 10 ^ 6 : Nat) := rfl
  rw [fromMicros, ← Decimal.text_ofMicros, fromMicroUnits, hdiv, hmod, bigIntText_natCast, bigIntText_natCast]
  rfl

theorem computeDistributableNet_text (gross fee expenses holdback : Amount) :
    computeDistributableNet ⟨gross.text, fee.text, expenses.text, holdback.text⟩ =
      .ok (Decimal.ofCents ((gross.micros - (fee.micros + expenses.micros + holdback.micros)) / 10000)).text := by
  simp only [computeDistributableNet, toMicros_text, Decimal.text_ofCents]
  generalize gross.micros = g
  generalize fee.micros = f
  generalize expenses.micros = e
  generalize holdback.micros = h
  have hfloored : (if (0 : Int) < (g : Int) - f - e - h then (g : Int) - f - e - h else 0) =
      ((g - (f + e + h) : Nat) : Int) := by
    split <;> omega
  change Except.ok (fromCents (Int.tdiv _ microsPerCent)) = _
  rw [hfloored]
  rfl

theorem toMicros_ofCents (cents : Nat) : toMicros (Decimal.ofCents cents).text = .ok ((cents * 10 ^ 4 : Nat) : Int) :=
  toMicros_fixed (by decide) (by decide)

theorem computeAmountPerUnit_text (cents : Nat) {total : Nat} (htotal : 0 < total) :
    computeAmountPerUnit (Decimal.ofCents cents).text (fromMicroUnits total) =
      .ok (fromMicros (ProRata.rate (10 ^ 6) (cents * 10 ^ 4) total : Nat)) := by
  have hpos : ¬ (total : Int) ≤ 0 := by omega
  have hne : (total : Int) ≠ 0 := by omega
  rw [computeAmountPerUnit, fromMicroUnits_eq, toMicros_fromMicros]
  simp only [bind, Except.bind, hpos, if_false, toMicros_ofCents, divide, hne]
  rfl

theorem computeEntryAmount_text (units : Amount) (rate : Nat) :
    computeEntryAmount units.text (fromMicros rate) =
      .ok (fromMicros (ProRata.share (10 ^ 6) rate units.micros : Nat)) := by
  simp only [computeEntryAmount, toMicros_text, toMicros_fromMicros]
  rfl

structure Holding where
  positionId : PositionId
  units : Amount
  walletAddress : Option Text

def Holding.holder (h : Holding) : ActivePositionHolder := ⟨h.positionId, h.units.text, h.walletAddress⟩

def totalUnits (holdings : List Holding) : Nat := (holdings.map fun h => h.units.micros).sum

/-- A request of the service, its amounts of at most six decimals. -/
structure Period where
  pivId : PivId
  periodStart : Nat
  periodEnd : Nat
  gross : Amount
  fee : Amount
  expenses : Amount
  holdback : Amount
  recordedBy : AccountId
  notes : Option Text

def Period.input (p : Period) : CalculateOperatingDistributionInput :=
  ⟨p.pivId, p.periodStart, p.periodEnd, p.gross.text, p.fee.text, p.expenses.text, p.holdback.text, p.recordedBy,
    p.notes⟩

/-- What is left of the rent, in millionths, and nothing if the deductions exceed it. -/
def Period.due (p : Period) : Nat := p.gross.micros - (p.fee.micros + p.expenses.micros + p.holdback.micros)

/-- A distribution of `net` millionths that pays holders with a wallet the amounts beside them. -/
structure Payout (p : Period) (holdings : List Holding) (row : CreateOperatingDistributionInput) (net : Nat)
    (paid : List (Holding × Nat)) : Prop where
  net_text : toMicros row.distributableNetEur = .ok (net : Int)
  net_le : net ≤ p.due
  net_close : p.due < net + 10000
  recipients : paid.map Prod.fst =
    if 0 < totalUnits holdings then holdings.filter fun h => h.walletAddress.isSome else []
  entries : row.entries.map (fun e => (e.positionId, toMicros e.amountEurc)) =
    paid.map fun x => (x.1.positionId, .ok (x.2 : Int))
  sum_le : (paid.map Prod.snd).sum ≤ net
  remainder : (∀ h ∈ holdings, h.walletAddress.isSome = true) → 0 < totalUnits holdings →
    (net - (paid.map Prod.snd).sum) * 10 ^ 6 < totalUnits holdings + holdings.length * 10 ^ 6
  monotone : ∀ x ∈ paid, ∀ y ∈ paid, y.1.units.micros ≤ x.1.units.micros → y.2 ≤ x.2

theorem totalUnitsOf_holders (holdings : List Holding) :
    totalUnitsOf (holdings.map Holding.holder) = .ok (totalUnits holdings : Int) := by
  have hfold : ∀ (l : List Holding) (n : Nat),
      (l.map Holding.holder).foldlM (fun sum holder => do return sum + (← toMicroUnits holder.unitCount)) (n : Int) =
        (.ok ((n + totalUnits l : Nat) : Int) : Except Failure Int) := by
    intro l
    induction l with
    | nil => exact fun _ => rfl
    | cons h l ih =>
      intro n
      have hunits : toMicroUnits h.holder.unitCount = .ok (h.units.micros : Int) := toMicroUnits_text h.units.toDecimal
      have htotal : n + totalUnits (h :: l) = n + h.units.micros + totalUnits l := by
        rw [totalUnits, map_cons, sum_cons, ← Nat.add_assoc]
        rfl
      rw [map_cons, foldlM_cons, hunits, htotal]
      exact ih (n + h.units.micros)
  exact (hfold holdings 0).trans (by rw [Nat.zero_add])

/-- The entry of a holder with a wallet, at a rate. -/
def Holding.entry (rate : Nat) (h : Holding) : Option Entry :=
  h.walletAddress.map fun wallet =>
    ⟨h.positionId, h.units.text, fromMicros (ProRata.share (10 ^ 6) rate h.units.micros : Nat), wallet⟩

theorem entryOf_holder (rate : Nat) (h : Holding) (wallet : Text) : entryOf (fromMicros rate) (h.holder, wallet) =
    .ok ⟨h.positionId, h.units.text, fromMicros (ProRata.share (10 ^ 6) rate h.units.micros : Nat), wallet⟩ := by
  simp only [entryOf, Holding.holder, computeEntryAmount_text]
  rfl

theorem entries_holders (rate : Nat) (holdings : List Holding) :
    (paidHolders (holdings.map Holding.holder)).mapM (entryOf (fromMicros rate)) =
      .ok (holdings.filterMap (Holding.entry rate)) := by
  induction holdings with
  | nil => rfl
  | cons h holdings ih =>
    cases hwallet : h.walletAddress with
    | none =>
      have hskip : paidHolders ((h :: holdings).map Holding.holder) = paidHolders (holdings.map Holding.holder) := by
        simp [paidHolders, Holding.holder, hwallet]
      rw [hskip, ih, filterMap_cons_none]
      simp [Holding.entry, hwallet]
    | some wallet =>
      have hkeep : paidHolders ((h :: holdings).map Holding.holder) =
          (h.holder, wallet) :: paidHolders (holdings.map Holding.holder) := by
        simp [paidHolders, Holding.holder, hwallet]
      have hentry : h.entry rate = some ⟨h.positionId, h.units.text,
          fromMicros (ProRata.share (10 ^ 6) rate h.units.micros : Nat), wallet⟩ := by
        simp [Holding.entry, hwallet]
      rw [hkeep, mapM_cons, entryOf_holder, ih, filterMap_cons_some hentry]
      rfl

/-- The holders with a wallet and what they get at a rate. -/
def paidAt (rate : Nat) (holdings : List Holding) : List (Holding × Nat) :=
  (holdings.filter fun h => h.walletAddress.isSome).map fun h => (h, ProRata.share (10 ^ 6) rate h.units.micros)

theorem entries_paidAt (holdings : List Holding) :
    (holdings.filterMap (Holding.entry rate)).map (fun e => (e.positionId, toMicros e.amountEurc)) =
      (paidAt rate holdings).map fun x => (x.1.positionId, .ok (x.2 : Int)) := by
  induction holdings with
  | nil => rfl
  | cons h holdings ih =>
    unfold paidAt at ih ⊢
    cases hwallet : h.walletAddress with
    | none => simpa [Holding.entry, hwallet] using ih
    | some => simpa [Holding.entry, hwallet, toMicros_fromMicros] using ih

theorem paidAt_fst (rate : Nat) (holdings : List Holding) :
    (paidAt rate holdings).map Prod.fst = holdings.filter fun h => h.walletAddress.isSome := by
  simp [paidAt, Function.comp_def]

theorem paidAt_snd (rate : Nat) (holdings : List Holding) : (paidAt rate holdings).map Prod.snd =
    ((holdings.filter fun h => h.walletAddress.isSome).map fun h => h.units.micros).map
      (ProRata.share (10 ^ 6) rate) := by
  simp [paidAt, Function.comp_def]

theorem calculate_payout (p : Period) (holdings : List Holding) (rentCollectionId : RentCollectionId) :
    ∃ row skipped net paid, calculate p.input rentCollectionId (holdings.map Holding.holder) = .ok (row, skipped) ∧
      Payout p holdings row net paid ∧ row.rentCollectionId = rentCollectionId ∧
      row.pivId = p.pivId ∧ row.periodStart = p.periodStart ∧ row.periodEnd = p.periodEnd := by
  have hnet := computeDistributableNet_text p.gross p.fee p.expenses p.holdback
  have hdue : p.gross.micros - (p.fee.micros + p.expenses.micros + p.holdback.micros) = p.due := rfl
  rw [hdue] at hnet
  have hcents := toMicros_ofCents (p.due / 10000)
  unfold calculate
  simp only [Period.input, hnet, totalUnitsOf_holders, bind, Except.bind, divideNet]
  by_cases htotal : 0 < totalUnits holdings
  · have hrate := computeAmountPerUnit_text (p.due / 10000) htotal
    simp only [Int.natCast_pos, htotal, if_true, hrate, entries_holders]
    set rate := ProRata.rate (10 ^ 6) (p.due / 10000 * 10 ^ 4) (totalUnits holdings)
    refine ⟨_, _, p.due / 10000 * 10 ^ 4, paidAt rate holdings, rfl, ⟨hcents, by omega, by omega, ?_,
      entries_paidAt holdings, ?_, ?_, ?_⟩, rfl, rfl, rfl, rfl⟩
    · rw [if_pos htotal, paidAt_fst]
    · rw [paidAt_snd]
      exact ProRata.sum_share_le (by decide) (filter_sublist.map _)
    · intro hwallets _
      rw [paidAt_snd, filter_eq_self.mpr hwallets]
      have hlt := ProRata.remainder_lt (p.due / 10000 * 10 ^ 4) (by decide : 0 < 10 ^ 6) htotal
      rwa [length_map] at hlt
    · intro x hx y hy hunits
      obtain ⟨h, _, rfl⟩ := List.mem_map.mp hx
      obtain ⟨h', _, rfl⟩ := List.mem_map.mp hy
      exact ProRata.share_mono hunits
  · simp only [Int.natCast_pos, htotal, if_false]
    refine ⟨_, _, p.due / 10000 * 10 ^ 4, [], rfl, ⟨hcents, by omega, by omega, ?_, rfl, Nat.zero_le _, ?_, ?_⟩,
      rfl, rfl, rfl, rfl⟩
    · rw [if_neg htotal]
      rfl
    · exact fun _ h => absurd h htotal
    · exact fun x hx => nomatch hx

/-- The rent collection of the period's distribution. -/
def Database.rentCollectionId (w : Database) (fresh : Nat → Nat) (p : Period) : RentCollectionId :=
  match w.findRentCollection p.pivId p.periodStart p.periodEnd with
  | some rentCollection => rentCollection.id
  | none => fresh 0

/-- An id the service draws is taken, or the rent collection has a distribution of another period. -/
def Database.Clashes (w : Database) (fresh : Nat → Nat) (p : Period) : Prop :=
  (∃ r ∈ w.rentCollections, r.id = fresh 0) ∨
    ∃ d ∈ w.distributions, d.1 = fresh 1 ∨ d.2.rentCollectionId = w.rentCollectionId fresh p

theorem ensureRentCollection_cases (fresh : Nat → Nat) (w : Database) (p : Period) :
    (w.ensureRentCollection fresh p.input = .error .uniqueViolation ∧ w.Clashes fresh p) ∨
      ∃ w₁, w.ensureRentCollection fresh p.input = .ok (w.rentCollectionId fresh p, w₁) ∧ w₁.holders = w.holders ∧
        w₁.distributions = w.distributions := by
  unfold Database.ensureRentCollection
  simp only [Period.input]
  split
  · rename_i found hfound
    have hid : w.rentCollectionId fresh p = found.id := by simp only [Database.rentCollectionId, hfound]
    rw [hid]
    exact .inr ⟨_, rfl, rfl, rfl⟩
  · rename_i hnone
    have hid : w.rentCollectionId fresh p = fresh 0 := by simp only [Database.rentCollectionId, hnone]
    unfold Database.recordRentCollection
    split
    · rename_i htaken
      obtain ⟨r, hr, hclash⟩ := any_eq_true.mp htaken
      have hother := find?_eq_none.mp hnone r hr
      exact .inl ⟨rfl, .inl ⟨r, hr, (of_decide_eq_true hclash).resolve_right fun h => hother (decide_eq_true h)⟩⟩
    · rw [hid]
      exact .inr ⟨_, rfl, rfl, rfl⟩

/-- For every list of holders and every request the service computes a payout
and stores it, unless one of its rows clashes with one that is there. -/
theorem execute_pays (fresh : Nat → Nat) (w : Database) (p : Period) (holdings : List Holding)
    (hholders : w.holders p.pivId = holdings.map Holding.holder)
    (hnew : w.findDistribution p.pivId p.periodStart p.periodEnd = none) :
    ((execute fresh p.input w).1 = .error .uniqueViolation ∧ w.Clashes fresh p) ∨
      ∃ row net paid result, Payout p holdings row net paid ∧ (execute fresh p.input w).1 = .ok result ∧
        (execute fresh p.input w).2.distributions = w.distributions ++ [(fresh 1, row)] := by
  have hfind : w.findDistribution p.input.pivId p.input.periodStart p.input.periodEnd = none := hnew
  unfold execute
  simp only [hfind]
  obtain ⟨hfail, hclash⟩ | ⟨w₁, hensure, hw₁, hdistributions⟩ := ensureRentCollection_cases fresh w p
  · rw [hfail]
    exact .inl ⟨rfl, hclash⟩
  · obtain ⟨row, skipped, net, paid, hcalculate, hpayout, hrent, hpiv, hstart, hend⟩ :=
      calculate_payout p holdings (w.rentCollectionId fresh p)
    have hcalc : calculate p.input (w.rentCollectionId fresh p) (w₁.holders p.input.pivId) = .ok (row, skipped) := by
      rw [hw₁]
      exact hholders ▸ hcalculate
    simp only [hensure, hcalc]
    unfold Database.createOperatingDistribution
    split
    · rename_i hcreate
      split at hcreate
      · rename_i htaken
        cases hcreate
        obtain ⟨d, hd, hclash⟩ := any_eq_true.mp htaken
        rw [hdistributions] at hd
        obtain hid | hcollection | hsame := of_decide_eq_true hclash
        · exact .inl ⟨rfl, .inr ⟨d, hd, .inl hid⟩⟩
        · exact .inl ⟨rfl, .inr ⟨d, hd, .inr (hcollection.trans hrent)⟩⟩
        · rw [hpiv, hstart, hend] at hsame
          exact absurd (decide_eq_true hsame) (find?_eq_none.mp hnew d hd)
      · cases hcreate
    · rename_i w₂ hcreate
      split at hcreate
      · cases hcreate
      · cases hcreate
        exact .inr ⟨row, net, paid, _, hpayout, rfl, by rw [← hdistributions]⟩

def amount (cents : Nat) : Amount where
  toDecimal := .ofCents cents
  fraction_length := by
    change (padStart 2 '0' (Nat.toDigits 10 (cents % 10 ^ 2))).length ≤ 6
    rw [length_padStart (Nat.mod_lt _ (by decide)) (by decide)]
    decide

/-- Ten units without a wallet and one unit with one. -/
def twoHoldings : List Holding := [⟨1, amount 1000, none⟩, ⟨2, amount 100, some "wallet".toList⟩]

def twoHolders : Database where
  holders := fun _ => twoHoldings.map Holding.holder
  rentCollections := []
  distributions := []

/-- Eleven euros of rent, and nothing deducted. -/
def elevenEuros : Period := ⟨1, 0, 30, amount 1100, amount 0, amount 0, amount 0, 7, none⟩

theorem execute_pays_one_of_two :
    ∃ row net paid result, Payout elevenEuros twoHoldings row net paid ∧
      (execute id elevenEuros.input twoHolders).1 = .ok result ∧
      (execute id elevenEuros.input twoHolders).2.distributions = [(1, row)] := by
  have hpaid : (execute id elevenEuros.input twoHolders).1 =
      .ok ⟨1, "11.00".toList, "1.000000".toList, 1, [1], false⟩ := rfl
  exact (execute_pays id twoHolders elevenEuros twoHoldings rfl rfl).resolve_left fun h => nomatch hpaid.symm.trans h.1

/-- A holder of ten units without a wallet gets no entry, and a holder of one unit gets one euro. -/
theorem holder_without_wallet_receives_less :
    (amount 100).micros ≤ (amount 1000).micros ∧
      (execute id elevenEuros.input twoHolders).1 =
        .ok ⟨1, "11.00".toList, "1.000000".toList, 1, [1], false⟩ ∧
      (execute id elevenEuros.input twoHolders).2.distributions.map (fun d => d.2.entries) =
        [[⟨2, "1.00".toList, "1.000000".toList, "wallet".toList⟩]] := by
  exact ⟨by decide, rfl, rfl⟩

end Rental
