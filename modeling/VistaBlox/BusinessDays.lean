import Mathlib
import VistaBlox.EcmaDate

/-!
# Business days
-/
namespace BusinessDays

open EcmaDate

/-- A `Date`; `none` is an invalid one. -/
abbrev Date := Option ℤ

/-- The instants that a `Date` can hold. -/
def Valid (t : ℤ) : Prop := -8640000000000000 ≤ t ∧ t ≤ 8640000000000000

instance (t : ℤ) : Decidable (Valid t) := inferInstanceAs (Decidable (_ ∧ _))

def timeClip (t : ℤ) : Date := if Valid t then some t else none

/-- Sunday is 0. -/
def weekday (d : ℤ) : ℤ := (d + 4) % 7

def isWeekday (d : ℤ) : Bool := weekday d ≠ 0 ∧ weekday d ≠ 6

/-- `none` is `NaN`. -/
def getUTCDay (date : Date) : Option ℤ := date.map fun t => weekday (day t)

/-- The loop of `addBusinessDays`; `none` if it has not ended within the fuel. -/
def countDown : Nat → Date → Nat → Option Date
  | _, result, 0 => some result
  | 0, _, _ + 1 => none
  | fuel + 1, result, remaining + 1 =>
    let result := result.bind fun t => timeClip (setUTCDate t (getUTCDate t + 1))
    let day := getUTCDay result
    countDown fuel result (if day ≠ some 0 ∧ day ≠ some 6 then remaining else remaining + 1)

def addBusinessDays (fuel : Nat) (start : Date) (businessDays : ℚ) : Option (Except String Date) :=
  if businessDays.den ≠ 1 ∨ businessDays < 1 then some (.error "Business-day duration must be a positive integer")
  else (countDown fuel start businessDays.num.toNat).map .ok

/-- `NaN` equals nothing. -/
def isSameUtcDate : Date → Date → Bool
  | some a, some b =>
    getUTCFullYear a = getUTCFullYear b ∧ getUTCMonth a = getUTCMonth b ∧ getUTCDate a = getUTCDate b
  | _, _ => false

def isApplicantReminderDue (fuel : Nat) (publishedAt today : Date) : List ℚ → Option (Except String Bool)
  | [] => some (.ok false)
  | days :: reminderBusinessDays => match addBusinessDays fuel publishedAt days with
    | none => none
    | some (.error e) => some (.error e)
    | some (.ok date) =>
      if isSameUtcDate date today then some (.ok true)
      else isApplicantReminderDue fuel publishedAt today reminderBusinessDays

variable {t start r r' d d' : ℤ} {n m fuel : Nat}

theorem isSameUtcDate_iff : isSameUtcDate (some a) (some b) ↔ day a = day b := by
  rw [isSameUtcDate, decide_eq_true_iff]
  unfold getUTCFullYear getUTCMonth getUTCDate
  refine ⟨fun ⟨hyear, hmonth, hdate⟩ => ?_, fun h => by simp [h]⟩
  have hday := makeDay_date (day a) 0
  rw [hyear, hmonth, hdate, makeDay_date] at hday
  omega

/-- The weekdays up to a day, counted from a Sunday. -/
def weekdays (d : ℤ) : ℤ := 5 * ((d + 4) / 7) + min ((d + 4) % 7) 5

theorem isWeekday_iff : isWeekday d ↔ (d + 4) % 7 ≠ 0 ∧ (d + 4) % 7 ≠ 6 := decide_eq_true_iff

theorem weekdays_next (d : ℤ) : weekdays (d + 1) = weekdays d + if isWeekday (d + 1) then 1 else 0 := by
  simp only [isWeekday_iff, weekdays]
  split <;> omega

theorem weekdays_le_iff (hd : isWeekday d) (hd' : isWeekday d') : weekdays d ≤ weekdays d' ↔ d ≤ d' := by
  rw [isWeekday_iff] at hd hd'
  unfold weekdays
  omega

theorem card_weekdays (a : ℤ) (k : Nat) :
    (((Finset.Ioc a (a + k)).filter (isWeekday ·)).card : ℤ) = weekdays (a + k) - weekdays a := by
  induction k with
  | zero => simp
  | succ k =>
    have hlast : Finset.Ioc a (a + (k + 1 : Nat)) = insert (a + k + 1) (Finset.Ioc a (a + k)) := by
      ext d
      simp only [Finset.mem_insert, Finset.mem_Ioc]
      omega
    rw [hlast, Finset.filter_insert, show a + ((k + 1 : Nat) : ℤ) = a + k + 1 by omega, weekdays_next]
    split
    · rw [Finset.card_insert_of_notMem (by simp)]
      omega
    · omega

/-- `r` is `n` business days after `t`. -/
structure Deadline (t : ℤ) (n : Nat) (r : ℤ) : Prop where
  time : timeWithinDay r = timeWithinDay t
  weekday : isWeekday (day r)
  count : weekdays (day r) = weekdays (day t) + n

theorem exists_deadline (t : ℤ) (n : Nat) : ∃ r, Deadline t n r := by
  obtain ⟨w, hw⟩ : ∃ w, w = weekdays (day t) + n - 1 := ⟨_, rfl⟩
  have hday : day (makeDate (7 * (w / 5) + w % 5 - 3) (timeWithinDay t)) = 7 * (w / 5) + w % 5 - 3 := by
    unfold makeDate day timeWithinDay msPerDay
    omega
  refine ⟨makeDate (7 * (w / 5) + w % 5 - 3) (timeWithinDay t), ?_, ?_, ?_⟩
  · unfold makeDate timeWithinDay msPerDay
    omega
  · rw [isWeekday_iff, hday]
    omega
  · rw [hday, weekdays]
    omega

theorem Deadline.unique (h : Deadline t n r) (h' : Deadline t n r') : r = r' := by
  have hle := weekdays_le_iff h.weekday h'.weekday
  have hge := weekdays_le_iff h'.weekday h.weekday
  rw [h.count, h'.count] at hle hge
  exact eq_of_day (by omega) (h.time.trans h'.time.symm)

theorem Deadline.bounds (h : Deadline t n r) (hn : n ≠ 0) : day t + n ≤ day r ∧ day r ≤ day t + 3 * n := by
  have hweekday := isWeekday_iff.mp h.weekday
  have hcount := h.count
  unfold weekdays at hcount
  omega

theorem Deadline.next (h : Deadline t (n + 1) r) :
    Deadline (t + msPerDay) (if isWeekday (day (t + msPerDay)) then n else n + 1) r := by
  refine ⟨h.time.trans ?_, h.weekday, ?_⟩
  · unfold timeWithinDay msPerDay
    omega
  · rw [h.count, day_next, weekdays_next]
    split <;> omega

theorem timeClip_eq_some : timeClip t = some r ↔ Valid t ∧ t = r := by
  simp [timeClip]

theorem countDown_zero (fuel : Nat) (result : Date) : countDown fuel result 0 = some result := by
  cases fuel <;> rfl

theorem countDown_invalid (h : n ≤ fuel) : countDown fuel none n = some none := by
  induction n generalizing fuel with
  | zero => exact countDown_zero fuel none
  | succ n ih =>
    obtain ⟨fuel, rfl⟩ := Nat.exists_eq_succ_of_ne_zero (Nat.ne_zero_of_lt h)
    exact ih (Nat.le_of_succ_le_succ h)

/-- The loop takes a turn for each day up to the deadline, and ends there if it is a date. -/
theorem countDown_deadline (h : Deadline t n r) (hvalid : Valid t) (hzero : n = 0 → isWeekday (day t))
    (hfuel : n ≠ 0 → day r ≤ day t + fuel) : countDown fuel (some t) n = some (timeClip r) := by
  induction fuel generalizing t n with
  | zero =>
    obtain rfl : n = 0 := by
      by_contra hn
      have := h.bounds hn
      have := hfuel hn
      omega
    obtain rfl := h.unique ⟨rfl, hzero rfl, by simp⟩
    rw [countDown_zero, timeClip_eq_some.mpr ⟨hvalid, rfl⟩]
  | succ fuel ih =>
    cases n with
    | zero =>
      obtain rfl := h.unique ⟨rfl, hzero rfl, by simp⟩
      rw [countDown_zero, timeClip_eq_some.mpr ⟨hvalid, rfl⟩]
    | succ n =>
      have hbound := hfuel n.succ_ne_zero
      have hlate := h.bounds n.succ_ne_zero
      have htime := h.time
      have hday := day_next t
      rw [countDown]
      simp only [Option.bind_some, setUTCDate_next]
      by_cases hnext : Valid (t + msPerDay)
      · have hcounts : (getUTCDay (some (t + msPerDay)) ≠ some 0 ∧ getUTCDay (some (t + msPerDay)) ≠ some 6) ↔
            isWeekday (day (t + msPerDay)) := by
          simp [getUTCDay, isWeekday_iff, weekday]
        rw [timeClip_eq_some.mpr ⟨hnext, rfl⟩]
        simp only [hcounts]
        refine ih h.next hnext (fun hn => ?_) fun _ => by omega
        split at hn
        · assumption
        · cases hn
      · have hinvalid : ¬ Valid r := by
          unfold Valid day timeWithinDay msPerDay at *
          omega
        rw [timeClip, if_neg hnext, timeClip, if_neg hinvalid]
        exact countDown_invalid (n := n) (by omega)

/-- `addBusinessDays` comes to an end, within three turns of its loop for each
business day, and returns `result`. -/
def Returns (start : ℤ) (n : Nat) (result : Date) : Prop :=
  ∀ fuel, 3 * n ≤ fuel → addBusinessDays fuel (some start) n = some (.ok result)

theorem Deadline.returns (h : Deadline start n r) (hvalid : Valid start) (hn : 0 < n) :
    Returns start n (timeClip r) := by
  intro fuel hfuel
  have hinteger : ¬ ((n : ℚ).den ≠ 1 ∨ (n : ℚ) < 1) := by
    have hone : (1 : ℚ) ≤ n := Nat.one_le_cast.mpr hn
    rw [Rat.den_natCast]
    exact not_or.mpr ⟨fun h => h rfl, not_lt.mpr hone⟩
  have hbounds := h.bounds hn.ne'
  rw [addBusinessDays, if_neg hinteger, Rat.num_natCast, Int.toNat_natCast,
    countDown_deadline h hvalid (fun h => absurd h hn.ne') fun _ => by omega]
  rfl

theorem returns_iff (hvalid : Valid start) (hn : 0 < n) :
    Returns start n (some r) ↔ Valid r ∧ Deadline start n r := by
  obtain ⟨r', hr'⟩ := exists_deadline start n
  refine ⟨fun h => ?_, fun h => timeClip_eq_some.mpr ⟨h.1, rfl⟩ ▸ h.2.returns hvalid hn⟩
  have heq := (hr'.returns hvalid hn _ le_rfl).symm.trans (h _ le_rfl)
  obtain ⟨hv, rfl⟩ := timeClip_eq_some.mp (Except.ok.inj (Option.some.inj heq))
  exact ⟨hv, hr'⟩

theorem Returns.lt (h : Returns start n (some r)) (h' : Returns start m (some r')) (hvalid : Valid start) (hn : 0 < n)
    (hlt : n < m) : r < r' ∧ day r < day r' := by
  have hdeadline := ((returns_iff hvalid hn).mp h).2
  have hdeadline' := ((returns_iff hvalid (hn.trans hlt)).mp h').2
  have hle := weekdays_le_iff hdeadline'.weekday hdeadline.weekday
  rw [hdeadline.count, hdeadline'.count] at hle
  have htime := hdeadline.time.trans hdeadline'.time.symm
  unfold day timeWithinDay msPerDay at *
  omega

theorem isApplicantReminderDue_iff {milestones : List Nat} {date : Nat → ℤ}
    (hdate : ∀ n ∈ milestones, Returns start n (some (date n))) (hfuel : ∀ n ∈ milestones, 3 * n ≤ fuel) (today : ℤ) :
    isApplicantReminderDue fuel (some start) (some today) (milestones.map (↑)) = some (.ok true) ↔
      ∃ n ∈ milestones, day (date n) = day today := by
  induction milestones with
  | nil => simp [isApplicantReminderDue]
  | cons n milestones ih =>
    obtain ⟨hn, hdate⟩ := List.forall_mem_cons.mp hdate
    obtain ⟨hfirst, hfuel⟩ := List.forall_mem_cons.mp hfuel
    rw [List.map_cons, isApplicantReminderDue, hn fuel hfirst, List.exists_mem_cons_iff, ← isSameUtcDate_iff]
    dsimp only
    split
    · simp [*]
    · simp [*, ih hdate hfuel]

/-- The days of which a `Date` can hold an instant. -/
def calendar : Set ℤ := Set.Icc (-100000000) 100000000

/-- A deadline is at the time of day it is counted from, on a weekday, with as
many weekdays up to it as were asked for; it moves on with the count and with the
day; counts add up; and each reminder milestone has a day of its own. -/
theorem business_days_exact (start : ℤ) (hstart : Valid start) :
    (∀ n, 0 < n → ∃ r, Returns start n (timeClip r) ∧ timeWithinDay r = timeWithinDay start ∧
      isWeekday (day r) ∧ ((Finset.Ioc (day start) (day r)).filter (isWeekday ·)).card = n) ∧
    (∀ n m r r', 0 < n → n < m → Returns start n (some r) → Returns start m (some r') → r < r' ∧ day r < day r') ∧
    (∀ n later r r', 0 < n → Valid later → day start ≤ day later → Returns start n (some r) →
      Returns later n (some r') → day r ≤ day r') ∧
    (∀ n m r r', 0 < n → 0 < m → Returns start n (some r) →
      (Returns r m (some r') ↔ Returns start (n + m) (some r'))) ∧
    ∀ (milestones : List Nat) (run : ℤ → ℤ) (fuel : Nat),
      (∀ n ∈ milestones, 0 < n ∧ ∃ r, Returns start n (some r)) → (∀ n ∈ milestones, 3 * n ≤ fuel) →
      (∀ d ∈ calendar, day (run d) = d) →
      {d ∈ calendar | isApplicantReminderDue fuel (some start) (some (run d)) (milestones.map (↑)) =
        some (.ok true)}.ncard = milestones.toFinset.card := by
  refine ⟨fun n hn => ?_, fun n m r r' hn hlt hr hr' => hr.lt hr' hstart hn hlt,
    fun n later r r' hn hlater hle hr hr' => ?_, fun n m r r' hn hm hr => ?_,
    fun milestones run fuel hmilestones hfuel hrun => ?_⟩
  · obtain ⟨r, h⟩ := exists_deadline start n
    refine ⟨r, h.returns hstart hn, h.time, h.weekday, ?_⟩
    have hbounds := h.bounds hn.ne'
    have hcard := card_weekdays (day start) (day r - day start).toNat
    rw [Int.toNat_of_nonneg (by omega), add_sub_cancel, h.count] at hcard
    omega
  · have hdeadline := ((returns_iff hstart hn).mp hr).2
    have hdeadline' := ((returns_iff hlater hn).mp hr').2
    rw [← weekdays_le_iff hdeadline.weekday hdeadline'.weekday, hdeadline.count, hdeadline'.count]
    unfold weekdays
    omega
  · obtain ⟨hvalid, h⟩ := (returns_iff hstart hn).mp hr
    rw [returns_iff hvalid hm, returns_iff hstart (by omega)]
    have hcount := h.count
    refine and_congr_right fun _ => ⟨fun h' => ⟨h'.time.trans h.time, h'.weekday, ?_⟩,
      fun h' => ⟨h'.time.trans h.time.symm, h'.weekday, ?_⟩⟩
    · have := h'.count
      omega
    · have := h'.count
      omega
  · choose! date hdate using fun n hn => (hmilestones n hn).2
    have hdays : {d ∈ calendar | isApplicantReminderDue fuel (some start) (some (run d)) (milestones.map (↑)) =
        some (.ok true)} = milestones.toFinset.image fun n => day (date n) := by
      ext d
      simp only [Set.mem_ofPred_eq, isApplicantReminderDue_iff hdate hfuel, Finset.coe_image, Set.mem_image,
        List.coe_toFinset]
      constructor
      · rintro ⟨hd, n, hn, hday⟩
        exact ⟨n, hn, hday.trans (hrun d hd)⟩
      · rintro ⟨n, hn, rfl⟩
        have hd : day (date n) ∈ calendar := by
          obtain ⟨⟨hlow, hhigh⟩, -⟩ := (returns_iff hstart (hmilestones n hn).1).mp (hdate n hn)
          unfold day msPerDay
          exact ⟨by omega, by omega⟩
        exact ⟨hd, n, hn, (hrun _ hd).symm⟩
    have hmono : StrictMonoOn (fun n => day (date n)) milestones.toFinset := by
      intro n hn m hm hlt
      rw [List.coe_toFinset] at hn hm
      exact ((hdate n hn).lt (hdate m hm) hstart (hmilestones n hn).1 hlt).2
    rw [hdays, Set.ncard_coe_finset, Finset.card_image_of_injOn hmono.injOn]

/-- Reminders after three and after seven business days, counted from a Thursday. -/
theorem business_days_exact_reminders : Valid 1767225600000 ∧
    {d ∈ calendar | isApplicantReminderDue 21 (some 1767225600000) (some (d * msPerDay)) ([3, 7, 3].map (↑)) =
      some (.ok true)}.ncard = 2 := by
  have hstart : Valid 1767225600000 := by decide
  refine ⟨hstart, (business_days_exact _ hstart).2.2.2.2 [3, 7, 3] (· * msPerDay) 21 ?_ (by decide) fun d _ => ?_⟩
  · have hthree : Returns 1767225600000 3 (some 1767657600000) :=
      (returns_iff hstart (by decide)).mpr ⟨by decide, by decide, by decide, by decide⟩
    have hseven : Returns 1767225600000 7 (some 1768176000000) :=
      (returns_iff hstart (by decide)).mpr ⟨by decide, by decide, by decide, by decide⟩
    simp only [List.forall_mem_cons]
    exact ⟨⟨by decide, _, hthree⟩, ⟨by decide, _, hseven⟩, ⟨by decide, _, hthree⟩, by simp⟩
  · exact Int.mul_ediv_cancel d (by decide)

end BusinessDays
