import Mathlib.Algebra.Group.Nat.Defs
import VistaBlox.JsonText

/-!
# Money as text

Decimal texts, computed with as whole cents or millionths. The conversions split at the
point and pad or cut the fraction; `BigInt` decides what is a number.
-/
namespace Currency

open JsonText (isWhiteSpace trim trim_eq)
open List Option

abbrev Text := List Char

def digitValue (c : Char) : Nat :=
  if c.isDigit then c.toNat - '0'.toNat
  else if 'a' ≤ c ∧ c ≤ 'f' then c.toNat - 'a'.toNat + 10
  else if 'A' ≤ c ∧ c ≤ 'F' then c.toNat - 'A'.toNat + 10
  else 16

def readDigits (base : Nat) (text : Text) : Option Nat :=
  if text ≠ [] ∧ text.all (digitValue · < base) = true then some (text.foldl (fun n c => base * n + digitValue c) 0)
  else none

/-- `BigInt(text)`; `none` is its SyntaxError. -/
def bigInt (text : Text) : Option Int :=
  match trim Char.toNat text with
  | [] => some 0
  | '-' :: digits => (readDigits 10 digits).map fun n : Nat => -(n : Int)
  | '+' :: digits => (readDigits 10 digits).map Int.ofNat
  | '0' :: 'b' :: digits | '0' :: 'B' :: digits => (readDigits 2 digits).map Int.ofNat
  | '0' :: 'o' :: digits | '0' :: 'O' :: digits => (readDigits 8 digits).map Int.ofNat
  | '0' :: 'x' :: digits | '0' :: 'X' :: digits => (readDigits 16 digits).map Int.ofNat
  | digits => (readDigits 10 digits).map Int.ofNat

def bigIntText (n : Int) : Text := if n < 0 then '-' :: Nat.toDigits 10 n.natAbs else Nat.toDigits 10 n.natAbs

def padStart (n : Nat) (c : Char) (text : Text) : Text := List.replicate (n - text.length) c ++ text

def padEnd (n : Nat) (c : Char) (text : Text) : Text := text ++ List.replicate (n - text.length) c

/-- The part before the first point, and the part between it and a second one if there is a point. -/
def splitAmount (value : Text) : Text × Option Text :=
  ((value.splitOn '.').headD [], (value.splitOn '.')[1]?)

def toCents (value : Text) : Option Int := do
  let (euros, fraction) := splitAmount value
  return (← bigInt euros) * 100 + (← bigInt ((padEnd 2 '0' (fraction.getD "00".toList)).take 2))

def fromCents (cents : Int) : Text :=
  bigIntText (cents.tdiv 100) ++ '.' :: padStart 2 '0' (bigIntText (cents.tmod 100))

def subtractCurrencyFloorZero (minuend subtrahend : Text) : Option Text := do
  let remaining := (← toCents minuend) - (← toCents subtrahend)
  return fromCents (if 0 < remaining then remaining else 0)

def toEurcMicros (value : Text) : Option Int := do
  let (euros, fraction) := splitAmount value
  return (← bigInt euros) * 1000000 + (← bigInt ((padEnd 6 '0' (fraction.getD "000000".toList)).take 6))

def fromEurcMicros (micros : Int) : Text :=
  let absolute := micros.natAbs
  let fraction := padStart 6 '0' (Nat.toDigits 10 (absolute % 1000000))
  (if micros < 0 then ['-'] else []) ++ Nat.toDigits 10 (absolute / 1000000) ++ '.' :: fraction

variable {c : Char} {fraction whole : Text} {n : Nat}

def Digits (text : Text) : Prop := ∀ c ∈ text, c.isDigit = true

/-- A non-negative decimal number: digits, and perhaps a point and more digits. -/
structure Decimal where
  whole : Text
  fraction : Option Text
  whole_ne_nil : whole ≠ []
  whole_digits : Digits whole
  fraction_digits : ∀ text ∈ fraction, Digits text
  deriving DecidableEq

def Decimal.text (d : Decimal) : Text :=
  match d.fraction with
  | none => d.whole
  | some fraction => d.whole ++ '.' :: fraction

/-- The number that its digits give without the point. -/
def Decimal.units (d : Decimal) : Nat := Nat.ofDigitChars 10 (d.whole ++ d.fraction.getD []) 0

def Decimal.scale (d : Decimal) : Nat := (d.fraction.getD []).length

/-- The number of whole millionths in it. -/
def Decimal.micros (d : Decimal) : Nat := d.units * 10 ^ 6 / 10 ^ d.scale

/-- Whatever an amount is written as, the units it buys are written the same way. -/
def costBasisToUnitCount (costBasisEur : α) : α := costBasisEur

theorem digitValue_of_isDigit (h : c.isDigit = true) : digitValue c = c.toNat - '0'.toNat := by
  simp only [digitValue, h, if_true]

theorem toNat_of_isDigit (h : c.isDigit = true) : 48 ≤ c.toNat ∧ c.toNat ≤ 57 := by
  simp only [Char.isDigit, Bool.and_eq_true, decide_eq_true_eq] at h
  exact ⟨UInt32.le_iff_toNat_le.mp h.1, UInt32.le_iff_toNat_le.mp h.2⟩

theorem not_isWhiteSpace_of_isDigit (h : c.isDigit = true) : isWhiteSpace c.toNat = false := by
  obtain ⟨hlow, hhigh⟩ := toNat_of_isDigit h
  simp only [isWhiteSpace, mem_cons, not_mem_nil, or_false, decide_eq_false_iff_not]
  omega

theorem trim_digits (h : Digits text) : trim Char.toNat text = text :=
  trim_eq fun c hc => not_isWhiteSpace_of_isDigit (h c hc)

theorem readDigits_digits (hne : text ≠ []) (h : Digits text) :
    readDigits 10 text = some (Nat.ofDigitChars 10 text 0) := by
  have hvalue : ∀ c ∈ text, digitValue c < 10 := by
    intro c hc
    have := toNat_of_isDigit (h c hc)
    rw [digitValue_of_isDigit (h c hc)]
    simp only [Char.reduceToNat]
    omega
  have hfold : ∀ l : Text, Digits l → ∀ n,
      l.foldl (fun n c => 10 * n + digitValue c) n = Nat.ofDigitChars 10 l n := by
    intro l
    induction l with
    | nil => simp
    | cons c rest ih =>
      intro hl n
      rw [foldl_cons, Nat.ofDigitChars_cons, digitValue_of_isDigit (hl c (mem_cons_self ..))]
      exact ih (fun c hc => hl c (mem_cons_of_mem _ hc)) _
  rw [readDigits, if_pos ⟨hne, by simpa using hvalue⟩, hfold text h]

theorem bigInt_digits (hne : text ≠ []) (h : Digits text) :
    bigInt text = some (Int.ofNat (Nat.ofDigitChars 10 text 0)) := by
  unfold bigInt
  rw [trim_digits h]
  split
  case h_10 => rw [readDigits_digits hne h, map_some]
  case h_1 => exact absurd rfl hne
  all_goals simp [Digits] at h

theorem Digits.ne_point (h : Digits text) : '.' ∉ text := fun hmem => absurd (h _ hmem) (by decide)

theorem Digits.append (hl : Digits l) (hr : Digits r) : Digits (l ++ r) :=
  fun c hc => (mem_append.mp hc).elim (hl c) (hr c)

theorem Digits.zeros (n : Nat) : Digits (List.replicate n '0') := by
  intro c hc
  rw [(mem_replicate.mp hc).2]
  rfl

theorem digits_toDigits : Digits (Nat.toDigits 10 n) :=
  fun _ hc => Nat.isDigit_of_mem_toDigits (by decide) (by decide) hc

theorem splitAmount_whole (h : Digits whole) : splitAmount whole = (whole, none) := by
  simp [splitAmount, splitOn_eq_singleton h.ne_point]

theorem splitAmount_point (h : '.' ∉ whole) (hf : Digits fraction) :
    splitAmount (whole ++ '.' :: fraction) = (whole, some fraction) := by
  simp [splitAmount, splitOn_append_cons_self, splitOn_eq_singleton h, splitOn_eq_singleton hf.ne_point]

theorem Decimal.splitAmount_text (d : Decimal) : splitAmount d.text = (d.whole, d.fraction) := by
  unfold Decimal.text
  split
  · rename_i hnone
    rw [splitAmount_whole d.whole_digits, hnone]
  · rename_i fraction hsome
    rw [splitAmount_point d.whole_digits.ne_point (d.fraction_digits fraction (by simp [hsome])), hsome]

/-- A fraction padded and cut to some digits. -/
def cut (n : Nat) (fraction : Text) : Text := (padEnd n '0' fraction).take n

theorem cut_digits (h : Digits fraction) : Digits (cut n fraction) :=
  fun c hc => h.append (.zeros _) c (mem_of_mem_take hc)

theorem cut_ne_nil (hn : 0 < n) (fraction : Text) : cut n fraction ≠ [] := by
  have hlen : (cut n fraction).length = n := by
    rw [cut, padEnd, length_take, length_append, length_replicate]
    omega
  exact ne_nil_of_length_pos (by omega)

theorem ofDigitChars_append_zero (l r : Text) : Nat.ofDigitChars 10 (l ++ r) 0 =
    10 ^ r.length * Nat.ofDigitChars 10 l 0 + Nat.ofDigitChars 10 r 0 := by
  rw [Nat.ofDigitChars_append, Nat.ofDigitChars_eq_ofDigitChars_zero]

theorem ofDigitChars_lt (h : Digits text) : Nat.ofDigitChars 10 text 0 < 10 ^ text.length := by
  induction text with
  | nil => simp
  | cons c rest ih =>
    have hc := toNat_of_isDigit (h c (mem_cons_self ..))
    have hrest := ih fun c hc => h c (mem_cons_of_mem _ hc)
    rw [Nat.ofDigitChars_cons, Nat.ofDigitChars_eq_ofDigitChars_zero, length_cons, Nat.pow_succ]
    simp only [Char.reduceToNat, Nat.mul_zero, Nat.zero_add]
    have hle : 10 ^ rest.length * (c.toNat - 48) ≤ 10 ^ rest.length * 9 := Nat.mul_le_mul_left _ (by omega)
    omega

theorem ofDigitChars_cut (h : Digits fraction) :
    Nat.ofDigitChars 10 (cut n fraction) 0 = Nat.ofDigitChars 10 fraction 0 * 10 ^ n / 10 ^ fraction.length := by
  by_cases hlen : fraction.length ≤ n
  · have hcut : cut n fraction = fraction ++ List.replicate (n - fraction.length) '0' :=
      take_of_length_le (by simp [padEnd]; omega)
    rw [hcut, Nat.ofDigitChars_append, Nat.ofDigitChars_replicate_zero]
    refine (Nat.div_eq_of_eq_mul_left (Nat.pow_pos (by decide)) ?_).symm
    rw [Nat.mul_right_comm, ← Nat.pow_add, Nat.sub_add_cancel hlen, Nat.mul_comm]
  · have hcut : cut n fraction = fraction.take n := by
      rw [cut, padEnd, Nat.sub_eq_zero_of_le (by omega), replicate_zero, append_nil]
    have hsplit : Nat.ofDigitChars 10 fraction 0 =
        10 ^ (fraction.length - n) * Nat.ofDigitChars 10 (fraction.take n) 0 +
          Nat.ofDigitChars 10 (fraction.drop n) 0 := by
      conv_lhs => rw [← take_append_drop n fraction]
      rw [ofDigitChars_append_zero, length_drop]
    have hdrop : Nat.ofDigitChars 10 (fraction.drop n) 0 < 10 ^ (fraction.length - n) := by
      have hdigits : Digits (fraction.drop n) := fun c hc => h c (mem_of_mem_drop hc)
      rw [← length_drop]
      exact ofDigitChars_lt hdigits
    have hpow : 10 ^ fraction.length = 10 ^ (fraction.length - n) * 10 ^ n := by
      rw [← Nat.pow_add, Nat.sub_add_cancel (by omega)]
    rw [hcut, hpow, Nat.mul_div_mul_right _ _ (Nat.pow_pos (by decide)), hsplit,
      Nat.mul_add_div (Nat.pow_pos (by decide)),
      Nat.div_eq_of_lt hdrop, Nat.add_zero]

theorem Decimal.fraction_getD (d : Decimal) : Digits (d.fraction.getD []) := by
  cases hf : d.fraction with
  | none => exact fun c hc => nomatch hc
  | some fraction => exact d.fraction_digits fraction (by simp [hf])

theorem Decimal.micros_eq (d : Decimal) : d.micros =
    Nat.ofDigitChars 10 d.whole 0 * 10 ^ 6 + Nat.ofDigitChars 10 (cut 6 (d.fraction.getD [])) 0 := by
  rw [Decimal.micros, Decimal.units, Decimal.scale, ofDigitChars_cut d.fraction_getD, ofDigitChars_append_zero,
    Nat.add_mul, Nat.mul_assoc, Nat.mul_add_div (Nat.pow_pos (by decide))]

/-- A number of `n`-digit fractions, with all `n` digits written out. -/
def Decimal.fixed (n value : Nat) : Decimal where
  whole := Nat.toDigits 10 (value / 10 ^ n)
  fraction := some (padStart n '0' (Nat.toDigits 10 (value % 10 ^ n)))
  whole_ne_nil := Nat.toDigits_ne_nil
  whole_digits := digits_toDigits
  fraction_digits text h := by
    cases h
    exact (Digits.zeros _).append digits_toDigits

theorem length_padStart (hm : m < 10 ^ n) (hn : 0 < n) : (padStart n '0' (Nat.toDigits 10 m)).length = n := by
  have hlen := (Nat.length_toDigits_le_iff (b := 10) (n := m) (by decide) hn).mpr hm
  rw [padStart, length_append, length_replicate]
  omega

theorem ofDigitChars_padStart (n m : Nat) : Nat.ofDigitChars 10 (padStart n '0' (Nat.toDigits 10 m)) 0 = m := by
  rw [padStart, Nat.ofDigitChars_append, Nat.ofDigitChars_replicate_zero, Nat.mul_zero, Nat.ofDigitChars_ten_toDigits]

theorem Decimal.scale_fixed (hn : 0 < n) (value : Nat) : (Decimal.fixed n value).scale = n :=
  length_padStart (Nat.mod_lt _ (Nat.pow_pos (by decide))) hn

theorem Decimal.units_fixed (hn : 0 < n) (value : Nat) : (Decimal.fixed n value).units = value := by
  have hlen : (padStart n '0' (Nat.toDigits 10 (value % 10 ^ n))).length = n := scale_fixed hn value
  rw [Decimal.units, Decimal.fixed, getD_some, ofDigitChars_append_zero, ofDigitChars_padStart, hlen,
    Nat.ofDigitChars_ten_toDigits, Nat.div_add_mod]

theorem Decimal.micros_fixed (hn : 0 < n) (hsix : n ≤ 6) (value : Nat) :
    (Decimal.fixed n value).micros = value * 10 ^ (6 - n) := by
  have hsplit : 10 ^ 6 = 10 ^ (6 - n) * 10 ^ n := by rw [← Nat.pow_add, Nat.sub_add_cancel hsix]
  rw [Decimal.micros, scale_fixed hn, units_fixed hn, hsplit, ← Nat.mul_assoc,
    Nat.mul_div_cancel _ (Nat.pow_pos (by decide))]

/-- Whole cents, as the database prints them. -/
def Decimal.ofCents (cents : Nat) : Decimal := .fixed 2 cents

theorem bigIntText_natCast (n : Nat) : bigIntText n = Nat.toDigits 10 n := by
  rw [bigIntText, if_neg (by omega), Int.natAbs_natCast]

theorem Decimal.text_ofCents (cents : Nat) : (Decimal.ofCents cents).text = fromCents cents := by
  have hdiv : (cents : Int).tdiv 100 = (cents / 100 : Nat) := rfl
  have hmod : (cents : Int).tmod 100 = (cents % 100 : Nat) := rfl
  rw [fromCents, hdiv, hmod, bigIntText_natCast, bigIntText_natCast]
  rfl

theorem Decimal.micros_ofCents (cents : Nat) : (Decimal.ofCents cents).micros = cents * 10 ^ 4 :=
  micros_fixed (by decide) (by decide) cents

/-- Whole millionths, as the code prints them. -/
def Decimal.ofMicros (micros : Nat) : Decimal := .fixed 6 micros

theorem Decimal.text_ofMicros (micros : Nat) : (Decimal.ofMicros micros).text = fromEurcMicros micros := by
  rw [fromEurcMicros, if_neg (by omega), Int.natAbs_natCast]
  rfl

theorem Decimal.bigInt_fraction (d : Decimal) (hn : 0 < n) :
    bigInt ((padEnd n '0' (d.fraction.getD (List.replicate n '0'))).take n) =
      some (Nat.ofDigitChars 10 (cut n (d.fraction.getD [])) 0 : Int) := by
  have hcut : (padEnd n '0' (d.fraction.getD (List.replicate n '0'))).take n = cut n (d.fraction.getD []) := by
    cases d.fraction <;> simp [cut, padEnd]
  rw [hcut]
  exact bigInt_digits (cut_ne_nil hn _) (cut_digits d.fraction_getD)

theorem toEurcMicros_eq (d : Decimal) (hsplit : splitAmount value = (euros, d.fraction))
    (heuros : bigInt euros = some e) :
    toEurcMicros value = some (e * 1000000 + Nat.ofDigitChars 10 (cut 6 (d.fraction.getD [])) 0) := by
  have hfraction : bigInt ((padEnd 6 '0' (d.fraction.getD "000000".toList)).take 6) = _ :=
    d.bigInt_fraction (by decide)
  simp only [toEurcMicros, hsplit, heuros, hfraction]
  rfl

theorem toEurcMicros_text (d : Decimal) : toEurcMicros d.text = some (d.micros : Int) := by
  rw [toEurcMicros_eq d d.splitAmount_text (bigInt_digits d.whole_ne_nil d.whole_digits), d.micros_eq]
  rfl

/-- An amount of at most two decimals is a number of whole cents. -/
theorem toCents_text (d : Decimal) (h : (d.fraction.getD []).length ≤ 2) :
    ∃ cents : Nat, toCents d.text = some (cents : Int) ∧ d.micros = 10000 * cents := by
  have hfraction : bigInt ((padEnd 2 '0' (d.fraction.getD "00".toList)).take 2) = _ :=
    d.bigInt_fraction (by decide)
  have hcut : cut 6 (d.fraction.getD []) = cut 2 (d.fraction.getD []) ++ List.replicate 4 '0' := by
    rw [cut, cut, take_of_length_le (by simp [padEnd]; omega), take_of_length_le (by simp [padEnd]; omega), padEnd,
      padEnd, append_assoc, replicate_append_replicate]
    congr 2
    omega
  refine ⟨Nat.ofDigitChars 10 d.whole 0 * 100 + Nat.ofDigitChars 10 (cut 2 (d.fraction.getD [])) 0, ?_, ?_⟩
  · simp only [toCents, d.splitAmount_text, bigInt_digits d.whole_ne_nil d.whole_digits, hfraction]
    rfl
  · rw [d.micros_eq, hcut, Nat.ofDigitChars_append, Nat.ofDigitChars_replicate_zero]
    omega

theorem bigInt_minus (hne : text ≠ []) (h : Digits text) :
    bigInt ('-' :: text) = some (-(Nat.ofDigitChars 10 text 0 : Int)) := by
  have htrim : trim Char.toNat ('-' :: text) = '-' :: text :=
    trim_eq (forall_mem_cons.mpr ⟨by decide, fun c hc => not_isWhiteSpace_of_isDigit (h c hc)⟩)
  simp [bigInt, htrim, readDigits_digits hne h]

/-- The sign of a text is read as the sign of its whole part. -/
theorem toEurcMicros_fromEurcMicros (m : Int) : toEurcMicros (fromEurcMicros m) = some m ↔ 0 ≤ m ∨ 1000000 ∣ m := by
  have hmicros : ∀ n, (Decimal.ofMicros n).micros = n := fun n =>
    (Decimal.micros_fixed (by decide) (by decide) n).trans (Nat.mul_one n)
  cases m with
  | ofNat =>
    rw [Int.ofNat_eq_natCast, ← Decimal.text_ofMicros, toEurcMicros_text, hmicros]
    simp
  | negSucc n =>
    let d := Decimal.ofMicros (n + 1)
    have hpoint : '.' ∉ '-' :: d.whole := by simpa using d.whole_digits.ne_point
    have hsplit : splitAmount (fromEurcMicros (Int.negSucc n)) = ('-' :: d.whole, d.fraction) := by
      rw [fromEurcMicros, if_pos (Int.negSucc_lt_zero n)]
      exact splitAmount_point hpoint d.fraction_getD
    have hwhole : Nat.ofDigitChars 10 d.whole 0 = (n + 1) / 1000000 := Nat.ofDigitChars_ten_toDigits
    have hunits := d.micros_eq
    rw [hmicros, hwhole] at hunits
    rw [toEurcMicros_eq d hsplit (bigInt_minus d.whole_ne_nil d.whole_digits), hwhole, some.injEq]
    omega

theorem toCents_fromCents (cents : Nat) : toCents (fromCents cents) = some (cents : Int) := by
  obtain ⟨n, hn, hmicros⟩ := toCents_text (.ofCents cents) (Nat.le_of_eq (Decimal.scale_fixed (by decide) cents))
  rw [Decimal.micros_ofCents] at hmicros
  rw [← Decimal.text_ofCents, hn, show n = cents by omega]

theorem subtractCurrencyFloorZero_cents {x y : Nat} (hx : toCents a = some (x : Int))
    (hy : toCents b = some (y : Int)) :
    subtractCurrencyFloorZero a b = some (fromCents (x - y : Nat)) := by
  rw [subtractCurrencyFloorZero, hx, hy]
  refine congrArg (fun cents => some (fromCents cents)) ?_
  split <;> omega

/-- Amounts survive the way to text and back, unless they are negative and not
whole; cents and millionths agree; and a difference of cents is exact. -/
theorem money_text_round_trips (m : Int) :
    (toEurcMicros (fromEurcMicros m) = some m ↔ 0 ≤ m ∨ 1000000 ∣ m) ∧
    (∀ c : Nat, toCents (fromCents c) = some (c : Int)) ∧
    (∀ d : Decimal, (d.fraction.getD []).length ≤ 2 →
      ∃ cents, toCents d.text = some cents ∧ toEurcMicros d.text = some (10000 * cents)) ∧
    ∀ a b : Decimal, (a.fraction.getD []).length ≤ 2 → (b.fraction.getD []).length ≤ 2 →
      ∃ d : Decimal, subtractCurrencyFloorZero a.text b.text = some d.text ∧
        (d.fraction.getD []).length ≤ 2 ∧ d.micros = a.micros - b.micros := by
  refine ⟨toEurcMicros_fromEurcMicros m, toCents_fromCents, fun d hd => ?_, fun a b ha hb => ?_⟩
  · obtain ⟨cents, hcents, hmicros⟩ := toCents_text d hd
    exact ⟨cents, hcents, by rw [toEurcMicros_text, hmicros]; rfl⟩
  · obtain ⟨x, hx, hxmicros⟩ := toCents_text a ha
    obtain ⟨y, hy, hymicros⟩ := toCents_text b hb
    refine ⟨.ofCents (x - y), ?_, Nat.le_of_eq (Decimal.scale_fixed (by decide) _), ?_⟩
    · rw [Decimal.text_ofCents]
      exact subtractCurrencyFloorZero_cents hx hy
    · rw [Decimal.micros_ofCents]
      omega

theorem money_text_round_trips_sample :
    toEurcMicros (fromEurcMicros (-2000000)) = some (-2000000) ∧ ∃ d : Decimal,
      subtractCurrencyFloorZero (fromCents 1050) (fromCents 75) = some d.text ∧ d.micros = 9750000 := by
  obtain ⟨hread, -, -, hsubtract⟩ := money_text_round_trips (-2000000)
  refine ⟨hread.mpr (.inr (by decide)), ?_⟩
  obtain ⟨d, htext, -, hmicros⟩ := hsubtract (.ofCents 1050) (.ofCents 75) (by decide +kernel) (by decide +kernel)
  rw [Decimal.text_ofCents, Decimal.text_ofCents] at htext
  rw [Decimal.micros_ofCents, Decimal.micros_ofCents] at hmicros
  exact ⟨d, htext, hmicros⟩

/-- A millionth below zero is written as -0.000001 and read as a millionth. -/
theorem negative_fraction_misread : fromEurcMicros (-1) = "-0.000001".toList ∧
    toEurcMicros (fromEurcMicros (-1)) = some 1 := by
  decide +kernel

end Currency
