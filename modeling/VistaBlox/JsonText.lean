import Mathlib.Data.List.DropRight
import Mathlib.Data.List.Forall2
import Mathlib.Data.List.Sort
import Mathlib.Data.List.TakeWhile

/-!
# JSON values and their texts

JSON values as a JavaScript program holds them, what `JSON.stringify` makes of a scalar, and
when a text can be told from what follows it. A string is its UTF-16 code units; how a
finite number is written is left open.
-/
namespace JsonText

open List Option

/-- UTF-16 code units. -/
abbrev Text := List Nat

/-- The text of some characters of the basic plane. -/
def units (cs : List Char) : Text := cs.map Char.toNat

/-- White space and line ends. -/
def isWhiteSpace (c : Nat) : Bool :=
  c ∈ [0x9, 0xA, 0xB, 0xC, 0xD, 0x20, 0xA0, 0x1680, 0x2028, 0x2029, 0x202F, 0x205F, 0x3000, 0xFEFF] ∨
    (0x2000 ≤ c ∧ c ≤ 0x200A)

/-- `trim` of a string, given the code unit of each of its items. -/
def trim (unit : α → Nat) (text : List α) : List α :=
  (text.dropWhile (isWhiteSpace ∘ unit)).rdropWhile (isWhiteSpace ∘ unit)

theorem trim_eq (h : ∀ c ∈ text, isWhiteSpace (unit c) = false) : trim unit text = text := by
  have hleft : text.dropWhile (isWhiteSpace ∘ unit) = text :=
    dropWhile_eq_self_iff.mpr fun hl => by simp [h _ (getElem_mem hl)]
  rw [trim, hleft, rdropWhile_eq_self_iff]
  exact fun hne => by simp [h _ (getLast_mem hne)]

/-- A number as `JSON.parse` returns it: `1e999` is read as an infinity. Zero
has one sign here, as it has in its text and under `===`. -/
inductive Number (N : Type) where
  | finite (n : N)
  | infinite (negative : Bool)
  deriving DecidableEq

inductive Scalar (N : Type) where
  | null
  | bool (b : Bool)
  | number (n : Number N)
  | string (s : Text)
  deriving DecidableEq

/-- The fields of an object stand in the order in which they were read. -/
inductive Json (N : Type) where
  | scalar (s : Scalar N)
  | array (items : List (Json N))
  | object (fields : List (Text × Json N))

/-- Equal as values: the order of the fields of an object does not count. -/
inductive Same {N : Type} : Json N → Json N → Prop where
  | scalar (s : Scalar N) : Same (.scalar s) (.scalar s)
  | array {items items' : List (Json N)} (h : List.Forall₂ Same items items') : Same (.array items) (.array items')
  | object {fields fields' ordered ordered' : List (Text × Json N)} (h : ordered.Perm fields)
      (h' : ordered'.Perm fields') (hkeys : ordered.map Prod.fst = ordered'.map Prod.fst)
      (hvalues : List.Forall₂ Same (ordered.map Prod.snd) (ordered'.map Prod.snd)) :
      Same (.object fields) (.object fields')

@[elab_as_elim]
theorem Json.induct {N : Type} {P : Json N → Prop} (scalar : ∀ s, P (.scalar s))
    (array : ∀ items, (∀ v ∈ items, P v) → P (.array items))
    (object : ∀ fields, (∀ f ∈ fields, P f.2) → P (.object fields)) (v : Json N) : P v := by
  refine @Json.rec N P (fun items => ∀ v ∈ items, P v) (fun fields => ∀ f ∈ fields, P f.2) (fun f => P f.2)
    scalar array object ?_ ?_ ?_ ?_ ?_ v
  · simp
  · exact fun v items hv hitems => forall_mem_cons.mpr ⟨hv, hitems⟩
  · simp
  · exact fun f fields hf hfields => forall_mem_cons.mpr ⟨hf, hfields⟩
  · exact fun _ _ hv => hv

def isLead (c : Nat) : Bool := 0xD800 ≤ c ∧ c ≤ 0xDBFF

def isTrail (c : Nat) : Bool := 0xDC00 ≤ c ∧ c ≤ 0xDFFF

def hex (d : Nat) : Nat := if d < 10 then 48 + d else 87 + d

/-- A code unit that does not belong to a surrogate pair, as it stands in a quoted string. -/
def escape (c : Nat) : Text :=
  if c = 34 then [92, 34]
  else if c = 92 then [92, 92]
  else if c = 8 then [92, 98]
  else if c = 12 then [92, 102]
  else if c = 10 then [92, 110]
  else if c = 13 then [92, 114]
  else if c = 9 then [92, 116]
  else if c < 32 ∨ isLead c ∨ isTrail c then
    [92, 117, hex (c / 4096), hex (c / 256 % 16), hex (c / 16 % 16), hex (c % 16)]
  else [c]

def escapeAll : Text → Text
  | [] => []
  | [c] => escape c
  | c :: d :: rest => if isLead c ∧ isTrail d then c :: d :: escapeAll rest else escape c ++ escapeAll (d :: rest)

/-- `JSON.stringify` of a string. -/
def quote (s : Text) : Text := 34 :: escapeAll s ++ [34]

def unhex (c : Nat) : Nat := if c < 58 then c - 48 else c - 87

def unescapeShort (k : Nat) : Nat :=
  if k = 98 then 8 else if k = 102 then 12 else if k = 110 then 10 else if k = 114 then 13
  else if k = 116 then 9 else k

/-- Read one code unit of a quoted string. -/
def unescape : Text → Option (Nat × Text)
  | [] => none
  | c :: t => if c ≠ 92 then some (c, t) else match t with
    | 117 :: x₃ :: x₂ :: x₁ :: x₀ :: t => some (unhex x₃ * 4096 + unhex x₂ * 256 + unhex x₁ * 16 + unhex x₀, t)
    | k :: t => some (unescapeShort k, t)
    | [] => none

/-- Read a quoted string of fewer than `n` code units up to its closing quote. -/
def readString : Nat → Text → Option (Text × Text)
  | 0, _ => none
  | n + 1, t => if t.head? = some 34 then some ([], t.tail) else
    (unescape t).bind fun one => (readString n one.2).map fun more => (one.1 :: more.1, more.2)

theorem unhex_hex (h : d < 16) : unhex (hex d) = d := by
  unfold unhex hex
  split <;> split <;> omega

theorem unescape_escape (c : Nat) (t : Text) : unescape (escape c ++ t) = some (c, t) := by
  unfold escape
  split_ifs with hq hb _ _ _ _ _ hu
  · simp [unescape, unescapeShort, hq]
  · simp [unescape, unescapeShort, hb]
  · simp_all [unescape, unescapeShort]
  · simp_all [unescape, unescapeShort]
  · simp_all [unescape, unescapeShort]
  · simp_all [unescape, unescapeShort]
  · simp_all [unescape, unescapeShort]
  · have hc : c < 65536 := by
      simp only [isLead, isTrail, decide_eq_true_eq] at hu
      omega
    simp only [unescape, cons_append, nil_append, ne_eq, not_true_eq_false, if_false]
    rw [unhex_hex (by omega), unhex_hex (by omega), unhex_hex (by omega), unhex_hex (by omega)]
    simp only [some.injEq, Prod.mk.injEq, and_true]
    omega
  · simp [unescape, hb]

theorem escape_head : (escape c ++ t).head? ≠ some 34 := by
  unfold escape
  split_ifs <;> simp_all

theorem readString_escape (n : Nat) (c : Nat) (t : Text) :
    readString (n + 1) (escape c ++ t) = (readString n t).map fun more => (c :: more.1, more.2) := by
  rw [readString, if_neg escape_head, unescape_escape, bind_some]

/-- A code unit that stands for itself. -/
theorem readString_cons (hq : c ≠ 34) (hb : c ≠ 92) (n : Nat) (t : Text) :
    readString (n + 1) (c :: t) = (readString n t).map fun more => (c :: more.1, more.2) := by
  simp [readString, unescape, hq, hb]

theorem readString_escapeAll (t : Text) : ∀ (s : Text) (n : Nat), s.length < n →
    readString n (escapeAll s ++ 34 :: t) = some (s, t) := by
  intro s
  fun_induction escapeAll s with
  | case1 =>
    intro n hn
    obtain ⟨n, rfl⟩ := Nat.exists_eq_succ_of_ne_zero (Nat.ne_zero_of_lt hn)
    rfl
  | case2 c =>
    intro n hn
    obtain ⟨n, rfl⟩ := Nat.exists_eq_add_of_lt hn
    rw [show [c].length + n + 1 = n + 1 + 1 by simp; omega, readString_escape]
    rfl
  | case3 c d rest hpair ih =>
    intro n hn
    simp only [length_cons] at hn
    obtain ⟨n, rfl⟩ : ∃ m, n = m + 1 + 1 := ⟨n - 2, by omega⟩
    simp only [isLead, isTrail, decide_eq_true_eq] at hpair
    rw [cons_append, cons_append, readString_cons (by omega) (by omega),
      readString_cons (by omega) (by omega), ih n (by omega)]
    rfl
  | case4 c d rest hpair ih =>
    intro n hn
    simp only [length_cons] at hn
    obtain ⟨n, rfl⟩ : ∃ m, n = m + 1 := ⟨n - 1, by omega⟩
    rw [append_assoc, readString_escape, ih n (by simp only [length_cons]; omega)]
    rfl

/-- A quoted string ends where its text ends. -/
theorem quote_cancel (h : quote s ++ t = quote s' ++ t') : s = s' ∧ t = t' := by
  simp only [quote, cons_append, append_assoc, cons.injEq, true_and, nil_append] at h
  have hs := readString_escapeAll t s (s.length + s'.length + 1) (by omega)
  rw [h, readString_escapeAll t' s' _ (by omega)] at hs
  simpa [eq_comm] using hs

section Scalars

variable {N : Type}

/-- The code units of which the text of a finite number is made. -/
def numberUnits : List Nat := units ['0', '1', '2', '3', '4', '5', '6', '7', '8', '9', '+', '-', '.', 'e']

/-- How finite numbers are written. -/
structure NumberText (N : Type) where
  write : N → Text
  nonempty : ∀ n, write n ≠ []
  made : ∀ n, ∀ c ∈ write n, c ∈ numberUnits
  injective : Function.Injective write

/-- `JSON.stringify` of a scalar. -/
def Scalar.stringify (numbers : NumberText N) : Scalar N → Text
  | .null => units ['n', 'u', 'l', 'l']
  | .bool true => units ['t', 'r', 'u', 'e']
  | .bool false => units ['f', 'a', 'l', 's', 'e']
  | .number (.finite n) => numbers.write n
  | .number (.infinite _) => units ['n', 'u', 'l', 'l']
  | .string s => quote s

def Scalar.isFinite : Scalar N → Bool
  | .number (.infinite _) => false
  | _ => true

/-- No number of the value is infinite. -/
inductive Json.Finite : Json N → Prop where
  | scalar {s : Scalar N} (h : s.isFinite = true) : Finite (.scalar s)
  | array {items : List (Json N)} (h : ∀ v ∈ items, Finite v) : Finite (.array items)
  | object {fields : List (Text × Json N)} (h : ∀ f ∈ fields, Finite f.2) : Finite (.object fields)

/-- What can follow a value inside an array or an object, and the end of the text. -/
def Ends (rest : Text) : Prop := ∀ c ∈ rest.head?, c = 44 ∨ c = 93 ∨ c = 125

theorem ends_comma : Ends (44 :: t) := by simp [Ends]

theorem ends_close (hc : c = 93 ∨ c = 125) : Ends (c :: t) := by
  simp [Ends, hc]

theorem write_cancel (numbers : NumberText N) (hrest : Ends rest) (hrest' : Ends rest')
    (h : numbers.write n ++ rest = numbers.write n' ++ rest') : n = n' ∧ rest = rest' := by
  have hspan : ∀ (n : N) (rest : Text), Ends rest →
      (numbers.write n ++ rest).takeWhile (fun c => decide (c ∈ numberUnits)) = numbers.write n := by
    intro n rest hends
    rw [takeWhile_append_of_pos fun c hc => decide_eq_true (numbers.made n c hc)]
    cases rest with
    | nil => simp
    | cons c =>
      have hc : c ∉ numberUnits := by
        obtain rfl | rfl | rfl := hends c rfl <;> decide
      simp [hc]
  have hwrite := hspan n rest hrest
  rw [h, hspan n' rest' hrest'] at hwrite
  rw [hwrite] at h
  exact ⟨(numbers.injective hwrite).symm, append_cancel_left h⟩

/-- The first code unit of the text of a scalar. -/
def Scalar.starts : Scalar N → List Nat
  | .null => [110]
  | .bool true => [116]
  | .bool false => [102]
  | .number (.finite _) => numberUnits
  | .number (.infinite _) => [110]
  | .string _ => [34]

theorem Scalar.stringify_head (numbers : NumberText N) (s : Scalar N) :
    ∃ c t, s.stringify numbers = c :: t ∧ c ∈ s.starts := by
  match s with
  | .null => exact ⟨_, _, rfl, mem_singleton_self _⟩
  | .bool true => exact ⟨_, _, rfl, mem_singleton_self _⟩
  | .bool false => exact ⟨_, _, rfl, mem_singleton_self _⟩
  | .number (.infinite _) => exact ⟨_, _, rfl, mem_singleton_self _⟩
  | .string s => exact ⟨_, _, rfl, mem_singleton_self _⟩
  | .number (.finite n) =>
    obtain ⟨c, t, ht⟩ := exists_cons_of_ne_nil (numbers.nonempty n)
    exact ⟨c, t, ht, numbers.made n c (by rw [ht]; exact mem_cons_self ..)⟩

/-- A text that starts two scalars starts two of a kind. -/
theorem Scalar.starts_kind {s s' : Scalar N} {c : Nat} (hc : c ∈ s.starts) (hc' : c ∈ s'.starts) :
    s.starts = s'.starts := by
  rcases s with _ | (_ | _) | (_ | _) | _ <;> rcases s' with _ | (_ | _) | (_ | _) | _ <;>
    simp_all [Scalar.starts, numberUnits, units]

/-- No scalar starts with a bracket or a brace, nor as `undefined` does. -/
theorem Scalar.starts_ne {s : Scalar N} {c : Nat} (hc : c ∈ s.starts) :
    ¬ (c = 91 ∨ c = 93 ∨ c = 123 ∨ c = 125 ∨ c = 117) := by
  rcases s with _ | (_ | _) | (_ | _) | _ <;>
    simp only [Scalar.starts, numberUnits, units, map_cons, map_nil, mem_cons, not_mem_nil, or_false,
      Char.reduceToNat] at hc <;> omega

theorem Scalar.stringify_ne_cons (numbers : NumberText N) (s : Scalar N) {c : Nat}
    (hc : c = 91 ∨ c = 93 ∨ c = 123 ∨ c = 125 ∨ c = 117) (t t' : Text) : s.stringify numbers ++ t ≠ c :: t' := by
  obtain ⟨d, u, hu, hd⟩ := s.stringify_head numbers
  rw [hu, cons_append]
  intro h
  exact Scalar.starts_ne hd ((cons.inj h).1 ▸ hc)

theorem Scalar.stringify_cancel (numbers : NumberText N) {s s' : Scalar N} {rest rest' : Text}
    (hs : s.isFinite = true) (hs' : s'.isFinite = true) (hrest : Ends rest) (hrest' : Ends rest')
    (h : s.stringify numbers ++ rest = s'.stringify numbers ++ rest') : s = s' ∧ rest = rest' := by
  have hkind : s.starts = s'.starts := by
    obtain ⟨c, t, ht, hc⟩ := s.stringify_head numbers
    obtain ⟨c', t', ht', hc'⟩ := s'.stringify_head numbers
    rw [ht, ht', cons_append, cons_append, cons.injEq] at h
    exact Scalar.starts_kind hc (h.1 ▸ hc')
  match s, s', hs, hs' with
  | .null, .null, _, _ => exact ⟨rfl, append_cancel_left h⟩
  | .bool true, .bool true, _, _ => exact ⟨rfl, append_cancel_left h⟩
  | .bool false, .bool false, _, _ => exact ⟨rfl, append_cancel_left h⟩
  | .number (.finite n), .number (.finite n'), _, _ =>
    obtain ⟨rfl, htail⟩ := write_cancel numbers hrest hrest' h
    exact ⟨rfl, htail⟩
  | .string t, .string t', _, _ =>
    obtain ⟨rfl, htail⟩ := quote_cancel h
    exact ⟨rfl, htail⟩

end Scalars

section Lists

variable {α : Type} {P : α → Prop} {f : α → Text} {R : α → α → Prop}

def joinTail : List Text → Text
  | [] => []
  | t :: ts => 44 :: t ++ joinTail ts

/-- `ts.join(",")` -/
def join : List Text → Text
  | [] => []
  | t :: ts => t ++ joinTail ts

/-- Whatever starts with the text of `x` does not start with the text of anything else. -/
def Reads (P : α → Prop) (f : α → Text) (R : α → α → Prop) (x : α) : Prop :=
  ∀ y, P y → ∀ rest rest', Ends rest → Ends rest' → f x ++ rest = f y ++ rest' → R x y ∧ rest = rest'

theorem ends_joinTail (hc : c = 93 ∨ c = 125) : Ends (joinTail ts ++ c :: rest) := by
  cases ts with
  | nil => exact ends_close hc
  | cons => exact ends_comma

theorem joinTail_cancel (hc : c = 93 ∨ c = 125) (hxs : ∀ x ∈ xs, Reads P f R x) :
    ∀ ys, (∀ y ∈ ys, P y) → ∀ rest rest', joinTail (xs.map f) ++ c :: rest = joinTail (ys.map f) ++ c :: rest' →
      List.Forall₂ R xs ys ∧ rest = rest' := by
  have hcomma : c ≠ 44 := by omega
  induction xs with
  | nil =>
    intro ys _ rest rest' h
    cases ys with
    | nil => exact ⟨.nil, (cons.inj h).2⟩
    | cons => exact absurd (cons.inj h).1 hcomma
  | cons x xs ih =>
    intro ys hys rest rest' h
    cases ys with
    | nil => exact absurd (cons.inj h).1.symm hcomma
    | cons y ys =>
      obtain ⟨hx, hrest⟩ := forall_mem_cons.mp hxs
      obtain ⟨hy, hyrest⟩ := forall_mem_cons.mp hys
      simp only [map_cons, joinTail, cons_append, append_assoc, cons.injEq, true_and] at h
      obtain ⟨hhead, htail⟩ := hx y hy _ _ (ends_joinTail hc) (ends_joinTail hc) h
      obtain ⟨hsame, hend⟩ := ih hrest ys hyrest rest rest' htail
      exact ⟨.cons hhead hsame, hend⟩

/-- The texts of a list, between its brackets, say where it ends and what its elements are. -/
theorem join_cancel (hc : c = 93 ∨ c = 125) (hstart : ∀ y, ∀ t t', f y ++ t ≠ c :: t')
    (hxs : ∀ x ∈ xs, Reads P f R x) (hys : ∀ y ∈ ys, P y)
    (h : join (xs.map f) ++ c :: rest = join (ys.map f) ++ c :: rest') : List.Forall₂ R xs ys ∧ rest = rest' := by
  cases xs with
  | nil =>
    cases ys with
    | nil => exact ⟨.nil, (cons.inj h).2⟩
    | cons y =>
      simp only [map_cons, join, append_assoc] at h
      exact absurd h.symm (hstart y _ _)
  | cons x =>
    cases ys with
    | nil =>
      simp only [map_cons, join, append_assoc] at h
      exact absurd h (hstart x _ _)
    | cons y ys =>
      obtain ⟨hx, hrest⟩ := forall_mem_cons.mp hxs
      obtain ⟨hy, hyrest⟩ := forall_mem_cons.mp hys
      simp only [map_cons, join, append_assoc] at h
      obtain ⟨hhead, htail⟩ := hx y hy _ _ (ends_joinTail hc) (ends_joinTail hc) h
      obtain ⟨hsame, hend⟩ := joinTail_cancel hc hrest ys hyrest rest rest' htail
      exact ⟨.cons hhead hsame, hend⟩

end Lists

end JsonText
