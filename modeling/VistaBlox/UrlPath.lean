import VistaBlox.JsonText

/-!
# The path of a URL

How the URL standard resolves a reference against an `http` or `https` origin: what it
removes, when the reference names a host, and the path state. A reference is a string of
UTF-16 code units; scheme and host of an absolute one are parsed elsewhere.
-/
namespace UrlPath

open List

open JsonText (Text isLead isTrail units)

/-- The scalar values of a string; a surrogate without its partner becomes U+FFFD. -/
def scalarValues : Text → List Nat
  | [] => []
  | [c] => [if isLead c ∨ isTrail c then 0xFFFD else c]
  | c :: d :: rest =>
    if isLead c ∧ isTrail d then (0x10000 + (c - 0xD800) * 1024 + (d - 0xDC00)) :: scalarValues rest
    else (if isLead c ∨ isTrail c then 0xFFFD else c) :: scalarValues (d :: rest)

def utf8 (c : Nat) : List Nat :=
  if c < 0x80 then [c]
  else if c < 0x800 then [0xC0 + c / 64, 0x80 + c % 64]
  else if c < 0x10000 then [0xE0 + c / 4096, 0x80 + c / 64 % 64, 0x80 + c % 64]
  else [0xF0 + c / 262144, 0x80 + c / 4096 % 64, 0x80 + c / 64 % 64, 0x80 + c % 64]

/-- The path percent-encode set. -/
def pathSet (c : Nat) : Bool := c < 0x21 ∨ 0x7E < c ∨ c ∈ [34, 35, 60, 62, 63, 94, 96, 123, 125]

def hexDigit (d : Nat) : Nat := if d < 10 then 48 + d else 55 + d

def percentEncode (c : Nat) : Text :=
  if pathSet c then (utf8 c).flatMap fun b => [37, hexDigit (b / 16), hexDigit (b % 16)] else [c]

/-- ASCII lower case. -/
def lower (c : Nat) : Nat := if 65 ≤ c ∧ c ≤ 90 then c + 32 else c

def text (s : String) : Text := units s.toList

def isSingleDot (s : Text) : Bool := ([".", "%2e"].map text).contains (s.map lower)

def isDoubleDot (s : Text) : Bool := (["..", ".%2e", "%2e.", "%2e%2e"].map text).contains (s.map lower)

/-- The end of a segment, at a slash or at the end of the path. -/
def finish (path : List Text) (segment : Text) (slash : Bool) : List Text :=
  if isDoubleDot segment then path.dropLast ++ if slash then [] else [[]]
  else if isSingleDot segment then path ++ if slash then [] else [[]]
  else path ++ [segment]

def pathState (path : List Text) (buffer : Text) : List Nat → List Text
  | [] => finish path buffer false
  | c :: rest =>
    if c = 47 ∨ c = 92 then pathState (finish path buffer true) [] rest
    else if c = 63 ∨ c = 35 then finish path buffer false
    else pathState path (buffer ++ percentEncode c) rest

structure Origin where
  https : Bool
  host : Text
  port : Option Nat

structure Url where
  origin : Origin
  path : List Text

def pathname (path : List Text) : Text := path.flatMap (47 :: ·)

/-- Controls and blanks go at the end, tabs and line ends everywhere. -/
def tidy (t : Text) : List Nat := ((scalarValues t).rdropWhile (· ≤ 32)).filter (· ∉ [9, 10, 13])

def isAlpha (c : Nat) : Bool := 97 ≤ lower c ∧ lower c ≤ 122

theorem isAlpha_iff : isAlpha c = true ↔ 65 ≤ c ∧ c ≤ 90 ∨ 97 ≤ c ∧ c ≤ 122 := by
  rw [isAlpha, decide_eq_true_eq, lower]
  split <;> omega

def hasScheme : List Nat → Bool
  | [] => false
  | c :: rest =>
    isAlpha c ∧ (rest.dropWhile fun c => isAlpha c ∨ (48 ≤ c ∧ c ≤ 57) ∨ c ∈ [43, 45, 46]).head? = some 58

def isSlash (c : Nat) : Bool := c = 47 ∨ c = 92

/-- `absolute` parses a reference that brings a scheme or a host. -/
def resolve (absolute : List Nat → Option Url) (origin : Origin) (reference : Text) : Option Url :=
  let t := tidy (reference.dropWhile (· ≤ 32))
  if hasScheme t then absolute t
  else match t with
    | [] => some ⟨origin, [[]]⟩
    | c :: rest =>
      if isSlash c then
        if rest.head?.any isSlash then absolute t else some ⟨origin, pathState [] [] rest⟩
      else if c = 63 ∨ c = 35 then some ⟨origin, [[]]⟩
      else some ⟨origin, pathState [] [] t⟩

/-- A character that stands for itself in a segment. -/
def Kept (c : Nat) : Prop := pathSet c = false ∧ isSlash c = false

/-- A segment that the path state leaves as it is. -/
structure Literal (s : Text) : Prop where
  kept : ∀ c ∈ s, Kept c
  single : isSingleDot s = false
  double : isDoubleDot s = false

/-- The end of the input, a query or a fragment. -/
def Ending (rest : List Nat) : Prop := ∀ c ∈ rest.head?, c = 63 ∨ c = 35

theorem pathState_append (h : ∀ c ∈ s, Kept c) (path : List Text) (buffer : Text) (rest : List Nat) :
    pathState path buffer (s ++ rest) = pathState path (buffer ++ s) rest := by
  induction s generalizing buffer with
  | nil => simp
  | cons c s ih =>
    obtain ⟨hc, hs⟩ := forall_mem_cons.mp h
    have hslash : ¬ (c = 47 ∨ c = 92) := by simpa [isSlash] using hc.2
    have hend : ¬ (c = 63 ∨ c = 35) := by
      rintro (rfl | rfl) <;> simp [Kept, pathSet] at hc
    rw [cons_append, pathState, if_neg hslash, if_neg hend, ih hs]
    simp [percentEncode, hc.1]

theorem finish_literal (h : Literal s) (path : List Text) (slash : Bool) :
    finish path s slash = path ++ [s] := by
  simp [finish, h.single, h.double]

theorem pathState_ending (hrest : Ending rest) (path : List Text) (buffer : Text) :
    pathState path buffer rest = finish path buffer false := by
  cases rest with
  | nil => rfl
  | cons c => obtain rfl | rfl := hrest c rfl <;> simp [pathState]

theorem pathState_segments (hrest : Ending rest) (h : ∀ s ∈ segments, Literal s) (hs : Literal s) (path : List Text) :
    pathState path [] (s ++ (pathname segments ++ rest)) = path ++ s :: segments := by
  induction segments generalizing s path with
  | nil =>
    rw [pathState_append hs.kept, pathname, flatMap_nil, nil_append, nil_append,
      pathState_ending hrest, finish_literal hs]
  | cons r segments ih =>
    obtain ⟨hr, hsegments⟩ := forall_mem_cons.mp h
    have hslash : pathname (r :: segments) ++ rest = 47 :: (r ++ (pathname segments ++ rest)) := by simp [pathname]
    rw [pathState_append hs.kept, hslash, pathState, if_pos (.inl rfl), nil_append,
      ih hsegments hr, finish_literal hs]
    simp

theorem rdropWhile_cons (h : q c = false) (l : List Nat) :
    (c :: l).rdropWhile q = c :: l.rdropWhile q := by
  simp only [List.rdropWhile, reverse_cons, dropWhile_append]
  split <;> simp_all

/-- A printable character stays. -/
theorem tidy_cons (h : 32 < c ∧ c < 0xD800) (t : Text) : tidy (c :: t) = c :: tidy t := by
  have hplain : ¬ (isLead c = true ∨ isTrail c = true) := by
    simp only [isLead, isTrail, decide_eq_true_eq]
    omega
  have hvalues : scalarValues (c :: t) = c :: scalarValues t := by
    cases t with
    | nil => simp [scalarValues, hplain]
    | cons =>
      rw [scalarValues, if_neg (fun hpair => hplain (.inl hpair.1)), if_neg hplain]
  have hblank : decide (c ≤ 32) = false := by simpa using h.1
  have hline : decide (c ∉ [9, 10, 13]) = true := by simp; omega
  rw [tidy, hvalues, rdropWhile_cons hblank, filter_cons, if_pos hline]
  rfl

theorem tidy_append (h : ∀ c ∈ p, 32 < c ∧ c < 0xD800) (t : Text) : tidy (p ++ t) = p ++ tidy t := by
  induction p with
  | nil => rfl
  | cons c p ih =>
    rw [forall_mem_cons] at h
    rw [cons_append, tidy_cons h.1, ih h.2, cons_append]

theorem Ending.tidy (h : Ending t) : Ending (tidy t) := by
  cases t with
  | nil => simp [Ending, UrlPath.tidy, scalarValues]
  | cons c =>
    have hc := h c rfl
    rw [tidy_cons (by omega)]
    simpa [Ending] using hc

theorem Kept.printable (h : Kept c) : 32 < c ∧ c < 0xD800 := by
  simp only [Kept, pathSet, decide_eq_false_iff_not] at h
  omega

/-- A path of literal segments is resolved to itself, with or without a query after it. -/
theorem resolve_literal (h : ∀ s ∈ segments, Literal s) (hs : Literal s) (hne : s ≠ []) (hrest : Ending rest)
    (absolute : List Nat → Option Url) (origin : Origin) :
    resolve absolute origin (pathname (s :: segments) ++ rest) = some ⟨origin, s :: segments⟩ := by
  have hall : ∀ r ∈ s :: segments, Literal r := forall_mem_cons.mpr ⟨hs, h⟩
  have hprintable : ∀ c ∈ pathname (s :: segments), 32 < c ∧ c < 0xD800 := by
    intro c hc
    simp only [pathname, mem_flatMap, mem_cons] at hc
    obtain ⟨r, hr, rfl | hc⟩ := hc
    · omega
    · exact ((hall r (mem_cons.mpr hr)).kept c hc).printable
  have hpath : pathname (s :: segments) = 47 :: (s ++ pathname segments) := by simp [pathname]
  have hdrop : (pathname (s :: segments) ++ rest).dropWhile (· ≤ 32) = pathname (s :: segments) ++ rest := by
    simp [hpath]
  have hhead : ((s ++ pathname segments) ++ tidy rest).head?.any isSlash = false := by
    obtain ⟨c, t, rfl⟩ := exists_cons_of_ne_nil hne
    simpa using (hs.kept c (mem_cons_self ..)).2
  unfold resolve
  rw [hdrop, tidy_append hprintable, hpath, cons_append]
  simp only [hhead, isSlash, hasScheme, isAlpha, lower]
  rw [append_assoc, pathState_segments hrest.tidy h hs]
  simp

end UrlPath
