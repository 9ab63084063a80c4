import Mathlib.Data.List.Infix
import VistaBlox.AppError
import VistaBlox.UrlPath

/-!
# Which auth paths are let through

The guard in front of the auth router judges the request target as it arrives;
the router routes on the pathname that URL parsing makes of it.
-/
namespace AuthPaths

open JsonText (Text)
open List
open Shared (AppError)
open UrlPath

/-- What is relied on of `toLowerCase`, which knows more alphabets than this. -/
structure LowerCase where
  toLowerCase : Text → Text
  ascii : ∀ s, (∀ c ∈ s, c < 128) → toLowerCase s = s.map lower

def authBasePath : Text := text "/api/auth"

/-- `[A-Za-z0-9._~-]` -/
def unreserved (c : Nat) : Bool := isAlpha c ∨ (48 ≤ c ∧ c ≤ 57) ∨ c ∈ [46, 95, 126, 45]

def canonicalSegment (segment : Text) : Bool := segment ≠ [] ∧ ∀ c ∈ segment, unreserved c

def dotsOnly (segment : Text) : Bool := segment ≠ [] ∧ ∀ c ∈ segment, c = 46

def isCanonicalAuthPath (pathname : Text) : Bool :=
  let base := authBasePath ++ text "/"
  base.isPrefixOf pathname &&
    ((pathname.drop base.length).splitOn 47).all fun segment => canonicalSegment segment && !dotsOnly segment

/-- `/^endpoint\/*$/` -/
def slashedPath (endpoint path : Text) : Bool := endpoint <+: path ∧ ∀ c ∈ path.drop endpoint.length, c = 47

/-- `/^endpoint(?:\/|$)/` -/
def pathUnder (endpoint path : Text) : Bool := endpoint ++ text "/" <+: path ∨ path = endpoint

def credentialEmailPaths : List Text := ["/api/auth/sign-in/email", "/api/auth/sign-up/email"].map text

def emailOtpPaths : List Text := ["/api/auth/email-otp", "/api/auth/sign-in/email-otp"].map text

def passkeyDeletePath : Text := text "/api/auth/passkey/delete-passkey"

def expoAuthorizationProxyPath : Text := text "/api/auth/expo-authorization-proxy"

def isDisabledAuthPath (js : LowerCase) (pathname : Text) : Bool :=
  let path := js.toLowerCase pathname
  path.tails.any (text "password").isPrefixOf || credentialEmailPaths.any (slashedPath · path) ||
    emailOtpPaths.any (pathUnder · path) || slashedPath passkeyDeletePath path ||
    slashedPath expoAuthorizationProxyPath path

def isAuthPathAllowed (js : LowerCase) (rawPathname : Text) : Bool :=
  isCanonicalAuthPath rawPathname && !isDisabledAuthPath js rawPathname

/-- A request target up to its query string or fragment. -/
def pathOf (target : Text) : Text := target.takeWhile fun c => c ≠ 63 ∧ c ≠ 35

/-- The guard: `none` passes the request on. -/
def rejectDisabledAuthRoutes (js : LowerCase) (target : Text) : Option AppError :=
  if isAuthPathAllowed js (pathOf target) then none
  else some ⟨"resource.not_found", "Resource not found", 404, "The requested resource does not exist.", []⟩

theorem kept_of_unreserved (h : unreserved c = true) : Kept c := by
  simp only [unreserved, isAlpha_iff, decide_eq_true_eq, mem_cons, not_mem_nil, or_false] at h
  simp only [Kept, pathSet, isSlash, decide_eq_false_iff_not, mem_cons, not_mem_nil, or_false]
  omega

/-- An unreserved character in lower case is no percent sign. -/
theorem lower_ne_percent (h : unreserved c = true) : lower c ≠ 37 := by
  simp only [unreserved, isAlpha_iff, decide_eq_true_eq, mem_cons, not_mem_nil, or_false, lower] at h ⊢
  split <;> omega

theorem dotsOnly_of_dots (hne : s ≠ []) (h : s.map lower = replicate n 46) : dotsOnly s = true := by
  have hdots : ∀ c ∈ s, c = 46 := by
    intro c hc
    have hlower : lower c = 46 := eq_of_mem_replicate (h ▸ mem_map_of_mem hc)
    unfold lower at hlower
    split at hlower <;> omega
  simpa [dotsOnly, hne] using hdots

theorem literal_of_canonical (h : canonicalSegment s = true) (hdots : dotsOnly s = false) : Literal s := by
  simp only [canonicalSegment, decide_eq_true_eq] at h
  obtain ⟨hne, hall⟩ := h
  have hpercent : 37 ∉ s.map lower := by
    simp only [mem_map, not_exists, not_and]
    exact fun c hc => lower_ne_percent (hall c hc)
  have hrun : ∀ n, s.map lower ≠ replicate n 46 := fun n h => by
    simp [dotsOnly_of_dots hne h] at hdots
  constructor
  · exact fun c hc => kept_of_unreserved (hall c hc)
  · simp only [isSingleDot, contains_eq_mem, decide_eq_false_iff_not, map_cons, map_nil, mem_cons,
      not_mem_nil, or_false]
    rintro (h | h)
    · exact hrun 1 h
    · exact hpercent (h ▸ by decide)
  · simp only [isDoubleDot, contains_eq_mem, decide_eq_false_iff_not, map_cons, map_nil,
      mem_cons, not_mem_nil,
      or_false]
    rintro (h | h | h | h)
    · exact hrun 2 h
    all_goals exact hpercent (h ▸ by decide)

theorem pathname_eq (h : segments ≠ []) : pathname segments = 47 :: [47].intercalate segments := by
  induction segments with
  | nil => exact absurd rfl h
  | cons s segments ih =>
    cases segments with
    | nil => simp [pathname]
    | cons =>
      have htail := ih (by simp)
      simp only [pathname, flatMap_cons] at htail ⊢
      rw [htail]
      simp [intercalate]

/-- A canonical path is made of literal segments, the first of which is not empty. -/
theorem literal_of_isCanonicalAuthPath (h : isCanonicalAuthPath p = true) :
    ∃ s segments, p = pathname (s :: segments) ∧ s ≠ [] ∧ ∀ r ∈ s :: segments, Literal r := by
  simp only [isCanonicalAuthPath, Bool.and_eq_true, isPrefixOf_iff_prefix, all_eq_true,
    Bool.not_eq_true'] at h
  obtain ⟨⟨tail, rfl⟩, hsegments⟩ := h
  rw [drop_left] at hsegments
  have htail : pathname (tail.splitOn 47) = 47 :: tail := by
    rw [pathname_eq (splitOn_ne_nil _ _), intercalate_splitOn]
  have hpath : authBasePath ++ text "/" ++ tail = pathname (text "api" :: text "auth" :: tail.splitOn 47) := by
    simp only [pathname, flatMap_cons] at htail ⊢
    rw [htail]
    rfl
  refine ⟨_, _, hpath, by decide, ?_⟩
  simp only [forall_mem_cons]
  exact ⟨literal_of_canonical (by decide) (by decide), literal_of_canonical (by decide) (by decide),
    fun s hs => literal_of_canonical (hsegments s hs).1 (hsegments s hs).2⟩

theorem lt_of_kept (h : Kept c) : c < 128 ∧ c ≠ 63 ∧ c ≠ 35 := by
  simp only [Kept, pathSet, decide_eq_false_iff_not, mem_cons] at h
  omega

theorem chars_of_isCanonicalAuthPath (h : isCanonicalAuthPath p = true) : ∀ c ∈ p, c < 128 ∧ c ≠ 63 ∧ c ≠ 35 := by
  obtain ⟨s, segments, rfl, _, hall⟩ := literal_of_isCanonicalAuthPath h
  intro c hc
  simp only [pathname, mem_flatMap, mem_cons] at hc
  obtain ⟨r, hr, rfl | hc⟩ := hc
  · omega
  · exact lt_of_kept ((hall r (mem_cons.mpr hr)).kept c hc)

theorem ending_dropWhile (target : Text) : Ending (target.dropWhile fun c => c ≠ 63 ∧ c ≠ 35) := by
  intro c hc
  have hstop := head?_dropWhile_not (fun c => decide (c ≠ 63 ∧ c ≠ 35)) target
  rw [hc] at hstop
  simpa [or_iff_not_imp_left] using hstop

/-- The endpoints kept off the wire. -/
def DisabledEndpoint (endpoint : Text) : Prop :=
  endpoint ∈ credentialEmailPaths ∨ endpoint = passkeyDeletePath ∨ endpoint = expoAuthorizationProxyPath ∨
    ∃ root ∈ emailOtpPaths, endpoint = root ∨ root ++ text "/" <+: endpoint

/-- In some letter case and without some of its trailing slashes, `path` is `endpoint`. -/
def Spells (path endpoint : Text) : Prop := ∃ n, path.map lower = endpoint ++ replicate n 47

/-- The path spells no disabled endpoint, and no letter case of it holds `password`. -/
def Enabled (path : Text) : Prop :=
  (∀ endpoint, DisabledEndpoint endpoint → ¬ Spells path endpoint) ∧ ¬ text "password" <:+: path.map lower

theorem slashedPath_of_spells (h : Spells p endpoint) : slashedPath endpoint (p.map lower) = true := by
  obtain ⟨n, hn⟩ := h
  simp [slashedPath, hn]

theorem pathUnder_of_spells (hroot : endpoint = root ∨ root ++ text "/" <+: endpoint) (h : Spells p endpoint) :
    pathUnder root (p.map lower) = true := by
  obtain ⟨n, hn⟩ := h
  rw [pathUnder, hn, decide_eq_true_eq]
  obtain rfl | hunder := hroot
  · cases n with
    | zero => exact .inr (append_nil _)
    | succ n => exact .inl ⟨replicate n 47, by rw [append_assoc]; rfl⟩
  · exact .inl (hunder.trans (prefix_append ..))

theorem isDisabledAuthPath_of_spells (js : LowerCase) (hascii : ∀ c ∈ p, c < 128) (hd : DisabledEndpoint endpoint)
    (h : Spells p endpoint) : isDisabledAuthPath js p = true := by
  simp only [isDisabledAuthPath, js.ascii p hascii, Bool.or_eq_true, any_eq_true]
  obtain hemail | rfl | rfl | ⟨root, hroot, hunder⟩ := hd
  · exact .inl (.inl (.inl (.inr ⟨endpoint, hemail, slashedPath_of_spells h⟩)))
  · exact .inl (.inr (slashedPath_of_spells h))
  · exact .inr (slashedPath_of_spells h)
  · exact .inl (.inl (.inr ⟨root, hroot, pathUnder_of_spells hunder h⟩))

theorem isDisabledAuthPath_of_password (js : LowerCase) (hascii : ∀ c ∈ p, c < 128)
    (h : text "password" <:+: p.map lower) : isDisabledAuthPath js p = true := by
  obtain ⟨rest, hstarts, hends⟩ := infix_iff_prefix_suffix.mp h
  simp only [isDisabledAuthPath, js.ascii p hascii, Bool.or_eq_true, any_eq_true]
  exact .inl (.inl (.inl (.inl ⟨rest, (mem_tails _ _).mpr hends, isPrefixOf_iff_prefix.mpr hstarts⟩)))

theorem enabled_of_allowed (h : isAuthPathAllowed js p = true) : Enabled p := by
  simp only [isAuthPathAllowed, Bool.and_eq_true, Bool.not_eq_true'] at h
  obtain ⟨hcanonical, henabled⟩ := h
  have hascii : ∀ c ∈ p, c < 128 := fun c hc => (chars_of_isCanonicalAuthPath hcanonical c hc).1
  constructor
  · intro endpoint hd hspells
    simp [isDisabledAuthPath_of_spells js hascii hd hspells] at henabled
  · intro hpassword
    simp [isDisabledAuthPath_of_password js hascii hpassword] at henabled

/-- URL parsing leaves an allowed path as it is, whatever query follows it. -/
theorem resolve_of_allowed (h : isAuthPathAllowed js p = true) (hrest : Ending rest) :
    (resolve absolute origin (p ++ rest)).map (fun url => pathname url.path) = some p := by
  simp only [isAuthPathAllowed, Bool.and_eq_true] at h
  obtain ⟨s, segments, rfl, hne, hall⟩ := literal_of_isCanonicalAuthPath h.1
  rw [forall_mem_cons] at hall
  rw [resolve_literal hall.2 hall.1 hne hrest]
  rfl

/-- A path that the guard allows is routed as it is written and is no spelling of a
disabled endpoint; and every request that passes the guard is routed on its own
path, whatever its query, and that path is no spelling of a disabled endpoint. -/
theorem allowed_path_is_routed (js : LowerCase) (absolute : List Nat → Option Url) (origin : Origin) :
    (∀ p, isAuthPathAllowed js p = true → (resolve absolute origin p).map (fun url => pathname url.path) = some p ∧
      (∀ target, pathOf target = p → rejectDisabledAuthRoutes js target = none) ∧ Enabled p) ∧
    ∀ target, rejectDisabledAuthRoutes js target = none →
      (resolve absolute origin target).map (fun url => pathname url.path) = some (pathOf target) ∧
        Enabled (pathOf target) := by
  refine ⟨fun p h => ⟨?_, ?_, enabled_of_allowed h⟩, fun target hpass => ?_⟩
  · have hnil : Ending [] := nofun
    simpa using resolve_of_allowed h hnil
  · rintro target rfl
    exact if_pos h
  · have h : isAuthPathAllowed js (pathOf target) = true := by
      simpa [rejectDisabledAuthRoutes] using hpass
    refine ⟨?_, enabled_of_allowed h⟩
    have hresolve : (resolve absolute origin _).map _ = _ := resolve_of_allowed h (ending_dropWhile target)
    rwa [pathOf, takeWhile_append_dropWhile] at hresolve

def asciiLowerCase : LowerCase := ⟨fun s => s.map lower, fun _ _ => rfl⟩

/-- A request for the session, with a query. -/
theorem allowed_path_is_routed_session :
    let target := text "/api/auth/get-session?fresh=1"
    rejectDisabledAuthRoutes asciiLowerCase target = none ∧
      (resolve (fun _ => none) ⟨true, text "api", none⟩ target).map (fun url => pathname url.path) =
        some (text "/api/auth/get-session") := by
  have hpass : rejectDisabledAuthRoutes asciiLowerCase (text "/api/auth/get-session?fresh=1") = none := by
    decide +kernel
  exact ⟨hpass, ((allowed_path_is_routed asciiLowerCase _ _).2 _ hpass).1⟩

end AuthPaths
