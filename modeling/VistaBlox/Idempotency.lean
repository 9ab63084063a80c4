import Mathlib.Data.List.Induction
import Mathlib.Data.List.Lex
import VistaBlox.AppError
import VistaBlox.JsonText

/-!
# Idempotent replay

The `Idempotency-Key` middleware and the table it stores responses in. Between the lookup of
a request and the storing of its response anything can happen to the others.
-/
namespace Idempotency

open JsonText List Option
open Shared (AppError)

section Hash

variable {N : Type} (numbers : NumberText N)

def sortKeys {α : Type} (entries : List (Text × α)) : List (Text × α) :=
  entries.insertionSort fun e e' => e.1 ≤ e'.1

def entry (e : Text × Text) : Text := quote e.1 ++ 58 :: e.2

mutual

def stableStringify : Json N → Text
  | .scalar s => s.stringify numbers
  | .array items => 91 :: join (stringifyItems items) ++ [93]
  | .object fields => 123 :: join ((sortKeys (stringifyFields fields)).map entry) ++ [125]

def stringifyItems : List (Json N) → List Text
  | [] => []
  | v :: items => stableStringify v :: stringifyItems items

def stringifyFields : List (Text × Json N) → List (Text × Text)
  | [] => []
  | (k, v) :: fields => (k, stableStringify v) :: stringifyFields fields

end

theorem stringifyItems_eq (items : List (Json N)) :
    stringifyItems numbers items = items.map (stableStringify numbers) := by
  induction items with
  | nil => rw [stringifyItems, map_nil]
  | cons v items ih => rw [stringifyItems, ih, map_cons]

theorem stringifyFields_eq (fields : List (Text × Json N)) :
    stringifyFields numbers fields = fields.map fun f => (f.1, stableStringify numbers f.2) := by
  induction fields with
  | nil => rw [stringifyFields, map_nil]
  | cons f fields ih => rw [stringifyFields, ih, map_cons]

/-- The text of a field of an object. -/
def fieldText (f : Text × Json N) : Text := entry (f.1, stableStringify numbers f.2)

theorem stableStringify_object (fields : List (Text × Json N)) : stableStringify numbers (.object fields) =
    123 :: join ((sortKeys fields).map (fieldText numbers)) ++ [125] := by
  have hsort : (sortKeys fields).map (fun f => (f.1, stableStringify numbers f.2)) =
      sortKeys (fields.map fun f => (f.1, stableStringify numbers f.2)) :=
    map_insertionSort _ _ _ _ fun _ _ _ _ => Iff.rfl
  rw [stableStringify, stringifyFields_eq, ← hsort, List.map_map]
  rfl

theorem stableStringify_scalar (s : Scalar N) : stableStringify numbers (.scalar s) = s.stringify numbers := by
  rw [stableStringify]

theorem stableStringify_array (items : List (Json N)) :
    stableStringify numbers (.array items) = 91 :: join (items.map (stableStringify numbers)) ++ [93] := by
  rw [stableStringify, stringifyItems_eq]

theorem sortKeys_perm : (sortKeys entries).Perm entries :=
  perm_insertionSort _ entries

theorem stableStringify_ne_close (v : Json N) (t t' : Text) : stableStringify numbers v ++ t ≠ 93 :: t' := by
  cases v with
  | scalar s =>
    rw [stableStringify_scalar]
    exact s.stringify_ne_cons numbers (by decide) t t'
  | array => simp [stableStringify_array]
  | object => simp [stableStringify_object]

theorem fieldText_reads (hf : Reads Json.Finite (stableStringify numbers) Same f.2) :
    Reads (fun f : Text × Json N => f.2.Finite) (fieldText numbers) (fun f f' => f.1 = f'.1 ∧ Same f.2 f'.2) f := by
  intro f' hf' rest rest' hrest hrest' h
  simp only [fieldText, entry, append_assoc, cons_append] at h
  obtain ⟨hkey, htail⟩ := quote_cancel h
  obtain ⟨hsame, hend⟩ := hf f'.2 hf' rest rest' hrest hrest' (cons.inj htail).2
  exact ⟨⟨hkey, hsame⟩, hend⟩

theorem stableStringify_reads (hv : v.Finite) : Reads Json.Finite (stableStringify numbers) Same v := by
  induction v using Json.induct with
  | scalar s =>
    cases hv with | scalar hs =>
    rintro (s' | items' | fields') hv' rest rest' hrest hrest' h
    · cases hv' with | scalar hs' =>
      rw [stableStringify_scalar, stableStringify_scalar] at h
      obtain ⟨rfl, hend⟩ := Scalar.stringify_cancel numbers hs hs' hrest hrest' h
      exact ⟨.scalar s, hend⟩
    · rw [stableStringify_scalar, stableStringify_array] at h
      exact absurd h (s.stringify_ne_cons numbers (by decide) _ _)
    · rw [stableStringify_scalar, stableStringify_object] at h
      exact absurd h (s.stringify_ne_cons numbers (by decide) _ _)
  | array items ih =>
    cases hv with | array hitems =>
    rintro (s' | items' | fields') hv' rest rest' hrest hrest' h
    · rw [stableStringify_array, stableStringify_scalar] at h
      exact absurd h.symm (s'.stringify_ne_cons numbers (by decide) _ _)
    · cases hv' with | array hitems' =>
      simp only [stableStringify_array, cons_append, append_assoc, nil_append, cons.injEq,
        true_and] at h
      obtain ⟨hsame, hend⟩ := join_cancel (.inl rfl) (stableStringify_ne_close numbers)
        (fun v hv => ih v hv (hitems v hv)) hitems' h
      exact ⟨.array hsame, hend⟩
    · simp [stableStringify_array, stableStringify_object] at h
  | object fields ih =>
    cases hv with | object hfields =>
    rintro (s' | items' | fields') hv' rest rest' hrest hrest' h
    · rw [stableStringify_object, stableStringify_scalar] at h
      exact absurd h.symm (s'.stringify_ne_cons numbers (by decide) _ _)
    · simp [stableStringify_array, stableStringify_object] at h
    · cases hv' with | object hfields' =>
      simp only [stableStringify_object, cons_append, append_assoc, nil_append, cons.injEq,
        true_and] at h
      have hreads : ∀ f ∈ sortKeys fields, Reads (fun f : Text × Json N => f.2.Finite) (fieldText numbers)
          (fun f f' => f.1 = f'.1 ∧ Same f.2 f'.2) f := by
        intro f hf
        have hmem := sortKeys_perm.mem_iff.mp hf
        exact fieldText_reads numbers (ih f hmem (hfields f hmem))
      have hfinite : ∀ f ∈ sortKeys fields', f.2.Finite :=
        fun f hf => hfields' f (sortKeys_perm.mem_iff.mp hf)
      obtain ⟨hsame, hend⟩ := join_cancel (.inr rfl) (by simp [fieldText, entry, quote]) hreads hfinite h
      refine ⟨.object sortKeys_perm sortKeys_perm ?_ ?_, hend⟩
      · rw [← forall₂_eq_eq_eq, forall₂_map_left_iff, forall₂_map_right_iff]
        exact hsame.imp fun _ _ h => h.1
      · rw [forall₂_map_left_iff, forall₂_map_right_iff]
        exact hsame.imp fun _ _ h => h.2

/-- What is hashed of a body; a request without one has `undefined` for it. -/
def bodyText : Option (Json N) → Text
  | none => units ['u', 'n', 'd', 'e', 'f', 'i', 'n', 'e', 'd']
  | some v => stableStringify numbers v

/-- Equal JSON bodies, or none in both requests. -/
def SameBody : Option (Json N) → Option (Json N) → Prop := Option.Rel Same

theorem stableStringify_ne_undefined (v : Json N) : stableStringify numbers v ≠ bodyText numbers none := by
  intro h
  cases v with
  | scalar s =>
    rw [stableStringify_scalar, ← append_nil (s.stringify numbers)] at h
    exact s.stringify_ne_cons numbers (by decide) _ _ h
  | array => simp [stableStringify_array, bodyText, units] at h
  | object => simp [stableStringify_object, bodyText, units] at h

theorem sameBody_of_text (hbody : ∀ v ∈ body, v.Finite) (hbody' : ∀ v ∈ body', v.Finite)
    (h : bodyText numbers body = bodyText numbers body') : SameBody body body' := by
  match body, body' with
  | none, none => exact .none
  | none, some v => exact absurd h.symm (stableStringify_ne_undefined numbers v)
  | some v, none => exact absurd h (stableStringify_ne_undefined numbers v)
  | some v, some v' =>
    have hends : Ends [] := by simp [Ends]
    have htext : stableStringify numbers v ++ [] = stableStringify numbers v' ++ [] := by
      rw [append_nil, append_nil]
      exact h
    exact .some (stableStringify_reads numbers (hbody v rfl) v' (hbody' v' rfl) [] [] hends hends htext).1

end Hash

variable {storeUp : Bool}

section Middleware

variable {N : Type} (numbers : NumberText N) (sha256 : Text → String)

/-- A request that reaches the middleware of its route: `endpoint` is the
identifier given by the mount site, `params` are the route's parameters. -/
structure Request (N : Type) where
  idempotencyKey : Option String
  endpoint : String
  accountId : Option Nat
  params : List (String × String)
  body : Option (Json N)

/-- A row of `audit.idempotency_keys`. -/
structure StoredResponse (N : Type) where
  idempotencyKey : String
  endpoint : String
  requestBodyHash : String
  responseStatus : Nat
  responseBody : Json N
  accountId : Option Nat
  createdAt : Nat
  expiresAt : Nat

def find (rows : List (StoredResponse N)) (idempotencyKey endpoint : String) : Option (StoredResponse N) :=
  rows.find? fun row => row.idempotencyKey = idempotencyKey ∧ row.endpoint = endpoint

/-- The first response stored for a key stays. -/
def save (input : StoredResponse N) (rows : List (StoredResponse N)) : StoredResponse N × List (StoredResponse N) :=
  match find rows input.idempotencyKey input.endpoint with
  | some existing => (existing, rows)
  | none => (input, rows ++ [input])

def hashRequestBody (body : Option (Json N)) : String := sha256 (bodyText numbers body)

def retentionHours : Nat := 48

/-- What the middleware does with a request: hand it to the handler, refuse it,
or answer it from the table. -/
inductive Answer (N : Type) where
  | next
  | error (e : AppError)
  | replay (status : Nat) (body : Json N)

def keyRequired : AppError :=
  ⟨"idempotency.key_required", "Idempotency-Key required", 400,
    "This operation requires an idempotency-key header.", []⟩

def storeUnavailable : AppError :=
  ⟨"idempotency.store_unavailable", "Service unavailable", 503,
    "Could not verify this Idempotency-Key against prior requests.", []⟩

def bodyMismatch : AppError :=
  ⟨"idempotency.body_mismatch", "Duplicate idempotent operation", 409,
    "This idempotency-key was already used with a different request body.", []⟩

/-- The middleware up to `next()`; `storeUp` says whether the lookup succeeds. -/
def middleware (storeUp : Bool) (rows : List (StoredResponse N)) (request : Request N) : Answer N :=
  match request.idempotencyKey with
  | none => .error keyRequired
  | some key =>
    if trim Char.toNat key.toList = [] then .error keyRequired
    else if storeUp = false then .error storeUnavailable
    else match find rows key request.endpoint with
      | none => .next
      | some existing =>
        if existing.requestBodyHash ≠ hashRequestBody numbers sha256 request.body then .error bodyMismatch
        else .replay existing.responseStatus existing.responseBody

/-- The row that `interceptResponse` saves when the handler responds. -/
def responseRow (key : String) (request : Request N) (status : Nat) (body : Json N) (now : Nat) :
    StoredResponse N where
  idempotencyKey := key
  endpoint := request.endpoint
  requestBodyHash := hashRequestBody numbers sha256 request.body
  responseStatus := status
  responseBody := body
  accountId := request.accountId
  createdAt := now
  expiresAt := now + retentionHours * 60 * 60 * 1000

/-- The table, and the requests handed to their handlers so far, with their keys. -/
structure State (N : Type) where
  rows : List (StoredResponse N)
  handled : List (String × Request N)

inductive Event (N : Type) where
  | arrive (request : Request N) (storeUp : Bool)
  | respond (i : Nat) (status : Nat) (body : Json N) (now : Nat) (storeUp : Bool)

def step (s : State N) : Event N → State N
  | .arrive request storeUp =>
    match middleware numbers sha256 storeUp s.rows request with
    | .next => { s with handled := s.handled ++ [(request.idempotencyKey.getD "", request)] }
    | _ => s
  | .respond i status body now storeUp =>
    match s.handled[i]? with
    | none => s
    | some (key, request) =>
      if storeUp then { s with rows := (save (responseRow numbers sha256 key request status body now) s.rows).2 }
      else s

def run (history : List (Event N)) : State N := history.foldl (step numbers sha256) ⟨[], []⟩

theorem run_concat (history : List (Event N)) (e : Event N) :
    run numbers sha256 (history ++ [e]) = step numbers sha256 (run numbers sha256 history) e := foldl_concat ..

def arrivals (history : List (Event N)) : List (Request N) :=
  history.filterMap fun e => match e with
    | .arrive request _ => some request
    | .respond .. => none

theorem mem_arrivals (h : .arrive request storeUp ∈ history) : request ∈ arrivals history :=
  mem_filterMap.mpr ⟨_, h, rfl⟩

theorem arrivals_append (history more : List (Event N)) :
    arrivals (history ++ more) = arrivals history ++ arrivals more :=
  filterMap_append

/-- The handler of `request` gave this response, and it was saved. -/
def Produced (history : List (Event N)) (request : Request N) (status : Nat) (body : Json N) : Prop :=
  ∃ before i now after key, history = before ++ .respond i status body now true :: after ∧
    (run numbers sha256 before).handled[i]? = some (key, request)

variable {numbers sha256} {history : List (Event N)} {request : Request N} {status : Nat} {body : Json N}

theorem Produced.concat (h : Produced numbers sha256 history request status body) (e : Event N) :
    Produced numbers sha256 (history ++ [e]) request status body := by
  obtain ⟨before, i, now, after, key, rfl, hi⟩ := h
  exact ⟨before, i, now, after ++ [e], key, by simp, hi⟩

variable {rows : List (StoredResponse N)}

theorem middleware_next (h : middleware numbers sha256 storeUp rows request = .next) :
    ∃ key, request.idempotencyKey = some key := by
  unfold middleware at h
  split at h
  · cases h
  · rename_i key hkey
    exact ⟨key, hkey⟩

theorem middleware_replay (h : middleware numbers sha256 storeUp rows request = .replay status body) : ∃ row ∈ rows,
      request.idempotencyKey = some row.idempotencyKey ∧ row.endpoint = request.endpoint ∧
      row.requestBodyHash = hashRequestBody numbers sha256 request.body ∧ row.responseStatus = status ∧
      row.responseBody = body := by
  unfold middleware at h
  split at h
  · cases h
  · rename_i key hkey
    split_ifs at h
    split at h
    · cases h
    · rename_i existing hfind
      split_ifs at h with hhash
      injection h with hstatus hbody
      have hrow := find?_some hfind
      simp only [decide_eq_true_eq] at hrow
      exact ⟨existing, mem_of_find?_eq_some hfind, by rw [hkey, hrow.1], hrow.2, not_not.mp hhash, hstatus, hbody⟩

/-- What stands behind the table: every request handed on had arrived with its
key, and every row was saved for one of them. -/
structure Traced (numbers : NumberText N) (sha256 : Text → String) (history : List (Event N)) : Prop where
  handled : ∀ h ∈ (run numbers sha256 history).handled, h.2.idempotencyKey = some h.1 ∧ h.2 ∈ arrivals history
  rows : ∀ row ∈ (run numbers sha256 history).rows, ∃ origin, origin ∈ arrivals history ∧
    origin.idempotencyKey = some row.idempotencyKey ∧ origin.endpoint = row.endpoint ∧
    row.requestBodyHash = hashRequestBody numbers sha256 origin.body ∧
    Produced numbers sha256 history origin row.responseStatus row.responseBody

theorem mem_save (h : row ∈ (save input rows).2) : row ∈ rows ∨ row = input := by
  unfold save at h
  split at h
  · exact .inl h
  · simpa using h

theorem Traced.concat (h : Traced numbers sha256 history) (e : Event N) :
    Traced numbers sha256 (history ++ [e]) := by
  have hhandled : ∀ h ∈ (run numbers sha256 history).handled, h.2.idempotencyKey = some h.1 ∧
      h.2 ∈ arrivals (history ++ [e]) := by
    intro r hr
    rw [arrivals_append]
    exact ⟨(h.handled r hr).1, mem_append_left _ (h.handled r hr).2⟩
  have hrows : ∀ row ∈ (run numbers sha256 history).rows, ∃ origin, origin ∈ arrivals (history ++ [e]) ∧
      origin.idempotencyKey = some row.idempotencyKey ∧ origin.endpoint = row.endpoint ∧
      row.requestBodyHash = hashRequestBody numbers sha256 origin.body ∧
      Produced numbers sha256 (history ++ [e]) origin row.responseStatus row.responseBody := by
    intro row hrow
    obtain ⟨origin, horigin, hkey, hend, hhash, hproduced⟩ := h.rows row hrow
    rw [arrivals_append]
    exact ⟨origin, mem_append_left _ horigin, hkey, hend, hhash, hproduced.concat e⟩
  constructor
  case handled =>
    rw [run_concat]
    cases e with
    | arrive =>
      simp only [step]
      split
      · rename_i hnext
        obtain ⟨key, hkey⟩ := middleware_next hnext
        refine forall_mem_append.mpr ⟨hhandled, ?_⟩
        rw [forall_mem_singleton, hkey]
        exact ⟨rfl, mem_arrivals (mem_append_right _ (mem_singleton_self _))⟩
      · exact hhandled
    | respond =>
      simp only [step]
      split
      · exact hhandled
      · split <;> exact hhandled
  case rows =>
    rw [run_concat]
    cases e with
    | arrive =>
      simp only [step]
      split <;> exact hrows
    | respond i status body now =>
      simp only [step]
      split
      · exact hrows
      · rename_i key request hi
        split
        · rename_i hup
          subst hup
          intro row hrow
          obtain hold | rfl := mem_save hrow
          · exact hrows row hold
          · obtain ⟨hkey, harrived⟩ := hhandled (key, request) (mem_of_getElem? hi)
            exact ⟨request, harrived, hkey, rfl, rfl, history, i, now, [], key, rfl, hi⟩
        · exact hrows

theorem traced (history : List (Event N)) :
    Traced numbers sha256 history := by
  induction history using List.reverseRecOn with
  | nil => exact ⟨by simp [run], by simp [run]⟩
  | append_singleton history e ih => exact ih.concat e

theorem Produced.arrived (h : Produced numbers sha256 history request status body) : request ∈ arrivals history := by
  obtain ⟨before, i, now, after, key, rfl, hi⟩ := h
  rw [arrivals_append]
  exact mem_append_left _ ((traced before).handled _ (mem_of_getElem? hi)).2

end Middleware

section Soundness

variable {N : Type} {numbers : NumberText N} {sha256 : Text → String} {history : List (Event N)}
  {request : Request N} {status : Nat} {body : Json N}

/-- Requests that share a key, an endpoint and a body are of one account and name the same resource. -/
def Scoped (requests : List (Request N)) : Prop :=
  ∀ r ∈ requests, ∀ r' ∈ requests, r.idempotencyKey = r'.idempotencyKey → r.endpoint = r'.endpoint →
    SameBody r.body r'.body → r.accountId = r'.accountId ∧ r.params = r'.params

/-- No body holds a number too large for a double. -/
def FiniteBodies (requests : List (Request N)) : Prop := ∀ r ∈ requests, ∀ v ∈ r.body, v.Finite

/-- Beyond the doubles two different bodies have one text. -/
example (negative : Bool) : stableStringify numbers (.scalar (.number (.infinite negative))) =
    stableStringify numbers (.scalar .null) := by
  simp only [stableStringify_scalar, Scalar.stringify]

/-- The hash tells the bodies of these requests apart. -/
def CollisionFree (numbers : NumberText N) (sha256 : Text → String) (requests : List (Request N)) : Prop :=
  ∀ r ∈ requests, ∀ r' ∈ requests, sha256 (bodyText numbers r.body) = sha256 (bodyText numbers r'.body) →
    bodyText numbers r.body = bodyText numbers r'.body

/-- Where keys are not shared between accounts or resources, a request answered
from the table gets the response to a request of its account, for its resource
and with its body. -/
theorem replay_sound (hscoped : Scoped (request :: arrivals history))
    (hfinite : FiniteBodies (request :: arrivals history))
    (hsha : CollisionFree numbers sha256 (request :: arrivals history))
    (h : middleware numbers sha256 storeUp (run numbers sha256 history).rows request = .replay status body) :
    ∃ origin, Produced numbers sha256 history origin status body ∧ origin.accountId = request.accountId ∧
      origin.endpoint = request.endpoint ∧ origin.params = request.params ∧ SameBody origin.body request.body := by
  obtain ⟨row, hrow, hkey, hend, hhash, rfl, rfl⟩ := middleware_replay h
  obtain ⟨origin, horigin, hkey', hend', hhash', hproduced⟩ := (traced history).rows row hrow
  have hmem : origin ∈ request :: arrivals history := mem_cons_of_mem _ horigin
  have hself : request ∈ request :: arrivals history := mem_cons_self ..
  have htext := hsha origin hmem request hself (hhash'.symm.trans hhash)
  have hsame := sameBody_of_text numbers (hfinite origin hmem) (hfinite request hself) htext
  obtain ⟨haccount, hparams⟩ := hscoped origin hmem request hself (hkey'.trans hkey.symm) (hend'.trans hend) hsame
  exact ⟨origin, hproduced, haccount, hend'.trans hend, hparams, hsame⟩

/-- The numbers of one digit. -/
def digitText : NumberText (Fin 10) where
  write d := [48 + d.val]
  nonempty _ := by simp
  made := by decide
  injective d d' h := by simpa [Fin.ext_iff] using h

/-- `{"amount_eur":"1000.00"}` -/
def amountBody : Json (Fin 10) :=
  .object [(units ['a', 'm', 'o', 'u', 'n', 't', '_', 'e', 'u', 'r'],
    .scalar (.string (units ['1', '0', '0', '0', '.', '0', '0'])))]

/-- SHA-256 of the two body texts that occur below. -/
def sampleSha256 (t : Text) : String :=
  if t = bodyText digitText none then "eb045d78d273107348b0300c01d29b7552d622abbc6faf81b3ec55359aa9950c"
  else if t = bodyText digitText (some amountBody) then
    "81d9e5baa359fa43b01539961a1b209b81901213bac9496525934dc14e8328a6"
  else ""

def reserve : Request (Fin 10) :=
  ⟨some "k", "offering.reservation.create", some 1, [("offering_id", "o1")], some amountBody⟩

def reservedResponse : Json (Fin 10) := .object [(units ['i', 'd'], .scalar (.string (units ['r', '1'])))]

def reserved : List (Event (Fin 10)) := [.arrive reserve true, .respond 0 201 reservedResponse 0 true]

theorem amountBody_finite : amountBody.Finite := by
  refine .object fun f hf => ?_
  obtain rfl := mem_singleton.mp hf
  exact .scalar rfl

theorem replay_sound_retried :
    middleware digitText sampleSha256 true (run digitText sampleSha256 reserved).rows reserve =
      .replay 201 reservedResponse ∧
    ∃ origin, Produced digitText sampleSha256 reserved origin 201 reservedResponse ∧
      origin.accountId = reserve.accountId ∧ origin.endpoint = reserve.endpoint ∧ origin.params = reserve.params ∧
      SameBody origin.body reserve.body := by
  have hreplay : middleware digitText sampleSha256 true (run digitText sampleSha256 reserved).rows reserve =
      .replay 201 reservedResponse := rfl
  have hone : ∀ r ∈ reserve :: arrivals reserved, r = reserve := by simp [arrivals, reserved]
  refine ⟨hreplay, replay_sound ?_ ?_ ?_ hreplay⟩
  · intro r hr r' hr' _ _ _
    rw [hone r hr, hone r' hr']
    exact ⟨rfl, rfl⟩
  · intro r hr v hv
    rw [hone r hr] at hv
    obtain rfl := some.inj hv
    exact amountBody_finite
  · intro r hr r' hr' _
    rw [hone r hr, hone r' hr']

def reconfirm (accountId : Nat) (reservationId : String) : Request (Fin 10) :=
  ⟨some "k", "offering.reservation.reconfirm", some accountId,
    [("offering_id", "o1"), ("reservation_id", reservationId)],
    none⟩

def reconfirmed : List (Event (Fin 10)) := [.arrive (reconfirm 1 "r1") true, .respond 0 200 reservedResponse 0 true]

/-- Account 2 reconfirms its reservation with a key that account 1 has used for
another one, and is told how account 1's request went. -/
theorem replay_of_another_account :
    middleware digitText sampleSha256 true (run digitText sampleSha256 reconfirmed).rows (reconfirm 2 "r2") =
      .replay 200 reservedResponse ∧
    ∀ origin, Produced digitText sampleSha256 reconfirmed origin 200 reservedResponse →
      origin.accountId ≠ (reconfirm 2 "r2").accountId ∧ origin.params ≠ (reconfirm 2 "r2").params := by
  refine ⟨rfl, fun origin horigin => ?_⟩
  obtain rfl : origin = reconfirm 1 "r1" := by simpa [arrivals, reconfirmed] using horigin.arrived
  exact ⟨by decide, by decide⟩

end Soundness

end Idempotency
