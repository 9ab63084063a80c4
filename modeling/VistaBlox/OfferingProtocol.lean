import VistaBlox.OfferingServices
import VistaBlox.OfferingTransactions

/-!
# The services keep the book
-/
namespace Offering

open Interleaving List Option
open Shared (AppError)

/-- A publication that passes its gate does so with the live reservations funded up to the target. -/
def fullyFunded : Guard Database Event Op where
  call _ op w := match op with
    | .publishFinalOfferingTerms o _ => ∀ row, w.offering o = some row →
        row.targetRaiseEur ≤ publishedFundedEur w o → row.targetRaiseEur ≤ fundedEur w o
    | _ => True
  env _ _ := True

/-- Landed money is recorded with a later time than everything on record for its reservation. -/
def inOrder : Guard Database Event Op where
  call _ op w := match op with
    | .recordMoneyEvent input _ => isReservationFunded (some input.capitalState) = true →
        ∀ e ∈ w.moneyEvents, e.reservationId = input.reservationId → e.recordedAt < input.recordedAt
    | _ => True
  env _ _ := True

/-- No money has landed on a reservation between the look at it and the write of an unfunded event. -/
def noMoneyMeanwhile : Guard Database Event Op where
  call _ op w := match op with
    | .recordMoneyEvent input asOf => isReservationFunded (some input.capitalState) = false →
        ∀ e ∈ w.moneyEvents.drop asOf, e.reservationId = input.reservationId → e.funded = false
    | _ => True
  env _ _ := True

def guard (covered ordered : Prop) : Guard Database Event Op where
  call t op w := (covered → fullyFunded.call t op w) ∧ (ordered → (inOrder.and noMoneyMeanwhile).call t op w)
  env _ _ := True

variable {amountEur asOf t : Nat} {fresh : Nat → Nat} {input : MoneyEventInput} {op : Op} {r : ReservationId}

section Rules

/-- What a service knows when it writes a money event. -/
structure Ready (ordered : Prop) (r : ReservationId) (amountEur asOf : Nat) (w : Database) : Prop where
  held : ∃ row ∈ w.reservations, row.id = r ∧ row.amountEur = amountEur
  checked : ordered → asOf ≤ w.moneyEvents.length ∧
    ∀ e ∈ w.moneyEvents.take asOf, e.reservationId = r → e.funded = false

def Req (ordered : Prop) (op : Op) (w : Database) : Prop :=
  match op with
  | .recordMoneyEvent input asOf => Ready ordered input.reservationId input.amountEur asOf w
  | _ => True

def rules (covered ordered : Prop) : Rules Database Op where
  inv := Inv covered ordered
  rely _ := Moves covered
  req _ := Req ordered

variable {covered ordered : Prop} {w w' : Database}

theorem Ready.moves (h : Ready ordered r amountEur asOf w) (hm : Moves covered w w') :
    Ready ordered r amountEur asOf w' := by
  refine ⟨?_, fun hord => ?_⟩
  · obtain ⟨row, hrow, hid, ham⟩ := h.held
    obtain ⟨row', hrow', hs⟩ := hm.reservations row hrow
    exact ⟨row', hrow', hs.id.trans hid, hs.amountEur.trans ham⟩
  · obtain ⟨hle, hnone⟩ := h.checked hord
    obtain ⟨added, hadded⟩ := hm.moneyEvents
    rw [← hadded]
    refine ⟨hle.trans (by simp), ?_⟩
    rwa [take_append_of_le_length hle]

theorem Inv.ready (hw : Inv covered ordered w) {r : Reservation} (hr : r ∈ w.reservations)
    (hun : isReservationFunded (latestCapitalState w.moneyEvents r.id) = false) :
    Ready ordered r.id r.amountEur w.moneyEvents.length w := by
  refine ⟨⟨r, hr, rfl, rfl⟩, fun hord => ⟨le_rfl, fun e he hid => ?_⟩⟩
  by_contra hf
  have hland := hw.landed hord e (mem_of_mem_take he) (by simpa using hf)
  rw [hid, hun] at hland
  cases hland

theorem Holdable.ready {input : CreateReservationInput} {row : OfferingRecord} (h : Holdable w input row)
    (hw : Book w) : Ready ordered input.reservationId input.amountEur
      (w.hold fresh input).moneyEvents.length (w.hold fresh input) := by
  refine ⟨⟨newReservation input, mem_append_right _ (mem_singleton_self _), rfl, rfl⟩,
    fun _ => ⟨le_rfl, ?_⟩⟩
  rw [take_length]
  refine forall_mem_append.mpr ⟨fun e he hid => absurd hid (hw.no_events h.fresh e he), ?_⟩
  rw [forall_mem_singleton]
  exact fun _ => rfl

theorem Ready.record {id : Nat} (hw : Inv covered ordered w)
    (h : Ready ordered input.reservationId input.amountEur asOf w)
    (hg : (guard covered ordered).call t (.recordMoneyEvent input asOf) w) :
    Inv covered ordered { w with moneyEvents := w.moneyEvents ++ [moneyEvent id input] } ∧
      Moves covered w { w with moneyEvents := w.moneyEvents ++ [moneyEvent id input] } := by
  refine hw.record h.held fun hord => ?_
  obtain ⟨horder, hmean⟩ := hg.2 hord
  refine (hw.landed hord).concat (fun hf => .inr (horder hf)) fun hun e he hid => ?_
  rw [← take_append_drop asOf w.moneyEvents, mem_append] at he
  obtain he | he := he
  · exact (h.checked hord).2 e he hid
  · exact hmean hun e he hid

theorem recordMoneyEvent_inv (hw : Inv covered ordered w)
    (h : Ready ordered input.reservationId input.amountEur asOf w)
    (hg : (guard covered ordered).call t (.recordMoneyEvent input asOf) w) :
    Inv covered ordered (recordMoneyEvent fresh input w).2 ∧ Moves covered w (recordMoneyEvent fresh input w).2 := by
  unfold recordMoneyEvent
  split_ifs
  · exact ⟨hw, .refl covered w⟩
  · exact ⟨hw, .refl covered w⟩
  · exact h.record hw hg

theorem publishDisclosurePack_inv (hw : Inv covered ordered w) :
    Inv covered ordered (publishDisclosurePack o documents publishedAt w).2 ∧
      Moves covered w (publishDisclosurePack o documents publishedAt w).2 := by
  unfold publishDisclosurePack
  split
  · exact ⟨hw, .refl covered w⟩
  · split_ifs
    · exact ⟨hw, .refl covered w⟩
    · exact hw.same rfl rfl rfl

/-- Every transaction keeps the invariant and only moves the tables forward. -/
theorem run_inv (hw : Inv covered ordered w) (hreq : Req ordered op w) (hg : (guard covered ordered).call t op w) :
    Inv covered ordered (op.run c w).2 ∧ Moves covered w (op.run c w).2 := by
  cases op with
  | clock => exact hw.same rfl rfl rfl
  | findOffering | findAccount | offeringProgress | generateReservationId | createOnrampSessionToken
  | listPendingPurchaseReservationsForTimers | listBuyTransactions | listInitiatedReservationsForTimers
  | listOfferingsPendingFinalizationCommit => exact ⟨hw, .refl covered w⟩
  | createReservation input => exact (creation c.fresh input w).inv hw
  | recordMoneyEvent => exact recordMoneyEvent_inv hw hreq hg
  | expireReservation r => exact expireReservation_inv hw r
  | publishFinalOfferingTerms => exact publishFinalOfferingTerms_inv c.fresh hw hg.1
  | reconfirmReservation r a at' => exact reconfirmReservation_inv hw r a at'
  | commitOfferingFinalization o at' => exact commitOfferingFinalization_inv c.fresh o at' hw
  | classifyMateriality input => exact classifyMateriality_inv hw input
  | publishDisclosurePack => exact publishDisclosurePack_inv hw

/-- The same with a fault before or after the transaction. -/
theorem exec_inv {c : Choice} {r : Except Failure op.Out} (hw : Inv covered ordered w) (hreq : Req ordered op w)
    (hg : (guard covered ordered).call t op w) (h : exec t op c w = some (r, w')) :
    Inv covered ordered w' ∧ Moves covered w w' ∧ ∀ a, r = .ok a → op.run c w = (.ok a, w') := by
  obtain ⟨hi, hm⟩ := run_inv hw hreq hg
  unfold exec at h
  cases hfault : c.fault with
  | none =>
    simp only [hfault, some.injEq] at h
    rw [h] at hi hm
    exact ⟨hi, hm, fun a ha => h.trans (by rw [ha])⟩
  | some applied =>
    simp only [hfault, some.injEq, Prod.mk.injEq] at h
    obtain ⟨rfl, rfl⟩ := h
    cases applied with
    | true => exact ⟨hi, hm, fun a ha => by cases ha⟩
    | false => exact ⟨hw, .refl covered w, fun a ha => by cases ha⟩

end Rules

variable {F P : Database → Prop} {w w' : Database}

section Specs

variable {options : CreateReservationServiceOptions} {covered ordered : Prop}

abbrev Spec (options : CreateReservationServiceOptions) (covered ordered : Prop) (t : Nat) (P : Database → Prop)
    (p : Run α) (Q : α → Database → Prop) : Prop :=
  Triple (system options) (guard covered ordered) (rules covered ordered) t P p Q

abbrev Lasting (covered ordered : Prop) (F : Database → Prop) : Prop := (rules covered ordered).Lasting F

theorem lasting_ready :
    Lasting covered ordered (Ready ordered r amountEur asOf) := fun _ _ _ _ _ hm h => h.moves hm

theorem spec_invoke (hreq : ∀ w, P w → Req ordered op w)
    (hpost : ∀ w c a w', Inv covered ordered w → P w → op.run c w = (.ok a, w') → Q a w')
    (hlast : ∀ a, Lasting covered ordered (Q a)) : Spec options covered ordered t P (invoke op) Q := by
  refine triple_perform (fun w _ hP => hreq w hP) (fun w c r w' hw hP hg hexec => ?_) fun a => hlast a t
  obtain ⟨hi, hm, hok⟩ := exec_inv hw (hreq w hP) hg hexec
  exact ⟨hi, fun _ _ => hm, fun a ha => hpost w c a w' hw hP (hok a ha)⟩

theorem spec_any (hreq : ∀ w, P w → Req ordered op w) :
    Spec options covered ordered t P (invoke op) (fun _ _ => True) :=
  spec_invoke hreq (fun _ _ _ _ _ _ _ => trivial) fun _ _ _ _ _ _ _ _ => trivial

theorem spec_then (hF : Lasting covered ordered F) (hp : Spec options covered ordered t F p (fun _ _ => True))
    (hf : ∀ a, Spec options covered ordered t F (f a) Q) : Spec options covered ordered t F (p >>= f) Q :=
  triple_bind (triple_pre (triple_frame hF hp) fun _ _ h => ⟨h, h⟩) fun a => triple_pre (hf a) fun _ _ h => h.1

theorem lasting_true : Lasting covered ordered (fun _ => True) := fun _ _ _ _ _ _ h => h

theorem spec_ret (a : α) (P : Database → Prop) : Spec options covered ordered t P (.ret a) (fun _ _ => True) :=
  triple_done

theorem spec_record (hr : input.reservationId = r) (ham : input.amountEur = amountEur) :
    Spec options covered ordered t (Ready ordered r amountEur asOf) (invoke (.recordMoneyEvent input asOf))
      (fun _ _ => True) := by
  subst hr ham
  exact spec_any fun _ h => h

theorem spec_openSession :
    Spec options covered ordered t (Ready ordered r amountEur asOf)
      (openSession r reused amountEur walletAddress asOf) (fun _ _ => True) := by
  refine triple_pre (triple_catch lasting_ready (spec_any fun _ _ => trivial) fun e => ?_)
    fun _ _ h => ⟨h, h⟩
  cases reused with
  | true => exact triple_fail
  | false =>
    refine spec_then lasting_ready (spec_any fun _ _ => trivial) fun recordedAt => ?_
    exact spec_then lasting_ready (spec_record rfl rfl) fun _ => triple_fail

theorem spec_armPayment (request : ReservationRequest) (r : ReservationId) (createdAt : Nat) (reused : Bool)
    (walletAddress asOf : Nat) :
    Spec options covered ordered t (Ready ordered r request.amountEur asOf)
      (armPayment options request r createdAt reused walletAddress asOf) (fun _ _ => True) := by
  have hlast : Lasting covered ordered (Ready ordered r request.amountEur asOf) := lasting_ready
  refine spec_then hlast spec_openSession fun channelId => ?_
  refine spec_then hlast (spec_any fun _ _ => trivial) fun recordedAt => ?_
  exact spec_then hlast (spec_record rfl rfl) fun _ => spec_ret _ _

/-- What the answer of the transaction says about later money events. -/
def Answered (ordered : Prop) (amountEur : Nat) (answer : CreateReservationResult × Nat) (w : Database) : Prop :=
  match answer.1 with
  | .conflict _ => True
  | .created id _ => Ready ordered id amountEur answer.2 w
  | .reused id _ replay => isReservationFunded replay.latestCapitalState = false →
      Ready ordered id replay.amountEur answer.2 w

theorem lasting_answered (amountEur : Nat) (answer : CreateReservationResult × Nat) :
    Lasting covered ordered (Answered ordered amountEur answer) := by
  intro _ w w' _ _ hm h
  obtain ⟨result, asOf⟩ := answer
  cases result with
  | conflict => trivial
  | created => exact Ready.moves h hm
  | reused => exact fun hun => (h hun).moves hm

theorem Creation.answered {input : CreateReservationInput} {result : Except DatabaseError CreateReservationResult}
    {answer : CreateReservationResult} (h : Creation fresh input w (result, w')) (hw : Inv covered ordered w)
    (hok : result = .ok answer) : Answered ordered input.amountEur (answer, w'.moneyEvents.length) w' := by
  cases h with
  | refused => cases hok
  | conflict =>
    cases hok
    trivial
  | reused r hr =>
    cases hok
    exact fun hun => hw.ready hr hun
  | created row h =>
    cases hok
    exact h.ready hw.book

theorem spec_createReservation (input : CreateReservationInput) :
    Spec options covered ordered t (fun _ => True) (invoke (.createReservation input))
      (Answered ordered input.amountEur) := by
  refine spec_invoke (fun _ _ => trivial) (fun w c answer w' hw _ hrun => ?_) (lasting_answered input.amountEur)
  obtain ⟨hans, rfl⟩ := Prod.mk.inj hrun
  have hcreation := creation c.fresh input w
  cases hresult : createReservation c.fresh input w with
  | mk result w₁ =>
    simp only [lift, hresult] at hans hcreation ⊢
    cases result with
    | error => cases hans
    | ok a =>
      obtain rfl : (a, w₁.moneyEvents.length) = answer := Except.ok.inj hans
      exact hcreation.answered hw rfl

theorem spec_assertReplayable : Spec options covered ordered t P
    (assertReplayable options replay createdAt requested now)
      (fun _ w => replay.amountEur = requested ∧ isReservationFunded replay.latestCapitalState = false ∧ P w) := by
  unfold assertReplayable
  split_ifs with ham hopen
  · exact triple_fail
  · exact triple_fail
  · refine triple_ret fun w _ h => ⟨not_not.mp ham, ?_, h⟩
    simp only [not_or] at hopen
    simpa using hopen.2.1

theorem spec_reserve :
    Spec options covered ordered t (fun _ => True) (reserve options request packVersion now walletAddress)
      (fun _ _ => True) := by
  refine spec_then lasting_true (spec_any fun _ _ => trivial) fun candidate => ?_
  refine triple_bind (spec_createReservation _) fun created => ?_
  obtain ⟨result, asOf⟩ := created
  cases result with
  | conflict c =>
    cases c with
    | offeringNotOpen => exact triple_fail
    | capacityExceeded => exact triple_fail
  | created id createdAt => exact spec_armPayment request id createdAt false walletAddress asOf
  | reused id createdAt =>
    refine triple_bind (spec_assertReplayable) fun _ => ?_
    refine triple_pre (spec_armPayment request id createdAt true walletAddress asOf) fun w _ h => ?_
    obtain ⟨ham, hun, hready⟩ := h
    exact ham ▸ hready hun

theorem spec_getInvestorDetail :
    Spec options covered ordered t (fun _ => True) (getInvestorDetail o a) (fun _ _ => True) := by
  refine spec_then lasting_true (spec_any fun _ _ => trivial) fun offering => ?_
  refine spec_then lasting_true (spec_any fun _ _ => trivial) fun account => ?_
  exact spec_then lasting_true (spec_any fun _ _ => trivial) fun progress => spec_ret _ _

theorem spec_createReservationService :
    Spec options covered ordered t (fun _ => True) (createReservationService options request) (fun _ _ => True) := by
  refine spec_then lasting_true spec_getInvestorDetail fun detail => ?_
  cases detail with
  | none => exact triple_fail
  | some detail =>
    refine spec_then lasting_true (spec_any fun _ _ => trivial) fun now => ?_
    dsimp only
    split_ifs
    · exact triple_fail
    · exact triple_fail
    · cases detail.account.walletAddress with
      | none => exact triple_fail
      | some => exact spec_reserve

/-- What the poll knows of the reservations it has listed. -/
def Listed (ordered : Prop) (pending : List PendingPurchaseReservationForTimer × Nat) (w : Database) : Prop :=
  ∀ p ∈ pending.1, Ready ordered p.reservationId p.amountEur pending.2 w

theorem lasting_listed (pending : List PendingPurchaseReservationForTimer × Nat) :
    Lasting covered ordered (Listed ordered pending) := fun _ _ _ _ _ hm h p hp => (h p hp).moves hm

theorem spec_listPending : Spec options covered ordered t (fun _ => True)
    (invoke .listPendingPurchaseReservationsForTimers) (Listed ordered) := by
  refine spec_invoke (fun _ _ => trivial) (fun w c pending w' hw _ hrun => ?_) lasting_listed
  obtain ⟨hans, rfl⟩ := Prod.mk.inj hrun
  obtain rfl := Except.ok.inj hans
  intro p hp
  obtain ⟨r, hr, rfl⟩ := List.mem_map.mp hp
  obtain ⟨hmem, hsel⟩ := mem_filter.mp hr
  refine hw.ready hmem ?_
  have hpending := (of_decide_eq_true hsel).2
  simp only [pendingPurchase, decide_eq_true_eq] at hpending
  obtain hs | hs := hpending <;> rw [hs] <;> rfl

theorem spec_pollOne (asOf acted : Nat) (p : PendingPurchaseReservationForTimer) :
    Spec options covered ordered t (Ready ordered p.reservationId p.amountEur asOf) (pollOne asOf acted p)
      (fun _ _ => True) := by
  refine spec_then lasting_ready (spec_any fun _ _ => trivial) fun transactions => ?_
  dsimp only
  split_ifs
  · exact spec_ret _ _
  · refine spec_then lasting_ready (spec_any fun _ _ => trivial) fun recordedAt => ?_
    cases hevent : outcomeEvent p recordedAt (resolveOutcome transactions) with
    | none => exact spec_ret _ _
    | some =>
      obtain ⟨hid, ham⟩ := outcomeEvent_of hevent
      exact spec_then lasting_ready (spec_record hid ham) fun _ => spec_ret _ _

theorem spec_foldlM (hF : Lasting covered ordered F) (body : σ → β → Run σ) (bs : List β)
    (hbody : ∀ acc, ∀ b ∈ bs, Spec options covered ordered t F (body acc b) (fun _ _ => True)) :
    ∀ acc, Spec options covered ordered t F (bs.foldlM body acc) (fun _ _ => True) := by
  induction bs with
  | nil => exact fun acc => spec_ret acc F
  | cons b bs ih =>
    intro acc
    rw [foldlM_cons]
    exact spec_then hF (hbody acc b (mem_cons_self ..)) fun acc' =>
      ih (fun acc b' hb' => hbody acc b' (mem_cons_of_mem b hb')) acc'

theorem spec_pollOnrampTransactionsService :
    Spec options covered ordered t (fun _ => True) pollOnrampTransactionsService (fun _ _ => True) := by
  refine triple_bind spec_listPending fun pending => ?_
  refine spec_then (lasting_listed pending) ?_ fun acted => spec_ret _ _
  exact spec_foldlM (lasting_listed pending) _ _
    (fun acted p hp => triple_pre (spec_pollOne pending.2 acted p) fun w _ h => h p hp) 0

theorem spec_expireOne (now expiryMinutes acted : Nat) (r : InitiatedReservationForTimer) :
    Spec options covered ordered t (fun _ => True) (expireOne now expiryMinutes acted r) (fun _ _ => True) := by
  unfold expireOne
  split_ifs
  · exact spec_ret _ _
  · exact spec_ret _ _
  · exact spec_then lasting_true (spec_any fun _ _ => trivial) fun expired => spec_ret _ _

theorem spec_expireUnfundedReservationsService :
    Spec options covered ordered t (fun _ => True) (expireUnfundedReservationsService expiryMinutes)
      (fun _ _ => True) := by
  refine spec_then lasting_true (spec_any fun _ _ => trivial) fun now => ?_
  refine spec_then lasting_true (spec_any fun _ _ => trivial) fun reservations => ?_
  refine spec_then lasting_true ?_ fun acted => spec_ret _ _
  exact spec_foldlM lasting_true _ _ (fun acted r _ => spec_expireOne now expiryMinutes acted r) 0

theorem spec_commitOne :
    Spec options covered ordered t (fun _ => True) (commitOne now acted offering) (fun _ _ => True) := by
  unfold commitOne
  split_ifs
  · exact spec_ret _ _
  · refine spec_then lasting_true (spec_any fun _ _ => trivial) fun result => ?_
    cases result with
    | ok => exact spec_ret _ _
    | error => exact spec_ret _ _

theorem spec_commitOfferingFinalizationService :
    Spec options covered ordered t (fun _ => True) commitOfferingFinalizationService (fun _ _ => True) := by
  refine spec_then lasting_true (spec_any fun _ _ => trivial) fun now => ?_
  refine spec_then lasting_true (spec_any fun _ _ => trivial) fun pending => ?_
  refine spec_then lasting_true ?_ fun acted => spec_ret _ _
  exact spec_foldlM lasting_true _ _ (fun acted o _ => spec_commitOne) 0

/-- A request that reads the clock, makes one transaction and answers. -/
theorem spec_request {op : Nat → Op} {report : (now : Nat) → (op now).Out → Run α}
    (hreq : ∀ now w, Req ordered (op now) w)
    (hreport : ∀ now a, (∃ b, report now a = .ret b) ∨ ∃ e, report now a = .fail e) :
    Spec options covered ordered t (fun _ => True)
      ((invoke .clock).bind fun now => (invoke (op now)).bind (report now)) (fun _ _ => True) := by
  refine spec_then lasting_true (spec_any fun _ _ => trivial) fun now => ?_
  refine spec_then lasting_true (spec_any fun w _ => hreq now w) fun a => ?_
  obtain ⟨b, hb⟩ | ⟨e, he⟩ := hreport now a
  · rw [hb]
    exact spec_ret b _
  · rw [he]
    exact triple_fail

theorem answer_ends (error : ε → AppError) (r : Except ε α) :
    (∃ b, answer error r = .ret b) ∨ ∃ e, answer error r = .fail e := by
  cases r with
  | ok a => exact .inl ⟨a, rfl⟩
  | error => exact .inr ⟨_, rfl⟩

/-- Every job meets the requirements of its calls. -/
theorem spec_job (options : CreateReservationServiceOptions) (j : Job) :
    Spec options covered ordered t (fun _ => True) (j.run options) (fun _ _ => True) := by
  have hend : ∀ {α : Type} {p : Run α}, Spec options covered ordered t (fun _ => True) p (fun _ _ => True) →
      Spec options covered ordered t (fun _ => True) (p.bind fun _ => .ret ()) (fun _ _ => True) :=
    fun hp => triple_bind hp fun _ => spec_ret () _
  cases j with
  | createReservation => exact hend (spec_createReservationService)
  | pollOnrampTransactions => exact hend spec_pollOnrampTransactionsService
  | expireUnfundedReservations => exact hend (spec_expireUnfundedReservationsService)
  | finalizeOffering | reconfirmReservation
  | publishDisclosurePack => exact hend (spec_request (fun _ _ => trivial) fun _ => answer_ends _)
  | commitOfferingFinalization => exact hend spec_commitOfferingFinalizationService
  | classifyMateriality =>
    exact hend (spec_request (fun _ _ => trivial) fun _ => answer_ends _)

theorem env_inv (hw : Inv covered ordered w) (h : env e w = some w') :
    Inv covered ordered w' ∧ Moves covered w w' := by
  cases e with
  | tick | setAccount =>
    cases h
    exact hw.same rfl rfl rfl
  | openOffering =>
    simp only [env] at h
    split_ifs at h with hc
    cases h
    simp only [not_or, not_isSome_iff_eq_none] at hc
    exact hw.openOffering hc.1 rfl

/-- The invariant survives every interleaving of jobs and events. -/
theorem sound_system (options : CreateReservationServiceOptions) (covered ordered : Prop) :
    Sound (system options) (guard covered ordered) (rules covered ordered) where
  job _ j := spec_job options j
  env _ _ _ hw _ h := ⟨(env_inv hw h).1, fun _ => (env_inv hw h).2⟩

end Specs

end Offering
