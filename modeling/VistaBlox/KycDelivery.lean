import VistaBlox.Kyc

/-!
# Webhooks of one session, in any order

A webhook older than the last recorded one is dropped, and the history of reviews is read
before the transaction that writes it: a late review is forgotten, and one recorded in
between is taken back.
-/
namespace Kyc

open Interleaving List Option

section Batch

/-- Webhooks of one baseline session in the order of their creation, with the
decision that the provider answers while each is processed. -/
structure Batch where
  cfg : Configuration
  accountId : AccountId
  diditReference : DiditReference
  webhooks : List DiditWebhook
  answers : DiditWebhook → DiditDecisionSummary
  ordered : webhooks.Pairwise fun h h' => h.createdAt < h'.createdAt
  distinct : webhooks.Pairwise fun h h' => h.eventId ≠ h'.eventId
  ofSession : ∀ h ∈ webhooks, h.isConfigured cfg = true ∧ h.workflowId = some cfg.workflowId ∧
    h.sessionId = diditReference ∧ h.vendorData = some accountId
  correlated : ∀ h ∈ webhooks, shouldFetchDecision (asDiditStatus h.status) = true →
    h.correlates accountId (answers h) = true

/-- The provider's client while one webhook is processed. -/
def answering (decision : DiditDecisionSummary) (sessionId : DiditReference) : Run DiditDecisionSummary := do
  let _ ← invoke (.getDecision sessionId)
  return decision

variable (B : Batch)

def Batch.program (h : DiditWebhook) : Run Unit := answered (processDiditWebhook B.cfg (answering (B.answers h)) h)

/-- The webhooks of the batch are processed, and nothing else happens. -/
def deliveries : Semantics World Choice Event { h // h ∈ B.webhooks } Failure Op Op.Out where
  exec := exec
  env := env
  job h := B.program h

def Batch.row (w : World) : Option KycEligibility := w.rows.find? (KycEligibility.hasReference B.diditReference)

def Batch.decision (h : DiditWebhook) : Option DiditDecisionSummary :=
  if shouldFetchDecision (asDiditStatus h.status) then some (B.answers h) else none

def Batch.input (h : DiditWebhook) (r : KycEligibility) : OutcomeInput := h.outcomeInput r (B.decision h)

/-- What a webhook makes of the row it finds. -/
def Batch.deliver (r : KycEligibility) (h : DiditWebhook) : KycEligibility :=
  if isStale r.providerUpdatedAt h.receivedAt then r else r.withOutcome (B.input h r)

/-- The processed webhooks, in the order of their creation. -/
def Batch.done (w : World) : List DiditWebhook := B.webhooks.filter fun h => w.auditKeys.contains (.webhook h.eventId)

end Batch

section Folds

variable {B : Batch} {r : KycEligibility} {h : DiditWebhook}

/-- What no webhook changes. -/
structure SameDeclaration (r r' : KycEligibility) : Prop where
  accountId : r'.accountId = r.accountId
  diditReference : r'.diditReference = r.diditReference
  residenceCountryCode : r'.residenceCountryCode = r.residenceCountryCode
  taxResidenceCountryCode : r'.taxResidenceCountryCode = r.taxResidenceCountryCode

theorem SameDeclaration.refl (r : KycEligibility) : SameDeclaration r r := ⟨rfl, rfl, rfl, rfl⟩

theorem deliver_sameDeclaration (r : KycEligibility) (h : DiditWebhook) : SameDeclaration r (B.deliver r h) := by
  unfold Batch.deliver
  split
  · exact .refl r
  · exact ⟨rfl, rfl, rfl, rfl⟩

theorem foldl_sameDeclaration (hs : List DiditWebhook) : ∀ r, SameDeclaration r (hs.foldl B.deliver r) := by
  induction hs with
  | nil => exact .refl
  | cons h hs ih =>
    intro r
    have hstep := deliver_sameDeclaration (B := B) r h
    have hrest := ih (B.deliver r h)
    exact ⟨hrest.accountId.trans hstep.accountId, hrest.diditReference.trans hstep.diditReference,
      hrest.residenceCountryCode.trans hstep.residenceCountryCode,
      hrest.taxResidenceCountryCode.trans hstep.taxResidenceCountryCode⟩

/-- The row has recorded something at least as late. -/
def Recorded (t : ℤ) (r : KycEligibility) : Prop := ∃ last, r.providerUpdatedAt = some last ∧ t ≤ last

theorem isStale_iff : isStale recorded t = true ↔ ∃ last, recorded = some last ∧ t < last := by
  cases recorded <;> simp [isStale]

theorem deliver_recorded (h : DiditWebhook) : Recorded h.receivedAt (B.deliver r h) := by
  unfold Batch.deliver
  split
  · rename_i hstale
    obtain ⟨last, hlast, hlt⟩ := isStale_iff.mp hstale
    exact ⟨last, hlast, Int.le_of_lt hlt⟩
  · exact ⟨h.receivedAt, rfl, Int.le_refl _⟩

theorem Recorded.deliver (hr : Recorded t r) (h : DiditWebhook) : Recorded t (B.deliver r h) := by
  unfold Batch.deliver
  split
  · exact hr
  · rename_i hfresh
    obtain ⟨last, hlast, hle⟩ := hr
    refine ⟨h.receivedAt, rfl, ?_⟩
    by_contra hlt
    exact hfresh (isStale_iff.mpr ⟨last, hlast, by omega⟩)

theorem Recorded.foldl (hs : List DiditWebhook) : ∀ r, Recorded t r → Recorded t (hs.foldl B.deliver r) := by
  induction hs with
  | nil => exact fun _ hr => hr
  | cons h hs ih => exact fun r hr => ih _ (hr.deliver h)

theorem foldl_recorded {hs : List DiditWebhook} (hh : h ∈ hs) (r : KycEligibility) :
    Recorded h.receivedAt (hs.foldl B.deliver r) := by
  obtain ⟨before, after, rfl⟩ := append_of_mem hh
  rw [foldl_append, foldl_cons]
  exact Recorded.foldl after _ (deliver_recorded h)

/-- An outcome that neither verifies nor asks for a manual review. -/
def KycPolicyOutcome.Harmless (o : KycPolicyOutcome) : Prop :=
  o.eligibilityState ≠ .eligible ∧ o.operationalSubstatus ≠ .kycManualReview

instance (o : KycPolicyOutcome) : Decidable o.Harmless := inferInstanceAs (Decidable (_ ∧ _))

theorem harmless_of_input (hr : SameDeclaration r r') (hh : (B.input h r').outcome.Harmless) :
    (B.input h r).outcome.Harmless := by
  simpa only [Batch.input, DiditWebhook.outcomeInput, evaluateDiditOutcome, StatusOutcome.withHistory,
    KycPolicyOutcome.Harmless, hr.residenceCountryCode, hr.taxResidenceCountryCode] using hh

theorem input_harmless (hh : (B.input h r).outcome.Harmless) :
    (B.input h r).outcome.lastVerifiedAt = none ∧ (B.input h r).outcome.renewalDueAt = none ∧
      (B.input h r).outcome.everRequiredManualReview = r.everRequiredManualReview := by
  obtain ⟨heligible, hreview⟩ := hh
  simp only [Batch.input, DiditWebhook.outcomeInput, evaluateDiditOutcome, StatusOutcome.withHistory,
    StatusOutcome.requiresManualReview] at heligible hreview ⊢
  obtain ⟨-, hverified⟩ | hplain := evaluateStatusOutcome_cases (asDiditStatus h.status) (B.decision h)
    r.residenceCountryCode r.taxResidenceCountryCode h.receivedAt
  · exact absurd (by rw [hverified]; rfl) heligible
  · exact ⟨hplain.lastVerifiedAt, if_neg heligible, by simp [hreview]⟩

theorem latest_latest (h : t < t') : latest (latest updatedAt t) t' = latest updatedAt t' := by
  simp only [latest]
  split_ifs <;> omega

theorem deliver_skip (hh : (B.input h r).outcome.Harmless) (hlt : h.receivedAt < q.receivedAt) :
    B.deliver (B.deliver r h) q = B.deliver r q := by
  by_cases hstale : isStale r.providerUpdatedAt h.receivedAt = true
  · rw [show B.deliver r h = r from if_pos hstale]
  · obtain ⟨hlast, hdue, hflag⟩ := input_harmless hh
    have hfresh : isStale r.providerUpdatedAt q.receivedAt = false := by
      by_contra hq
      obtain ⟨last, hrecorded, hq⟩ := isStale_iff.mp (by simpa using hq)
      exact hstale (isStale_iff.mpr ⟨last, hrecorded, by omega⟩)
    have hnext : isStale (some h.receivedAt) q.receivedAt = false := by
      simpa [isStale] using Int.le_of_lt hlt
    have hinput : B.input q (r.withOutcome (B.input h r)) = B.input q r := by
      simp only [Batch.input, DiditWebhook.outcomeInput, KycEligibility.withOutcome] at hflag ⊢
      rw [hflag]
    rw [show B.deliver r h = r.withOutcome (B.input h r) from if_neg hstale]
    have hleft : B.deliver (r.withOutcome (B.input h r)) q =
        (r.withOutcome (B.input h r)).withOutcome (B.input q (r.withOutcome (B.input h r))) :=
      if_neg (by rw [show (r.withOutcome (B.input h r)).providerUpdatedAt = some h.receivedAt from rfl, hnext]; decide)
    have hright : B.deliver r q = r.withOutcome (B.input q r) := if_neg (by rw [hfresh]; decide)
    rw [hleft, hright, hinput]
    simp only [KycEligibility.withOutcome, KycEligibility.substatusAfter, hlast, hdue, none_or]
    congr 1
    exact latest_latest hlt

theorem deliver_flag (r : KycEligibility) (h : DiditWebhook) (hr : r.everRequiredManualReview = true) :
    (B.deliver r h).everRequiredManualReview = true := by
  unfold Batch.deliver
  split
  · exact hr
  · simp [KycEligibility.withOutcome, Batch.input, DiditWebhook.outcomeInput, evaluateDiditOutcome,
      StatusOutcome.withHistory, hr]

end Folds

section Rules

variable (B : Batch)

/-- The outcome was computed from the row's own history, and where it comes too
late there is nothing to lose. -/
def OutcomeInput.InOrder (input : OutcomeInput) (current : KycEligibility) : Prop :=
  input.outcome.everRequiredManualReview =
      (current.everRequiredManualReview || decide (input.outcome.operationalSubstatus = .kycManualReview)) ∧
    (isStale current.providerUpdatedAt input.providerUpdatedAt = true → input.outcome.Harmless)

instance (input : OutcomeInput) (current : KycEligibility) : Decidable (input.InOrder current) :=
  inferInstanceAs (Decidable (_ ∧ (_ → _)))

def deliveredInOrder : Guard World Event Op where
  call _ op w := match op with
    | .applyProviderOutcome input => ∀ eventId, input.source = .webhook eventId → .webhook eventId ∉ w.auditKeys →
        ∀ current, w.rows.find? (KycEligibility.hasReference input.diditReference) = some current →
          input.InOrder current
    | _ => True
  env _ _ := True

/-- The row is what the processed webhooks make of the first one. -/
def Folded (r₀ : KycEligibility) (w : World) : Prop := B.row w = some ((B.done w).foldl B.deliver r₀)

def Flagged (w : World) : Prop := ∃ r, B.row w = some r ∧ r.everRequiredManualReview = true

def deliveryRules (r₀ : KycEligibility) : Rules World Op where
  inv := Folded B r₀
  rely _ w w' := Flagged B w → Flagged B w'
  req _ op _ := match op with
    | .hasProcessedProviderEvent _ => True
    | .findByDiditReference _ => True
    | .invalidateDisplayProfile _ => True
    | .getDecision _ => True
    | .applyProviderOutcome input => ∃ h ∈ B.webhooks, ∃ r, SameDeclaration r₀ r ∧ input = B.input h r
    | _ => False

end Rules

section Steps

variable {B : Batch} {r₀ : KycEligibility} {w w' : World}

theorem Folded.same (h : Folded B r₀ w) (hrows : w'.rows = w.rows) (hkeys : w'.auditKeys = w.auditKeys) :
    Folded B r₀ w' ∧ (Flagged B w → Flagged B w') := by
  have hrow : B.row w' = B.row w := by rw [Batch.row, hrows, Batch.row]
  have hdone : B.done w' = B.done w := by simp only [Batch.done, hkeys]
  refine ⟨by rw [Folded, hrow, hdone]; exact h, ?_⟩
  rintro ⟨r, hr, hflag⟩
  exact ⟨r, hrow.trans hr, hflag⟩

theorem input_eq (hsame : SameDeclaration r current) (horder : (B.input h r).InOrder current) :
    B.input h r = B.input h current := by
  simp only [Batch.input, DiditWebhook.outcomeInput, evaluateDiditOutcome, hsame.residenceCountryCode,
    hsame.taxResidenceCountryCode]
  rw [withHistory_congr horder.1]

theorem done_insert (hh : h ∈ B.webhooks) (hnew : .webhook h.eventId ∉ w.auditKeys)
    (hkeys : w'.auditKeys = w.auditKeys ++ [.webhook h.eventId]) :
    ∃ before after, B.done w = before ++ after ∧ B.done w' = before ++ h :: after ∧
      ∀ q ∈ after, h.receivedAt < q.receivedAt := by
  obtain ⟨pre, post, hsplit⟩ := append_of_mem hh
  have hordered := B.ordered
  have hdistinct := B.distinct
  rw [hsplit] at hordered hdistinct
  obtain ⟨-, hpost, hpre⟩ := pairwise_append.mp hdistinct
  have hother : ∀ q : DiditWebhook, q.eventId ≠ h.eventId →
      w'.auditKeys.contains (.webhook q.eventId) = w.auditKeys.contains (.webhook q.eventId) := by
    intro q hq
    simp [hkeys, hq]
  refine ⟨pre.filter fun q => w.auditKeys.contains (.webhook q.eventId),
    post.filter fun q => w.auditKeys.contains (.webhook q.eventId), ?_, ?_, fun q hq => ?_⟩
  · simp [Batch.done, hsplit, filter_append, hnew]
  · have hbefore : ∀ q ∈ pre, w'.auditKeys.contains (.webhook q.eventId) = w.auditKeys.contains (.webhook q.eventId) :=
      fun q hq => hother q (hpre q hq h (mem_cons_self ..))
    have hafter : ∀ q ∈ post, w'.auditKeys.contains (.webhook q.eventId) = w.auditKeys.contains (.webhook q.eventId) :=
      fun q hq => hother q ((pairwise_cons.mp hpost).1 q hq).symm
    have hself : w'.auditKeys.contains (.webhook h.eventId) = true := by simp [hkeys]
    rw [Batch.done, hsplit, filter_append, filter_cons, if_pos hself, filter_congr hbefore,
      filter_congr hafter]
  · have hlt := (pairwise_cons.mp (pairwise_append.mp hordered).2.1).1 q (mem_of_mem_filter hq)
    simp only [DiditWebhook.receivedAt]
    omega

theorem insert_fold {before after : List DiditWebhook} (hcurrent : current = (before ++ after).foldl B.deliver r₀)
    (hlater : ∀ q ∈ after, h.receivedAt < q.receivedAt)
    (hharmless : isStale current.providerUpdatedAt h.receivedAt = true → (B.input h current).outcome.Harmless) :
    B.deliver current h = (before ++ h :: after).foldl B.deliver r₀ := by
  cases after with
  | nil => rw [hcurrent, append_nil, foldl_append, foldl_cons, foldl_nil]
  | cons q rest =>
    -- something later is recorded, so this webhook is dropped
    have hstale : isStale current.providerUpdatedAt h.receivedAt = true := by
      have hq : q ∈ before ++ q :: rest := mem_append_right _ (mem_cons_self ..)
      obtain ⟨last, hlast, hle⟩ := foldl_recorded (B := B) hq r₀
      rw [← hcurrent] at hlast
      exact isStale_iff.mpr ⟨last, hlast, Int.lt_of_lt_of_le (hlater q (mem_cons_self ..)) hle⟩
    have hearlier : (B.input h (before.foldl B.deliver r₀)).outcome.Harmless := by
      refine harmless_of_input ?_ (hharmless hstale)
      rw [hcurrent, foldl_append]
      exact foldl_sameDeclaration _ _
    rw [show B.deliver current h = current from if_pos hstale, hcurrent, foldl_append, foldl_append,
      foldl_cons, foldl_cons, foldl_cons, deliver_skip hearlier (hlater q (mem_cons_self ..))]

theorem row_rewrite {rows : KycEligibility → Bool} {set : KycEligibility → KycEligibility} (hrow : B.row w = some r)
    (hset : ∀ x, (set x).diditReference = x.diditReference) (hr : rows r = true) :
    B.row (rewriteRows rows set w) = some (set r) := by
  have hsame : (KycEligibility.hasReference B.diditReference ∘ fun x => if rows x = true then set x else x) =
      KycEligibility.hasReference B.diditReference := by
    funext x
    simp only [Function.comp_apply, KycEligibility.hasReference]
    split
    · rw [hset]
    · rfl
  simp only [Batch.row] at hrow
  simp only [Batch.row, rewriteRows, find?_map, hsame, hrow, map_some, hr, if_true]

theorem applyProviderOutcome_row (id : Nat) (hnew : .webhook h.eventId ∉ w.auditKeys)
    (hsession : h.sessionId = B.diditReference) (hrow : B.row w = some current) :
    (applyProviderOutcome id (B.input h current) w).2.auditKeys = w.auditKeys ++ [.webhook h.eventId] ∧
      B.row (applyProviderOutcome id (B.input h current) w).2 = some (B.deliver current h) := by
  have hclaimed : ¬ w.auditKeys.contains ((B.input h current).source.key id) = true := by
    simpa [Batch.input, DiditWebhook.outcomeInput, EventSource.key] using hnew
  have hfind : w.rows.find? (KycEligibility.hasReference (B.input h current).diditReference) = some current := by
    rw [show (B.input h current).diditReference = B.diditReference from hsession]
    exact hrow
  rw [applyProviderOutcome, if_neg hclaimed, hfind]
  by_cases hstale : isStale current.providerUpdatedAt h.receivedAt = true
  · rw [show B.deliver current h = current from if_pos hstale]
    simp only [show (B.input h current).providerUpdatedAt = h.receivedAt from rfl, hstale, if_true]
    exact ⟨rfl, hrow⟩
  · rw [show B.deliver current h = current.withOutcome (B.input h current) from if_neg hstale]
    simp only [show (B.input h current).providerUpdatedAt = h.receivedAt from rfl, hstale]
    exact ⟨rfl, row_rewrite hrow (fun _ => rfl) (by simp [KycEligibility.isOf])⟩

theorem applyProviderOutcome_folded (hinv : Folded B r₀ w) (hh : h ∈ B.webhooks) (hsame : SameDeclaration r₀ r)
    (id : Nat)
    (horder : .webhook h.eventId ∉ w.auditKeys → ∀ current, B.row w = some current → (B.input h r).InOrder current) :
    Folded B r₀ (applyProviderOutcome id (B.input h r) w).2 ∧
      (Flagged B w → Flagged B (applyProviderOutcome id (B.input h r) w).2) := by
  by_cases hnew : .webhook h.eventId ∈ w.auditKeys
  · have hdup : w.auditKeys.contains ((B.input h r).source.key id) = true := by
      simpa [Batch.input, DiditWebhook.outcomeInput, EventSource.key] using hnew
    rw [applyProviderOutcome, if_pos hdup]
    exact ⟨hinv, fun hflag => hflag⟩
  · obtain ⟨current, hcurrent⟩ : ∃ current, current = (B.done w).foldl B.deliver r₀ := ⟨_, rfl⟩
    have hrow : B.row w = some current := by rw [hcurrent]; exact hinv
    have hdeclared : SameDeclaration r current := by
      have hfold := foldl_sameDeclaration (B := B) (B.done w) r₀
      rw [← hcurrent] at hfold
      exact ⟨hfold.accountId.trans hsame.accountId.symm, hfold.diditReference.trans hsame.diditReference.symm,
        hfold.residenceCountryCode.trans hsame.residenceCountryCode.symm,
        hfold.taxResidenceCountryCode.trans hsame.taxResidenceCountryCode.symm⟩
    have hinput := input_eq hdeclared (horder hnew current hrow)
    have hharmless := (horder hnew current hrow).2
    rw [hinput] at hharmless ⊢
    obtain ⟨hkeys, hafter⟩ := applyProviderOutcome_row id hnew (B.ofSession h hh).2.2.1 hrow
    obtain ⟨before, after, hdone, hinsert, hlater⟩ := done_insert hh hnew hkeys
    refine ⟨?_, ?_⟩
    · rw [Folded, hafter, hinsert, insert_fold (hdone ▸ hcurrent) hlater hharmless]
    · rintro ⟨r', hr', hflag⟩
      cases hrow.symm.trans hr'
      exact ⟨_, hafter, deliver_flag current h hflag⟩

end Steps

variable {c : Choice} {op : Op} {target : KycEligibility} {w w' : World}

section Programs

variable {B : Batch} {r₀ : KycEligibility} {t : Nat}

/-- Every operation keeps the row the fold of what has been delivered. -/
theorem run_folded (hinv : Folded B r₀ w) (hreq : (deliveryRules B r₀).req t op w)
    (hguard : deliveredInOrder.call t op w) (hrun : op.run c w = some (a, w')) :
    Folded B r₀ w' ∧ (Flagged B w → Flagged B w') := by
  cases op with
  | applyProviderOutcome input =>
    obtain ⟨h, hh, r, hsame, rfl⟩ := hreq
    simp only [Op.run, ite_none_left_eq_some, some.injEq] at hrun
    have hw : _ = w' := congrArg Prod.snd hrun.2
    rw [← hw]
    refine applyProviderOutcome_folded hinv hh hsame c.id fun hnew current hrow => ?_
    refine hguard h.eventId rfl hnew current ?_
    rw [show (B.input h r).diditReference = B.diditReference from (B.ofSession h hh).2.2.1]
    exact hrow
  | hasProcessedProviderEvent | findByDiditReference | invalidateDisplayProfile
  | getDecision =>
    cases hrun
    exact hinv.same rfl rfl
  | _ => exact absurd hreq id

theorem step_folded (hinv : Folded B r₀ w) (hreq : (deliveryRules B r₀).req t op w)
    (hguard : deliveredInOrder.call t op w) (hexec : (deliveries B).exec t op c w = some (r, w')) :
    Folded B r₀ w' ∧ (Flagged B w → Flagged B w') := by
  obtain ⟨a, hrun, -, -⟩ | ⟨-, rfl⟩ := exec_inv (t := t) hexec
  · exact run_folded hinv hreq hguard hrun
  · exact ⟨hinv, fun hflag => hflag⟩

abbrev DeliverySpec (B : Batch) (r₀ : KycEligibility) (t : Nat) {α : Type} :=
  Triple (α := α) (deliveries B) deliveredInOrder (deliveryRules B r₀) t fun _ => True

theorem delivery_call {Q : op.Out → Prop} (hreq : ∀ w, (deliveryRules B r₀).req t op w)
    (hpost : ∀ w c a w', Folded B r₀ w → op.run c w = some (a, w') → Q a) :
    DeliverySpec B r₀ t (invoke op) fun a _ => Q a := by
  refine triple_perform (fun w _ _ => hreq w) (fun w c r w' hinv _ hg hexec => ?_) fun a w w' _ _ _ hQ => hQ
  obtain ⟨hfolded, hflag⟩ := step_folded hinv (hreq w) hg hexec
  refine ⟨hfolded, fun _ _ => hflag, fun a ha => ?_⟩
  subst ha
  exact hpost w c a w' hinv (exec_ok (t := t) hexec)

theorem delivery_applyWebhook (hh : h ∈ B.webhooks) (hsame : SameDeclaration r₀ target) :
    DeliverySpec B r₀ t
      (applyWebhook h target (B.decision h) .baselineKyc) fun _ _ => True :=
  triple_bind (delivery_call (fun _ => ⟨h, hh, target, hsame, rfl⟩) fun _ _ _ _ _ _ => trivial)
    fun _ => triple_done

theorem delivery_decideWebhook (hh : h ∈ B.webhooks) (hsame : SameDeclaration r₀ target)
    (haccount : r₀.accountId = B.accountId) :
    DeliverySpec B r₀ t
      (decideWebhook (answering (B.answers h)) h target .baselineKyc) fun _ _ => True := by
  have happly := delivery_applyWebhook (t := t) hh hsame
  unfold decideWebhook
  split
  · rename_i hfetch
    have hanswer : DeliverySpec B r₀ t
        (answering (B.answers h) h.sessionId) fun decision _ => decision = B.answers h :=
      triple_bind (delivery_call (fun _ => trivial) fun _ _ _ _ _ _ => trivial) fun _ => triple_ret fun _ _ _ => rfl
    refine triple_bind hanswer fun decision => triple_pre (triple_const (P := fun _ => True) fun hdecision => ?_)
      fun _ _ h => ⟨h, trivial⟩
    have hcorrelates : h.correlates target.accountId decision = true := by
      rw [hdecision, hsame.accountId, haccount]
      exact B.correlated h hh hfetch
    rw [if_pos hcorrelates, hdecision]
    rw [Batch.decision, if_pos hfetch] at happly
    exact happly
  · rename_i hfetch
    rw [Batch.decision, if_neg hfetch] at happly
    exact happly

theorem purpose_of_session (hh : h ∈ B.webhooks) : purpose B.cfg h.workflowId = some .baselineKyc := by
  rw [purpose, if_pos (B.ofSession h hh).2.1]

theorem delivery_program (hh : h ∈ B.webhooks) (haccount : r₀.accountId = B.accountId) :
    DeliverySpec B r₀ t (B.program h) fun _ _ => True := by
  refine triple_bind (Q := fun _ _ => True) ?_ fun _ => triple_done
  obtain ⟨hconfigured, -, hsession, hvendor⟩ := B.ofSession h hh
  refine triple_bind (delivery_call (Q := fun _ => True) (fun _ => trivial) fun _ _ _ _ _ _ => trivial)
    fun processed => ?_
  split
  · exact triple_done
  · simp only [purpose_of_session hh]
    have hfind : DeliverySpec B r₀ t
        (findTarget h.sessionId .baselineKyc) fun found _ => ∃ target, found = some target ∧
          SameDeclaration r₀ target := by
      refine delivery_call (fun _ => trivial) fun w c found w' hinv hrun => ?_
      cases hrun
      rw [hsession]
      exact ⟨_, hinv, foldl_sameDeclaration _ _⟩
    refine triple_bind hfind fun found => triple_pre (triple_const (P := fun _ => True) fun hfound => ?_)
      fun _ _ h => ⟨h, trivial⟩
    obtain ⟨target, rfl, hsame⟩ := hfound
    have hours : ¬ h.vendorData ≠ some target.accountId := by
      rw [hsame.accountId, haccount]
      exact fun hother => hother hvendor
    simp only [if_neg hours]
    refine triple_bind (Q := fun _ _ => True) ?_ fun _ => delivery_decideWebhook hh hsame haccount
    exact triple_catch_any (delivery_call (fun _ => trivial) fun _ _ _ _ _ _ => trivial)
      fun _ => triple_done

/-- The row is that fold however the deliveries interleave. -/
theorem delivery_sound (haccount : r₀.accountId = B.accountId) :
    Interleaving.Sound (deliveries B) deliveredInOrder (deliveryRules B r₀) where
  job _ j := delivery_program j.2 haccount
  env e w w' hinv _ henv := by
    cases e with
    | tick =>
      obtain ⟨-, hsome⟩ := ite_none_right_eq_some.mp henv
      cases hsome
      exact ⟨(hinv.same rfl rfl).1, fun _ => (hinv.same rfl rfl).2⟩
    | report =>
      cases henv
      exact ⟨(hinv.same rfl rfl).1, fun _ => (hinv.same rfl rfl).2⟩

end Programs

section InOrder

variable {B : Batch}

/-- Nothing throws. -/
def calm : Choice := ⟨none, 0, (.notStarted, 0, 0), 0⟩

variable (B) in
/-- One webhook is processed while nothing else happens. -/
def processOnce (w : World) (h : DiditWebhook) : World :=
  match (deliveries B).alone 0 calm (B.program h) w with
  | some (_, w') => w'
  | none => w

variable (B) in
/-- Each webhook once, in the order of creation. -/
def processInOrder (w : World) : World := B.webhooks.foldl (processOnce B) w

theorem yields_invoke (hrun : op.run calm w = some (a, w')) (hfree : op.conflicts w = false) :
    Yields (deliveries B) 0 calm (· = w) (invoke op) a (· = w') := by
  refine yields_perform fun v hv => ⟨w', ?_, rfl⟩
  subst hv
  show exec 0 op calm v = _
  rw [exec, hrun, hfree]
  rfl

theorem yields_decideWebhook (hh : h ∈ B.webhooks) (haccount : r.accountId = B.accountId) :
    ∃ answer, Yields (deliveries B) 0 calm (· = w) (decideWebhook (answering (B.answers h)) h r .baselineKyc) answer
      (· = (applyProviderOutcome calm.id (B.input h r) w).2) := by
  have happly : Yields (deliveries B) 0 calm (· = w) (applyWebhook h r (B.decision h) .baselineKyc)
      (answerOf (applyProviderOutcome calm.id (B.input h r) w).1)
      (· = (applyProviderOutcome calm.id (B.input h r) w).2) := by
    have hwebhook : ¬ ((B.input h r).source = .reconciliation ∧ EventKey.reconciliation calm.id ∈ w.auditKeys) := by
      rintro ⟨hpoll, -⟩
      cases hpoll
    have hrun : Op.run calm w (.applyProviderOutcome (B.input h r)) =
        some ((applyProviderOutcome calm.id (B.input h r) w).1, (applyProviderOutcome calm.id (B.input h r) w).2) := by
      rw [Op.run, if_neg hwebhook]
    exact yields_bind (yields_invoke hrun rfl) (yields_ret _)
  refine ⟨answerOf (applyProviderOutcome calm.id (B.input h r) w).1, ?_⟩
  unfold decideWebhook
  by_cases hfetch : shouldFetchDecision (asDiditStatus h.status) = true
  · have hcorrelates : h.correlates r.accountId (B.answers h) = true := by
      rw [haccount]
      exact B.correlated h hh hfetch
    rw [if_pos hfetch]
    have hanswer : Yields (deliveries B) 0 calm (· = w) (answering (B.answers h) h.sessionId) (B.answers h) (· = w) :=
      yields_bind (yields_invoke rfl rfl) (yields_ret _)
    refine yields_bind hanswer ?_
    rw [if_pos hcorrelates]
    rw [Batch.decision, if_pos hfetch] at happly
    exact happly
  · rw [if_neg hfetch]
    rw [Batch.decision, if_neg hfetch] at happly
    exact happly

theorem processOnce_eq (hh : h ∈ B.webhooks) (hrow : B.row w = some r) (haccount : r.accountId = B.accountId)
    (hnew : .webhook h.eventId ∉ w.auditKeys) :
    processOnce B w h = (applyProviderOutcome calm.id (B.input h r) w).2 := by
  obtain ⟨hconfigured, -, hsession, hvendor⟩ := B.ofSession h hh
  obtain ⟨answer, hdecide⟩ := yields_decideWebhook (w := w) hh haccount
  have hprocess : Yields (deliveries B) 0 calm (· = w) (processDiditWebhook B.cfg (answering (B.answers h)) h) answer
      (· = (applyProviderOutcome calm.id (B.input h r) w).2) := by
    have hkey : Op.run calm w (.hasProcessedProviderEvent h.eventId) = some (false, w) := by simp [Op.run, hnew]
    refine yields_bind (yields_invoke hkey rfl) ?_
    simp only [Bool.false_eq_true, if_false, hconfigured, if_true, purpose_of_session hh]
    have hfind : Op.run calm w (.findByDiditReference h.sessionId) = some (some r, w) := by
      rw [Op.run, hsession]
      exact congrArg (fun found => some (found, w)) hrow
    refine yields_bind (yields_invoke hfind rfl) ?_
    have hours : ¬ h.vendorData ≠ some r.accountId := by
      rw [haccount]
      exact fun hother => hother hvendor
    simp only [if_neg hours]
    exact yields_bind (yields_catchWith (yields_invoke rfl rfl)) hdecide
  have hprogram : Yields (deliveries B) 0 calm (· = w) (B.program h) ()
      (· = (applyProviderOutcome calm.id (B.input h r) w).2) := yields_bind hprocess (yields_ret ())
  obtain ⟨w', hw', rfl⟩ := hprogram w rfl
  rw [processOnce, hw']

theorem foldl_processOnce (hs : List DiditWebhook) (hmem : ∀ h ∈ hs, h ∈ B.webhooks)
    (hdistinct : hs.Pairwise fun h h' => h.eventId ≠ h'.eventId) :
    ∀ w r, B.row w = some r → r.accountId = B.accountId → (∀ h ∈ hs, .webhook h.eventId ∉ w.auditKeys) →
      B.row (hs.foldl (processOnce B) w) = some (hs.foldl B.deliver r) := by
  induction hs with
  | nil => exact fun w r hrow _ _ => hrow
  | cons h hs ih =>
    intro w r hrow haccount hnew
    have hh := hmem h (mem_cons_self ..)
    obtain ⟨hkeys, hnext⟩ := applyProviderOutcome_row calm.id (hnew h (mem_cons_self ..))
      (B.ofSession h hh).2.2.1 hrow
    rw [← processOnce_eq hh hrow haccount (hnew h (mem_cons_self ..))] at hkeys hnext
    have hfirst := (pairwise_cons.mp hdistinct).1
    refine ih (fun q hq => hmem q (mem_cons_of_mem _ hq)) (pairwise_cons.mp hdistinct).2 _ _ hnext
      ((deliver_sameDeclaration r h).accountId.trans haccount) fun q hq => ?_
    rw [hkeys]
    simp [hnew q (mem_cons_of_mem _ hq), (hfirst q hq).symm]

end InOrder

/-- Once every webhook of the batch has been processed, the row is the one that
processing each once in the order of creation gives; and a recorded manual review
is never forgotten. -/
theorem outcome_independent_of_delivery (B : Batch) (w₀ : World) (r₀ : KycEligibility) (hrow : B.row w₀ = some r₀)
    (haccount : r₀.accountId = B.accountId) (hnew : ∀ h ∈ B.webhooks, .webhook h.eventId ∉ w₀.auditKeys)
    (m s : Config World Failure Op Op.Out) (hm : Reachable (deliveries B) deliveredInOrder (idle w₀) m)
    (hs : Reachable (deliveries B) deliveredInOrder m s) :
    ((∀ h ∈ B.webhooks, .webhook h.eventId ∈ s.world.auditKeys) → B.row s.world = B.row (processInOrder B w₀)) ∧
      ((∃ r, B.row m.world = some r ∧ r.everRequiredManualReview = true) →
        ∃ r, B.row s.world = some r ∧ r.everRequiredManualReview = true) := by
  have hstart : Folded B r₀ w₀ := by
    have hnone : B.done w₀ = [] := filter_eq_nil_iff.mpr fun h hh => by simpa using hnew h hh
    rw [Folded, hnone]
    exact hrow
  have hsound : Interleaving.Sound (deliveries B) deliveredInOrder (deliveryRules B r₀) := delivery_sound haccount
  have hsecure := hm.secure hsound (secure_idle w₀ hstart)
  refine ⟨fun hall => ?_, ?_⟩
  · have hdone : B.done s.world = B.webhooks := filter_eq_self.mpr fun h hh => by simpa using hall h hh
    have hfold : Folded B r₀ s.world := (hs.secure hsound hsecure).1
    rw [Folded, hdone] at hfold
    rw [hfold, processInOrder, foldl_processOnce B.webhooks (fun _ h => h) B.distinct w₀ r₀ hrow haccount hnew]
  · exact hs.related hsound hsecure (fun w w' => Flagged B w → Flagged B w') (fun _ h => h)
      (fun _ _ _ hab hbc h => hbc (hab h)) fun _ _ _ hrely => hrely

def sampleCfg : Configuration := ⟨1, none, 1, "live", 900000, 3600000⟩

/-- A decision on session 5 of account 1 in which every feature is approved. -/
def sampleDecision (status : DiditStatus) : DiditDecisionSummary where
  sessionId := 5
  sessionKind := some "user"
  workflowId := some 1
  vendorData := some 1
  status := some status
  idVerifications := [⟨⟨"Approved", []⟩, some "1990-01-01"⟩]
  livenessChecks := [⟨"Approved", []⟩]
  faceMatches := [⟨"Approved", []⟩]
  amlScreenings := [⟨⟨"Approved", []⟩, none⟩]
  proofOfAddressVerifications := []

def sampleWebhook (eventId : EventId) (status : DiditStatus) (createdAt : ℤ) : DiditWebhook :=
  ⟨eventId, "status.updated", 1, "live", 5, some "user", some 1, some 1, status.text, createdAt⟩

/-- Session 5 goes to review and is approved afterwards. -/
def sampleBatch : Batch where
  cfg := sampleCfg
  accountId := 1
  diditReference := 5
  webhooks := [sampleWebhook 1 .inReview 1700000000, sampleWebhook 2 .approved 1700000100]
  answers h := sampleDecision ((asDiditStatus h.status).getD .notStarted)
  ordered := by decide
  distinct := by decide
  ofSession := by decide +kernel
  correlated := by decide +kernel

/-- Account 1 from Germany, whose session 5 was opened at `updatedAt`. -/
def sampleRow (updatedAt : ℤ) : KycEligibility :=
  KycEligibility.open 5 .notStarted updatedAt (newRow 1 7 "DE" "DE" updatedAt)

def sampleWorld : World where
  now := 1700000000000
  accounts := [⟨1, none⟩]
  rows := [sampleRow 1699999000000]
  history := []
  auditKeys := []
  startIds := [7]
  sessions := [5]
  decisions := fun _ => sampleDecision .notStarted
  log := []

instance (t : Nat) (op : Op) (w : World) : Decidable (deliveredInOrder.call t op w) := by
  induction op using Op.casesOn <;> (dsimp only [deliveredInOrder]; infer_instance)

def sampleReview : { h // h ∈ sampleBatch.webhooks } := ⟨sampleWebhook 1 .inReview 1700000000, by decide⟩

def sampleApproval : { h // h ∈ sampleBatch.webhooks } := ⟨sampleWebhook 2 .approved 1700000100, by decide⟩

abbrev SampleAction := Action Choice Event { h // h ∈ sampleBatch.webhooks }

def sampleCalls (t n : Nat) : List SampleAction := List.replicate n (.call t calm)

/-- The approval is processed twice, and the two overlap. -/
def sampleOverlap : List SampleAction :=
  .spawn 0 sampleReview :: sampleCalls 0 5 ++ [.spawn 1 sampleApproval, .spawn 2 sampleApproval] ++
    sampleCalls 1 4 ++ sampleCalls 2 4 ++ sampleCalls 1 1 ++ sampleCalls 2 1

def allProcessed (w : World) : Bool := sampleBatch.webhooks.all fun h => w.auditKeys.contains (.webhook h.eventId)

theorem outcome_independent_of_delivery_sample : ∃ s,
    Reachable (deliveries sampleBatch) deliveredInOrder (idle sampleWorld) s ∧ allProcessed s.world = true ∧
      sampleBatch.row s.world = sampleBatch.row (processInOrder sampleBatch sampleWorld) := by
  obtain ⟨s, hrun, hlook⟩ := exists_of_play (deliveries sampleBatch)
    (deliveredInOrder.allows_of_decide fun _ _ => trivial) sampleOverlap
    (idle sampleWorld) (fun s => allProcessed s.world) (by decide +kernel)
  refine ⟨s, hrun, hlook, (outcome_independent_of_delivery sampleBatch sampleWorld (sampleRow 1699999000000)
    (by decide +kernel) rfl (by decide +kernel) _ s .refl hrun).1 fun h hh => ?_⟩
  simpa using List.all_eq_true.mp hlook h hh

/-- The approval comes first. -/
def sampleReversed : List SampleAction :=
  .spawn 0 sampleApproval :: sampleCalls 0 5 ++ .spawn 1 sampleReview :: sampleCalls 1 5

/-- The approval has read the row before the review is recorded. -/
def sampleReadFirst : List SampleAction :=
  .spawn 0 sampleApproval :: sampleCalls 0 4 ++ .spawn 1 sampleReview :: sampleCalls 1 5

def reviewAndRenewal (w : World) : Option (Bool × Option ℤ) :=
  (sampleBatch.row w).map fun r => (r.everRequiredManualReview, r.renewalDueAt)

/-- The renewal falls due after 24 months instead of 12, and the review is
forgotten; and a review that was recorded is taken back. -/
theorem outcome_depends_on_delivery :
    (∃ s, Reachable (deliveries sampleBatch) Guard.free (idle sampleWorld) s ∧ allProcessed s.world = true ∧
      reviewAndRenewal s.world = some (false, some (addUtcMonths 1700000100000 24)) ∧
      reviewAndRenewal (processInOrder sampleBatch sampleWorld) = some (true, some (addUtcMonths 1700000100000 12))) ∧
    ∃ m s, Reachable (deliveries sampleBatch) Guard.free (idle sampleWorld) m ∧
      Reachable (deliveries sampleBatch) Guard.free m s ∧
      (reviewAndRenewal m.world).map Prod.fst = some true ∧ (reviewAndRenewal s.world).map Prod.fst = some false := by
  refine ⟨?_, ?_⟩
  · obtain ⟨s, hrun, hlook⟩ := exists_of_play (deliveries sampleBatch) Guard.allows_free sampleReversed
      (idle sampleWorld) (fun s => allProcessed s.world = true ∧
        reviewAndRenewal s.world = some (false, some (addUtcMonths 1700000100000 24))) (by decide +kernel)
    obtain ⟨hall, hrow⟩ := of_decide_eq_true hlook
    exact ⟨s, hrun, hall, hrow, by decide +kernel⟩
  · obtain ⟨m, s, hm, hs, hlook⟩ := exists_of_play_play (deliveries sampleBatch) Guard.allows_free
      sampleReadFirst (sampleCalls 0 1) (idle sampleWorld) (fun m s =>
        (reviewAndRenewal m.world).map Prod.fst = some true ∧ (reviewAndRenewal s.world).map Prod.fst = some false)
      (by decide +kernel)
    exact ⟨m, s, hm, hs, of_decide_eq_true hlook⟩

end Kyc
