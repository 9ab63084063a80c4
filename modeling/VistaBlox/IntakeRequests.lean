import VistaBlox.IntakeRows

/-!
# Information requests and the stage

A case waits while an information request is published. An answer, an expiry and a
withdrawal resolve the request and move the case on; closing the case leaves the request as
it is.
-/
namespace Intake

open List Option

open Offering (AccountId)
open Function (update)

section Timers

variable (protectedContactEmail : AccountId → Option String)

structure PublishedInformationRequestForTimer where
  requestId : RequestId
  caseId : CaseId
  applicantAccountId : AccountId
  applicantContactEmail : Option String
  publishedAt : Nat
  dueAt : Nat
  deriving DecidableEq

def listPublishedInformationRequestsForTimers (w : Database) : List PublishedInformationRequestForTimer :=
  (w.informationRequests.filter fun r => r.status = .published).filterMap fun r =>
    (w.intakeCase r.caseId).map fun c =>
      ⟨r.id, r.caseId, c.applicantAccountId, protectedContactEmail c.applicantAccountId, r.publishedAt, r.dueAt⟩

structure ReminderEmail where
  recipient : String
  dueAt : Nat
  deriving DecidableEq

/-- `SendApplicantResponseRemindersService`: the mails of one run, where `isApplicantReminderDue` is asked about the
day a request was published. -/
def sendApplicantResponseReminders (isApplicantReminderDue : Nat → Bool) (w : Database) : List ReminderEmail :=
  (listPublishedInformationRequestsForTimers protectedContactEmail w).filterMap fun request =>
    match request.applicantContactEmail with
    | none => none
    | some address => if isApplicantReminderDue request.publishedAt then some ⟨address, request.dueAt⟩ else none

def isInformationRequestOverdue (dueAt now : Nat) : Bool := dueAt < now

/-- `ExpireOverdueInformationRequestsService`: the transactions of one run, each with its own identifiers. -/
def expireOverdueInformationRequests (fresh : RequestId → Nat → Nat) (now : Nat) (w : Database) : List Operation :=
  ((listPublishedInformationRequestsForTimers protectedContactEmail w).filter fun request =>
    isInformationRequestOverdue request.dueAt now).map fun request =>
      .expireInformationRequest (fresh request.requestId) request.caseId request.requestId now none

end Timers

variable {f : InformationRequest → InformationRequest} {r : InformationRequest} {requestId : RequestId}

section Tracking

variable {rows : CaseId → Option IntakeCase} {requests : List InformationRequest} {id caseId : CaseId}
    {c c' : IntakeCase}

def publishedOf (requests : List InformationRequest) (id : CaseId) : List InformationRequest :=
  requests.filter fun r => r.caseId = id ∧ r.status = .published

def waits (rows : CaseId → Option IntakeCase) (id : CaseId) : Bool :=
  (rows id).any fun c => c.stage = .waitingOnApplicant

/-- One request is published for every case that waits, and none for the others. -/
structure Tracks (rows : CaseId → Option IntakeCase) (requests : List InformationRequest) : Prop where
  keyed : Table.Keyed InformationRequest.id requests
  published : ∀ id, (publishedOf requests id).length = (waits rows id).toNat

theorem waits_update : waits (update rows caseId (some c)) id =
    if id = caseId then decide (c.stage = .waitingOnApplicant) else waits rows id := by
  by_cases h : id = caseId
  · simp [waits, h]
  · simp [waits, h]

theorem waits_some (h : rows id = some c) : waits rows id = decide (c.stage = .waitingOnApplicant) := by
  simp [waits, h]

theorem waits_row (w : Database) (id : CaseId) : waits w.row id = decide (w.stageOf id = .waitingOnApplicant) := by
  cases h : w.intakeCase id with
  | none => simp [waits, Database.row, Database.stageOf, h]
  | some => simp [waits, Database.row, Database.stageOf, h, uncounted]

theorem Tracks.rewrite (h : Tracks rows requests)
    (hwaits : waits rows caseId = decide (c'.stage = .waitingOnApplicant)) :
    Tracks (update rows caseId (some c')) requests := by
  refine ⟨h.keyed, fun id => ?_⟩
  rw [h.published, waits_update]
  split
  · rename_i heq
    rw [heq, hwaits]
  · rfl

theorem Tracks.awaken (h : Tracks rows requests) (hrow : rows caseId = some c) (hstage : c.stage ≠ .waitingOnApplicant)
    (hstage' : c'.stage ≠ .waitingOnApplicant) : Tracks (update rows caseId (some c')) requests :=
  h.rewrite (by simp [waits_some hrow, hstage, hstage'])

theorem Tracks.add (h : Tracks rows requests) (hrow : rows caseId = none) (hstage' : c'.stage ≠ .waitingOnApplicant) :
    Tracks (update rows caseId (some c')) requests :=
  h.rewrite (by simp [waits, hrow, hstage'])

theorem Tracks.publish (h : Tracks rows requests) (hrow : rows r.caseId = some c)
    (hstage : c.stage ≠ .waitingOnApplicant) (hstage' : c'.stage = .waitingOnApplicant)
    (hstatus : r.status = .published) (hnew : ∀ x ∈ requests, x.id ≠ r.id) :
    Tracks (update rows r.caseId (some c')) (requests ++ [r]) := by
  refine ⟨h.keyed.append (find?_eq_none.mpr fun x hx => by simpa using hnew x hx), fun id => ?_⟩
  have happend : publishedOf (requests ++ [r]) id = publishedOf requests id ++ if r.caseId = id then [r] else [] := by
    simp [publishedOf, filter_append, filter_cons, hstatus]
  rw [happend, length_append, h.published, waits_update]
  by_cases heq : id = r.caseId
  · subst heq
    simp [waits_some hrow, hstage, hstage']
  · simp [heq, Ne.symm heq]

theorem publishedOf_resolve (hf : ∀ r, (f r).status ≠ .published) :
    publishedOf (Table.update InformationRequest.id requests requestId f) id =
      (publishedOf requests id).filter fun r => r.id ≠ requestId := by
  induction requests with
  | nil => rfl
  | cons r requests ih =>
    simp only [Table.update, publishedOf] at ih
    simp only [Table.update, publishedOf, map_cons, filter_cons, ih]
    by_cases hid : r.id = requestId
    · by_cases hpublished : r.caseId = id ∧ r.status = .published
      · simp [hid, hf, hpublished]
      · simp [hid, hf, hpublished]
    · by_cases hpublished : r.caseId = id ∧ r.status = .published
      · simp [hid, hpublished]
      · simp [hid, hpublished]

theorem Tracks.resolve (h : Tracks rows requests) (hf : ∀ r, (f r).id = r.id ∧ (f r).status ≠ .published)
    (hrow : rows caseId = some c) (hstage : c.stage = .waitingOnApplicant)
    (hstage' : c'.stage ≠ .waitingOnApplicant)
    (hrequest : ∃ r ∈ requests, r.id = requestId ∧ r.caseId = caseId ∧ r.status = .published) :
    Tracks (update rows caseId (some c')) (Table.update InformationRequest.id requests requestId f) := by
  obtain ⟨r, hr, rfl, rfl, hstatus⟩ := hrequest
  refine ⟨h.keyed.map fun x _ => ?_, fun id => ?_⟩
  · split
    · exact (hf x).1
    · rfl
  rw [publishedOf_resolve fun x => (hf x).2, waits_update]
  by_cases heq : id = r.caseId
  · subst heq
    -- the case had one published request, and this was it
    have hone := h.published r.caseId
    rw [waits_some hrow, hstage] at hone
    obtain ⟨only, honly⟩ := length_eq_one_iff.mp hone
    have hmem : r ∈ publishedOf requests r.caseId := mem_filter.mpr ⟨hr, by simp [hstatus]⟩
    rw [honly, mem_singleton] at hmem
    rw [honly, if_pos rfl, hmem]
    simp [hstage']
  · have hkeep : ∀ x ∈ publishedOf requests id, decide (x.id ≠ r.id) = true := by
      intro x hx
      obtain ⟨hmem, hcase⟩ := mem_filter.mp hx
      simp only [decide_eq_true_eq] at hcase ⊢
      intro hid
      rw [h.keyed.eq_of_key hmem hr hid] at hcase
      exact heq hcase.1.symm
    rw [filter_eq_self.mpr hkeep, h.published, if_neg heq]

end Tracking

section Runs

variable {w w' : Database} {t : Trace} {op : Operation}

/-- No case that waits on its applicant is closed. -/
def ClosesNoWaiting (t : Trace) : Operation → Prop
  | .closeCase _ input => t.tables.stageOf input.caseId ≠ .waitingOnApplicant
  | _ => True

theorem ReversalCommand.not_waiting {command : ReversalCommand} (h : command ≠ .withdrawInformationRequest) :
    command.source ≠ .waitingOnApplicant ∧ command.target ≠ .waitingOnApplicant := by
  cases command with
  | withdrawInformationRequest => exact absurd rfl h
  | _ => exact ⟨by decide, by decide⟩

theorem TableStep.tracks {rows : CaseId → Option IntakeCase} {revisions : List SubmissionRevision}
    {requests : List InformationRequest} {links : Links} (hstep : TableStep t.tables op rows revisions requests links)
    (hallowed : ClosesNoWaiting t op) (h : Tracks t.tables.row t.tables.informationRequests) :
    Tracks rows requests := by
  cases hstep with
  | outside => exact h
  | draft hnew | staff hnew => exact h.add hnew nofun
  | submit hrow hstage | reject hrow hstage | approve hrow hstage
  | handoff _ hrow hstage => exact h.awaken hrow (by simp [hstage]) nofun
  | @publish fresh caseId _ publishedAt dueAt _ hrow hstage _ hnew =>
    exact h.publish (r := ⟨fresh 0, caseId, .published, publishedAt, dueAt, none, none⟩) hrow
      (by simp [hstage]) rfl rfl
      hnew
  | expire hrow hstage hrequest | withdraw hrow hstage hrequest
  | resubmit hrow hstage hrequest => exact h.resolve (fun _ => ⟨rfl, nofun⟩) hrow hstage nofun hrequest
  | @close _ input _ hrow _ =>
    refine h.awaken hrow ?_ ?_
    · rw [← stageOf_row hrow]
      exact hallowed
    · cases input.outcome <;> exact nofun
  | @assign _ _ c _ _ hrow => exact h.rewrite (waits_some (c := c) hrow)
  | @writeback _ _ _ _ _ _ _ _ _ _ both hkind hrow hstage =>
    refine h.awaken hrow (by simp [hstage]) ?_
    cases both <;> cases hkind <;> simp [completeStructuring, hstage]
  | execute _ hrow hstage hcommand =>
    obtain ⟨hsource, htarget⟩ := ReversalCommand.not_waiting hcommand
    refine h.awaken hrow (by rw [hstage]; exact hsource) ?_
    rw [ReversalCommand.apply_stage hcommand]
    exact htarget

/-- The requests track the stage in every run that closes no waiting case. -/
theorem CaseRun.tracks (h : CaseRun ClosesNoWaiting t) : Tracks t.tables.row t.tables.informationRequests := by
  refine h.invariant (fun w => Tracks w.row w.informationRequests) (fun w hempty => ?_) (fun w w' hsame hw => ?_)
    fun t op w' hallowed hstep hw => (caseStep_tables hstep).tracks hallowed hw
  · have hrow : ∀ id, w.row id = none := fun id => row_absent (by simp [hempty.cases])
    rw [hempty.informationRequests]
    exact ⟨nodup_nil, fun id => by simp [waits, hrow, publishedOf]⟩
  · rw [row_congr hsame.cases, hsame.informationRequests]
    exact hw

def Database.RequestsTrackStage (w : Database) : Prop :=
  ∀ id, (publishedOf w.informationRequests id).length = if w.stageOf id = .waitingOnApplicant then 1 else 0

theorem Tracks.stage (h : Tracks w.row w.informationRequests) : w.RequestsTrackStage := by
  intro id
  rw [h.published, waits_row]
  split
  · simp [*]
  · simp [*]

/-- The timers address nobody but the applicants of cases that wait on them. -/
structure Database.TimersAddressWaiting (w : Database) (protectedContactEmail : AccountId → Option String) : Prop where
  selected : ∀ request ∈ listPublishedInformationRequestsForTimers protectedContactEmail w,
    w.stageOf request.caseId = .waitingOnApplicant
  mailed : ∀ isApplicantReminderDue, ∀ mail ∈ sendApplicantResponseReminders protectedContactEmail
    isApplicantReminderDue w,
    ∃ c ∈ w.cases, c.stage = .waitingOnApplicant ∧ protectedContactEmail c.applicantAccountId = some mail.recipient
  expired : ∀ fresh now, ∀ op ∈ expireOverdueInformationRequests protectedContactEmail fresh now w,
    ∃ fresh caseId requestId, op = .expireInformationRequest fresh caseId requestId now none ∧
      w.stageOf caseId = .waitingOnApplicant

theorem mem_listPublished (h : request ∈ listPublishedInformationRequestsForTimers protectedContactEmail w) :
    ∃ r ∈ w.informationRequests, r.status = .published ∧ ∃ c, w.intakeCase r.caseId = some c ∧
      request = ⟨r.id, r.caseId, c.applicantAccountId, protectedContactEmail c.applicantAccountId, r.publishedAt,
        r.dueAt⟩ := by
  obtain ⟨r, hr, hrequest⟩ := mem_filterMap.mp h
  obtain ⟨hmem, hstatus⟩ := mem_filter.mp hr
  obtain ⟨c, hfind, rfl⟩ := map_eq_some_iff.mp hrequest
  exact ⟨r, hmem, of_decide_eq_true hstatus, c, hfind, rfl⟩

theorem Database.RequestsTrackStage.waiting (h : w.RequestsTrackStage) (hr : r ∈ w.informationRequests)
    (hstatus : r.status = .published) : w.stageOf r.caseId = .waitingOnApplicant := by
  have hmem : r ∈ publishedOf w.informationRequests r.caseId := mem_filter.mpr ⟨hr, by simp [hstatus]⟩
  have hone := h r.caseId
  by_contra hstage
  rw [if_neg hstage, length_eq_zero_iff] at hone
  rw [hone] at hmem
  exact absurd hmem not_mem_nil

theorem Database.RequestsTrackStage.timers (h : w.RequestsTrackStage)
    (protectedContactEmail : AccountId → Option String) :
    w.TimersAddressWaiting protectedContactEmail where
  selected request hrequest := by
    obtain ⟨r, hr, hstatus, c, -, rfl⟩ := mem_listPublished hrequest
    exact h.waiting hr hstatus
  mailed isApplicantReminderDue mail hmail := by
    obtain ⟨request, hrequest, hsent⟩ := mem_filterMap.mp hmail
    obtain ⟨r, hr, hstatus, c, hfind, rfl⟩ := mem_listPublished hrequest
    have hstage := h.waiting hr hstatus
    rw [stageOf_some hfind] at hstage
    refine ⟨c, (Table.find_some hfind).1, hstage, ?_⟩
    cases haddress : protectedContactEmail c.applicantAccountId with
    | none => simp [haddress] at hsent
    | some =>
      simp only [haddress, ite_none_right_eq_some, some.injEq] at hsent
      rw [← hsent.2]
  expired fresh now op hop := by
    obtain ⟨request, hrequest, rfl⟩ := List.mem_map.mp hop
    obtain ⟨r, hr, hstatus, c, -, rfl⟩ := mem_listPublished (mem_filter.mp hrequest).1
    exact ⟨_, _, _, rfl, h.waiting hr hstatus⟩

theorem close_untracks (houtcome : input.outcome = .withdrawn)
    (hstage : w.stageOf input.caseId = .waitingOnApplicant) (hid : ∀ e ∈ w.events, e.id ≠ fresh 0)
    (h : w.RequestsTrackStage) : ¬ (w.step (.closeCase fresh input)).RequestsTrackStage := by
  have hlive : w.stageOf input.caseId ≠ .draft := by simp [hstage]
  obtain ⟨c, hfind⟩ := intakeCase_of_stageOf hlive
  have hrow : (w.setCase input.caseId (atStage input.outcome.stage)).intakeCase input.caseId =
      some (atStage input.outcome.stage c) := intakeCase_setCase (fun _ => rfl) hfind
  have hwaiting : c.stage = .waitingOnApplicant := (stageOf_some hfind).symm.trans hstage
  obtain ⟨w', happend⟩ : ∃ w', appendIntakeCaseEvent (fresh 0) ⟨input.caseId,
      .closed input.caseId input.closedAt input.outcome, input.outcome.eventType, .staff, some input.accountId,
      some (c.stage, input.outcome.stage), none, input.closedAt⟩
      (w.setCase input.caseId (atStage input.outcome.stage)) = .ok w' :=
    append_ok hrow hid (by rw [hwaiting, houtcome]; rfl)
  have hrun : closeCase fresh input w = .ok (some input.outcome.stage, w') := by
    have hclosable : c.stage ∈ closableFrom input.outcome := by
      rw [hwaiting, houtcome]
      decide
    have hopen : throwIf (c.stage ∉ closableFrom input.outcome)
        (.caseReviewConflict c.stage "close the case") = .ok () :=
      if_neg (not_not.mpr hclosable)
    unfold closeCase
    rw [hfind]
    change (throwIf _ _ >>= fun _ => _) = _
    rw [hopen]
    exact congrArg (· >>= fun w => Except.ok (some input.outcome.stage, w)) happend
  have hstep : w.step (.closeCase fresh input) = w' := by simp only [Database.step, commit, hrun]
  intro htracks
  have hafter := htracks input.caseId
  have hclosed : w'.stageOf input.caseId = .withdrawn := by
    rw [(append_appends happend).stageOf, stageOf_some hrow, houtcome]
    rfl
  have hbefore := h input.caseId
  rw [if_pos hstage] at hbefore
  have hkept : w'.informationRequests = w.informationRequests := (append_appends happend).informationRequests
  rw [hstep, hkept, hbefore, hclosed, if_neg (by decide)] at hafter
  cases hafter

/-- In every run that closes no case while it waits on its applicant, a case has one
published information request while it waits and none otherwise, so the timers address
only applicants who are waited on; and the withdrawal of a waiting case ends that. -/
theorem requests_track_stage (h : CaseRun ClosesNoWaiting t) :
    t.tables.RequestsTrackStage ∧ (∀ protectedContactEmail, t.tables.TimersAddressWaiting protectedContactEmail) ∧
      ∀ fresh input, input.outcome = .withdrawn → t.tables.stageOf input.caseId = .waitingOnApplicant →
        (∀ e ∈ t.tables.events, e.id ≠ fresh 0) →
        ¬ (t.step (.closeCase fresh input)).tables.RequestsTrackStage := by
  have htracks := h.tracks.stage
  exact ⟨htracks, htracks.timers, fun _ _ houtcome hstage hid => close_untracks houtcome hstage hid htracks⟩

/-- Staff enter case 21 for account 9 and ask for more. -/
def asked : List Operation := [.createStaffCase (20 + ·) 1 9 100, .publishInformationRequest (40 + ·) 21 1 200 900]

theorem asked_run (h : Guarded.Playable caseSystem allowed firstTrace asked) :
    CaseRun allowed (asked.foldl Trace.step firstTrace) := firstTrace_run.play asked h

theorem requests_track_stage_asked :
    (asked.foldl Trace.step firstTrace).tables.RequestsTrackStage ∧
      (asked.foldl Trace.step firstTrace).tables.stageOf 21 = .waitingOnApplicant :=
  ⟨(requests_track_stage (asked_run ⟨trivial, trivial, trivial⟩)).1, by decide⟩

/-- Case 21 is withdrawn while it waits: the applicant is still reminded of the request. -/
theorem withdrawn_case_is_reminded :
    ∃ t, CaseRun Trace.Takes t ∧ t.tables.stageOf 21 = .withdrawn ∧
      (publishedOf t.tables.informationRequests 21).length = 1 ∧
      sendApplicantResponseReminders (fun _ => some "applicant") (fun _ => true) t.tables =
        [⟨"applicant", 900⟩] := by
  let ops : List Operation := asked ++ [.closeCase (50 + ·) ⟨21, 1, .withdrawn, 300⟩]
  refine ⟨ops.foldl Trace.step firstTrace, firstTrace_run.play ops ?_, by decide, by decide, by decide⟩
  exact ⟨⟨trivial, by decide⟩, ⟨trivial, by decide⟩, ⟨trivial, by decide⟩, trivial⟩

end Runs

end Intake
