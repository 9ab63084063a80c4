import VistaBlox.IntakeRows
import Mathlib.Data.Fintype.EquivFin

/-!
# The revisions of a submission

Each submission stores a revision and points the case to it. The first is refused where the
case already points to one, and a return to draft leaves the pointer.
-/
namespace Intake

open List Option Function

open Offering (AccountId)

inductive EvidenceType where
  | ownershipDeclaration | propertyFactsSheet | encumbranceDeclaration | photoSet | registryExtract | titleInstrument
  | cadastralMap | powerOfAttorney | nameChangeEvidence | occupancyEvidence | successionEvidence
  deriving DecidableEq, Repr

def requiredInitialEvidenceTypes : List EvidenceType :=
  [.ownershipDeclaration, .propertyFactsSheet, .encumbranceDeclaration, .photoSet]

inductive CaseSubmissionDecision where
  | allowed
  | invalidStage
  | alreadyHasRevision
  | missingEvidence (missing : List EvidenceType)
  | duplicateEvidence
  deriving DecidableEq

def evaluateRequiredEvidence (documentTypes : List EvidenceType) : CaseSubmissionDecision :=
  if documentTypes.dedup.length ≠ documentTypes.length then .duplicateEvidence
  else
    let missing := requiredInitialEvidenceTypes.filter fun required => required ∉ documentTypes
    if 0 < missing.length then .missingEvidence missing else .allowed

def evaluateInitialCaseSubmission (stage : Stage) (hasCurrentRevision : Bool) (documentTypes : List EvidenceType) :
    CaseSubmissionDecision :=
  if stage ≠ .draft then .invalidStage
  else if hasCurrentRevision then .alreadyHasRevision
  else evaluateRequiredEvidence documentTypes

inductive SubmissionError where
  | caseNotFound
  | refused (decision : CaseSubmissionDecision)
  | entryRefused
  | conflict (e : Failure)
  deriving DecidableEq

/-- `SubmitInitialCaseService`; `entryAllowed` is the recheck of the applicant's identity and the property's value. -/
def submitInitialCaseService (fresh : Nat → Nat) (caseId : CaseId) (accountId : AccountId) (submittedAt : Nat)
    (documentTypes : List EvidenceType) (entryAllowed : Bool) (w : Database) :
    Except SubmissionError (RevisionId × Database) :=
  match (w.intakeCase caseId).filter fun c => c.applicantAccountId = accountId with
  | none => .error .caseNotFound
  | some intakeCase =>
    match evaluateInitialCaseSubmission intakeCase.stage intakeCase.currentSubmissionRevisionId.isSome
      documentTypes with
    | .allowed =>
      if entryAllowed = false then .error .entryRefused
      else match submitInitialCase fresh caseId accountId submittedAt w with
        | .ok (some revisionId, w') => .ok (revisionId, w')
        | .ok (none, _) => .error .caseNotFound
        | .error e => .error (.conflict e)
    | decision => .error (.refused decision)

variable {c : IntakeCase} {id : CaseId} {x : SubmissionRevision}

section Numbers

def revisionsOf (revisions : List SubmissionRevision) (id : CaseId) : List SubmissionRevision :=
  revisions.filter fun r => r.caseId = id

def currentRevision (rows : CaseId → Option IntakeCase) (id : CaseId) : Option RevisionId :=
  (rows id).bind IntakeCase.currentSubmissionRevisionId

/-- The revisions of a case are numbered from 1, and the case points to the last. -/
structure Numbered (rows : CaseId → Option IntakeCase) (revisions : List SubmissionRevision) : Prop where
  keyed : Table.Keyed SubmissionRevision.id revisions
  numbers : ∀ id, (revisionsOf revisions id).map SubmissionRevision.revisionNumber =
    List.range' 1 (revisionsOf revisions id).length
  first : ∀ id, currentRevision rows id = none → revisionsOf revisions id = []
  last : ∀ id r, currentRevision rows id = some r → ∃ x ∈ revisionsOf revisions id, x.id = r ∧
    x.revisionNumber = (revisionsOf revisions id).length

variable {rows rows' : CaseId → Option IntakeCase} {revisions : List SubmissionRevision} {w w' : Database}
  {op : Operation}

theorem Numbered.keep (h : Numbered rows revisions)
    (hsame : ∀ id, currentRevision rows' id = currentRevision rows id) :
    Numbered rows' revisions :=
  ⟨h.keyed, h.numbers, fun id hnone => h.first id (hsame id ▸ hnone), fun id r hsome => h.last id r (hsame id ▸ hsome)⟩

theorem revisionsOf_append (x : SubmissionRevision) (id : CaseId) :
    revisionsOf (revisions ++ [x]) id = revisionsOf revisions id ++ if x.caseId = id then [x] else [] := by
  unfold revisionsOf
  rw [filter_append]
  congr 1
  by_cases h : x.caseId = id <;> simp [h]

theorem Numbered.add (h : Numbered rows revisions) (hnew : ∀ r ∈ revisions, r.id ≠ x.id)
    (hnumber : x.revisionNumber = (revisionsOf revisions x.caseId).length + 1)
    (hpoints : currentRevision rows' x.caseId = some x.id)
    (hothers : ∀ id, id ≠ x.caseId → currentRevision rows' id = currentRevision rows id) :
    Numbered rows' (revisions ++ [x]) := by
  constructor
  · refine h.keyed.append (find?_eq_none.mpr fun r hr => ?_)
    simpa using hnew r hr
  · intro id
    rw [revisionsOf_append]
    by_cases hid : x.caseId = id
    · subst hid
      simp only [if_true, map_append, length_append, map_cons, map_nil, length_cons,
        length_nil]
      rw [h.numbers, hnumber, range'_1_concat, Nat.add_comm 1]
    · simp only [hid, if_false, append_nil]
      exact h.numbers id
  · intro id hnone
    have hid : id ≠ x.caseId := by
      rintro rfl
      rw [hpoints] at hnone
      cases hnone
    rw [revisionsOf_append, if_neg hid.symm, append_nil]
    exact h.first id (hothers id hid ▸ hnone)
  · intro id r hsome
    rw [revisionsOf_append]
    by_cases hid : id = x.caseId
    · subst hid
      rw [hpoints] at hsome
      cases hsome
      refine ⟨x, ?_, rfl, ?_⟩
      · simp
      · simp [hnumber]
    · obtain ⟨y, hy, hyid, hynumber⟩ := h.last id r (hothers id hid ▸ hsome)
      simp only [Ne.symm hid, if_false, append_nil]
      exact ⟨y, hy, hyid, hynumber⟩

theorem currentRevision_update (id' : CaseId) :
    currentRevision (update rows id (some c)) id' =
      if id' = id then c.currentSubmissionRevisionId else currentRevision rows id' := by
  unfold currentRevision
  by_cases h : id' = id
  · rw [h, update_self, if_pos rfl]
    rfl
  · rw [update_of_ne h, if_neg h]

theorem Numbered.rewrite (h : Numbered rows revisions) (hrow : rows id = some c)
    (hsame : c'.currentSubmissionRevisionId = c.currentSubmissionRevisionId) :
    Numbered (update rows id (some c')) revisions := by
  refine h.keep fun id' => ?_
  rw [currentRevision_update]
  split
  · rename_i heq
    rw [heq, hsame, currentRevision, hrow]
    rfl
  · rfl

theorem Numbered.point (h : Numbered rows revisions) (hnew : ∀ r ∈ revisions, r.id ≠ x.id)
    (hnumber : x.revisionNumber = (revisionsOf revisions x.caseId).length + 1)
    (hpoints : c.currentSubmissionRevisionId = some x.id) :
    Numbered (update rows x.caseId (some c)) (revisions ++ [x]) := by
  refine h.add hnew hnumber ?_ fun id hid => ?_
  · rw [currentRevision_update, if_pos rfl, hpoints]
  · rw [currentRevision_update, if_neg hid]

theorem TableStep.numbered (hstep : TableStep w op rows revisions requests links) (h : Numbered w.row w.revisions) :
    Numbered rows revisions := by
  cases hstep with
  | outside => exact h
  | draft hnew =>
    refine h.keep fun id => ?_
    rw [currentRevision_update]
    split
    · rename_i heq
      rw [heq, currentRevision, hnew]
      rfl
    · rfl
  | staff hnew _ hrevision =>
    refine h.point (fun r hr => (hrevision r hr).1) ?_ rfl
    rw [h.first _ (by rw [currentRevision, hnew]; rfl)]
    rfl
  | submit hrow _ hnone hrevision =>
    refine h.point (fun r hr => (hrevision r hr).1) ?_ rfl
    rw [h.first _ (by rw [currentRevision, hrow]; exact hnone)]
    rfl
  | resubmit hrow _ _ hcurrent hrevision =>
    refine h.point (fun r hr => (hrevision r hr).1) ?_ rfl
    obtain ⟨r, hpoints, hfind⟩ := bind_eq_some_iff.mp hcurrent
    obtain ⟨hmem, hid⟩ := Table.find_some hfind
    obtain ⟨x, hx, hxid, hnumber⟩ := h.last _ r (by rw [currentRevision, hrow]; exact hpoints)
    rw [← hnumber, h.keyed.eq_of_key (mem_of_mem_filter hx) hmem (hxid.trans hid.symm)]
  | publish hrow | expire hrow | withdraw hrow | reject hrow | approve hrow | close hrow | assign hrow
  | handoff _ hrow => exact h.rewrite hrow rfl
  | @writeback _ _ _ _ _ _ _ _ _ _ both hkind hrow =>
    refine h.rewrite hrow ?_
    cases both <;> cases hkind <;> rfl
  | @execute _ _ operation _ _ _ _ hrow =>
    refine h.rewrite hrow ?_
    cases operation.command <;> rfl

theorem CaseRun.numbered (h : CaseRun allowed t) : Numbered t.tables.row t.tables.revisions := by
  refine h.invariant (fun w => Numbered w.row w.revisions) (fun w hempty => ?_) (fun w w' hsame hw => ?_)
    fun t op w' _ hstep hw => (caseStep_tables hstep).numbered hw
  · have hrow : ∀ id, w.row id = none := fun id => row_absent (by simp [hempty.cases])
    rw [hempty.revisions]
    refine ⟨nodup_nil, fun _ => rfl, fun _ _ => rfl, fun id r hsome => ?_⟩
    rw [currentRevision, hrow] at hsome
    cases hsome
  · rw [row_congr hsame.cases, hsame.revisions]
    exact hw

/-- A case that is neither in draft nor closed points to a revision. -/
def Pointed (rows : CaseId → Option IntakeCase) : Prop :=
  ∀ id c, rows id = some c → c.stage = .draft ∨ c.stage ∈ terminalStages ∨ c.currentSubmissionRevisionId ≠ none

theorem Pointed.update (h : Pointed rows)
    (hc : c.stage = .draft ∨ c.stage ∈ terminalStages ∨ c.currentSubmissionRevisionId ≠ none) :
    Pointed (update rows id (some c)) := by
  intro id' x hx
  by_cases heq : id' = id
  · rw [heq, update_self] at hx
    cases hx
    exact hc
  · rw [update_of_ne heq] at hx
    exact h id' x hx

theorem Pointed.points (h : Pointed rows) (hrow : rows id = some c) (hstage : c.stage = s)
    (hlive : s ≠ .draft ∧ s ∉ terminalStages) : c.currentSubmissionRevisionId ≠ none := by
  subst hstage
  exact ((h id c hrow).resolve_left hlive.1).resolve_left hlive.2

theorem Pointed.rewrite (h : Pointed rows) (hrow : rows id = some c) (hstage : c.stage = s)
    (hlive : s ≠ .draft ∧ s ∉ terminalStages)
    (hsame : c'.currentSubmissionRevisionId = c.currentSubmissionRevisionId) :
    Pointed (Function.update rows id (some c')) :=
  h.update (.inr (.inr (hsame ▸ h.points hrow hstage hlive)))

theorem TableStep.pointed (hstep : TableStep w op rows revisions requests links) (h : Pointed w.row) :
    Pointed rows := by
  cases hstep with
  | outside => exact h
  | draft => exact h.update (.inl rfl)
  | staff | submit | resubmit => exact h.update (.inr (.inr nofun))
  | expire | reject => exact h.update (.inr (.inl (by simp [atStage, terminalStages])))
  | @close _ input =>
    refine h.update (.inr (.inl ?_))
    cases input.outcome <;> simp [atStage, CaseOutcome.stage, terminalStages]
  | publish hrow hstage | withdraw hrow hstage | approve hrow hstage | handoff _ hrow hstage =>
    exact h.rewrite hrow hstage (by decide) rfl
  | assign hrow hstage => rcases hstage with hstage | hstage <;> exact h.rewrite hrow hstage (by decide) rfl
  | @writeback _ _ _ _ _ _ _ _ _ _ both hkind hrow hstage =>
    refine h.rewrite hrow hstage (by decide) ?_
    cases both <;> cases hkind <;> rfl
  | @execute _ _ operation _ _ _ _ hrow hstage =>
    refine h.rewrite hrow hstage ?_ ?_
    · cases operation.command <;> decide
    · cases operation.command <;> rfl

theorem CaseRun.pointed (h : CaseRun allowed t) : Pointed t.tables.row := by
  refine h.invariant (fun w => Pointed w.row) (fun w hempty id c hrow => ?_) (fun w w' hsame hw => ?_)
    fun t op w' _ hstep hw => (caseStep_tables hstep).pointed hw
  · cases (row_absent (by simp [hempty.cases])).symm.trans hrow
  · rw [row_congr hsame.cases]
    exact hw

/-- A case that points to a revision does so ever after: the revisions only grow. -/
theorem Numbered.stays (h : Numbered rows revisions) (h' : Numbered rows' revisions') (hgrows : revisions ⊆ revisions')
    (hpoints : currentRevision rows id ≠ none) : currentRevision rows' id ≠ none := by
  obtain ⟨r, hr⟩ := ne_none_iff_exists'.mp hpoints
  obtain ⟨x, hx, -⟩ := h.last id r hr
  obtain ⟨hmem, hcase⟩ := mem_filter.mp hx
  intro hnone
  have hx' : x ∈ revisionsOf revisions' id := mem_filter.mpr ⟨hgrows hmem, hcase⟩
  rw [h'.first id hnone] at hx'
  cases hx'

/-- Whatever has happened to it since, a case that was returned to draft points to a revision. -/
theorem CaseRun.returned (h : CaseRun allowed t) (hreturned : (.submitted, .draft) ∈ t.changes id) :
    currentRevision t.tables.row id ≠ none := by
  induction h with
  | start hstart =>
    rw [hstart.2] at hreturned
    cases hreturned
  | @step t op h hop ih =>
    refine (CaseRun.numbered h).stays (CaseRun.numbered (h.step hop)) (caseStep_revisions (step_caseStep _ _)) ?_
    rcases mem_append.mp hreturned with hold | hnew
    · exact ih hold
    · have hstage : Stage.submitted = t.tables.stageOf id := congrArg Prod.fst (Ledger.mem_change hnew).1
      obtain ⟨c, hfind⟩ := intakeCase_of_stageOf (by rw [← hstage]; exact nofun)
      rw [stageOf_some hfind] at hstage
      rw [currentRevision, row_some hfind]
      exact (CaseRun.pointed h).points (row_some hfind) hstage.symm (by decide)
  | other _ hother ih =>
    obtain ⟨w, hsame, rfl⟩ := hother
    simp only [Trace.next, stageOf_congr hsame.cases, Ledger.change_self, append_nil] at hreturned
    rw [Trace.next, row_congr hsame.cases]
    exact ih hreturned

end Numbers

section Submission

variable {w w' : Database} {t : Trace}

def Database.highestRevision (w : Database) (id : CaseId) : Nat :=
  ((revisionsOf w.revisions id).map SubmissionRevision.revisionNumber).foldr max 0

/-- The identifiers have not been drawn before. -/
structure Database.Unused (w : Database) (fresh : Nat → Nat) : Prop where
  revision : ∀ r ∈ w.revisions, r.id ≠ fresh 0
  event : ∀ e ∈ w.events, e.id ≠ fresh 1

/-- The applicant's submission with complete evidence goes through, as the next revision of the case. -/
def Submits (w : Database) (c : IntakeCase) : Prop :=
  ∀ fresh submittedAt documentTypes, w.Unused fresh → evaluateRequiredEvidence documentTypes = .allowed →
    ∃ w', submitInitialCaseService fresh c.id c.applicantAccountId submittedAt documentTypes true w =
        .ok (fresh 0, w') ∧
      w'.revisions = w.revisions ++
        [⟨fresh 0, c.id, w.highestRevision c.id + 1, submittedAt, c.applicantAccountId⟩] ∧
      w'.stageOf c.id = .submitted

theorem submitInitialCase_first (submittedAt : Nat) (hfind : w.intakeCase c.id = some c) (hstage : c.stage = .draft)
    (hnone : c.currentSubmissionRevisionId = none) (hrevisions : revisionsOf w.revisions c.id = [])
    (hunused : w.Unused fresh) :
    ∃ w', submitInitialCase fresh c.id c.applicantAccountId submittedAt w = .ok (some (fresh 0), w') ∧
      w'.revisions = w.revisions ++ [⟨fresh 0, c.id, 1, submittedAt, c.applicantAccountId⟩] ∧
      w'.stageOf c.id = .submitted := by
  have hcreate : createRevision ⟨fresh 0, c.id, 1, submittedAt, c.applicantAccountId⟩ w =
      .ok (w.withRevision ⟨fresh 0, c.id, 1, submittedAt, c.applicantAccountId⟩) := by
    refine if_neg ?_
    simp only [List.any_eq_true, decide_eq_true_eq, not_exists, not_and, not_or]
    refine fun r hr => ⟨hunused.revision r hr, fun hcase => ?_⟩
    exact absurd (mem_filter.mpr ⟨hr, decide_eq_true hcase⟩) (by rw [← revisionsOf, hrevisions]; simp)
  let revised := w.withRevision ⟨fresh 0, c.id, 1, submittedAt, c.applicantAccountId⟩
  have hid : ∀ c, (submittedWith (fresh 0) c).id = c.id := fun _ => rfl
  have hrow : (revised.setCase c.id (submittedWith (fresh 0))).intakeCase c.id = some (submittedWith (fresh 0) c) :=
    intakeCase_setCase (w := revised) hid hfind
  obtain ⟨w', happend⟩ : ∃ w', appendIntakeCaseEvent (fresh 1) ⟨c.id, .submitted c.id (fresh 0), .caseSubmitted,
      .applicant, some c.applicantAccountId, some (.draft, .submitted), none, submittedAt⟩
      (revised.setCase c.id (submittedWith (fresh 0))) = .ok w' := append_ok hrow hunused.event rfl
  refine ⟨w', ?_, (append_appends happend).revisions, ?_⟩
  · have hown : (w.intakeCase c.id).filter (fun x => x.applicantAccountId = c.applicantAccountId) = some c := by
      simp [hfind]
    have hfree : throwIf (c.stage ≠ .draft ∨ c.currentSubmissionRevisionId ≠ none)
        (.caseSubmissionConflict c.stage) = .ok () := if_neg (by simp [hstage, hnone])
    unfold submitInitialCase
    rw [hown]
    change (throwIf _ _ >>= fun _ => createRevision _ w >>= fun w => _) = _
    rw [hfree, hcreate]
    exact congrArg (· >>= fun w => Except.ok (some (fresh 0), w)) happend
  · rw [(append_appends happend).stageOf]
    exact stageOf_some hrow

theorem submits_of_unsubmitted (hfind : w.intakeCase c.id = some c) (hstage : c.stage = .draft)
    (hnumbered : Numbered w.row w.revisions) (hnone : c.currentSubmissionRevisionId = none) : Submits w c := by
  intro fresh submittedAt documentTypes hunused hevidence
  have hrevisions : revisionsOf w.revisions c.id = [] :=
    hnumbered.first c.id (by rw [currentRevision, row_some hfind]; exact hnone)
  obtain ⟨w', hrun, hadded, hmoved⟩ := submitInitialCase_first submittedAt hfind hstage hnone hrevisions hunused
  refine ⟨w', ?_, ?_, hmoved⟩
  · have hallowed : evaluateInitialCaseSubmission c.stage c.currentSubmissionRevisionId.isSome documentTypes =
        .allowed := by
      simp [evaluateInitialCaseSubmission, hstage, hnone, hevidence]
    have hown : (w.intakeCase c.id).filter (fun x => x.applicantAccountId = c.applicantAccountId) = some c := by
      simp [hfind]
    unfold submitInitialCaseService
    simp only [hown, hallowed, hrun, Bool.true_eq_false, if_false]
  · rw [hadded, Database.highestRevision, hrevisions]
    rfl

theorem exists_unused : ∃ fresh, w.Unused fresh := by
  obtain ⟨revision, hrevision⟩ := Infinite.exists_notMem_finset (w.revisions.map SubmissionRevision.id).toFinset
  obtain ⟨event, hevent⟩ := Infinite.exists_notMem_finset (w.events.map CaseEvent.id).toFinset
  simp only [List.mem_toFinset, List.mem_map, not_exists, not_and] at hrevision hevent
  exact ⟨fun n => if n = 0 then revision else event, hrevision, hevent⟩

theorem unsubmitted_of_submits (hfind : w.intakeCase c.id = some c) (h : Submits w c) :
    c.currentSubmissionRevisionId = none := by
  obtain ⟨fresh, hunused⟩ := exists_unused
  obtain ⟨w', hrun, -⟩ := h fresh 0 requiredInitialEvidenceTypes hunused (by decide)
  by_contra hpoints
  have hsome : c.currentSubmissionRevisionId.isSome = true := isSome_iff_ne_none.mpr hpoints
  simp only [submitInitialCaseService, hfind, filter_some, decide_true, if_true,
    evaluateInitialCaseSubmission, hsome] at hrun
  by_cases hstage : c.stage = .draft
  · simp [hstage] at hrun
  · simp [hstage] at hrun

/-- In every run the revisions of every case are numbered from 1 without a gap, and a
case in draft can be submitted, as its next revision, exactly when it does not point to
a revision yet; so a case that was returned to draft can never be submitted again. -/
theorem draft_submits_iff_unsubmitted {allowed : Trace → Operation → Prop} (h : CaseRun allowed t) (id : CaseId) :
    (revisionsOf t.tables.revisions id).map SubmissionRevision.revisionNumber =
        List.range' 1 (revisionsOf t.tables.revisions id).length ∧
      ∀ c, t.tables.intakeCase id = some c → c.stage = .draft →
        (Submits t.tables c ↔ c.currentSubmissionRevisionId = none) ∧
          ((.submitted, .draft) ∈ t.changes id → ¬ Submits t.tables c) := by
  refine ⟨h.numbered.numbers id, fun c hfind hstage => ?_⟩
  have hown := hfind
  rw [← (Table.find_some hfind).2] at hown
  refine ⟨⟨unsubmitted_of_submits hown, submits_of_unsubmitted hown hstage h.numbered⟩, fun hreturned hsubmits => ?_⟩
  have hpoints := h.returned hreturned
  rw [currentRevision, row_some hfind] at hpoints
  have hnone := unsubmitted_of_submits hown hsubmits
  exact hpoints hnone

/-- Staff enter case 21 for account 9 and return it to draft. -/
def returned : List Operation :=
  [.createStaffCase (20 + ·) 1 9 100,
    .createReversalOperation (60 + ·) ⟨21, .returnToDraft, .submitted, .draft, .requested, 1, .submitted, 2, some 24,
      "key", 200⟩,
    .executeReversalOperation (70 + ·) ⟨21, 60, 1, 300⟩]

theorem returned_run : CaseRun Trace.Takes (returned.foldl Trace.step firstTrace) := by
  refine firstTrace_run.play returned ⟨⟨trivial, by decide⟩, ⟨?_, by decide⟩, ⟨trivial, by decide⟩, trivial⟩
  exact ⟨⟨21, .returnToDraft, 1, "key", .submitted, 2, 200⟩,
    ⟨.submitted, 2, some (24, .draft, .submitted), false, false, none, false, false, false⟩, rfl⟩

/-- Account 9 enters case 31. -/
def drafted : List Operation := [.createDraftIntake (30 + ·) 9 100]

theorem draft_submits_iff_unsubmitted_returned :
    (∃ c, (drafted.foldl Trace.step firstTrace).tables.intakeCase 31 = some c ∧
      Submits (drafted.foldl Trace.step firstTrace).tables c) ∧
    ∃ c, (returned.foldl Trace.step firstTrace).tables.intakeCase 21 = some c ∧ c.stage = .draft ∧
      ¬ Submits (returned.foldl Trace.step firstTrace).tables c := by
  constructor
  · have hrun : CaseRun (fun _ _ => True) (drafted.foldl Trace.step firstTrace) :=
      firstTrace_run.play drafted ⟨trivial, trivial⟩
    exact ⟨_, rfl, ((draft_submits_iff_unsubmitted hrun 31).2 _ rfl rfl).1.mpr rfl⟩
  · exact ⟨_, rfl, rfl, ((draft_submits_iff_unsubmitted returned_run 21).2 _ rfl rfl).2 (by decide)⟩

/-- A case whose return to draft has completed: its applicant's submission is refused,
by the policy and by the repository. -/
theorem returned_case_is_not_submitted :
    ∃ t c, CaseRun Trace.Takes t ∧ t.tables.intakeCase 21 = some c ∧ c.stage = .draft ∧
      t.tables.operations.map ReversalOperation.status = [.completed] ∧ ¬ Submits t.tables c ∧
      submitInitialCaseService (80 + ·) 21 9 400 requiredInitialEvidenceTypes true t.tables =
        .error (.refused .alreadyHasRevision) ∧
      submitInitialCase (80 + ·) 21 9 400 t.tables = .error (.caseSubmissionConflict .draft) := by
  refine ⟨_, _, returned_run, rfl, rfl, rfl, fun h => ?_, rfl, rfl⟩
  have hnone := unsubmitted_of_submits rfl h
  cases hnone

end Submission

end Intake
