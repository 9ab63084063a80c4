import VistaBlox.IntakeOfferings

/-!
# The preview of the corrections

Which corrections the policy offers. Published final terms block those of the structuring,
which a case reaches only after they have been published.
-/
namespace Intake

open List Option

open Function (update update_of_ne update_self)
open Guarded (Run)
open Offering (OfferingRecord)
open Shared (AppError)

section Service

structure PreviewAction where
  action : ReversalCommand
  label : String
  targetStage : Stage
  requiresReason : Bool
  requiresSecondApproval : Bool
  executionMode : ExecutionMode
  impactSummary : String
  blockers : List Blocker

structure ReversalPreview where
  caseId : CaseId
  stage : Stage
  workflowEventSequence : Nat
  latestTransition : Option (EventId × Stage × Stage)
  correctionInProgress : Bool
  available : Bool
  actions : List PreviewAction

def getReversalActions (snapshot : ReversalSnapshot) : List ReversalAction :=
  [ReversalCommand.returnToDraft, .withdrawInformationRequest, .reopenPreOffering, .reopenStructuring,
    .reopenFinalOfferingReview].filterMap (getReversalAction snapshot)

def ReversalAction.preview (a : ReversalAction) : PreviewAction where
  action := a.command
  label := a.label
  targetStage := a.targetStage
  requiresReason := true
  requiresSecondApproval := a.requiresSecondApproval
  executionMode := a.executionMode
  impactSummary := a.impactSummary
  blockers := a.blockers

/-- `GetIntakeReversalPreviewService` -/
def getIntakeReversalPreview (w : Database) (caseId : CaseId) : Except AppError ReversalPreview :=
  match loadReversalSnapshot w caseId none with
  | none => .error caseNotFoundError
  | some snapshot =>
    let actions := getReversalActions snapshot
    .ok {
      caseId := caseId
      stage := snapshot.stage
      workflowEventSequence := snapshot.workflowEventSequence
      latestTransition := snapshot.latestTransition
      correctionInProgress := snapshot.correctionInProgress
      available := 0 < actions.length
      actions := actions.map ReversalAction.preview }

/-- The preview of the case offers the correction. -/
def Previews (w : Database) (caseId : CaseId) (command : ReversalCommand) : Prop :=
  ∃ preview, getIntakeReversalPreview w caseId = .ok preview ∧ command ∈ preview.actions.map PreviewAction.action

variable {w : Database} {caseId : CaseId} {command : ReversalCommand} {snapshot : ReversalSnapshot}

theorem getReversalAction_command (h : getReversalAction snapshot command = some a) : a.command = command := by
  unfold getReversalAction at h
  simpa using find?_some h

theorem getReversalActions_command :
    command ∈ (getReversalActions snapshot).map ReversalAction.command ↔ (getReversalAction snapshot
      command).isSome := by
  rw [List.mem_map, isSome_iff_exists]
  constructor
  · rintro ⟨a, ha, rfl⟩
    obtain ⟨command, _, hoffered⟩ := mem_filterMap.mp ha
    exact ⟨a, getReversalAction_command hoffered ▸ hoffered⟩
  · rintro ⟨a, hoffered⟩
    refine ⟨a, mem_filterMap.mpr ⟨command, ?_, hoffered⟩, getReversalAction_command hoffered⟩
    cases command <;> simp

theorem previews_iff (hsnapshot : loadReversalSnapshot w caseId none = some snapshot) :
    Previews w caseId command ↔ (getReversalAction snapshot command).isSome := by
  have hactions : ∀ {preview}, getIntakeReversalPreview w caseId = .ok preview →
      preview.actions.map PreviewAction.action = (getReversalActions snapshot).map ReversalAction.command := by
    intro preview h
    simp only [getIntakeReversalPreview, hsnapshot] at h
    cases h
    exact List.map_map
  rw [← getReversalActions_command]
  constructor
  · rintro ⟨preview, h, hmem⟩
    exact hactions h ▸ hmem
  · intro hmem
    refine ⟨_, by simp only [getIntakeReversalPreview, hsnapshot]; rfl, ?_⟩
    rw [List.map_map]
    exact hmem

end Service

section Corrections

variable {w w' : Database} {id : CaseId} {c : IntakeCase} {snapshot : ReversalSnapshot}

/-- No reservation of the case's offering is finalized, no correction of the case is in
flight, and its latest transition stands. -/
structure Clear (w : Database) (id : CaseId) : Prop where
  reservations : ∀ o, w.caseOffering id = some o → ∀ r ∈ w.market.reservations, r.offeringId = o.id →
    r.reservationStage ≠ .finalized
  idle : ∀ operation ∈ w.operations, operation.caseId = id → operation.status.inFlight = false
  stands : ∀ e, latestTransitionOf w id = some e → ∀ e' ∈ w.events, e'.caseId = id → e'.reversalOfEventId ≠ some e.id

/-- The final terms of the case's offering are not published, and nobody has to reconfirm. -/
def Unpublished (w : Database) (id : CaseId) : Prop :=
  ∀ o, w.caseOffering id = some o → o.finalOfferingPublishedAt = none ∧
    ∀ r ∈ w.market.reservations, r.offeringId = o.id → r.reservationStage ≠ .awaitingReconfirmation

theorem finalTermsBlockers_nil (hreservations : ∀ o, w.caseOffering id = some o → ∀ r ∈ w.market.reservations,
    r.offeringId = o.id → r.reservationStage ≠ .finalized) :
    finalTermsBlockers ((w.caseOffering id).map (offeringSnapshot w.market)) = [] ↔ Unpublished w id := by
  unfold Unpublished
  cases hoffering : w.caseOffering id with
  | none => simp [finalTermsBlockers, when]
  | some o =>
    have hfinalized := hreservations o hoffering
    have hcount : ¬ 0 < (offeringSnapshot w.market o).finalizedReservationCount := by
      simp only [offeringSnapshot, length_pos_iff_exists_mem, mem_filter, decide_eq_true_eq]
      rintro ⟨r, ⟨hr, hid⟩, hstage⟩
      exact hfinalized r hr hid hstage
    simp only [finalTermsBlockers, map_some, any_some, append_eq_nil_iff, when_eq_nil, hcount,
      decide_false, and_true, some.injEq, forall_eq']
    simp [offeringSnapshot]

theorem snapshot_some (h : w.intakeCase id = some c) : ∃ snapshot, loadReversalSnapshot w id none = some snapshot := by
  simp [loadReversalSnapshot, h]

theorem snapshot_clear (hclear : Clear w id) (hsnapshot : loadReversalSnapshot w id none = some snapshot) :
    snapshot.correctionInProgress = false ∧ snapshot.latestTransitionReversed = false := by
  obtain ⟨row, -, rfl⟩ := map_eq_some_iff.mp hsnapshot
  refine ⟨?_, ?_⟩
  · simpa using hclear.idle
  · have hstands := hclear.stands
    cases hlatest : latestTransitionOf w id with
    | none => rfl
    | some e => simpa using hstands e hlatest

/-- The legal practice's execution events are never recorded. -/
def Unexecuted (w : Database) : Prop := ∀ id c, w.row id = some c → c.legalExecutionEventRefs = []

/-- No operation writes a reference of legal execution. -/
theorem Unexecuted.step (h : Unexecuted w) (hstep : CaseStep w op w') : Unexecuted w' := by
  intro id c hrow
  have hrows := (caseStep_tables hstep).rowsStep
  generalize w'.row = rows at hrow hrows
  cases hrows with
  | same => exact h id c hrow
  | @keep id' x x' hx hkeep =>
    by_cases heq : id = id'
    · rw [heq, Function.update_self] at hrow
      cases hrow
      exact hkeep.legalExecutionEventRefs.trans (h id' x hx)
    · rw [Function.update_of_ne heq] at hrow
      exact h id c hrow
  | @enter id' x _ _ hrefs =>
    by_cases heq : id = id'
    · rw [heq, Function.update_self] at hrow
      cases hrow
      exact hrefs
    · rw [Function.update_of_ne heq] at hrow
      exact h id c hrow

theorem CaseRun.unexecuted (h : CaseRun allowed t) : Unexecuted t.tables := by
  refine h.invariant Unexecuted (fun w hempty id c hrow => ?_) (fun w w' hsame hw id c hrow => ?_)
    fun _ _ _ _ hstep hw => hw.step hstep
  · have hnone : w.row id = none := row_absent (by simp [hempty.cases])
    cases hnone.symm.trans hrow
  · rw [row_congr hsame.cases] at hrow
    exact hw id c hrow

theorem corrections_offered_iff (h : CaseRun allowed t) (hfind : t.tables.intakeCase id = some c)
    (hclear : Clear t.tables id) :
    (c.stage = .postIpoStructuring → c.legalStructuringCompletedAt = none → c.appraisalCompletedAt = none →
      (Previews t.tables id .reopenStructuring ↔ Unpublished t.tables id)) ∧
    (c.stage = .approvedForFinalOffering →
      (Previews t.tables id .reopenFinalOfferingReview ↔ Unpublished t.tables id)) := by
  obtain ⟨snapshot, hsnapshot⟩ := snapshot_some hfind
  obtain ⟨hstage, -, hoffering, hlegal, happraisal⟩ := loadReversalSnapshot_some hsnapshot hfind
  obtain ⟨hidle, hstands⟩ := snapshot_clear hclear hsnapshot
  have hrefs : c.legalExecutionEventRefs = [] := h.unexecuted id (uncounted c) (row_some hfind)
  rw [previews_iff hsnapshot, previews_iff hsnapshot, ← finalTermsBlockers_nil hclear.reservations, ← hoffering]
  refine ⟨fun hstructuring _ hopen => ?_, fun happroved => ?_⟩
  · rw [Reopens.structuring.offered]
    simp [hidle, hstands, hstage, hstructuring, ReversalCommand.source, reopenStructuringAction, hlegal, hrefs,
      happraisal, hopen, when]
  · rw [Reopens.finalOfferingReview.offered]
    simp [hidle, hstands, hstage, happroved, ReversalCommand.source, reopenFinalOfferingReviewAction]

end Corrections

section Runs

variable {w : Database} {id : CaseId} {c : IntakeCase}

theorem published_blocks (hlinked : Linked (property w.row) w.links) (hpublished : w.links.Published id) :
    finalTermsBlockers ((w.caseOffering id).map (offeringSnapshot w.market)) ≠ [] := by
  obtain ⟨o, ho, hterms, hpiv⟩ := hpublished
  have hblocks : (offeringSnapshot w.market o).finalOfferingPublishedAt.isSome = true := isSome_iff_ne_none.mpr hterms
  simp [finalTermsBlockers, hlinked.caseOffering ⟨ho, hpiv⟩, hblocks, when]

/-- Published terms block both corrections of the structuring. -/
theorem blocked_of_published (hlinked : Linked (property w.row) w.links) (hpublished : w.links.Published id)
    (hfind : w.intakeCase id = some c) (hsnapshot : loadReversalSnapshot w id exclude = some snapshot) :
    ¬ (getReversalAction snapshot .reopenStructuring).isSome ∧
      ¬ (getReversalAction snapshot .reopenFinalOfferingReview).isSome := by
  obtain ⟨-, -, hoffering, -⟩ := loadReversalSnapshot_some hsnapshot hfind
  have hblocked : finalTermsBlockers snapshot.offering ≠ [] := hoffering ▸ published_blocks hlinked hpublished
  rw [Reopens.structuring.offered, Reopens.finalOfferingReview.offered]
  refine ⟨fun ⟨_, _, _, hnil⟩ => ?_, fun ⟨_, _, _, hnil⟩ => hblocked hnil⟩
  exact hblocked (append_eq_nil_iff.mp (append_eq_nil_iff.mp hnil).1).1

theorem corrections_never_offered (hempty : w.Empty) :
    ¬ Previews (w.after ops) id .reopenStructuring ∧ ¬ Previews (w.after ops) id .reopenFinalOfferingReview := by
  have hlinked := (after_run (w := w) ops).linked hempty
  have hstructured := (after_run (w := w) ops).structured hempty
  generalize w.after ops = w at hlinked hstructured
  cases hfind : w.intakeCase id with
  | none =>
    have hnone : loadReversalSnapshot w id none = none := by simp [loadReversalSnapshot, hfind]
    simp [Previews, getIntakeReversalPreview, hnone]
  | some c =>
    obtain ⟨snapshot, hsnapshot⟩ := snapshot_some hfind
    have hstage := (loadReversalSnapshot_some hsnapshot hfind).1
    have hblocked : c.stage.structuring = true → _ := fun hstructuring => blocked_of_published hlinked
      (hstructured.stages id (uncounted c) (row_some hfind) hstructuring) hfind hsnapshot
    rw [previews_iff hsnapshot, previews_iff hsnapshot]
    refine ⟨fun hoffered => ?_, fun hoffered => ?_⟩
    · obtain ⟨-, -, hs, -⟩ := Reopens.structuring.offered.mp hoffered
      exact (hblocked (by simp [← hstage, hs, ReversalCommand.source, Stage.structuring])).1 hoffered
    · obtain ⟨-, -, hs, -⟩ := Reopens.finalOfferingReview.offered.mp hoffered
      exact (hblocked (by simp [← hstage, hs, ReversalCommand.source, Stage.structuring])).2 hoffered

/-- In every run, whatever the offerings: to a case in structuring on which no partner has
completed, and to a case approved for its final offering, the preview offers the correction
exactly as long as the final terms are not published and nobody has to reconfirm. In a run
of the application alone it never does. -/
theorem structuring_corrections_offered_iff (id : CaseId) :
    (∀ (allowed : Trace → Operation → Prop) t c, CaseRun allowed t → t.tables.intakeCase id = some c →
      Clear t.tables id →
      (c.stage = .postIpoStructuring → c.legalStructuringCompletedAt = none → c.appraisalCompletedAt = none →
        (Previews t.tables id .reopenStructuring ↔ Unpublished t.tables id)) ∧
      (c.stage = .approvedForFinalOffering →
        (Previews t.tables id .reopenFinalOfferingReview ↔ Unpublished t.tables id))) ∧
    ∀ (w : Database) ops, w.Empty →
      ¬ Previews (w.after ops) id .reopenStructuring ∧ ¬ Previews (w.after ops) id .reopenFinalOfferingReview :=
  ⟨fun _ _ _ h hfind hclear => corrections_offered_iff h hfind hclear, fun _ _ => corrections_never_offered⟩

/-- Case 21 is approved, its offering is floated, paid for and its final terms are published, and the
case is handed off to its structuring. -/
def handedOff : List Operation :=
  approved ++ [handoff] ++ funded ++
    [.publishFinalOfferingTerms (95 + ·) 41 430 8, .postIpoStructuringHandoff (100 + ·) ⟨21, 8⟩ 440]

theorem handedOff_run : OwnRun newDatabase 0 Trace.Takes (handedOff.foldl Trace.step firstTrace) := by
  refine (Run.start rfl).play handedOff ?_
  exact ⟨⟨trivial, by decide⟩, ⟨trivial, by decide⟩, ⟨trivial, nofun⟩, ⟨trivial, nofun⟩, ⟨trivial, nofun⟩,
    ⟨trivial, nofun⟩, ⟨trivial, nofun⟩, ⟨trivial, by decide⟩, trivial⟩

/-- Both partners complete the structuring of case 21. -/
def bothPartners : List Operation :=
  [.recordLegalStructuring (50 + ·) ⟨21, 5, true, 600, 8⟩, .recordAppraisal (51 + ·) ⟨21, 6, true, 601, 8⟩]

theorem bothPartners_run :
    OwnRun newDatabase 0 Trace.Takes (bothPartners.foldl Trace.step (handedOff.foldl Trace.step firstTrace)) :=
  handedOff_run.play bothPartners ⟨⟨trivial, by decide⟩, ⟨trivial, by decide⟩, trivial⟩

theorem handedOff_clear : Clear (newDatabase.after handedOff) 21 :=
  ⟨by decide +kernel, by decide +kernel, by decide +kernel⟩

theorem bothPartners_clear : Clear (newDatabase.after (handedOff ++ bothPartners)) 21 :=
  ⟨by decide +kernel, by decide +kernel, by decide +kernel⟩

/-- The application's own way to both stages, on which the terms are published. -/
theorem structuring_corrections_offered_iff_published :
    (Previews (newDatabase.after handedOff) 21 .reopenStructuring ↔ Unpublished (newDatabase.after handedOff) 21) ∧
      (Previews (newDatabase.after (handedOff ++ bothPartners)) 21 .reopenFinalOfferingReview ↔
        Unpublished (newDatabase.after (handedOff ++ bothPartners)) 21) := by
  have hempty : newDatabase.NoCases := ⟨rfl, rfl, rfl, rfl, rfl⟩
  have hstructuring := handedOff_run.cases hempty fun _ _ _ h => h
  have hcomplete := bothPartners_run.cases hempty fun _ _ _ h => h
  exact ⟨((structuring_corrections_offered_iff 21).1 _ _ _ hstructuring rfl handedOff_clear).1 rfl rfl rfl,
    ((structuring_corrections_offered_iff 21).1 _ _ _ hcomplete rfl bothPartners_clear).2 rfl⟩

/-- The application's own way to both stages: the preview offers no correction in either. -/
theorem published_terms_block_corrections :
    newDatabase.Empty ∧
    (∃ c, (newDatabase.after handedOff).intakeCase 21 = some c ∧ c.stage = .postIpoStructuring ∧
      c.legalStructuringCompletedAt = none ∧ c.appraisalCompletedAt = none ∧ Clear (newDatabase.after handedOff) 21 ∧
      (getIntakeReversalPreview (newDatabase.after handedOff) 21).map ReversalPreview.available = .ok false ∧
      ¬ Previews (newDatabase.after handedOff) 21 .reopenStructuring) ∧
    ∃ c, (newDatabase.after (handedOff ++ bothPartners)).intakeCase 21 = some c ∧ c.stage = .approvedForFinalOffering ∧
      Clear (newDatabase.after (handedOff ++ bothPartners)) 21 ∧
      (getIntakeReversalPreview (newDatabase.after (handedOff ++ bothPartners)) 21).map ReversalPreview.available =
        .ok false ∧ ¬ Previews (newDatabase.after (handedOff ++ bothPartners)) 21 .reopenFinalOfferingReview := by
  have hempty : newDatabase.Empty := ⟨rfl, rfl, rfl, rfl, rfl⟩
  exact ⟨hempty, ⟨_, rfl, rfl, rfl, rfl, handedOff_clear, rfl, (corrections_never_offered hempty).1⟩,
    ⟨_, rfl, rfl, bothPartners_clear, rfl, (corrections_never_offered hempty).2⟩⟩

section Handoff

/-- A case past its offering: handed off to its structuring, or closed. -/
def Stage.passed (s : Stage) : Bool := s.structuring ∨ s ∈ terminalStages

theorem passed_update (hrow : w.row id = some c) (hpassed : c.stage.passed = true) (hold : w.row id' = some x)
    (hwrite : x.stage.passed = true → x'.stage.passed = true) :
    ∃ c', update w.row id' (some x') id = some c' ∧ c'.stage.passed = true := by
  by_cases heq : id = id'
  · subst heq
    cases hrow.symm.trans hold
    exact ⟨x', update_self .., hwrite hpassed⟩
  · exact ⟨c, (update_of_ne heq ..).trans hrow, hpassed⟩

/-- No step takes a case back before its offering once it is past it: the only correction
that would is blocked by the published terms. -/
theorem TableStep.passed (h : TableStep w op rows revisions requests links) (hlinked : Linked (property w.row) w.links)
    (hstructured : Structured w.row w.links) (hrow : w.row id = some c) (hpassed : c.stage.passed = true) :
    ∃ c', rows id = some c' ∧ c'.stage.passed = true := by
  cases h with
  | outside => exact ⟨c, hrow, hpassed⟩
  | draft hnew | staff hnew =>
    refine ⟨c, (update_of_ne ?_ ..).trans hrow, hpassed⟩
    rintro rfl
    cases hnew.symm.trans hrow
  | submit hold hstage | publish hold hstage | expire hold hstage | withdraw hold hstage | resubmit hold hstage
  | reject hold hstage | approve hold hstage =>
    refine passed_update hrow hpassed hold fun h => ?_
    rw [hstage] at h
    cases h
  | @close _ input _ hold =>
    refine passed_update hrow hpassed hold fun _ => ?_
    cases h : input.outcome <;> rfl
  | assign hold => exact passed_update hrow hpassed hold fun h => h
  | @writeback _ _ _ _ _ _ _ _ _ _ both hkind hold hstage =>
    refine passed_update hrow hpassed hold fun _ => ?_
    cases both <;> cases hkind <;> simp [completeStructuring, hstage, Stage.passed, Stage.structuring]
  | handoff _ hold => exact passed_update hrow hpassed hold fun _ => rfl
  | @execute _ input operation x _ action _ hold hstage hcommand hsnapshot haction =>
    refine passed_update hrow hpassed hold fun h => ?_
    rw [operation.command.apply_stage hcommand]
    rw [hstage] at h
    cases hop : operation.command <;> rw [hop] at h
    case returnToDraft | withdrawInformationRequest | reopenPreOffering => cases h
    case reopenFinalOfferingReview => rfl
    case reopenStructuring =>
      obtain ⟨current, hfind, -⟩ := map_eq_some_iff.mp hold
      have hpublished := hstructured.stages _ _ hold (by simp [hstage, hop, ReversalCommand.source, Stage.structuring])
      rw [hop] at haction
      exact absurd (haction ▸ rfl) (blocked_of_published hlinked hpublished hfind hsnapshot).1

/-- A case whose handoff the ledger tells is past its offering. -/
def HandedOff (w : Database) : Prop := ∀ e ∈ w.events, ∀ id traceId, e.eventKey = .postIpoStructuring id traceId →
  ∃ c, w.row id = some c ∧ c.stage.passed = true

/-- A case whose hand-off the log tells has passed that stage. -/
theorem HandedOff.step (h : HandedOff w) (hlinked : Linked (property w.row) w.links)
    (hstructured : Structured w.row w.links) (op : Operation) : HandedOff (w.step op) := by
  intro e he id traceId hkey
  have hstep := step_caseStep w op
  rcases caseStep_keys hstep 0 e he with hold | hnew
  · obtain ⟨c, hrow, hpassed⟩ := h e hold id traceId hkey
    exact (caseStep_tables hstep).passed hlinked hstructured hrow hpassed
  · rw [hkey] at hnew
    have hstage : (w.step op).stageOf id = .postIpoStructuring := hnew
    obtain ⟨c, hfind⟩ := intakeCase_of_stageOf (by rw [hstage]; exact nofun)
    refine ⟨uncounted c, row_some hfind, ?_⟩
    rw [stageOf_some hfind] at hstage
    rw [uncounted, hstage]
    rfl

theorem DatabaseRun.handedOff (h : DatabaseRun w₀ allowed w) (hempty : w₀.Empty) (hnone : w₀.NoCases) :
    HandedOff w := by
  refine h.invariant HandedOff ?_
    (fun w op hrun _ ih => ih.step (DatabaseRun.linked hrun hempty) (DatabaseRun.structured hrun hempty) op) nofun
  rintro w rfl e he
  rw [hnone.events] at he
  cases he

theorem OwnRun.tables (h : OwnRun w now allowed t) : DatabaseRun w (fun _ _ => True) t.tables := by
  refine h.map Trace.tables ?_ (fun _ _ => rfl) nofun fun _ _ _ _ => trivial
  rintro t rfl
  rfl

theorem HandedOff.handsOffOnce (h : HandedOff w) (op : Operation) : HandsOffOnce w op := by
  cases op with
  | postIpoStructuringHandoff fresh job =>
    intro _ hstage e he hkey
    obtain ⟨c, hrow, hpassed⟩ := h e he _ _ hkey
    rw [← stageOf_row hrow, hstage] at hpassed
    cases hpassed
  | _ => trivial

/-- In every run of the application from an empty database, with redeliveries of the handoff
at any time, the ledger of every case numbers its events without a gap, tells every change
of the stage once and in its order, and shows no terminal stage left. -/
theorem ledger_tells_the_truth (hempty : w.Empty) (hnone : w.NoCases) (h : OwnRun w now Trace.Takes t) :
    t.Truthful := by
  have honce : CaseRun Trace.TakesOnce t := h.cases hnone fun t op hrun htakes =>
    ⟨htakes, ((OwnRun.tables hrun).handedOff hempty hnone).handsOffOnce op⟩
  exact (ledger_tells_every_change honce).1

def redelivery : List Operation := [.postIpoStructuringHandoff (110 + ·) ⟨21, 8⟩ 450]

/-- The handoff of case 21 is delivered a second time. -/
theorem ledger_tells_the_truth_redelivered :
    let t := redelivery.foldl Trace.step (handedOff.foldl Trace.step firstTrace)
    t.Truthful ∧ t.changes 21 =
      [(.draft, .submitted), (.submitted, .preOfferingOpen), (.preOfferingOpen, .postIpoStructuring)] := by
  have hrun := handedOff_run.play redelivery ⟨⟨trivial, by decide⟩, trivial⟩
  have hempty : newDatabase.Empty := ⟨rfl, rfl, rfl, rfl, rfl⟩
  have hnone : newDatabase.NoCases := ⟨rfl, rfl, rfl, rfl, rfl⟩
  exact ⟨ledger_tells_the_truth hempty hnone hrun, by decide +kernel⟩

end Handoff

end Runs

end Intake
