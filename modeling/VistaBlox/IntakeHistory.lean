import VistaBlox.Guarded
import VistaBlox.IntakeLedger

/-!
# The history of a case
-/
namespace Intake

open Ledger (Leads change Continues)
open Guarded (System Run Playable)
open Offering (AccountId)

variable {fresh : Nat → Nat} {w₁ : Database}

section Steps

variable {w w' : Database} {op : Operation} {now : Nat} {id : CaseId}

/-- A handoff that a correction has undone is not delivered again. -/
def HandsOffOnce (w : Database) : Operation → Prop
  | .postIpoStructuringHandoff _ job _ => job ∈ w.structuringJobs → w.stageOf job.caseId = .preOfferingOpen →
    ∀ e ∈ w.events, e.eventKey ≠ .postIpoStructuring job.caseId job.traceId
  | _ => True

instance (w : Database) (op : Operation) : Decidable (HandsOffOnce w op) := by
  unfold HandsOffOnce
  split <;> infer_instance

/-- A case that staff create is submitted at once, and the log tells it. -/
theorem staff_moved (hg : Grounding w now) (hnew : ∀ c ∈ w.cases, c.id ≠ fresh 1)
    (hrevision : w.Accepts ⟨fresh 2, fresh 1, 1, submittedAt, staff⟩)
    (hcreated : Appends (fresh 3) ⟨fresh 1, .createdStaff (fresh 1), .caseCreated, .staff, some staff, none, none,
      submittedAt⟩
      (((w.withCase (newCase (fresh 1) (fresh 0) applicant)).withRevision
        ⟨fresh 2, fresh 1, 1, submittedAt, staff⟩).setCase (fresh 1) (submittedWith (fresh 2))) w₁)
    (happend : Appends (fresh 4) ⟨fresh 1, .submitted (fresh 1) (fresh 2), .caseSubmitted, .staff, some staff,
      some (.draft, .submitted), none, submittedAt⟩ w₁ w') : Moved w w' id := by
  let base := w.withCase (newCase (fresh 1) (fresh 0) applicant)
  have hfind : base.intakeCase (fresh 1) = some (newCase (fresh 1) (fresh 0) applicant) :=
    (intakeCase_withCase hnew).trans (if_pos rfl)
  have hbase : ∀ id, base.stageOf id = w.stageOf id := fun id => stageOf_newCase hnew
  have hdraft : w.stageOf (fresh 1) = .draft := by
    rw [← hbase, stageOf_some hfind]
    rfl
  have hid : ∀ c, (submittedWith (fresh 2) c).id = c.id := fun _ => rfl
  have htold : Told w w₁ id [] := by
    have hrow : Told w base id [] := .quiet rfl (sequenceOf_newCase hnew)
    have hwrite : Told base _ id [] := .rewrite hfind rfl rfl hid fun _ => rfl
    have hevent : Told _ w₁ id (if id = fresh 1 then Option.toList none else []) := hcreated.told nofun
    rw [Option.toList_none, ite_self] at hevent
    exact (hrow.trans hwrite).trans hevent
  have hstage : w₁.stageOf id = if id = fresh 1 then .submitted else w.stageOf id := by
    rw [hcreated.stageOf, ← hbase]
    exact stageOf_setCase hid hfind
  have hkeys : ∀ e ∈ w₁.events, e.eventKey ≠ .submitted (fresh 1) (fresh 2) := by
    intro e he
    rcases hcreated.events e he with hold | hkey
    · refine hg.new ?_ e hold
      rintro ⟨r, hr, hid⟩
      exact (hrevision r hr).1 hid
    · rw [hkey]
      exact nofun
  refine .tell htold hstage ?_ ?_ (fun _ => hkeys) happend
  · rw [hdraft]
    rfl
  · rw [hdraft]
    exact fun hterminal => absurd hterminal (by decide)

theorem ReversalCommand.moves (command : ReversalCommand) :
    command.source ∉ terminalStages ∧ command.source ≠ command.target := by
  cases command <;> decide

theorem closableFrom_live (h : stage ∈ closableFrom outcome) : stage ∉ terminalStages ∧ stage ≠ outcome.stage := by
  cases outcome <;> cases stage <;> revert h <;> decide

theorem Moved.transition (happend : Appends eventId input w₁ w') (hfind : w.intakeCase input.caseId = some current)
    (hsource : current.stage = source) (hcases : w₁.cases = (w.setCase input.caseId f).cases)
    (hevents : w₁.events = w.events)
    (hf : ∀ c, (f c).id = c.id ∧ (f c).workflowEventSequence = c.workflowEventSequence ∧ (f c).stage = target)
    (htransition : input.transition = some (source, target)) (hmove : source ∉ terminalStages ∧ source ≠ target)
    (hnew : ∀ e ∈ w.events, e.eventKey ≠ input.eventKey) : Moved w w' id := by
  subst hsource
  refine .write happend hfind hcases hevents (fun c => ⟨(hf c).1, (hf c).2.1⟩) ?_ (fun h => absurd h hmove.1)
    (fun _ => hnew)
  rw [(hf current).2.2, Ledger.change_of_ne hmove.2, htransition]
  rfl

/-- Every operation tells of the stage it changes, and leaves no terminal stage. -/
theorem caseStep_moved (h : CaseStep w op w') (hg : Grounding w now) (hclock : ∀ t ∈ op.reading, now < t)
    (honce : HandsOffOnce w op) : Moved w w' id := by
  cases h with
  | outside h => exact .quiet h.cases h.events
  | draft hnew happend =>
    have hid : ∀ c ∈ w.cases, c.id ≠ _ := fun c hc => (hnew c hc).1
    refine Moved.append happend ⟨?_, fun _ => stageOf_newCase hid⟩ rfl
    rw [stageOf_newCase hid, Ledger.change_self]
    exact .quiet rfl (sequenceOf_newCase hid)
  | staff hnew hrevision hcreated happend =>
    exact staff_moved hg (fun c hc => (hnew c hc).1) hrevision hcreated happend
  | submit hfind _ hstage _ hrevision happend =>
    refine .transition happend hfind hstage rfl rfl (fun _ => ⟨rfl, rfl, rfl⟩) rfl (by decide) (hg.new ?_)
    rintro ⟨r, hr, hid⟩
    exact (hrevision r hr).1 hid
  | publish hfind hstage _ _ hnew happend =>
    refine .transition happend hfind hstage rfl rfl (fun _ => ⟨rfl, rfl, rfl⟩) rfl (by decide) (hg.new ?_)
    rintro ⟨r, hr, hid⟩
    exact hnew r hr hid
  | expire hfind hawaits happend | withdraw hfind hawaits happend =>
    exact .transition happend hfind (awaitsAnswer_published hawaits).1 rfl rfl (fun _ => ⟨rfl, rfl, rfl⟩) rfl
      (by decide)
      (hg.new (hg.unresolved hawaits))
  | resubmit hfind _ _ hawaits hrevision happend =>
    refine .transition happend hfind (awaitsAnswer_published hawaits).1 rfl rfl (fun _ => ⟨rfl, rfl, rfl⟩) rfl
      (by decide)
      (hg.new ?_)
    rintro ⟨r, hr, hid⟩
    exact (hrevision r hr).1 hid
  | reject hfind hstage _ happend =>
    exact .transition happend hfind hstage rfl rfl (fun _ => ⟨rfl, rfl, rfl⟩) rfl (by decide)
      (hg.new (Nat.not_le.mpr (hclock _ rfl)))
  | approve hfind hstage _ _ happend hqueued =>
    refine Moved.append hqueued ?_ rfl
    exact .transition happend hfind hstage rfl rfl (fun _ => ⟨rfl, rfl, rfl⟩) rfl (by decide)
      (hg.new (Nat.not_le.mpr (hclock _ rfl)))
  | close hfind hstage happend =>
    exact .transition happend hfind rfl rfl rfl (fun _ => ⟨rfl, rfl, rfl⟩) rfl (closableFrom_live hstage)
      (hg.new (Nat.not_le.mpr (hclock _ rfl)))
  | assign hfind _ happend =>
    exact .write happend hfind rfl rfl (fun _ => ⟨rfl, rfl⟩) (Ledger.change_self _).symm (fun _ => rfl) nofun
  | @writeback _ _ input complete _ _ key _ current _ both _ hkind hfind hstage _ _ happend =>
    have hnew : ∀ e ∈ w.events, e.eventKey ≠ key := by
      cases hkind with
      | legal | appraisal => exact hg.new (Nat.not_le.mpr (hclock _ rfl))
    have hcomplete : ∀ t c, (complete t c).id = c.id ∧
        (complete t c).workflowEventSequence = c.workflowEventSequence ∧ (complete t c).stage = c.stage := by
      cases hkind with
      | legal | appraisal => exact fun _ _ => ⟨rfl, rfl, rfl⟩
    cases both with
    | true =>
      exact .transition happend hfind hstage rfl rfl
        (fun c => ⟨(hcomplete _ c).1, (hcomplete _ c).2.1, rfl⟩) rfl (by decide) hnew
    | false =>
      refine .write happend hfind rfl rfl (fun c => ⟨(hcomplete _ c).1, (hcomplete _ c).2.1⟩) ?_
        (fun _ => (hcomplete _ current).2.2) nofun
      exact ((congrArg _ (hcomplete _ current).2.2).trans (Ledger.change_self _)).symm
  | handoff hjob hfind hstage happend =>
    exact .transition happend hfind hstage rfl rfl (fun _ => ⟨rfl, rfl, rfl⟩) rfl (by decide)
      (honce hjob ((stageOf_some hfind).trans hstage))
  | request _ hfind _ _ _ happend =>
    exact Moved.append happend (.quiet rfl rfl) rfl
  | claim | fail => exact .quiet rfl rfl
  | @execute _ input operation _ _ _ _ _ hoperation hfind hstatus hstage _ _ _ hexecute happend =>
    obtain ⟨hcommand, hcases, -, -, hevents, -⟩ := executeCommand_some hexecute
    obtain ⟨hmem, -⟩ := Table.find_some (Option.filter_eq_some_iff.mp hoperation).1
    obtain ⟨hexpected, hfrom, hto⟩ := hg.built operation hmem
    have hnew : ∀ e ∈ w.events, e.eventKey ≠ .reversalCompleted input.caseId operation.id := by
      refine hg.new ?_
      rintro ⟨o, ho, hid, hcompleted⟩
      rw [hg.operations.eq_of_key ho hmem hid] at hcompleted
      rcases hstatus with h | h <;> simp [h] at hcompleted
    have hmoved : Moved w _ id :=
      .transition happend hfind (hstage.trans hexpected) hcases hevents
        (fun c => ⟨(operation.command.apply_keeps c).1, (operation.command.apply_keeps c).2,
          operation.command.apply_stage hcommand c⟩)
        (by rw [hfrom, hto]) operation.command.moves hnew
    exact hmoved.same rfl rfl

end Steps

variable {job : StructuringJob} {transitionedAt : Nat}

section Runs

/-- The tables, the clock, and what has become of every case so far. -/
structure Trace where
  tables : Database
  now : Nat
  changes : CaseId → List (Stage × Stage)

def Trace.next (t : Trace) (w : Database) (now : Nat) : Trace :=
  ⟨w, now, fun id => t.changes id ++ change (t.tables.stageOf id) (w.stageOf id)⟩

def Trace.step (t : Trace) (op : Operation) : Trace := t.next (t.tables.step op) (op.reading.getD t.now)

structure Database.NoCases (w : Database) : Prop where
  cases : w.cases = []
  revisions : w.revisions = []
  informationRequests : w.informationRequests = []
  events : w.events = []
  operations : w.operations = []

/-- The clock has moved on, and a request comes from the service. -/
structure Trace.Takes (t : Trace) (op : Operation) : Prop where
  built : op.Built
  clock : ∀ reading ∈ op.reading, t.now < reading

/-- The intake from tables without cases on; other modules write to their own tables and
queues whatever they like. -/
abbrev caseSystem : System Trace Operation where
  start t := t.tables.NoCases ∧ t.changes = fun _ => []
  step := Trace.step
  other t t' := ∃ w, SameIntake t.tables w ∧ t' = t.next w t.now

abbrev CaseRun (allowed : Trace → Operation → Prop) : Trace → Prop := Run caseSystem allowed

/-- Runs of the application alone, with their history. -/
abbrev OwnRun (w : Database) (now : Nat) (allowed : Trace → Operation → Prop) : Trace → Prop :=
  Run (.alone ⟨w, now, fun _ => []⟩ Trace.step) allowed

variable {t : Trace} {w : Database} {now : Nat} {op : Operation} {allowed : Trace → Operation → Prop}

theorem OwnRun.cases (h : OwnRun w now allowed t) (hempty : w.NoCases)
    (hallowed : ∀ t op, OwnRun w now allowed t → allowed t op → allowed' t op) : CaseRun allowed' t := by
  refine h.map id ?_ (fun _ _ => rfl) nofun hallowed
  rintro t rfl
  exact ⟨hempty, rfl⟩

/-- The ledger of every case is complete, and no case has left a terminal stage. -/
structure Trace.Complete (t : Trace) : Prop where
  ledger : ∀ id, Continues CaseEvent.eventSequence CaseEvent.transition [] 0 (t.tables.eventsOf id)
    (t.tables.sequenceOf id) (t.changes id)
  leads : ∀ id, Leads .draft (t.changes id) (t.tables.stageOf id)
  live : ∀ id, ∀ change ∈ t.changes id, change.1 ∉ terminalStages

theorem Trace.Complete.next (h : t.Complete) (hmoved : ∀ id, Moved t.tables w id) : (t.next w now).Complete where
  ledger id := (h.ledger id).trans (hmoved id).told
  leads id := (h.leads id).change
  live id c hc := by
    rcases List.mem_append.mp hc with hold | hnew
    · exact h.live id c hold
    · obtain ⟨rfl, hne⟩ := Ledger.mem_change hnew
      exact fun hterminal => hne ((hmoved id).stays hterminal).symm

theorem Trace.Complete.empty (hempty : w.NoCases) : Trace.Complete ⟨w, now, fun _ => []⟩ := by
  have hstage : ∀ id, w.stageOf id = .draft := by
    intro id
    simp [Database.stageOf, Database.intakeCase, Table.find, hempty.cases]
  have hsequence : ∀ id, w.sequenceOf id = 0 := by
    intro id
    simp [Database.sequenceOf, Database.intakeCase, Table.find, hempty.cases]
  have hevents : ∀ id, w.eventsOf id = [] := by
    intro id
    simp [Database.eventsOf, hempty.events]
  refine ⟨fun id => ?_, fun id => ?_, fun id c hc => absurd hc List.not_mem_nil⟩
  · rw [hevents, hsequence]
    exact .refl
  · rw [hstage]
    exact .nil

theorem Grounding.empty (hempty : w.NoCases) : Grounding w now := by
  refine ⟨?_, ?_, ?_, ?_⟩
  · simp [hempty.informationRequests, Table.Keyed]
  · simp [hempty.operations, Table.Keyed]
  · simp [hempty.operations]
  · simp [hempty.events]

theorem Grounding.same (h : Grounding w now) (hsame : SameIntake w w') : Grounding w' now := by
  have hgrows : Grows w w' := by
    refine ⟨by simp [hsame.revisions], fun r hr => ⟨r, ?_, rfl, id⟩, fun o ho _ => ?_⟩
    · rw [hsame.informationRequests]
      exact hr
    · rw [hsame.operations]
      exact ho
  refine ⟨?_, ?_, ?_, fun e he => ?_⟩
  · rw [hsame.informationRequests]
    exact h.requests
  · rw [hsame.operations]
    exact h.operations
  · rw [hsame.operations]
    exact h.built
  · rw [hsame.events] at he
    exact (h.keys e he).grows hgrows (Nat.le_refl _)

/-- Every key of the log is backed by the tables, in every run. -/
theorem CaseRun.grounding (h : CaseRun allowed t) (hallowed : ∀ t op, allowed t op → t.Takes op) :
    Grounding t.tables t.now := by
  induction h with
  | start hstart => exact .empty hstart.1
  | step _ hstep ih => exact ih.step (step_caseStep _ _) (hallowed _ _ hstep).built (hallowed _ _ hstep).clock
  | other _ hother ih =>
    obtain ⟨w, hsame, rfl⟩ := hother
    exact ih.same hsame

/-- The step is timely, and no handoff that a correction has undone. -/
def Trace.TakesOnce (t : Trace) (op : Operation) : Prop := t.Takes op ∧ HandsOffOnce t.tables op

/-- In every run the events of a case tell each change of its stage, in order. -/
theorem CaseRun.complete (h : CaseRun Trace.TakesOnce t) : t.Complete := by
  induction h with
  | @start t hstart =>
    obtain ⟨w, now, changes⟩ := t
    obtain ⟨hempty, rfl⟩ := hstart
    exact .empty hempty
  | step h hstep ih =>
    exact ih.next fun id =>
      caseStep_moved (step_caseStep _ _) (CaseRun.grounding h fun _ _ => And.left) hstep.1.clock hstep.2
  | other _ hother ih =>
    obtain ⟨w, hsame, rfl⟩ := hother
    exact ih.next fun id => .quiet hsame.cases hsame.events

/-- The ledger tells the truth about every case. -/
def Trace.Truthful (t : Trace) : Prop :=
  ∀ id c, t.tables.intakeCase id = some c →
    (t.tables.eventsOf id).map CaseEvent.eventSequence = List.range' 1 c.workflowEventSequence ∧
    (t.tables.eventsOf id).filterMap CaseEvent.transition = t.changes id ∧
    Leads .draft (t.changes id) c.stage ∧ ∀ change ∈ t.changes id, change.1 ∉ terminalStages

theorem Trace.Complete.truthful (h : t.Complete) : t.Truthful := by
  intro id c hc
  obtain ⟨hnumbers, hchanges⟩ := (h.ledger id).complete
  rw [sequenceOf_some hc] at hnumbers
  have hleads := h.leads id
  rw [stageOf_some hc] at hleads
  exact ⟨hnumbers, hchanges, hleads, h.live id⟩

theorem intakeCase_of_stageOf {id : CaseId} (h : w.stageOf id ≠ .draft) : ∃ c, w.intakeCase id = some c := by
  cases hfind : w.intakeCase id with
  | none => simp [Database.stageOf, hfind] at h
  | some c => exact ⟨c, rfl⟩

theorem handoff_untold (hjob : job ∈ w.structuringJobs) (hstage : w.stageOf job.caseId = .preOfferingOpen)
    (he : e ∈ w.events) (hkey : e.eventKey = .postIpoStructuring job.caseId job.traceId) :
    w.step (.postIpoStructuringHandoff fresh job transitionedAt) =
      w.setCase job.caseId (atStage .postIpoStructuring) := by
  have hlive : w.stageOf job.caseId ≠ .draft := by simp [hstage]
  obtain ⟨c, hfind⟩ := intakeCase_of_stageOf hlive
  rw [stageOf_some hfind] at hstage
  have hknown : (w.events.any fun e => e.eventKey = .postIpoStructuring job.caseId job.traceId) = true :=
    List.any_eq_true.mpr ⟨e, he, decide_eq_true hkey⟩
  have hrun : transitionToPostIpoStructuring fresh job transitionedAt w =
      .ok (.postIpoStructuring, w.setCase job.caseId (atStage .postIpoStructuring)) := by
    simp only [transitionToPostIpoStructuring, hfind, hstage, appendIntakeCaseEvent]
    simp [throwIf, Database.setCase, hknown, bind, Except.bind, pure, Except.pure]
    rfl
  simp only [Database.step, hjob, if_true, commit, hrun]

theorem untold_not_truthful (htrue : t.Truthful)
    (honce : ¬ HandsOffOnce t.tables (.postIpoStructuringHandoff fresh job transitionedAt)) :
    ¬ (t.step (.postIpoStructuringHandoff fresh job transitionedAt)).Truthful := by
  simp only [HandsOffOnce, not_forall, not_not] at honce
  obtain ⟨hjob, hstage, e, he, hkey⟩ := honce
  have hlive : t.tables.stageOf job.caseId ≠ .draft := by simp [hstage]
  obtain ⟨c, hfind⟩ := intakeCase_of_stageOf hlive
  have hid : ∀ c, (atStage .postIpoStructuring c).id = c.id := fun _ => rfl
  intro htrue'
  simp only [Trace.step, handoff_untold hjob hstage he hkey] at htrue'
  have hnext := (htrue' job.caseId _ (intakeCase_setCase hid hfind)).2.1
  have hprior := (htrue job.caseId c hfind).2.1
  have hmoved : (t.tables.setCase job.caseId (atStage .postIpoStructuring)).stageOf job.caseId =
      .postIpoStructuring := stageOf_some (intakeCase_setCase hid hfind)
  simp only [Trace.next, hmoved, hstage] at hnext
  have hsame := hprior.symm.trans hnext
  rw [Ledger.change_of_ne (by decide)] at hsame
  simp at hsame

/-- In every run that delivers no handoff a correction has undone, the ledger of every
case numbers its events without a gap, tells every change of the stage once and in its
order, and shows no terminal stage left; and the first delivery of an undone handoff
ends that. -/
theorem ledger_tells_every_change (h : CaseRun Trace.TakesOnce t) :
    t.Truthful ∧ ∀ op, t.Takes op → ((t.step op).Truthful ↔ HandsOffOnce t.tables op) := by
  refine ⟨h.complete.truthful, fun op htakes => ⟨fun htrue => ?_, fun honce => ?_⟩⟩
  · by_contra honce
    cases op with
    | postIpoStructuringHandoff => exact untold_not_truthful h.complete.truthful honce htrue
    | _ => exact honce trivial
  · exact (CaseRun.complete (h.step ⟨htakes, honce⟩)).truthful

def firstTrace : Trace := ⟨newDatabase, 0, fun _ => []⟩

theorem firstTrace_run : CaseRun allowed firstTrace := .start ⟨⟨rfl, rfl, rfl, rfl, rfl⟩, rfl⟩

end Runs

end Intake
