import VistaBlox.IntakeSteps
import VistaBlox.Ledger

/-!
# The ledger of a case

Every transaction appends to the ledger under a key that makes a repeated append do nothing,
so a move is told only if its key is new. The key of a handoff is new as long as no
correction has undone the handoff of the same job.
-/
namespace Intake

open Ledger (Leads change Continues)
open Offering (AccountId)

section Readings

variable {w w' : Database} {id id' : CaseId} {c : IntakeCase}

/-- A case begins as a draft, and so does one that is not there yet. -/
def Database.stageOf (w : Database) (id : CaseId) : Stage := ((w.intakeCase id).map IntakeCase.stage).getD .draft

def Database.sequenceOf (w : Database) (id : CaseId) : Nat :=
  ((w.intakeCase id).map IntakeCase.workflowEventSequence).getD 0

def Database.eventsOf (w : Database) (id : CaseId) : List CaseEvent := w.events.filter fun e => e.caseId = id

/-- The events of the case that are new tell the changes. -/
def Told (w w' : Database) (id : CaseId) (changes : List (Stage × Stage)) : Prop :=
  Continues CaseEvent.eventSequence CaseEvent.transition (w.eventsOf id) (w.sequenceOf id) (w'.eventsOf id)
    (w'.sequenceOf id) changes

theorem stageOf_some (h : w.intakeCase id = some c) : w.stageOf id = c.stage := by
  simp [Database.stageOf, h]

theorem sequenceOf_some (h : w.intakeCase id = some c) : w.sequenceOf id = c.workflowEventSequence := by
  simp [Database.sequenceOf, h]

theorem stageOf_congr (h : w'.cases = w.cases) : w'.stageOf id = w.stageOf id := by
  simp only [Database.stageOf, Database.intakeCase, h]

theorem sequenceOf_congr (h : w'.cases = w.cases) : w'.sequenceOf id = w.sequenceOf id := by
  simp only [Database.sequenceOf, Database.intakeCase, h]

theorem intakeCase_setCase (hf : ∀ c, (f c).id = c.id) (h : w.intakeCase id = some c) :
    (w.setCase id f).intakeCase id = some (f c) := by
  have hkeep : ∀ x : IntakeCase, (if x.id = id then f x else x).id = x.id := by
    intro x
    split
    · exact hf x
    · rfl
  have hid := (Table.find_some h).2
  unfold Database.intakeCase Database.setCase Table.update at *
  rw [Table.find_map hkeep, h]
  simp [hid]

theorem intakeCase_setCase_ne (hf : ∀ c, (f c).id = c.id) (hne : id' ≠ id) :
    (w.setCase id f).intakeCase id' = w.intakeCase id' := Table.find_update_ne hf hne

theorem intakeCase_withCase (h : ∀ x ∈ w.cases, x.id ≠ c.id) :
    (w.withCase c).intakeCase id = if id = c.id then some c else w.intakeCase id := by
  unfold Database.intakeCase Database.withCase Table.find
  rw [List.find?_append]
  split
  · rename_i heq
    have hnone : w.cases.find? (fun x => x.id = c.id) = none := by
      rw [List.find?_eq_none]
      intro x hx
      simpa using h x hx
    simp [heq, hnone]
  · rename_i hne
    simp [Ne.symm hne]

theorem intakeCase_none (h : ∀ x ∈ w.cases, x.id ≠ id) : w.intakeCase id = none := by
  unfold Database.intakeCase Table.find
  simpa using h

theorem stageOf_newCase (h : ∀ x ∈ w.cases, x.id ≠ id) :
    (w.withCase (newCase id propertyId accountId)).stageOf id' = w.stageOf id' := by
  unfold Database.stageOf
  rw [intakeCase_withCase h]
  split
  · rename_i heq
    rw [show id' = id from heq, intakeCase_none h]
    rfl
  · rfl

theorem sequenceOf_newCase (h : ∀ x ∈ w.cases, x.id ≠ id) :
    (w.withCase (newCase id propertyId accountId)).sequenceOf id' = w.sequenceOf id' := by
  unfold Database.sequenceOf
  rw [intakeCase_withCase h]
  split
  · rename_i heq
    rw [show id' = id from heq, intakeCase_none h]
    rfl
  · rfl

theorem stageOf_setCase (hf : ∀ c, (f c).id = c.id) (h : w.intakeCase id = some c) :
    (w.setCase id f).stageOf id' = if id' = id then (f c).stage else w.stageOf id' := by
  split
  · rename_i heq
    subst heq
    exact stageOf_some (intakeCase_setCase hf h)
  · rename_i hne
    unfold Database.stageOf
    rw [intakeCase_setCase_ne hf hne]

theorem sequenceOf_setCase (hf : ∀ c, (f c).id = c.id) (h : w.intakeCase id = some c) :
    (w.setCase id f).sequenceOf id' = if id' = id then (f c).workflowEventSequence else w.sequenceOf id' := by
  split
  · rename_i heq
    subst heq
    exact sequenceOf_some (intakeCase_setCase hf h)
  · rename_i hne
    unfold Database.sequenceOf
    rw [intakeCase_setCase_ne hf hne]

theorem Told.quiet (hevents : w'.events = w.events) (hsequence : w'.sequenceOf id = w.sequenceOf id) :
    Told w w' id [] := by
  unfold Told Database.eventsOf
  rw [hevents, hsequence]
  exact .refl

end Readings

section Appends

variable {w w' w₁ : Database} {eventId : EventId} {input : AppendIntakeCaseEventInput} {id : CaseId}

theorem Appends.revisions (h : Appends eventId input w w') : w'.revisions = w.revisions := by
  cases h <;> rfl

theorem Appends.informationRequests (h : Appends eventId input w w') :
    w'.informationRequests = w.informationRequests := by
  cases h <;> rfl

theorem Appends.operations (h : Appends eventId input w w') : w'.operations = w.operations := by
  cases h <;> rfl

theorem Appends.events (h : Appends eventId input w w') :
    ∀ e ∈ w'.events, e ∈ w.events ∨ e.eventKey = input.eventKey := by
  intro e he
  cases h with
  | known => exact .inl he
  | new =>
    rcases List.mem_append.mp he with h | h
    · exact .inl h
    · rw [List.mem_singleton.mp h]
      exact .inr rfl

theorem Appends.stageOf (h : Appends eventId input w w') : w'.stageOf id = w.stageOf id := by
  cases h with
  | known => rfl
  | new _ hfind =>
    have hcounted : ∀ c, (counted c).id = c.id := fun _ => rfl
    refine (stageOf_setCase hcounted hfind).trans ?_
    split
    · rename_i heq
      rw [heq, stageOf_some hfind]
      rfl
    · rfl

theorem Appends.told (h : Appends eventId input w w')
    (hnew : input.transition.isSome → ∀ e ∈ w.events, e.eventKey ≠ input.eventKey) :
    Told w w' id (if id = input.caseId then input.transition.toList else []) := by
  cases h with
  | known he hkey =>
    have hnone : input.transition = none := by
      cases htransition : input.transition with
      | none => rfl
      | some => exact absurd hkey (hnew (by rw [htransition]; rfl) _ he)
    rw [hnone, Option.toList_none, ite_self]
    exact .quiet rfl rfl
  | @new current _ hfind =>
    have hcounted : ∀ c, (counted c).id = c.id := fun _ => rfl
    have hsequence : (w.appended eventId input (current.workflowEventSequence + 1)).sequenceOf id =
        if id = input.caseId then current.workflowEventSequence + 1 else w.sequenceOf id :=
      sequenceOf_setCase hcounted hfind
    have hevents : (w.appended eventId input (current.workflowEventSequence + 1)).eventsOf id =
        w.eventsOf id ++ if id = input.caseId then [newEvent eventId input (current.workflowEventSequence + 1)]
          else [] := by
      refine (List.filter_append ..).trans (congrArg _ ?_)
      by_cases heq : id = input.caseId
      · simp [newEvent, heq]
      · simp [newEvent, heq, Ne.symm heq]
    unfold Told
    rw [hsequence, hevents]
    by_cases heq : id = input.caseId
    · simp only [heq, if_true]
      rw [sequenceOf_some hfind]
      exact .single rfl
    · simp only [heq, if_false, List.append_nil]
      exact .refl

/-- What has become of the stage of the case is told, and no terminal stage has been left. -/
structure Moved (w w' : Database) (id : CaseId) : Prop where
  told : Told w w' id (change (w.stageOf id) (w'.stageOf id))
  stays : w.stageOf id ∈ terminalStages → w'.stageOf id = w.stageOf id

theorem Moved.quiet (hcases : w'.cases = w.cases) (hevents : w'.events = w.events) : Moved w w' id := by
  have hstage : w'.stageOf id = w.stageOf id := stageOf_congr hcases
  refine ⟨?_, fun _ => hstage⟩
  rw [hstage, Ledger.change_self]
  exact .quiet hevents (sequenceOf_congr hcases)

theorem Moved.same (h : Moved w w₁ id) (hcases : w'.cases = w₁.cases) (hevents : w'.events = w₁.events) :
    Moved w w' id := by
  have hstage : w'.stageOf id = w₁.stageOf id := stageOf_congr hcases
  refine ⟨?_, fun hterminal => hstage.trans (h.stays hterminal)⟩
  rw [hstage, ← List.append_nil (change (w.stageOf id) (w₁.stageOf id))]
  exact h.told.trans (Told.quiet hevents (sequenceOf_congr hcases))

theorem Moved.append (happend : Appends eventId input w₁ w') (h : Moved w w₁ id) (hnone : input.transition = none) :
    Moved w w' id := by
  have htold : Told w₁ w' id (if id = input.caseId then input.transition.toList else []) :=
    happend.told fun hsome => by simp [hnone] at hsome
  rw [hnone, Option.toList_none, ite_self] at htold
  refine ⟨?_, fun hterminal => happend.stageOf.trans (h.stays hterminal)⟩
  rw [happend.stageOf, ← List.append_nil (change (w.stageOf id) (w₁.stageOf id))]
  exact h.told.trans htold

theorem Moved.tell (htold : Told w w₁ id [])
    (hstage : w₁.stageOf id = if id = input.caseId then stage else w.stageOf id)
    (hchange : input.transition.toList = change (w.stageOf input.caseId) stage)
    (hlive : w.stageOf input.caseId ∈ terminalStages → stage = w.stageOf input.caseId)
    (hnew : input.transition.isSome → ∀ e ∈ w₁.events, e.eventKey ≠ input.eventKey)
    (happend : Appends eventId input w₁ w') : Moved w w' id := by
  have hall : Told w w' id ([] ++ if id = input.caseId then input.transition.toList else []) :=
    htold.trans (happend.told hnew)
  rw [List.nil_append] at hall
  have hstage' := happend.stageOf.trans hstage
  by_cases heq : id = input.caseId
  · subst heq
    simp only [if_true] at hall hstage'
    constructor
    · rw [hstage', ← hchange]
      exact hall
    · rw [hstage']
      exact hlive
  · simp only [heq, if_false] at hall hstage'
    constructor
    · rw [hstage', Ledger.change_self]
      exact hall
    · exact fun _ => hstage'

theorem Told.rewrite (hfind : w.intakeCase caseId = some current) (hcases : w₁.cases = (w.setCase caseId f).cases)
    (hevents : w₁.events = w.events) (hid : ∀ c, (f c).id = c.id)
    (hnumber : ∀ c, (f c).workflowEventSequence = c.workflowEventSequence) : Told w w₁ id [] := by
  refine .quiet hevents ?_
  rw [sequenceOf_congr hcases, sequenceOf_setCase hid hfind, hnumber current]
  split
  · rename_i heq
    rw [heq, sequenceOf_some hfind]
  · rfl

/-- A transaction rewrites its case and appends: the ledger tells what the rewrite
does to the stage. -/
theorem Moved.write (happend : Appends eventId input w₁ w') (hfind : w.intakeCase input.caseId = some current)
    (hcases : w₁.cases = (w.setCase input.caseId f).cases) (hevents : w₁.events = w.events)
    (hf : ∀ c, (f c).id = c.id ∧ (f c).workflowEventSequence = c.workflowEventSequence)
    (hchange : input.transition.toList = change current.stage (f current).stage)
    (hlive : current.stage ∈ terminalStages → (f current).stage = current.stage)
    (hnew : input.transition.isSome → ∀ e ∈ w.events, e.eventKey ≠ input.eventKey) : Moved w w' id := by
  have hid : ∀ c, (f c).id = c.id := fun c => (hf c).1
  have hstage : w₁.stageOf id = if id = input.caseId then (f current).stage else w.stageOf id := by
    rw [stageOf_congr hcases, stageOf_setCase hid hfind]
  rw [← stageOf_some hfind] at hchange hlive
  rw [← hevents] at hnew
  exact .tell (.rewrite hfind hcases hevents hid fun c => (hf c).2) hstage hchange hlive hnew happend

end Appends

variable {action : ReversalAction} {command : ReversalCommand} {requestId : RequestId}
  {snapshot : ReversalSnapshot}

/-- The stage a command starts from. -/
def ReversalCommand.source : ReversalCommand → Stage
  | .returnToDraft => .submitted
  | .withdrawInformationRequest => .waitingOnApplicant
  | .reopenPreOffering => .preOfferingOpen
  | .reopenStructuring => .postIpoStructuring
  | .reopenFinalOfferingReview => .approvedForFinalOffering

def ReversalCommand.target : ReversalCommand → Stage
  | .returnToDraft => .draft
  | .withdrawInformationRequest => .submitted
  | .reopenPreOffering => .submitted
  | .reopenStructuring => .preOfferingOpen
  | .reopenFinalOfferingReview => .postIpoStructuring

def ReversalCommand.requiresSecondApproval : ReversalCommand → Bool
  | .returnToDraft | .withdrawInformationRequest => false
  | .reopenPreOffering | .reopenStructuring | .reopenFinalOfferingReview => true

theorem evaluateReversalActions_mem (h : action ∈ evaluateReversalActions snapshot) :
    snapshot.stage = action.command.source ∧ action.targetStage = action.command.target ∧
      action.requiresSecondApproval = action.command.requiresSecondApproval := by
  unfold evaluateReversalActions at h
  split at h
  · cases h
  · have hmem := List.mem_of_mem_filter h
    cases hstage : snapshot.stage <;> simp only [hstage] at hmem
    case submitted | waitingOnApplicant =>
      split at hmem
      · rw [List.mem_singleton.mp hmem]
        exact ⟨rfl, rfl, rfl⟩
      · cases hmem
    case preOfferingOpen | postIpoStructuring | approvedForFinalOffering =>
      rw [List.mem_singleton.mp hmem]
      exact ⟨rfl, rfl, rfl⟩
    all_goals cases hmem

theorem getReversalAction_some (h : getReversalAction snapshot command = some action) :
    snapshot.stage = command.source ∧ action.targetStage = command.target ∧
      action.requiresSecondApproval = command.requiresSecondApproval := by
  have hcommand : action.command = command := by simpa using List.find?_some h
  rw [← hcommand]
  exact evaluateReversalActions_mem (List.mem_of_find?_eq_some h)

/-- The corrections that a stage offers subject to blockers only. -/
inductive Reopens : ReversalCommand → (ReversalSnapshot → ReversalAction) → Prop where
  | preOffering : Reopens .reopenPreOffering reopenPreOfferingAction
  | structuring : Reopens .reopenStructuring reopenStructuringAction
  | finalOfferingReview : Reopens .reopenFinalOfferingReview reopenFinalOfferingReviewAction

theorem Reopens.offered (h : Reopens command build) :
    (getReversalAction snapshot command).isSome ↔
      snapshot.correctionInProgress = false ∧ snapshot.latestTransitionReversed = false ∧
        snapshot.stage = command.source ∧ (build snapshot).blockers = [] := by
  refine ⟨fun hsome => ?_, fun ⟨hidle, hnew, hstage, hblockers⟩ => ?_⟩
  · obtain ⟨action, haction⟩ := Option.isSome_iff_exists.mp hsome
    have hstage := (getReversalAction_some haction).1
    have hmem := List.mem_of_find?_eq_some haction
    unfold evaluateReversalActions at hmem
    split at hmem
    · cases hmem
    · rename_i hopen
      simp only [not_or, Bool.not_eq_true] at hopen
      refine ⟨hopen.1, hopen.2.1, hstage, ?_⟩
      rw [hstage] at hmem
      cases h <;>
        simp only [ReversalCommand.source, List.mem_filter, List.mem_singleton, decide_eq_true_eq] at hmem <;>
        exact hmem.1 ▸ hmem.2
  · have hlive : command.source ∉ terminalStages := by cases h <;> decide
    simp only [getReversalAction, evaluateReversalActions, hidle, hnew, hlive, hstage, Bool.false_eq_true, or_self,
      if_false]
    cases h <;> simp only [ReversalCommand.source, List.filter_singleton, hblockers, decide_true, cond_true] <;> rfl

/-- What a command does to the row of its case. -/
def ReversalCommand.apply : ReversalCommand → IntakeCase → IntakeCase
  | .returnToDraft, c => { c with stage := .draft }
  | .withdrawInformationRequest, c => c
  | .reopenPreOffering, c => { c with
    stage := .submitted
    approvedAt := none
    ipoEndAt := none
    ipoValueEur := none }
  | .reopenStructuring, c => { c with
    stage := .preOfferingOpen
    postIpoStructuringCompletedAt := none }
  | .reopenFinalOfferingReview, c => { c with
    stage := .postIpoStructuring
    approvedForFinalOfferingAt := none
    postIpoStructuringCompletedAt := none }

theorem ReversalCommand.apply_keeps (command : ReversalCommand) (c : IntakeCase) :
    (command.apply c).id = c.id ∧ (command.apply c).workflowEventSequence = c.workflowEventSequence := by
  cases command <;> exact ⟨rfl, rfl⟩

theorem ReversalCommand.apply_stage (h : command ≠ .withdrawInformationRequest) (c : IntakeCase) :
    (command.apply c).stage = command.target := by
  cases command with
  | withdrawInformationRequest => exact absurd rfl h
  | _ => rfl

theorem executeCommand_some (h : executeCommand caseId offeringId w command = some w') :
    command ≠ .withdrawInformationRequest ∧ w'.cases = (w.setCase caseId command.apply).cases ∧
      w'.revisions = w.revisions ∧ w'.informationRequests = w.informationRequests ∧ w'.events = w.events ∧
      w'.operations = w.operations := by
  cases command with
  | withdrawInformationRequest => cases h
  | reopenPreOffering =>
    cases h
    cases offeringId <;> exact ⟨nofun, rfl, rfl, rfl, rfl, rfl⟩
  | _ =>
    cases h
    exact ⟨nofun, rfl, rfl, rfl, rfl, rfl⟩

theorem awaitsAnswer_published (h : awaitsAnswer w current requestId = true) : current.stage = .waitingOnApplicant ∧
      ∃ r ∈ w.informationRequests, r.id = requestId ∧ r.caseId = current.id ∧ r.status = .published := by
  obtain ⟨hstage, hany⟩ := of_decide_eq_true h
  obtain ⟨r, hr, hstatus⟩ := (Option.any_eq_true _ _).mp hany
  obtain ⟨hfind, hcase⟩ := Option.filter_eq_some_iff.mp hr
  obtain ⟨hmem, hid⟩ := Table.find_some hfind
  exact ⟨hstage, r, hmem, hid, of_decide_eq_true hcase, of_decide_eq_true hstatus⟩

theorem awaitsAnswer_request (hfind : w.intakeCase caseId = some current)
    (h : awaitsAnswer w current requestId = true) : current.stage = .waitingOnApplicant ∧
      ∃ r ∈ w.informationRequests, r.id = requestId ∧ r.caseId = caseId ∧ r.status = .published := by
  have hwaits := awaitsAnswer_published h
  rwa [(Table.find_some hfind).2] at hwaits

variable {o : ReversalOperation}

section Rows

variable {w w' : Database} {op : Operation}

/-- A request is published, or one is resolved. -/
inductive RequestStep (rows : List InformationRequest) : List InformationRequest → Prop where
  | same : RequestStep rows rows
  | publish {r : InformationRequest} (hnew : ∀ x ∈ rows, x.id ≠ r.id) : RequestStep rows (rows ++ [r])
  | resolve {id : RequestId} {f : InformationRequest → InformationRequest}
      (hf : ∀ r, (f r).id = r.id ∧ (f r).status ≠ .published) :
      RequestStep rows (Table.update InformationRequest.id rows id f)

/-- The request is as the service builds it from a snapshot the policy has accepted. -/
def Operation.Built : Operation → Prop
  | .createReversalOperation _ input => ∃ request snapshot, requestIntakeReversal request (some snapshot) = .ok input
  | _ => True

/-- What a correction says about its command. -/
def ReversalOperation.Built (o : ReversalOperation) : Prop :=
  o.expectedStage = o.command.source ∧ o.fromStage = o.command.source ∧ o.toStage = o.command.target

/-- The policy allows the correction when it is executed. -/
structure Operation.Executes (op : Operation) (w : Database) (o : ReversalOperation) : Prop where
  executes : ∃ fresh input, op = .executeReversalOperation fresh input ∧
    w.reversalOperation input.caseId input.operationId = some o
  allowed : ∃ snapshot action, loadReversalSnapshot w o.caseId (some o.id) = some snapshot ∧
    getReversalAction snapshot o.command = some action

/-- A correction is requested, one that has not ended goes on, or one is executed. -/
inductive OperationStep (w : Database) (op : Operation) : List ReversalOperation → Prop where
  | same : OperationStep w op w.operations
  | request {o : ReversalOperation} (hnew : ∀ x ∈ w.operations, x.id ≠ o.id) (hbuilt : op.Built → o.Built) :
      OperationStep w op (w.operations ++ [o])
  | move {o : ReversalOperation} {f : ReversalOperation → ReversalOperation} (ho : o ∈ w.operations)
      (hopen : o.status ≠ .completed)
      (hf : ∀ x, (f x).id = x.id ∧ (x.Built → (f x).Built) ∧ (f x).status ≠ .completed) :
      OperationStep w op (Table.update ReversalOperation.id w.operations o.id f)
  | complete {o : ReversalOperation} (ho : o ∈ w.operations) (hopen : o.status ≠ .completed)
      (hexecutes : op.Executes w o) :
      OperationStep w op (Table.update ReversalOperation.id w.operations o.id fun o => { o with status := .completed })

theorem requestIntakeReversal_built (h : requestIntakeReversal request (some snapshot) = .ok input)
    (id : OperationId) : (newOperation id input).Built := by
  unfold requestIntakeReversal at h
  dsimp only at h
  split at h
  · cases h
  · rename_i hseen
    split at h
    · cases h
    · rename_i action haction
      obtain ⟨hsource, htarget, -⟩ := getReversalAction_some haction
      obtain ⟨hstage, -⟩ := not_or.mp hseen
      cases h
      exact ⟨(not_not.mp hstage).symm.trans hsource, hsource, htarget⟩

theorem caseStep_requests (h : CaseStep w op w') : RequestStep w.informationRequests w'.informationRequests := by
  cases h with
  | outside h => exact h.informationRequests ▸ .same
  | draft _ happend | submit _ _ _ _ _ happend | reject _ _ _ happend | close _ _ happend | assign _ _ happend
  | writeback _ _ _ _ _ happend | handoff _ _ _ happend
  | request _ _ _ _ _ happend => exact happend.informationRequests ▸ .same
  | staff _ _ hcreated happend => exact (happend.informationRequests.trans hcreated.informationRequests) ▸ .same
  | publish _ _ _ _ hnew happend => exact happend.informationRequests ▸ .publish hnew
  | expire _ _ happend | withdraw _ _ happend
  | resubmit _ _ _ _ _ happend => exact happend.informationRequests ▸ .resolve fun _ => ⟨rfl, nofun⟩
  | approve _ _ _ _ happend hqueued =>
    exact (hqueued.informationRequests.trans happend.informationRequests) ▸ .same
  | claim => exact .same
  | fail => exact .same
  | execute _ _ _ _ _ _ _ hexecute happend =>
    obtain ⟨-, -, -, hrequests, -⟩ := executeCommand_some hexecute
    exact (happend.informationRequests.trans hrequests) ▸ .same

theorem reversalOperation_some (h : w.reversalOperation caseId operationId = some o) :
    o ∈ w.operations ∧ o.id = operationId ∧ o.caseId = caseId := by
  obtain ⟨hfind, hcase⟩ := Option.filter_eq_some_iff.mp h
  obtain ⟨hmem, hid⟩ := Table.find_some hfind
  exact ⟨hmem, hid, of_decide_eq_true hcase⟩

theorem caseStep_operations (h : CaseStep w op w') : OperationStep w op w'.operations := by
  cases h with
  | outside h => exact h.operations ▸ .same
  | draft _ happend | submit _ _ _ _ _ happend | publish _ _ _ _ _ happend | expire _ _ happend
  | withdraw _ _ happend | resubmit _ _ _ _ _ happend | reject _ _ _ happend | close _ _ happend
  | assign _ _ happend | writeback _ _ _ _ _ happend | handoff _ _ _ happend => exact happend.operations ▸ .same
  | staff _ _ hcreated happend => exact (happend.operations.trans hcreated.operations) ▸ .same
  | approve _ _ _ _ happend hqueued => exact (hqueued.operations.trans happend.operations) ▸ .same
  | request _ _ _ _ hnew happend =>
    refine happend.operations ▸ .request hnew ?_
    rintro ⟨request, snapshot, hrequest⟩
    exact requestIntakeReversal_built hrequest _
  | claim hoperation hstatus =>
    obtain ⟨hmem, hid, -⟩ := reversalOperation_some hoperation
    subst hid
    exact .move hmem (by simp [hstatus]) fun _ => ⟨rfl, fun h => h, nofun⟩
  | fail hoperation hstatus =>
    refine .move (reversalOperation_some hoperation).1 ?_ fun _ => ⟨rfl, fun h => h, nofun⟩
    rcases hstatus with h | h | h <;> simp [h]
  | @execute _ input _ _ snapshot action _ _ hoperation _ hstatus _ _ hsnapshot haction hexecute happend =>
    obtain ⟨-, -, -, -, -, hoperations⟩ := executeCommand_some hexecute
    obtain ⟨hmem, -, hcase⟩ := reversalOperation_some hoperation
    simp only [Database.setOperation]
    rw [happend.operations, hoperations]
    refine .complete hmem ?_ ⟨⟨_, input, rfl, hoperation⟩, snapshot, action, hcase ▸ hsnapshot, haction⟩
    rcases hstatus with h | h <;> simp [h]

end Rows

section Keys

variable {w w' : Database} {op : Operation} {now now' : Nat} {key : EventKey}

/-- What is there once an event has the key. -/
def EventKey.Grounded (w : Database) (now : Nat) : EventKey → Prop
  | .submitted _ revisionId | .informationRequestResubmitted _ _ revisionId => ∃ r ∈ w.revisions, r.id = revisionId
  | .informationRequestPublished _ requestId => ∃ r ∈ w.informationRequests, r.id = requestId
  | .informationRequestExpired _ requestId | .informationRequestWithdrawn _ requestId =>
    ∃ r ∈ w.informationRequests, r.id = requestId ∧ r.status ≠ .published
  | .founderDecision _ t | .closed _ t _ | .legalStructuring _ t _ | .appraisal _ t _ => t ≤ now
  | .reversalCompleted _ operationId => ∃ o ∈ w.operations, o.id = operationId ∧ o.status = .completed
  | _ => True

/-- What is there when an event with the key is appended. -/
def EventKey.Appended (w : Database) (now : Nat) : EventKey → Prop
  | .postIpoStructuring caseId _ => w.stageOf caseId = .postIpoStructuring
  | key => key.Grounded w now

theorem EventKey.Appended.grounded (h : key.Appended w now) : key.Grounded w now := by
  cases key with
  | postIpoStructuring => trivial
  | _ => exact h

/-- No row goes, and what has ended stays so. -/
structure Grows (w w' : Database) : Prop where
  revisions : w.revisions ⊆ w'.revisions
  informationRequests : ∀ r ∈ w.informationRequests, ∃ r' ∈ w'.informationRequests, r'.id = r.id ∧
    (r.status ≠ .published → r'.status ≠ .published)
  operations : ∀ o ∈ w.operations, o.status = .completed → o ∈ w'.operations

theorem EventKey.Grounded.grows (h : key.Grounded w now) (hgrows : Grows w w') (hnow : now ≤ now') :
    key.Grounded w' now' := by
  cases key with
  | submitted | informationRequestResubmitted =>
    obtain ⟨r, hr, hid⟩ := h
    exact ⟨r, hgrows.revisions hr, hid⟩
  | informationRequestPublished =>
    obtain ⟨r, hr, hid⟩ := h
    obtain ⟨r', hr', hid', -⟩ := hgrows.informationRequests r hr
    exact ⟨r', hr', hid'.trans hid⟩
  | informationRequestExpired | informationRequestWithdrawn =>
    obtain ⟨r, hr, hid, hstatus⟩ := h
    obtain ⟨r', hr', hid', hstatus'⟩ := hgrows.informationRequests r hr
    exact ⟨r', hr', hid'.trans hid, hstatus' hstatus⟩
  | founderDecision | closed | legalStructuring | appraisal => exact Nat.le_trans h hnow
  | reversalCompleted =>
    obtain ⟨o, ho, hid, hstatus⟩ := h
    exact ⟨o, hgrows.operations o ho hstatus, hid, hstatus⟩
  | _ => trivial

structure Grounding (w : Database) (now : Nat) : Prop where
  requests : Table.Keyed InformationRequest.id w.informationRequests
  operations : Table.Keyed ReversalOperation.id w.operations
  built : ∀ o ∈ w.operations, o.Built
  keys : ∀ e ∈ w.events, e.eventKey.Grounded w now

theorem Grounding.new (h : Grounding w now) (hkey : ¬ key.Grounded w now) : ∀ e ∈ w.events, e.eventKey ≠ key := by
  rintro e he rfl
  exact hkey (h.keys e he)

theorem Grounding.unresolved (h : Grounding w now) (hawaits : awaitsAnswer w current requestId = true) :
    ¬ ∃ r ∈ w.informationRequests, r.id = requestId ∧ r.status ≠ .published := by
  obtain ⟨-, r, hr, hid, -, hstatus⟩ := awaitsAnswer_published hawaits
  rintro ⟨r', hr', hid', hstatus'⟩
  rw [h.requests.eq_of_key hr' hr (hid'.trans hid.symm)] at hstatus'
  exact hstatus' hstatus

theorem RequestStep.keyed (h : RequestStep rows rows')
    (hkeyed : Table.Keyed InformationRequest.id rows) : Table.Keyed InformationRequest.id rows' := by
  cases h with
  | same => exact hkeyed
  | publish hnew =>
    refine hkeyed.append (List.find?_eq_none.mpr fun x hx => ?_)
    simpa using hnew x hx
  | resolve hf =>
    refine hkeyed.map fun x _ => ?_
    split
    · exact (hf x).1
    · rfl

theorem RequestStep.grows (h : RequestStep rows rows') :
    ∀ r ∈ rows, ∃ r' ∈ rows', r'.id = r.id ∧ (r.status ≠ .published → r'.status ≠ .published) := by
  intro r hr
  cases h with
  | same => exact ⟨r, hr, rfl, id⟩
  | publish => exact ⟨r, List.mem_append_left _ hr, rfl, id⟩
  | resolve hf =>
    refine ⟨_, List.mem_map_of_mem hr, ?_⟩
    split
    · exact ⟨(hf r).1, fun _ => (hf r).2⟩
    · exact ⟨rfl, id⟩

theorem OperationStep.keyed (h : OperationStep w op rows) (hkeyed : Table.Keyed ReversalOperation.id w.operations) :
    Table.Keyed ReversalOperation.id rows := by
  cases h with
  | same => exact hkeyed
  | request hnew =>
    refine hkeyed.append (List.find?_eq_none.mpr fun x hx => ?_)
    simpa using hnew x hx
  | move _ _ hf =>
    refine hkeyed.map fun x _ => ?_
    split
    · exact (hf x).1
    · rfl
  | complete =>
    refine hkeyed.map fun x _ => ?_
    split <;> rfl

theorem mem_update_of_ne (hx : x ∈ rows)
    (hne : x.id ≠ o.id) : x ∈ Table.update ReversalOperation.id rows o.id f :=
  List.mem_map.mpr ⟨x, hx, if_neg hne⟩

theorem OperationStep.grows (h : OperationStep w op rows) (hkeyed : Table.Keyed ReversalOperation.id w.operations) :
    ∀ o ∈ w.operations, o.status = .completed → o ∈ rows := by
  intro x hx hcompleted
  cases h with
  | same => exact hx
  | request => exact List.mem_append_left _ hx
  | move ho hopen | complete ho hopen =>
    refine mem_update_of_ne hx fun hid => ?_
    rw [hkeyed.eq_of_key hx ho hid] at hcompleted
    exact hopen hcompleted

theorem OperationStep.built (h : OperationStep w op rows) (hop : op.Built) (hbuilt : ∀ o ∈ w.operations, o.Built) :
    ∀ o ∈ rows, o.Built := by
  intro x hx
  cases h with
  | same => exact hbuilt x hx
  | request _ hnew =>
    rcases List.mem_append.mp hx with h | h
    · exact hbuilt x h
    · rw [List.mem_singleton.mp h]
      exact hnew hop
  | move _ _ hf =>
    obtain ⟨y, hy, rfl⟩ := List.mem_map.mp hx
    split
    · exact (hf y).2.1 (hbuilt y hy)
    · exact hbuilt y hy
  | complete =>
    obtain ⟨y, hy, rfl⟩ := List.mem_map.mp hx
    split
    · exact hbuilt y hy
    · exact hbuilt y hy

theorem caseStep_revisions (h : CaseStep w op w') : w.revisions ⊆ w'.revisions := by
  cases h with
  | outside h => exact h.revisions ▸ List.Subset.refl _
  | draft _ happend | publish _ _ _ _ _ happend | expire _ _ happend | withdraw _ _ happend
  | reject _ _ _ happend | close _ _ happend | assign _ _ happend | writeback _ _ _ _ _ happend
  | handoff _ _ _ happend | request _ _ _ _ _ happend => exact happend.revisions ▸ List.Subset.refl _
  | staff _ _ hcreated happend =>
    exact (happend.revisions.trans hcreated.revisions) ▸ List.subset_append_left ..
  | submit _ _ _ _ _ happend
  | resubmit _ _ _ _ _ happend => exact happend.revisions ▸ List.subset_append_left ..
  | approve _ _ _ _ happend hqueued => exact (hqueued.revisions.trans happend.revisions) ▸ List.Subset.refl _
  | claim | fail => exact List.Subset.refl _
  | execute _ _ _ _ _ _ _ hexecute happend =>
    obtain ⟨-, -, hrevisions, -⟩ := executeCommand_some hexecute
    exact (happend.revisions.trans hrevisions) ▸ List.Subset.refl _

theorem caseStep_grows (h : CaseStep w op w') (hg : Grounding w now) : Grows w w' where
  revisions := caseStep_revisions h
  informationRequests := (caseStep_requests h).grows
  operations := (caseStep_operations h).grows hg.operations

/-- The clock reading of an operation of the intake. -/
def Operation.reading : Operation → Option Nat
  | .createDraftIntake _ _ t | .createStaffCase _ _ _ t | .submitInitialCase _ _ _ t
  | .publishInformationRequest _ _ _ t _ | .expireInformationRequest _ _ _ t _
  | .withdrawInformationRequest _ _ _ _ t | .resubmitAfterInformationRequest _ _ _ _ t
  | .postIpoStructuringHandoff _ _ t => some t
  | .recordFounderDecision _ input => some input.decidedAt
  | .closeCase _ input => some input.closedAt
  | .assignPartnerOrganization _ input => some input.assignedAt
  | .recordLegalStructuring _ input | .recordAppraisal _ input => some input.recordedAt
  | .createReversalOperation _ input => some input.requestedAt
  | .executeReversalOperation _ input => some input.completedAt
  | _ => none

theorem resolved_grounded (hawaits : awaitsAnswer w current requestId = true)
    (hrows : w'.informationRequests = (w.resolveRequest requestId status t r).informationRequests)
    (hstatus : status ≠ .published) : ∃ x ∈ w'.informationRequests, x.id = requestId ∧ x.status ≠ .published := by
  obtain ⟨-, x, hx, hid, -⟩ := awaitsAnswer_published hawaits
  rw [hrows]
  refine ⟨_, List.mem_map_of_mem hx, ?_⟩
  rw [if_pos hid]
  exact ⟨hid, hstatus⟩

theorem Appends.keys {eventId : EventId} {input : AppendIntakeCaseEventInput} {w₁ w₂ : Database}
    {old : List CaseEvent} {P : EventKey → Prop} (h : Appends eventId input w₁ w₂)
    (hold : ∀ e ∈ w₁.events, e ∈ old ∨ P e.eventKey) (hkey : P input.eventKey) :
    ∀ e ∈ w₂.events, e ∈ old ∨ P e.eventKey := by
  intro e he
  rcases h.events e he with h | h
  · exact hold e h
  · rw [h]
    exact .inr hkey

theorem caseStep_keys (h : CaseStep w op w') (now : Nat) :
    ∀ e ∈ w'.events, e ∈ w.events ∨ e.eventKey.Appended w' (op.reading.getD now) := by
  have hold : ∀ e ∈ w.events, e ∈ w.events ∨ e.eventKey.Appended w' (op.reading.getD now) := fun _ => .inl
  have hlast {α : Type} (rows : List α) (x : α) : x ∈ rows ++ [x] :=
    List.mem_append_right rows (List.mem_singleton_self x)
  cases h with
  | outside h =>
    rw [h.events]
    exact hold
  | draft _ happend | assign _ _ happend | request _ _ _ _ _ happend => exact happend.keys hold trivial
  | handoff _ hfind _ happend =>
    refine happend.keys hold (happend.stageOf.trans ?_)
    exact stageOf_some (intakeCase_setCase (f := atStage .postIpoStructuring) (fun _ => rfl) hfind)
  | staff _ _ hcreated happend =>
    refine happend.keys (hcreated.keys hold trivial) ?_
    simp only [EventKey.Appended, EventKey.Grounded]
    rw [happend.revisions, hcreated.revisions]
    exact ⟨_, hlast .., rfl⟩
  | submit _ _ _ _ _ happend | resubmit _ _ _ _ _ happend =>
    refine happend.keys hold ?_
    simp only [EventKey.Appended, EventKey.Grounded]
    rw [happend.revisions]
    exact ⟨_, hlast .., rfl⟩
  | publish _ _ _ _ _ happend =>
    refine happend.keys hold ?_
    simp only [EventKey.Appended, EventKey.Grounded]
    rw [happend.informationRequests]
    exact ⟨_, hlast .., rfl⟩
  | expire _ hawaits happend | withdraw _ hawaits happend =>
    exact happend.keys hold (resolved_grounded hawaits happend.informationRequests nofun)
  | reject _ _ _ happend | close _ _ happend => exact happend.keys hold (Nat.le_refl _)
  | approve _ _ _ _ happend hqueued => exact hqueued.keys (happend.keys hold (Nat.le_refl _)) trivial
  | writeback hkind _ _ _ _ happend =>
    cases hkind with
    | legal | appraisal => exact happend.keys hold (Nat.le_refl _)
  | claim => exact hold
  | fail => exact hold
  | execute hoperation _ _ _ _ _ _ hexecute happend =>
    obtain ⟨-, -, -, -, hevents, hoperations⟩ := executeCommand_some hexecute
    obtain ⟨hmem, -⟩ := Table.find_some (Option.filter_eq_some_iff.mp hoperation).1
    rw [← hoperations, ← happend.operations] at hmem
    refine happend.keys (hevents ▸ hold) ⟨_, List.mem_map_of_mem hmem, ?_⟩
    rw [if_pos rfl]
    exact ⟨rfl, rfl⟩

/-- Every operation backs the key it appends, and keeps the others backed. -/
theorem Grounding.step (h : Grounding w now) (hstep : CaseStep w op w') (hbuilt : op.Built)
    (hclock : ∀ t ∈ op.reading, now < t) : Grounding w' (op.reading.getD now) := by
  have hnow : now ≤ op.reading.getD now := by
    cases hreading : op.reading with
    | none => exact Nat.le_refl _
    | some t => exact (hclock t hreading).le
  refine ⟨(caseStep_requests hstep).keyed h.requests, (caseStep_operations hstep).keyed h.operations,
    (caseStep_operations hstep).built hbuilt h.built, fun e he => ?_⟩
  rcases caseStep_keys hstep now e he with hold | hnew
  · exact (h.keys e hold).grows (caseStep_grows hstep h) hnow
  · exact hnew.grounded

end Keys

end Intake
