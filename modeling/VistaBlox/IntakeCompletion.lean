import VistaBlox.IntakeRows

/-!
# Partner completion

The two partners of a case write back their work, each under the lock of its row. The second
completion approves the case for its final offering; corrections leave both completions
where they are.
-/
namespace Intake

open List Option

open Interleaving (Prog Guard Reachable Semantics Config Triple Rules)
open Function (update update_of_ne update_self)

inductive Side where
  | legal | appraisal
  deriving DecidableEq

def Side.completedAt : Side → IntakeCase → Option Nat
  | .legal => IntakeCase.legalStructuringCompletedAt
  | .appraisal => IntakeCase.appraisalCompletedAt

def Side.other : Side → Side
  | .legal => .appraisal
  | .appraisal => .legal

def Side.complete : Side → Option Nat → IntakeCase → IntakeCase
  | .legal, t, c => { c with legalStructuringCompletedAt := t }
  | .appraisal, t, c => { c with appraisalCompletedAt := t }

def Side.updated : Side → EventType
  | .legal => .legalStructuringUpdated
  | .appraisal => .appraisalUpdated

def Side.action : Side → String
  | .legal => "record legal structuring"
  | .appraisal => "record an appraisal"

/-- A call of `recordLegalStructuring` or of `recordAppraisal`. -/
structure Writeback where
  side : Side
  fresh : Nat → Nat
  input : WritebackInput

namespace Writeback

variable (b : Writeback) (current : IntakeCase)

def operation : Operation :=
  match b.side with
  | .legal => .recordLegalStructuring b.fresh b.input
  | .appraisal => .recordAppraisal b.fresh b.input

def eventKey : EventKey :=
  match b.side with
  | .legal => .legalStructuring b.input.caseId b.input.recordedAt b.input.traceId
  | .appraisal => .appraisal b.input.caseId b.input.recordedAt b.input.traceId

def completed : Option Nat :=
  (b.side.completedAt current).or (if b.input.markCompleted then some b.input.recordedAt else none)

def bothComplete : Bool := (b.completed current).isSome && (b.side.other.completedAt current).isSome

def apply (c : IntakeCase) : IntakeCase :=
  completeStructuring (b.bothComplete current) b.input.recordedAt (b.side.complete (b.completed current) c)

/-- The writes of the transaction, from the row it has read. -/
def write : Tx (Option Stage) := fun w => do
  throwIf (current.stage ≠ .postIpoStructuring) (.caseReviewConflict current.stage b.side.action)
  let w := w.setCase b.input.caseId (b.apply current)
  let w ← appendIntakeCaseEvent (b.fresh 0)
    ⟨b.input.caseId, b.eventKey, if b.bothComplete current then .caseApprovedForFinalOffering else b.side.updated,
      .partner, some b.input.actorAccountId,
      if b.bothComplete current then some (.postIpoStructuring, .approvedForFinalOffering) else none, none,
      b.input.recordedAt⟩ w
  return (some (if b.bothComplete current then .approvedForFinalOffering else .postIpoStructuring), w)

variable {b current} {w : Database}

theorem step_operation (hfind : w.intakeCase b.input.caseId = some current) :
    w.step b.operation = commit (b.write current) w := by
  obtain ⟨side, fresh, input⟩ := b
  cases side <;>
  · simp only [operation, Database.step, commit, recordLegalStructuring, recordAppraisal, recordWriteback, hfind]
    rfl

theorem write_uncounted : b.write (uncounted current) = b.write current := by
  obtain ⟨side, fresh, input⟩ := b
  cases side <;> rfl

theorem step_operation_row (hrow : w.row b.input.caseId = some (uncounted current)) :
    w.step b.operation = commit (b.write current) w := by
  obtain ⟨c, hfind, heq⟩ := map_eq_some_iff.mp hrow
  rw [step_operation hfind, ← write_uncounted, heq, write_uncounted]

end Writeback

section Changes

variable {w : Database} {op : Operation} {id caseId : CaseId} {c c' : IntakeCase} {b : Writeback}

def Database.completedAt (w : Database) (side : Side) (id : CaseId) : Option Nat :=
  (w.intakeCase id).bind side.completedAt

theorem completedAt_row (w : Database) (side : Side) (id : CaseId) :
    w.completedAt side id = (w.row id).bind side.completedAt := by
  cases h : w.intakeCase id with
  | none => simp [Database.completedAt, Database.row, h]
  | some => cases side <;> simp [Database.completedAt, Database.row, h, Side.completedAt, uncounted]

theorem completedAt_some (h : w.row id = some c) : w.completedAt side id = side.completedAt c := by
  rw [completedAt_row, h]
  rfl

/-- What a step makes of one row, as far as the completions and the approval go. -/
inductive RowChange (w : Database) (op : Operation) (id : CaseId) (c' : IntakeCase) : Prop where
  | new (hrow : w.row id = none) (hstage : c'.stage ≠ .approvedForFinalOffering)
      (hnone : c'.legalStructuringCompletedAt = none)
  | keep {c : IntakeCase} (hrow : w.row id = some c) (hsame : ∀ side : Side, side.completedAt c' = side.completedAt c)
      (hstage : c'.stage = c.stage ∨ c.stage ≠ .approvedForFinalOffering ∧ c'.stage ≠ .approvedForFinalOffering)
  | review {c : IntakeCase} {o : ReversalOperation} (hrow : w.row id = some c)
      (hsame : ∀ side : Side, side.completedAt c' = side.completedAt c) (hexecutes : op.Executes w o)
      (hcase : o.caseId = id) (hcommand : o.command = .reopenFinalOfferingReview)
      (hstage : c'.stage = .postIpoStructuring)
  | write {c : IntakeCase} (b : Writeback) (hop : op = b.operation) (hid : b.input.caseId = id)
      (hrow : w.row id = some c) (hstage : c.stage = .postIpoStructuring) (hwrite : c' = b.apply c c)

theorem RowChange.update (h : RowChange w op caseId c') (id : CaseId) :
    update w.row caseId (some c') id = w.row id ∨
      ∃ x, update w.row caseId (some c') id = some x ∧ RowChange w op id x := by
  by_cases heq : id = caseId
  · subst heq
    exact .inr ⟨c', update_self .., h⟩
  · exact .inl (update_of_ne heq ..)

theorem RowChange.move (hrow : w.row id = some c) (hsame : ∀ side : Side, side.completedAt c' = side.completedAt c)
    (hstage : c.stage ≠ .approvedForFinalOffering) (hstage' : c'.stage ≠ .approvedForFinalOffering) :
    RowChange w op id c' := .keep hrow hsame (.inr ⟨hstage, hstage'⟩)

theorem completions_same (hlegal : c'.legalStructuringCompletedAt = c.legalStructuringCompletedAt)
    (happraisal : c'.appraisalCompletedAt = c.appraisalCompletedAt) (side : Side) :
    side.completedAt c' = side.completedAt c := by
  cases side
  · exact hlegal
  · exact happraisal

theorem TableStep.row (h : TableStep w op rows revisions requests links) (id : CaseId) :
    rows id = w.row id ∨ ∃ x, rows id = some x ∧ RowChange w op id x := by
  cases h with
  | outside => exact .inl rfl
  | draft hnew | staff hnew =>
    refine RowChange.update ?_ id
    exact .new hnew (by rintro ⟨⟩) rfl
  | submit hrow hstage | publish hrow hstage | expire hrow hstage | withdraw hrow hstage | resubmit hrow hstage
  | reject hrow hstage | approve hrow hstage | handoff _ hrow hstage =>
    refine RowChange.update ?_ id
    exact .move hrow (completions_same rfl rfl) (by simp [hstage]) (by rintro ⟨⟩)
  | @close _ input c hrow hstage =>
    refine RowChange.update ?_ id
    refine .move hrow (completions_same rfl rfl) ?_ ?_
    · intro happroved
      rw [happroved] at hstage
      cases houtcome : input.outcome <;> simp [houtcome, closableFrom] at hstage
    · cases input.outcome <;> rintro ⟨⟩
  | assign hrow =>
    refine RowChange.update ?_ id
    exact .keep hrow (completions_same rfl rfl) (.inl rfl)
  | @writeback _ fresh input _ _ _ _ _ c completed both hkind hrow hstage hcompleted hboth =>
    cases hkind with
    | legal =>
      subst hboth hcompleted
      refine RowChange.update ?_ id
      exact .write ⟨.legal, fresh, input⟩ rfl rfl hrow hstage rfl
    | appraisal =>
      subst hboth hcompleted
      refine RowChange.update ?_ id
      exact .write ⟨.appraisal, fresh, input⟩ rfl rfl hrow hstage rfl
  | @execute _ input operation c snapshot action hoperation hrow hstage hcommand hsnapshot haction =>
    have hcase := (reversalOperation_some hoperation).2.2
    cases hname : operation.command with
    | withdrawInformationRequest => exact absurd hname hcommand
    | reopenFinalOfferingReview =>
      refine RowChange.update ?_ id
      refine .review hrow (completions_same rfl rfl) ?_ hcase hname rfl
      exact ⟨⟨_, input, rfl, hoperation⟩, snapshot, action, hcase ▸ hsnapshot, haction⟩
    | _ =>
      refine RowChange.update ?_ id
      exact .move hrow (completions_same rfl rfl) (by simp [hstage, hname, ReversalCommand.source]) (by rintro ⟨⟩)

end Changes

section Respect

variable {w w' : Database} {op : Operation} {id : CaseId} {c : IntakeCase} {b : Writeback} {side : Side}

theorem Side.forall_iff {P : Side → Prop} : (∀ side, P side) ↔ P s ∧ P s.other := by
  refine ⟨fun h => ⟨h s, h s.other⟩, fun h side => ?_⟩
  cases s <;> cases side
  · exact h.1
  · exact h.2
  · exact h.2
  · exact h.1

theorem Writeback.apply_own : b.side.completedAt (b.apply c c) = b.completed c := by
  unfold Writeback.apply completeStructuring
  cases b.side <;> split <;> rfl

theorem Writeback.apply_other : b.side.other.completedAt (b.apply c c) = b.side.other.completedAt c := by
  unfold Writeback.apply completeStructuring
  cases b.side <;> split <;> rfl

theorem Writeback.apply_stage :
    (b.apply c c).stage = if b.bothComplete c then .approvedForFinalOffering else c.stage := by
  unfold Writeback.apply completeStructuring
  cases b.side <;> split <;> rfl

theorem Writeback.apply_both : (∀ side : Side, (side.completedAt (b.apply c c)).isSome) ↔ b.bothComplete c = true := by
  rw [Side.forall_iff, apply_own, apply_other, Writeback.bothComplete, Bool.and_eq_true]

theorem Writeback.apply_keeps (h : side.completedAt c = some t) : side.completedAt (b.apply c c) = some t := by
  revert side
  rw [Side.forall_iff]
  refine ⟨fun h => ?_, fun h => ?_⟩
  · rw [apply_own, Writeback.completed, h]
    rfl
  · rw [apply_other]
    exact h

theorem Writeback.marks (hboth : b.bothComplete c = true) (hopen : ¬ ∀ side : Side, (side.completedAt c).isSome) :
    b.input.markCompleted = true := by
  simp only [Writeback.bothComplete, Writeback.completed, Bool.and_eq_true] at hboth
  rw [Side.forall_iff] at hopen
  cases hown : b.side.completedAt c with
  | some => exact absurd ⟨by simp [hown], hboth.2⟩ hopen
  | none =>
    by_contra hmark
    simp [hown, hmark] at hboth

theorem stageOf_absent (h : w.row id = none) : w.stageOf id = .draft := by
  have hfind : w.intakeCase id = none := by simpa [Database.row] using h
  simp [Database.stageOf, hfind]

theorem stageOf_row_congr (h : w'.row id = w.row id) : w'.stageOf id = w.stageOf id := by
  cases hrow : w.row id with
  | none => rw [stageOf_absent (h.trans hrow), stageOf_absent hrow]
  | some => rw [stageOf_row (h.trans hrow), stageOf_row hrow]

/-- Completions and corrections respect each other in this step. -/
structure Respects (w : Database) (op : Operation) (w' : Database) : Prop where
  enters : ∀ id, w.stageOf id ≠ .approvedForFinalOffering → w'.stageOf id = .approvedForFinalOffering →
    ∃ b : Writeback, op = b.operation ∧ b.input.caseId = id ∧ b.input.markCompleted = true ∧
      w.stageOf id = .postIpoStructuring ∧ ∀ side, (w'.completedAt side id).isSome
  leaves : ∀ id, w.stageOf id = .approvedForFinalOffering → w'.stageOf id ≠ .approvedForFinalOffering →
    ∃ o, op.Executes w o ∧ o.caseId = id ∧ o.command = .reopenFinalOfferingReview
  keeps : ∀ side id t, w.completedAt side id = some t → w'.completedAt side id = some t
  reopens : ∀ o ∈ w.operations, ∀ o' ∈ w'.operations, o'.id = o.id → o.status ≠ .completed → o'.status = .completed →
    o.command = .reopenStructuring → ∀ side, w.completedAt side o.caseId = none

/-- Nobody reopens the structuring of a case whose legal practice has completed, and a
partner who writes back where both have completed marks it. -/
def CompletesAgain (w : Database) : Operation → Prop
  | .executeReversalOperation _ input => ∀ o, w.reversalOperation input.caseId input.operationId = some o →
    o.command = .reopenStructuring → w.completedAt .legal input.caseId = none
  | .recordLegalStructuring _ input | .recordAppraisal _ input =>
    (∀ side, (w.completedAt side input.caseId).isSome) → input.markCompleted = true
  | _ => True

theorem CompletesAgain.writeback (h : CompletesAgain w b.operation) (hrow : w.row b.input.caseId = some c)
    (hboth : b.bothComplete c = true) : b.input.markCompleted = true := by
  by_cases hopen : ∀ side : Side, (side.completedAt c).isSome
  · have hmarks : (∀ side, (w.completedAt side b.input.caseId).isSome) → b.input.markCompleted = true := by
      obtain ⟨side, fresh, input⟩ := b
      cases side <;> exact h
    exact hmarks fun side => by rw [completedAt_some hrow]; exact hopen side
  · exact b.marks hboth hopen

theorem RowChange.enters (h : RowChange w op id c') (hallowed : CompletesAgain w op)
    (hbefore : w.stageOf id ≠ .approvedForFinalOffering) (hafter : c'.stage = .approvedForFinalOffering) :
    ∃ b : Writeback, op = b.operation ∧ b.input.caseId = id ∧ b.input.markCompleted = true ∧
      w.stageOf id = .postIpoStructuring ∧ ∀ side : Side, (side.completedAt c').isSome := by
  cases h with
  | new _ hstage => exact absurd hafter hstage
  | keep hrow _ hstage =>
    rcases hstage with hsame | ⟨-, hother⟩
    · exact absurd ((stageOf_row hrow).trans (hsame.symm.trans hafter)) hbefore
    · exact absurd hafter hother
  | review _ _ _ _ _ hstage =>
    rw [hstage] at hafter
    cases hafter
  | @write c b hop hid hrow hstage hwrite =>
    subst hop hid hwrite
    have hboth : b.bothComplete c = true := by
      by_contra hsingle
      rw [b.apply_stage, if_neg hsingle, hstage] at hafter
      cases hafter
    exact ⟨b, rfl, rfl, hallowed.writeback hrow hboth, (stageOf_row hrow).trans hstage, b.apply_both.mpr hboth⟩

theorem RowChange.leaves (h : RowChange w op id c') (hbefore : w.stageOf id = .approvedForFinalOffering)
    (hafter : c'.stage ≠ .approvedForFinalOffering) :
    ∃ o, op.Executes w o ∧ o.caseId = id ∧ o.command = .reopenFinalOfferingReview := by
  cases h with
  | new hrow =>
    rw [stageOf_absent hrow] at hbefore
    cases hbefore
  | keep hrow _ hstage =>
    rw [stageOf_row hrow] at hbefore
    rcases hstage with hsame | ⟨hother, -⟩
    · exact absurd (hsame.trans hbefore) hafter
    · exact absurd hbefore hother
  | review _ _ hexecutes hcase hcommand => exact ⟨_, hexecutes, hcase, hcommand⟩
  | write _ _ _ hrow hstage =>
    rw [stageOf_row hrow, hstage] at hbefore
    cases hbefore

/-- No change of a row takes a date of completion back. -/
theorem RowChange.keeps (h : RowChange w op id c') (hbefore : w.completedAt side id = some t) :
    side.completedAt c' = some t := by
  cases h with
  | new hrow =>
    rw [completedAt_row, hrow] at hbefore
    cases hbefore
  | keep hrow hsame | review hrow hsame => exact (hsame side).trans ((completedAt_some hrow).symm.trans hbefore)
  | write b _ _ hrow _ hwrite =>
    subst hwrite
    exact b.apply_keeps ((completedAt_some hrow).symm.trans hbefore)

theorem Operation.Executes.unappraised (h : op.Executes w o) (hcommand : o.command = .reopenStructuring) :
    w.completedAt .appraisal o.caseId = none := by
  obtain ⟨snapshot, action, hsnapshot, haction⟩ := h.allowed
  rw [hcommand] at haction
  have hopen := Reopens.structuring.offered.mp (isSome_iff_exists.mpr ⟨action, haction⟩)
  obtain ⟨current, hfind, -⟩ := map_eq_some_iff.mp hsnapshot
  have hfact := (loadReversalSnapshot_some hsnapshot hfind).2.2.2.2
  have hblockers : when snapshot.appraisalCompleted .appraisalCompleted = [] :=
    (append_eq_nil_iff.mp hopen.2.2.2).2
  rw [hfact] at hblockers
  cases hdone : current.appraisalCompletedAt with
  | none => simp [Database.completedAt, hfind, Side.completedAt, hdone]
  | some => simp [hdone, when] at hblockers

theorem OperationStep.reopens {rows : List ReversalOperation} (h : OperationStep w op rows)
    (hkeyed : Table.Keyed ReversalOperation.id w.operations) (hallowed : CompletesAgain w op) :
    ∀ o ∈ w.operations, ∀ o' ∈ rows, o'.id = o.id → o.status ≠ .completed → o'.status = .completed →
      o.command = .reopenStructuring → ∀ side, w.completedAt side o.caseId = none := by
  intro o ho o' ho' hid hopen hdone hcommand
  -- a row that is still there is the row itself
  have hold : o' ∈ w.operations → False := fun hmem => hopen (hkeyed.eq_of_key hmem ho hid ▸ hdone)
  cases h with
  | same => exact (hold ho').elim
  | request hnew =>
    rcases mem_append.mp ho' with hmem | hmem
    · exact (hold hmem).elim
    · rw [mem_singleton.mp hmem] at hid
      exact absurd hid.symm (hnew o ho)
  | move _ _ hf =>
    obtain ⟨x, hx, rfl⟩ := List.mem_map.mp ho'
    split at hdone
    · exact absurd hdone (hf x).2.2
    · rename_i hne
      rw [if_neg hne] at hid
      exact absurd hdone (hkeyed.eq_of_key hx ho hid ▸ hopen)
  | @complete executed hmem _ hexecutes =>
    have hsame : o = executed := by
      obtain ⟨x, hx, rfl⟩ := List.mem_map.mp ho'
      split at hdone
      · rename_i heq
        rw [if_pos heq] at hid
        exact hkeyed.eq_of_key ho hmem (hid.symm.trans heq)
      · rename_i hne
        rw [if_neg hne] at hid
        exact absurd hdone (hkeyed.eq_of_key hx ho hid ▸ hopen)
    subst hsame
    obtain ⟨fresh, input, rfl, hfind⟩ := hexecutes.executes
    have hlegal : w.completedAt .legal o.caseId = none := by
      rw [(reversalOperation_some hfind).2.2]
      exact hallowed o hfind hcommand
    exact Side.forall_iff.mpr ⟨hlegal, hexecutes.unappraised hcommand⟩

/-- Every operation that meets the condition respects the corrections. -/
theorem caseStep_respects (h : CaseStep w op w') (hkeyed : Table.Keyed ReversalOperation.id w.operations)
    (hallowed : CompletesAgain w op) : Respects w op w' where
  enters id hbefore hafter := by
    rcases (caseStep_tables h).row id with hsame | ⟨c', hrow, hchange⟩
    · exact absurd ((stageOf_row_congr hsame).symm.trans hafter) hbefore
    · rw [stageOf_row hrow] at hafter
      obtain ⟨b, hop, hid, hmark, hstage, hboth⟩ := hchange.enters hallowed hbefore hafter
      exact ⟨b, hop, hid, hmark, hstage, fun side => by rw [completedAt_some hrow]; exact hboth side⟩
  leaves id hbefore hafter := by
    rcases (caseStep_tables h).row id with hsame | ⟨c', hrow, hchange⟩
    · exact absurd ((stageOf_row_congr hsame).trans hbefore) hafter
    · rw [stageOf_row hrow] at hafter
      exact hchange.leaves hbefore hafter
  keeps side id t hbefore := by
    rcases (caseStep_tables h).row id with hsame | ⟨c', hrow, hchange⟩
    · rw [completedAt_row, hsame, ← completedAt_row]
      exact hbefore
    · rw [completedAt_some hrow]
      exact hchange.keeps hbefore
  reopens := (caseStep_operations h).reopens hkeyed hallowed

end Respect

/-- A correction has taken the case back from its approval. -/
def Database.Reviewed (w : Database) (id : CaseId) : Prop :=
  ∃ o ∈ w.operations, o.caseId = id ∧ o.command = .reopenFinalOfferingReview ∧ o.status = .completed

/-- Where both sides have completed, the case has been approved. -/
structure Settled (w : Database) : Prop where
  keyed : Table.Keyed ReversalOperation.id w.operations
  approved : ∀ id, (∀ side, (w.completedAt side id).isSome) →
    w.stageOf id = .approvedForFinalOffering ∨ w.Reviewed id

theorem Database.Reviewed.step {id : CaseId} (h : w.Reviewed id)
    (hkeyed : Table.Keyed ReversalOperation.id w.operations)
    (hstep : CaseStep w op w') : w'.Reviewed id := by
  obtain ⟨o, ho, hcase, hcommand, hdone⟩ := h
  exact ⟨o, (caseStep_operations hstep).grows hkeyed o ho hdone, hcase, hcommand, hdone⟩

theorem caseStep_executed (h : CaseStep w op w') (hexecutes : op.Executes w o) (hchanged : w'.row ≠ w.row) :
    { o with status := .completed } ∈ w'.operations := by
  obtain ⟨fresh, input, rfl, hfind⟩ := hexecutes.executes
  cases h with
  | outside h => exact absurd (row_congr h.cases) hchanged
  | fail => exact absurd (row_congr rfl) hchanged
  | writeback hkind => cases hkind
  | execute hoperation _ _ _ _ _ _ hexecute happend =>
    cases hfind.symm.trans hoperation
    obtain ⟨-, -, -, -, -, hoperations⟩ := executeCommand_some hexecute
    simp only [Database.setOperation]
    rw [happend.operations, hoperations]
    exact List.mem_map.mpr ⟨o, (reversalOperation_some hfind).1, if_pos rfl⟩

/-- Cases complete on both sides stay approved, or were reopened for review. -/
theorem Settled.step (h : Settled w) (hstep : CaseStep w op w') : Settled w' := by
  refine ⟨(caseStep_operations hstep).keyed h.keyed, fun id hboth => ?_⟩
  have hbefore : (∀ side, (w.completedAt side id).isSome) →
      w.stageOf id = .approvedForFinalOffering ∨ w'.Reviewed id := fun hboth =>
    (h.approved id hboth).imp_right fun hreviewed => hreviewed.step h.keyed hstep
  rcases (caseStep_tables hstep).row id with hsame | ⟨c', hrow, hchange⟩
  · rw [stageOf_row_congr hsame]
    refine hbefore fun side => ?_
    rw [completedAt_row, ← hsame, ← completedAt_row]
    exact hboth side
  · simp only [completedAt_some hrow] at hboth
    rw [stageOf_row hrow]
    cases hchange with
    | new _ _ hnone =>
      have hlegal := hboth .legal
      simp [Side.completedAt, hnone] at hlegal
    | keep hrow₀ hsame hstage =>
      have hboth₀ : ∀ side, (w.completedAt side id).isSome := fun side => by
        rw [completedAt_some hrow₀, ← hsame side]
        exact hboth side
      refine (hbefore hboth₀).imp_left fun happroved => ?_
      rw [stageOf_row hrow₀] at happroved
      rcases hstage with hstage | ⟨hother, -⟩
      · exact hstage.trans happroved
      · exact absurd happroved hother
    | @review c o hrow₀ _ hexecutes hcase hcommand hstage =>
      refine .inr ⟨_, caseStep_executed hstep hexecutes fun hrows => ?_, hcase, hcommand, rfl⟩
      -- the row has left the stage in which the command starts
      have hsource : c.stage = .approvedForFinalOffering := by
        obtain ⟨snapshot, action, hsnapshot, haction⟩ := hexecutes.allowed
        obtain ⟨current, hfind, -⟩ := map_eq_some_iff.mp hsnapshot
        rw [← stageOf_row hrow₀, ← hcase, stageOf_some hfind, ← (loadReversalSnapshot_some hsnapshot hfind).1,
          (getReversalAction_some haction).1, hcommand]
        rfl
      have hsame : some c' = some c := hrow.symm.trans (hrows ▸ hrow₀)
      cases hsame
      rw [hstage] at hsource
      cases hsource
    | write b _ _ _ _ hwrite =>
      subst hwrite
      rw [b.apply_stage, if_pos (b.apply_both.mp hboth)]
      exact .inl rfl

theorem CaseRun.settled (h : CaseRun allowed t) : Settled t.tables := by
  refine h.invariant Settled (fun w hempty => ?_) (fun w w' hsame hw => ?_) fun _ _ _ _ hstep hw => hw.step hstep
  · refine ⟨by simp [hempty.operations, Table.Keyed], fun id hboth => ?_⟩
    have hlegal := hboth .legal
    simp [Database.completedAt, Database.intakeCase, Table.find, hempty.cases] at hlegal
  · refine ⟨by rw [hsame.operations]; exact hw.keyed, fun id hboth => ?_⟩
    have hfind : w'.intakeCase id = w.intakeCase id := by simp only [Database.intakeCase, hsame.cases]
    simp only [Database.completedAt, Database.stageOf, Database.Reviewed, hfind, hsame.operations] at hboth ⊢
    exact hw.approved id hboth

section Statements

/-- The tables, and who holds the row lock of which case. -/
structure Desk where
  tables : Database
  lock : CaseId → Option Nat

inductive Statement where
  | lockCase (caseId : CaseId)
  | readCase (caseId : CaseId)
  | write (b : Writeback) (current : IntakeCase)
  | transact (op : Operation)

abbrev Statement.Answer : Statement → Type
  | .lockCase _ => Bool
  | .readCase _ => IntakeCase
  | .write .. => Option Stage
  | .transact _ => Unit

inductive StatementError where
  | connectionLost
  | failure (e : Failure)

def Desk.release (d : Desk) (t : Nat) : Desk :=
  { d with lock := fun id => if d.lock id = some t then none else d.lock id }

def Desk.heldByOther (d : Desk) (t : Nat) (id : CaseId) : Bool := (d.lock id).any fun u => u ≠ t

/-- The case whose row the transaction locks first. -/
def Operation.locks : Operation → Option CaseId
  | .submitInitialCase _ caseId _ _ | .publishInformationRequest _ caseId _ _ _
  | .expireInformationRequest _ caseId _ _ _ | .withdrawInformationRequest _ caseId _ _ _
  | .resubmitAfterInformationRequest _ caseId _ _ _ => some caseId
  | .recordFounderDecision _ input => some input.caseId
  | .closeCase _ input => some input.caseId
  | .assignPartnerOrganization _ input => some input.caseId
  | .recordLegalStructuring _ input | .recordAppraisal _ input => some input.caseId
  | .postIpoStructuringHandoff _ job _ => some job.caseId
  | .createReversalOperation _ input => some input.caseId
  | .executeReversalOperation _ input => some input.caseId
  | _ => none

/-- One statement. A lost connection, at any statement, rolls the transaction back. -/
def Desk.exec (t : Nat) (statement : Statement) (lost : Bool) (d : Desk) :
    Option (Except StatementError statement.Answer × Desk) :=
  if lost then some (.error .connectionLost, d.release t)
  else match statement with
    | .lockCase id =>
      if d.heldByOther t id then none
      else if (d.tables.intakeCase id).isSome then
        some (.ok true, { d with lock := update d.lock id (some t) })
      else some (.ok false, d)
    | .readCase id => match d.tables.intakeCase id with
      | none => some (.error (.failure (.caseNotFound id)), d.release t)
      | some current => some (.ok current, d)
    | .write b current => match b.write current d.tables with
      | .ok (stage, w) => some (.ok stage, { d with tables := w }.release t)
      | .error e => some (.error (.failure e), d.release t)
    | .transact op =>
      if op.locks.any (d.heldByOther t) then none else some (.ok (), { d with tables := d.tables.step op })

inductive DeskJob where
  | writeback (b : Writeback)
  | transact (op : Operation)

def writebackProgram (b : Writeback) : Prog StatementError Statement Statement.Answer Unit := do
  let locked ← Prog.perform (.lockCase b.input.caseId)
  if locked then
    let current ← Prog.perform (.readCase b.input.caseId)
    let _ ← Prog.perform (.write b current)
    pure ()
  else pure ()

/-- Writebacks statement by statement, every other transaction at once, and other modules writing to
their own tables. -/
def deskSystem : Semantics Desk Bool Database DeskJob StatementError Statement Statement.Answer where
  exec := Desk.exec
  env e d := some { d with tables := { e with
    cases := d.tables.cases
    revisions := d.tables.revisions
    informationRequests := d.tables.informationRequests
    events := d.tables.events
    operations := d.tables.operations } }
  job
    | .writeback b => writebackProgram b
    | .transact op => Prog.perform (Statement.transact op)

variable {u : Nat} {d d' : Desk} {w w' : Database} {op : Operation} {id : CaseId} {c : IntakeCase}
  {b : Writeback}

/-- Whoever holds the lock of a row finds the row as it is. -/
def deskRules : Rules Desk Statement where
  inv _ := True
  rely t d d' := ∀ id, d.lock id = some t →
    d'.lock id = some t ∧ ∀ c, d.tables.row id = some c → d'.tables.row id = some c
  req t
    | .write b current, d =>
      d.lock b.input.caseId = some t ∧ d.tables.row b.input.caseId = some (uncounted current)
    | _, _ => True

theorem caseStep_row_other (h : CaseStep w op w') (hid : op.locks ≠ some id) (hrow : w.row id = some c) :
    w'.row id = some c := by
  have hupdate : ∀ {caseId : CaseId} {x : IntakeCase}, op.locks = some caseId →
      update w.row caseId (some x) id = some c := by
    intro caseId x hlocks
    have hne : id ≠ caseId := by
      rintro rfl
      exact hid hlocks
    rw [update_of_ne hne]
    exact hrow
  have hinsert : ∀ {caseId : CaseId} {x : IntakeCase}, w.row caseId = none →
      update w.row caseId (some x) id = some c := by
    intro caseId x hnone
    have hne : id ≠ caseId := by
      rintro rfl
      cases hnone.symm.trans hrow
    rw [update_of_ne hne]
    exact hrow
  have hstep := caseStep_tables h
  generalize w'.row = rows at hstep
  generalize w'.revisions = revisions at hstep
  generalize w'.informationRequests = requests at hstep
  generalize w'.links = links at hstep
  cases hstep with
  | outside => exact hrow
  | draft hnew => exact hinsert hnew
  | staff hnew => exact hinsert hnew
  | writeback hkind => cases hkind <;> exact hupdate rfl
  | _ => exact hupdate rfl

theorem release_other (hne : u ≠ t) (h : d.lock id = some u) : (d.release t).lock id = some u := by
  simp [Desk.release, h, hne]

theorem heldByOther_of_lock (hne : u ≠ t) (h : d.lock id = some u) : d.heldByOther t id = true := by
  simp [Desk.heldByOther, h, hne]

theorem write_tables (hrow : d.tables.row b.input.caseId = some (uncounted current))
    (h : Desk.exec t (.write b current) lost d = some (r, d')) :
    d'.lock = (d.release t).lock ∧ (d'.tables = d.tables ∨ d'.tables = d.tables.step b.operation) := by
  cases lost with
  | true =>
    cases h
    exact ⟨rfl, .inl rfl⟩
  | false =>
    simp only [Desk.exec, Bool.false_eq_true, if_false] at h
    rw [Writeback.step_operation_row hrow, commit]
    split at h
    · rename_i stage written hwrite
      cases h
      rw [hwrite]
      exact ⟨rfl, .inr rfl⟩
    · cases h
      exact ⟨rfl, .inl rfl⟩

theorem exec_rely (h : deskSystem.exec t statement lost d = some (r, d')) (hreq : deskRules.req t statement d)
    (hne : u ≠ t) : deskRules.rely u d d' := by
  intro id hlock
  change Desk.exec t statement lost d = _ at h
  have hreleased : d' = d.release t → d'.lock id = some u ∧
      ∀ c, d.tables.row id = some c → d'.tables.row id = some c := by
    rintro rfl
    exact ⟨release_other hne hlock, fun _ h => h⟩
  cases statement with
  | write b =>
    obtain ⟨hlock', htables⟩ := write_tables hreq.2 h
    refine ⟨?_, fun c hrow => ?_⟩
    · rw [hlock']
      exact release_other hne hlock
    · rcases htables with hsame | hstep
      · rw [hsame]
        exact hrow
      · rw [hstep]
        refine caseStep_row_other (step_caseStep _ _) (fun hlocks => ?_) hrow
        have hid : b.input.caseId = id := by
          obtain ⟨side, fresh, input⟩ := b
          cases side <;> exact some.inj hlocks
        rw [← hid, hreq.1] at hlock
        exact hne (some.inj hlock).symm
  | lockCase caseId =>
    cases lost with
    | true =>
      cases h
      exact hreleased rfl
    | false =>
      simp only [Desk.exec, Bool.false_eq_true, if_false] at h
      split at h
      · cases h
      · rename_i hfree
        split at h
        · cases h
          have hother : id ≠ caseId := by
            rintro rfl
            exact hfree (heldByOther_of_lock hne hlock)
          exact ⟨(update_of_ne hother ..).trans hlock, fun _ h => h⟩
        · cases h
          exact ⟨hlock, fun _ h => h⟩
  | readCase =>
    cases lost with
    | true =>
      cases h
      exact hreleased rfl
    | false =>
      simp only [Desk.exec, Bool.false_eq_true, if_false] at h
      split at h
      · cases h
        exact hreleased rfl
      · cases h
        exact ⟨hlock, fun _ h => h⟩
  | transact =>
    cases lost with
    | true =>
      cases h
      exact hreleased rfl
    | false =>
      simp only [Desk.exec, Bool.false_eq_true, if_false] at h
      split at h
      · cases h
      · rename_i hfree
        cases h
        refine ⟨hlock, fun c hrow => caseStep_row_other (step_caseStep _ _) (fun hlocks => hfree ?_) hrow⟩
        rw [hlocks]
        exact heldByOther_of_lock hne hlock

theorem writebackProgram_triple :
    Triple deskSystem Guard.free deskRules t (fun _ => True) (writebackProgram b) fun _ _ => True := by
  have hheld : deskRules.Stable t fun d => d.lock b.input.caseId = some t :=
    fun _ _ _ _ hrely hlock => (hrely _ hlock).1
  refine Interleaving.triple_bind
    (Q := fun locked d => locked = true → d.lock b.input.caseId = some t) ?_ fun locked => ?_
  · refine Interleaving.triple_perform (fun _ _ _ => trivial) (fun d lost r d' _ _ _ h => ?_) fun locked => ?_
    · refine ⟨trivial, fun u hne => exec_rely h trivial hne, fun locked hr htrue => ?_⟩
      subst hr htrue
      cases lost with
      | true => cases h
      | false =>
        simp only [deskSystem, Desk.exec, Bool.false_eq_true, if_false] at h
        split at h
        · cases h
        · split at h
          · cases h
            exact update_self ..
          · cases h
    · exact Rules.Stable.imp_const fun _ => hheld
  · cases locked with
    | false => exact Interleaving.triple_done
    | true =>
      have hread : ∀ current : IntakeCase, deskRules.Stable t fun d =>
          d.lock b.input.caseId = some t ∧ d.tables.row b.input.caseId = some (uncounted current) :=
        fun _ _ _ _ _ hrely h => ⟨(hrely _ h.1).1, (hrely _ h.1).2 _ h.2⟩
      refine Interleaving.triple_bind (Q := fun current d =>
        d.lock b.input.caseId = some t ∧ d.tables.row b.input.caseId = some (uncounted current)) ?_ fun current => ?_
      · refine Interleaving.triple_perform (fun _ _ _ => trivial) (fun d lost r d' _ hlock _ h => ?_) hread
        refine ⟨trivial, fun u hne => exec_rely h trivial hne, fun current hr => ?_⟩
        subst hr
        cases lost with
        | true => cases h
        | false =>
          simp only [deskSystem, Desk.exec, Bool.false_eq_true, if_false] at h
          split at h
          · cases h
          · rename_i hfind
            cases h
            exact ⟨hlock rfl, row_some hfind⟩
      · refine Interleaving.triple_bind (Q := fun _ _ => True) ?_ fun _ =>
          Interleaving.triple_done
        refine Interleaving.triple_perform (fun _ _ h => h) (fun d lost r d' _ hreq _ h => ?_) fun _ _ _ _ _ _ _ =>
          trivial
        exact ⟨trivial, fun u hne => exec_rely h hreq hne, fun _ _ => trivial⟩

/-- Nobody changes the row of a case while a write-back holds its lock. -/
theorem deskSystem_sound : Interleaving.Sound deskSystem Guard.free deskRules where
  job t
    | .writeback b => writebackProgram_triple
    | .transact op => by
      refine Interleaving.triple_perform (fun _ _ _ => trivial) (fun d lost r d' _ _ _ h => ?_) fun _ _ _ _ _ _ _ =>
        trivial
      exact ⟨trivial, fun u hne => exec_rely h trivial hne, fun _ _ => trivial⟩
  env e d d' _ _ h := by
    cases h
    exact ⟨trivial, fun t id hlock => ⟨hlock, fun c hrow => hrow⟩⟩

/-- The transaction a statement ends, if it writes. -/
def Statement.operation : Statement → Option Operation
  | .write b _ => some b.operation
  | .transact op => some op
  | _ => none

theorem exec_tables (h : deskSystem.exec t statement lost d = some (r, d')) (hreq : deskRules.req t statement d) :
    d'.tables = d.tables ∨ ∃ op ∈ statement.operation, d'.tables = d.tables.step op := by
  change Desk.exec t statement lost d = _ at h
  cases statement with
  | write => exact (write_tables hreq.2 h).2.imp_right fun hstep => ⟨_, rfl, hstep⟩
  | transact op =>
    simp only [Desk.exec] at h
    split at h
    · cases h
      exact .inl rfl
    · split at h
      · cases h
      · cases h
        exact .inr ⟨op, rfl, rfl⟩
  | lockCase =>
    simp only [Desk.exec] at h
    split at h
    · cases h
      exact .inl rfl
    · split at h
      · cases h
      · split at h <;> cases h <;> exact .inl rfl
  | readCase =>
    simp only [Desk.exec] at h
    split at h
    · cases h
      exact .inl rfl
    · split at h <;> cases h <;> exact .inl rfl

/-- The condition on the runs: a statement that ends a transaction meets it when it does. -/
def completesAgain : Guard Desk Database Statement where
  call _ statement d := ∀ op ∈ statement.operation, CompletesAgain d.tables op
  env _ _ := True

/-- Every run of the desk is a run of the operations one after the other. -/
theorem desk_run (hempty : w.NoCases) (h : Reachable deskSystem completesAgain (Interleaving.idle ⟨w, lock⟩) s) :
    ∃ t : Trace, CaseRun (fun t op => CompletesAgain t.tables op) t ∧ t.tables = s.world.tables := by
  have h' : Reachable deskSystem (Guard.free.and completesAgain) (Interleaving.idle ⟨w, lock⟩) s :=
    h.mono (fun _ _ _ hg => ⟨trivial, hg⟩) fun _ _ hg => ⟨trivial, hg⟩
  refine h'.invariant deskSystem_sound (Interleaving.secure_idle _ trivial)
    (fun d => ∃ t : Trace, CaseRun (fun t op => CompletesAgain t.tables op) t ∧ t.tables = d.tables)
    ⟨⟨w, 0, fun _ => []⟩, .start ⟨hempty, rfl⟩, rfl⟩ (fun t statement lost d r d' _ _ hreq hg hexec hd => ?_)
    (fun e d d' _ _ _ henv hd => ?_)
  · obtain ⟨trace, hrun, htables⟩ := hd
    rcases exec_tables hexec hreq with hsame | ⟨op, hop, hstep⟩
    · exact ⟨trace, hrun, htables.trans hsame.symm⟩
    · refine ⟨trace.step op, hrun.step ?_, ?_⟩
      · rw [htables]
        exact hg op hop
      · rw [hstep, ← htables]
        rfl
  · obtain ⟨trace, hrun, htables⟩ := hd
    cases henv
    refine ⟨trace.next _ trace.now, hrun.other ⟨_, ?_, rfl⟩, rfl⟩
    rw [htables]
    exact ⟨rfl, rfl, rfl, rfl, rfl⟩

/-- In every interleaving of writebacks with the other transactions that keeps to the
condition, a case both of whose sides have completed is approved or has been taken back
from its approval, and completions and corrections respect each other in every statement. -/
theorem completion_respects_corrections {s : Config Desk StatementError Statement Statement.Answer}
    {lock : CaseId → Option Nat} (hempty : w.NoCases)
    (h : Reachable deskSystem completesAgain (Interleaving.idle ⟨w, lock⟩) s) :
    (∀ id, (∀ side, (s.world.tables.completedAt side id).isSome) →
      s.world.tables.stageOf id = .approvedForFinalOffering ∨ s.world.tables.Reviewed id) ∧
    ∀ t statement next lost r d', s.threads t = .call statement next → completesAgain.call t statement s.world →
      deskSystem.exec t statement lost s.world = some (r, d') → d'.tables = s.world.tables ∨
        ∃ op ∈ statement.operation, d'.tables = s.world.tables.step op ∧ Respects s.world.tables op d'.tables := by
  obtain ⟨trace, hrun, htables⟩ := desk_run hempty h
  have hsettled := hrun.settled
  rw [htables] at hsettled
  refine ⟨hsettled.approved, fun t statement next lost r d' hthread hg hexec => ?_⟩
  have hsecure := (h.free).secure deskSystem_sound (Interleaving.secure_idle _ trivial)
  refine (exec_tables hexec (hsecure.req hthread)).imp_right ?_
  rintro ⟨op, hop, hstep⟩
  refine ⟨op, hop, hstep, ?_⟩
  rw [hstep]
  exact caseStep_respects (step_caseStep _ _) hsettled.keyed (hg op hop)

abbrev DeskAction := Interleaving.Action Bool Database DeskJob

def transactions (ops : List Operation) : List DeskAction :=
  ops.flatMap fun op => [.spawn 0 (.transact op), .call 0 false]

/-- Case 21 is approved, its offering's final terms are out, and the handoff is delivered. -/
def inStructuring : List DeskAction :=
  transactions approved ++ .env { newDatabase with structuringJobs := [⟨21, 7⟩] } ::
    transactions [.postIpoStructuringHandoff (40 + ·) ⟨21, 7⟩ 300]

def legalCompletion : Writeback := ⟨.legal, (50 + ·), ⟨21, 5, true, 400, 8⟩⟩

def appraisalCompletion : Writeback := ⟨.appraisal, (51 + ·), ⟨21, 6, true, 401, 8⟩⟩

/-- Both partners write back at once; the second waits for the row. -/
def bothComplete : List DeskAction :=
  [.spawn 1 (.writeback legalCompletion), .spawn 2 (.writeback appraisalCompletion), .call 1 false, .call 1 false,
    .call 1 false, .call 2 false, .call 2 false, .call 2 false]

def firstDesk : Config Desk StatementError Statement Statement.Answer := Interleaving.idle ⟨newDatabase, fun _ => none⟩

/-- Writebacks mark their completion, and nothing is executed. -/
def marking : Statement → Desk → Bool
  | .write b _, _ => b.input.markCompleted
  | .transact (.executeReversalOperation ..), _ | .transact (.recordLegalStructuring ..), _
  | .transact (.recordAppraisal ..), _ => false
  | _, _ => true

theorem marking_completesAgain (h : marking statement d = true) : completesAgain.call t statement d := by
  intro op hop
  cases statement with
  | write b =>
    obtain ⟨side, fresh, input⟩ := b
    cases hop
    cases side <;> exact fun _ => h
  | transact =>
    cases hop
    cases op <;> trivial
  | _ => cases hop

theorem completion_respects_corrections_both :
    ∃ s, Reachable deskSystem completesAgain firstDesk s ∧ (∀ side, (s.world.tables.completedAt side 21).isSome) ∧
      (s.world.tables.stageOf 21 = .approvedForFinalOffering ∨ s.world.tables.Reviewed 21) := by
  obtain ⟨s, hreach, hlook⟩ := Interleaving.exists_of_play deskSystem
    (Interleaving.threadTest_sound (fun _ _ _ => marking_completesAgain) fun _ _ => trivial)
    (inStructuring ++ bothComplete) firstDesk
    (fun s => (s.world.tables.completedAt .legal 21).isSome && (s.world.tables.completedAt .appraisal 21).isSome)
    (by decide +kernel)
  rw [Bool.and_eq_true] at hlook
  have hboth : ∀ side, (s.world.tables.completedAt side 21).isSome := Side.forall_iff.mpr hlook
  exact ⟨s, hreach, hboth, (completion_respects_corrections ⟨rfl, rfl, rfl, rfl, rfl⟩ hreach).1 21 hboth⟩

/-- After the legal practice has completed, accounts 1 and 2 ask for the structuring to be reopened. -/
def legalThenReopening : List DeskAction :=
  [.spawn 1 (.writeback legalCompletion), .call 1 false, .call 1 false, .call 1 false] ++
    transactions [.createReversalOperation (60 + ·) ⟨21, .reopenStructuring, .postIpoStructuring, .preOfferingOpen,
      .pendingApproval, 1, .postIpoStructuring, 6, some 40, "key", 500⟩, .approveReversalOperation 21 60 2]

/-- After both have completed, accounts 1 and 2 reopen the review. -/
def bothThenReview : List DeskAction :=
  bothComplete ++ transactions [.createReversalOperation (60 + ·) ⟨21, .reopenFinalOfferingReview,
    .approvedForFinalOffering, .postIpoStructuring, .pendingApproval, 1, .approvedForFinalOffering, 7, some 51, "key",
    500⟩, .approveReversalOperation 21 60 2, .executeReversalOperation (70 + ·) ⟨21, 60, 2, 600⟩]

/-- The structuring is reopened although the legal practice has completed; and after the
review has been reopened, the legal practice writes back without completing anything, and
the case is approved again. -/
theorem corrections_ignore_completion :
    (∃ s, Reachable deskSystem Guard.free firstDesk s ∧ s.world.tables.completedAt .legal 21 = some 400 ∧
      s.world.tables.operations.map (fun o => (o.command, o.status)) = [(.reopenStructuring, .approved)] ∧
      (s.world.tables.step (.executeReversalOperation (70 + ·) ⟨21, 60, 2, 600⟩)).operations.map
        (fun o => (o.command, o.status)) = [(.reopenStructuring, .completed)]) ∧
    ∃ s, Reachable deskSystem Guard.free firstDesk s ∧ s.world.tables.stageOf 21 = .postIpoStructuring ∧
      s.world.tables.operations.map (fun o => (o.command, o.status)) = [(.reopenFinalOfferingReview, .completed)] ∧
      (s.world.tables.step (.recordLegalStructuring (80 + ·) ⟨21, 5, false, 700, 9⟩)).stageOf 21 =
        .approvedForFinalOffering := by
  constructor
  · obtain ⟨s, hreach, hlook⟩ := Interleaving.exists_of_play deskSystem
      Guard.allows_free (inStructuring ++ legalThenReopening) firstDesk
      (fun s => decide (s.world.tables.completedAt .legal 21 = some 400 ∧
        s.world.tables.operations.map (fun o => (o.command, o.status)) = [(.reopenStructuring, .approved)] ∧
        (s.world.tables.step (.executeReversalOperation (70 + ·) ⟨21, 60, 2, 600⟩)).operations.map
          (fun o => (o.command, o.status)) = [(.reopenStructuring, .completed)]))
      (by decide +kernel)
    exact ⟨s, hreach, of_decide_eq_true hlook⟩
  · obtain ⟨s, hreach, hlook⟩ := Interleaving.exists_of_play deskSystem
      Guard.allows_free (inStructuring ++ bothThenReview) firstDesk
      (fun s => decide (s.world.tables.stageOf 21 = .postIpoStructuring ∧
        s.world.tables.operations.map (fun o => (o.command, o.status)) = [(.reopenFinalOfferingReview, .completed)] ∧
        (s.world.tables.step (.recordLegalStructuring (80 + ·) ⟨21, 5, false, 700, 9⟩)).stageOf 21 =
          .approvedForFinalOffering))
      (by decide +kernel)
    exact ⟨s, hreach, of_decide_eq_true hlook⟩

end Statements

end Intake
