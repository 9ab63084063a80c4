import VistaBlox.IntakeHistory

/-!
# The rows of the intake
-/
namespace Intake

open Guarded (Run)

open Offering (AccountId OfferingRecord)
open Function (update update_idem update_of_ne update_self)

variable {eventId : EventId} {f : IntakeCase → IntakeCase} {input : AppendIntakeCaseEventInput}

section Rows

variable {w w' : Database} {id : CaseId} {c : IntakeCase}

/-- The row without the counter of its events. -/
def uncounted (c : IntakeCase) : IntakeCase := { c with workflowEventSequence := 0 }

def Database.row (w : Database) (id : CaseId) : Option IntakeCase := (w.intakeCase id).map uncounted

theorem row_some (h : w.intakeCase id = some c) : w.row id = some (uncounted c) := by
  simp [Database.row, h]

theorem row_congr (h : w'.cases = w.cases) : w'.row = w.row := by
  funext id
  simp only [Database.row, Database.intakeCase, h]

theorem stageOf_row (h : w.row id = some c) : w.stageOf id = c.stage := by
  obtain ⟨x, hx, rfl⟩ := Option.map_eq_some_iff.mp h
  exact (stageOf_some hx).trans rfl

theorem row_setCase (hid : ∀ c, (f c).id = c.id) (hf : ∀ c, uncounted (f c) = f (uncounted c))
    (h : w.intakeCase id = some c) : (w.setCase id f).row = update w.row id (some (f (uncounted c))) := by
  funext id'
  by_cases heq : id' = id
  · subst heq
    rw [update_self, ← hf]
    exact row_some (intakeCase_setCase hid h)
  · rw [update_of_ne heq, Database.row, intakeCase_setCase_ne hid heq]
    rfl

theorem row_withCase (h : ∀ x ∈ w.cases, x.id ≠ c.id) :
    (w.withCase c).row = update w.row c.id (some (uncounted c)) := by
  funext id'
  rw [Database.row, intakeCase_withCase h]
  by_cases heq : id' = c.id
  · rw [if_pos heq, heq, update_self]
    rfl
  · rw [if_neg heq, update_of_ne heq]
    rfl

theorem row_absent (h : ∀ x ∈ w.cases, x.id ≠ id) : w.row id = none := by
  simpa [Database.row, Database.intakeCase, Table.find] using h

theorem row_properties (h : ∀ x ∈ w.cases, x.propertyId ≠ propertyId) :
    ∀ id c, w.row id = some c → c.propertyId ≠ propertyId := by
  intro id c hrow
  obtain ⟨x, hx, rfl⟩ := Option.map_eq_some_iff.mp hrow
  exact h x (Table.find_some hx).1

theorem Appends.links (h : Appends eventId input w w') : w'.links = w.links := by
  cases h <;> rfl

theorem Appends.row (h : Appends eventId input w w') : w'.row = w.row := by
  cases h with
  | known => rfl
  | new _ hfind =>
    refine Eq.trans (b := (w.setCase input.caseId counted).row) (row_congr rfl) ?_
    funext id'
    have hcounted : ∀ c, (counted c).id = c.id := fun _ => rfl
    rw [Database.row]
    by_cases heq : id' = input.caseId
    · rw [heq, intakeCase_setCase hcounted hfind, row_some hfind]
      rfl
    · rw [intakeCase_setCase_ne hcounted heq]
      rfl

theorem Appends.row_write (h : Appends eventId input w₁ w') (hfind : w.intakeCase id = some c)
    (hcases : w₁.cases = (w.setCase id f).cases) (hid : ∀ c, (f c).id = c.id)
    (hf : ∀ c, uncounted (f c) = f (uncounted c)) : w'.row = update w.row id (some (f (uncounted c))) := by
  rw [h.row, row_congr hcases, row_setCase hid hf hfind]

end Rows

section Steps

/-- What a command does to the offerings of the cases. -/
def ReversalCommand.links (command : ReversalCommand) (w : Database) (caseId : CaseId) : Links :=
  match command, w.caseOffering caseId with
  | .reopenPreOffering, some o => { w.links with
    offerings := Table.update OfferingRecord.id w.market.offerings o.id fun o => { o with status := .closed } }
  | _, _ => w.links

/-- What a step does to the tables. -/
inductive TableStep (w : Database) : Operation → (CaseId → Option IntakeCase) → List SubmissionRevision →
    List InformationRequest → Links → Prop where
  | outside (h : MarketStep w op links) :
      TableStep w op w.row w.revisions w.informationRequests links
  | draft {fresh : Nat → Nat} (hnew : w.row (fresh 1) = none)
      (hproperty : ∀ id c, w.row id = some c → c.propertyId ≠ fresh 0) :
      TableStep w (.createDraftIntake fresh accountId createdAt)
        (update w.row (fresh 1) (some (newCase (fresh 1) (fresh 0) accountId))) w.revisions
        w.informationRequests w.links
  | staff {fresh : Nat → Nat} (hnew : w.row (fresh 1) = none)
      (hproperty : ∀ id c, w.row id = some c → c.propertyId ≠ fresh 0)
      (hrevision : w.Accepts ⟨fresh 2, fresh 1, 1, submittedAt, staff⟩) :
      TableStep w (.createStaffCase fresh staff applicant submittedAt)
        (update w.row (fresh 1) (some (submittedWith (fresh 2) (newCase (fresh 1) (fresh 0) applicant))))
        (w.revisions ++ [⟨fresh 2, fresh 1, 1, submittedAt, staff⟩]) w.informationRequests w.links
  | submit {fresh : Nat → Nat} (hrow : w.row caseId = some c) (hstage : c.stage = .draft)
      (hnone : c.currentSubmissionRevisionId = none)
      (hrevision : w.Accepts ⟨fresh 0, caseId, 1, submittedAt, accountId⟩) :
      TableStep w (.submitInitialCase fresh caseId accountId submittedAt)
        (update w.row caseId (some (submittedWith (fresh 0) c)))
        (w.revisions ++ [⟨fresh 0, caseId, 1, submittedAt, accountId⟩]) w.informationRequests w.links
  | publish {fresh : Nat → Nat} {caseId : CaseId} {accountId : AccountId} {publishedAt dueAt : Nat} {c : IntakeCase}
      (hrow : w.row caseId = some c) (hstage : c.stage = .submitted)
      (hnone : ∀ r ∈ w.informationRequests, r.caseId = caseId → r.status ≠ .published)
      (hnew : ∀ r ∈ w.informationRequests, r.id ≠ fresh 0) :
      TableStep w (.publishInformationRequest fresh caseId accountId publishedAt dueAt)
        (update w.row caseId (some (atStage .waitingOnApplicant c))) w.revisions
        (w.informationRequests ++ [⟨fresh 0, caseId, .published, publishedAt, dueAt, none, none⟩]) w.links
  | expire {fresh : Nat → Nat} (hrow : w.row caseId = some c) (hstage : c.stage = .waitingOnApplicant)
      (hrequest : ∃ r ∈ w.informationRequests, r.id = requestId ∧ r.caseId = caseId ∧ r.status = .published) :
      TableStep w (.expireInformationRequest fresh caseId requestId expiredAt manualOverride)
        (update w.row caseId (some (atStage .expired c))) w.revisions
        (w.resolveRequest requestId .expired expiredAt none).informationRequests w.links
  | withdraw {fresh : Nat → Nat} (hrow : w.row caseId = some c) (hstage : c.stage = .waitingOnApplicant)
      (hrequest : ∃ r ∈ w.informationRequests, r.id = requestId ∧ r.caseId = caseId ∧ r.status = .published) :
      TableStep w (.withdrawInformationRequest fresh caseId requestId accountId withdrawnAt)
        (update w.row caseId (some (atStage .submitted c))) w.revisions
        (w.resolveRequest requestId .withdrawn withdrawnAt none).informationRequests w.links
  | resubmit {fresh : Nat → Nat} (hrow : w.row caseId = some c) (hstage : c.stage = .waitingOnApplicant)
      (hrequest : ∃ r ∈ w.informationRequests, r.id = requestId ∧ r.caseId = caseId ∧ r.status = .published)
      (hcurrent : (c.currentSubmissionRevisionId.bind fun r =>
        Table.find SubmissionRevision.id w.revisions r) = some revision)
      (hrevision : w.Accepts ⟨fresh 0, caseId, revision.revisionNumber + 1, submittedAt, accountId⟩) :
      TableStep w (.resubmitAfterInformationRequest fresh caseId requestId accountId submittedAt)
        (update w.row caseId (some (submittedWith (fresh 0) c)))
        (w.revisions ++ [⟨fresh 0, caseId, revision.revisionNumber + 1, submittedAt, accountId⟩])
        (w.resolveRequest requestId .answered submittedAt (some (fresh 0))).informationRequests w.links
  | reject {fresh : Nat → Nat} {input : FounderDecisionInput} (hrow : w.row input.caseId = some c)
      (hstage : c.stage = .submitted) :
      TableStep w (.recordFounderDecision fresh input)
        (update w.row input.caseId (some (atStage .rejected c))) w.revisions w.informationRequests w.links
  | approve {fresh : Nat → Nat} {input : FounderDecisionInput} (hrow : w.row input.caseId = some c)
      (hstage : c.stage = .submitted) (hdecision : input.decision = .approve ipoEndAt ipoValueEur) :
      TableStep w (.recordFounderDecision fresh input)
        (update w.row input.caseId (some { c with
          stage := .preOfferingOpen
          approvedAt := some input.decidedAt
          ipoEndAt := some ipoEndAt
          ipoValueEur := some ipoValueEur })) w.revisions w.informationRequests
        { w.links with handoffs := w.handoffs ++ [⟨input.caseId, c.propertyId, ipoValueEur, input.traceId⟩] }
  | close {fresh : Nat → Nat} {input : CloseCaseInput} {c : IntakeCase} (hrow : w.row input.caseId = some c)
      (hstage : c.stage ∈ closableFrom input.outcome) :
      TableStep w (.closeCase fresh input)
        (update w.row input.caseId (some (atStage input.outcome.stage c))) w.revisions w.informationRequests
        w.links
  | assign {fresh : Nat → Nat} {input : AssignPartnerInput} {c : IntakeCase}
      {legalPracticeId appraisalFirmId : Option Nat}
      (hrow : w.row input.caseId = some c)
      (hstage : c.stage = .postIpoStructuring ∨ c.stage = .approvedForFinalOffering) :
      TableStep w (.assignPartnerOrganization fresh input)
        (update w.row input.caseId (some { c with
          legalPracticeId := legalPracticeId
          appraisalFirmId := appraisalFirmId })) w.revisions w.informationRequests w.links
  | writeback {op : Operation} {fresh : Nat → Nat} {input : WritebackInput}
      {complete : Option Nat → IntakeCase → IntakeCase} {completedAt other : IntakeCase → Option Nat}
      {eventKey : EventKey} {updated : EventType} {c : IntakeCase} {completed : Option Nat} {both : Bool}
      (hkind : Writes fresh input op complete completedAt other eventKey updated)
      (hrow : w.row input.caseId = some c) (hstage : c.stage = .postIpoStructuring)
      (hcompleted : completed = (completedAt c).or (if input.markCompleted then some input.recordedAt else none))
      (hboth : both = (completed.isSome && (other c).isSome)) :
      TableStep w op (update w.row input.caseId
        (some (completeStructuring both input.recordedAt (complete completed c)))) w.revisions w.informationRequests
        w.links
  | handoff {fresh : Nat → Nat} {job : StructuringJob} (hjob : job ∈ w.structuringJobs)
      (hrow : w.row job.caseId = some c) (hstage : c.stage = .preOfferingOpen) :
      TableStep w (.postIpoStructuringHandoff fresh job transitionedAt)
        (update w.row job.caseId (some (atStage .postIpoStructuring c))) w.revisions w.informationRequests
        w.links
  | execute {fresh : Nat → Nat} {input : ExecuteReversalInput} {operation : ReversalOperation} {c : IntakeCase}
      {snapshot : ReversalSnapshot} {action : ReversalAction}
      (hoperation : w.reversalOperation input.caseId input.operationId = some operation)
      (hrow : w.row input.caseId = some c) (hstage : c.stage = operation.command.source)
      (hcommand : operation.command ≠ .withdrawInformationRequest)
      (hsnapshot : loadReversalSnapshot w input.caseId (some operation.id) = some snapshot)
      (haction : getReversalAction snapshot operation.command = some action) :
      TableStep w (.executeReversalOperation fresh input)
        (update w.row input.caseId (some (operation.command.apply c))) w.revisions w.informationRequests
        (operation.command.links w input.caseId)

variable {w w' : Database} {op : Operation} {caseId : CaseId}

theorem loadReversalSnapshot_some (h : loadReversalSnapshot w caseId exclude = some snapshot)
    (hfind : w.intakeCase caseId = some current) :
    snapshot.stage = current.stage ∧
      snapshot.activeInformationRequest =
        (w.informationRequests.any fun r => r.caseId = caseId ∧ r.status = .published) ∧
      snapshot.offering = (w.caseOffering caseId).map (offeringSnapshot w.market) ∧
      snapshot.legalExecutionCompleted = decide (0 < current.legalExecutionEventRefs.length) ∧
      snapshot.appraisalCompleted = current.appraisalCompletedAt.isSome := by
  unfold loadReversalSnapshot at h
  rw [hfind] at h
  cases h
  exact ⟨rfl, rfl, rfl, rfl, rfl⟩

theorem executeCommand_links
    (h : executeCommand caseId ((w.caseOffering caseId).map OfferingRecord.id) w command = some w') :
    w'.links = command.links w caseId := by
  cases command with
  | withdrawInformationRequest => cases h
  | reopenPreOffering =>
    cases hoffering : w.caseOffering caseId with
    | none | some =>
      rw [hoffering] at h
      cases h
      simp only [ReversalCommand.links, hoffering]
      rfl
  | _ =>
    cases h
    rfl

theorem Appends.tables (h : Appends eventId input w₁ w') (hfind : w.intakeCase caseId = some c)
    (hcases : w₁.cases = (w.setCase caseId f).cases) (hid : ∀ c, (f c).id = c.id)
    (hf : ∀ c, uncounted (f c) = f (uncounted c)) (hstep : TableStep w op
    (update w.row caseId (some (f (uncounted c))))
      w₁.revisions w₁.informationRequests w₁.links) :
    TableStep w op w'.row w'.revisions w'.informationRequests w'.links := by
  rw [h.row_write hfind hcases hid hf, h.revisions, h.informationRequests, h.links]
  exact hstep

theorem caseStep_tables (h : CaseStep w op w') :
    TableStep w op w'.row w'.revisions w'.informationRequests w'.links := by
  cases h with
  | outside h hmarket =>
    rw [row_congr h.cases, h.revisions, h.informationRequests]
    exact .outside hmarket
  | draft hnew happend =>
    have hid : ∀ c ∈ w.cases, c.id ≠ _ := fun c hc => (hnew c hc).1
    rw [happend.row, row_withCase hid, happend.revisions, happend.informationRequests, happend.links]
    exact .draft (row_absent hid) (row_properties fun c hc => (hnew c hc).2)
  | @staff fresh _ applicant _ w₁ _ hnew hrevision hcreated happend =>
    have hid : ∀ c ∈ w.cases, c.id ≠ fresh 1 := fun c hc => (hnew c hc).1
    have hbase : (w.withCase (newCase (fresh 1) (fresh 0) applicant)).intakeCase (fresh 1) =
        some (newCase (fresh 1) (fresh 0) applicant) := (intakeCase_withCase hid).trans (if_pos rfl)
    have hrow := hcreated.row_write hbase rfl (fun _ => rfl) fun _ => rfl
    have hnewId : (newCase (fresh 1) (fresh 0) applicant).id = fresh 1 := rfl
    rw [row_withCase hid, hnewId, update_idem] at hrow
    rw [happend.row, hrow, happend.revisions, hcreated.revisions, happend.informationRequests,
      hcreated.informationRequests, happend.links, hcreated.links]
    exact .staff (row_absent hid) (row_properties fun c hc => (hnew c hc).2) hrevision
  | submit hfind _ hstage hnone hrevision happend =>
    exact happend.tables hfind rfl (fun _ => rfl) (fun _ => rfl) (.submit (row_some hfind) hstage hnone hrevision)
  | publish hfind hstage _ hnone hnew happend =>
    exact happend.tables hfind rfl (fun _ => rfl) (fun _ => rfl) (.publish (row_some hfind) hstage hnone hnew)
  | expire hfind hawaits happend =>
    obtain ⟨hstage, hrequest⟩ := awaitsAnswer_request hfind hawaits
    exact happend.tables hfind rfl (fun _ => rfl) (fun _ => rfl)
      (.expire (row_some hfind) hstage hrequest)
  | withdraw hfind hawaits happend =>
    obtain ⟨hstage, hrequest⟩ := awaitsAnswer_request hfind hawaits
    exact happend.tables hfind rfl (fun _ => rfl) (fun _ => rfl)
      (.withdraw (row_some hfind) hstage hrequest)
  | resubmit hfind _ hcurrent hawaits hrevision happend =>
    obtain ⟨hstage, hrequest⟩ := awaitsAnswer_request hfind hawaits
    exact happend.tables hfind rfl (fun _ => rfl) (fun _ => rfl)
      (.resubmit (row_some hfind) hstage hrequest hcurrent hrevision)
  | reject hfind hstage _ happend =>
    exact happend.tables hfind rfl (fun _ => rfl) (fun _ => rfl) (.reject (row_some hfind) hstage)
  | approve hfind hstage _ hdecision happend hqueued =>
    have hrow := happend.row_write hfind rfl (fun _ => rfl) fun _ => rfl
    rw [hqueued.row, hrow, hqueued.revisions, hqueued.informationRequests, hqueued.links, happend.revisions,
      happend.informationRequests, happend.links]
    exact .approve (row_some hfind) hstage hdecision
  | close hfind hstage happend =>
    exact happend.tables hfind rfl (fun _ => rfl) (fun _ => rfl) (.close (row_some hfind) hstage)
  | assign hfind hstage happend =>
    exact happend.tables hfind rfl (fun _ => rfl) (fun _ => rfl) (.assign (row_some hfind) hstage)
  | @writeback _ _ input complete _ _ _ _ current completed both _ hkind hfind hstage hcompleted hboth happend =>
    have hid : ∀ c, (completeStructuring both input.recordedAt (complete completed c)).id = c.id := by
      cases both <;> cases hkind <;> exact fun _ => rfl
    have hcount : ∀ c, uncounted (completeStructuring both input.recordedAt (complete completed c)) =
        completeStructuring both input.recordedAt (complete completed (uncounted c)) := by
      cases both <;> cases hkind <;> exact fun _ => rfl
    rw [happend.row_write hfind rfl hid hcount, happend.revisions, happend.informationRequests,
      happend.links]
    cases hkind with
    | legal => exact .writeback .legal (row_some hfind) hstage hcompleted hboth
    | appraisal => exact .writeback .appraisal (row_some hfind) hstage hcompleted hboth
  | handoff hjob hfind hstage happend =>
    exact happend.tables hfind rfl (fun _ => rfl) (fun _ => rfl) (.handoff hjob (row_some hfind) hstage)
  | request _ _ _ _ _ happend =>
    rw [happend.row, happend.revisions, happend.informationRequests, happend.links]
    exact .outside .same
  | claim | fail => exact .outside .same
  | @execute _ _ operation current snapshot _ _ w₁ hoperation hfind _ _ _ hsnapshot haction hexecute happend =>
    obtain ⟨hcommand, hcases, hrevisions, hrequests, -⟩ := executeCommand_some hexecute
    have hid : ∀ c, (operation.command.apply c).id = c.id := fun c => (operation.command.apply_keeps c).1
    have hcount : ∀ c, uncounted (operation.command.apply c) = operation.command.apply (uncounted c) := by
      cases operation.command <;> exact fun _ => rfl
    have hstage : current.stage = operation.command.source :=
      (loadReversalSnapshot_some hsnapshot hfind).1.symm.trans (getReversalAction_some haction).1
    change TableStep w _ w₁.row w₁.revisions w₁.informationRequests w₁.links
    rw [happend.row_write hfind hcases hid hcount, happend.revisions, happend.informationRequests, happend.links,
      hrevisions, hrequests, executeCommand_links hexecute]
    exact .execute hoperation (row_some hfind) hstage hcommand hsnapshot haction

/-- What every operation on the cases keeps holds in every run. -/
theorem CaseRun.invariant (h : CaseRun allowed t) (P : Database → Prop) (hstart : ∀ w, w.NoCases → P w)
    (hsame : ∀ w w', SameIntake w w' → P w → P w')
    (hstep : ∀ (t : Trace) op w', allowed t op → CaseStep t.tables op w' → P t.tables → P w') : P t.tables := by
  refine Run.invariant h (fun t => P t.tables) (fun t hempty => hstart _ hempty.1)
    (fun t op _ hallowed => hstep t op _ hallowed (step_caseStep _ _)) fun t t' hother => ?_
  obtain ⟨w, hsame', rfl⟩ := hother
  exact hsame _ _ hsame'

end Steps

end Intake
