import VistaBlox.IntakeOfferings

/-!
# Approvals and their offerings

An approval enqueues a job that opens a vehicle for the property with an offering. A
property has one vehicle and the vehicle one offering, which a correction closes and nothing
reopens.
-/
namespace Intake

open List Option Function

open Guarded (Run playable_free)
open Offering (OfferingId OfferingRecord)

section Handed

/-- A job has been enqueued for the case, and its offering is open until its terms are published. -/
structure Links.Opened (l : Links) (id : CaseId) : Prop where
  job : ∃ job ∈ l.handoffs, job.caseId = id
  offering : ∀ o, l.Offers o id → o.finalOfferingPublishedAt = none → o.status = .preOffering

/-- The jobs of the case have been delivered, and its offering is closed before its terms are published. -/
structure Links.Returned (l : Links) (id : CaseId) : Prop where
  jobs : ∀ job ∈ l.handoffs, job.caseId = id → ∃ p ∈ l.pivs, p.caseId = id
  offering : ∀ o, l.Offers o id → o.status = .closed ∧ o.finalOfferingPublishedAt = none

/-- How the offerings follow the approvals, given the jobs that have not been delivered
and the value of the latest approval of each case. -/
structure Handed (rows : CaseId → Option IntakeCase) (l : Links) (pending : List HandoffJob)
    (approvals : CaseId → Option Nat) : Prop where
  linked : Linked (property rows) l
  delivered : ∀ job ∈ l.handoffs, job ∈ pending ∨ ∃ p ∈ l.pivs, p.propertyId = job.propertyId
  valued : ∀ job ∈ l.handoffs, approvals job.caseId = some job.ipoValueEur
  priced : ∀ o id, l.Offers o id → approvals id = some o.targetRaiseEur ∧ approvals id = some o.minimumRaiseEur
  live : ∀ id c, rows id = some c → c.stage.live = true → l.Opened id
  early : ∀ id c, rows id = some c → c.stage.early = true → l.Returned id

variable {rows : CaseId → Option IntakeCase} {l : Links} {pending : List HandoffJob}
  {approvals : CaseId → Option Nat} {id : CaseId} {o : OfferingRecord} {job : HandoffJob}

theorem Linked.returned (h : Linked (property rows) l) (hnone : rows id = none) : l.Returned id where
  jobs job hjob hcase := by
    obtain ⟨c, hc, -⟩ := map_eq_some_iff.mp (h.handoffs job hjob)
    cases hnone.symm.trans (hcase ▸ hc)
  offering o ho := by
    obtain ⟨c, hc⟩ := h.offers_case ho
    cases hnone.symm.trans hc

theorem Handed.restage (h : Handed rows l pending approvals)
    (hlinked : Linked (property (update rows id (some c))) l) (hlive : c.stage.live = true → l.Opened id)
    (hearly : c.stage.early = true → l.Returned id) :
    Handed (update rows id (some c)) l pending approvals := by
  refine { h with linked := hlinked, live := fun id' x hx hstage => ?_, early := fun id' x hx hstage => ?_ }
  · rcases update_some hx with ⟨rfl, rfl⟩ | ⟨-, hx⟩
    · exact hlive hstage
    · exact h.live id' x hx hstage
  · rcases update_some hx with ⟨rfl, rfl⟩ | ⟨-, hx⟩
    · exact hearly hstage
    · exact h.early id' x hx hstage

/-- A rewrite of one offering that leaves its amounts, reopens nothing and, unless it
publishes the terms, leaves it open. -/
theorem Handed.update (h : Handed rows l pending approvals)
    (hkey : ∀ x, (f x).id = x.id ∧ (f x).pivId = x.pivId ∧ (f x).targetRaiseEur = x.targetRaiseEur ∧
      (f x).minimumRaiseEur = x.minimumRaiseEur)
    (hclosed : ∀ x ∈ l.offerings, x.id = offeringId → x.status = .closed → (f x).status = .closed ∧
      (f x).finalOfferingPublishedAt = x.finalOfferingPublishedAt)
    (hopen : ∀ x ∈ l.offerings, x.id = offeringId → (f x).finalOfferingPublishedAt = none →
      x.finalOfferingPublishedAt = none ∧ (f x).status = x.status) :
    Handed rows { l with offerings := Table.update OfferingRecord.id l.offerings offeringId f } pending approvals := by
  refine { h with
    linked := h.linked.update fun x => ⟨(hkey x).1, (hkey x).2.1⟩
    priced := fun y id hy => ?_
    live := fun id c hrow hstage => ⟨(h.live id c hrow hstage).job, fun y hy hunpublished => ?_⟩
    early := fun id c hrow hstage => ⟨(h.early id c hrow hstage).jobs, fun y hy => ?_⟩ }
  · obtain ⟨x, hx, rfl⟩ := Links.offers_update hy fun x => (hkey x).2.1
    have hprice := h.priced x id hx
    split
    · rw [(hkey x).2.2.1, (hkey x).2.2.2]
      exact hprice
    · exact hprice
  · obtain ⟨x, hx, rfl⟩ := Links.offers_update hy fun x => (hkey x).2.1
    have hstatus := (h.live id c hrow hstage).offering x hx
    by_cases hid : x.id = offeringId
    · rw [if_pos hid] at hunpublished ⊢
      obtain ⟨hbefore, hsame⟩ := hopen x hx.1 hid hunpublished
      exact hsame.trans (hstatus hbefore)
    · rw [if_neg hid] at hunpublished ⊢
      exact hstatus hunpublished
  · obtain ⟨x, hx, rfl⟩ := Links.offers_update hy fun x => (hkey x).2.1
    have hstatus := (h.early id c hrow hstage).offering x hx
    split
    · rename_i hid
      obtain ⟨hclosed', hsame⟩ := hclosed x hx.1 hid hstatus.1
      exact ⟨hclosed', hsame.trans hstatus.2⟩
    · exact hstatus

theorem Handed.offer (h : Handed rows l pending approvals) (hjob : job ∈ l.handoffs)
    (hnew : ∀ p ∈ l.pivs, p.propertyId ≠ job.propertyId) (hpiv : ∀ p ∈ l.pivs, p.id ≠ pivId)
    (hoffering : ∀ x ∈ l.offerings, x.id ≠ offeringId) :
    Handed rows { l with
      pivs := l.pivs ++ [⟨pivId, job.propertyId, job.caseId⟩]
      offerings := l.offerings ++ [newOffering offeringId pivId job.ipoValueEur] } pending approvals := by
  have hoffers : ∀ {y id}, _ → l.Offers y id ∨ (y = newOffering offeringId pivId job.ipoValueEur ∧ id = job.caseId) :=
    h.linked.offers_offer (v := ⟨pivId, job.propertyId, job.caseId⟩) hpiv rfl
  refine { h with
    linked := h.linked.offer (h.linked.handoffs job hjob) hnew hpiv hoffering rfl
    delivered := fun job' hjob' => (h.delivered job' hjob').imp_right fun ⟨p, hp, hproperty⟩ =>
      ⟨p, mem_append_left _ hp, hproperty⟩
    priced := fun y id hy => ?_
    live := fun id c hrow hstage => ⟨(h.live id c hrow hstage).job, fun y hy hunpublished => ?_⟩
    early := fun id c hrow hstage => ⟨fun job' hjob' hcase => ?_, fun y hy => ?_⟩ }
  · rcases hoffers hy with hold | ⟨rfl, rfl⟩
    · exact h.priced y id hold
    · exact ⟨h.valued job hjob, h.valued job hjob⟩
  · rcases hoffers hy with hold | ⟨rfl, rfl⟩
    · exact (h.live id c hrow hstage).offering y hold hunpublished
    · rfl
  · obtain ⟨p, hp, hpcase⟩ := (h.early id c hrow hstage).jobs job' hjob' hcase
    exact ⟨p, mem_append_left _ hp, hpcase⟩
  · rcases hoffers hy with hold | ⟨-, rfl⟩
    · exact (h.early id c hrow hstage).offering y hold
    · -- a case that has been sent back has had its job delivered
      obtain ⟨p, hp, hpcase⟩ := (h.early job.caseId c hrow hstage).jobs job hjob rfl
      have hproperty := h.linked.handoffs job hjob
      rw [property, hrow] at hproperty
      exact absurd ((h.linked.vehicle_property hrow hp hpcase).trans (some.inj hproperty)) (hnew p hp)

theorem Handed.enqueue (h : Handed rows l pending approvals) (jobs : List StructuringJob) :
    Handed rows { l with structuringJobs := jobs } pending approvals :=
  { h with
    linked := { h.linked with }
    live := fun id c hrow hstage => { h.live id c hrow hstage with }
    early := fun id c hrow hstage => { h.early id c hrow hstage with } }

theorem Handed.market (h : Handed w.row w.links pending approvals) (hstep : MarketStep w op links) :
    Handed w.row links pending approvals := by
  have hsame : ∀ {offeringId row x}, w.market.offering offeringId = some row → x ∈ w.links.offerings →
      x.id = offeringId → x = row := fun hrow hx hxid =>
    h.linked.offerings.eq_of_key hx (Table.find_some hrow).1 (hxid.trans (Table.find_some hrow).2.symm)
  cases hstep with
  | same => exact h
  | offer hjob _ hnew hpiv hoffering => exact h.offer hjob hnew hpiv hoffering
  | refloat _ hpiv _ hnone =>
    obtain ⟨o, ho, hid⟩ := h.linked.floated _ hpiv
    exact absurd hid (hnone o ho)
  | @publish _ o _ _ row _ hrow hopen _ _ =>
    refine Handed.enqueue (h.update ?_ (fun x hx hxid hclosed => ?_) ?_) _
    · exact fun _ => ⟨rfl, rfl, rfl, rfl⟩
    · rw [hsame hrow hx hxid, hopen] at hclosed
      cases hclosed
    · exact fun _ _ _ hunpublished => nomatch hunpublished
  | reset => exact h.update (fun _ => ⟨rfl, rfl, rfl, rfl⟩) (fun _ _ _ hc => ⟨hc, rfl⟩) fun _ _ _ hu => ⟨hu, rfl⟩
  | @finalize _ o _ row hrow hopen hpublished =>
    refine h.update (fun _ => ⟨rfl, rfl, rfl, rfl⟩) (fun x hx hxid hclosed => ?_) fun x hx hxid hunpublished => ?_
    · rw [hsame hrow hx hxid, hopen] at hclosed
      cases hclosed
    · rw [hsame hrow hx hxid] at hunpublished
      exact absurd hunpublished hpublished

theorem Handed.reopen (h : Handed rows l pending approvals) (hrow : rows id = some c)
    (hkeep : c'.propertyId = c.propertyId) (hreturned : c'.stage = .submitted) (ho : l.Offers o id)
    (hunpublished : o.finalOfferingPublishedAt = none) :
    Handed (Function.update rows id (some c')) { l with
      offerings := Table.update OfferingRecord.id l.offerings o.id fun o => { o with status := .closed } }
      pending approvals := by
  have hother : ∀ {x id'}, l.Offers x id' → id' ≠ id → x.id ≠ o.id := by
    intro x id' hx hne hid
    rw [h.linked.offerings.eq_of_key hx.1 ho.1 hid] at hx
    exact hne (h.linked.offers_once hx ho)
  refine { h with
    linked := property_keep hrow hkeep ▸ h.linked.update fun _ => ⟨rfl, rfl⟩
    priced := fun y id' hy => ?_
    live := fun id' x hx hlive => ?_
    early := fun id' x hx hearly => ⟨fun job hjob hcase => ?_, fun y hy => ?_⟩ }
  · obtain ⟨x, hx, rfl⟩ := Links.offers_update hy fun _ => rfl
    have hprice := h.priced x id' hx
    split <;> exact hprice
  · by_cases heq : id' = id
    · rw [heq, update_self] at hx
      cases hx
      rw [hreturned] at hlive
      cases hlive
    · rw [update_of_ne heq] at hx
      refine ⟨(h.live id' x hx hlive).job, fun y hy hunpublished => ?_⟩
      obtain ⟨z, hz, rfl⟩ := Links.offers_update hy fun _ => rfl
      rw [if_neg (hother hz heq)] at hunpublished ⊢
      exact (h.live id' x hx hlive).offering z hz hunpublished
  · by_cases heq : id' = id
    · obtain ⟨-, p, hp, -, hpcase⟩ := ho
      exact ⟨p, hp, hpcase.trans heq.symm⟩
    · rw [update_of_ne heq] at hx
      exact (h.early id' x hx hearly).jobs job hjob hcase
  · obtain ⟨z, hz, rfl⟩ := Links.offers_update hy fun _ => rfl
    by_cases heq : id' = id
    · have hzo : z = o := h.linked.offers_unique (heq ▸ hz) ho
      rw [hzo, if_pos rfl]
      exact ⟨rfl, hunpublished⟩
    · rw [update_of_ne heq] at hx
      rw [if_neg (hother hz heq)]
      exact (h.early id' x hx hearly).offering z hz

theorem Handed.approve (h : Handed rows l pending approvals) (hrow : rows id = some c)
    (hstage : c.stage.early = true) (hkeep : c'.propertyId = c.propertyId) (happroved : c'.stage = .preOfferingOpen)
    (hnew : ∀ p ∈ l.pivs, p.propertyId ≠ c.propertyId) (hcase : job.caseId = id)
    (hproperty : job.propertyId = c.propertyId) :
    Handed (Function.update rows id (some c')) { l with handoffs := l.handoffs ++ [job] } (pending ++ [job])
      (Function.update approvals id (some job.ipoValueEur)) := by
  have hvehicle : ∀ {p}, p ∈ l.pivs → p.caseId ≠ id := fun hp hpcase =>
    hnew _ hp (h.linked.vehicle_property hrow hp hpcase)
  have hjobs : ∀ {job'}, job' ∈ l.handoffs → job'.caseId ≠ id := fun hjob' hcase' => by
    obtain ⟨p, hp, hpcase⟩ := (h.early id c hrow hstage).jobs _ hjob' hcase'
    exact hvehicle hp hpcase
  have hjob : property rows job.caseId = some job.propertyId := by simp [property, hcase, hrow, hproperty]
  refine {
    linked := property_keep hrow hkeep ▸ h.linked.queue hjob
    delivered := fun job' hjob' => ?_
    valued := fun job' hjob' => ?_
    priced := fun y id' hy => ?_
    live := fun id' x hx hlive => ⟨?_, fun y hy hunpublished => ?_⟩
    early := fun id' x hx hearly => ?_ }
  · rcases mem_append.mp hjob' with hold | hlast
    · exact (h.delivered job' hold).imp_left (mem_append_left _)
    · exact .inl (mem_append_right _ hlast)
  · rcases mem_append.mp hjob' with hold | hlast
    · rw [update_of_ne (hjobs hold)]
      exact h.valued job' hold
    · rw [mem_singleton.mp hlast, hcase, update_self]
  · have hne : id' ≠ id := by
      obtain ⟨-, p, hp, -, hpcase⟩ := hy
      exact hpcase ▸ hvehicle hp
    rw [update_of_ne hne]
    exact h.priced y id' hy
  · by_cases heq : id' = id
    · exact ⟨job, by simp, hcase.trans heq.symm⟩
    · rw [update_of_ne heq] at hx
      obtain ⟨job', hjob', hcase'⟩ := (h.live id' x hx hlive).job
      exact ⟨job', mem_append_left _ hjob', hcase'⟩
  · by_cases heq : id' = id
    · obtain ⟨-, p, hp, -, hpcase⟩ := hy
      exact absurd (hpcase.trans heq) (hvehicle hp)
    · rw [update_of_ne heq] at hx
      exact (h.live id' x hx hlive).offering y hy hunpublished
  · by_cases heq : id' = id
    · rw [heq, update_self] at hx
      cases hx
      rw [happroved] at hearly
      cases hearly
    · rw [update_of_ne heq] at hx
      refine ⟨fun job' hjob' hcase' => ?_, (h.early id' x hx hearly).offering⟩
      rcases mem_append.mp hjob' with hold | hlast
      · exact (h.early id' x hx hearly).jobs job' hold hcase'
      · rw [mem_singleton.mp hlast, hcase] at hcase'
        exact absurd hcase'.symm heq

theorem Handed.deliver (h : Handed rows l pending approvals) (hvehicle : ∃ p ∈ l.pivs, p.propertyId = job.propertyId) :
    Handed rows l (pending.erase job) approvals := by
  refine { h with delivered := fun job' hjob' => ?_ }
  by_cases heq : job' = job
  · exact .inr (heq ▸ hvehicle)
  · exact (h.delivered job' hjob').imp_left (mem_erase_of_ne heq).mpr

end Handed

section Runs

/-- The tables, the jobs that have not been delivered since they were enqueued, and the
value of the latest approval of each case. -/
structure Handover where
  tables : Database
  pending : List HandoffJob
  approvals : CaseId → Option Nat

/-- The case and the value of a decision that approves the case. -/
def Operation.approves (w : Database) (op : Operation) : Option (CaseId × Nat) :=
  match op with
  | .recordFounderDecision _ input =>
    match input.decision with
    | .approve _ ipoValueEur =>
      if w.stageOf input.caseId = .submitted ∧ (w.step op).stageOf input.caseId = .preOfferingOpen then
        some (input.caseId, ipoValueEur)
      else none
    | .reject => none
  | _ => none

/-- The job of a delivery that goes through. -/
def Operation.delivers (w : Database) (op : Operation) : Option HandoffJob :=
  match op with
  | .preOfferingOpenHandoff fresh job openEscrowCampaign =>
    if job ∈ w.handoffs ∧ (openOfferingForApprovedCase fresh job openEscrowCampaign w).isOk then some job else none
  | _ => none

def Handover.step (r : Handover) (op : Operation) : Handover where
  tables := r.tables.step op
  pending :=
    let enqueued := (r.tables.step op).handoffs.drop r.tables.handoffs.length
    match op.delivers r.tables with
    | some job => (r.pending ++ enqueued).erase job
    | none => r.pending ++ enqueued
  approvals := match op.approves r.tables with
    | some (id, ipoValueEur) => update r.approvals id (some ipoValueEur)
    | none => r.approvals

/-- Runs of the application alone, as far as the tables allow its operations. -/
abbrev HandoverRun (allowed : Database → Operation → Prop) (w₀ : Database) : Handover → Prop :=
  Run (.alone ⟨w₀, [], fun _ => none⟩ Handover.step) fun r => allowed r.tables

/-- A case is approved only while its property has no vehicle. -/
def ApprovesNew (w : Database) : Operation → Prop
  | .recordFounderDecision _ input => ∀ ipoEndAt ipoValueEur, input.decision = .approve ipoEndAt ipoValueEur →
    ∀ c, w.intakeCase input.caseId = some c → ∀ p ∈ w.pivs, p.propertyId ≠ c.propertyId
  | _ => True

/-- A case that is open for its offering, all of whose jobs have been delivered and whose
terms have not been published, has an open offering for the value of its latest approval. -/
def Handover.Offered (r : Handover) : Prop :=
  ∀ id c, r.tables.intakeCase id = some c → c.stage = .preOfferingOpen → (∀ job ∈ r.pending, job.caseId ≠ id) →
    ¬ r.tables.links.Published id →
    ∃ p ∈ r.tables.pivs, p.propertyId = c.propertyId ∧ ∃ o ∈ r.tables.market.offerings, o.pivId = p.id ∧
      o.status = .preOffering ∧ r.approvals id = some o.targetRaiseEur ∧ r.approvals id = some o.minimumRaiseEur

def Handover.Handed (r : Handover) : Prop := Intake.Handed r.tables.row r.tables.links r.pending r.approvals

variable {r : Handover} {w w₀ : Database} {op : Operation} {pending : List HandoffJob}
  {approvals : CaseId → Option Nat}

theorem openOffering_vehicle (h : openOfferingForApprovedCase fresh job openEscrowCampaign w = .ok (result, w')) :
    ∃ p ∈ w'.pivs, p.propertyId = job.propertyId := by
  unfold openOfferingForApprovedCase at h
  split at h
  · rename_i piv hpiv
    obtain ⟨hmem, hproperty⟩ := Table.find_some hpiv
    split at h
    · cases h
      exact ⟨piv, hmem, hproperty⟩
    · obtain ⟨w₁, hcreate, h⟩ := bind_ok h
      cases h
      obtain ⟨-, rfl⟩ := createOffering_ok hcreate
      exact ⟨piv, hmem, hproperty⟩
  · split at h
    · cases h
    · obtain ⟨_, _, h⟩ := bind_ok h
      obtain ⟨_, _, h⟩ := bind_ok h
      obtain ⟨w₁, hcreate, h⟩ := bind_ok h
      cases h
      obtain ⟨-, rfl⟩ := createOffering_ok hcreate
      exact ⟨_, mem_append_right _ (mem_singleton.mpr rfl), rfl⟩

theorem delivers_vehicle (h : op.delivers w = some job) :
    ∃ p ∈ (w.step op).pivs, p.propertyId = job.propertyId := by
  unfold Operation.delivers at h
  split at h
  · rename_i fresh job' openEscrowCampaign
    split_ifs at h with hok
    cases h
    obtain ⟨hjob, hok⟩ := hok
    cases hrun : openOfferingForApprovedCase fresh job openEscrowCampaign w with
    | error => simp [hrun, Except.isOk, Except.toBool] at hok
    | ok =>
      simp only [Database.step, hjob, if_true, commit, hrun]
      exact openOffering_vehicle hrun
  · cases h

theorem Handed.empty (hempty : w₀.Empty) : Handover.Handed ⟨w₀, [], fun _ => none⟩ := by
  have hrow : ∀ id, w₀.row id = none := fun id => row_absent (by simp [hempty.cases])
  have hlinked := Linked.empty hempty
  have hlinks : w₀.links = ⟨[], [], [], []⟩ := by
    simp [Database.links, hempty.pivs, hempty.offerings, hempty.handoffs, hempty.structuringJobs]
  unfold Handover.Handed
  rw [hlinks] at hlinked ⊢
  refine ⟨hlinked, ?_, ?_, ?_, ?_, ?_⟩ <;> simp [hrow, Links.Offers]

theorem MarketStep.handoffs (h : MarketStep w op links) : links.handoffs = w.handoffs := by
  cases h <;> rfl

theorem approves_none (h : ∀ id c', (w.step op).row id = some c' → c'.stage.live = true →
    ∃ c, w.row id = some c ∧ c.stage.live = true) : op.approves w = none := by
  unfold Operation.approves
  split
  · rename_i fresh input
    split
    · refine if_neg fun ⟨hsubmitted, hopen⟩ => ?_
      have hmoved : (w.step (.recordFounderDecision fresh input)).stageOf input.caseId ≠ .draft := by
        rw [hopen]
        decide
      obtain ⟨x, hx⟩ := intakeCase_of_stageOf hmoved
      rw [stageOf_some hx] at hopen
      obtain ⟨c, hc, hlive⟩ := h input.caseId (uncounted x) (row_some hx) (by simp [uncounted, hopen, Stage.live])
      rw [stageOf_row hc] at hsubmitted
      rw [hsubmitted] at hlive
      cases hlive
    · rfl
  · rfl

theorem StageStep.live (h : StageStep w op rows links) :
    (∀ id x, rows id = some x → x.stage.live = true → ∃ y, w.row id = some y ∧ y.stage.live = true) ∧
      links.handoffs = w.handoffs ∨ ∃ fresh input, op = .recordFounderDecision fresh input ∧
        ∃ c c' ipoEndAt ipoValueEur,
        w.row input.caseId = some c ∧ c.stage = .submitted ∧ input.decision = .approve ipoEndAt ipoValueEur ∧
        c'.propertyId = c.propertyId ∧ c'.stage = .preOfferingOpen ∧
        rows = update w.row input.caseId (some c') ∧ links = { w.links with
          handoffs := w.handoffs ++ [⟨input.caseId, c.propertyId, ipoValueEur, input.traceId⟩] } := by
  have hupdate : ∀ {id} {c : IntakeCase}, (c.stage.live = true → ∃ y, w.row id = some y ∧ y.stage.live = true) →
      ∀ id' x, update w.row id (some c) id' = some x → x.stage.live = true →
        ∃ y, w.row id' = some y ∧ y.stage.live = true := by
    intro id c hlive id' x hx hstage
    rcases update_some hx with ⟨rfl, rfl⟩ | ⟨-, hx⟩
    · exact hlive hstage
    · exact ⟨x, hx, hstage⟩
  cases h with
  | market h => exact .inl ⟨fun _ x hx hlive => ⟨x, hx, hlive⟩, h.handoffs⟩
  | enter _ hlive | close hlive => exact .inl ⟨hupdate fun h => absurd h (by simp [hlive]), rfl⟩
  | move hrow hlive => exact .inl ⟨hupdate fun h => ⟨_, hrow, hlive.symm.trans h⟩, rfl⟩
  | reopen _ _ _ _ hreturned => exact .inl ⟨hupdate fun h => absurd h (by simp [hreturned, Stage.live]), rfl⟩
  | approve hrow hstage hdecision hkeep happroved =>
    exact .inr ⟨_, _, rfl, _, _, _, _, hrow, hstage, hdecision, hkeep, happroved, rfl, rfl⟩

theorem approves_some (hdecision : input.decision = .approve ipoEndAt ipoValueEur)
    (hsubmitted : w.stageOf input.caseId = .submitted)
    (hopen : (w.step (.recordFounderDecision fresh input)).stageOf input.caseId = .preOfferingOpen) :
    (Operation.recordFounderDecision fresh input).approves w = some (input.caseId, ipoValueEur) := by
  simp only [Operation.approves, hdecision, hsubmitted, hopen, and_self, if_true]

theorem StageStep.handed (hs : StageStep w op rows links) (h : Intake.Handed w.row w.links pending approvals)
    (hlinked : Linked (property rows) links) (hquiet : links.handoffs = w.handoffs) :
    Intake.Handed rows links pending approvals := by
  cases hs with
  | market hstep => exact h.market hstep
  | enter hnew hlive =>
    exact h.restage hlinked (fun hstage => absurd hstage (by simp [hlive])) fun _ => h.linked.returned hnew
  | move hrow hlive hearly =>
    exact h.restage hlinked (fun hstage => h.live _ _ hrow (hlive.symm.trans hstage)) fun hstage =>
      h.early _ _ hrow (hearly hstage)
  | close hlive hearly =>
    exact h.restage hlinked (fun hstage => absurd hstage (by simp [hlive])) fun hstage =>
      absurd hstage (by simp [hearly])
  | approve => exact absurd (congrArg List.length hquiet) (by simp)
  | reopen hrow hoffering hunpublished hkeep hreturned =>
    exact h.reopen hrow hkeep hreturned (offers_caseOffering hoffering) hunpublished

theorem Handover.Handed.enqueued (h : r.Handed) (hallowed : ApprovesNew r.tables op) :
    Intake.Handed (r.tables.step op).row (r.tables.step op).links
      (r.pending ++ (r.tables.step op).handoffs.drop r.tables.handoffs.length) (r.step op).approvals := by
  have htables := caseStep_tables (step_caseStep r.tables op)
  have hlinked := htables.linked h.linked
  have happrovals : (r.step op).approvals = match op.approves r.tables with
    | some (id, ipoValueEur) => update r.approvals id (some ipoValueEur)
    | none => r.approvals := rfl
  have hhandoffs : (r.tables.step op).handoffs = (r.tables.step op).links.handoffs := rfl
  rw [happrovals, hhandoffs]
  rcases htables.stages.live with ⟨hlive, hquiet⟩ | ⟨fresh, input, rfl, c, c', _, ipoValueEur, hrow, hstage, hdecision,
    hkeep, happroved, hrows, hlinks⟩
  · rw [approves_none hlive, hquiet, drop_length, append_nil]
    exact htables.stages.handed h hlinked hquiet
  · have hopen := stageOf_row ((congrFun hrows input.caseId).trans (update_self ..))
    rw [approves_some hdecision ((stageOf_row hrow).trans hstage) (hopen.trans happroved), hlinks, drop_left, hrows]
    obtain ⟨current, hfind, rfl⟩ := map_eq_some_iff.mp hrow
    have hearly : (uncounted current).stage.early = true := by simp [hstage, Stage.early]
    exact Intake.Handed.approve h hrow hearly hkeep happroved (hallowed _ _ hdecision current hfind) rfl rfl

/-- Every operation that meets the condition keeps the handover in order. -/
theorem Handover.Handed.step (h : r.Handed) (hallowed : ApprovesNew r.tables op) : (r.step op).Handed := by
  have henqueued := h.enqueued hallowed
  unfold Handover.Handed
  simp only [Handover.step]
  cases hdelivers : op.delivers r.tables with
  | none => exact henqueued
  | some => exact henqueued.deliver (delivers_vehicle hdelivers)

/-- Every state that is reached without approving a case with a vehicle is in order. -/
theorem HandoverRun.handed (hempty : w₀.Empty) (h : HandoverRun ApprovesNew w₀ r) : r.Handed := by
  refine h.invariant Handover.Handed ?_ (fun r op _ hallowed ih => ih.step hallowed) nofun
  rintro r rfl
  exact .empty hempty

theorem Handover.Handed.offered (h : r.Handed) : r.Offered := by
  intro id c hfind hstage hdelivered hunpublished
  have hrow := row_some hfind
  have hopened := h.live id (uncounted c) hrow (by simp [uncounted, hstage, Stage.live])
  obtain ⟨job, hjob, hcase⟩ := hopened.job
  have hproperty := h.linked.handoffs job hjob
  rw [hcase, property, hrow] at hproperty
  have hjobProperty : job.propertyId = c.propertyId := (some.inj hproperty).symm
  obtain ⟨p, hp, hpProperty⟩ := (h.delivered job hjob).resolve_left fun hpending => hdelivered job hpending hcase
  obtain ⟨o, ho, hpiv⟩ := h.linked.floated p hp
  have hpcase := h.linked.vehicle_case hrow hp (hpProperty.trans hjobProperty)
  have hoffers : r.tables.links.Offers o id := ⟨ho, p, hp, hpiv.symm, hpcase⟩
  have hterms : o.finalOfferingPublishedAt = none := by
    by_contra hpublished
    exact hunpublished ⟨o, ho, hpublished, p, hp, hpiv.symm, hpcase⟩
  exact ⟨p, hp, hpProperty.trans hjobProperty, o, ho, hpiv, hopened.offering o hoffers hterms, h.priced o id hoffers⟩

theorem approves_tables {id : CaseId}
    (h : (Operation.recordFounderDecision fresh input).approves w = some (id, ipoValueEur))
    (hfind : w.intakeCase input.caseId = some c) :
    c.stage = .submitted ∧ (∃ c', (w.step (.recordFounderDecision fresh input)).intakeCase input.caseId = some c' ∧
        c'.stage = .preOfferingOpen ∧ c'.propertyId = c.propertyId) ∧
      (w.step (.recordFounderDecision fresh input)).links = { w.links with
        handoffs := w.handoffs ++ [⟨input.caseId, c.propertyId, ipoValueEur, input.traceId⟩] } := by
  rcases (caseStep_tables (step_caseStep w (.recordFounderDecision fresh input))).stages.live with ⟨hlive, -⟩ |
    ⟨_, _, hop, x, x', _, value, hrow, hstage, hdecision, hkeep, happroved, hrows, hlinks⟩
  · rw [approves_none hlive] at h
    cases h
  · cases hop
    have hx : uncounted c = x := some.inj ((row_some hfind).symm.trans hrow)
    subst hx
    obtain ⟨c', hfind', rfl⟩ := map_eq_some_iff.mp ((congrFun hrows input.caseId).trans (update_self ..))
    have hopen := (stageOf_some hfind').trans happroved
    rw [approves_some hdecision ((stageOf_some hfind).trans hstage) hopen] at h
    cases h
    exact ⟨hstage, ⟨c', hfind', happroved, hkeep⟩, hlinks⟩

theorem delivered_again (hvehicles : Table.Keyed Piv.propertyId w.pivs) (hp : p ∈ w.pivs)
    (hproperty : p.propertyId = job.propertyId) (hfloated : ∃ o ∈ w.market.offerings, o.pivId = p.id)
    (hjob : job ∈ w.handoffs) :
    w.step (.preOfferingOpenHandoff fresh job openEscrowCampaign) = w ∧
      (Operation.preOfferingOpenHandoff fresh job openEscrowCampaign).delivers w = some job := by
  have hfind : Table.find Piv.propertyId w.pivs job.propertyId = some p := hproperty ▸ hvehicles.find hp
  obtain ⟨o, ho, hpiv⟩ := hfloated
  obtain ⟨x, hx⟩ := isSome_iff_exists.mp
    (find?_isSome.mpr ⟨o, ho, decide_eq_true hpiv⟩ : (w.market.offerings.find? fun o => o.pivId = p.id).isSome)
  have hrun : openOfferingForApprovedCase fresh job openEscrowCampaign w = .ok ((p.id, x.id), w) := by
    simp only [openOfferingForApprovedCase, hfind, hx]
  refine ⟨?_, ?_⟩
  · simp only [Database.step, hjob, if_true, commit, hrun]
  · simp [Operation.delivers, hjob, hrun, Except.isOk, Except.toBool]

/-- A case whose property has a vehicle is approved again, and the job of that approval is
delivered: the only offering of the case is still the closed one. -/
theorem Handover.Handed.reapproved (h : r.Handed)
    (happroves : (Operation.recordFounderDecision fresh input).approves r.tables = some (input.caseId, ipoValueEur))
    (hfind : r.tables.intakeCase input.caseId = some c) (hp : p ∈ r.tables.pivs)
    (hproperty : p.propertyId = c.propertyId) (hpending : ∀ job ∈ r.pending, job.caseId ≠ input.caseId) :
    ¬ ((r.step (.recordFounderDecision fresh input)).step (.preOfferingOpenHandoff fresh'
      ⟨input.caseId, c.propertyId, ipoValueEur, input.traceId⟩ openEscrowCampaign)).Offered := by
  obtain ⟨hstage, ⟨c', hfind', hopen, hkeep⟩, hlinks⟩ := approves_tables happroves hfind
  have hreturned := h.early input.caseId (uncounted c) (row_some hfind) (by simp [uncounted, hstage, Stage.early])
  intro hoffered
  have hready := hoffered input.caseId c'
  simp only [Handover.step] at hready
  generalize r.tables.step (.recordFounderDecision fresh input) = w' at hfind' hlinks hready
  generalize hjob : (⟨input.caseId, c.propertyId, ipoValueEur, input.traceId⟩ : HandoffJob) = job at hlinks hready
  have hpivs : w'.pivs = r.tables.pivs := congrArg Links.pivs hlinks
  have hofferings : w'.market.offerings = r.tables.market.offerings := congrArg Links.offerings hlinks
  have hhandoffs : w'.handoffs = r.tables.handoffs ++ [job] := congrArg Links.handoffs hlinks
  have hagain : w'.step (.preOfferingOpenHandoff fresh' job openEscrowCampaign) = w' ∧
      (Operation.preOfferingOpenHandoff fresh' job openEscrowCampaign).delivers w' = some job := by
    refine delivered_again (hpivs ▸ h.linked.vehicles) (hpivs ▸ hp) ?_ (hofferings ▸ h.linked.floated p hp) ?_
    · rw [← hjob]
      exact hproperty
    · simp [hhandoffs]
  have hnone : (Operation.recordFounderDecision fresh input).delivers r.tables = none := rfl
  have hnew : job ∉ r.pending := fun hmem => hpending job hmem (by rw [← hjob])
  simp only [hagain.1, hagain.2, hnone, hhandoffs, drop_left, drop_length, append_nil,
    erase_append_right _ hnew, erase_cons_head] at hready
  have hunpublished : ¬ w'.links.Published input.caseId := by
    rw [hlinks]
    rintro ⟨o, ho, hpublished, hpiv⟩
    exact hpublished (hreturned.offering o ⟨ho, hpiv⟩).2
  obtain ⟨q, hq, hqProperty, o, ho, hpiv, hstatus, -⟩ := hready hfind' hopen hpending hunpublished
  rw [hpivs] at hq
  rw [hofferings] at ho
  have hqcase := h.linked.vehicle_case (row_some hfind) hq (hqProperty.trans hkeep)
  rw [(hreturned.offering o ⟨ho, q, hq, hpiv.symm, hqcase⟩).1] at hstatus
  cases hstatus

/-- In every run that approves a case only while its property has no vehicle, a case whose jobs
have been delivered has its offering until its terms are published; and once a case with a
vehicle is approved, the delivery of that approval's job leaves it without one. -/
theorem every_approval_gets_its_offering (hempty : w₀.Empty) (h : HandoverRun ApprovesNew w₀ r) :
    r.Offered ∧ ∀ fresh input ipoValueEur c,
      (Operation.recordFounderDecision fresh input).approves r.tables = some (input.caseId, ipoValueEur) →
      r.tables.intakeCase input.caseId = some c → (∃ p ∈ r.tables.pivs, p.propertyId = c.propertyId) →
      (∀ job ∈ r.pending, job.caseId ≠ input.caseId) → ∀ fresh' openEscrowCampaign,
        ¬ ((r.step (.recordFounderDecision fresh input)).step (.preOfferingOpenHandoff fresh'
          ⟨input.caseId, c.propertyId, ipoValueEur, input.traceId⟩ openEscrowCampaign)).Offered := by
  refine ⟨(h.handed hempty).offered, ?_⟩
  rintro fresh input ipoValueEur c happroves hfind ⟨p, hp, hproperty⟩ hpending fresh' openEscrowCampaign
  exact (h.handed hempty).reapproved happroves hfind hp hproperty hpending

def firstHandover : Handover := ⟨newDatabase, [], fun _ => none⟩

/-- Case 21 is approved, and the job of the approval is delivered. -/
theorem every_approval_gets_its_offering_handed :
    ∃ r, HandoverRun ApprovesNew newDatabase r ∧ r.tables.stageOf 21 = .preOfferingOpen ∧ r.pending = [] ∧
      r.approvals 21 = some 500 ∧ r.Offered := by
  have hempty : newDatabase.Empty := ⟨rfl, rfl, rfl, rfl, rfl⟩
  have hrun : HandoverRun ApprovesNew newDatabase ((approved ++ [handoff]).foldl Handover.step firstHandover) := by
    refine (Run.start rfl).play (approved ++ [handoff]) ⟨trivial, ?_, trivial, trivial⟩
    exact fun _ _ _ _ _ _ hp => absurd hp not_mem_nil
  exact ⟨_, hrun, rfl, rfl, rfl, (every_approval_gets_its_offering hempty hrun).1⟩

/-- Case 21 goes back to review, is approved again for 800 EUR, and that approval's job is delivered. -/
def approvedAgain : List Operation :=
  approved ++ [handoff] ++ reopening ++ [.recordFounderDecision (80 + ·) ⟨21, 1, .approve 1900 800, 300, 8⟩,
    .preOfferingOpenHandoff (90 + ·) ⟨21, 20, 800, 8⟩ true]

/-- Every job has been delivered and nothing has been published, and the only offering is the
closed one of the first approval. -/
theorem second_approval_gets_no_offering :
    ∃ r, HandoverRun (fun _ _ => True) newDatabase r ∧ r.tables.stageOf 21 = .preOfferingOpen ∧ r.pending = [] ∧
      r.approvals 21 = some 800 ∧
      r.tables.market.offerings.map (fun o => (o.status, o.targetRaiseEur, o.finalOfferingPublishedAt)) =
        [(.closed, 500, none)] ∧ ¬ r.Offered := by
  refine ⟨approvedAgain.foldl Handover.step firstHandover, (Run.start rfl).play approvedAgain (playable_free _),
    rfl, rfl, rfl, rfl, ?_⟩
  intro hoffered
  have hofferings : (approvedAgain.foldl Handover.step firstHandover).tables.market.offerings =
      [⟨41, 40, 500, .closed, none, none, none, 500⟩] := rfl
  have hunpublished : ¬ (approvedAgain.foldl Handover.step firstHandover).tables.links.Published 21 := by
    rintro ⟨o, ho, hpublished, -⟩
    rw [Database.links, hofferings] at ho
    rw [mem_singleton.mp ho] at hpublished
    exact hpublished rfl
  obtain ⟨p, -, -, o, ho, -, hstatus, -⟩ := hoffered 21 _ rfl rfl (fun _ h => absurd h not_mem_nil) hunpublished
  rw [hofferings] at ho
  rw [mem_singleton.mp ho] at hstatus
  cases hstatus

end Runs

end Intake
