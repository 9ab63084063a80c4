import VistaBlox.IntakeRows

/-!
# Cases and their offerings
-/
namespace Intake

open List Option

open Offering (OfferingId OfferingRecord)
open Function (update update_eq_self update_of_ne update_self)
open Guarded (Run)

section Linked

def property (rows : CaseId → Option IntakeCase) (id : CaseId) : Option PropertyId :=
  (rows id).map IntakeCase.propertyId

/-- How vehicles, offerings and handoffs belong to the cases, given the property of each case. -/
structure Linked (properties : CaseId → Option PropertyId) (l : Links) : Prop where
  own : ∀ id id' p, properties id = some p → properties id' = some p → id = id'
  pivs : Table.Keyed Piv.id l.pivs
  vehicles : Table.Keyed Piv.propertyId l.pivs
  offerings : Table.Keyed OfferingRecord.id l.offerings
  single : Table.Keyed OfferingRecord.pivId l.offerings
  owned : ∀ p ∈ l.pivs, properties p.caseId = some p.propertyId
  issued : ∀ o ∈ l.offerings, ∃ p ∈ l.pivs, p.id = o.pivId
  floated : ∀ p ∈ l.pivs, ∃ o ∈ l.offerings, o.pivId = p.id
  handoffs : ∀ job ∈ l.handoffs, properties job.caseId = some job.propertyId

variable {properties : CaseId → Option PropertyId} {l : Links} {piv : Piv} {o : OfferingRecord} {id : CaseId}

theorem Linked.enter (h : Linked properties l) (hnew : properties id = none) (hown : ∀ id', properties id' ≠ some p) :
    Linked (update properties id (some p)) l := by
  have hkeep : ∀ {id' q}, properties id' = some q → update properties id (some p) id' = some q := by
    intro id' q hq
    have hne : id' ≠ id := by
      rintro rfl
      cases hnew.symm.trans hq
    rw [update_of_ne hne]
    exact hq
  have hother : ∀ {id' q}, update properties id (some p) id' = some q →
      id' = id ∧ q = p ∨ properties id' = some q := by
    intro id' q hq
    by_cases heq : id' = id
    · subst heq
      rw [update_self] at hq
      exact .inl ⟨rfl, (some.inj hq).symm⟩
    · rw [update_of_ne heq] at hq
      exact .inr hq
  refine { h with
    own := fun a b q ha hb => ?_
    owned := fun p hp => hkeep (h.owned p hp)
    handoffs := fun job hjob => hkeep (h.handoffs job hjob) }
  rcases hother ha with ⟨ha', hq⟩ | ha' <;> rcases hother hb with ⟨hb', hq'⟩ | hb'
  · exact ha'.trans hb'.symm
  · exact absurd (hq ▸ hb') (hown b)
  · exact absurd (hq' ▸ ha') (hown a)
  · exact h.own a b q ha' hb'

theorem Linked.offer (h : Linked properties l) (hproperty : properties piv.caseId = some piv.propertyId)
    (hnew : ∀ p ∈ l.pivs, p.propertyId ≠ piv.propertyId) (hpiv : ∀ p ∈ l.pivs, p.id ≠ piv.id)
    (hoffering : ∀ x ∈ l.offerings, x.id ≠ o.id) (hvehicle : o.pivId = piv.id) :
    Linked properties { l with pivs := l.pivs ++ [piv], offerings := l.offerings ++ [o] } where
  own := h.own
  pivs := h.pivs.append (find?_eq_none.mpr fun p hp => by simpa using hpiv p hp)
  vehicles := h.vehicles.append (find?_eq_none.mpr fun p hp => by simpa using hnew p hp)
  offerings := h.offerings.append (find?_eq_none.mpr fun x hx => by simpa using hoffering x hx)
  single := by
    refine h.single.append (find?_eq_none.mpr fun x hx => ?_)
    obtain ⟨p, hp, hid⟩ := h.issued x hx
    simpa [hvehicle, ← hid] using hpiv p hp
  owned p hp := by
    rcases mem_append.mp hp with hp | hp
    · exact h.owned p hp
    · rw [mem_singleton.mp hp]
      exact hproperty
  issued x hx := by
    rcases mem_append.mp hx with hx | hx
    · obtain ⟨p, hp, hid⟩ := h.issued x hx
      exact ⟨p, mem_append_left _ hp, hid⟩
    · rw [mem_singleton.mp hx]
      exact ⟨piv, by simp, hvehicle.symm⟩
  floated p hp := by
    rcases mem_append.mp hp with hp | hp
    · obtain ⟨x, hx, hid⟩ := h.floated p hp
      exact ⟨x, mem_append_left _ hx, hid⟩
    · rw [mem_singleton.mp hp]
      exact ⟨o, by simp, hvehicle⟩
  handoffs := h.handoffs

theorem Linked.update (h : Linked properties l) (hf : ∀ x, (f x).id = x.id ∧ (f x).pivId = x.pivId) :
    Linked properties { l with offerings := Table.update OfferingRecord.id l.offerings offeringId f } where
  own := h.own
  pivs := h.pivs
  vehicles := h.vehicles
  offerings := h.offerings.map fun x _ => by
    split
    · exact (hf x).1
    · rfl
  single := h.single.map fun x _ => by
    split
    · exact (hf x).2
    · rfl
  owned := h.owned
  issued x hx := by
    obtain ⟨y, hy, rfl⟩ := List.mem_map.mp hx
    obtain ⟨p, hp, hid⟩ := h.issued y hy
    refine ⟨p, hp, ?_⟩
    split
    · exact hid.trans (hf y).2.symm
    · exact hid
  floated p hp := by
    obtain ⟨x, hx, hid⟩ := h.floated p hp
    refine ⟨_, List.mem_map_of_mem hx, ?_⟩
    split
    · exact (hf x).2.trans hid
    · exact hid
  handoffs := h.handoffs

theorem Linked.queue (h : Linked properties l) (hjob : properties job.caseId = some job.propertyId) :
    Linked properties { l with handoffs := l.handoffs ++ [job] } := by
  refine { h with handoffs := fun job' hjob' => ?_ }
  rcases mem_append.mp hjob' with hold | hnew
  · exact h.handoffs job' hold
  · rw [mem_singleton.mp hnew]
    exact hjob

theorem Linked.vehicle_unique (h : Linked properties l) (hp : p ∈ l.pivs) (hp' : p' ∈ l.pivs)
    (hcase : p.caseId = p'.caseId) : p = p' := by
  have hproperty := h.owned p hp
  rw [hcase, h.owned p' hp'] at hproperty
  exact h.vehicles.eq_of_key hp hp' (some.inj hproperty).symm

end Linked

section Offers

def Links.Offers (l : Links) (o : OfferingRecord) (id : CaseId) : Prop :=
  o ∈ l.offerings ∧ ∃ p ∈ l.pivs, p.id = o.pivId ∧ p.caseId = id

variable {rows : CaseId → Option IntakeCase} {l : Links} {id : CaseId} {o : OfferingRecord} {piv : Piv}

theorem Linked.offers_case (h : Linked (property rows) l) (ho : l.Offers o id) : ∃ c, rows id = some c := by
  obtain ⟨-, p, hp, -, rfl⟩ := ho
  obtain ⟨c, hc, -⟩ := map_eq_some_iff.mp (h.owned p hp)
  exact ⟨c, hc⟩

theorem Linked.offers_unique (h : Linked (property rows) l) (ho : l.Offers o id) (ho' : l.Offers o' id) : o = o' := by
  obtain ⟨hmem, p, hp, hid, hcase⟩ := ho
  obtain ⟨hmem', p', hp', hid', hcase'⟩ := ho'
  have hpp := h.vehicle_unique hp hp' (hcase.trans hcase'.symm)
  exact h.single.eq_of_key hmem hmem' (hid.symm.trans ((congrArg Piv.id hpp).trans hid'))

theorem Linked.offers_once (h : Linked (property rows) l) (ho : l.Offers o id) (ho' : l.Offers o id') : id = id' := by
  obtain ⟨-, p, hp, hid, rfl⟩ := ho
  obtain ⟨-, p', hp', hid', rfl⟩ := ho'
  rw [h.pivs.eq_of_key hp hp' (hid.trans hid'.symm)]

theorem Linked.vehicle_case (h : Linked (property rows) l) (hrow : rows id = some c) (hp : piv ∈ l.pivs)
    (hproperty : piv.propertyId = c.propertyId) : piv.caseId = id := by
  have howned := h.owned piv hp
  refine h.own _ _ _ howned ?_
  simp [property, hrow, hproperty]

theorem Linked.vehicle_property (h : Linked (property rows) l) (hrow : rows id = some c) (hp : piv ∈ l.pivs)
    (hcase : piv.caseId = id) : piv.propertyId = c.propertyId := by
  have howned := h.owned piv hp
  rw [hcase, property, hrow] at howned
  exact (some.inj howned).symm

theorem Links.offers_update
    (h : ({ l with offerings := Table.update OfferingRecord.id l.offerings offeringId f } : Links).Offers y id)
    (hf : ∀ x, (f x).pivId = x.pivId) : ∃ x, l.Offers x id ∧ y = if x.id = offeringId then f x else x := by
  obtain ⟨hy, p, hp, hid, hcase⟩ := h
  obtain ⟨x, hx, rfl⟩ := List.mem_map.mp hy
  refine ⟨x, ⟨hx, p, hp, ?_, hcase⟩, rfl⟩
  split at hid
  · exact hid.trans (hf x)
  · exact hid

theorem Linked.offers_offer (h : Linked (property rows) l) (hpiv : ∀ p ∈ l.pivs, p.id ≠ v.id)
    (hvehicle : o.pivId = v.id)
    (hy : ({ l with pivs := l.pivs ++ [v], offerings := l.offerings ++ [o] } : Links).Offers y id) :
    l.Offers y id ∨ (y = o ∧ id = v.caseId) := by
  obtain ⟨hy, p, hp, hid, hcase⟩ := hy
  rcases mem_append.mp hy with hold | hlast <;> rcases mem_append.mp hp with hp | hp
  · exact .inl ⟨hold, p, hp, hid, hcase⟩
  · obtain ⟨q, hq, hqid⟩ := h.issued y hold
    rw [mem_singleton.mp hp] at hid
    exact absurd (hqid.trans hid.symm) (hpiv q hq)
  · rw [mem_singleton.mp hlast, hvehicle] at hid
    exact absurd hid (hpiv p hp)
  · rw [mem_singleton.mp hp] at hcase
    exact .inr ⟨mem_singleton.mp hlast, hcase.symm⟩

theorem offers_caseOffering {w : Database} (h : w.caseOffering id = some o) : w.links.Offers o id := by
  obtain ⟨piv, hpiv, ho⟩ := bind_eq_some_iff.mp h
  obtain ⟨hpivmem, hcase⟩ := mem_filter.mp (argmax_mem hpiv)
  obtain ⟨homem, hopiv⟩ := mem_filter.mp (mem_of_getLast? ho)
  exact ⟨homem, piv, hpivmem, (of_decide_eq_true hopiv).symm, of_decide_eq_true hcase⟩

end Offers

variable {id : CaseId}

/-- What no transaction changes of a case. -/
structure Keeps (c c' : IntakeCase) : Prop where
  propertyId : c'.propertyId = c.propertyId
  legalExecutionEventRefs : c'.legalExecutionEventRefs = c.legalExecutionEventRefs

/-- What a step does to the rows of the cases. -/
inductive RowsStep (w : Database) : (CaseId → Option IntakeCase) → Prop where
  | same : RowsStep w w.row
  | keep {id : CaseId} {c c' : IntakeCase} (hrow : w.row id = some c) (hkeep : Keeps c c') :
      RowsStep w (update w.row id (some c'))
  | enter {id : CaseId} {c : IntakeCase} (hnew : w.row id = none)
      (hproperty : ∀ id' x, w.row id' = some x → x.propertyId ≠ c.propertyId)
        (hrefs : c.legalExecutionEventRefs = []) :
      RowsStep w (update w.row id (some c))

theorem TableStep.rowsStep (h : TableStep w op rows revisions requests links) : RowsStep w rows := by
  cases h with
  | outside => exact .same
  | draft hnew hproperty | staff hnew hproperty => exact .enter hnew hproperty rfl
  | submit hrow | publish hrow | expire hrow | withdraw hrow | resubmit hrow | reject hrow | approve hrow
  | close hrow | assign hrow | handoff _ hrow => exact .keep hrow ⟨rfl, rfl⟩
  | @writeback _ _ _ _ _ _ _ _ c _ both hkind hrow =>
    refine .keep hrow ?_
    cases both <;> cases hkind <;> exact ⟨rfl, rfl⟩
  | @execute _ _ operation c _ _ _ hrow =>
    refine .keep hrow ?_
    cases operation.command <;> exact ⟨rfl, rfl⟩

theorem property_update :
    property (update rows id (some c)) = update (property rows) id (some c.propertyId) := by
  funext id'
  by_cases heq : id' = id
  · simp [property, heq]
  · simp [property, heq]

theorem property_keep (hrow : rows id = some c) (hkeep : c'.propertyId = c.propertyId) :
    property (update rows id (some c')) = property rows := by
  have hsame : property rows id = some c'.propertyId := by simp [property, hrow, hkeep]
  rw [property_update, ← hsame, update_eq_self]

theorem Linked.rewrite (hl : Linked (property w.row) links) (h : RowsStep w rows) : Linked (property rows) links := by
  cases h with
  | same => exact hl
  | keep hrow hkeep =>
    rw [property_keep hrow hkeep.propertyId]
    exact hl
  | @enter id c hnew hproperty =>
    rw [property_update]
    refine hl.enter (congrArg _ hnew) fun id' hp => ?_
    obtain ⟨x, hx, hxp⟩ := map_eq_some_iff.mp hp
    exact hproperty id' x hx hxp

theorem MarketStep.linked (h : MarketStep w op links) (hl : Linked (property w.row) w.links) :
    Linked (property w.row) links := by
  cases h with
  | same => exact hl
  | offer hjob _ hnew hpiv hoffering => exact hl.offer (hl.handoffs _ hjob) hnew hpiv hoffering rfl
  | refloat _ hpiv _ hnone =>
    obtain ⟨o, ho, hid⟩ := hl.floated _ hpiv
    exact absurd hid (hnone o ho)
  | publish => exact { hl.update (f := OfferingRecord.publish _) fun _ => ⟨rfl, rfl⟩ with }
  | reset | finalize => exact hl.update fun _ => ⟨rfl, rfl⟩

theorem ReversalCommand.linked (command : ReversalCommand) (caseId : CaseId)
    (hl : Linked (property w.row) w.links) : Linked (property w.row) (command.links w caseId) := by
  unfold ReversalCommand.links
  split
  · exact hl.update fun _ => ⟨rfl, rfl⟩
  · exact hl

theorem TableStep.linked (h : TableStep w op rows revisions requests links)
    (hl : Linked (property w.row) w.links) : Linked (property rows) links := by
  refine Linked.rewrite ?_ h.rowsStep
  cases h with
  | outside h => exact h.linked hl
  | approve hrow => exact hl.queue (by simp [property, hrow])
  | execute => exact ReversalCommand.linked _ _ hl
  | _ => exact hl

section Published

/-- The final terms of an offering of the case have been published. -/
def Links.Published (l : Links) (id : CaseId) : Prop :=
  ∃ o ∈ l.offerings, o.finalOfferingPublishedAt ≠ none ∧ ∃ p ∈ l.pivs, p.id = o.pivId ∧ p.caseId = id

variable {w : Database} {op : Operation} {rows : CaseId → Option IntakeCase}
  {revisions : List SubmissionRevision} {requests : List InformationRequest} {l links : Links}

theorem Links.Published.update (h : l.Published id)
    (hf : ∀ x, (f x).pivId = x.pivId ∧ (x.finalOfferingPublishedAt ≠ none → (f x).finalOfferingPublishedAt ≠ none)) :
    ({ l with offerings := Table.update OfferingRecord.id l.offerings offeringId f } : Links).Published id := by
  obtain ⟨o, ho, hpublished, p, hp, hid, hcase⟩ := h
  refine ⟨_, List.mem_map_of_mem ho, ?_, p, hp, ?_, hcase⟩
  · split
    · exact (hf o).2 hpublished
    · exact hpublished
  · split
    · exact hid.trans (hf o).1.symm
    · exact hid

theorem TableStep.published (h : TableStep w op rows revisions requests links) (hp : w.links.Published id) :
    links.Published id := by
  cases h with
  | outside h =>
    cases h with
    | same => exact hp
    | offer =>
      obtain ⟨o, ho, hpublished, p, hmem, hid⟩ := hp
      exact ⟨o, mem_append_left _ ho, hpublished, p, mem_append_left _ hmem, hid⟩
    | refloat =>
      obtain ⟨o, ho, hpublished, hpiv⟩ := hp
      exact ⟨o, mem_append_left _ ho, hpublished, hpiv⟩
    | publish => exact hp.update fun _ => ⟨rfl, fun _ => nofun⟩
    | reset | finalize => exact hp.update fun _ => ⟨rfl, fun hx => hx⟩
  | execute =>
    unfold ReversalCommand.links
    split
    · exact hp.update fun _ => ⟨rfl, fun hx => hx⟩
    · exact hp
  | _ => exact hp

def Stage.structuring : Stage → Bool
  | .postIpoStructuring | .approvedForFinalOffering => true
  | _ => false

/-- A case whose structuring has been reached or queued has published terms. -/
structure Structured (rows : CaseId → Option IntakeCase) (l : Links) : Prop where
  jobs : ∀ job ∈ l.structuringJobs, l.Published job.caseId
  stages : ∀ id c, rows id = some c → c.stage.structuring = true → l.Published id

theorem Structured.update (h : Structured rows l) (hc : c.stage.structuring = true → l.Published id) :
    Structured (update rows id (some c)) l := by
  refine ⟨h.jobs, fun id' c' hrow hstage => ?_⟩
  by_cases heq : id' = id
  · subst heq
    rw [update_self] at hrow
    cases hrow
    exact hc hstage
  · rw [update_of_ne heq] at hrow
    exact h.stages id' c' hrow hstage

theorem Structured.relink (h : Structured rows l) (hjobs : ∀ job ∈ links.structuringJobs,
    job ∈ l.structuringJobs ∨ links.Published job.caseId)
    (hkeep : ∀ id, l.Published id → links.Published id) : Structured rows links where
  jobs job hjob := (hjobs job hjob).elim (fun hold => hkeep _ (h.jobs job hold)) fun hnew => hnew
  stages id c hrow hstage := hkeep id (h.stages id c hrow hstage)

theorem MarketStep.structured (h : MarketStep w op links) (hs : Structured w.row w.links) :
    Structured w.row links := by
  have hkeep : ∀ id, w.links.Published id → links.Published id := fun _ => (TableStep.outside h).published
  refine hs.relink (fun job hjob => ?_) hkeep
  cases h with
  | @publish _ o _ _ row piv hrow _ _ hpiv =>
    refine (mem_append.mp hjob).imp_right fun hnew => ?_
    obtain ⟨ho, hid⟩ := Table.find_some hrow
    obtain ⟨hp, hpid⟩ := Table.find_some hpiv
    rw [mem_singleton.mp hnew]
    refine ⟨_, List.mem_map_of_mem ho, ?_, piv, hp, ?_, rfl⟩
    · rw [if_pos hid]
      nofun
    · rw [if_pos hid]
      exact hpid
  | _ => exact .inl hjob

theorem TableStep.structured (h : TableStep w op rows revisions requests links) (hs : Structured w.row w.links) :
    Structured rows links := by
  cases h with
  | outside h => exact h.structured hs
  | draft | staff | submit | publish | expire | withdraw | resubmit | reject => exact hs.update nofun
  | approve =>
    refine .update (hs.relink ?_ ?_) nofun
    · exact fun _ hjob => .inl hjob
    · exact fun _ hp => hp
  | @close _ input =>
    have hclosed : input.outcome.stage.structuring = false := by cases input.outcome <;> rfl
    exact hs.update fun hstage => absurd hstage (by simp [atStage, hclosed])
  | assign hrow => exact hs.update fun hstage => hs.stages _ _ hrow hstage
  | writeback _ hrow hstage => exact hs.update fun _ => hs.stages _ _ hrow (by simp [hstage, Stage.structuring])
  | handoff hjob => exact hs.update fun _ => hs.jobs _ hjob
  | @execute _ input operation c _ _ hoperation hrow hstage hcommand hsnapshot haction =>
    have hjobs : (operation.command.links w input.caseId).structuringJobs = w.links.structuringJobs := by
      unfold ReversalCommand.links
      split <;> rfl
    have hkeep : ∀ id, w.links.Published id → (operation.command.links w input.caseId).Published id := fun _ =>
      TableStep.published (show TableStep w (.executeReversalOperation id input) _ _ _ _ from
        .execute hoperation hrow hstage hcommand hsnapshot haction)
    refine .update (hs.relink (fun job hjob => .inl (hjobs ▸ hjob)) hkeep) fun hstructuring => hkeep _ ?_
    refine hs.stages _ _ hrow ?_
    cases hop : operation.command <;> simp_all [ReversalCommand.apply, ReversalCommand.source, Stage.structuring]

end Published

/-- An approved case that has not been closed or sent back. -/
def Stage.live (s : Stage) : Bool := s ∈ [.preOfferingOpen, .postIpoStructuring, .approvedForFinalOffering]

/-- A case that has not been decided on, or has been sent back. -/
def Stage.early (s : Stage) : Bool := s ∈ [.draft, .submitted, .waitingOnApplicant]

theorem Stage.phases (s : Stage) : s.live = true ∨ s.early = true ∨ s ∈ terminalStages := by cases s <;> decide

/-- What a step does to the stages of the cases and to their offerings. -/
inductive StageStep (w : Database) : Operation → (CaseId → Option IntakeCase) → Links → Prop where
  | market {op : Operation} {links : Links} (h : MarketStep w op links) : StageStep w op w.row links
  | enter {op : Operation} {id : CaseId} {c : IntakeCase} (hnew : w.row id = none) (hlive : c.stage.live = false) :
      StageStep w op (update w.row id (some c)) w.links
  | move {op : Operation} {id : CaseId} {c c' : IntakeCase} (hrow : w.row id = some c)
      (hlive : c'.stage.live = c.stage.live) (hearly : c'.stage.early = true → c.stage.early = true) :
      StageStep w op (update w.row id (some c')) w.links
  | close {fresh : Nat → Nat} {input : CloseCaseInput} {c : IntakeCase} (hlive : c.stage.live = false)
      (hearly : c.stage.early = false) :
      StageStep w (.closeCase fresh input) (update w.row input.caseId (some c)) w.links
  | approve {fresh : Nat → Nat} {input : FounderDecisionInput} {ipoEndAt ipoValueEur : Nat} {c c' : IntakeCase}
      (hrow : w.row input.caseId = some c) (hstage : c.stage = .submitted)
      (hdecision : input.decision = .approve ipoEndAt ipoValueEur) (hkeep : c'.propertyId = c.propertyId)
      (happroved : c'.stage = .preOfferingOpen) :
      StageStep w (.recordFounderDecision fresh input) (update w.row input.caseId (some c'))
        { w.links with handoffs := w.handoffs ++ [⟨input.caseId, c.propertyId, ipoValueEur, input.traceId⟩] }
  | reopen {op : Operation} {id : CaseId} {c c' : IntakeCase} {o : OfferingRecord} (hrow : w.row id = some c)
      (hoffering : w.caseOffering id = some o) (hunpublished : o.finalOfferingPublishedAt = none)
      (hkeep : c'.propertyId = c.propertyId) (hreturned : c'.stage = .submitted) :
      StageStep w op (update w.row id (some c')) { w.links with
        offerings := Table.update OfferingRecord.id w.market.offerings o.id fun o => { o with status := .closed } }

theorem when_eq_nil : when condition blocker = [] ↔ condition = false := by
  cases condition <;> simp [when]

theorem unpublished_of_unblocked (h : preOfferingBlockers offering = []) :
    ∃ o, offering = some o ∧ o.finalOfferingPublishedAt = none := by
  cases offering with
  | none => cases h
  | some o =>
    simp only [preOfferingBlockers, append_eq_nil_iff] at h
    exact ⟨o, rfl, by simpa using when_eq_nil.mp h.1.1.2⟩

theorem StageStep.moveTo (hrow : w.row id = some c) (hstage : c.stage = s) (hstage' : c'.stage = s')
    (hlive : s'.live = s.live) (hearly : s'.early = true → s.early = true) :
    StageStep w op (update w.row id (some c')) w.links := by
  subst hstage hstage'
  exact .move hrow hlive hearly

theorem TableStep.stages (h : TableStep w op rows revisions requests links) : StageStep w op rows links := by
  cases h with
  | outside h => exact .market h
  | draft hnew | staff hnew => exact .enter hnew rfl
  | submit hrow hstage | publish hrow hstage | expire hrow hstage | withdraw hrow hstage | resubmit hrow hstage
  | reject hrow hstage => exact .moveTo hrow hstage rfl rfl fun _ => rfl
  | approve hrow hstage hdecision => exact .approve hrow hstage hdecision rfl rfl
  | @close _ input =>
    refine .close ?_ ?_
    · cases h : input.outcome <;> rfl
    · cases h : input.outcome <;> rfl
  | assign hrow => exact .move hrow rfl fun h => h
  | @writeback _ _ _ _ _ _ _ _ _ _ both hkind hrow hstage =>
    cases both with
    | false => cases hkind <;> exact .move hrow rfl fun h => h
    | true => cases hkind <;> exact .moveTo hrow hstage rfl rfl nofun
  | handoff _ hrow hstage => exact .moveTo hrow hstage rfl rfl nofun
  | @execute _ input operation c snapshot action _ hrow hstage hcommand hsnapshot haction =>
    cases hop : operation.command <;> rw [hop] at hstage hcommand haction
    case returnToDraft => exact .moveTo hrow hstage rfl rfl fun _ => rfl
    case withdrawInformationRequest => exact absurd rfl hcommand
    case reopenStructuring => exact .moveTo hrow hstage rfl rfl nofun
    case reopenFinalOfferingReview => exact .moveTo hrow hstage rfl rfl nofun
    case reopenPreOffering =>
      obtain ⟨current, hfind, -⟩ := map_eq_some_iff.mp hrow
      obtain ⟨-, -, -, hblockers⟩ := Reopens.preOffering.offered.mp (isSome_iff_exists.mpr ⟨action, haction⟩)
      obtain ⟨o, hsome, hunpublished⟩ := unpublished_of_unblocked hblockers
      rw [(loadReversalSnapshot_some hsnapshot hfind).2.2.1] at hsome
      obtain ⟨row, hoffering, rfl⟩ := map_eq_some_iff.mp hsome
      simp only [ReversalCommand.links, hoffering]
      exact .reopen hrow hoffering hunpublished rfl rfl

theorem update_some (h : update rows id (some c) id' = some x) :
    id' = id ∧ x = c ∨ id' ≠ id ∧ rows id' = some x := by
  by_cases heq : id' = id
  · rw [heq, update_self] at h
    exact .inl ⟨heq, (some.inj h).symm⟩
  · rw [update_of_ne heq] at h
    exact .inr ⟨heq, h⟩

section Runs

variable {w : Database} {o : OfferingRecord}

theorem Linked.caseOffering (h : Linked properties w.links) (ho : w.Offers o id) : w.caseOffering id = some o := by
  obtain ⟨hmem, p, hp, hid, hcase⟩ := ho
  have hpivs : w.pivs.filter (fun p => p.caseId = id) = [p] := by
    rw [← h.vehicles.filter hp]
    refine filter_congr fun x hx => ?_
    refine decide_eq_decide.mpr ⟨fun hxcase => ?_, fun hproperty => ?_⟩
    · rw [h.vehicle_unique hx hp (hxcase.trans hcase.symm)]
    · rw [h.vehicles.eq_of_key hx hp hproperty]
      exact hcase
  have hofferings : w.market.offerings.filter (fun x => x.pivId = p.id) = [o] := by
    rw [hid]
    exact h.single.filter hmem
  simp only [Database.caseOffering, hpivs, argmax_singleton, bind_some, hofferings]
  rfl

theorem Linked.empty (hempty : w.Empty) : Linked (property w.row) w.links := by
  have hrow : ∀ id, w.row id = none := fun id => row_absent (by simp [hempty.cases])
  have hlinks : w.links = ⟨[], [], [], []⟩ := by
    simp [Database.links, hempty.pivs, hempty.offerings, hempty.handoffs, hempty.structuringJobs]
  rw [hlinks]
  constructor <;> simp [Table.Keyed, property, hrow]

theorem Structured.empty (hempty : w.Empty) : Structured w.row w.links := by
  have hrow : ∀ id, w.row id = none := fun id => row_absent (by simp [hempty.cases])
  refine ⟨fun job hjob => ?_, fun id c hc => ?_⟩
  · rw [Database.links, hempty.structuringJobs] at hjob
    cases hjob
  · cases (hrow id).symm.trans hc

/-- Every operation keeps cases, vehicles and offerings in line. -/
theorem Linked.step (h : Linked (property w.row) w.links) (op : Operation) :
    Linked (property (w.step op).row) (w.step op).links := (caseStep_tables (step_caseStep w op)).linked h

/-- A case enters structuring only when its final terms are published. -/
theorem Structured.step (h : Structured w.row w.links) (op : Operation) :
    Structured (w.step op).row (w.step op).links := (caseStep_tables (step_caseStep w op)).structured h

/-- Runs of the application alone, from the given tables on. -/
abbrev DatabaseRun (w₀ : Database) (allowed : Database → Operation → Prop) : Database → Prop :=
  Run (.alone w₀ Database.step) allowed

theorem DatabaseRun.linked (h : DatabaseRun w₀ allowed w) (hempty : w₀.Empty) : Linked (property w.row) w.links := by
  refine h.invariant (fun w => Linked (property w.row) w.links) ?_ (fun _ op _ _ h => h.step op) nofun
  rintro w rfl
  exact .empty hempty

theorem DatabaseRun.structured (h : DatabaseRun w₀ allowed w) (hempty : w₀.Empty) : Structured w.row w.links := by
  refine h.invariant (fun w => Structured w.row w.links) ?_ (fun _ op _ _ h => h.step op) nofun
  rintro w rfl
  exact .empty hempty

theorem after_run (ops : List Operation) : DatabaseRun w (fun _ _ => True) (w.after ops) :=
  (Run.start rfl).play ops (Guarded.playable_free ops)

/-- However the transactions of both modules and the deliveries of their jobs
follow one another, an offering is of a vehicle, the vehicle of a property and
the property of one case only, and no property is floated twice. -/
theorem no_property_floated_twice (ops : List Operation) : let w := newDatabase.after ops
    (∀ o ∈ w.market.offerings, ∃ p ∈ w.pivs, p.id = o.pivId ∧
      ∀ id, property w.row id = some p.propertyId ↔ id = p.caseId) ∧
    ∀ o ∈ w.market.offerings, ∀ o' ∈ w.market.offerings, ∀ p ∈ w.pivs, ∀ p' ∈ w.pivs,
      p.id = o.pivId → p'.id = o'.pivId → p.propertyId = p'.propertyId → o = o' := by
  intro w
  have hlinked : Linked (property w.row) w.links := (after_run ops).linked ⟨rfl, rfl, rfl, rfl, rfl⟩
  refine ⟨fun o ho => ?_, fun o ho o' ho' p hp p' hp' hid hid' hproperty => ?_⟩
  · obtain ⟨p, hp, hid⟩ := hlinked.issued o ho
    refine ⟨p, hp, hid, fun id => ⟨fun hrow => ?_, fun heq => heq ▸ hlinked.owned p hp⟩⟩
    exact hlinked.own id p.caseId p.propertyId hrow (hlinked.owned p hp)
  · obtain rfl := hlinked.vehicles.eq_of_key hp hp' hproperty
    exact hlinked.single.eq_of_key ho ho' (hid.symm.trans hid')

end Runs

end Intake
