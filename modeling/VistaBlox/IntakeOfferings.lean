import VistaBlox.IntakeLinks

/-!
# Closed cases and their offerings

An offering that is not closed belongs to a live case, as long as no case is closed over an
open offering and no handoff is delivered for a case closed in between.
-/
namespace Intake

open List Option

open Guarded (Run)
open Offering (AccountId OfferingId PivId OfferingRecord OfferingStatus)

/-- A case is closed after its offering, and an approval is handed off before its case is closed. -/
def Timely (w : Database) : Operation → Prop
  | .closeCase _ input => ∀ o ∈ w.market.offerings, w.Offers o input.caseId → o.status = .closed
  | .preOfferingOpenHandoff _ job _ =>
    (∃ p ∈ w.pivs, p.propertyId = job.propertyId) ∨ ∀ c ∈ w.intakeCase job.caseId, c.stage ∉ terminalStages
  | _ => True

variable {c : IntakeCase}

section Closing

/-- An open offering belongs to a live case; a queued handoff has done its work or belongs
to a case that is live or closed; a queued structuring job belongs to an open offering
whose terms are published. -/
structure Closing (rows : CaseId → Option IntakeCase) (l : Links) : Prop where
  live : ∀ o id c, l.Offers o id → rows id = some c → o.status ≠ .closed → c.stage.live = true
  handoffs : ∀ id c, rows id = some c → c.stage.early = true → ∀ job ∈ l.handoffs, job.caseId = id →
    ∃ p ∈ l.pivs, p.caseId = id
  structuring : ∀ job ∈ l.structuringJobs, ∃ o, l.Offers o job.caseId ∧ o.status ≠ .closed ∧
    o.finalOfferingPublishedAt ≠ none

variable {w w₀ : Database} {op : Operation} {rows : CaseId → Option IntakeCase} {l links : Links} {id : CaseId}
  {o : OfferingRecord}

theorem Closing.update (h : Closing rows l) (hlive : ∀ o, l.Offers o id → o.status ≠ .closed → c.stage.live = true)
    (hearly : c.stage.early = true → ∀ job ∈ l.handoffs, job.caseId = id → ∃ p ∈ l.pivs, p.caseId = id) :
    Closing (Function.update rows id (some c)) l := by
  refine ⟨fun o id' x ho hx hopen => ?_, fun id' x hx hstage => ?_, h.structuring⟩
  · rcases update_some hx with ⟨rfl, rfl⟩ | ⟨-, hx⟩
    · exact hlive o ho hopen
    · exact h.live o id' x ho hx hopen
  · rcases update_some hx with ⟨rfl, rfl⟩ | ⟨-, hx⟩
    · exact hearly hstage
    · exact h.handoffs id' x hx hstage

theorem Closing.revise (h : Closing rows l) (hpiv : ∀ x, (f x).pivId = x.pivId)
    (hf : ∀ x ∈ l.offerings, x.id = offeringId → ((f x).status = .closed ↔ x.status = .closed) ∧
      (x.finalOfferingPublishedAt ≠ none → (f x).finalOfferingPublishedAt ≠ none)) :
    Closing rows { l with offerings := Table.update OfferingRecord.id l.offerings offeringId f } := by
  have hkeep : ∀ x ∈ l.offerings, ((if x.id = offeringId then f x else x).status = .closed ↔ x.status = .closed) ∧
      (x.finalOfferingPublishedAt ≠ none →
        (if x.id = offeringId then f x else x).finalOfferingPublishedAt ≠ none) := by
    intro x hx
    split
    · rename_i hid
      exact hf x hx hid
    · exact ⟨Iff.rfl, fun hp => hp⟩
  refine ⟨fun y id c hy hrow hopen => ?_, h.handoffs, fun job hjob => ?_⟩
  · obtain ⟨x, hx, rfl⟩ := Links.offers_update hy hpiv
    exact h.live x id c hx hrow fun hclosed => hopen ((hkeep x hx.1).1.mpr hclosed)
  · obtain ⟨x, hx, hopen, hpublished⟩ := h.structuring job hjob
    obtain ⟨hmem, p, hp, hid, hcase⟩ := hx
    refine ⟨_, ⟨List.mem_map_of_mem hmem, p, hp, ?_, hcase⟩, fun hc => hopen ((hkeep x hmem).1.mp hc),
      (hkeep x hmem).2 hpublished⟩
    split
    · exact hid.trans (hpiv x).symm
    · exact hid

theorem Closing.market (h : Closing w.row w.links) (hl : Linked (property w.row) w.links)
    (hstep : MarketStep w op links) (htimely : Timely w op) : Closing w.row links := by
  have hsame : ∀ {offeringId row x}, w.market.offering offeringId = some row → x ∈ w.links.offerings →
      x.id = offeringId → x = row := fun hrow hx hxid =>
    hl.offerings.eq_of_key hx (Table.find_some hrow).1 (hxid.trans (Table.find_some hrow).2.symm)
  cases hstep with
  | same => exact h
  | refloat _ hpiv _ hnone =>
    obtain ⟨o, ho, hid⟩ := hl.floated _ hpiv
    exact absurd hid (hnone o ho)
  | @offer _ job _ current hjob hfind hnew hpiv hoffering =>
    have hopen : current.stage ∉ terminalStages :=
      htimely.elim (fun hold => hold.elim fun p hp => absurd hp.2 (hnew p hp.1)) fun hcase => hcase current hfind
    have hrow := row_some hfind
    have hproperty := hl.handoffs job hjob
    rw [property, hrow] at hproperty
    refine ⟨fun o id c ho hc hstatus => ?_, fun id c hc hstage job' hjob' hcase => ?_, fun job' hjob' => ?_⟩
    · rcases hl.offers_offer (v := ⟨_, job.propertyId, job.caseId⟩) hpiv rfl ho with hold | ⟨-, rfl⟩
      · exact h.live o id c hold hc hstatus
      · rw [← some.inj (hrow.symm.trans hc)]
        refine current.stage.phases.resolve_right (not_or.mpr ⟨fun hearly => ?_, hopen⟩)
        obtain ⟨p, hp, hpcase⟩ := h.handoffs job.caseId _ hrow hearly job hjob rfl
        exact hnew p hp ((hl.vehicle_property hrow hp hpcase).trans (some.inj hproperty))
    · obtain ⟨p, hp, hpcase⟩ := h.handoffs id c hc hstage job' hjob' hcase
      exact ⟨p, mem_append_left _ hp, hpcase⟩
    · obtain ⟨o, ⟨ho, p, hp, hid⟩, hrest⟩ := h.structuring job' hjob'
      exact ⟨o, ⟨mem_append_left _ ho, p, mem_append_left _ hp, hid⟩, hrest⟩
  | @publish _ o publishedAt _ row piv hrow hopen _ hpiv =>
    obtain ⟨hmem, hid⟩ := Table.find_some hrow
    obtain ⟨hp, hpid⟩ := Table.find_some hpiv
    have hrevised : Closing w.row { w.links with
        offerings := Table.update OfferingRecord.id w.links.offerings o (OfferingRecord.publish publishedAt) } :=
      h.revise (fun _ => rfl) fun _ _ _ => ⟨Iff.rfl, fun _ => some_ne_none _⟩
    refine ⟨hrevised.live, hrevised.handoffs, fun job hjob => ?_⟩
    rcases mem_append.mp hjob with hold | hlast
    · exact hrevised.structuring job hold
    · rw [mem_singleton.mp hlast]
      refine ⟨_, ⟨List.mem_map_of_mem hmem, piv, hp, ?_, rfl⟩, ?_, ?_⟩
      · rw [if_pos hid]
        exact hpid
      · rw [if_pos hid]
        rw [OfferingRecord.publish, hopen]
        rintro ⟨⟩
      · rw [if_pos hid]
        exact some_ne_none _
  | reset => exact h.revise (fun _ => rfl) fun _ _ _ => ⟨Iff.rfl, fun hp => hp⟩
  | finalize hrow hopen =>
    refine h.revise (fun _ => rfl) fun x hx hid => ⟨?_, fun hp => hp⟩
    rw [hsame hrow hx hid, hopen]
    constructor <;> rintro ⟨⟩

theorem Closing.reopen (h : Closing rows l) (hl : Linked (property rows) l) (ho : l.Offers o id)
    (hunpublished : o.finalOfferingPublishedAt = none) :
    Closing (Function.update rows id (some c)) { l with
      offerings := Table.update OfferingRecord.id l.offerings o.id fun o => { o with status := .closed } } := by
  refine ⟨fun y id' x hy hx hopen => ?_, fun id' x hx hstage job hjob hcase => ?_, fun job hjob => ?_⟩
  · obtain ⟨z, hz, rfl⟩ := Links.offers_update hy fun _ => rfl
    by_cases hzo : z.id = o.id
    · rw [if_pos hzo] at hopen
      exact absurd rfl hopen
    · rcases update_some hx with ⟨rfl, -⟩ | ⟨-, hx⟩
      · exact absurd (congrArg OfferingRecord.id (hl.offers_unique hz ho)) hzo
      · rw [if_neg hzo] at hopen
        exact h.live z id' x hz hx hopen
  · rcases update_some hx with ⟨rfl, -⟩ | ⟨-, hx⟩
    · obtain ⟨-, p, hp, -, hpcase⟩ := ho
      exact ⟨p, hp, hpcase⟩
    · exact h.handoffs id' x hx hstage job hjob hcase
  · obtain ⟨x, hx, hopen, hpublished⟩ := h.structuring job hjob
    have hxo : x.id ≠ o.id := fun hid => hpublished (hl.offerings.eq_of_key hx.1 ho.1 hid ▸ hunpublished)
    obtain ⟨hmem, hpiv⟩ := hx
    refine ⟨x, ⟨List.mem_map.mpr ⟨x, hmem, if_neg hxo⟩, hpiv⟩, hopen, hpublished⟩

/-- A timely operation leaves no open offering to a closed case. -/
theorem Closing.step (h : Closing w.row w.links) (hl : Linked (property w.row) w.links) (htimely : Timely w op) :
    Closing (w.step op).row (w.step op).links := by
  have hstages := (caseStep_tables (step_caseStep w op)).stages
  generalize (w.step op).row = rows at hstages
  generalize (w.step op).links = links at hstages
  cases hstages with
  | market hstep => exact h.market hl hstep htimely
  | @enter _ _ _ hnew hlive =>
    have hnone : ∀ {o}, ¬ w.links.Offers o _ := fun ho => by
      obtain ⟨c, hc⟩ := hl.offers_case ho
      cases hnew.symm.trans hc
    refine h.update (fun o ho _ => absurd ho hnone) fun _ job hjob hcase => ?_
    obtain ⟨c, hc, -⟩ := map_eq_some_iff.mp (hl.handoffs job hjob)
    subst hcase
    cases hnew.symm.trans hc
  | move hrow hlive hearly =>
    exact h.update (fun o ho hopen => hlive.trans (h.live o _ _ ho hrow hopen)) fun hstage =>
      h.handoffs _ _ hrow (hearly hstage)
  | close hlive hearly =>
    exact h.update (fun o ho hopen => absurd (htimely o ho.1 ho) hopen) fun hstage =>
      absurd hstage (by simp [hearly])
  | approve _ _ _ _ happroved =>
    refine ⟨fun o id x ho hx hopen => ?_, fun id x hx hearly job hjob hcase => ?_, h.structuring⟩
    · rcases update_some hx with ⟨-, rfl⟩ | ⟨-, hx⟩
      · rw [happroved]
        rfl
      · exact h.live o id x ho hx hopen
    · rcases update_some hx with ⟨-, rfl⟩ | ⟨hne, hx⟩
      · rw [happroved] at hearly
        cases hearly
      · refine h.handoffs id x hx hearly job ((mem_append.mp hjob).resolve_right fun hlast => ?_) hcase
        rw [mem_singleton.mp hlast] at hcase
        exact hne hcase.symm
  | reopen _ hoffering hunpublished =>
    exact h.reopen hl (offers_caseOffering hoffering) hunpublished

/-- Timely steps keep open offerings with live cases. -/
theorem closing_of_timely (hempty : w₀.Empty) (h : DatabaseRun w₀ Timely w) : Closing w.row w.links := by
  refine h.invariant (fun w => Closing w.row w.links) ?_
    (fun w op hrun htimely ih => ih.step (DatabaseRun.linked hrun hempty) htimely) nofun
  rintro w rfl
  have hrow : ∀ id, w.row id = none := fun id => row_absent (by simp [hempty.cases])
  constructor <;> simp [hrow, Database.links, hempty.structuringJobs]

end Closing

section Keys

variable {w w' w₀ : Database} {op : Operation}

def Database.caseIds (w : Database) : List CaseId := w.cases.map IntakeCase.id

theorem caseIds_setCase (w : Database) (id : CaseId) (hf : ∀ c, (f c).id = c.id) :
    (w.setCase id f).caseIds = w.caseIds := by
  simp only [Database.caseIds, Database.setCase, Table.update, List.map_map]
  refine map_congr_left fun c _ => ?_
  change (if c.id = id then f c else c).id = c.id
  split
  · exact hf c
  · rfl

theorem Appends.caseIds (h : Appends eventId input w w') : w'.caseIds = w.caseIds := by
  cases h with
  | known => rfl
  | new => exact caseIds_setCase w input.caseId fun _ => rfl

theorem caseStep_caseIds (h : CaseStep w op w') :
    w'.caseIds = w.caseIds ∨ ∃ id, id ∉ w.caseIds ∧ w'.caseIds = w.caseIds ++ [id] := by
  have hfresh : ∀ {id p}, (∀ c ∈ w.cases, c.id ≠ id ∧ c.propertyId ≠ p) → id ∉ w.caseIds := by
    intro id p hnew hmem
    obtain ⟨c, hc, rfl⟩ := List.mem_map.mp hmem
    exact (hnew c hc).1 rfl
  have hset : ∀ {w₁ : Database} {id f} {eventId : EventId} {input} (_ : Appends eventId input w₁ w')
      (_ : w₁.cases = (w.setCase id f).cases) (_ : ∀ c : IntakeCase, (f c).id = c.id),
      w'.caseIds = w.caseIds ∨ ∃ id, id ∉ w.caseIds ∧ w'.caseIds = w.caseIds ++ [id] :=
    fun happend hcases hf => .inl (happend.caseIds.trans ((congrArg _ hcases).trans (caseIds_setCase w _ hf)))
  cases h with
  | outside h => exact .inl (congrArg (List.map IntakeCase.id) h.cases)
  | draft hnew happend =>
    refine .inr ⟨_, hfresh hnew, happend.caseIds.trans ?_⟩
    simp [Database.caseIds, Database.withCase, newCase]
  | @staff fresh _ applicant _ w₁ _ hnew _ hcreated happend =>
    refine .inr ⟨fresh 1, hfresh hnew, happend.caseIds.trans (hcreated.caseIds.trans ?_)⟩
    refine (caseIds_setCase (w.withCase (newCase (fresh 1) (fresh 0) applicant)) (fresh 1)
      (f := submittedWith (fresh 2))
      fun _ => rfl).trans ?_
    simp [Database.caseIds, Database.withCase, newCase]
  | submit _ _ _ _ _ happend | publish _ _ _ _ _ happend | expire _ _ happend | withdraw _ _ happend
  | resubmit _ _ _ _ _ happend | reject _ _ _ happend | close _ _ happend | assign _ _ happend
  | handoff _ _ _ happend => exact hset happend rfl fun _ => rfl
  | approve _ _ _ _ happend hqueued =>
    exact .inl (hqueued.caseIds.trans (happend.caseIds.trans (caseIds_setCase w _ fun _ => rfl)))
  | @writeback _ _ _ _ _ _ _ _ _ _ both _ hkind _ _ _ _ happend =>
    refine hset happend rfl fun c => ?_
    cases both <;> cases hkind <;> rfl
  | request _ _ _ _ _ happend => exact .inl happend.caseIds
  | claim => exact .inl rfl
  | fail => exact .inl rfl
  | @execute _ _ operation _ _ _ _ _ _ _ _ _ _ _ _ hexecute happend =>
    obtain ⟨-, hcases, -⟩ := executeCommand_some hexecute
    exact .inl (happend.caseIds.trans ((congrArg _ hcases).trans
      (caseIds_setCase w _ fun c => (operation.command.apply_keeps c).1)))

theorem DatabaseRun.keyed (h : DatabaseRun w₀ allowed w) (hempty : w₀.Empty) : Table.Keyed IntakeCase.id w.cases := by
  refine h.invariant (fun w => w.caseIds.Nodup) ?_ (fun w op _ _ ih => ?_) nofun
  · rintro w rfl
    simp [Database.caseIds, hempty.cases]
  · change (w.step op).caseIds.Nodup
    rcases caseStep_caseIds (step_caseStep w op) with hsame | ⟨id, hnew, hadd⟩
    · rw [hsame]
      exact ih
    · rw [hadd]
      exact nodup_append.mpr ⟨ih, by simp, by simpa using fun x hx (heq : x = id) => hnew (heq ▸ hx)⟩

end Keys

section ClosedCases

/-- A closed case has no live offering: it takes no reservation, its terms are
not published, and no structuring job finds it. -/
structure Consistent (w : Database) : Prop where
  offering : ∀ c ∈ w.cases, c.stage ∈ terminalStages → ∀ o, w.Offers o c.id → o.status ≠ .preOffering
  reservation : ∀ fresh input id createdAt,
    (Offering.createReservation fresh input w.market).1 = .ok (.created id createdAt) →
      ∃ c ∈ w.cases, w.caseOf input.offeringId = some c.id ∧ c.stage ∉ terminalStages
  publication : ∀ fresh o publishedAt traceId terms,
    (publishFinalOfferingTerms fresh o publishedAt traceId w).1 = .ok terms →
      ∃ c ∈ w.cases, w.caseOf o = some c.id ∧ c.stage ∉ terminalStages
  structuring : ∀ job ∈ w.structuringJobs, ∃ c, w.intakeCase job.caseId = some c ∧
    c.stage ∈ [Stage.preOfferingOpen, .postIpoStructuring, .approvedForFinalOffering]

variable {w w₀ : Database}

theorem Stage.not_terminal_of_live (h : s.live = true) : s ∉ terminalStages := by
  cases s <;> revert h <;> decide

theorem createReservation_created {fresh : Nat → Nat} {input : Offering.CreateReservationInput} {id createdAt : Nat}
    {w : Offering.Database} (h : (Offering.createReservation fresh input w).1 = .ok (.created id createdAt)) :
    ∃ o, w.offering input.offeringId = some o ∧ o.status = .preOffering := by
  unfold Offering.createReservation at h
  split at h
  · cases h
  · rename_i o hfind
    split at h
    · cases h
    · rename_i hstatus
      exact ⟨o, hfind, not_not.mp hstatus⟩

theorem caseOf_live (hl : Linked (property w.row) w.links) (h : Closing w.row w.links) {id : OfferingId}
    {o : OfferingRecord} (hfind : w.market.offering id = some o) (hopen : o.status = .preOffering) :
    ∃ c ∈ w.cases, w.caseOf id = some c.id ∧ c.stage ∉ terminalStages := by
  obtain ⟨hmem, -⟩ := Table.find_some hfind
  obtain ⟨p, hp, hpo⟩ := hl.issued o hmem
  have hoffers : w.links.Offers o p.caseId := ⟨hmem, p, hp, hpo, rfl⟩
  obtain ⟨_, hrow⟩ := hl.offers_case hoffers
  obtain ⟨c, hc, rfl⟩ := map_eq_some_iff.mp hrow
  have hlive := h.live o p.caseId (uncounted c) hoffers hrow (by simp [hopen])
  obtain ⟨hcmem, hid⟩ := Table.find_some hc
  have hpiv : Table.find Piv.id w.pivs o.pivId = some p := hpo ▸ hl.pivs.find hp
  exact ⟨c, hcmem, by simp [Database.caseOf, hfind, hpiv, hid], Stage.not_terminal_of_live hlive⟩

theorem consistent_of_closing (hl : Linked (property w.row) w.links) (h : Closing w.row w.links)
    (hkeyed : Table.Keyed IntakeCase.id w.cases) : Consistent w where
  offering c hc hterminal o ho hopen := by
    have hlive := h.live o c.id _ ho (row_some (hkeyed.find hc)) (by simp [hopen])
    exact absurd hterminal (by simp [Stage.not_terminal_of_live (show c.stage.live = true from hlive)])
  reservation fresh input id createdAt h' := by
    obtain ⟨o, hfind, hopen⟩ := createReservation_created h'
    exact caseOf_live hl h hfind hopen
  publication fresh o publishedAt traceId terms h' := by
    unfold publishFinalOfferingTerms at h'
    split at h'
    · cases h'
    · split at h'
      · cases h'
      · rename_i hpublish
        obtain ⟨row, hfind, hopen, _⟩ := publishFinalOfferingTerms_ok hpublish
        exact caseOf_live hl h hfind hopen
  structuring job hjob := by
    obtain ⟨o, ho, hopen, -⟩ := h.structuring job hjob
    obtain ⟨_, hrow⟩ := hl.offers_case ho
    obtain ⟨c, hc, rfl⟩ := map_eq_some_iff.mp hrow
    exact ⟨c, hc, of_decide_eq_true (h.live o job.caseId (uncounted c) ho hrow hopen)⟩

/-- In every run that closes a case only after its offering and hands an approval
off before its case is closed, a closed case has no live offering. -/
theorem closed_case_has_no_live_offering (hempty : w₀.Empty) (h : DatabaseRun w₀ Timely w) : Consistent w :=
  consistent_of_closing (h.linked hempty) (closing_of_timely hempty h) (h.keyed hempty)

instance (w : Database) (o : OfferingRecord) (caseId : CaseId) : Decidable (w.Offers o caseId) :=
  inferInstanceAs (Decidable (_ ∧ _))

instance (w : Database) (op : Operation) : Decidable (Timely w op) := by
  unfold Timely
  split <;> infer_instance

def handoff : Operation := .preOfferingOpenHandoff (40 + ·) ⟨21, 20, 500, 7⟩ true

def withdrawal : Operation := .closeCase (50 + ·) ⟨21, 1, .withdrawn, 300⟩

/-- Account 1 asks for the case to be reopened and account 2 approves it. -/
def reopening : List Operation :=
  [.createReversalOperation (60 + ·) ⟨21, .reopenPreOffering, .preOfferingOpen, .submitted, .pendingApproval, 1,
      .preOfferingOpen, 4, none, "key", 250⟩,
    .approveReversalOperation 21 60 2, .executeReversalOperation (70 + ·) ⟨21, 60, 2, 260⟩]

/-- A case sent back to review, which closes its offering, and then withdrawn. -/
theorem closed_case_has_no_live_offering_withdrawn :
    ∃ w, DatabaseRun newDatabase Timely w ∧ w.cases.map IntakeCase.stage = [.withdrawn] ∧
      w.market.offerings.map OfferingRecord.status = [.closed] ∧
      Consistent w := by
  have hempty : newDatabase.Empty := ⟨rfl, rfl, rfl, rfl, rfl⟩
  let ops := approved ++ [handoff] ++ reopening ++ [withdrawal]
  have hrun : DatabaseRun newDatabase Timely (newDatabase.after ops) := by
    refine (Run.start rfl).play ops ?_
    exact ⟨trivial, trivial, by decide, trivial, trivial, trivial, by decide, trivial⟩
  exact ⟨_, hrun, rfl, rfl, closed_case_has_no_live_offering hempty hrun⟩

def reserve : Offering.CreateReservationInput := ⟨80, 41, 9, none, 500, none, 400⟩

/-- The reservation is paid for, and the disclosure pack is complete. -/
def funded : List Operation :=
  [.createReservation (90 + ·) reserve,
    .recordMoneyEvent (91 + ·) ⟨80, .coinbaseCdp, none, .eurcReserved, 500, none, 410⟩,
    .publishDisclosurePack 41 Offering.disclosureDocumentTypes 420]

/-- A case withdrawn while its offering is open keeps a live offering: it takes a
reservation, its terms are published, and the structuring job finds the case
withdrawn. So does a case withdrawn before its handoff is delivered. -/
theorem withdrawn_case_keeps_its_offering :
    (∃ w, newDatabase.after (approved ++ [handoff, withdrawal]) = w ∧ w.cases.map IntakeCase.stage = [.withdrawn] ∧
      (∃ o, w.Offers o 21 ∧ o.status = .preOffering) ∧
      (Offering.createReservation (90 + ·) reserve w.market).1 = .ok (.created 80 400) ∧
      (publishFinalOfferingTerms (95 + ·) 41 430 8 (w.after funded)).1 = .ok ⟨41, 430, 604800430, 1, 0⟩ ∧
      (∃ job ∈ (w.after (funded ++ [.publishFinalOfferingTerms (95 + ·) 41 430 8])).structuringJobs,
        (transitionToPostIpoStructuring (99 + ·) job 440
          (w.after (funded ++ [.publishFinalOfferingTerms (95 + ·) 41 430 8]))).map Prod.fst =
            .error (.notPreOfferingOpen .withdrawn))) ∧
    (∃ w, newDatabase.after (approved ++ [withdrawal, handoff]) = w ∧ w.cases.map IntakeCase.stage = [.withdrawn] ∧
      ∃ o, w.Offers o 21 ∧ o.status = .preOffering) := by
  refine ⟨⟨_, rfl, rfl, ?_, rfl, rfl, ⟨⟨21, 8⟩, ?_, rfl⟩⟩, ⟨_, rfl, rfl, ?_⟩⟩
  · exact ⟨⟨41, 40, 500, .preOffering, none, none, none, 500⟩, by decide, rfl⟩
  · exact mem_singleton.mpr rfl
  · exact ⟨⟨41, 40, 500, .preOffering, none, none, none, 500⟩, by decide, rfl⟩

end ClosedCases

end Intake
