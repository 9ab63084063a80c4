import VistaBlox.IntakeSystem

/-!
# The offerings of the cases
-/
namespace Intake

open Offering (AccountId OfferingId PivId OfferingRecord OfferingStatus)

/-- The tables of the intake are as they were. -/
structure SameIntake (w w' : Database) : Prop where
  cases : w'.cases = w.cases
  revisions : w'.revisions = w.revisions
  informationRequests : w'.informationRequests = w.informationRequests
  events : w'.events = w.events
  operations : w'.operations = w.operations

theorem SameIntake.refl (w : Database) : SameIntake w w := ⟨rfl, rfl, rfl, rfl, rfl⟩

structure Links where
  pivs : List Piv
  offerings : List OfferingRecord
  handoffs : List HandoffJob
  structuringJobs : List StructuringJob

def Database.links (w : Database) : Links := ⟨w.pivs, w.market.offerings, w.handoffs, w.structuringJobs⟩

/-- What a transaction of the offering module, or a handoff to it, does to the offerings of the cases. -/
inductive MarketStep (w : Database) : Operation → Links → Prop where
  | same : MarketStep w op w.links
  | offer {fresh : Nat → Nat} {job : HandoffJob} {openEscrowCampaign : Bool} {c : IntakeCase} (hjob : job ∈ w.handoffs)
      (hfind : w.intakeCase job.caseId = some c) (hnew : ∀ p ∈ w.pivs, p.propertyId ≠ job.propertyId)
      (hpiv : ∀ p ∈ w.pivs, p.id ≠ fresh 0) (hoffering : ∀ o ∈ w.market.offerings, o.id ≠ fresh 1) :
      MarketStep w (.preOfferingOpenHandoff fresh job openEscrowCampaign) { w.links with
        pivs := w.pivs ++ [⟨fresh 0, job.propertyId, job.caseId⟩]
        offerings := w.market.offerings ++ [newOffering (fresh 1) (fresh 0) job.ipoValueEur] }
  | refloat {fresh : Nat → Nat} {job : HandoffJob} (hjob : job ∈ w.handoffs) (hpiv : piv ∈ w.pivs)
      (hproperty : piv.propertyId = job.propertyId) (hnone : ∀ o ∈ w.market.offerings, o.pivId ≠ piv.id)
      (hoffering : ∀ o ∈ w.market.offerings, o.id ≠ fresh 1) :
      MarketStep w (.preOfferingOpenHandoff fresh job openEscrowCampaign) { w.links with
        offerings := w.market.offerings ++ [newOffering (fresh 1) piv.id job.ipoValueEur] }
  | publish {fresh : Nat → Nat} {o : OfferingId} {publishedAt : Nat} {traceId : TraceId} {row : OfferingRecord}
      {piv : Piv}
      (hrow : w.market.offering o = some row) (hopen : row.status = .preOffering)
      (hunpublished : row.finalOfferingPublishedAt = none) (hpiv : Table.find Piv.id w.pivs row.pivId = some piv) :
      MarketStep w (.publishFinalOfferingTerms fresh o publishedAt traceId) { w.links with
        offerings := Table.update OfferingRecord.id w.market.offerings o (OfferingRecord.publish publishedAt)
        structuringJobs := w.structuringJobs ++ [⟨piv.caseId, traceId⟩] }
  | reset {input : Offering.ClassifyMaterialityInput} :
      MarketStep w (.classifyMateriality input) { w.links with
        offerings := Table.update OfferingRecord.id w.market.offerings input.offeringId
          (OfferingRecord.moveWindow input.classifiedAt) }
  | finalize {fresh : Nat → Nat} {o : OfferingId} {finalizedAt : Nat} {row : OfferingRecord}
      (hrow : w.market.offering o = some row) (hopen : row.status = .preOffering)
      (hpublished : row.finalOfferingPublishedAt ≠ none) :
      MarketStep w (.commitOfferingFinalization fresh o finalizedAt) { w.links with
        offerings := Table.update OfferingRecord.id w.market.offerings o fun row => { row with
          status := .finalOffering } }

section Offerings

variable {w w' : Database} {fresh : Nat → Nat}

theorem createOffering_ok {id : OfferingId} {pivId : PivId} {target : Nat}
    (h : createOffering id pivId target w = .ok w') :
    (∀ o ∈ w.market.offerings, o.id ≠ id) ∧ w' = { w with market := { w.market with
      offerings := w.market.offerings ++ [newOffering id pivId target] } } := by
  unfold createOffering at h
  split_ifs at h with hfind
  cases h
  exact ⟨Table.find_none (by simpa [Offering.Database.offering] using hfind), rfl⟩

theorem openOfferingForApprovedCase_market (hjob : job ∈ w.handoffs)
    (h : openOfferingForApprovedCase fresh job openEscrowCampaign w = .ok (r, w')) :
    SameIntake w w' ∧ MarketStep w (.preOfferingOpenHandoff fresh job openEscrowCampaign) w'.links := by
  unfold openOfferingForApprovedCase at h
  split at h
  · rename_i piv hpiv
    obtain ⟨hmem, hproperty⟩ := Table.find_some hpiv
    split at h
    · cases h
      exact ⟨.refl w, .same⟩
    · rename_i hnone
      obtain ⟨w₁, hcreate, h⟩ := bind_ok h
      cases h
      obtain ⟨hoffering, rfl⟩ := createOffering_ok hcreate
      exact ⟨⟨rfl, rfl, rfl, rfl, rfl⟩, .refloat hjob hmem hproperty (by simpa using hnone) hoffering⟩
  · rename_i hnew
    split at h
    · cases h
    · rename_i c hfind
      obtain ⟨_, _, h⟩ := bind_ok h
      obtain ⟨_, hpiv, h⟩ := bind_ok h
      obtain ⟨w₁, hcreate, h⟩ := bind_ok h
      cases h
      obtain ⟨hoffering, rfl⟩ := createOffering_ok hcreate
      exact ⟨⟨rfl, rfl, rfl, rfl, rfl⟩,
        .offer hjob hfind (Table.find_none hnew) (by simpa using throwIf_ok hpiv) hoffering⟩

theorem createReservation_offerings (input : Offering.CreateReservationInput) (w : Offering.Database) :
    (Offering.createReservation fresh input w).2.offerings = w.offerings := by
  unfold Offering.createReservation
  split
  · rfl
  · split
    · rfl
    · split
      · rfl
      · split_ifs <;> rfl

theorem recordMoneyEvent_offerings (input : Offering.MoneyEventInput) (w : Offering.Database) :
    (Offering.recordMoneyEvent fresh input w).2.offerings = w.offerings := by
  unfold Offering.recordMoneyEvent
  split_ifs <;> rfl

theorem expireReservation_offerings (id : Offering.ReservationId) (w : Offering.Database) :
    (Offering.expireReservation id w).2.offerings = w.offerings := by
  unfold Offering.expireReservation
  split
  · rfl
  · split_ifs <;> rfl

theorem reconfirmReservation_offerings (id : Offering.ReservationId) (accountId : AccountId) (reconfirmedAt : Nat)
    (w : Offering.Database) :
    (Offering.reconfirmReservation id accountId reconfirmedAt w).2.offerings = w.offerings := by
  unfold Offering.reconfirmReservation
  split
  · rfl
  · split_ifs <;> rfl

theorem publishDisclosurePack_offerings (o : OfferingId) (documents : List Offering.DisclosureDocumentType)
    (publishedAt : Nat) (w : Offering.Database) :
    (Offering.publishDisclosurePack o documents publishedAt w).2.offerings = w.offerings := by
  unfold Offering.publishDisclosurePack
  split
  · rfl
  · split_ifs <;> rfl

theorem publishFinalOfferingTerms_ok {o : OfferingId} {publishedAt : Nat} {w market : Offering.Database}
    {terms : Offering.PublishedTerms}
    (h : Offering.publishFinalOfferingTerms fresh o publishedAt w = (.ok terms, market)) :
    ∃ row, w.offering o = some row ∧ row.status = .preOffering ∧ row.finalOfferingPublishedAt = none ∧
      market.offerings = w.offerings.map fun x => if x.id = o then x.publish publishedAt else x := by
  unfold Offering.publishFinalOfferingTerms at h
  split at h
  · cases h
  · rename_i row hfind
    split_ifs at h with hstatus hpublished hgate hpack
    · cases h
    · cases h
    · cases h
    · cases h
    · cases h
      exact ⟨row, hfind, not_not.mp hstatus, by simpa using hpublished, congrArg
        (Table.update OfferingRecord.id · o (OfferingRecord.publish publishedAt))
        (Offering.publishLoop_offerings fresh publishedAt o w)⟩

theorem publishFinalOfferingTerms_market (o : OfferingId) (publishedAt : Nat) (traceId : TraceId) :
    SameIntake w (publishFinalOfferingTerms fresh o publishedAt traceId w).2 ∧
      MarketStep w (.publishFinalOfferingTerms fresh o publishedAt traceId)
        (publishFinalOfferingTerms fresh o publishedAt traceId w).2.links := by
  unfold publishFinalOfferingTerms
  split
  · exact ⟨.refl w, .same⟩
  · rename_i caseId hcase
    split
    · exact ⟨.refl w, .same⟩
    · rename_i terms market hpublish
      obtain ⟨row, hfind, hopen, hunpublished, hoff⟩ := publishFinalOfferingTerms_ok hpublish
      simp only [Database.caseOf, hfind, Option.bind_some, Option.map_eq_some_iff] at hcase
      obtain ⟨piv, hpiv, rfl⟩ := hcase
      refine ⟨⟨rfl, rfl, rfl, rfl, rfl⟩, ?_⟩
      simp only [Database.links, hoff]
      exact .publish hfind hopen hunpublished hpiv

theorem MarketStep.within (h : market.offerings = rows) (hstep : MarketStep w op { w.links with offerings := rows }) :
    MarketStep w op ({ w with market := market } : Database).links := by
  subst h
  exact hstep

theorem classifyMateriality_market (input : Offering.ClassifyMaterialityInput) :
    MarketStep w (.classifyMateriality input)
      ({ w with market := (Offering.classifyMateriality input w.market).2 } : Database).links := by
  unfold Offering.classifyMateriality
  split
  · exact .same
  · split
    · exact .same
    · cases Offering.materialityResetTriggered input.classification with
      | false => exact .within rfl .same
      | true => exact .within (Offering.resetReconfirmations_offerings input.classifiedAt) .reset

theorem commitOfferingFinalization_market (o : OfferingId) (finalizedAt : Nat) :
    MarketStep w (.commitOfferingFinalization fresh o finalizedAt)
      ({ w with market := (Offering.commitOfferingFinalization fresh o finalizedAt w.market).2 } :
        Database).links := by
  unfold Offering.commitOfferingFinalization
  split
  · exact .same
  · rename_i offering hfind
    split_ifs with hstate hwindow
    · exact .same
    · exact .same
    · obtain ⟨hopen, hpublished⟩ := not_or.mp hstate
      have hoff := congrArg (Table.update OfferingRecord.id · o fun row => { row with status := .finalOffering })
        (Offering.afterCommit_offerings fresh offering.pivId o finalizedAt w.market)
      exact .within hoff (.finalize hfind (not_not.mp hopen) hpublished)

end Offerings

end Intake
