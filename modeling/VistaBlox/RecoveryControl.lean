import VistaBlox.AccountLifecycle
import VistaBlox.Table

/-!
# Two reviewers, one piece of evidence

A recovery case is decided by a second reviewer and moves only forward. But its identity
check can be replaced after the first review, and two openings that overlap leave an account
with two cases.
-/
namespace AccountLifecycle

open Interleaving List Option
open DpopBinding (AccountStatus)

variable {c : RecoveryCase} {caseId : CaseId} {reviewer : AccountId}

section Cases

/-- The statuses a case in this status has been through. -/
def CaseStatus.path : CaseStatus → List CaseStatus
  | .open => [.open]
  | .approved => [.open, .approved]
  | .rejected => [.open, .rejected]
  | .completed => [.open, .approved, .completed]

def CaseStatus.live : CaseStatus → Bool
  | .open | .approved => true
  | .rejected | .completed => false

/-- Every status the case has taken, in order. -/
def history (caseId : CaseId) (w : World) : List CaseStatus :=
  (w.statuses.filter fun p => p.1 = caseId).map Prod.snd

theorem Decision.path (decision : Decision) : decision.caseStatus.path = [.open, decision.caseStatus] := by
  cases decision <;> rfl

variable {cases : List RecoveryCase} {rows : RecoveryCase → Bool} {set : RecoveryCase → RecoveryCase}
  {c₀ c' : RecoveryCase}

theorem rewriteCases_keyed (h : Table.Keyed RecoveryCase.id cases) (hid : ∀ c, (set c).id = c.id) :
    Table.Keyed RecoveryCase.id (rewriteCases rows set cases) := by
  refine h.map fun c _ => ?_
  split
  · exact hid c
  · rfl

theorem mem_rewriteCases (h : Table.Keyed RecoveryCase.id cases) (hfind : cases.find? rows = some c₀)
    (hrows : ∀ c, rows c = true → c.id = c₀.id) :
    c' ∈ rewriteCases rows set cases ↔ c' = set c₀ ∨ (c' ∈ cases ∧ c'.id ≠ c₀.id) := by
  have hmem := mem_of_find?_eq_some hfind
  have hmatch := find?_some hfind
  constructor
  · intro hc'
    obtain ⟨c, hc, rfl⟩ := List.mem_map.mp hc'
    split
    · rename_i hrow
      rw [h.eq_of_key hc hmem (hrows c hrow)]
      exact .inl rfl
    · rename_i hrow
      refine .inr ⟨hc, fun hsame => hrow ?_⟩
      rw [h.eq_of_key hc hmem hsame]
      exact hmatch
  · rintro (rfl | ⟨hc, hne⟩)
    · exact List.mem_map.mpr ⟨c₀, hmem, if_pos hmatch⟩
    · exact List.mem_map.mpr ⟨c', hc, if_neg fun hrow => hne (hrows c' hrow)⟩

theorem isOpen_iff : c.isOpen caseId = true ↔ c.id = caseId ∧ c.status = .open := by
  simp [RecoveryCase.isOpen]

theorem isReviewable_iff : c.isReviewable caseId = true ↔
    (c.id = caseId ∧ c.status = .open) ∧ c.reviewedByPrimary = none ∧ c.freshDiditVerificationRef ≠ none := by
  simp [RecoveryCase.isReviewable, isOpen_iff]

theorem isDecidable_iff :
    c.isDecidable caseId reviewer = true ↔
      (c.id = caseId ∧ c.status = .open) ∧ c.reviewedByPrimary ≠ none ∧ c.reviewedByPrimary ≠ some reviewer := by
  simp [RecoveryCase.isDecidable, isOpen_iff]

theorem isApproved_iff : c.isApproved caseId = true ↔ c.id = caseId ∧ c.status = .approved := by
  simp [RecoveryCase.isApproved]

end Cases

variable {c₀ : RecoveryCase} {rows : RecoveryCase → Bool}

section Invariant

/-- The primary review of this case is on record, made on the reference the case
still has. -/
def Reviewed (c : RecoveryCase) (w : World) : Prop :=
  ∀ p, c.reviewedByPrimary = some p →
    ∃ ref, c.freshDiditVerificationRef = some ref ∧ ⟨c.id, p, some ref⟩ ∈ w.reviews

/-- Two different accounts reviewed and decided, on one reference. -/
def DualControl (c : RecoveryCase) (w : World) : Prop :=
  ∃ primary secondary ref, primary ≠ secondary ∧ ⟨c.id, primary, some ref⟩ ∈ w.reviews ∧
    ⟨c.id, secondary, .approved, some ref⟩ ∈ w.rulings

structure Controlled (w : World) : Prop where
  keyed : Table.Keyed RecoveryCase.id w.cases
  path : ∀ c ∈ w.cases, history c.id w = c.status.path
  unknown : ∀ caseId, (∀ c ∈ w.cases, c.id ≠ caseId) → history caseId w = []
  reviewed : ∀ c ∈ w.cases, Reviewed c w
  approved : ∀ c ∈ w.cases, c.status = .approved ∨ c.status = .completed → DualControl c w
  single : ∀ c ∈ w.cases, ∀ c' ∈ w.cases, c.status.live = true → c'.status.live = true →
    c.accountId = c'.accountId → c = c'
  resting : ∀ a ∈ w.accounts, a.status = .active → ∀ c ∈ w.cases, c.accountId = a.id → c.status.live = false

/-- The reference of an open case is recorded before its first review, and a case
is opened while the account is still active. -/
def evidenceHeld : Guard World Event Op where
  call _ op w := match op with
    | .recordDiditSession caseId _ => ∀ c ∈ w.cases, c.isOpen caseId = true → c.reviewedByPrimary = none
    | .openCase accountId _ => ∃ a ∈ w.accounts, a.id = accountId ∧ a.status = .active
    | _ => True
  env _ _ := True

variable {w w' : World}

/-- A step that leaves the cases and their history alone, and makes no account
active. -/
theorem Controlled.same (h : Controlled w) (hcases : w'.cases = w.cases) (hstatuses : w'.statuses = w.statuses)
    (hreviews : w'.reviews = w.reviews) (hrulings : w'.rulings = w.rulings)
    (haccounts : ∀ a' ∈ w'.accounts, a'.status = .active → ∃ a ∈ w.accounts, a.id = a'.id ∧ a.status = .active) :
    Controlled w' := by
  refine ⟨hcases ▸ h.keyed, ?_, ?_, ?_, ?_, hcases ▸ h.single, fun a' ha' hactive => ?_⟩
  · simpa only [history, hcases, hstatuses] using h.path
  · simpa only [history, hcases, hstatuses] using h.unknown
  · simpa only [Reviewed, hcases, hreviews] using h.reviewed
  · simpa only [DualControl, hcases, hreviews, hrulings] using h.approved
  · obtain ⟨a, ha, hid, hstatus⟩ := haccounts a' ha' hactive
    rw [hcases, ← hid]
    exact h.resting a ha hstatus

theorem Controlled.untouched (h : Controlled w) (hcases : w'.cases = w.cases) (hstatuses : w'.statuses = w.statuses)
    (hreviews : w'.reviews = w.reviews) (hrulings : w'.rulings = w.rulings) (haccounts : w'.accounts = w.accounts) :
    Controlled w' :=
  h.same hcases hstatuses hreviews hrulings fun a' ha' hactive => ⟨a', haccounts ▸ ha', rfl, hactive⟩

theorem openCase_controlled (h : Controlled w) {id : CaseId} (hfresh : ∀ c ∈ w.cases, c.id ≠ id)
    {accountId : AccountId} (hguard : ∃ a ∈ w.accounts, a.id = accountId ∧ a.status = .active) :
    Controlled (openCase id accountId openedAt w).2 := by
  have hidle : ∀ c ∈ w.cases, c.accountId = accountId → c.status.live = false := by
    obtain ⟨a, ha, rfl, hactive⟩ := hguard
    exact h.resting a ha hactive
  have hhistory : ∀ caseId, caseId ≠ id → history caseId (openCase id accountId openedAt w).2 = history caseId w := by
    intro caseId hne
    simp [history, openCase, Ne.symm hne]
  refine ⟨h.keyed.append (by simpa [Table.find] using hfresh), fun c hc => ?_, fun caseId hnone => ?_,
    fun c hc p hp => ?_,
    fun c hc hstatus => ?_, fun c hc c' hc' hlive hlive' hsame => ?_, fun a ha hactive c hc hmine => ?_⟩
  · obtain hc | rfl := Table.mem_add hc
    · rw [hhistory c.id (hfresh c hc)]
      exact h.path c hc
    · have hempty := h.unknown id hfresh
      simp only [history] at hempty
      simp [history, openCase, hempty, CaseStatus.path]
  · rw [hhistory caseId fun hsame => hnone _ (mem_append_right _ (mem_singleton_self _)) hsame.symm]
    exact h.unknown caseId fun c hc => hnone c (mem_append_left _ hc)
  · obtain hc | rfl := Table.mem_add hc
    · exact h.reviewed c hc p hp
    · cases hp
  · obtain hc | rfl := Table.mem_add hc
    · exact h.approved c hc hstatus
    · cases hstatus <;> rename_i hstatus <;> cases hstatus
  · obtain hc | hc := mem_append.mp hc <;> obtain hc' | hc' := mem_append.mp hc'
    · exact h.single c hc c' hc' hlive hlive' hsame
    · rw [mem_singleton.mp hc'] at hsame
      rw [hidle c hc hsame] at hlive
      cases hlive
    · rw [mem_singleton.mp hc] at hsame
      rw [hidle c' hc' hsame.symm] at hlive'
      cases hlive'
    · rw [mem_singleton.mp hc, mem_singleton.mp hc']
  · obtain ⟨a₀, ha₀, rfl⟩ := List.mem_map.mp ha
    split at hactive
    · cases hactive
    · rename_i hother
      rw [if_neg hother] at hmine
      obtain hc | rfl := Table.mem_add hc
      · exact h.resting a₀ ha₀ hactive c hc hmine
      · exact absurd hmine.symm hother

theorem Controlled.rewrite (h : Controlled w) (set : RecoveryCase → RecoveryCase)
    (hfind : w.cases.find? rows = some c₀) (hrows : ∀ c, rows c = true → c.id = c₀.id)
    (hset : ∀ c, (set c).id = c.id ∧ (set c).accountId = c.accountId ∧ (set c).status = c.status)
    (hreviews : ∀ r ∈ w.reviews, r ∈ reviews) (hreviewed : Reviewed (set c₀) { w with reviews }) :
    Controlled { w with cases := rewriteCases rows set w.cases, reviews } := by
  have hmem₀ := mem_of_find?_eq_some hfind
  have hback : ∀ c ∈ rewriteCases rows set w.cases,
      ∃ c₁ ∈ w.cases, c.id = c₁.id ∧ c.accountId = c₁.accountId ∧ c.status = c₁.status := by
    intro c hc
    obtain rfl | ⟨hc, -⟩ := (mem_rewriteCases h.keyed hfind hrows).mp hc
    · exact ⟨c₀, hmem₀, hset c₀⟩
    · exact ⟨c, hc, rfl, rfl, rfl⟩
  have hkeyed : Table.Keyed RecoveryCase.id (rewriteCases rows set w.cases) :=
    rewriteCases_keyed h.keyed fun c => (hset c).1
  refine ⟨hkeyed, fun c hc => ?_, fun caseId hnone => ?_, fun c hc => ?_, fun c hc hstatus => ?_,
    fun c hc c' hc' hlive hlive' hsame => ?_, fun a ha hactive c hc hmine => ?_⟩
  · obtain ⟨c₁, hc₁, hid, -, hstatus⟩ := hback c hc
    rw [hid, hstatus]
    exact h.path c₁ hc₁
  · refine h.unknown caseId fun c hc => ?_
    by_cases hsame : c.id = c₀.id
    · rw [hsame, ← (hset c₀).1]
      exact hnone _ ((mem_rewriteCases h.keyed hfind hrows).mpr (.inl rfl))
    · exact hnone c ((mem_rewriteCases h.keyed hfind hrows).mpr (.inr ⟨hc, hsame⟩))
  · obtain rfl | ⟨hc, -⟩ := (mem_rewriteCases h.keyed hfind hrows).mp hc
    · exact hreviewed
    · intro p hp
      obtain ⟨ref, href, hreview⟩ := h.reviewed c hc p hp
      exact ⟨ref, href, hreviews _ hreview⟩
  · obtain ⟨c₁, hc₁, hid, -, hsame⟩ := hback c hc
    obtain ⟨primary, secondary, ref, hne, hreview, hruling⟩ := h.approved c₁ hc₁ (hsame ▸ hstatus)
    exact ⟨primary, secondary, ref, hne, hid ▸ hreviews _ hreview, hid ▸ hruling⟩
  · obtain ⟨c₁, hc₁, hid, haccount, hstatus⟩ := hback c hc
    obtain ⟨c₁', hc₁', hid', haccount', hstatus'⟩ := hback c' hc'
    have hone : c₁ = c₁' := h.single c₁ hc₁ c₁' hc₁' (hstatus ▸ hlive) (hstatus' ▸ hlive')
      (haccount.symm.trans (hsame.trans haccount'))
    exact hkeyed.eq_of_key hc hc' (hid.trans (hone ▸ hid'.symm))
  · obtain ⟨c₁, hc₁, -, haccount, hstatus⟩ := hback c hc
    rw [hstatus]
    exact h.resting a ha hactive c₁ hc₁ (haccount.symm.trans hmine)

theorem recordDiditSession_controlled (h : Controlled w)
    (hguard : ∀ c ∈ w.cases, c.isOpen caseId = true → c.reviewedByPrimary = none) :
    Controlled (recordDiditSession caseId diditReference w).2 := by
  unfold recordDiditSession
  split
  · exact h
  · rename_i c₀ hfind
    have hopen := find?_some hfind
    refine h.rewrite (fun c => { c with freshDiditVerificationRef := some diditReference }) hfind (fun c hc => ?_)
      (fun c => ⟨rfl, rfl, rfl⟩) (fun _ hr => hr) fun p hp => ?_
    · exact (isOpen_iff.mp hc).1.trans (isOpen_iff.mp hopen).1.symm
    · have hnone := hguard c₀ (mem_of_find?_eq_some hfind) hopen
      exact absurd (hnone.symm.trans hp) (by simp)

theorem recordPrimaryReview_controlled (h : Controlled w) :
    Controlled (recordPrimaryReview caseId reviewer w).2 := by
  unfold recordPrimaryReview
  split
  · exact h
  · rename_i c₀ hfind
    obtain ⟨⟨hid, -⟩, -, href⟩ := isReviewable_iff.mp (find?_some hfind)
    refine h.rewrite (fun c => { c with reviewedByPrimary := some reviewer }) hfind (fun c hc => ?_)
      (fun c => ⟨rfl, rfl, rfl⟩) (fun _ hr => mem_append_left _ hr) fun p hp => ?_
    · exact (isReviewable_iff.mp hc).1.1.trans hid.symm
    · obtain ⟨ref, href⟩ := ne_none_iff_exists'.mp href
      cases hp
      exact ⟨ref, href, mem_append_right _ (by simp [hid, href])⟩

/-- A step of the status of one case, logged as such. -/
structure Moves (w w' : World) (rows : RecoveryCase → Bool) (set : RecoveryCase → RecoveryCase) (c₀ : RecoveryCase) :
    Prop where
  found : w.cases.find? rows = some c₀
  named : ∀ c, rows c = true → c.id = c₀.id
  keeps : ∀ c, (set c).id = c.id ∧ (set c).accountId = c.accountId ∧ (set c).reviewedByPrimary = c.reviewedByPrimary ∧
    (set c).freshDiditVerificationRef = c.freshDiditVerificationRef
  cases : w'.cases = rewriteCases rows set w.cases
  statuses : w'.statuses = w.statuses ++ [(c₀.id, (set c₀).status)]
  path : (set c₀).status.path = c₀.status.path ++ [(set c₀).status]
  live : (set c₀).status.live = true → c₀.status.live = true
  reviews : w'.reviews = w.reviews
  rulings : ∀ d ∈ w.rulings, d ∈ w'.rulings

theorem Controlled.move (h : Controlled w) {set : RecoveryCase → RecoveryCase} (hmove : Moves w w' rows set c₀)
    (happroved : (set c₀).status = .approved ∨ (set c₀).status = .completed → DualControl (set c₀) w')
    (hresting : ∀ a' ∈ w'.accounts, a'.status = .active →
      (∃ a ∈ w.accounts, a.id = a'.id ∧ a.status = .active) ∨
        (a'.id = c₀.accountId ∧ c₀.status.live = true ∧ (set c₀).status.live = false)) : Controlled w' := by
  have hmem₀ := mem_of_find?_eq_some hmove.found
  have hiff : ∀ {c}, c ∈ w'.cases ↔ c = set c₀ ∨ (c ∈ w.cases ∧ c.id ≠ c₀.id) := by
    intro c
    rw [hmove.cases]
    exact mem_rewriteCases h.keyed hmove.found hmove.named
  have hhistory : ∀ caseId, caseId ≠ c₀.id → history caseId w' = history caseId w := by
    intro caseId hne
    simp [history, hmove.statuses, Ne.symm hne]
  have hkeyed : Table.Keyed RecoveryCase.id w'.cases := by
    rw [hmove.cases]
    exact rewriteCases_keyed h.keyed fun c => (hmove.keeps c).1
  refine ⟨hkeyed, fun c hc => ?_, fun caseId hnone => ?_, fun c hc p hp => ?_, fun c hc hstatus => ?_,
    fun c hc c' hc' hlive hlive' hsame => ?_, fun a ha hactive c hc hmine => ?_⟩
  · obtain rfl | ⟨hc, hne⟩ := hiff.mp hc
    · rw [(hmove.keeps c₀).1, hmove.path, ← h.path c₀ hmem₀]
      simp [history, hmove.statuses]
    · rw [hhistory c.id hne]
      exact h.path c hc
  · have hne : caseId ≠ c₀.id := fun hsame =>
      hnone (set c₀) (hiff.mpr (.inl rfl)) ((hmove.keeps c₀).1.trans hsame.symm)
    rw [hhistory caseId hne]
    refine h.unknown caseId fun c hc hsame => ?_
    by_cases hc₀ : c.id = c₀.id
    · exact hne (hsame.symm.trans hc₀)
    · exact hnone c (hiff.mpr (.inr ⟨hc, hc₀⟩)) hsame
  · rw [hmove.reviews]
    obtain rfl | ⟨hc, -⟩ := hiff.mp hc
    · obtain ⟨hid, -, hreviewer, href⟩ := hmove.keeps c₀
      rw [hid, href]
      exact h.reviewed c₀ hmem₀ p (hreviewer ▸ hp)
    · exact h.reviewed c hc p hp
  · obtain rfl | ⟨hc, -⟩ := hiff.mp hc
    · exact happroved hstatus
    · obtain ⟨primary, secondary, ref, hne, hreview, hruling⟩ := h.approved c hc hstatus
      exact ⟨primary, secondary, ref, hne, hmove.reviews ▸ hreview, hmove.rulings _ hruling⟩
  · have hback : ∀ c ∈ w'.cases, c.status.live = true → ∃ c₁ ∈ w.cases, c.id = c₁.id ∧ c.accountId = c₁.accountId ∧
        c₁.status.live = true := by
      intro c hc hlive
      obtain rfl | ⟨hc, -⟩ := hiff.mp hc
      · exact ⟨c₀, hmem₀, (hmove.keeps c₀).1, (hmove.keeps c₀).2.1, hmove.live hlive⟩
      · exact ⟨c, hc, rfl, rfl, hlive⟩
    obtain ⟨c₁, hc₁, hid, haccount, hlive₁⟩ := hback c hc hlive
    obtain ⟨c₁', hc₁', hid', haccount', hlive₁'⟩ := hback c' hc' hlive'
    have hone : c₁ = c₁' := h.single c₁ hc₁ c₁' hc₁' hlive₁ hlive₁' (haccount.symm.trans (hsame.trans haccount'))
    exact hkeyed.eq_of_key hc hc' (hid.trans (hone ▸ hid'.symm))
  · obtain ⟨a₀, ha₀, hid, hstatus⟩ | ⟨hid, hlive₀, hdead⟩ := hresting a ha hactive
    · obtain rfl | ⟨hc, -⟩ := hiff.mp hc
      · have hidle := h.resting a₀ ha₀ hstatus c₀ hmem₀ ((hmove.keeps c₀).2.1.symm.trans (hmine.trans hid.symm))
        by_contra hlive
        rw [hmove.live (by simpa using hlive)] at hidle
        cases hidle
      · exact h.resting a₀ ha₀ hstatus c hc (hmine.trans hid.symm)
    · obtain rfl | ⟨hc, hne⟩ := hiff.mp hc
      · exact hdead
      · by_contra hlive
        have hone := h.single c hc c₀ hmem₀ (by simpa using hlive) hlive₀ (hmine.trans hid)
        exact hne (hone ▸ rfl)

theorem Moves.decided (hfind : w.cases.find? (RecoveryCase.isDecidable caseId reviewer) = some c₀)
    (decision : Decision) (decidedAt : ℤ) :
    Moves w (decideCase caseId reviewer decision decidedAt w).2 (RecoveryCase.isDecidable caseId reviewer)
      (RecoveryCase.decide decision reviewer decidedAt) c₀ := by
  obtain ⟨⟨hid, hopen⟩, -, -⟩ := isDecidable_iff.mp (find?_some hfind)
  simp only [decideCase, hfind]
  refine ⟨hfind, fun c hc => ?_, fun _ => ⟨rfl, rfl, rfl, rfl⟩, rfl, ?_, ?_, fun _ => ?_, rfl,
    fun _ hd => mem_append_left _ hd⟩
  · exact (isDecidable_iff.mp hc).1.1.trans hid.symm
  · rw [hid]
    rfl
  · rw [hopen]
    exact decision.path
  · rw [hopen]
    rfl

theorem Moves.completed (hfind : w.cases.find? (RecoveryCase.isApproved caseId) = some c₀) (cooldownEndsAt : ℤ) :
    Moves w (completeCase caseId cooldownEndsAt w).2 (RecoveryCase.isApproved caseId)
      (fun c => { c with status := .completed, cooldownEndsAt := some cooldownEndsAt }) c₀ := by
  obtain ⟨hid, happroved⟩ := isApproved_iff.mp (find?_some hfind)
  simp only [completeCase, hfind]
  refine ⟨hfind, fun c hc => ?_, fun _ => ⟨rfl, rfl, rfl, rfl⟩, rfl, ?_, ?_, nofun, rfl, fun _ hd => hd⟩
  · exact (isApproved_iff.mp hc).1.trans hid.symm
  · rw [hid]
  · rw [happroved]
    rfl

theorem decideCase_controlled (h : Controlled w) : Controlled (decideCase caseId reviewer decision decidedAt w).2 := by
  cases hfind : w.cases.find? (RecoveryCase.isDecidable caseId reviewer) with
  | none => simpa only [decideCase, hfind] using h
  | some c₀ =>
    obtain ⟨⟨hid, -⟩, hreviewed, hother⟩ := isDecidable_iff.mp (find?_some hfind)
    obtain ⟨primary, hprimary⟩ := ne_none_iff_exists'.mp hreviewed
    obtain ⟨ref, href, hreview⟩ := h.reviewed c₀ (mem_of_find?_eq_some hfind) primary hprimary
    refine h.move (.decided hfind decision decidedAt) (fun hstatus => ?_) fun a ha hactive => .inl
      ⟨a, ?_, rfl, hactive⟩
    · have hdecision : decision = .approved := by
        cases decision with
        | approved => rfl
        | rejected => obtain hstatus | hstatus := hstatus <;> cases hstatus
      refine ⟨primary, reviewer, ref, fun hsame => hother (hsame ▸ hprimary), ?_, ?_⟩
      · simpa only [decideCase, hfind, RecoveryCase.decide] using hreview
      · simp [decideCase, hfind, hdecision, hid, href, RecoveryCase.decide]
    · simpa only [decideCase, hfind] using ha

theorem completeCase_controlled (h : Controlled w) :
    Controlled (completeCase caseId cooldownEndsAt w).2 := by
  cases hfind : w.cases.find? (RecoveryCase.isApproved caseId) with
  | none => simpa only [completeCase, hfind] using h
  | some c₀ =>
    obtain ⟨-, happroved⟩ := isApproved_iff.mp (find?_some hfind)
    refine h.move (.completed hfind cooldownEndsAt) (fun _ => ?_) fun a' ha' hactive => ?_
    · have hdual := h.approved c₀ (mem_of_find?_eq_some hfind) (.inl happroved)
      simpa only [DualControl, completeCase, hfind] using hdual
    · simp only [completeCase, hfind] at ha'
      obtain ⟨a, ha, rfl⟩ := List.mem_map.mp ha'
      split
      · rename_i hmine
        refine .inr ⟨hmine, ?_, rfl⟩
        rw [happroved]
        rfl
      · rename_i hother
        rw [if_neg hother] at hactive
        exact .inl ⟨a, ha, rfl, hactive⟩

theorem decide_controlled (h : Controlled w) : Controlled (decide requestId reviewer decision note decidedAt w).2 := by
  unfold decide
  split
  · exact h
  · refine h.same rfl rfl rfl rfl fun a' ha' hactive => ?_
    cases decision with
    | rejected => exact ⟨a', ha', rfl, hactive⟩
    | approved =>
      obtain ⟨a, ha, rfl⟩ := List.mem_map.mp ha'
      split at hactive
      · cases hactive
      · rename_i hother
        rw [if_neg hother]
        exact ⟨a, ha, rfl, hactive⟩

theorem completeOffboarding_controlled (h : Controlled w) :
    Controlled (completeOffboarding accountId w) := by
  refine h.same rfl rfl rfl rfl fun a' ha' hactive => ?_
  obtain ⟨a, ha, rfl⟩ := List.mem_map.mp ha'
  split at hactive
  · cases hactive
  · rename_i hother
    rw [if_neg hother]
    exact ⟨a, ha, rfl, hactive⟩

/-- Every operation keeps approvals under dual control. -/
theorem run_controlled {t : Nat} {op : Op} {c : Choice} {a : op.Out} (h : Controlled w)
    (hguard : evidenceHeld.call t op w) (hrun : op.run c w = some (a, w')) : Controlled w' := by
  cases op with
  | openCase =>
    simp only [Op.run, ite_none_left_eq_some, some.injEq] at hrun
    obtain ⟨hfresh, hrun⟩ := hrun
    obtain rfl : _ = w' := congrArg Prod.snd hrun
    exact openCase_controlled h (by simpa using hfresh) hguard
  | recordDiditSession =>
    rw [run_world hrun]
    exact recordDiditSession_controlled h hguard
  | recordPrimaryReview =>
    rw [run_world hrun]
    exact recordPrimaryReview_controlled h
  | decideCase =>
    rw [run_world hrun]
    exact decideCase_controlled h
  | completeCase =>
    rw [run_world hrun]
    exact completeCase_controlled h
  | decide =>
    rw [run_world hrun]
    exact decide_controlled h
  | completeOffboarding =>
    cases hrun
    exact completeOffboarding_controlled h
  | cancel =>
    rw [run_world hrun]
    simp only [cancel]
    split
    · exact h
    · exact h.untouched rfl rfl rfl rfl rfl
  | createRequest | insertSession =>
    simp only [Op.run, ite_none_left_eq_some, some.injEq, Prod.mk.injEq] at hrun
    obtain ⟨-, -, rfl⟩ := hrun
    exact h.untouched rfl rfl rfl rfl rfl
  | _ =>
    cases hrun
    exact h.untouched rfl rfl rfl rfl rfl

end Invariant

theorem env_controlled (h : Controlled w) (henv : env e w = some w') : Controlled w' := by
  cases e with
  | tick =>
    obtain ⟨-, hsome⟩ := ite_none_right_eq_some.mp henv
    cases hsome
    exact h.untouched rfl rfl rfl rfl rfl
  | issue | signIn =>
    obtain ⟨-, hsome⟩ := ite_none_left_eq_some.mp henv
    cases hsome
    exact h.untouched rfl rfl rfl rfl rfl

theorem start_controlled :
    Controlled (World.start now accounts users devices) := by
  have hnone : ∀ c, c ∉ (World.start now accounts users devices).cases := fun _ => not_mem_nil
  exact ⟨nodup_nil, fun c hc => absurd hc (hnone c), fun _ _ => rfl, fun c hc => absurd hc (hnone c),
    fun c hc => absurd hc (hnone c), fun c hc => absurd hc (hnone c), fun _ _ _ c hc => absurd hc (hnone c)⟩

/-- A case that was approved was reviewed and decided by two accounts on one
reference; its statuses are those of its path, each taken once; and an account
has one live case at most. -/
theorem dual_control_covers_evidence (now : ℤ) (accounts : List Account) (users : List AuthUser)
    (devices : List Device) (s : Config World Failure Op Op.Out)
    (h : Reachable system evidenceHeld (idle (World.start now accounts users devices)) s) :
    (∀ c ∈ s.world.cases, c.status = .approved ∨ c.status = .completed →
      ∃ primary secondary ref, primary ≠ secondary ∧ ⟨c.id, primary, some ref⟩ ∈ s.world.reviews ∧
        ⟨c.id, secondary, .approved, some ref⟩ ∈ s.world.rulings) ∧
    (∀ c ∈ s.world.cases, history c.id s.world = c.status.path) ∧
    ∀ c ∈ s.world.cases, ∀ c' ∈ s.world.cases, c.status.live = true → c'.status.live = true →
      c.accountId = c'.accountId → c = c' := by
  have hinv : Controlled s.world := by
    refine h.always Controlled start_controlled (fun t op c w r w' hg hexec hw => ?_)
      fun e w w' _ henv hw => env_controlled hw henv
    obtain ⟨a, w₁, hrun, ⟨-, rfl⟩ | ⟨-, rfl | rfl⟩⟩ := exec_inv hexec
    · exact run_controlled hw hg hrun
    · exact run_controlled hw hg hrun
    · exact hw
  exact ⟨hinv.approved, hinv.path, hinv.single⟩

instance (t : Nat) (op : Op) (w : World) : Decidable (evidenceHeld.call t op w) := by
  induction op using Op.casesOn <;> (dsimp only [evidenceHeld]; infer_instance)

/-- Customer 1 with user 11 and device 5, whose key is 9. -/
def sampleWorld : World :=
  World.start 0 [⟨1, 11, .active, none, false⟩] [⟨11, 0, .customer, none, none⟩]
    [⟨5, 1, 11, 9, some .android, true, none⟩]

/-- So many calls of one thread, none of which throws. -/
def sampleCalls (t id reference n : Nat) : List (Action Choice Event Job) :=
  List.replicate n (.call t ⟨none, id, 0, reference, true⟩)

/-- Case 1: reference 7 is recorded, account 21 reviews, account 22 approves. -/
def sampleApproval : List (Action Choice Event Job) :=
  .spawn 0 (.openRecovery 1) :: sampleCalls 0 1 0 8 ++ .spawn 1 (.createDiditSession 1) :: sampleCalls 1 0 7 3 ++
    .spawn 2 (.primaryReview 1 21) :: sampleCalls 2 0 0 1 ++
    .spawn 3 (.decideRecovery 1 22 .approved) :: sampleCalls 3 0 0 4

theorem dual_control_covers_evidence_sample : ∃ s, Reachable system evidenceHeld (idle sampleWorld) s ∧
    (s.world.cases.map RecoveryCase.status) = [.approved] ∧ ∀ c ∈ s.world.cases, c.status = .approved →
      ∃ primary secondary ref, primary ≠ secondary ∧ ⟨c.id, primary, some ref⟩ ∈ s.world.reviews ∧
        ⟨c.id, secondary, .approved, some ref⟩ ∈ s.world.rulings := by
  obtain ⟨s, hrun, hlook⟩ := exists_of_play system
    (evidenceHeld.allows_of_decide fun _ _ => trivial) sampleApproval (idle sampleWorld)
    (fun s => (s.world.cases.map RecoveryCase.status) = [.approved]) (by decide +kernel)
  refine ⟨s, hrun, of_decide_eq_true hlook, fun c hc hstatus => ?_⟩
  exact (dual_control_covers_evidence 0 _ _ _ s hrun).1 c hc (.inl hstatus)

/-- Two openings overlap, and reference 8 replaces reference 7 after the review. -/
def sampleReplaced : List (Action Choice Event Job) :=
  .spawn 0 (.openRecovery 1) :: sampleCalls 0 1 0 7 ++ .spawn 1 (.openRecovery 1) :: sampleCalls 1 2 0 7 ++
    sampleCalls 0 1 0 1 ++ sampleCalls 1 2 0 1 ++ .spawn 2 (.createDiditSession 1) :: sampleCalls 2 0 7 3 ++
    .spawn 3 (.primaryReview 1 21) :: sampleCalls 3 0 0 1 ++ .spawn 4 (.createDiditSession 1) :: sampleCalls 4 0 8 3 ++
    .spawn 5 (.decideRecovery 1 22 .approved) :: sampleCalls 5 0 0 4

/-- Case 1 is approved on evidence its first reviewer never saw, next to a second
live case of the same account. -/
theorem approved_on_other_evidence : ∃ s, Reachable system Guard.free (idle sampleWorld) s ∧
    (s.world.cases.map fun c => (c.id, c.accountId, c.status)) = [(1, 1, .approved), (2, 1, .open)] ∧
    s.world.reviews = [⟨1, 21, some 7⟩] ∧ s.world.rulings = [⟨1, 22, .approved, some 8⟩] := by
  obtain ⟨s, hrun, hlook⟩ := exists_of_play system Guard.allows_free sampleReplaced (idle sampleWorld)
    (fun s => (s.world.cases.map fun c => (c.id, c.accountId, c.status)) = [(1, 1, .approved), (2, 1, .open)] ∧
      s.world.reviews = [⟨1, 21, some 7⟩] ∧ s.world.rulings = [⟨1, 22, .approved, some 8⟩]) (by decide +kernel)
  exact ⟨s, hrun, of_decide_eq_true hlook⟩

end AccountLifecycle
