import VistaBlox.AccountCalls
import VistaBlox.RecoveryControl

/-!
# A closed account stays closed

Closure, recovery and offboarding all write the status, and each looks at its own case only:
completing a case that was live at the closure makes the account active again.
-/
namespace AccountLifecycle

open Interleaving List Option
open DpopBinding (AccountStatus)

variable {accountId : AccountId} {p : Population} {w w' : World}

/-- Which user an account belongs to. -/
def World.owners (w : World) : List (AccountId × UserId) := w.accounts.map fun a => (a.id, a.betterAuthUserId)

def World.populations (w : World) : List (UserId × Population) := w.users.map fun u => (u.id, u.population)

/-- No step touches who owns an account, or which population a user is of. -/
structure SameIdentities (w w' : World) : Prop where
  owners : w'.owners = w.owners
  populations : w'.populations = w.populations

theorem SameIdentities.refl (w : World) : SameIdentities w w := ⟨rfl, rfl⟩

def Owns (accountId : AccountId) (userId : UserId) (w : World) : Prop := (accountId, userId) ∈ w.owners

/-- The account's user is of this population. -/
def OfPopulation (p : Population) (accountId : AccountId) (w : World) : Prop :=
  ∃ userId, Owns accountId userId w ∧ (userId, p) ∈ w.populations

/-- Primary keys of the two tables. -/
structure Identified (w : World) : Prop where
  accounts : (w.owners.map Prod.fst).Nodup
  users : (w.populations.map Prod.fst).Nodup

theorem Identified.same (h : SameIdentities w w') (hw : Identified w) : Identified w' :=
  ⟨h.owners ▸ hw.accounts, h.populations ▸ hw.users⟩

theorem OfPopulation.same (h : SameIdentities w w') (hp : OfPopulation p accountId w) :
    OfPopulation p accountId w' := by
  obtain ⟨userId, howns, hpopulation⟩ := hp
  exact ⟨userId, (show _ ∈ w'.owners from h.owners ▸ howns), h.populations ▸ hpopulation⟩

theorem Identified.population_eq (h : Identified w) (hp : OfPopulation p accountId w)
    (hq : OfPopulation q accountId w) : p = q := by
  obtain ⟨u, hu, hup⟩ := hp
  obtain ⟨v, hv, hvq⟩ := hq
  have huser : (accountId, u) = (accountId, v) := inj_on_of_nodup_map h.accounts hu hv rfl
  cases huser
  have hpopulation : (u, p) = (u, q) := inj_on_of_nodup_map h.users hup hvq rfl
  cases hpopulation
  rfl

/-- No case of the account is open or approved. -/
def NoLiveCase (accountId : AccountId) (w : World) : Prop :=
  ∀ c ∈ w.cases, c.accountId = accountId → c.status.live = false

structure Final (w : World) : Prop where
  identified : Identified w
  restricted : ∀ accountId ∈ w.closed, ∀ a ∈ w.accounts, a.id = accountId → a.status = .suspendedRestricted
  settled : ∀ accountId ∈ w.closed, NoLiveCase accountId w
  customers : ∀ c ∈ w.cases, OfPopulation .customer c.accountId w

def closureRules : Rules World Op where
  inv := Final
  rely _ := SameIdentities
  req _ op w := match op with
    | .openCase accountId _ => OfPopulation .customer accountId w
    | .completeOffboarding accountId => OfPopulation .staffPartner accountId w
    | _ => True

/-- A closure is approved when no case of the account is live, and a case is
opened while the account is still active. -/
def closedWhenSettled : Guard World Event Op where
  call _ op w := match op with
    | .decide requestId _ .approved _ _ => ∀ r ∈ w.requests, r.isPending requestId = true → NoLiveCase r.accountId w
    | .openCase accountId _ => ∃ a ∈ w.accounts, a.id = accountId ∧ a.status = .active
    | _ => True
  env _ _ := True

variable {c : Choice} {op : Op} {t : Nat} {userId : UserId}

theorem Final.same (h : Final w) (hsame : SameIdentities w w') (haccounts : w'.accounts = w.accounts)
    (hcases : w'.cases = w.cases) (hclosed : w'.closed = w.closed) : Final w' ∧ SameIdentities w w' := by
  refine ⟨⟨h.identified.same hsame, ?_, ?_, fun c hc => (h.customers c (hcases ▸ hc)).same hsame⟩, hsame⟩
  · rw [hclosed, haccounts]
    exact h.restricted
  · simpa only [NoLiveCase, hclosed, hcases] using h.settled

theorem sameIdentities_accounts (hg : ∀ a, (g a).id = a.id ∧ (g a).betterAuthUserId = a.betterAuthUserId)
    (haccounts : w'.accounts = w.accounts.map g) (husers : w'.users = w.users) : SameIdentities w w' := by
  refine ⟨?_, by simp only [World.populations, husers]⟩
  simp only [World.owners, haccounts, List.map_map, Function.comp_def, hg]

theorem setStatus_keeps (accountId : AccountId) (status : AccountStatus) (a : Account) :
    ((if a.id = accountId then { a with status } else a).id = a.id ∧
      (if a.id = accountId then { a with status } else a).betterAuthUserId = a.betterAuthUserId) := by
  split <;> exact ⟨rfl, rfl⟩

/-- Closing an account restricts it and leaves the others alone. -/
theorem Final.restricted_closing {set : Account → Account} {a' : Account} (h : Final w)
    (hset : ∀ a, (set a).status = .suspendedRestricted) (hclosed : closed ∈ w.closed ++ [accountId])
    (ha' : a' ∈ w.accounts.map fun a => if a.id = accountId then set a else a) (hmine : a'.id = closed) :
    a'.status = .suspendedRestricted := by
  obtain ⟨a, ha, rfl⟩ := List.mem_map.mp ha'
  split
  · exact hset a
  · rename_i hother
    rw [if_neg hother] at hmine
    obtain hclosed | hclosed := mem_append.mp hclosed
    · exact h.restricted closed hclosed a ha hmine
    · exact absurd (hmine.trans (mem_singleton.mp hclosed)) hother

theorem decide_final (h : Final w)
    (hguard : closedWhenSettled.call t (.decide requestId reviewer decision note decidedAt) w) :
    Final (decide requestId reviewer decision note decidedAt w).2 ∧
      SameIdentities w (decide requestId reviewer decision note decidedAt w).2 := by
  unfold decide
  split
  · exact ⟨h, SameIdentities.refl w⟩
  · rename_i request hfind
    cases decision with
    | rejected => exact h.same ⟨rfl, rfl⟩ rfl rfl rfl
    | approved =>
      have hidle : NoLiveCase request.accountId w :=
        hguard request (mem_of_find?_eq_some hfind) (find?_some hfind)
      have hsame : SameIdentities w (w.setStatus request.accountId .suspendedRestricted) :=
        sameIdentities_accounts (setStatus_keeps request.accountId .suspendedRestricted) rfl rfl
      refine ⟨⟨h.identified.same ⟨hsame.owners, rfl⟩, fun id hid a' ha' hmine => ?_, fun id hid => ?_,
        fun c hc => (h.customers c hc).same ⟨hsame.owners, rfl⟩⟩, hsame.owners, rfl⟩
      · exact h.restricted_closing (fun _ => rfl) hid ha' hmine
      · obtain hid | rfl := Table.mem_add hid
        · exact h.settled id hid
        · exact hidle

theorem completeOffboarding_final (h : Final w) (hstaff : OfPopulation .staffPartner accountId w) :
    Final (completeOffboarding accountId w) ∧ SameIdentities w (completeOffboarding accountId w) := by
  have hsame : SameIdentities w (completeOffboarding accountId w) := by
    refine sameIdentities_accounts (fun a => ?_) rfl rfl
    split <;> exact ⟨rfl, rfl⟩
  refine ⟨⟨h.identified.same hsame, fun id hid a' ha' hmine => ?_, fun id hid c hc hcase => ?_,
    fun c hc => (h.customers c hc).same hsame⟩, hsame⟩
  · exact h.restricted_closing (fun _ => rfl) hid ha' hmine
  · obtain hid | hid := mem_append.mp hid
    · exact h.settled id hid c hc hcase
    · -- a case is a customer's, and this account is a staff member's
      have hcustomer := h.customers c hc
      rw [hcase, mem_singleton.mp hid] at hcustomer
      exact absurd (h.identified.population_eq hcustomer hstaff) (by decide)

theorem openCase_final (h : Final w) (hcustomer : OfPopulation .customer accountId w)
    (hactive : ∃ a ∈ w.accounts, a.id = accountId ∧ a.status = .active) (id : CaseId) (openedAt : ℤ) :
    Final (openCase id accountId openedAt w).2 ∧ SameIdentities w (openCase id accountId openedAt w).2 := by
  have hnot : accountId ∉ w.closed := by
    intro hclosed
    obtain ⟨a, ha, hid, hstatus⟩ := hactive
    rw [h.restricted accountId hclosed a ha hid] at hstatus
    cases hstatus
  have hsame : SameIdentities w (openCase id accountId openedAt w).2 :=
    sameIdentities_accounts (setStatus_keeps accountId .recoveryReview) rfl rfl
  refine ⟨⟨h.identified.same hsame, fun closed hclosed a' ha' hmine => ?_, fun closed hclosed c hc hcase => ?_,
    fun c hc => ?_⟩, hsame⟩
  · obtain ⟨a, ha, rfl⟩ := List.mem_map.mp ha'
    split at hmine
    · rename_i hopened
      exact absurd (show accountId ∈ w.closed from (hopened.symm.trans hmine) ▸ hclosed) hnot
    · rename_i hother
      rw [if_neg hother]
      exact h.restricted closed hclosed a ha hmine
  · obtain hc | rfl := Table.mem_add hc
    · exact h.settled closed hclosed c hc hcase
    · exact absurd (show accountId ∈ w.closed from (show accountId = closed from hcase) ▸ hclosed) hnot
  · obtain hc | rfl := Table.mem_add hc
    · exact (h.customers c hc).same hsame
    · exact hcustomer.same hsame

theorem Final.rewrite (h : Final w) {rows : RecoveryCase → Bool} {set : RecoveryCase → RecoveryCase}
    (hcases : w'.cases = rewriteCases rows set w.cases) (hclosed : w'.closed = w.closed)
    (hset : ∀ c, rows c = true → (set c).accountId = c.accountId ∧ ((set c).status.live = true → c.status.live = true))
    (hsame : SameIdentities w w')
    (hrestricted : ∀ accountId ∈ w.closed, ∀ a ∈ w'.accounts, a.id = accountId → a.status = .suspendedRestricted) :
    Final w' ∧ SameIdentities w w' := by
  have hback : ∀ c' ∈ w'.cases, ∃ c ∈ w.cases, c'.accountId = c.accountId ∧
      (c'.status.live = true → c.status.live = true) := by
    intro c' hc'
    rw [hcases] at hc'
    obtain ⟨c, hc, rfl⟩ := List.mem_map.mp hc'
    refine ⟨c, hc, ?_⟩
    split
    · rename_i hrow
      exact hset c hrow
    · exact ⟨rfl, fun hlive => hlive⟩
  refine ⟨⟨h.identified.same hsame, ?_, fun id hid c' hc' hmine => ?_, fun c' hc' => ?_⟩, hsame⟩
  · rw [hclosed]
    exact hrestricted
  · rw [hclosed] at hid
    obtain ⟨c, hc, haccount, hlive⟩ := hback c' hc'
    have hdead := h.settled id hid c hc (haccount.symm.trans hmine)
    by_contra hnot
    rw [hlive (by simpa using hnot)] at hdead
    cases hdead
  · obtain ⟨c, hc, haccount, -⟩ := hback c' hc'
    rw [haccount]
    exact (h.customers c hc).same hsame

theorem recordDiditSession_final (h : Final w) :
    Final (recordDiditSession caseId diditReference w).2 ∧
      SameIdentities w (recordDiditSession caseId diditReference w).2 := by
  unfold recordDiditSession
  split
  · exact ⟨h, SameIdentities.refl w⟩
  · exact h.rewrite rfl rfl (fun c _ => ⟨rfl, fun hlive => hlive⟩) ⟨rfl, rfl⟩ h.restricted

theorem recordPrimaryReview_final (h : Final w) :
    Final (recordPrimaryReview caseId reviewer w).2 ∧ SameIdentities w (recordPrimaryReview caseId reviewer w).2 := by
  unfold recordPrimaryReview
  split
  · exact ⟨h, SameIdentities.refl w⟩
  · exact h.rewrite rfl rfl (fun c _ => ⟨rfl, fun hlive => hlive⟩) ⟨rfl, rfl⟩ h.restricted

theorem decideCase_final (h : Final w) :
    Final (decideCase caseId reviewer decision decidedAt w).2 ∧
      SameIdentities w (decideCase caseId reviewer decision decidedAt w).2 := by
  unfold decideCase
  split
  · exact ⟨h, SameIdentities.refl w⟩
  · refine h.rewrite rfl rfl (fun c hrow => ⟨rfl, fun _ => ?_⟩) ⟨rfl, rfl⟩ h.restricted
    rw [(isDecidable_iff.mp hrow).1.2]
    rfl

theorem completeCase_final (h : Final w) :
    Final (completeCase caseId cooldownEndsAt w).2 ∧ SameIdentities w (completeCase caseId cooldownEndsAt w).2 := by
  unfold completeCase
  split
  · exact ⟨h, SameIdentities.refl w⟩
  · rename_i c₀ hfind
    have happroved := (isApproved_iff.mp (find?_some hfind)).2
    refine h.rewrite rfl rfl (fun c _ => ⟨rfl, nofun⟩)
      (sameIdentities_accounts (setStatus_keeps c₀.accountId .active) rfl rfl) fun id hid a' ha' hmine => ?_
    obtain ⟨a, ha, rfl⟩ := List.mem_map.mp ha'
    split at hmine
    · -- the completed case was live, so its account is not a closed one
      rename_i hrecovered
      have hdead := h.settled id hid c₀ (mem_of_find?_eq_some hfind) (hrecovered.symm.trans hmine)
      rw [happroved] at hdead
      cases hdead
    · rename_i hother
      rw [if_neg hother]
      exact h.restricted id hid a ha hmine

theorem setUser_sameIdentities {set : AuthUser → AuthUser}
    (hset : ∀ u, (set u).id = u.id ∧ (set u).population = u.population) :
    SameIdentities w (setUser userId set w) := by
  refine ⟨rfl, ?_⟩
  simp only [World.populations, setUser, List.map_map]
  refine map_congr_left fun u _ => ?_
  simp only [Function.comp_apply]
  split
  · rw [(hset u).1, (hset u).2]
  · rfl

/-- Every operation leaves closed accounts closed, and the accounts who they are. -/
theorem run_final {a : op.Out} (h : Final w) (hreq : closureRules.req t op w)
    (hguard : closedWhenSettled.call t op w) (hrun : op.run c w = some (a, w')) : Final w' ∧ SameIdentities w w' := by
  cases op with
  | decide =>
    rw [run_world hrun]
    exact decide_final h hguard
  | completeOffboarding =>
    cases hrun
    exact completeOffboarding_final h hreq
  | openCase accountId openedAt =>
    simp only [Op.run, ite_none_left_eq_some, some.injEq] at hrun
    have hw : _ = w' := congrArg Prod.snd hrun.2
    rw [← hw]
    exact openCase_final h hreq hguard c.id openedAt
  | recordDiditSession =>
    rw [run_world hrun]
    exact recordDiditSession_final h
  | recordPrimaryReview =>
    rw [run_world hrun]
    exact recordPrimaryReview_final h
  | decideCase =>
    rw [run_world hrun]
    exact decideCase_final h
  | completeCase =>
    rw [run_world hrun]
    exact completeCase_final h
  | setRecoveryRequiredAt | setDisabledAt =>
    cases hrun
    exact h.same (setUser_sameIdentities fun _ => ⟨rfl, rfl⟩) rfl rfl rfl
  | cancel =>
    rw [run_world hrun]
    simp only [cancel]
    split
    · exact ⟨h, SameIdentities.refl w⟩
    · exact h.same ⟨rfl, rfl⟩ rfl rfl rfl
  | createRequest | insertSession =>
    simp only [Op.run, ite_none_left_eq_some, some.injEq, Prod.mk.injEq] at hrun
    obtain ⟨-, -, rfl⟩ := hrun
    exact h.same ⟨rfl, rfl⟩ rfl rfl rfl
  | _ =>
    cases hrun
    exact h.same ⟨rfl, rfl⟩ rfl rfl rfl

/-- The same with a fault before or after the operation. -/
theorem step_final (h : Final w) (hreq : closureRules.req t op w) (hguard : closedWhenSettled.call t op w)
    (hexec : system.exec t op c w = some (r, w')) : Final w' ∧ SameIdentities w w' := by
  obtain ⟨a, w₁, hrun, ⟨-, rfl⟩ | ⟨-, rfl | rfl⟩⟩ := exec_inv hexec
  · exact run_final h hreq hguard hrun
  · exact run_final h hreq hguard hrun
  · exact ⟨h, SameIdentities.refl w'⟩

theorem req_of_kind (hopening : op.kind ≠ .opening) (hoffboarding : op.kind ≠ .offboarding) :
    closureRules.req t op w := by
  cases op with
  | openCase => exact absurd rfl hopening
  | completeOffboarding => exact absurd rfl hoffboarding
  | _ => trivial

abbrev ClosureSpec {α : Type} := Triple (α := α) system closedWhenSettled closureRules

theorem closure_quiet {k : Kind} {α : Type} {p : Run α} (hp : p.Calls (Op.within k)) (hopening : k ≠ .opening)
    (hoffboarding : k ≠ .offboarding) :
    ClosureSpec t (fun _ => True) p fun _ _ => True := by
  have hreq : ∀ op w, Op.within k op → Final w → closureRules.req t op w := by
    rintro op w (hkind | hkind) -
    · exact req_of_kind (by simp [hkind]) (by simp [hkind])
    · exact req_of_kind (by simpa [hkind] using hopening) (by simpa [hkind] using hoffboarding)
  refine triple_calls hreq (fun op c w r w' hop hw hg hexec => ?_) hp
  obtain ⟨hfinal, hsame⟩ := step_final hw (hreq op w hop hw) hg hexec
  exact ⟨hfinal, fun _ _ => hsame⟩

theorem closure_call (hreq : ∀ w, Final w → P w → closureRules.req t op w)
    (hpost : ∀ w c a w', Final w → P w → SameIdentities w w' → op.run c w = some (a, w') → Q a w')
    (hstable : ∀ a w w', SameIdentities w w' → Q a w → Q a w') :
    ClosureSpec t P (invoke op) Q := by
  refine triple_perform hreq (fun w c r w' hinv hP hg hexec => ?_) fun a w w' _ _ hrely => hstable a w w' hrely
  obtain ⟨hfinal, hsame⟩ := step_final hinv (hreq w hinv hP) hg hexec
  refine ⟨hfinal, fun _ _ => hsame, fun a ha => ?_⟩
  obtain ⟨a₁, w₁, hrun, ⟨hr, rfl⟩ | ⟨hr, -⟩⟩ := exec_inv hexec
  · cases hr.symm.trans ha
    exact hpost w c a _ hinv hP hsame hrun
  · cases hr.symm.trans ha

theorem closure_keep (hkind : op.kind = .plain) (hF : ∀ w w', SameIdentities w w' → F w → F w') :
    ClosureSpec t F (invoke op) fun _ => F :=
  closure_call (fun _ _ _ => req_of_kind (by simp [hkind]) (by simp [hkind]))
    (fun w _ _ w' _ hw hsame _ => hF w w' hsame hw)
    fun _ w w' hsame => hF w w' hsame

theorem Owns.same (h : SameIdentities w w') (howns : Owns accountId userId w) :
    Owns accountId userId w' := (show _ ∈ w'.owners from h.owners ▸ howns)

theorem find_account (h : (w.accounts.find? fun a => a.id = accountId) = some a) :
    a.id = accountId ∧ Owns accountId a.betterAuthUserId w := by
  have hid : a.id = accountId := by simpa using find?_some h
  exact ⟨hid, List.mem_map.mpr ⟨a, mem_of_find?_eq_some h, by rw [hid]⟩⟩

theorem find_user (h : (w.users.find? fun u => u.id = userId) = some u) :
    (userId, u.population) ∈ w.populations := by
  have hid : u.id = userId := by simpa using find?_some h
  exact List.mem_map.mpr ⟨u, mem_of_find?_eq_some h, by rw [hid]⟩

theorem closure_findUserById :
    ClosureSpec t (Owns accountId userId) (invoke (.findUserById userId))
      fun user w => ∀ u, user = some u → OfPopulation u.population accountId w := by
  refine closure_call (fun _ _ _ => trivial) (fun w c user w' _ howns _ hrun u hu => ?_)
    fun user w w' hsame h u hu => (h u hu).same hsame
  cases hrun
  exact ⟨userId, howns, find_user hu⟩

theorem closure_revokeAllSessions :
    ClosureSpec t (Owns accountId userId) (revokeAllSessions userId)
      fun _ => OfPopulation .customer accountId := by
  have hkeep : ∀ w w', SameIdentities w w' → OfPopulation .customer accountId w →
      OfPopulation .customer accountId w' :=
    fun _ _ hsame h => h.same hsame
  refine triple_bind closure_findUserById fun user => ?_
  refine triple_bind (Q := fun _ => OfPopulation .customer accountId) ?_ fun _ => ?_
  · unfold assertCustomerUser
    split
    · exact triple_fail
    · rename_i u
      split
      · exact triple_fail
      · rename_i hcustomer
        refine triple_ret fun w _ h => ?_
        have hpopulation : u.population = .customer := by
          cases hp : u.population with
          | customer => rfl
          | staffPartner => exact absurd hp hcustomer
        exact hpopulation ▸ h u rfl
  · refine triple_bind (closure_keep rfl hkeep) fun now => ?_
    exact triple_bind (closure_keep rfl hkeep) fun _ => closure_keep rfl hkeep

theorem closure_disableAndRevoke :
    ClosureSpec t (Owns accountId userId) (disableAndRevoke userId disabledAt)
      fun _ => OfPopulation .staffPartner accountId := by
  have hkeep : ∀ w w', SameIdentities w w' → OfPopulation .staffPartner accountId w →
      OfPopulation .staffPartner accountId w' := fun _ _ hsame h => h.same hsame
  refine triple_bind closure_findUserById fun user => ?_
  refine triple_bind (Q := fun _ => OfPopulation .staffPartner accountId) ?_ fun staffUser => ?_
  · unfold assertStaffUser
    split
    · exact triple_fail
    · rename_i u
      split
      · rename_i hstaff
        exact triple_ret fun w _ h => hstaff ▸ h u rfl
      · exact triple_fail
  · refine triple_bind (Q := fun _ => OfPopulation .staffPartner accountId) ?_ fun _ => closure_keep rfl hkeep
    unfold disable
    split
    · exact closure_keep rfl hkeep
    · exact triple_ret fun _ _ h => h

theorem closure_openAccountRecoveryCase :
    ClosureSpec t (fun _ => True) (openAccountRecoveryCase accountId)
      fun _ _ => True := by
  have hfind : ClosureSpec t (fun _ => True)
      (invoke (.findTargetForRecovery accountId))
      fun target w => ∀ a, target = some a → Owns accountId a.betterAuthUserId w := by
    refine closure_call (fun _ _ _ => trivial) (fun w c target w' _ _ _ hrun a ha => ?_)
      fun target w w' hsame h a ha => (h a ha).same hsame
    cases hrun
    exact (find_account ha).2
  refine triple_bind hfind fun target => ?_
  split
  · exact triple_fail
  · rename_i target
    split
    · exact triple_fail
    · split
      · exact triple_fail
      · have hkeep : ∀ w w', SameIdentities w w' → Owns accountId target.betterAuthUserId w →
            Owns accountId target.betterAuthUserId w' := fun _ _ hsame h => h.same hsame
        refine triple_pre ?_ fun _ _ h => h target rfl
        refine triple_bind (closure_keep rfl hkeep) fun existingOpenCase => ?_
        split
        · exact triple_fail
        · refine triple_bind (closure_keep rfl hkeep) fun openedAt => ?_
          refine triple_bind closure_revokeAllSessions fun _ => ?_
          refine triple_bind (closure_call (fun _ _ h => h) (fun _ _ _ _ _ _ _ _ => trivial) fun _ _ _ _ h => h)
            fun created => ?_
          exact closure_quiet (k := .plain) ((notify_calls ..).bind fun _ => trivial) nofun nofun

theorem closure_offboardStaffAccount :
    ClosureSpec t (fun _ => True) (offboardStaffAccount accountId actor)
      fun _ _ => True := by
  unfold offboardStaffAccount
  split
  · exact triple_fail
  · have hfind : ClosureSpec t (fun _ => True) (invoke (.findTarget accountId))
        fun target w => ∀ a, target = some a → Owns a.id a.betterAuthUserId w := by
      refine closure_call (fun _ _ _ => trivial) (fun w c target w' _ _ _ hrun a ha => ?_)
        fun target w w' hsame h a ha => (h a ha).same hsame
      cases hrun
      obtain ⟨hid, howns⟩ := find_account ha
      exact hid ▸ howns
    refine triple_bind hfind fun target => ?_
    split
    · exact triple_fail
    · rename_i target
      have hkeep : ∀ w w', SameIdentities w w' → Owns target.id target.betterAuthUserId w →
          Owns target.id target.betterAuthUserId w' := fun _ _ hsame h => h.same hsame
      refine triple_pre ?_ fun _ _ h => h target rfl
      refine triple_bind (closure_keep rfl hkeep) fun completedAt => ?_
      refine triple_bind closure_disableAndRevoke fun _ => ?_
      exact closure_call (fun _ _ h => h) (fun _ _ _ _ _ _ _ _ => trivial) fun _ _ _ _ h => h

theorem env_final (h : Final w) (henv : env e w = some w') : Final w' ∧ SameIdentities w w' := by
  cases e with
  | tick =>
    obtain ⟨-, hsome⟩ := ite_none_right_eq_some.mp henv
    cases hsome
    exact h.same ⟨rfl, rfl⟩ rfl rfl rfl
  | issue | signIn =>
    obtain ⟨-, hsome⟩ := ite_none_left_eq_some.mp henv
    cases hsome
    exact h.same ⟨rfl, rfl⟩ rfl rfl rfl

/-- Closed accounts stay closed however the requests interleave. -/
theorem closure_sound : Interleaving.Sound system closedWhenSettled closureRules where
  job t j := by
    have hcalls := j.calls
    cases j with
    | openRecovery =>
      exact triple_bind closure_openAccountRecoveryCase fun _ => triple_ret fun _ _ h => h
    | offboard => exact closure_offboardStaffAccount
    | _ => exact closure_quiet hcalls (by simp [Job.kind]) (by simp [Job.kind])
  env e w w' hinv _ henv := by
    obtain ⟨hfinal, hsame⟩ := env_final hinv henv
    exact ⟨hfinal, fun _ => hsame⟩

theorem start_final (haccounts : Table.Keyed Account.id accounts) (husers : Table.Keyed AuthUser.id users) :
    Final (World.start now accounts users devices) := by
  refine ⟨⟨?_, ?_⟩, fun _ h => absurd h not_mem_nil, fun _ h => absurd h not_mem_nil,
    fun _ h => absurd h not_mem_nil⟩
  · simpa only [World.owners, World.start, List.map_map, Function.comp_def, Table.Keyed] using haccounts
  · simpa only [World.populations, World.start, List.map_map, Function.comp_def, Table.Keyed] using husers

/-- An account closed by an approved closure or an offboarding is closed in every
later state. -/
theorem closed_account_stays_closed {accounts : List Account} {users : List AuthUser}
    (haccounts : Table.Keyed Account.id accounts) (husers : Table.Keyed AuthUser.id users) (now : ℤ)
    (devices : List Device) (s : Config World Failure Op Op.Out)
    (h : Reachable system closedWhenSettled (idle (World.start now accounts users devices)) s) :
    ∀ accountId ∈ s.world.closed, ∀ a ∈ s.world.accounts, a.id = accountId → a.status = .suspendedRestricted :=
  (h.secure closure_sound (secure_idle _ (start_final haccounts husers))).1.restricted

instance (accountId : AccountId) (w : World) : Decidable (NoLiveCase accountId w) :=
  inferInstanceAs (Decidable (∀ c ∈ w.cases, _))

instance (t : Nat) (op : Op) (w : World) : Decidable (closedWhenSettled.call t op w) := by
  induction op using Op.casesOn with
  | decide _ _ decision => induction decision using Decision.casesOn <;>
      (dsimp only [closedWhenSettled]; infer_instance)
  | _ => dsimp only [closedWhenSettled]; infer_instance

/-- Account 1 asks to be closed; request 1. -/
def sampleRequest : List (Action Choice Event Job) := .spawn 6 (.requestClosure 1 none) :: sampleCalls 6 1 0 4

/-- Request 1 is approved. -/
def sampleClosure : List (Action Choice Event Job) :=
  .spawn 7 (.decideClosure 1 21 .approved none) :: sampleCalls 7 0 0 8

/-- The account is closed, and a recovery asked for afterwards is refused. -/
def sampleRefusal : List (Action Choice Event Job) :=
  sampleRequest ++ sampleClosure ++ .spawn 0 (.openRecovery 1) :: sampleCalls 0 1 0 1

theorem closed_account_stays_closed_sample : ∃ s, Reachable system closedWhenSettled (idle sampleWorld) s ∧
    s.world.closed = [1] ∧ ∀ a ∈ s.world.accounts, a.id = 1 → a.status = .suspendedRestricted := by
  obtain ⟨s, hrun, hlook⟩ := exists_of_play system
    (closedWhenSettled.allows_of_decide fun _ _ => trivial) sampleRefusal
    (idle sampleWorld) (fun s => s.world.closed = [1]) rfl
  have hclosed := of_decide_eq_true hlook
  refine ⟨s, hrun, hclosed, ?_⟩
  refine closed_account_stays_closed ?_ ?_ 0 _ s hrun 1 (by rw [hclosed]; simp)
  · simp [Table.Keyed]
  · simp [Table.Keyed]

/-- The case approved before the closure is completed after it. -/
def sampleReopened : List (Action Choice Event Job) :=
  sampleRequest ++ sampleApproval ++ sampleClosure ++ .spawn 8 (.completeRecovery 1) :: sampleCalls 8 0 0 13

theorem closed_account_reopened : ∃ s, Reachable system Guard.free (idle sampleWorld) s ∧
    s.world.closed = [1] ∧ (s.world.accounts.map fun a => (a.id, a.status)) = [(1, .active)] := by
  obtain ⟨s, hrun, hlook⟩ := exists_of_play system Guard.allows_free sampleReopened (idle sampleWorld)
    (fun s => s.world.closed = [1] ∧ (s.world.accounts.map fun a => (a.id, a.status)) = [(1, .active)]) rfl
  exact ⟨s, hrun, of_decide_eq_true hlook⟩

end AccountLifecycle
