import VistaBlox.ReplacementCooldown

/-!
# The guessing budget of replacement codes

One live code for an account, so many codes in a window, so many wrong guesses for a code.
Each limit is a check in one statement and a write in another, so requests in flight
together exceed all three.
-/
namespace DeviceReplacement

open Interleaving List Option

variable {g : DeviceReplacementCode → DeviceReplacementCode}

section Counts

def unconsumedOf (accountId : AccountId) (w : World) : Nat :=
  w.codes.countP (DeviceReplacementCode.unconsumed accountId)

/-- The live codes of an account. -/
def pendingOf (accountId : AccountId) (w : World) : Nat :=
  w.codes.countP (DeviceReplacementCode.pending accountId w.now)

def createdWithin (accountId : AccountId) (since upto : ℤ) (w : World) : Nat :=
  w.codes.countP fun code => code.accountId = accountId ∧ since ≤ code.createdAt ∧ code.createdAt ≤ upto

variable {w : World} (accountId : AccountId)

theorem pendingOf_le_unconsumedOf : pendingOf accountId w ≤ unconsumedOf accountId w := by
  refine countP_mono_left fun code _ hpending => ?_
  exact (of_decide_eq_true hpending).1

theorem createdWithin_le_countCreatedSince (h : since ≤ x) :
    createdWithin accountId x upto w ≤ countCreatedSince accountId since w := by
  refine countP_mono_left fun code _ hcode => ?_
  simp only [decide_eq_true_eq] at hcode ⊢
  exact ⟨hcode.1, h.trans hcode.2.1⟩

/-- A rewriting of the codes that keeps account and creation, and brings no
consumed code back. -/
structure Rewrites (g : DeviceReplacementCode → DeviceReplacementCode) : Prop where
  accountId : ∀ code, (g code).accountId = code.accountId
  createdAt : ∀ code, (g code).createdAt = code.createdAt
  consumedAt : ∀ code, (g code).consumedAt = none → code.consumedAt = none

theorem Rewrites.codesOf (h : Rewrites g) :
    codesOf accountId { w with codes := w.codes.map g } = codesOf accountId w := by
  simp [DeviceReplacement.codesOf, countP_map, Function.comp_def, h.accountId]

theorem Rewrites.countCreatedSince (h : Rewrites g) (since : ℤ) :
    countCreatedSince accountId since { w with codes := w.codes.map g } = countCreatedSince accountId since w := by
  simp [DeviceReplacement.countCreatedSince, countP_map, Function.comp_def, h.accountId, h.createdAt]

theorem Rewrites.createdWithin (h : Rewrites g) (since upto : ℤ) :
    createdWithin accountId since upto { w with codes := w.codes.map g } = createdWithin accountId since upto w := by
  simp [DeviceReplacement.createdWithin, countP_map, Function.comp_def, h.accountId, h.createdAt]

theorem Rewrites.unconsumedOf (h : Rewrites g) :
    unconsumedOf accountId { w with codes := w.codes.map g } ≤ unconsumedOf accountId w := by
  simp only [DeviceReplacement.unconsumedOf, countP_map]
  refine countP_mono_left fun code _ hcode => ?_
  simp only [Function.comp_apply, DeviceReplacementCode.unconsumed, decide_eq_true_eq] at hcode ⊢
  exact ⟨(h.accountId code).symm.trans hcode.1, h.consumedAt code hcode.2⟩

end Counts

variable {accountId : AccountId} {asOf : Nat} {w w' : World}

section Rules

variable (config : DeviceReplacementConfig)

structure Budget (w : World) : Prop where
  single : ∀ accountId, unconsumedOf accountId w ≤ 1
  rate : ∀ accountId since,
    createdWithin accountId since (since + config.requestWindowMs) w ≤ config.maxRequestsPerWindow
  guesses : ∀ r ∈ w.replacements, r.wrongBefore < config.maxAttempts

/-- Every other count grows by no more than the number of codes does. -/
structure Counted (w w' : World) : Prop where
  now : w.now ≤ w'.now
  codes : ∀ a, codesOf a w ≤ codesOf a w'
  unconsumed : ∀ a, unconsumedOf a w' + codesOf a w ≤ unconsumedOf a w + codesOf a w'
  recent : ∀ a since, countCreatedSince a since w' + codesOf a w ≤ countCreatedSince a since w + codesOf a w'
  wrong : ∀ codeId, wrongComparisons codeId w ≤ wrongComparisons codeId w'

theorem Counted.refl (w : World) : Counted w w :=
  ⟨le_rfl, fun _ => le_rfl, fun _ => le_rfl, fun _ _ => le_rfl, fun _ => le_rfl⟩

/-- The count that a request took still stands, but for codes created since. -/
def Room (accountId : AccountId) (asOf : Nat) (w : World) : Prop :=
  asOf ≤ codesOf accountId w ∧ ∃ now ≤ w.now,
    countCreatedSince accountId (now - config.requestWindowMs) w + asOf < config.maxRequestsPerWindow + codesOf
      accountId w

/-- Only codes created since the count are unconsumed. -/
def Swept (accountId : AccountId) (asOf : Nat) (w : World) : Prop :=
  unconsumedOf accountId w + asOf ≤ codesOf accountId w

theorem Room.counted (h : Counted w w') (hroom : Room config accountId asOf w) : Room config accountId asOf w' := by
  obtain ⟨hle, now, hnow, hlt⟩ := hroom
  have hcodes := h.codes accountId
  have hrecent := h.recent accountId (now - config.requestWindowMs)
  exact ⟨hle.trans hcodes, now, hnow.trans h.now, by omega⟩

theorem Swept.counted (h : Counted w w') (hswept : Swept accountId asOf w) : Swept accountId asOf w' := by
  have hunconsumed := h.unconsumed accountId
  unfold Swept at hswept ⊢
  omega

def budgetRules : Rules World Op where
  inv := Budget config
  rely _ := Counted
  req _ op w := match op with
    | .create accountId _ _ _ asOf => Room config accountId asOf w ∧ Swept accountId asOf w
    | .consumeAndReplace codeId _ _ maxAttempts _ wrongBefore =>
      maxAttempts = config.maxAttempts ∧ wrongBefore ≤ wrongComparisons codeId w
    | _ => True

/-- A request creates its code before anybody else has created one since it
counted, and a code is spent once every wrong guess at it has been counted. -/
def oneAtATime : Guard World Event Op where
  call _ op w := match op with
    | .create accountId _ _ _ asOf => codesOf accountId w = asOf
    | .consumeAndReplace codeId _ _ _ _ _ =>
      ∀ code ∈ w.codes, code.id = codeId → wrongComparisons codeId w ≤ code.attemptsUsed
    | _ => True
  env _ _ := True

end Rules

variable {op : Op}

section Steps

variable {config : DeviceReplacementConfig}

theorem Budget.same (h : Budget config w) (hcodes : w'.codes = w.codes) (hcomparisons : w'.comparisons = w.comparisons)
    (hreplacements : w'.replacements = w.replacements) (hnow : w.now ≤ w'.now) : Budget config w' ∧ Counted w w' := by
  refine ⟨⟨?_, ?_, ?_⟩, hnow, ?_, ?_, ?_, ?_⟩
  · simpa only [unconsumedOf, hcodes] using h.single
  · simpa only [createdWithin, hcodes] using h.rate
  · simpa only [hreplacements] using h.guesses
  · simp [codesOf, hcodes]
  · simp [codesOf, unconsumedOf, hcodes]
  · simp [codesOf, countCreatedSince, hcodes]
  · simp [wrongComparisons, hcomparisons]

theorem Rewrites.keeps (hg : Rewrites g) (h : Budget config w) :
    Budget config { w with codes := w.codes.map g } ∧ Counted w { w with codes := w.codes.map g } := by
  refine ⟨⟨fun a => (hg.unconsumedOf a).trans (h.single a), fun a since => ?_, h.guesses⟩, le_rfl, fun a => ?_,
    fun a => ?_, fun a since => ?_, fun _ => le_rfl⟩
  · rw [hg.createdWithin]
    exact h.rate a since
  · rw [hg.codesOf]
  · rw [hg.codesOf]
    exact Nat.add_le_add_right (hg.unconsumedOf a) _
  · rw [hg.codesOf, hg.countCreatedSince]

theorem rewrites_revoke (accountId : AccountId) (now : ℤ) : Rewrites fun code =>
    if code.unconsumed accountId then { code with consumedAt := some now } else code := by
  refine ⟨fun code => ?_, fun code => ?_, fun code hnone => ?_⟩
  · split <;> rfl
  · split <;> rfl
  · split at hnone
    · cases hnone
    · exact hnone

theorem revokePendingForAccount_swept (accountId : AccountId) (now : ℤ) :
    unconsumedOf accountId (revokePendingForAccount accountId now w) = 0 := by
  refine countP_eq_zero.mpr fun code' hcode' => ?_
  obtain ⟨code, -, rfl⟩ := List.mem_map.mp hcode'
  split
  · simp [DeviceReplacementCode.unconsumed]
  · assumption

theorem rewrites_incrementAttempts : Rewrites fun code =>
    if code.id = codeId ∧ code.consumedAt = none ∧ now < code.expiresAt then
      { code with attemptsUsed := code.attemptsUsed + 1 } else code := by
  refine ⟨fun code => ?_, fun code => ?_, fun code hnone => ?_⟩
  · split <;> rfl
  · split <;> rfl
  · split at hnone <;> exact hnone

theorem rewrites_spend : Rewrites fun code =>
    if code.spendable codeId codeHash now maxAttempts then { code with consumedAt := some now } else code := by
  refine ⟨fun code => ?_, fun code => ?_, fun code hnone => ?_⟩
  · split <;> rfl
  · split <;> rfl
  · split at hnone
    · cases hnone
    · exact hnone

theorem create_budget (h : Budget config w) (hroom : Room config accountId asOf w) (hswept : Swept accountId asOf w)
    (hlast : codesOf accountId w = asOf) (id : CodeId) (sessionId : SessionId) (codeHash : Hash) (expiresAt : ℤ) :
    Budget config (create id accountId sessionId codeHash expiresAt w) ∧
      Counted w (create id accountId sessionId codeHash expiresAt w) := by
  obtain ⟨-, now, hnow, hlt⟩ := hroom
  have hcodes : ∀ a, codesOf a (create id accountId sessionId codeHash expiresAt w) =
      codesOf a w + if accountId = a then 1 else 0 := by
    intro a
    simp [codesOf, create, countP_append, countP_singleton]
  have hunconsumed : ∀ a, unconsumedOf a (create id accountId sessionId codeHash expiresAt w) =
      unconsumedOf a w + if accountId = a then 1 else 0 := by
    intro a
    simp [unconsumedOf, create, countP_append, countP_singleton, DeviceReplacementCode.unconsumed]
  have hrecent : ∀ a since, countCreatedSince a since (create id accountId sessionId codeHash expiresAt w) =
      countCreatedSince a since w + if accountId = a ∧ since ≤ w.now then 1 else 0 := by
    intro a since
    simp [countCreatedSince, create, countP_append, countP_singleton]
  have hwithin : ∀ a x upto, createdWithin a x upto (create id accountId sessionId codeHash expiresAt w) =
      createdWithin a x upto w + if accountId = a ∧ x ≤ w.now ∧ w.now ≤ upto then 1 else 0 := by
    intro a x upto
    simp [createdWithin, create, countP_append, countP_singleton]
  refine ⟨⟨fun a => ?_, fun a x => ?_, h.guesses⟩, le_rfl, fun a => ?_, fun a => ?_, fun a since => ?_, fun _ =>
    le_rfl⟩
  · have hsingle := h.single a
    rw [hunconsumed]
    split
    · rename_i hmine
      subst hmine
      unfold Swept at hswept
      omega
    · exact hsingle
  · have hrate := h.rate a x
    rw [hwithin]
    split
    · rename_i hmine
      obtain ⟨rfl, -, hupto⟩ := hmine
      have hle : createdWithin accountId x (x + config.requestWindowMs) w ≤
          countCreatedSince accountId (now - config.requestWindowMs) w :=
        createdWithin_le_countCreatedSince accountId (by omega)
      omega
    · exact hrate
  · rw [hcodes]
    omega
  · rw [hcodes, hunconsumed]
    omega
  · rw [hcodes, hrecent]
    split
    · rename_i hmine
      rw [if_pos hmine.1]
      omega
    · omega

theorem consumeAndReplace_budget (h : Budget config w) (hbefore : wrongBefore ≤ wrongComparisons codeId w)
    (hcounted : ∀ code ∈ w.codes, code.id = codeId → wrongComparisons codeId w ≤ code.attemptsUsed) :
    Budget config (consumeAndReplace codeId codeHash now config.maxAttempts accountId wrongBefore w).2 ∧
      Counted w (consumeAndReplace codeId codeHash now config.maxAttempts accountId wrongBefore w).2 := by
  unfold consumeAndReplace
  split
  · rename_i hany
    obtain ⟨code, hcode, hspend⟩ := List.any_eq_true.mp hany
    obtain ⟨hid, -, -, -, hattempts⟩ := spendable_iff.mp hspend
    obtain ⟨hbudget, hcount⟩ := rewrites_spend.keeps h
    refine ⟨⟨hbudget.single, hbudget.rate, fun r hr => ?_⟩, hcount.now, hcount.codes, hcount.unconsumed, hcount.recent,
      hcount.wrong⟩
    obtain hr | rfl := Table.mem_add hr
    · exact h.guesses r hr
    · exact (hbefore.trans (hcounted code hcode hid)).trans_lt hattempts
  · exact ⟨h, Counted.refl w⟩

theorem safeCodeEquals_budget (h : Budget config w) :
    Budget config (safeCodeEquals codeId submittedHash codeHash w).2 ∧
      Counted w (safeCodeEquals codeId submittedHash codeHash w).2 := by
  refine ⟨⟨h.single, h.rate, h.guesses⟩, le_rfl, fun _ => le_rfl, fun _ => le_rfl, fun _ _ => le_rfl, fun id => ?_⟩
  simp [wrongComparisons, safeCodeEquals, countP_append]

/-- Every operation keeps codes, requests and guesses within the budget. -/
theorem run_budget (h : Budget config w) (hreq : (budgetRules config).req t op w) (hguard : oneAtATime.call t op w)
    (hrun : op.run c w = some (a, w')) : Budget config w' ∧ Counted w w' := by
  have hread : Budget config w ∧ Counted w w := ⟨h, Counted.refl w⟩
  cases op with
  | create accountId sessionId codeHash expiresAt =>
    simp only [Op.run, ite_none_left_eq_some, some.injEq, Prod.mk.injEq] at hrun
    obtain ⟨-, -, rfl⟩ := hrun
    exact create_budget h hreq.1 hreq.2 hguard c.codeId sessionId codeHash expiresAt
  | revokePendingForAccount accountId now =>
    cases hrun
    exact (rewrites_revoke accountId now).keeps h
  | incrementAttempts =>
    cases hrun
    exact (rewrites_incrementAttempts).keeps h
  | consumeAndReplace =>
    obtain ⟨rfl, hbefore⟩ := hreq
    have hw : _ = w' := congrArg Prod.snd (some.inj hrun)
    rw [← hw]
    exact consumeAndReplace_budget h hbefore hguard
  | safeCodeEquals =>
    cases hrun
    exact safeCodeEquals_budget h
  | refuseForCooldown =>
    cases hrun
    exact h.same rfl rfl rfl le_rfl
  | _ =>
    cases hrun
    exact hread

end Steps

section Programs

variable {config : DeviceReplacementConfig} {hashCode : Code → Hash} {t : Nat}

abbrev BudgetSpec (config : DeviceReplacementConfig) (hashCode : Code → Hash) {α : Type} :=
  Triple (α := α) (system config hashCode) oneAtATime (budgetRules config)

theorem budget_call (hreq : ∀ w, Budget config w → P w → (budgetRules config).req t op w)
    (hpost : ∀ w c a w', Budget config w → P w → Counted w w' → op.run c w = some (a, w') → Q a w')
    (hstable : ∀ a, (budgetRules config).Stable t (Q a)) :
    BudgetSpec config hashCode t P (invoke op) Q := by
  refine triple_perform hreq (fun w c r w' hinv hP hg hexec => ?_) hstable
  obtain ⟨⟨a, w₁⟩, hrun, hr⟩ := map_eq_some_iff.mp hexec
  obtain ⟨hbudget, hcount⟩ := run_budget hinv (hreq w hinv hP) hg hrun
  split at hr
  · cases hr
    refine ⟨hbudget, fun _ _ => hcount, fun a' ha' => ?_⟩
    cases ha'
    exact hpost w c a _ hinv hP hcount hrun
  · rename_i applied _
    cases hr
    cases applied with
    | true => exact ⟨hbudget, fun _ _ => hcount, nofun⟩
    | false => exact ⟨hinv, fun _ _ => Counted.refl w, nofun⟩

theorem budget_plain (hreq : ∀ w, (budgetRules config).req t op w) (hF : ∀ w w', Counted w w' → F w → F w') :
    BudgetSpec config hashCode t F (invoke op) fun _ => F :=
  budget_call (fun w _ _ => hreq w) (fun w _ _ w' _ hw hcount _ => hF w w' hcount hw)
    fun _ w w' _ _ hrely => hF w w' hrely

theorem budget_any (hreq : ∀ w, (budgetRules config).req t op w) :
    BudgetSpec config hashCode t (fun _ => True) (invoke op) fun _ _ => True :=
  budget_plain hreq fun _ _ _ h => h

theorem budget_checkRequestRate :
    BudgetSpec config hashCode t (fun w => now ≤ w.now)
      (checkRequestRate config accountId now) fun asOf => Room config accountId asOf := by
  have hcount : BudgetSpec config hashCode t (fun w => now ≤ w.now)
      (invoke (.countCreatedSince accountId (now - config.requestWindowMs))) fun recentRequests w =>
        recentRequests.1 < config.maxRequestsPerWindow → Room config accountId recentRequests.2 w := by
    refine budget_call (fun _ _ _ => trivial) (fun w c a w' _ hnow _ hrun hlt => ?_)
      fun _ => Rules.Stable.imp_const fun _ w w' _ _ hrely => Room.counted config hrely
    cases hrun
    exact ⟨le_rfl, now, hnow, Nat.add_lt_add_right hlt _⟩
  refine triple_bind hcount fun recentRequests => ?_
  split
  · exact triple_fail
  · rename_i hlt
    exact triple_ret fun _ _ h => h (Nat.lt_of_not_le hlt)

theorem budget_issueCode :
    BudgetSpec config hashCode t (Room config accountId asOf)
      (issueCode config hashCode accountId sessionId now asOf) fun _ _ => True := by
  refine triple_bind (budget_plain (fun _ => trivial) fun _ _ hcount h => h.counted config hcount) fun code => ?_
  have hrevoke : BudgetSpec config hashCode t (Room config accountId asOf)
      (invoke (.revokePendingForAccount accountId now))
      fun _ w => Room config accountId asOf w ∧ Swept accountId asOf w := by
    refine budget_call (fun _ _ _ => trivial) (fun w c a w' _ hroom hcount hrun => ?_)
      fun _ w w' _ _ hrely h => ⟨h.1.counted config hrely, h.2.counted hrely⟩
    have hroom' := hroom.counted config hcount
    cases hrun
    refine ⟨hroom', ?_⟩
    unfold Swept
    rw [revokePendingForAccount_swept, Nat.zero_add]
    exact hroom'.1
  refine triple_bind hrevoke fun _ => ?_
  refine triple_bind (budget_call (fun _ _ h => h) (fun _ _ _ _ _ _ _ _ => trivial)
    fun _ => Rules.stable_const) fun _ => triple_done

theorem budget_requestDeviceReplacement :
    BudgetSpec config hashCode t (fun _ => True)
      (requestDeviceReplacement config hashCode accountId sessionId) fun _ _ => True := by
  have hclock : BudgetSpec config hashCode t (fun _ => True) (invoke .clock)
      fun now w => now ≤ w.now := by
    refine budget_call (fun _ _ _ => trivial) (fun w c now w' _ _ _ hrun => ?_)
      fun now w w' _ _ hrely h => h.trans hrely.now
    cases hrun
    exact le_rfl
  refine triple_bind (triple_replacementTarget (budget_any fun _ => trivial)) fun target => ?_
  split
  · exact triple_bind (budget_any fun _ => trivial) fun now => budget_any fun _ => trivial
  · refine triple_bind hclock fun now => ?_
    refine triple_bind (Q := fun _ w => now ≤ w.now) ?_ fun _ => ?_
    · refine triple_bind (budget_plain (fun _ => trivial) fun w w' hcount h => h.trans hcount.now) fun last => ?_
      split
      · exact triple_ret fun _ _ h => h
      · split
        · refine triple_bind (budget_plain (fun _ => trivial) fun w w' hcount h => h.trans hcount.now)
            fun _ => triple_fail
        · exact triple_ret fun _ _ h => h
    · refine triple_bind budget_checkRequestRate fun asOf => ?_
      refine triple_bind budget_issueCode fun code => ?_
      refine triple_bind (budget_any fun _ => trivial) fun _ => ?_
      exact triple_catch_any (budget_any fun _ => trivial) fun _ => triple_done

theorem budget_verifyDeviceReplacement :
    BudgetSpec config hashCode t (fun _ => True)
      (verifyDeviceReplacement config hashCode accountId sessionId code) fun _ _ => True := by
  refine triple_bind (triple_replacementTarget (budget_any fun _ => trivial)) fun _ => ?_
  refine triple_bind (budget_any fun _ => trivial) fun now => ?_
  refine triple_bind (budget_any fun _ => trivial) fun pending => ?_
  split
  · exact triple_fail
  · split
    · exact triple_fail
    · rename_i pending _
      have hcompare : BudgetSpec config hashCode t (fun _ => True)
          (invoke (.safeCodeEquals pending.id (hashCode code) pending.codeHash))
          fun compared w => compared.2 ≤ wrongComparisons pending.id w := by
        refine budget_call (fun _ _ _ => trivial) (fun w c compared w' _ _ hcount hrun => ?_)
          fun compared w w' _ _ hrely h => h.trans (hrely.wrong _)
        have hwrong := hcount.wrong pending.id
        cases hrun
        exact hwrong
      refine triple_bind hcompare fun compared => ?_
      split
      · refine triple_bind (budget_call (fun _ _ h => ⟨rfl, h⟩) (fun _ _ _ _ _ _ _ _ => trivial)
          fun _ => Rules.stable_const) fun replaced => ?_
        split
        · exact triple_done
        · exact triple_fail
      · refine triple_pre ?_ fun _ _ _ => trivial
        exact triple_bind (budget_any fun _ => trivial) fun _ => triple_fail

end Programs

section Result

variable (config : DeviceReplacementConfig) (hashCode : Code → Hash)

theorem budget_env (h : Budget config w) (henv : env e w = some w') : Budget config w' ∧ Counted w w' := by
  cases e with
  | tick =>
    obtain ⟨hms, hsome⟩ := ite_none_right_eq_some.mp henv
    cases hsome
    exact h.same rfl rfl rfl (le_add_of_nonneg_right hms)
  | enrol =>
    cases henv
    exact h.same rfl rfl rfl le_rfl

/-- No interleaving of requests exceeds the budget. -/
theorem budget_sound : Interleaving.Sound (system config hashCode) oneAtATime (budgetRules config) where
  job t j := by
    cases j with
    | request => exact budget_requestDeviceReplacement
    | verify => exact budget_verifyDeviceReplacement
  env e w w' hinv _ henv := by
    obtain ⟨hbudget, hcount⟩ := budget_env config hinv henv
    exact ⟨hbudget, fun _ => hcount⟩

theorem start_budget (now : ℤ) : Budget config (World.start now) :=
  ⟨fun _ => Nat.zero_le _, fun _ _ => Nat.zero_le _, nofun⟩

/-- The three limits, in every interleaving of requests and verifications that
keeps to the condition. -/
theorem guessing_budget_holds (now : ℤ) (s : Config World Failure Op Op.Out)
    (h : Reachable (system config hashCode) oneAtATime (idle (World.start now)) s) :
    (∀ accountId, pendingOf accountId s.world ≤ 1) ∧
    (∀ accountId since,
      createdWithin accountId since (since + config.requestWindowMs) s.world ≤ config.maxRequestsPerWindow) ∧
    ∀ r ∈ s.world.replacements, r.wrongBefore < config.maxAttempts := by
  have hinv := (h.secure (budget_sound config hashCode) (secure_idle _ (start_budget config now))).1
  exact ⟨fun a => (pendingOf_le_unconsumedOf a).trans (hinv.single a), hinv.rate, hinv.guesses⟩

end Result

instance (t : Nat) (op : Op) (w : World) : Decidable (oneAtATime.call t op w) := by
  induction op using Op.casesOn <;> (dsimp only [oneAtATime]; infer_instance)

/-- A wrong guess is counted before the right one comes. -/
def sampleGuesses : List (Action Choice Event Job) :=
  sampleIssued 0 1 ++ .spawn 1 (.verify 1 1 41) :: sampleCalls 1 0 5 ++ .spawn 2 (.verify 1 1 42) :: sampleCalls 2 0 5

theorem guessing_budget_holds_sample :
    ∃ s, Reachable (system sampleConfig id) oneAtATime (idle (World.start 0)) s ∧
      s.world.replacements = [⟨1, 1, 0, 1⟩] ∧ pendingOf 1 s.world ≤ 1 ∧ createdWithin 1 0 3600000 s.world ≤ 3 ∧
      ∀ r ∈ s.world.replacements, r.wrongBefore < 5 := by
  obtain ⟨s, hrun, hlook⟩ := exists_of_play (system sampleConfig id)
    (oneAtATime.allows_of_decide fun _ _ => trivial)
    sampleGuesses (idle (World.start 0)) (fun s => s.world.replacements = [⟨1, 1, 0, 1⟩]) rfl
  obtain ⟨hsingle, hrate, hguesses⟩ := guessing_budget_holds sampleConfig id 0 s hrun
  exact ⟨s, hrun, of_decide_eq_true hlook, hsingle 1, hrate 1 0, hguesses⟩

/-- One attempt, one request an hour. -/
def sampleStrict : DeviceReplacementConfig := ⟨600000, 1, 86400000, 3600000, 1⟩

/-- Two requests count and revoke before either creates its code. -/
def sampleOverlap : List (Action Choice Event Job) :=
  .spawn 0 (.request 1 1) :: sampleCalls 0 1 6 ++ .spawn 1 (.request 1 1) :: sampleCalls 1 2 6 ++
    sampleCalls 0 1 1 ++ sampleCalls 1 2 1

/-- A right guess comes while a wrong one is compared but not yet counted. -/
def sampleUncounted : List (Action Choice Event Job) :=
  .spawn 2 (.verify 1 1 41) :: sampleCalls 2 0 4 ++ .spawn 3 (.verify 1 1 42) :: sampleCalls 3 0 5

/-- Two live codes where one an hour is the limit, and a replacement after a
wrong guess where one attempt is all there is. -/
theorem guessing_budget_exceeded :
    ∃ m s, Reachable (system sampleStrict id) Guard.free (idle (World.start 0)) m ∧
      Reachable (system sampleStrict id) Guard.free m s ∧
      pendingOf 1 m.world = 2 ∧ createdWithin 1 0 3600000 m.world = 2 ∧ s.world.replacements = [⟨1, 1, 0, 1⟩] := by
  obtain ⟨m, s, hm, hs, hlook⟩ := exists_of_play_play (system sampleStrict id) Guard.allows_free
    sampleOverlap sampleUncounted (idle (World.start 0))
    (fun m s => pendingOf 1 m.world = 2 ∧ createdWithin 1 0 3600000 m.world = 2 ∧
      s.world.replacements = [⟨1, 1, 0, 1⟩]) rfl
  exact ⟨m, s, hm, hs, of_decide_eq_true hlook⟩

end DeviceReplacement
