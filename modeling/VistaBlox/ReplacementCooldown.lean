import VistaBlox.DeviceReplacement
import VistaBlox.Table

/-!
# What the replacement cooldown follows

The cooldown is read off `consumed_at`, which a completed replacement writes, and the
request for a new code too, on every code it supersedes.
-/
namespace DeviceReplacement

open Interleaving List Option

variable {accountId : AccountId} {codeId : CodeId} {g : DeviceReplacementCode → DeviceReplacementCode}
  {w w' : World}

section Rules

variable (config : DeviceReplacementConfig)

def Completed (accountId : AccountId) (completedAt : ℤ) (w : World) : Prop :=
  ∃ r ∈ w.replacements, r.accountId = accountId ∧ r.completedAt = completedAt

/-- A replacement of the code's account was completed with this very code. -/
def Bought (code : DeviceReplacementCode) (completedAt : ℤ) (w : World) : Prop :=
  ∃ r ∈ w.replacements, r.accountId = code.accountId ∧ r.codeId = code.id ∧ r.completedAt = completedAt

/-- The account has a code with this id. -/
def HasCode (codeId : CodeId) (accountId : AccountId) (w : World) : Prop :=
  ∃ code ∈ w.codes, code.id = codeId ∧ code.accountId = accountId

/-- Consumption dates completed replacements only, and so does every refusal. -/
structure Truthful (w : World) : Prop where
  keyed : Table.Keyed DeviceReplacementCode.id w.codes
  consumed : ∀ code ∈ w.codes, ∀ s, code.consumedAt = some s → Bought code s w
  refused : ∀ x ∈ w.cooldownRefusals, ∃ s, Completed x.accountId s w ∧ x.refusedAt - s < config.cooldownMs

/-- No replacement and no code is ever forgotten. -/
structure Grows (w w' : World) : Prop where
  replacements : ∀ r ∈ w.replacements, r ∈ w'.replacements
  codes : ∀ codeId accountId, HasCode codeId accountId w → HasCode codeId accountId w'

theorem Grows.refl (w : World) : Grows w w := ⟨fun _ h => h, fun _ _ h => h⟩

theorem Completed.grows (h : Grows w w') (hc : Completed accountId s w) : Completed accountId s w' := by
  obtain ⟨r, hr, hrest⟩ := hc
  exact ⟨r, h.replacements r hr, hrest⟩

theorem grows_map (hg : ∀ code, (g code).id = code.id ∧ (g code).accountId = code.accountId)
    (h : HasCode codeId accountId w) : ∃ code ∈ w.codes.map g, code.id = codeId ∧ code.accountId = accountId := by
  obtain ⟨code, hcode, hid, haccount⟩ := h
  exact ⟨g code, List.mem_map_of_mem hcode, (hg code).1.trans hid, (hg code).2.trans haccount⟩

def cooldownRules : Rules World Op where
  inv := Truthful config
  rely _ := Grows
  req _ op w := match op with
    | .consumeAndReplace codeId _ _ _ accountId _ => HasCode codeId accountId w
    | .refuseForCooldown accountId now => ∃ s, Completed accountId s w ∧ now - s < config.cooldownMs
    | _ => True

/-- A request supersedes no code, expired or not. -/
def nothingSuperseded : Guard World Event Op where
  call _ op w := match op with
    | .revokePendingForAccount accountId _ => ∀ code ∈ w.codes, code.unconsumed accountId = false
    | _ => True
  env _ _ := True

end Rules

variable {now : ℤ} {op : Op}

section Steps

variable {config : DeviceReplacementConfig}

theorem Truthful.rewrite (h : Truthful config w)
    (hg : ∀ code, (g code).id = code.id ∧ (g code).accountId = code.accountId)
    (hconsumed : ∀ code, (g code).consumedAt = code.consumedAt) :
    Truthful config { w with codes := w.codes.map g } := by
  refine ⟨h.keyed.map fun code _ => (hg code).1, fun code' hcode' s hs => ?_, h.refused⟩
  obtain ⟨code, hcode, rfl⟩ := List.mem_map.mp hcode'
  unfold Bought
  rw [(hg code).1, (hg code).2]
  exact h.consumed code hcode s ((hconsumed code).symm.trans hs)

theorem incrementAttempts_truthful (h : Truthful config w) :
    Truthful config (incrementAttempts codeId now w) ∧ Grows w (incrementAttempts codeId now w) := by
  have hkey : ∀ code : DeviceReplacementCode,
      ((if code.id = codeId ∧ code.consumedAt = none ∧ now < code.expiresAt then
        { code with attemptsUsed := code.attemptsUsed + 1 } else code).id = code.id ∧
      (if code.id = codeId ∧ code.consumedAt = none ∧ now < code.expiresAt then
        { code with attemptsUsed := code.attemptsUsed + 1 } else code).accountId = code.accountId) := by
    intro code
    split <;> exact ⟨rfl, rfl⟩
  refine ⟨h.rewrite hkey fun code => ?_, fun _ hr => hr, fun _ _ => grows_map hkey⟩
  split <;> rfl

theorem revokePendingForAccount_unchanged (hnone : ∀ code ∈ w.codes, code.unconsumed accountId = false) :
    revokePendingForAccount accountId now w = w := by
  have hsame : (w.codes.map fun code =>
      if code.unconsumed accountId then { code with consumedAt := some now } else code) = w.codes := by
    refine (map_congr_left fun code hcode => ?_).trans (List.map_id _)
    simp [hnone code hcode]
  unfold revokePendingForAccount
  rw [hsame]

theorem create_truthful (h : Truthful config w) {id : CodeId} (hfresh : ∀ code ∈ w.codes, code.id ≠ id) :
    Truthful config (create id accountId sessionId codeHash expiresAt w) ∧
      Grows w (create id accountId sessionId codeHash expiresAt w) := by
  refine ⟨⟨h.keyed.append ?_, fun code hcode s hs => ?_, h.refused⟩, fun _ hr => hr, fun codeId account hc => ?_⟩
  · simpa [Table.find] using hfresh
  · obtain hcode | rfl := Table.mem_add hcode
    · exact h.consumed code hcode s hs
    · cases hs
  · obtain ⟨code, hcode, hrest⟩ := hc
    exact ⟨code, mem_append_left _ hcode, hrest⟩

theorem consumeAndReplace_truthful (h : Truthful config w) (hcode : HasCode codeId accountId w) :
    Truthful config (consumeAndReplace codeId codeHash now maxAttempts accountId wrongBefore w).2 ∧
      Grows w (consumeAndReplace codeId codeHash now maxAttempts accountId wrongBefore w).2 := by
  unfold consumeAndReplace
  split
  · have hkey : ∀ code : DeviceReplacementCode,
        ((if code.spendable codeId codeHash now maxAttempts then { code with consumedAt := some now } else code).id =
          code.id ∧
        (if code.spendable codeId codeHash now maxAttempts then
          { code with consumedAt := some now } else code).accountId = code.accountId) := by
      intro code
      split <;> exact ⟨rfl, rfl⟩
    refine ⟨⟨h.keyed.map fun code _ => (hkey code).1, fun code' hcode' s hs => ?_, fun x hx => ?_⟩,
      fun _ hr => mem_append_left _ hr, fun _ _ => grows_map hkey⟩
    · obtain ⟨code, hmem, rfl⟩ := List.mem_map.mp hcode'
      unfold Bought
      rw [(hkey code).1, (hkey code).2]
      split at hs
      · rename_i hspend
        cases hs
        obtain ⟨owned, howned, hid, haccount⟩ := hcode
        have hspent : code.id = codeId := (spendable_iff.mp hspend).1
        have hsame : code = owned := h.keyed.eq_of_key hmem howned (hspent.trans hid.symm)
        exact ⟨_, mem_append_right _ (mem_singleton_self _), (hsame ▸ haccount).symm, hspent.symm, rfl⟩
      · obtain ⟨r, hr, hrest⟩ := h.consumed code hmem s hs
        exact ⟨r, mem_append_left _ hr, hrest⟩
    · obtain ⟨s, ⟨r, hr, hrest⟩, hlt⟩ := h.refused x hx
      exact ⟨s, ⟨r, mem_append_left _ hr, hrest⟩, hlt⟩
  · exact ⟨h, Grows.refl w⟩

theorem refuse_truthful (h : Truthful config w) (hreq : ∃ s, Completed accountId s w ∧ now - s < config.cooldownMs) :
    Truthful config { w with cooldownRefusals := w.cooldownRefusals ++ [⟨accountId, now⟩] } := by
  refine ⟨h.keyed, h.consumed, fun x hx => ?_⟩
  obtain hx | rfl := Table.mem_add hx
  · exact h.refused x hx
  · exact hreq

/-- Every operation keeps the refusals true. -/
theorem run_truthful (h : Truthful config w) (hreq : (cooldownRules config).req t op w)
    (hguard : nothingSuperseded.call t op w) (hrun : op.run c w = some (a, w')) :
    Truthful config w' ∧ Grows w w' := by
  have hread : Truthful config w ∧ Grows w w := ⟨h, Grows.refl w⟩
  cases op with
  | create =>
    simp only [Op.run, ite_none_left_eq_some, some.injEq, Prod.mk.injEq] at hrun
    obtain ⟨hfresh, -, rfl⟩ := hrun
    exact create_truthful h (by simpa using hfresh)
  | revokePendingForAccount =>
    cases hrun
    rw [revokePendingForAccount_unchanged hguard]
    exact hread
  | incrementAttempts =>
    cases hrun
    exact incrementAttempts_truthful h
  | consumeAndReplace =>
    have hw : _ = w' := congrArg Prod.snd (some.inj hrun)
    rw [← hw]
    exact consumeAndReplace_truthful h hreq
  | refuseForCooldown =>
    cases hrun
    exact ⟨refuse_truthful h hreq, fun _ hr => hr, fun _ _ hc => hc⟩
  | safeCodeEquals =>
    cases hrun
    exact ⟨⟨h.keyed, h.consumed, h.refused⟩, fun _ hr => hr, fun _ _ hc => hc⟩
  | _ =>
    cases hrun
    exact hread

end Steps

section Programs

variable {config : DeviceReplacementConfig} {hashCode : Code → Hash} {t : Nat}

abbrev CooldownSpec (config : DeviceReplacementConfig) (hashCode : Code → Hash) {α : Type} :=
  Triple (α := α) (system config hashCode) nothingSuperseded (cooldownRules config)

theorem spec_call (hreq : ∀ w, Truthful config w → P w → (cooldownRules config).req t op w)
    (hpost : ∀ w c a w', Truthful config w → P w → op.run c w = some (a, w') → Q a w')
    (hstable : ∀ a, (cooldownRules config).Stable t (Q a)) :
    CooldownSpec config hashCode t P (invoke op) Q := by
  refine triple_perform hreq (fun w c r w' hinv hP hg hexec => ?_) hstable
  obtain ⟨⟨a, w₁⟩, hrun, hr⟩ := map_eq_some_iff.mp hexec
  obtain ⟨htruthful, hgrows⟩ := run_truthful hinv (hreq w hinv hP) hg hrun
  split at hr
  · cases hr
    refine ⟨htruthful, fun _ _ => hgrows, fun a' ha' => ?_⟩
    cases ha'
    exact hpost w c a _ hinv hP hrun
  · rename_i applied _
    cases hr
    cases applied with
    | true => exact ⟨htruthful, fun _ _ => hgrows, nofun⟩
    | false => exact ⟨hinv, fun _ _ => Grows.refl w, nofun⟩

theorem spec_plain (hreq : ∀ w, (cooldownRules config).req t op w) :
    CooldownSpec config hashCode t (fun _ => True) (invoke op)
      fun _ _ => True :=
  spec_call (fun w _ _ => hreq w) (fun _ _ _ _ _ _ _ => trivial) fun _ => Rules.stable_const

theorem findLastConsumedAt_completed (h : Truthful config w) (hlast : findLastConsumedAt accountId w = some last) :
    Completed accountId last w := by
  have hmem := max?_mem hlast
  obtain ⟨code, hcode, hconsumed⟩ := mem_filterMap.mp hmem
  obtain ⟨hcode, haccount⟩ := mem_filter.mp hcode
  obtain ⟨r, hr, hbuyer, -, hwhen⟩ := h.consumed code hcode last hconsumed
  exact ⟨r, hr, hbuyer.trans (of_decide_eq_true haccount), hwhen⟩

theorem spec_checkCooldown :
    CooldownSpec config hashCode t (fun _ => True)
      (checkCooldown config accountId now) fun _ _ => True := by
  have hlast : CooldownSpec config hashCode t (fun _ => True)
      (invoke (.findLastConsumedAt accountId)) fun last w => ∀ s, last = some s → Completed accountId s w := by
    refine spec_call (fun _ _ _ => trivial) (fun w c last w' hinv _ hrun s hs => ?_)
      fun last w w' _ _ hrely h s hs => (h s hs).grows hrely
    cases hrun
    exact findLastConsumedAt_completed hinv hs
  refine triple_bind hlast fun last => ?_
  split
  · exact triple_done
  · rename_i s
    split
    · rename_i hrecent
      refine triple_bind (spec_call (fun w _ h => ⟨s, h s rfl, hrecent⟩) (fun _ _ _ _ _ _ _ => trivial)
        fun _ => Rules.stable_const) fun _ => triple_fail
    · exact triple_done

theorem spec_issueCode :
    CooldownSpec config hashCode t (fun _ => True)
      (issueCode config hashCode accountId sessionId now asOf) fun _ _ => True := by
  refine triple_bind (spec_plain fun _ => trivial) fun code => ?_
  refine triple_bind (spec_plain fun _ => trivial) fun _ => ?_
  exact triple_bind (spec_plain fun _ => trivial) fun _ => triple_done

theorem spec_requestDeviceReplacement :
    CooldownSpec config hashCode t (fun _ => True)
      (requestDeviceReplacement config hashCode accountId sessionId) fun _ _ => True := by
  refine triple_bind (triple_replacementTarget (spec_plain fun _ => trivial)) fun target => ?_
  split
  · exact triple_bind (spec_plain fun _ => trivial) fun now => spec_plain fun _ => trivial
  · refine triple_bind (spec_plain fun _ => trivial) fun now => ?_
    refine triple_bind spec_checkCooldown fun _ => ?_
    refine triple_bind (Q := fun _ _ => True) ?_ fun asOf => ?_
    · refine triple_bind (spec_plain fun _ => trivial) fun recentRequests => ?_
      split
      · exact triple_fail
      · exact triple_done
    · refine triple_bind spec_issueCode fun code => ?_
      refine triple_bind (spec_plain fun _ => trivial) fun _ => ?_
      exact triple_catch_any (spec_plain fun _ => trivial) fun _ => triple_done

theorem spec_spendCode :
    CooldownSpec config hashCode t (HasCode pending.id accountId)
      (spendCode config hashCode pending accountId code now) fun _ _ => True := by
  have hlast : ∀ w w', Grows w w' → HasCode pending.id accountId w → HasCode pending.id accountId w' :=
    fun _ _ hgrows h => hgrows.codes _ _ h
  have hcompare : CooldownSpec config hashCode t
      (HasCode pending.id accountId) (invoke (.safeCodeEquals pending.id (hashCode code) pending.codeHash))
      fun _ => HasCode pending.id accountId := by
    refine spec_call (fun _ _ _ => trivial) (fun w c a w' _ hw hrun => ?_) fun _ w w' _ _ hrely => hlast w w' hrely
    cases hrun
    exact hw
  refine triple_bind hcompare fun compared => ?_
  split
  · refine triple_bind (spec_call (fun _ _ h => h) (fun _ _ _ _ _ _ _ => trivial)
      fun _ => Rules.stable_const) fun replaced => ?_
    split
    · exact triple_done
    · exact triple_fail
  · refine triple_pre ?_ fun _ _ _ => trivial
    exact triple_bind (spec_plain fun _ => trivial) fun _ => triple_fail

theorem spec_verifyDeviceReplacement :
    CooldownSpec config hashCode t (fun _ => True)
      (verifyDeviceReplacement config hashCode accountId sessionId code) fun _ _ => True := by
  refine triple_bind (triple_replacementTarget (spec_plain fun _ => trivial)) fun _ => ?_
  refine triple_bind (spec_plain fun _ => trivial) fun now => ?_
  have hfind : CooldownSpec config hashCode t (fun _ => True)
      (invoke (.findPendingForAccount accountId now))
      fun pending w => ∀ row, pending = some row → HasCode row.id accountId w := by
    refine spec_call (fun _ _ _ => trivial) (fun w c pending w' _ _ hrun row hrow => ?_)
      fun pending w w' _ _ hrely h row hrow => hrely.codes _ _ (h row hrow)
    cases hrun
    obtain ⟨hmem, hpending⟩ := findPendingForAccount_mem hrow
    exact ⟨row, hmem, rfl, by simp_all [DeviceReplacementCode.pending, DeviceReplacementCode.unconsumed]⟩
  refine triple_bind hfind fun pending => ?_
  split
  · exact triple_fail
  · split
    · exact triple_fail
    · exact triple_pre spec_spendCode fun _ _ h => h _ rfl

end Programs

section Result

variable (config : DeviceReplacementConfig) (hashCode : Code → Hash)

theorem cooldown_env (h : Truthful config w) (henv : env e w = some w') : Truthful config w' ∧ Grows w w' := by
  cases e with
  | tick =>
    obtain ⟨-, hsome⟩ := ite_none_right_eq_some.mp henv
    cases hsome
    exact ⟨⟨h.keyed, h.consumed, h.refused⟩, fun _ hr => hr, fun _ _ hc => hc⟩
  | enrol =>
    cases henv
    exact ⟨⟨h.keyed, h.consumed, h.refused⟩, fun _ hr => hr, fun _ _ hc => hc⟩

/-- The refusals are true however the requests interleave. -/
theorem cooldown_sound : Interleaving.Sound (system config hashCode) nothingSuperseded (cooldownRules config) where
  job t j := by
    cases j with
    | request => exact spec_requestDeviceReplacement
    | verify => exact spec_verifyDeviceReplacement
  env e w w' hinv _ henv := by
    obtain ⟨htruthful, hgrows⟩ := cooldown_env config hinv henv
    exact ⟨htruthful, fun _ => hgrows⟩

theorem start_truthful (now : ℤ) : Truthful config (World.start now) :=
  ⟨nodup_nil, nofun, nofun⟩

/-- Where no code is superseded, a request is refused for the cooldown only
within the cooldown after a replacement of the account that really completed,
and `consumed_at` stands on a code only since it bought one. -/
theorem cooldown_follows_replacements (now : ℤ) (s : Config World Failure Op Op.Out)
    (h : Reachable (system config hashCode) nothingSuperseded (idle (World.start now)) s) :
    (∀ x ∈ s.world.cooldownRefusals, ∃ r ∈ s.world.replacements,
      r.accountId = x.accountId ∧ x.refusedAt - r.completedAt < config.cooldownMs) ∧
    ∀ code ∈ s.world.codes, ∀ consumedAt, code.consumedAt = some consumedAt →
      ∃ r ∈ s.world.replacements, r.accountId = code.accountId ∧ r.codeId = code.id ∧ r.completedAt = consumedAt := by
  have hinv := (h.secure (cooldown_sound config hashCode) (secure_idle _ (start_truthful config now))).1
  refine ⟨fun x hx => ?_, hinv.consumed⟩
  obtain ⟨s, ⟨r, hr, haccount, rfl⟩, hlt⟩ := hinv.refused x hx
  exact ⟨r, hr, haccount, hlt⟩

end Result

instance (t : Nat) (op : Op) (w : World) : Decidable (nothingSuperseded.call t op w) := by
  induction op using Op.casesOn <;> (dsimp only [nothingSuperseded]; infer_instance)

/-- Ten minutes, five attempts, a day between replacements, three requests an hour. -/
def sampleConfig : DeviceReplacementConfig := ⟨600000, 5, 86400000, 3600000, 3⟩

/-- So many calls of one thread, none of which throws; a code created there is
the secret 42 under the given id. -/
def sampleCalls (t id n : Nat) : List (Action Choice Event Job) :=
  List.replicate n (.call t ⟨none, some ⟨some 1, false⟩, 42, id, 0⟩)

/-- Account 1 asks for a code, and gets it. -/
def sampleIssued (t id : Nat) : List (Action Choice Event Job) := .spawn t (.request 1 1) :: sampleCalls t id 9

/-- Account 1 asks for a code, and is refused for the cooldown. -/
def sampleRefused (t : Nat) : List (Action Choice Event Job) := .spawn t (.request 1 1) :: sampleCalls t 0 4

/-- The code is spent after a second, and another one asked for after another. -/
def sampleSpent : List (Action Choice Event Job) :=
  sampleIssued 0 1 ++ .env (.tick 1000) :: .spawn 1 (.verify 1 1 42) :: sampleCalls 1 0 5 ++
    .env (.tick 1000) :: sampleRefused 2

theorem cooldown_follows_replacements_sample :
    ∃ s, Reachable (system sampleConfig id) nothingSuperseded (idle (World.start 0)) s ∧
      s.world.cooldownRefusals = [⟨1, 2000⟩] ∧ ∃ r ∈ s.world.replacements, r.accountId = 1 ∧
        2000 - r.completedAt < 86400000 := by
  obtain ⟨s, hrun, hlook⟩ := exists_of_play (system sampleConfig id)
    (nothingSuperseded.allows_of_decide fun _ _ => trivial)
    sampleSpent (idle (World.start 0)) (fun s => s.world.cooldownRefusals = [⟨1, 2000⟩]) rfl
  have hrefused := of_decide_eq_true hlook
  refine ⟨s, hrun, hrefused, ?_⟩
  exact (cooldown_follows_replacements sampleConfig id 0 s hrun).1 ⟨1, 2000⟩ (by rw [hrefused]; simp)

/-- Three requests, a second apart. -/
def sampleResent : List (Action Choice Event Job) :=
  sampleIssued 0 1 ++ .env (.tick 1000) :: sampleIssued 1 2 ++ .env (.tick 1000) :: sampleRefused 2

/-- The third request is refused for the cooldown of a replacement that never
took place: the second one has put the date of its own on the first code. -/
theorem refused_without_replacement :
    ∃ s, Reachable (system sampleConfig id) Guard.free (idle (World.start 0)) s ∧
      s.world.cooldownRefusals = [⟨1, 2000⟩] ∧ s.world.replacements = [] := by
  obtain ⟨s, hrun, hlook⟩ := exists_of_play (system sampleConfig id) Guard.allows_free
    sampleResent (idle (World.start 0))
    (fun s => s.world.cooldownRefusals = [⟨1, 2000⟩] ∧ s.world.replacements = []) rfl
  exact ⟨s, hrun, of_decide_eq_true hlook⟩

end DeviceReplacement
