import VistaBlox.ClosedAccounts

/-!
# Recovery and the lost phone

Completing a recovery revokes the devices, ends the sessions and only then makes the account
active. A login that found its device before the revocation can insert its session after the
completion.
-/
namespace AccountLifecycle

open Interleaving List Option
open DpopBinding (AccountStatus)
open DeviceEnrolment (MobilePlatform)

def CaseOf (caseId : CaseId) (accountId : AccountId) (w : World) : Prop :=
  ∃ c ∈ w.cases, c.id = caseId ∧ c.accountId = accountId

/-- The user's device with this id and key. -/
def DeviceOf (deviceId : DeviceId) (userId : UserId) (dpopJkt : Jkt) (w : World) : Prop :=
  ∃ d ∈ w.devices, d.deviceId = deviceId ∧ d.betterAuthUserId = userId ∧ d.dpopJkt = dpopJkt

def NotStaff (accountId : AccountId) (w : World) : Prop :=
  ∀ a ∈ w.accounts, a.id = accountId → a.isStaff = false

def NoActiveDevice (accountId : AccountId) (w : World) : Prop :=
  ∀ d ∈ w.devices, d.accountId = accountId → d.active = false

/-- No session comes from a device of the account. -/
def NoDeviceSession (accountId : AccountId) (w : World) : Prop :=
  ∀ s ∈ w.sessions, ∀ d ∈ w.devices, d.accountId = accountId → s.device ≠ some d.deviceId

/-- No device of the account is a way in. -/
def Shut (accountId : AccountId) (w : World) : Prop := NoActiveDevice accountId w ∧ NoDeviceSession accountId w

def Retired (deviceId : DeviceId) (w : World) : Prop := ∃ d ∈ w.devices, d.deviceId = deviceId ∧ d.active = false

/-- What no step takes back. -/
structure Ends (w w' : World) : Prop where
  owners : w'.owners = w.owners
  caseOf : ∀ caseId accountId, CaseOf caseId accountId w → CaseOf caseId accountId w'
  deviceOf : ∀ deviceId userId dpopJkt, DeviceOf deviceId userId dpopJkt w → DeviceOf deviceId userId dpopJkt w'
  notStaff : ∀ accountId, NotStaff accountId w → NotStaff accountId w'
  noActive : ∀ accountId, NoActiveDevice accountId w → NoActiveDevice accountId w'
  shut : ∀ accountId, Shut accountId w → Shut accountId w'
  retired : ∀ deviceId, Retired deviceId w → Retired deviceId w' ∧ w'.logins.count deviceId = w.logins.count deviceId

theorem Ends.refl (w : World) : Ends w w :=
  ⟨rfl, fun _ _ h => h, fun _ _ _ h => h, fun _ h => h, fun _ h => h, fun _ h => h, fun _ h => ⟨h, rfl⟩⟩

/-- How the tables hang together, and that a completed recovery has shut the
account. -/
structure Access (w : World) : Prop where
  owners : (w.owners.map Prod.fst).Nodup
  devices : Table.Keyed Device.deviceId w.devices
  cases : Table.Keyed RecoveryCase.id w.cases
  linked : ∀ d ∈ w.devices, Owns d.accountId d.betterAuthUserId w
  sessions : ∀ s ∈ w.sessions, ∀ id, s.device = some id → ∃ d ∈ w.devices, d.deviceId = id ∧
    d.betterAuthUserId = s.userId
  revoked : ∀ v ∈ w.revocations, ∃ d ∈ w.devices, d.deviceId = v.deviceId ∧ d.active = false ∧
    CaseOf v.caseId d.accountId w
  customers : ∀ c ∈ w.cases, NotStaff c.accountId w
  completed : ∀ c ∈ w.cases, c.status = .completed → Shut c.accountId w

def recoveryRules : Rules World Op where
  inv := Access
  rely _ := Ends
  req _ op w := match op with
    | .openCase accountId _ => NotStaff accountId w
    | .revokeDevicesForRecovery caseId accountId => CaseOf caseId accountId w
    | .completeCase caseId _ => ∃ accountId, CaseOf caseId accountId w ∧ Shut accountId w
    | .insertSession userId dpopJkt device => DeviceOf device userId dpopJkt w
    | _ => True

/-- A login inserts its session while its device is still active. -/
def whileActive : Guard World Event Op where
  call _ op w := match op with
    | .insertSession _ _ device => ∀ d ∈ w.devices, d.deviceId = device → d.active = true
    | _ => True
  env _ _ := True

variable {accountId : AccountId} {c : Choice} {caseId : CaseId} {d d' : Device} {op : Op} {userId : UserId}

section Steps

variable {w w' : World}

/-- A device is rewritten with its identity, and never made active. -/
structure Keeps (d d' : Device) : Prop where
  deviceId : d'.deviceId = d.deviceId
  accountId : d'.accountId = d.accountId
  betterAuthUserId : d'.betterAuthUserId = d.betterAuthUserId
  dpopJkt : d'.dpopJkt = d.dpopJkt
  active : d'.active = true → d.active = true

theorem Keeps.refl (d : Device) : Keeps d d := ⟨rfl, rfl, rfl, rfl, fun h => h⟩

theorem Keeps.inactive (h : Keeps d d') (hd : d.active = false) : d'.active = false := by
  by_contra hactive
  rw [h.active (by simpa using hactive)] at hd
  cases hd

/-- A step that makes nothing active and adds no session of a device. -/
structure Mild (w w' : World) : Prop where
  owners : w'.owners = w.owners
  devices : ∃ g, w'.devices = w.devices.map g ∧ ∀ d ∈ w.devices, Keeps d (g d)
  sessions : ∀ s ∈ w'.sessions, s ∈ w.sessions ∨ s.device = none
  logins : w'.logins = w.logins
  staff : ∀ accountId, NotStaff accountId w → NotStaff accountId w'

theorem Mild.back (h : Mild w w') (hd' : d' ∈ w'.devices) : ∃ d ∈ w.devices, Keeps d d' := by
  obtain ⟨g, hg, hkeeps⟩ := h.devices
  rw [hg] at hd'
  obtain ⟨d, hd, rfl⟩ := List.mem_map.mp hd'
  exact ⟨d, hd, hkeeps d hd⟩

theorem Mild.forth (h : Mild w w') (hd : d ∈ w.devices) : ∃ d' ∈ w'.devices, Keeps d d' := by
  obtain ⟨g, hg, hkeeps⟩ := h.devices
  rw [hg]
  exact ⟨g d, List.mem_map_of_mem hd, hkeeps d hd⟩

theorem Mild.noActive (h : Mild w w') (hnone : NoActiveDevice accountId w) : NoActiveDevice accountId w' := by
  intro d' hd' hmine
  obtain ⟨d, hd, hkeeps⟩ := h.back hd'
  exact hkeeps.inactive (hnone d hd (hkeeps.accountId.symm.trans hmine))

theorem Mild.noDeviceSession (h : Mild w w') (hnone : NoDeviceSession accountId w) :
    NoDeviceSession accountId w' := by
  intro s hs d' hd' hmine
  obtain ⟨d, hd, hkeeps⟩ := h.back hd'
  obtain hs | hother := h.sessions s hs
  · rw [hkeeps.deviceId]
    exact hnone s hs d hd (hkeeps.accountId.symm.trans hmine)
  · simp [hother]

theorem Mild.shut (h : Mild w w') (hshut : Shut accountId w) : Shut accountId w' :=
  ⟨h.noActive hshut.1, h.noDeviceSession hshut.2⟩

theorem Mild.ends (h : Mild w w')
    (hcases : ∀ caseId accountId, CaseOf caseId accountId w → CaseOf caseId accountId w') :
    Ends w w' := by
  refine ⟨h.owners, hcases, ?_, h.staff, fun _ => h.noActive, fun _ => h.shut, ?_⟩
  · rintro deviceId userId dpopJkt ⟨d, hd, hid, huser, hjkt⟩
    obtain ⟨d', hd', hkeeps⟩ := h.forth hd
    exact ⟨d', hd', hkeeps.deviceId.trans hid, hkeeps.betterAuthUserId.trans huser, hkeeps.dpopJkt.trans hjkt⟩
  · rintro deviceId ⟨d, hd, hid, hinactive⟩
    obtain ⟨d', hd', hkeeps⟩ := h.forth hd
    exact ⟨⟨d', hd', hkeeps.deviceId.trans hid, hkeeps.inactive hinactive⟩, by rw [h.logins]⟩

theorem Access.mild (h : Access w) (hmild : Mild w w') (hkeyed : Table.Keyed RecoveryCase.id w'.cases)
    (hcaseOf : ∀ caseId accountId, CaseOf caseId accountId w → CaseOf caseId accountId w')
    (hcases : ∀ c' ∈ w'.cases, NotStaff c'.accountId w ∧ (c'.status = .completed → Shut c'.accountId w))
    (hrevocations : ∀ v ∈ w'.revocations, v ∈ w.revocations ∨
      ∃ d ∈ w'.devices, d.deviceId = v.deviceId ∧ d.active = false ∧ CaseOf v.caseId d.accountId w) :
    Access w' ∧ Ends w w' := by
  refine ⟨⟨hmild.owners ▸ h.owners, ?_, hkeyed, fun d' hd' => ?_, fun s hs id hid => ?_, fun v hv => ?_,
    fun c' hc' => hmild.staff _ (hcases c' hc').1, fun c' hc' hdone => hmild.shut ((hcases c' hc').2 hdone)⟩,
    hmild.ends hcaseOf⟩
  · obtain ⟨g, hg, hkeeps⟩ := hmild.devices
    rw [hg]
    exact h.devices.map fun d hd => (hkeeps d hd).deviceId
  · obtain ⟨d, hd, hkeeps⟩ := hmild.back hd'
    rw [hkeeps.accountId, hkeeps.betterAuthUserId, Owns, hmild.owners]
    exact h.linked d hd
  · obtain hs | hother := hmild.sessions s hs
    · obtain ⟨d, hd, hdevice, huser⟩ := h.sessions s hs id hid
      obtain ⟨d', hd', hkeeps⟩ := hmild.forth hd
      exact ⟨d', hd', hkeeps.deviceId.trans hdevice, hkeeps.betterAuthUserId.trans huser⟩
    · rw [hother] at hid
      cases hid
  · obtain hv | ⟨d', hd', hid, hinactive, hcase⟩ := hrevocations v hv
    · obtain ⟨d, hd, hid, hinactive, hcase⟩ := h.revoked v hv
      obtain ⟨d', hd', hkeeps⟩ := hmild.forth hd
      refine ⟨d', hd', hkeeps.deviceId.trans hid, hkeeps.inactive hinactive, ?_⟩
      rw [hkeeps.accountId]
      exact hcaseOf _ _ hcase
    · exact ⟨d', hd', hid, hinactive, hcaseOf _ _ hcase⟩

theorem Access.rest (h : Access w) (hmild : Mild w w') (hcases : w'.cases = w.cases)
    (hrevocations : w'.revocations = w.revocations) : Access w' ∧ Ends w w' := by
  refine h.mild hmild (hcases ▸ h.cases) ?_ ?_ fun v hv => .inl (hrevocations ▸ hv)
  · simp only [CaseOf, hcases]
    exact fun _ _ hcase => hcase
  · rw [hcases]
    exact fun c hc => ⟨h.customers c hc, h.completed c hc⟩

theorem same_devices : ∃ g : Device → Device, w.devices = w.devices.map g ∧ ∀ d ∈ w.devices, Keeps d (g d) :=
  ⟨id, (List.map_id _).symm, fun d _ => Keeps.refl d⟩

theorem Mild.refl_of (haccounts : w'.accounts = w.accounts) (hdevices : w'.devices = w.devices)
    (hsessions : w'.sessions = w.sessions) (hlogins : w'.logins = w.logins) : Mild w w' where
  owners := by simp only [World.owners, haccounts]
  devices := hdevices ▸ same_devices
  sessions s hs := .inl (hsessions ▸ hs)
  logins := hlogins
  staff accountId hstaff := by simpa only [NotStaff, haccounts] using hstaff

theorem Mild.of_accounts
    (hg : ∀ a, (g a).id = a.id ∧ (g a).betterAuthUserId = a.betterAuthUserId ∧
      ((g a).isStaff = true → a.isStaff = true))
    (haccounts : w'.accounts = w.accounts.map g) (hdevices : w'.devices = w.devices)
    (hsessions : w'.sessions = w.sessions) (hlogins : w'.logins = w.logins) : Mild w w' where
  owners := by simp only [World.owners, haccounts, List.map_map, Function.comp_def, hg]
  devices := hdevices ▸ same_devices
  sessions s hs := .inl (hsessions ▸ hs)
  logins := hlogins
  staff accountId hstaff := by
    intro a' ha' hid
    rw [haccounts] at ha'
    obtain ⟨a, ha, rfl⟩ := List.mem_map.mp ha'
    have hnot := hstaff a ha ((hg a).1.symm.trans hid)
    by_contra hrole
    rw [(hg a).2.2 (by simpa using hrole)] at hnot
    cases hnot

theorem setStatus_mild (accountId : AccountId) (status : AccountStatus) (a : Account) :
    (if a.id = accountId then { a with status } else a).id = a.id ∧
      (if a.id = accountId then { a with status } else a).betterAuthUserId = a.betterAuthUserId ∧
      ((if a.id = accountId then { a with status } else a).isStaff = true → a.isStaff = true) := by
  split <;> exact ⟨rfl, rfl, fun h => h⟩

theorem Access.fewer (h : Access w) (keep : AuthSession → Bool) :
    Access { w with sessions := w.sessions.filter keep } ∧ Ends w { w with sessions := w.sessions.filter keep } :=
  h.rest ⟨rfl, same_devices, fun _ hs => .inl (mem_of_mem_filter hs), rfl, fun _ hstaff => hstaff⟩ rfl rfl

theorem decide_access (h : Access w) :
    Access (decide requestId reviewer decision note decidedAt w).2 ∧
      Ends w (decide requestId reviewer decision note decidedAt w).2 := by
  unfold decide
  split
  · exact ⟨h, Ends.refl w⟩
  · rename_i request _
    cases decision with
    | rejected => exact h.rest (Mild.refl_of rfl rfl rfl rfl) rfl rfl
    | approved =>
      exact h.rest (Mild.of_accounts (setStatus_mild request.accountId .suspendedRestricted) rfl rfl rfl rfl) rfl rfl

theorem completeOffboarding_access (h : Access w) :
    Access (completeOffboarding accountId w) ∧ Ends w (completeOffboarding accountId w) := by
  refine h.rest (Mild.of_accounts (fun a => ?_) rfl rfl rfl rfl) rfl rfl
  split
  · exact ⟨rfl, rfl, nofun⟩
  · exact ⟨rfl, rfl, fun hstaff => hstaff⟩

theorem openCase_access (h : Access w) {id : CaseId} (hfresh : ∀ c ∈ w.cases, c.id ≠ id)
    (hcustomer : NotStaff accountId w) :
    Access (openCase id accountId openedAt w).2 ∧ Ends w (openCase id accountId openedAt w).2 := by
  refine h.mild (Mild.of_accounts (setStatus_mild accountId .recoveryReview) rfl rfl rfl rfl)
    (h.cases.append (by simpa [Table.find] using hfresh)) ?_ (fun c hc => ?_) fun v hv => .inl hv
  · rintro caseId account ⟨c, hc, hrest⟩
    exact ⟨c, mem_append_left _ hc, hrest⟩
  · obtain hc | rfl := Table.mem_add hc
    · exact ⟨h.customers c hc, h.completed c hc⟩
    · refine ⟨hcustomer, fun hstatus => ?_⟩
      cases hstatus

theorem Access.rewrite (h : Access w) {rows : RecoveryCase → Bool} {set : RecoveryCase → RecoveryCase}
    (hcases : w'.cases = rewriteCases rows set w.cases) (hmild : Mild w w')
    (hrevocations : w'.revocations = w.revocations)
    (hset : ∀ c ∈ w.cases, (set c).id = c.id ∧ (set c).accountId = c.accountId ∧
      (rows c = true → (set c).status = .completed → Shut c.accountId w)) :
    Access w' ∧ Ends w w' := by
  refine h.mild hmild ?_ ?_ (fun c' hc' => ?_) fun v hv => .inl (hrevocations ▸ hv)
  · rw [hcases]
    refine h.cases.map fun c hc => ?_
    split
    · exact (hset c hc).1
    · rfl
  · rintro caseId accountId ⟨c, hc, hid, haccount⟩
    refine ⟨if rows c then set c else c, hcases ▸ List.mem_map.mpr ⟨c, hc, rfl⟩, ?_⟩
    split
    · exact ⟨(hset c hc).1.trans hid, (hset c hc).2.1.trans haccount⟩
    · exact ⟨hid, haccount⟩
  · rw [hcases] at hc'
    obtain ⟨c, hc, rfl⟩ := List.mem_map.mp hc'
    split
    · rename_i hrow
      obtain ⟨-, haccount, hdone⟩ := hset c hc
      rw [haccount]
      exact ⟨h.customers c hc, hdone hrow⟩
    · exact ⟨h.customers c hc, h.completed c hc⟩

theorem recordDiditSession_access (h : Access w) :
    Access (recordDiditSession caseId diditReference w).2 ∧ Ends w (recordDiditSession caseId diditReference w).2 := by
  unfold recordDiditSession
  split
  · exact ⟨h, Ends.refl w⟩
  · exact h.rewrite rfl (Mild.refl_of rfl rfl rfl rfl) rfl fun c hc => ⟨rfl, rfl, fun _ => h.completed c hc⟩

theorem recordPrimaryReview_access (h : Access w) :
    Access (recordPrimaryReview caseId reviewer w).2 ∧ Ends w (recordPrimaryReview caseId reviewer w).2 := by
  unfold recordPrimaryReview
  split
  · exact ⟨h, Ends.refl w⟩
  · exact h.rewrite rfl (Mild.refl_of rfl rfl rfl rfl) rfl fun c hc => ⟨rfl, rfl, fun _ => h.completed c hc⟩

theorem decideCase_access (h : Access w) : Access (decideCase caseId reviewer decision decidedAt w).2 ∧
      Ends w (decideCase caseId reviewer decision decidedAt w).2 := by
  unfold decideCase
  split
  · exact ⟨h, Ends.refl w⟩
  · refine h.rewrite rfl (Mild.refl_of rfl rfl rfl rfl) rfl fun c _ => ⟨rfl, rfl, fun _ hdone => ?_⟩
    cases decision <;> cases hdone

theorem completeCase_access (h : Access w) (hcase : CaseOf caseId accountId w) (hshut : Shut accountId w) :
    Access (completeCase caseId cooldownEndsAt w).2 ∧ Ends w (completeCase caseId cooldownEndsAt w).2 := by
  unfold completeCase
  split
  · exact ⟨h, Ends.refl w⟩
  · rename_i c₀ _
    refine h.rewrite rfl (Mild.of_accounts (setStatus_mild c₀.accountId .active) rfl rfl rfl rfl) rfl
      fun c hc => ⟨rfl, rfl, fun hrow _ => ?_⟩
    obtain ⟨c₁, hc₁, hid, rfl⟩ := hcase
    have hsame : c = c₁ := h.cases.eq_of_key hc hc₁ ((isApproved_iff.mp hrow).1.trans hid.symm)
    rwa [hsame]

theorem revoke_keeps (accountId : AccountId) (d : Device) :
    Keeps d (if d.accountId = accountId ∧ d.active then { d with active := false } else d) := by
  split
  · exact ⟨rfl, rfl, rfl, rfl, nofun⟩
  · exact Keeps.refl d

theorem revokeDevicesForRecovery_access (h : Access w) (hcase : CaseOf caseId accountId w) :
    Access (revokeDevicesForRecovery caseId accountId w).2 ∧
      Ends w (revokeDevicesForRecovery caseId accountId w).2 := by
  refine h.mild ⟨rfl, ⟨_, rfl, fun d _ => revoke_keeps accountId d⟩, fun _ hs => .inl hs, rfl, fun _ hstaff => hstaff⟩
    h.cases (fun _ _ hc => hc) (fun c hc => ⟨h.customers c hc, h.completed c hc⟩) fun v hv => ?_
  obtain hv | hv := mem_append.mp hv
  · exact .inl hv
  · obtain ⟨id, hid, rfl⟩ := List.mem_map.mp hv
    obtain ⟨d, hd, rfl⟩ := List.mem_map.mp hid
    obtain ⟨hd, hactive⟩ := mem_filter.mp hd
    have hactive := of_decide_eq_true hactive
    refine .inr ⟨_, List.mem_map.mpr ⟨d, hd, if_pos hactive⟩, rfl, rfl, ?_⟩
    rw [hactive.1]
    exact hcase

theorem revokeDevicesForRecovery_noActive :
    NoActiveDevice accountId (revokeDevicesForRecovery caseId accountId w).2 := by
  intro d' hd' hmine
  obtain ⟨d, -, rfl⟩ := List.mem_map.mp hd'
  split
  · rfl
  · rename_i hnot
    rw [if_neg hnot] at hmine
    simpa [hmine] using hnot

theorem touchLastSeen_access (h : Access w) (deviceId : DeviceId) (lastSeenAt : ℤ) :
    Access { w with devices := w.devices.map fun d =>
        if d.deviceId = deviceId then { d with lastSeenAt := some lastSeenAt } else d } ∧
      Ends w { w with devices := w.devices.map fun d =>
        if d.deviceId = deviceId then { d with lastSeenAt := some lastSeenAt } else d } := by
  refine h.rest ⟨rfl, ⟨_, rfl, fun d _ => ?_⟩, fun _ hs => .inl hs, rfl, fun _ hstaff => hstaff⟩ rfl rfl
  split
  · exact ⟨rfl, rfl, rfl, rfl, fun hactive => hactive⟩
  · exact Keeps.refl d

/-- The session of an active device is none of a shut account's, nor of a retired
device. -/
theorem insertSession_access (h : Access w) {id : SessionId} {dpopJkt : Jkt} {device : DeviceId}
    (hdevice : DeviceOf device userId dpopJkt w) (hactive : ∀ d ∈ w.devices, d.deviceId = device → d.active = true) :
    Access { w with
        sessions := w.sessions ++ [deviceSession id userId dpopJkt device w.now], logins := w.logins ++ [device] } ∧
      Ends w { w with
        sessions := w.sessions ++ [deviceSession id userId dpopJkt device w.now], logins :=
          w.logins ++ [device] } := by
  have hshut : ∀ accountId, Shut accountId w → Shut accountId { w with
      sessions := w.sessions ++ [deviceSession id userId dpopJkt device w.now], logins := w.logins ++ [device] } := by
    rintro accountId ⟨hnone, hsessions⟩
    refine ⟨hnone, fun s hs d hd hmine => ?_⟩
    obtain hs | rfl := Table.mem_add hs
    · exact hsessions s hs d hd hmine
    · intro hsame
      have hlive := hactive d hd (some.inj hsame).symm
      rw [hnone d hd hmine] at hlive
      cases hlive
  refine ⟨⟨h.owners, h.devices, h.cases, h.linked, fun s hs session hsession => ?_, h.revoked, h.customers,
    fun c hc hdone => hshut _ (h.completed c hc hdone)⟩, rfl, fun _ _ hc => hc, fun _ _ _ hd => hd, fun _ hs => hs,
    fun _ hn => hn, hshut, ?_⟩
  · obtain hs | rfl := Table.mem_add hs
    · exact h.sessions s hs session hsession
    · cases hsession
      obtain ⟨d, hd, hid, huser, -⟩ := hdevice
      exact ⟨d, hd, hid, huser⟩
  · rintro deviceId ⟨d, hd, hid, hinactive⟩
    refine ⟨⟨d, hd, hid, hinactive⟩, ?_⟩
    have hother : device ≠ deviceId := by
      rintro rfl
      rw [hactive d hd hid] at hinactive
      cases hinactive
    simp [hother]

/-- Every operation keeps the accesses in order, and ended ones ended. -/
theorem run_access (h : Access w) (hreq : recoveryRules.req t op w) (hguard : whileActive.call t op w)
    (hrun : op.run c w = some (a, w')) : Access w' ∧ Ends w w' := by
  cases op with
  | decide =>
    rw [run_world hrun]
    exact decide_access h
  | completeOffboarding =>
    cases hrun
    exact completeOffboarding_access h
  | openCase =>
    simp only [Op.run, ite_none_left_eq_some, some.injEq] at hrun
    have hw : _ = w' := congrArg Prod.snd hrun.2
    rw [← hw]
    exact openCase_access h (by simpa using hrun.1) hreq
  | recordDiditSession =>
    rw [run_world hrun]
    exact recordDiditSession_access h
  | recordPrimaryReview =>
    rw [run_world hrun]
    exact recordPrimaryReview_access h
  | decideCase =>
    rw [run_world hrun]
    exact decideCase_access h
  | completeCase =>
    obtain ⟨accountId, hcase, hshut⟩ := hreq
    rw [run_world hrun]
    exact completeCase_access h hcase hshut
  | revokeDevicesForRecovery =>
    cases hrun
    exact revokeDevicesForRecovery_access h hreq
  | touchLastSeen deviceId lastSeenAt =>
    cases hrun
    exact touchLastSeen_access h deviceId lastSeenAt
  | insertSession =>
    simp only [Op.run, ite_none_left_eq_some, some.injEq, Prod.mk.injEq] at hrun
    obtain ⟨-, -, rfl⟩ := hrun
    exact insertSession_access h hreq hguard
  | deleteUserSessions | deleteSession =>
    cases hrun
    exact h.fewer _
  | cancel =>
    rw [run_world hrun]
    simp only [cancel]
    split
    · exact ⟨h, Ends.refl w⟩
    · exact h.rest (Mild.refl_of rfl rfl rfl rfl) rfl rfl
  | createRequest =>
    simp only [Op.run, ite_none_left_eq_some, some.injEq, Prod.mk.injEq] at hrun
    obtain ⟨-, -, rfl⟩ := hrun
    exact h.rest (Mild.refl_of rfl rfl rfl rfl) rfl rfl
  | _ =>
    cases hrun
    exact h.rest (Mild.refl_of rfl rfl rfl rfl) rfl rfl

end Steps

variable {F : World → Prop} {a : Account} {w w' : World}

section Programs

variable {t : Nat}

theorem step_access (h : Access w) (hreq : recoveryRules.req t op w) (hguard : whileActive.call t op w)
    (hexec : system.exec t op c w = some (r, w')) : Access w' ∧ Ends w w' := by
  obtain ⟨a, w₁, hrun, ⟨-, rfl⟩ | ⟨-, rfl | rfl⟩⟩ := exec_inv hexec
  · exact run_access h hreq hguard hrun
  · exact run_access h hreq hguard hrun
  · exact ⟨h, Ends.refl w'⟩

/-- A fact that no step takes back. -/
def Kept (F : World → Prop) : Prop := ∀ w w', Ends w w' → F w → F w'

theorem Kept.and (hF : Kept F) (hG : Kept G) : Kept fun w => F w ∧ G w :=
  fun w w' h hw => ⟨hF w w' h hw.1, hG w w' h hw.2⟩

theorem kept_owns (accountId : AccountId) (userId : UserId) : Kept (Owns accountId userId) :=
  fun _ w' h howns => (show _ ∈ w'.owners from h.owners ▸ howns)

theorem kept_caseOf (caseId : CaseId) (accountId : AccountId) : Kept (CaseOf caseId accountId) :=
  fun _ _ h => h.caseOf caseId accountId

theorem kept_deviceOf (deviceId : DeviceId) (userId : UserId) (dpopJkt : Jkt) :
    Kept (DeviceOf deviceId userId dpopJkt) :=
  fun _ _ h => h.deviceOf deviceId userId dpopJkt

theorem kept_notStaff : Kept (NotStaff accountId) := fun _ _ h => h.notStaff accountId

theorem kept_noActive (accountId : AccountId) : Kept (NoActiveDevice accountId) := fun _ _ h => h.noActive accountId

theorem kept_shut : Kept (Shut accountId) := fun _ _ h => h.shut accountId

theorem kept_true : Kept fun _ => True := fun _ _ _ h => h

theorem recovery_req_plain (hkind : op.kind = .plain ∨ op.kind = .offboarding) : recoveryRules.req t op w := by
  cases op with
  | openCase | revokeDevicesForRecovery | completeCase
  | insertSession => exact absurd hkind (by simp [Op.kind])
  | _ => trivial

abbrev RecoverySpec {α : Type} := Triple (α := α) system whileActive recoveryRules

theorem recovery_quiet (hp : p.Calls (Op.within k)) (hk : k = .plain ∨ k = .offboarding) (hF : Kept F) :
    RecoverySpec t F p fun _ => F := by
  have hreq : ∀ op w, Op.within k op → Access w → recoveryRules.req t op w := by
    rintro op w (hkind | hkind) -
    · exact recovery_req_plain (.inl hkind)
    · exact recovery_req_plain (hkind ▸ hk)
  have hcalls : RecoverySpec t (fun _ => True) p fun _ _ => True := by
    refine triple_calls hreq (fun op c w r w' hop hw hg hexec => ?_) hp
    obtain ⟨haccess, hends⟩ := step_access hw (hreq op w hop hw) hg hexec
    exact ⟨haccess, fun _ _ => hends⟩
  have hframe := triple_frame (F := F) (fun u w w' _ _ hrely h => hF w w' hrely h) hcalls
  exact triple_post (triple_pre hframe fun _ _ h => ⟨h, trivial⟩) fun _ _ _ h => h.1

theorem recovery_call (hreq : ∀ w, Access w → P w → recoveryRules.req t op w)
    (hpost : ∀ w c a w', Access w → P w → Ends w w' → op.run c w = some (a, w') → Q a w') (hQ : ∀ a, Kept (Q a)) :
    RecoverySpec t P (invoke op) Q := by
  refine triple_perform hreq (fun w c r w' hinv hP hg hexec => ?_) fun a w w' _ _ hrely => hQ a w w' hrely
  obtain ⟨haccess, hends⟩ := step_access hinv (hreq w hinv hP) hg hexec
  refine ⟨haccess, fun _ _ => hends, fun a ha => ?_⟩
  obtain ⟨a₁, w₁, hrun, ⟨hr, rfl⟩ | ⟨hr, -⟩⟩ := exec_inv hexec
  · cases hr.symm.trans ha
    exact hpost w c a _ hinv hP hends hrun
  · cases hr.symm.trans ha

theorem recovery_keep (hkind : op.kind = .plain) (hF : Kept F) :
    RecoverySpec t F (invoke op) fun _ => F :=
  recovery_quiet (k := .plain) (calls_plain hkind) (.inl rfl) hF

theorem Access.account_eq (h : Access w) (ha : a ∈ w.accounts) (hb : b ∈ w.accounts) (hid : a.id = b.id) : a = b := by
  have howners := h.owners
  simp only [World.owners, List.map_map] at howners
  exact inj_on_of_nodup_map howners ha hb hid

theorem Access.owner_eq (h : Access w) (hu : Owns accountId u w) (hv : Owns accountId v w) : u = v :=
  congrArg Prod.snd (inj_on_of_nodup_map h.owners hu hv rfl)

theorem Access.notStaff_of_find (h : Access w) (hfind : (w.accounts.find? fun a => a.id = accountId) = some a)
    (hstaff : a.isStaff = false) : NotStaff accountId w := by
  intro b hb hid
  rw [h.account_eq hb (mem_of_find?_eq_some hfind) (hid.trans (find_account hfind).1.symm)]
  exact hstaff

theorem recovery_openAccountRecoveryCase :
    RecoverySpec t (fun _ => True) (openAccountRecoveryCase accountId) fun _ _ => True := by
  have hfind : RecoverySpec t (fun _ => True) (invoke (.findTargetForRecovery accountId))
      fun target w => ∀ a, target = some a → a.isStaff = false → NotStaff accountId w := by
    refine recovery_call (fun _ _ _ => trivial) (fun w c target w' hinv _ _ hrun a ha hstaff => ?_)
      fun target w w' hends h a ha hstaff => hends.notStaff accountId (h a ha hstaff)
    cases hrun
    exact hinv.notStaff_of_find ha hstaff
  refine triple_bind hfind fun target => ?_
  split
  · exact triple_fail
  · rename_i target
    split
    · exact triple_fail
    · rename_i hstaff
      split
      · exact triple_fail
      · refine triple_pre ?_ fun _ _ h => h target rfl (by simpa using hstaff)
        refine triple_bind (recovery_keep rfl kept_notStaff) fun existingOpenCase => ?_
        split
        · exact triple_fail
        · refine triple_bind (recovery_keep rfl kept_notStaff) fun openedAt => ?_
          refine triple_bind (recovery_quiet (k := .plain) (revokeAllSessions_calls _) (.inl rfl) kept_notStaff)
            fun _ => ?_
          refine triple_bind (recovery_call (fun _ _ h => h) (fun _ _ _ _ _ _ _ _ => trivial) fun _ => kept_true)
            fun created => ?_
          refine recovery_quiet (k := .plain) ?_ (.inl rfl) kept_true
          exact (notify_calls ..).bind fun _ => trivial

theorem Access.noDeviceSession (h : Access w) (howns : Owns accountId userId w) :
    NoDeviceSession accountId (deleteUserSessions userId w) := by
  intro s hs d hd hmine hdevice
  obtain ⟨hs, hother⟩ := mem_filter.mp hs
  obtain ⟨d', hd', hid, huser⟩ := h.sessions s hs d.deviceId hdevice
  have hlinked : Owns accountId d.betterAuthUserId w := hmine ▸ h.linked d hd
  have hsame : s.userId = userId := by
    rw [← huser, h.devices.eq_of_key hd' hd hid]
    exact h.owner_eq hlinked howns
  exact of_decide_eq_true hother hsame

theorem recovery_revokeSessions :
    RecoverySpec t (fun w => Owns accountId userId w ∧ NoActiveDevice accountId w)
      (revokeSessionsForRecoveryCompletion userId) fun _ => Shut accountId := by
  have hkept := (kept_owns accountId userId).and (kept_noActive accountId)
  refine triple_bind (recovery_keep rfl hkept) fun user => ?_
  refine triple_bind (recovery_quiet (k := .plain) (assertCustomerUser_calls user) (.inl rfl) hkept) fun _ => ?_
  refine triple_bind (recovery_keep rfl hkept) fun _ => ?_
  refine recovery_call (fun _ _ _ => trivial) (fun w c _ w' hinv hpre hends hrun => ?_) fun _ => kept_shut
  cases hrun
  exact ⟨hends.noActive accountId hpre.2, hinv.noDeviceSession hpre.1⟩

/-- After it, the account has no active device and no session of one. -/
theorem recovery_endCustomerDeviceAccess (caseId : CaseId) (accountId : AccountId) (userId : UserId) :
    RecoverySpec t (fun w => CaseOf caseId accountId w ∧ Owns accountId userId w)
      (endCustomerDeviceAccess caseId accountId userId) fun _ => Shut accountId := by
  have hrevoke : RecoverySpec t (fun w => CaseOf caseId accountId w ∧ Owns accountId userId w)
      (invoke (.revokeDevicesForRecovery caseId accountId))
      fun _ w => Owns accountId userId w ∧ NoActiveDevice accountId w := by
    refine recovery_call (fun _ _ h => h.1) (fun w c _ w' _ hpre hends hrun => ?_)
      fun _ => (kept_owns accountId userId).and (kept_noActive accountId)
    refine ⟨kept_owns accountId userId w w' hends hpre.2, ?_⟩
    cases hrun
    exact revokeDevicesForRecovery_noActive
  refine triple_catch_any ?_ fun _ => triple_fail
  refine triple_bind hrevoke fun _ => ?_
  refine triple_bind (recovery_revokeSessions) fun _ => ?_
  refine triple_bind (recovery_keep rfl (kept_shut)) fun _ => ?_
  refine triple_bind (recovery_quiet (k := .plain) (clearRecoveryRequired_calls userId) (.inl rfl) (kept_shut))
    fun _ => ?_
  exact recovery_keep rfl (kept_shut)

theorem recovery_completeAccountRecovery :
    RecoverySpec t (fun _ => True) (completeAccountRecovery caseId) fun _ _ => True := by
  have hcase : RecoverySpec t (fun _ => True) (invoke (.findCase caseId))
      fun found w => ∀ c, found = some c → CaseOf caseId c.accountId w := by
    refine recovery_call (fun _ _ _ => trivial) (fun w c found w' _ _ _ hrun r hr => ?_)
      fun found w w' hends h c hc => hends.caseOf caseId c.accountId (h c hc)
    cases hrun
    exact ⟨r, mem_of_find?_eq_some hr, by simpa using find?_some hr, rfl⟩
  refine triple_bind hcase fun found => ?_
  split
  · exact triple_fail
  · rename_i existing
    split
    · exact triple_fail
    · have htarget : RecoverySpec t (CaseOf caseId existing.accountId)
          (invoke (.findTargetForRecovery existing.accountId))
          fun target w => ∀ a, target = some a → (a.id = existing.accountId ∧ a.isStaff = false) ∧
            CaseOf caseId existing.accountId w ∧ Owns existing.accountId a.betterAuthUserId w := by
        refine recovery_call (fun _ _ _ => trivial) (fun w c target w' hinv hpre _ hrun a ha => ?_)
          fun target w w' hends h a ha => ⟨(h a ha).1, hends.caseOf _ _ (h a ha).2.1,
            kept_owns _ _ w w' hends (h a ha).2.2⟩
        cases hrun
        obtain ⟨hid, howns⟩ := find_account ha
        obtain ⟨r, hr, -, haccount⟩ := id hpre
        exact ⟨⟨hid, hinv.customers r hr a (mem_of_find?_eq_some ha) (hid.trans haccount.symm)⟩, hpre, howns⟩
      refine triple_pre ?_ fun _ _ h => h existing rfl
      refine triple_bind htarget fun target => ?_
      split
      · exact triple_fail
      · rename_i target
        refine triple_pre (triple_const fun hknown => ?_) fun _ _ h => h target rfl
        have hkept := (kept_caseOf caseId existing.accountId).and
            (kept_owns existing.accountId target.betterAuthUserId)
        refine triple_bind (recovery_keep rfl hkept) fun completedAt => ?_
        have hend : RecoverySpec t
            (fun w => CaseOf caseId existing.accountId w ∧ Owns existing.accountId target.betterAuthUserId w)
            (endOldAccess caseId target) fun _ w => CaseOf caseId existing.accountId w ∧
              Shut existing.accountId w := by
          have hframe := triple_frame (F := CaseOf caseId existing.accountId)
            (fun u w w' _ _ hrely => kept_caseOf caseId existing.accountId w w' hrely)
            (recovery_endCustomerDeviceAccess (t := t) caseId existing.accountId target.betterAuthUserId)
          simp only [endOldAccess, hknown.2, Bool.false_eq_true, if_false, hknown.1]
          exact triple_pre hframe fun _ _ h => ⟨h.1, h⟩
        refine triple_bind hend fun _ => ?_
        refine triple_bind (recovery_call (fun _ _ h => ⟨existing.accountId, h⟩) (fun _ _ _ _ _ _ _ _ => trivial)
          fun _ => kept_true) fun updated => ?_
        split
        · exact triple_fail
        · refine recovery_quiet (k := .plain) ?_ (.inl rfl) kept_true
          exact (notifyCompleted_calls ..).bind fun _ => trivial

theorem recovery_verifyLogin :
    RecoverySpec t (DeviceOf device.deviceId device.betterAuthUserId input.dpopJkt)
      (verifyLogin policy input device)
      fun device w => DeviceOf device.deviceId device.betterAuthUserId input.dpopJkt w := by
  have hkept := kept_deviceOf device.deviceId device.betterAuthUserId input.dpopJkt
  unfold verifyLogin
  split
  · exact triple_fail
  · refine triple_bind (recovery_keep rfl hkept) fun consumed => ?_
    split
    · refine triple_bind (recovery_keep rfl hkept) fun verified => ?_
      split
      · refine triple_bind (recovery_keep rfl hkept) fun now => ?_
        exact triple_bind (recovery_keep rfl hkept) fun _ => triple_ret fun _ _ h => h
      · exact triple_fail
    · exact triple_bind (recovery_keep rfl hkept) fun recentlyUsed => triple_fail

theorem recovery_loginDevice :
    RecoverySpec t (fun _ => True) (loginDevice policy input)
      fun device w => DeviceOf device.deviceId device.betterAuthUserId input.dpopJkt w := by
  have hfind : RecoverySpec t (fun _ => True) (invoke (.findByDpopJkt input.dpopJkt))
      fun found w => ∀ d, found = some d → DeviceOf d.deviceId d.betterAuthUserId input.dpopJkt w := by
    refine recovery_call (fun _ _ _ => trivial) (fun w c found w' _ _ _ hrun d hd => ?_)
      fun found w w' hends h d hd => hends.deviceOf _ _ _ (h d hd)
    cases hrun
    have hkey : d.dpopJkt = input.dpopJkt ∧ d.active = true := by simpa using find?_some hd
    exact ⟨d, mem_of_find?_eq_some hd, rfl, rfl, hkey.1⟩
  refine triple_bind hfind fun found => ?_
  split
  · exact triple_fail
  · rename_i device
    refine triple_pre ?_ fun _ _ h => h device rfl
    split
    · exact triple_fail
    · exact recovery_verifyLogin

theorem recovery_createSession :
    RecoverySpec t (DeviceOf device.deviceId device.betterAuthUserId dpopJkt)
      (createSession device dpopJkt) fun _ _ => True := by
  refine triple_bind (recovery_keep rfl (kept_deviceOf _ _ _)) fun user => ?_
  split
  · exact triple_fail
  · split
    · exact triple_fail
    · split
      · exact triple_fail
      · exact recovery_call (fun _ _ h => h) (fun _ _ _ _ _ _ _ _ => trivial) fun _ => kept_true

theorem recovery_loginVerify :
    RecoverySpec t (fun _ => True) (loginVerify policy input) fun _ _ => True := by
  refine triple_bind (recovery_keep rfl kept_true) fun _ => ?_
  refine triple_bind recovery_loginDevice fun device => ?_
  refine triple_bind (recovery_keep rfl (kept_deviceOf _ _ _)) fun account => ?_
  split
  · exact triple_fail
  · split
    · exact triple_fail
    · refine triple_bind recovery_createSession fun session => ?_
      exact recovery_quiet (k := .plain)
        ((finishLogin_calls ..).catchWith fun error => discardCeremonySession_calls session error) (.inl rfl) kept_true

end Programs

variable {v : Revocation}

theorem env_access (h : Access w) (henv : env e w = some w') : Access w' ∧ Ends w w' := by
  cases e with
  | tick =>
    obtain ⟨-, hsome⟩ := ite_none_right_eq_some.mp henv
    cases hsome
    exact h.rest (Mild.refl_of rfl rfl rfl rfl) rfl rfl
  | issue =>
    obtain ⟨-, hsome⟩ := ite_none_left_eq_some.mp henv
    cases hsome
    exact h.rest (Mild.refl_of rfl rfl rfl rfl) rfl rfl
  | signIn =>
    obtain ⟨-, hsome⟩ := ite_none_left_eq_some.mp henv
    cases hsome
    refine h.rest ⟨rfl, same_devices, fun s hs => ?_, rfl, fun _ hstaff => hstaff⟩ rfl rfl
    obtain hs | hs := mem_append.mp hs
    · exact .inl hs
    · exact .inr (by rw [mem_singleton.mp hs])

/-- Access stays ended however the requests interleave. -/
theorem recovery_sound : Interleaving.Sound system whileActive recoveryRules where
  job t j := by
    have hcalls := j.calls
    cases j with
    | openRecovery =>
      exact triple_bind recovery_openAccountRecoveryCase fun _ => triple_ret fun _ _ h => h
    | completeRecovery =>
      exact triple_bind (recovery_completeAccountRecovery) fun _ => triple_ret fun _ _ h => h
    | login => exact recovery_loginVerify
    | _ => exact recovery_quiet hcalls (by simp [Job.kind]) kept_true
  env e w w' hinv _ henv := by
    obtain ⟨haccess, hends⟩ := env_access hinv henv
    exact ⟨haccess, fun _ => hends⟩

/-- Every device belongs to an account and to the user of that account. -/
def Linked (accounts : List Account) (devices : List Device) : Prop :=
  ∀ d ∈ devices, ∃ a ∈ accounts, a.id = d.accountId ∧ a.betterAuthUserId = d.betterAuthUserId

theorem start_access (haccounts : Table.Keyed Account.id accounts) (hdevices : Table.Keyed Device.deviceId devices)
    (hlinked : Linked accounts devices) :
    Access (World.start now accounts users devices) := by
  refine ⟨?_, hdevices, nodup_nil, fun d hd => ?_, fun _ h => absurd h not_mem_nil,
    fun _ h => absurd h not_mem_nil, fun _ h => absurd h not_mem_nil, fun _ h => absurd h not_mem_nil⟩
  · simpa only [World.owners, World.start, List.map_map, Function.comp_def, Table.Keyed] using haccounts
  · obtain ⟨a, ha, hid, huser⟩ := hlinked d hd
    exact List.mem_map.mpr ⟨a, ha, by rw [hid, huser]⟩

theorem Access.revoked_no_session (h : Access w) {c : RecoveryCase} (hc : c ∈ w.cases)
    (hdone : c.status = .completed) (hv : v ∈ w.revocations) (hcase : v.caseId = c.id) :
    ∀ s ∈ w.sessions, s.device ≠ some v.deviceId := by
  obtain ⟨d, hd, hid, -, c₁, hc₁, hsame, haccount⟩ := h.revoked v hv
  have heq : c₁ = c := h.cases.eq_of_key hc₁ hc (hsame.trans hcase)
  intro s hs
  rw [← hid]
  exact (h.completed c hc hdone).2 s hs d hd (by rw [← haccount, heq])

theorem Access.retired (h : Access w) (hv : v ∈ w.revocations) : Retired v.deviceId w := by
  obtain ⟨d, hd, hid, hinactive, -⟩ := h.revoked v hv
  exact ⟨d, hd, hid, hinactive⟩

/-- The number of logins of a retired device stands still. -/
def NoNewLogin (w w' : World) : Prop :=
  ∀ deviceId, Retired deviceId w → Retired deviceId w' ∧ w'.logins.count deviceId = w.logins.count deviceId

theorem NoNewLogin.trans {a b c : World} (hab : NoNewLogin a b) (hbc : NoNewLogin b c) : NoNewLogin a c := by
  intro deviceId h
  obtain ⟨hb, hcount⟩ := hab deviceId h
  obtain ⟨hc, hcount'⟩ := hbc deviceId hb
  exact ⟨hc, hcount'.trans hcount⟩

/-- No session of a device revoked by a completed recovery exists, and a revoked
device completes no other login. -/
theorem recovery_ends_device_access {accounts : List Account} {devices : List Device}
    (haccounts : Table.Keyed Account.id accounts) (hdevices : Table.Keyed Device.deviceId devices)
    (hlinked : Linked accounts devices) (now : ℤ) (users : List AuthUser) (m s : Config World Failure Op Op.Out)
    (hm : Reachable system whileActive (idle (World.start now accounts users devices)) m)
    (hs : Reachable system whileActive m s) :
    (∀ c ∈ s.world.cases, c.status = .completed → ∀ v ∈ s.world.revocations, v.caseId = c.id →
      ∀ session ∈ s.world.sessions, session.device ≠ some v.deviceId) ∧
    ∀ v ∈ m.world.revocations, s.world.logins.count v.deviceId = m.world.logins.count v.deviceId := by
  have hsecure := hm.secure recovery_sound (secure_idle _ (start_access haccounts hdevices hlinked))
  refine ⟨fun c hc hdone v hv hcase => ?_, fun v hv => ?_⟩
  · exact (hs.secure recovery_sound hsecure).1.revoked_no_session hc hdone hv hcase
  · have hstill : NoNewLogin m.world s.world :=
      hs.related recovery_sound hsecure NoNewLogin (fun _ _ h => ⟨h, rfl⟩) (fun _ _ _ => NoNewLogin.trans)
        fun _ _ _ hends => hends.retired
    exact (hstill v.deviceId (hsecure.1.retired hv)).2

instance (t : Nat) (op : Op) (w : World) : Decidable (whileActive.call t op w) := by
  induction op using Op.casesOn <;> (dsimp only [whileActive]; infer_instance)

/-- A login with the key of device 5. -/
def sampleLogin : Job := .login [.android] ⟨none, 9, 3⟩

def sampleChallenge (challenge : Nat) : Action Choice Event Job := .env (.issue challenge 9 5 60000)

/-- Case 1 is completed. -/
def sampleCompletion : List (Action Choice Event Job) := .spawn 8 (.completeRecovery 1) :: sampleCalls 8 0 0 13

/-- Device 5 logs in and is recovered from. -/
def sampleRecovered : List (Action Choice Event Job) :=
  sampleChallenge 3 :: .spawn 4 sampleLogin :: sampleCalls 4 31 0 13 ++ sampleApproval ++ sampleCompletion

/-- Then it tries again. -/
def sampleRetry : List (Action Choice Event Job) := [.spawn 5 sampleLogin] ++ sampleCalls 5 32 0 2

theorem recovery_ends_device_access_sample : ∃ m s, Reachable system whileActive (idle sampleWorld) m ∧
    Reachable system whileActive m s ∧ (s.world.cases.map RecoveryCase.status) = [.completed] ∧
    m.world.revocations = [⟨1, 5⟩] ∧ m.world.logins = [5] ∧ s.world.logins.count 5 = 1 ∧
    ∀ c ∈ s.world.cases, c.status = .completed → ∀ v ∈ s.world.revocations, v.caseId = c.id →
      ∀ session ∈ s.world.sessions, session.device ≠ some v.deviceId := by
  obtain ⟨m, s, hm, hs, hlook⟩ := exists_of_play_play system
    (whileActive.allows_of_decide fun _ _ => trivial) sampleRecovered sampleRetry
    (idle sampleWorld) (fun m s => (s.world.cases.map RecoveryCase.status) = [.completed] ∧
      m.world.revocations = [⟨1, 5⟩] ∧ m.world.logins = [5]) (by decide +kernel)
  obtain ⟨hstatus, hrevocations, hlogins⟩ := of_decide_eq_true hlook
  have hends := recovery_ends_device_access (by simp [Table.Keyed]) (by simp [Table.Keyed]) (by simp [Linked]) 0 _ m
      s hm hs
  have hcount := hends.2 ⟨1, 5⟩ (by rw [hrevocations]; simp)
  rw [hlogins] at hcount
  exact ⟨m, s, hm, hs, hstatus, hrevocations, hlogins, hcount, hends.1⟩

def finished : Run Unit → Bool
  | .call _ _ => false
  | _ => true

/-- The login finds device 5 and stops; the recovery runs to its end; the login
goes on. -/
def sampleSlipped : List (Action Choice Event Job) :=
  sampleChallenge 3 :: .spawn 4 sampleLogin :: sampleCalls 4 31 0 2 ++ sampleApproval ++ sampleCompletion ++
    sampleCalls 4 31 0 11

/-- The case is completed, every request has finished, and the revoked device has
a session. -/
theorem revoked_device_has_session : ∃ s, Reachable system Guard.free (idle sampleWorld) s ∧
    (s.world.cases.map fun c => (c.id, c.status)) = [(1, .completed)] ∧ s.world.revocations = [⟨1, 5⟩] ∧
    (s.world.sessions.map fun r => (r.userId, r.dpopJkt, r.device)) = [(11, some 9, some 5)] ∧
    ((List.range 10).all fun t => finished (s.threads t)) = true := by
  obtain ⟨s, hrun, hlook⟩ := exists_of_play system Guard.allows_free sampleSlipped (idle sampleWorld)
    (fun s => (s.world.cases.map fun c => (c.id, c.status)) = [(1, .completed)] ∧ s.world.revocations = [⟨1, 5⟩] ∧
      (s.world.sessions.map fun r => (r.userId, r.dpopJkt, r.device)) = [(11, some 9, some 5)] ∧
      ((List.range 10).all fun t => finished (s.threads t)) = true) (by decide +kernel)
  exact ⟨s, hrun, of_decide_eq_true hlook⟩

end AccountLifecycle
