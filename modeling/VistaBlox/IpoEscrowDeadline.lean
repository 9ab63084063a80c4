import VistaBlox.IpoEscrowAccounts

/-!
# What the campaign manager can do with a deadline

`extendDeadline` asks for an open campaign and a deadline in the future, and for nothing
else.
-/
namespace IpoEscrow

open Evm

/-- The campaign has been opened and its target is reached. -/
def Campaign.Funded (c : Campaign) : Prop := c.state ≠ .notOpened ∧ c.totalRaised = c.targetAmount

/-- The deadline an event announces for a campaign. -/
def Event.deadline (t : TokenId) : Event → Option Nat
  | .campaignOpened t' _ deadline _ _ => if t' = t then some deadline else none
  | .deadlineExtended t' deadline _ => if t' = t then some deadline else none
  | _ => none

def announced (s : State eurc) (t : TokenId) : List Nat := s.log.filterMap (Event.deadline t)

/-- A relation between the states of a run, the earlier one first. -/
def Along (escrow : Address) (s₀ : State eurc) (steps : List (Step eurc)) (R : State eurc → State eurc → Prop) :
    Prop :=
  ∀ before between, before ++ between <+: steps →
    R (run escrow s₀ before) (run escrow (run escrow s₀ before) between)

/-- The campaign manager only postpones, and only underfunded campaigns. -/
structure OnlyPostpones (escrow : Address) (s₀ : State eurc) (steps : List (Step eurc)) : Prop where
  postponed : Along escrow s₀ steps fun s s' => ∀ t, (campaignOf s t).state ≠ .notOpened →
    (campaignOf s t).deadline ≤ (campaignOf s' t).deadline
  settled : Along escrow s₀ steps fun s s' => ∀ t, (campaignOf s t).Funded →
    (campaignOf s' t).deadline = (campaignOf s t).deadline
  finalizable : Along escrow s₀ steps fun s s' => ∀ t, (campaignOf s t).Funded →
    (campaignOf s' t).state = .opened → s'.paused = false → ∀ m, (campaignOf s t).deadline ≤ m.timestamp →
      ∃ s'', finalize s' m t = .ok s'' ∧ (campaignOf s'' t).state = .successful
  failed : Along escrow s₀ steps fun _ s => ∀ m t s', finalize s m t = .ok s' → (campaignOf s' t).state = .failed →
    ∀ deadline ∈ announced s t, deadline ≤ m.timestamp

/-- An extension that postpones an underfunded campaign, or leaves the deadline as it is. -/
def Call.Postpones (s : State eurc) : Call → Prop
  | .extendDeadline t deadline => (campaignOf s t).deadline ≤ deadline ∧
      ((campaignOf s t).totalRaised = (campaignOf s t).targetAmount → deadline = (campaignOf s t).deadline)
  | _ => True

instance (s : State eurc) (c : Call) : Decidable (c.Postpones s) := by
  unfold Call.Postpones
  split <;> infer_instance

/-- A property of every call of a run that goes through. -/
def EveryCall (escrow : Address) (P : State eurc → Call → Prop) (s : State eurc) : List (Step eurc) → Prop
  | [] => True
  | e :: rest => (∀ m c s', e = .call m c → m.sender ≠ escrow → exec escrow s m c = .ok s' → P s c) ∧
      EveryCall escrow P (step escrow s e) rest

/-- What every call does to a campaign. -/
structure Onward (c c' : Campaign) : Prop where
  opened : c.state ≠ .notOpened → c'.state ≠ .notOpened
  funded : c.Funded → c'.Funded

theorem Onward.refl (c : Campaign) : Onward c c := ⟨fun h => h, fun h => h⟩

/-- What a call does to a deadline, if it postpones. -/
structure Postponing (c c' : Campaign) : Prop where
  le : c.state ≠ .notOpened → c.deadline ≤ c'.deadline
  funded : c.Funded → c'.deadline = c.deadline

theorem Postponing.of_eq (h : c.state ≠ .notOpened → c'.deadline = c.deadline) : Postponing c c' :=
  ⟨fun ho => (h ho).ge, fun hf => h hf.1⟩

theorem related_update {R : Campaign → Campaign → Prop} (hrefl : ∀ c, R c c)
    (hs : s'.campaigns = Function.update s.campaigns t c) (h : R (s.campaigns t) c) :
    R (campaignOf s t') (campaignOf s' t') := by
  unfold campaignOf
  rw [hs]
  by_cases ht : t' = t
  · subst ht
    simpa using h
  · simpa [ht] using hrefl (s.campaigns t')

theorem onward_update (hs : s'.campaigns = Function.update s.campaigns t c) (h : Onward (s.campaigns t) c) :
    Onward (campaignOf s t') (campaignOf s' t') := related_update Onward.refl hs h

theorem postponing_update (hs : s'.campaigns = Function.update s.campaigns t c) (h : Postponing (s.campaigns t) c)
    (t' : TokenId) : Postponing (campaignOf s t') (campaignOf s' t') :=
  related_update (fun _ => .of_eq fun _ => rfl) hs h

theorem contribute_campaigns (h : contribute escrow s m t amount = .ok s') :
    s'.campaigns = Function.update s.campaigns t { s.campaigns t with
      totalRaised := (s.campaigns t).totalRaised + amount } := by
  obtain ⟨_, _, _, _, _, l, _, rfl⟩ := contribute_ok h
  rw [emit_campaigns, book_campaigns]

/-- Once opened or fully funded, a campaign stays so. -/
theorem exec_onward (h : exec escrow s m c = .ok s') (t : TokenId) : Onward (campaignOf s t) (campaignOf s' t) := by
  cases c with
  | openCampaign =>
    obtain ⟨_, hstate, _, _, _, rfl⟩ := openCampaign_ok h
    exact onward_update rfl ⟨fun ho => absurd hstate ho, fun hf => absurd hstate hf.1⟩
  | extendDeadline =>
    obtain ⟨_, _, _, rfl⟩ := extendDeadline_ok h
    refine onward_update rfl ?_
    exact ⟨fun ho => ho, fun hf => hf⟩
  | contribute =>
    obtain ⟨_, _, _, hpos, hle, _⟩ := contribute_ok h
    refine onward_update (contribute_campaigns h) ⟨fun ho => ho, fun hf => ?_⟩
    have hfull := hf.2
    omega
  | finalize t' =>
    obtain ⟨_, _, _, rfl⟩ := finalize_ok h
    have hout : (if (s.campaigns t').targetAmount ≤ (s.campaigns t').totalRaised then CampaignState.successful
        else .failed) ≠ .notOpened := by split <;> decide
    refine onward_update rfl ?_
    exact ⟨fun _ => hout, fun hf => ⟨hout, hf.2⟩⟩
  | withdrawRaised =>
    obtain ⟨_, _, _, l, _, rfl⟩ := withdrawRaised_ok h
    refine onward_update rfl ?_
    exact ⟨fun ho => ho, fun hf => hf⟩
  | withdraw =>
    obtain ⟨_, _, _, l, _, rfl⟩ := withdraw_ok h
    exact .refl _
  | pause =>
    obtain ⟨_, rfl⟩ := pause_ok h
    exact .refl _
  | unpause =>
    obtain ⟨_, rfl⟩ := unpause_ok h
    exact .refl _
  | role =>
    obtain ⟨_, rfl⟩ := changeRole_ok h
    exact .refl _

/-- A call postpones every deadline just when its argument does. -/
theorem exec_postponing_iff (h : exec escrow s m c = .ok s') :
    (∀ t, Postponing (campaignOf s t) (campaignOf s' t)) ↔ c.Postpones s := by
  cases c with
  | openCampaign =>
    obtain ⟨_, hstate, _, _, _, rfl⟩ := openCampaign_ok h
    exact iff_of_true (postponing_update rfl (.of_eq fun ho => absurd hstate ho)) trivial
  | extendDeadline t' =>
    obtain ⟨_, hstate, _, rfl⟩ := extendDeadline_ok h
    have hopened : (s.campaigns t').state ≠ .notOpened := by simp [hstate]
    constructor
    · intro hall
      have hself := hall t'
      simp only [campaignOf, emit_campaigns, State.putCampaign, Function.update_self] at hself
      exact ⟨hself.le hopened, fun hfull => hself.funded ⟨hopened, hfull⟩⟩
    · rintro ⟨hle, hfunded⟩
      exact postponing_update rfl ⟨fun _ => hle, fun hf => hfunded hf.2⟩
  | contribute =>
    exact iff_of_true (postponing_update (contribute_campaigns h) (.of_eq fun _ => rfl)) trivial
  | finalize =>
    obtain ⟨_, _, _, rfl⟩ := finalize_ok h
    exact iff_of_true (postponing_update rfl (.of_eq fun _ => rfl)) trivial
  | withdrawRaised =>
    obtain ⟨_, _, _, l, _, rfl⟩ := withdrawRaised_ok h
    exact iff_of_true (postponing_update rfl (.of_eq fun _ => rfl)) trivial
  | withdraw =>
    obtain ⟨_, _, _, l, _, rfl⟩ := withdraw_ok h
    exact iff_of_true (fun _ => .of_eq fun _ => rfl) trivial
  | pause =>
    obtain ⟨_, rfl⟩ := pause_ok h
    exact iff_of_true (fun _ => .of_eq fun _ => rfl) trivial
  | unpause =>
    obtain ⟨_, rfl⟩ := unpause_ok h
    exact iff_of_true (fun _ => .of_eq fun _ => rfl) trivial
  | role =>
    obtain ⟨_, rfl⟩ := changeRole_ok h
    exact iff_of_true (fun _ => .of_eq fun _ => rfl) trivial

theorem exec_announced (h : exec escrow s m c = .ok s') : announced s' t = announced s t ∨
    (announced s' t = announced s t ++ [(campaignOf s' t).deadline] ∧ (campaignOf s' t).state ≠ .notOpened) := by
  unfold campaignOf announced
  cases c with
  | openCampaign t' target deadline =>
    obtain ⟨_, _, _, _, _, rfl⟩ := openCampaign_ok h
    by_cases ht : t' = t
    · subst ht
      exact .inr (by simp [Event.deadline, State.putCampaign])
    · exact .inl (by simp [Event.deadline, State.putCampaign, ht])
  | extendDeadline t' deadline =>
    obtain ⟨_, hstate, _, rfl⟩ := extendDeadline_ok h
    by_cases ht : t' = t
    · subst ht
      exact .inr (by simp [Event.deadline, State.putCampaign, hstate])
    · exact .inl (by simp [Event.deadline, State.putCampaign, ht])
  | contribute =>
    obtain ⟨_, _, _, _, _, l, _, rfl⟩ := contribute_ok h
    exact .inl (by simp [Event.deadline])
  | finalize =>
    obtain ⟨_, _, _, rfl⟩ := finalize_ok h
    exact .inl (by simp [Event.deadline, State.putCampaign])
  | withdrawRaised =>
    obtain ⟨_, _, _, l, _, rfl⟩ := withdrawRaised_ok h
    exact .inl (by simp [Event.deadline, State.putCampaign])
  | withdraw =>
    obtain ⟨_, _, _, l, _, rfl⟩ := withdraw_ok h
    exact .inl (by simp [Event.deadline])
  | pause =>
    obtain ⟨_, rfl⟩ := pause_ok h
    exact .inl rfl
  | unpause =>
    obtain ⟨_, rfl⟩ := unpause_ok h
    exact .inl rfl
  | role =>
    obtain ⟨_, rfl⟩ := changeRole_ok h
    exact .inl rfl

section Runs

variable {steps : List (Step eurc)}

theorem EveryCall.keeps {I : State eurc → Prop}
    (hcall : ∀ s m c s', I s → exec escrow s m c = .ok s' → P s c → I s')
    (heurc : ∀ s l n, I s → I { s with eurcLedger := l, direct := s.direct + n }) (h : EveryCall escrow P s steps)
    (hs : I s) : I (run escrow s steps) := by
  induction steps generalizing s with
  | nil => exact hs
  | cons e rest ih =>
    obtain ⟨hfirst, hrest⟩ := h
    refine ih hrest ?_
    obtain hsame | ⟨m, c, hc, hm, hexec⟩ | ⟨l, n, _, _, hl⟩ := step_cases escrow s e
    · rwa [hsame]
    · exact hcall s m c _ hs hexec (hfirst m c _ hc hm hexec)
    · rw [hl]
      exact heurc s l n hs

theorem everyCall_append : EveryCall escrow P s (before ++ after) ↔
    EveryCall escrow P s before ∧ EveryCall escrow P (run escrow s before) after := by
  induction before generalizing s with
  | nil => exact ⟨fun h => ⟨trivial, h⟩, fun h => h.2⟩
  | cons e before ih =>
    rw [List.cons_append]
    simp only [EveryCall]
    rw [ih, and_assoc]
    rfl

theorem EveryCall.between {between : List (Step eurc)} (h : EveryCall escrow P s₀ steps)
    (hpart : before ++ between <+: steps) :
    EveryCall escrow P s₀ before ∧ EveryCall escrow P (run escrow s₀ before) between := by
  obtain ⟨after, rfl⟩ := hpart
  exact everyCall_append.mp (everyCall_append.mp h).1

/-- Every announced deadline has come by when the campaign's own has. -/
def Announces (s : State eurc) : Prop :=
  ∀ t, ∀ deadline ∈ announced s t, (campaignOf s t).state ≠ .notOpened ∧ deadline ≤ (campaignOf s t).deadline

theorem announces_deployed (h : deploy escrow m e l = .ok s) : Announces s := by
  obtain ⟨_, _, _, _, hlog, _⟩ := deploy_ok h
  intro t deadline hmem
  rw [announced, hlog] at hmem
  cases hmem

theorem announces_exec (hs : Announces s) (h : exec escrow s m c = .ok s') (hc : c.Postpones s) : Announces s' := by
  intro t deadline hmem
  have hpost := (exec_postponing_iff h).mpr hc t
  have hon := exec_onward h t
  have hold : ∀ d ∈ announced s t, (campaignOf s' t).state ≠ .notOpened ∧ d ≤ (campaignOf s' t).deadline := by
    intro d hd
    obtain ⟨hopened, hle⟩ := hs t d hd
    exact ⟨hon.opened hopened, hle.trans (hpost.le hopened)⟩
  obtain hsame | ⟨hnew, hopened⟩ := exec_announced h
  · exact hold deadline (hsame ▸ hmem)
  · rw [hnew, List.mem_append, List.mem_singleton] at hmem
    rcases hmem with hmem | rfl
    · exact hold deadline hmem
    · exact ⟨hopened, le_rfl⟩

/-- Deadlines only move back over runs that postpone. -/
theorem postponed_run (h : EveryCall escrow (fun s c => c.Postpones s) s steps)
    (hopened : (campaignOf s t).state ≠ .notOpened) :
    (campaignOf s t).deadline ≤ (campaignOf (run escrow s steps) t).deadline := by
  have hkept := h.keeps (I := fun x => (campaignOf x t).state ≠ .notOpened ∧
    (campaignOf s t).deadline ≤ (campaignOf x t).deadline) ?_ (fun _ _ _ hx => hx) ⟨hopened, le_rfl⟩
  · exact hkept.2
  · intro x m c x' ⟨ho, hle⟩ hexec hc
    exact ⟨(exec_onward hexec t).opened ho, hle.trans (((exec_postponing_iff hexec).mpr hc t).le ho)⟩

/-- A funded campaign stays funded, with its deadline. -/
theorem settled_run (h : EveryCall escrow (fun s c => c.Postpones s) s steps)
    (hfunded : (campaignOf s t).Funded) : (campaignOf (run escrow s steps) t).Funded ∧
      (campaignOf (run escrow s steps) t).deadline = (campaignOf s t).deadline := by
  refine h.keeps (I := fun x => (campaignOf x t).Funded ∧
    (campaignOf x t).deadline = (campaignOf s t).deadline) ?_ (fun _ _ _ hx => hx) ⟨hfunded, rfl⟩
  intro x m c x' ⟨hf, hd⟩ hexec hc
  exact ⟨(exec_onward hexec t).funded hf, (((exec_postponing_iff hexec).mpr hc t).funded hf).trans hd⟩

theorem finalize_funded (hp : s.paused = false) (hopen : (campaignOf s t).state = .opened)
    (hfunded : (campaignOf s t).Funded) (htime : (campaignOf s t).deadline ≤ m.timestamp) :
    ∃ s', finalize s m t = .ok s' ∧ (campaignOf s' t).state = .successful := by
  unfold campaignOf at hopen hfunded htime
  have hreached : (s.campaigns t).targetAmount ≤ (s.campaigns t).totalRaised := hfunded.2.ge
  refine ⟨(s.putCampaign t { s.campaigns t with state := .successful }).emit
    (.campaignFinalized t true (s.campaigns t).totalRaised), ?_, by simp [campaignOf, State.putCampaign]⟩
  simp only [finalize, whenNotPaused, revertIf_bind_ok, hp, hopen, hreached, decide_true, if_true]
  exact ⟨by decide, by decide, not_lt.mpr htime, rfl⟩

theorem everyCall_of_splits (h : ∀ before m c s',
      before ++ [.call m c] <+: steps → m.sender ≠ escrow → exec escrow (run escrow s before) m c = .ok s' →
        P (run escrow s before) c) : EveryCall escrow P s steps := by
  induction steps generalizing s with
  | nil => trivial
  | cons e rest ih =>
    refine ⟨?_, ih fun before m c s' hpart hm hexec => ?_⟩
    · rintro m c s' rfl hm hexec
      exact h [] m c s' (by simp) hm hexec
    · exact h (e :: before) m c s' (List.prefix_cons_inj e |>.mpr hpart) hm hexec

/-- The manager only postpones underfunded campaigns exactly if every extension does. -/
theorem only_postpones_iff {m : Msg} {e : Address} {l : eurc.Ledger} (hdeploy : deploy escrow m e l = .ok s₀)
    (steps : List (Step eurc)) :
    OnlyPostpones escrow s₀ steps ↔ EveryCall escrow (fun s c => c.Postpones s) s₀ steps := by
  constructor
  · intro h
    refine everyCall_of_splits fun before m c s' hpart hm hexec => ?_
    have hstep : run escrow (run escrow s₀ before) [.call m c] = s' := by
      change step escrow (run escrow s₀ before) (.call m c) = s'
      simp only [step, hm, if_false, hexec]
    refine (exec_postponing_iff hexec).mp fun t => ⟨fun hopened => ?_, fun hfunded => ?_⟩
    · exact hstep ▸ h.postponed before [.call m c] hpart t hopened
    · exact hstep ▸ h.settled before [.call m c] hpart t hfunded
  · intro h
    constructor
    · intro before between hpart t hopened
      exact postponed_run (h.between hpart).2 hopened
    · intro before between hpart t hfunded
      exact (settled_run (h.between hpart).2 hfunded).2
    · intro before between hpart t hfunded hopen hp m htime
      obtain ⟨hfunded', hdeadline⟩ := settled_run (h.between hpart).2 hfunded
      exact finalize_funded hp hopen hfunded' (hdeadline ▸ htime)
    · intro before between hpart m t s' hfinal hfailed deadline hmem
      obtain ⟨hbefore, hbetween⟩ := h.between hpart
      have hstart := hbefore.keeps (I := Announces) (fun _ _ _ _ hs hexec hc => announces_exec hs hexec hc)
        (fun _ _ _ hs => hs) (announces_deployed hdeploy)
      have hnow := hbetween.keeps (I := Announces) (fun _ _ _ _ hs hexec hc => announces_exec hs hexec hc)
        (fun _ _ _ hs => hs) hstart
      exact (hnow t deadline hmem).2.trans (finalize_ok hfinal).2.2.1

/-- An underfunded campaign is extended, funded and finalized. -/
def extendedRun : List (Step plainToken) :=
  [.call ⟨1, 0⟩ (.role (.grantRole .campaignManager 2)),
   .call ⟨2, 1⟩ (.openCampaign 1 5 10 4),
   .call ⟨3, 2⟩ (.contribute 1 2),
   .call ⟨2, 5⟩ (.extendDeadline 1 20),
   .call ⟨3, 12⟩ (.contribute 1 3),
   .call ⟨3, 20⟩ (.finalize 1)]

theorem only_postpones_extended : ∃ s₀ : State plainToken, deploy 100 ⟨1, 0⟩ 9 investorLedger = .ok s₀ ∧
    OnlyPostpones 100 s₀ extendedRun ∧ (campaignOf (run 100 s₀ extendedRun) 1).state = .successful := by
  refine ⟨_, rfl, (only_postpones_iff (e := 9) (m := ⟨1, 0⟩) (l := investorLedger) rfl extendedRun).mpr ?_, by decide⟩
  refine ⟨?_, ?_, ?_, ?_, ?_, ?_, trivial⟩
  all_goals
    rintro m c s' hc - -
    cases hc
    decide

/-- The manager brings the deadline of a campaign forward, which then fails
before the deadline it was opened with; and puts off the deadline of a campaign
whose target is reached, which then cannot be finalized when it was due. -/
theorem manager_moves_deadlines : ∃ s₀ : State plainToken, deploy 100 ⟨1, 0⟩ 9 investorLedger = .ok s₀ ∧
    (let s := run 100 s₀ (extendedRun.take 3)
    let s' := step 100 s (.call ⟨2, 3⟩ (.extendDeadline 1 4))
    (campaignOf s 1).deadline = 10 ∧ (campaignOf s' 1).deadline = 4 ∧ 10 ∈ announced s' 1 ∧
      (campaignOf (step 100 s' (.call ⟨3, 4⟩ (.finalize 1))) 1).state = .failed) ∧
    (let s := run 100 s₀ ((fundedRun 4).take 3)
    let s' := step 100 s (.call ⟨2, 3⟩ (.extendDeadline 1 1000))
    (campaignOf s 1).totalRaised = (campaignOf s 1).targetAmount ∧ (campaignOf s 1).deadline = 10 ∧
      (campaignOf s' 1).deadline = 1000 ∧
      (campaignOf (step 100 s' (.call ⟨3, 10⟩ (.finalize 1))) 1).state = .opened) := by
  exact ⟨_, rfl, by decide, by decide⟩

end Runs

end IpoEscrow
