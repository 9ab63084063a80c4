import VistaBlox.PropertyToken
import Mathlib.Algebra.Order.BigOperators.Group.Finset

/-!
# Who can change the supply
-/
namespace PropertyToken

open Evm List Function

/-- Balances of one token identifier after an amount has left `src`; nobody
holds a balance under the zero address. -/
def debit (b : Address → Nat) (src : Address) (n : Nat) : Address → Nat :=
  if src = 0 then b else Function.update b src (b src - n)

def credit (b : Address → Nat) (dst : Address) (n : Nat) : Address → Nat :=
  if dst = 0 then b else Function.update b dst (b dst + n)

def suppliedAfter (supply : Nat) (src dst : Address) (n : Nat) : Nat :=
  let issued := if src = 0 then supply + n else supply
  if dst = 0 then wrappingSub issued n else issued

variable {id : TokenId} {n : Nat} {s s' : State} {src : Address}

theorem takeFrom_ok (h : takeFrom s src id n = .ok s') :
    (src ≠ 0 → n ≤ s.balances id src) ∧
    s' = { s with balances := Function.update s.balances id (debit (s.balances id) src n) } := by
  by_cases hs : src = 0
  · simp only [takeFrom, hs, ne_eq, not_true_eq_false, if_false] at h
    cases h
    simp [hs, debit]
  · simp only [takeFrom, hs, ne_eq, not_false_eq_true, if_true, revertIf_bind_ok] at h
    obtain ⟨hle, h⟩ := h
    cases h
    exact ⟨fun _ => Nat.le_of_not_lt hle, by simp [hs, debit, State.setBalance]⟩

variable {dst : Address}

theorem giveTo_ok (h : giveTo s dst id n = .ok s') :
    s' = { s with balances := Function.update s.balances id (credit (s.balances id) dst n) } := by
  by_cases hd : dst = 0
  · simp only [giveTo, hd, ne_eq, not_true_eq_false, if_false] at h
    cases h
    simp [hd, credit]
  · simp only [giveTo, hd, ne_eq, not_false_eq_true, if_true, checkedAdd_bind_ok] at h
    obtain ⟨_, h⟩ := h
    cases h
    simp [hd, credit, State.setBalance]

theorem issueAll_ok (h : issueAll s src [(id, n)] = .ok s') :
    (src = 0 → s.totalSupply id + n < wordBound) ∧
    ∃ all, s' = { s with
      totalSupply := Function.update s.totalSupply id (if src = 0 then s.totalSupply id + n else s.totalSupply id)
      totalSupplyAll := all } := by
  by_cases hs : src = 0
  · simp only [issueAll, hs, if_true, foldlM_cons, foldlM_nil, issue, bind_assoc, pure_bind,
      checkedAdd_bind_ok, State.setSupply] at h
    obtain ⟨hlt, _, _, h⟩ := h
    cases h
    exact ⟨fun _ => hlt, s.totalSupplyAll + (0 + n), by simp [hs]⟩
  · simp only [issueAll, hs, if_false] at h
    cases h
    exact ⟨fun h => absurd h hs, s.totalSupplyAll, by simp [hs]⟩

theorem retireAll_single :
    ∃ all, retireAll s dst [(id, n)] = { s with
      totalSupply := Function.update s.totalSupply id
        (if dst = 0 then wrappingSub (s.totalSupply id) n else s.totalSupply id)
      totalSupplyAll := all } := by
  by_cases hd : dst = 0
  · exact ⟨_, by simp [retireAll, hd, retire, State.setSupply]; rfl⟩
  · exact ⟨s.totalSupplyAll, by simp [retireAll, hd]⟩

variable {m : Msg}

theorem update_ok (h : update s m src dst [(id, n)] = .ok s') :
    s.paused = false ∧ s.tokenPaused id = false ∧ (dst ≠ 0 → s.authorizedHolders id dst = true) ∧
    (src ≠ 0 → n ≤ s.balances id src) ∧ (src = 0 → s.totalSupply id + n < wordBound) ∧
    ∃ all, s' = { s with
      balances := Function.update s.balances id (credit (debit (s.balances id) src n) dst n)
      totalSupply := Function.update s.totalSupply id (suppliedAfter (s.totalSupply id) src dst n)
      totalSupplyAll := all
      log := s.log ++ [.transferSingle m.sender src dst id n] } := by
  simp only [update, forM_cons, forM_nil, checkItem, bind_assoc, revertIf_bind_ok, pure_bind,
    supplyUpdate, pausableUpdate, whenNotPaused, baseUpdate, foldlM_cons, foldlM_nil, moveBalance,
    not_and, Bool.not_eq_true, Bool.not_eq_false] at h
  obtain ⟨htp, hauth, hp, h⟩ := h
  obtain ⟨d, hd, h⟩ := bind_ok.mp h
  obtain ⟨c, hc, h⟩ := bind_ok.mp h
  obtain ⟨i, hi, h⟩ := bind_ok.mp h
  obtain ⟨hle, rfl⟩ := takeFrom_ok hd
  obtain rfl := giveTo_ok hc
  obtain ⟨hlt, all, rfl⟩ := issueAll_ok hi
  cases h
  refine ⟨hp, htp, hauth, hle, hlt, ?_⟩
  obtain ⟨all', hr⟩ := retireAll_single
  exact ⟨all', by rw [hr]; simp [suppliedAfter, State.emit]⟩

/-- What a call hands to `update`: source, destination, token identifier and amount. -/
def Call.transfer : Call → Option (Address × Address × TokenId × Nat)
  | .mint dst id n _ => some (0, dst, id, n)
  | .burn src id n => some (src, 0, id, n)
  | .forceTransfer src dst id n _ => some (src, dst, id, n)
  | _ => none

def Event.transfer : Event → Option (Address × Address × TokenId × Nat)
  | .transferSingle _ src dst id n => some (src, dst, id, n)
  | _ => none

/-- The per-token flags after a call. -/
def Call.tokenPausedAfter (flags : TokenId → Bool) : Call → TokenId → Bool
  | .pauseToken id => Function.update flags id true
  | .unpauseToken id => Function.update flags id false
  | _ => flags

/-- The contract's flag after a call. -/
def Call.pausedAfter (flag : Bool) : Call → Bool
  | .pause => true
  | .unpause => false
  | _ => flag

variable {c : Call}

theorem update_flags (h : update s m src dst [(id, n)] = .ok s') :
    s'.tokenPaused = s.tokenPaused ∧ s'.paused = s.paused := by
  obtain ⟨_, _, _, _, _, all, rfl⟩ := update_ok h
  exact ⟨rfl, rfl⟩

/-- A call makes the one transfer it stands for, or none. -/
theorem exec_cases (h : exec s m c = .ok s') :
    (s'.tokenPaused = c.tokenPausedAfter s.tokenPaused ∧ s'.paused = c.pausedAfter s.paused) ∧
    ((c.transfer = none ∧ s'.balances = s.balances ∧ s'.totalSupply = s.totalSupply ∧
      ∃ l, s'.log = s.log ++ l ∧ ∀ e ∈ l, e.transfer = none) ∨
    ∃ src dst id n s₁, c.transfer = some (src, dst, id, n) ∧ update s m src dst [(id, n)] = .ok s₁ ∧
      s'.balances = s₁.balances ∧ s'.totalSupply = s₁.totalSupply ∧
      ∃ l, s'.log = s₁.log ++ l ∧ ∀ e ∈ l, e.transfer = none) := by
  cases c with
  | mint =>
    simp only [exec, mint, Access.onlyRole, revertIf_bind_ok] at h
    obtain ⟨_, _, h⟩ := h
    obtain ⟨s₁, hu, h⟩ := bind_ok.mp h
    obtain ⟨_, h⟩ := revertIf_bind_ok.mp h
    cases h
    exact ⟨update_flags hu, .inr ⟨_, _, _, _, s', rfl, hu, rfl, rfl, [], by simp⟩⟩
  | burn =>
    simp only [exec, burn, Access.onlyRole, revertIf_bind_ok] at h
    exact ⟨update_flags h.2.2, .inr ⟨_, _, _, _, s', rfl, h.2.2, rfl, rfl, [], by simp⟩⟩
  | forceTransfer =>
    simp only [exec, forceTransfer, Access.onlyRole, revertIf_bind_ok] at h
    obtain ⟨s₁, hu, h⟩ := bind_ok.mp h.2
    cases h
    obtain ⟨htoken, hpaused⟩ := update_flags hu
    exact ⟨⟨htoken, hpaused⟩, .inr ⟨_, _, _, _, s₁, rfl, hu, rfl, rfl, [_], rfl, by simp [Event.transfer]⟩⟩
  | role =>
    obtain ⟨a, _, h⟩ := bind_ok.mp h
    cases h
    exact ⟨⟨rfl, rfl⟩, .inl ⟨rfl, rfl, rfl, [], by simp⟩⟩
  | safeTransferFrom | safeBatchTransferFrom => cases h
  | pause | unpause =>
    simp only [exec, pause, unpause, Access.onlyRole, whenNotPaused, whenPaused, revertIf_bind_ok] at h
    obtain ⟨_, _, h⟩ := h
    cases h
    exact ⟨⟨rfl, rfl⟩, .inl ⟨rfl, rfl, rfl, [], by simp⟩⟩
  | pauseToken | unpauseToken | authorizeHolder | deauthorizeHolder | setDocumentHash =>
    simp only [exec, pauseToken, unpauseToken, authorizeHolder, deauthorizeHolder, setDocumentHash,
      Access.onlyRole, revertIf_bind_ok] at h
    obtain ⟨_, h⟩ := h
    cases h
    exact ⟨⟨rfl, rfl⟩, .inl ⟨rfl, rfl, rfl, [_], rfl, by simp [Event.transfer]⟩⟩

theorem exec_log (h : exec s m c = .ok s') :
    ∃ l, s'.log = s.log ++ l ∧ (∀ e ∈ l, ∀ x, e.transfer = some x → c.transfer = some x) ∧
      ∀ src dst id n, c.transfer = some (src, dst, id, n) → .transferSingle m.sender src dst id n ∈ l := by
  obtain ⟨hc, _, _, l, hl, hnone⟩ | ⟨src, dst, id, n, s₁, hc, hu, _, _, l, hl, hnone⟩ := (exec_cases h).2
  · refine ⟨l, hl, fun e he x hx => ?_, fun src dst id n hn => ?_⟩
    · rw [hnone e he] at hx; cases hx
    · rw [hc] at hn; cases hn
  · obtain ⟨_, _, _, _, _, all, rfl⟩ := update_ok hu
    refine ⟨.transferSingle m.sender src dst id n :: l, by simp [hl], fun e he x hx => ?_, ?_⟩
    · obtain rfl | he := mem_cons.mp he
      · exact hc.trans hx
      · rw [hnone e he] at hx; cases hx
    · intro src' dst' id' n' hn
      rw [hc] at hn
      cases hn
      exact mem_cons_self

theorem exec_other (h : exec s m c = .ok s') (id : TokenId) (hc : ∀ src dst n, c.transfer ≠ some (src, dst, id, n)) :
    s'.balances id = s.balances id := by
  obtain ⟨_, hb, _⟩ | ⟨src, dst, id', n, s₁, hc', hu, hb, _⟩ := (exec_cases h).2
  · rw [hb]
  · obtain ⟨_, _, _, _, _, all, rfl⟩ := update_ok hu
    have hne : id ≠ id' := fun he => hc src dst n (he ▸ hc')
    simp [hb, hne]

variable {accepted : Bool}

theorem mint_balance (h : mint s m dst id n accepted = .ok s') (a : Address) :
    s'.balances id a = s.balances id a + (if a = dst then n else 0) := by
  simp only [mint, Access.onlyRole, revertIf_bind_ok] at h
  obtain ⟨_, hdst, h⟩ := h
  obtain ⟨s₁, hu, h⟩ := bind_ok.mp h
  obtain ⟨_, h⟩ := revertIf_bind_ok.mp h
  cases h
  obtain ⟨_, _, _, _, _, all, rfl⟩ := update_ok hu
  by_cases ha : a = dst <;> simp [credit, debit, hdst, ha]

theorem mint_role (h : mint s m dst id n accepted = .ok s') : s.access.hasRole .minter m.sender = true ∧ dst ≠ 0 := by
  simp only [mint, Access.onlyRole, revertIf_bind_ok, Bool.not_eq_false] at h
  exact ⟨h.1, h.2.1⟩

theorem burn_role (h : burn s m src id n = .ok s') : s.access.hasRole .burner m.sender = true ∧ src ≠ 0 := by
  simp only [burn, Access.onlyRole, revertIf_bind_ok, Bool.not_eq_false] at h
  exact ⟨h.1, h.2.1⟩

/-- The tracked supply is what the holders hold, and fits a word. -/
structure Tracked (s : State) : Prop where
  sum : ∀ id, ∑ a, s.balances id a = s.totalSupply id
  bound : ∀ id, s.totalSupply id < wordBound

theorem wrappingSub_eq (h : b ≤ a) (ha : a < wordBound) : wrappingSub a b = a - b := by
  have hsplit : a + wordBound - b = a - b + wordBound := by omega
  rw [wrappingSub, hsplit, Nat.add_mod_right, Nat.mod_eq_of_lt (by omega)]

theorem sum_debit (b : Address → Nat) (src : Address) (n : Nat) (h : src ≠ 0 → n ≤ b src) :
    ∑ a, debit b src n a + (if src = 0 then 0 else n) = ∑ a, b a := by
  by_cases hs : src = 0
  · simp [debit, hs]
  · have hsum := sum_update b src (b src - n)
    have hle := h hs
    simp only [debit, hs, if_false]
    omega

theorem sum_credit (b : Address → Nat) (dst : Address) (n : Nat) :
    ∑ a, credit b dst n a = ∑ a, b a + (if dst = 0 then 0 else n) := by
  by_cases hd : dst = 0
  · simp [credit, hd]
  · have hsum := sum_update b dst (b dst + n)
    simp only [credit, hd, if_false]
    omega

/-- What one transfer does to the supply, as the library documents it: the zero
address as source creates units, as destination destroys them. -/
theorem suppliedAfter_eq (dst : Address) (hlt : supply < wordBound) (hissue : src = 0 → supply + n < wordBound)
    (hcover : src ≠ 0 → n ≤ supply) :
    suppliedAfter supply src dst n + (if dst = 0 then n else 0) = supply + (if src = 0 then n else 0) := by
  by_cases hs : src = 0 <;> by_cases hd : dst = 0 <;> simp only [suppliedAfter, hs, hd, if_true, if_false]
  · have hi := hissue hs
    rw [wrappingSub_eq (by omega) hi]
    omega
  · omega
  · have hc := hcover hs
    rw [wrappingSub_eq hc hlt]
    omega

theorem balance_le_sum (b : Address → Nat) (a : Address) : b a ≤ ∑ x, b x :=
  Finset.single_le_sum (fun _ _ => Nat.zero_le _) (Finset.mem_univ a)

theorem update_supply (hs : Tracked s) (h : update s m src dst [(id, n)] = .ok s') :
    s'.totalSupply id + (if dst = 0 then n else 0) = s.totalSupply id + (if src = 0 then n else 0) ∧
    ∑ a, s'.balances id a = s'.totalSupply id ∧ s'.totalSupply id < wordBound ∧
    ∀ id', id' ≠ id → s'.totalSupply id' = s.totalSupply id' ∧ s'.balances id' = s.balances id' := by
  obtain ⟨_, _, _, hle, hlt, all, rfl⟩ := update_ok h
  have hcover : src ≠ 0 → n ≤ s.totalSupply id := fun hne =>
    (hle hne).trans ((balance_le_sum _ src).trans_eq (hs.sum id))
  have hafter := suppliedAfter_eq dst (hs.bound id) hlt hcover
  have hdebit := sum_debit (s.balances id) src n hle
  have hcredit := sum_credit (debit (s.balances id) src n) dst n
  have hsum := hs.sum id
  have hbound := hs.bound id
  refine ⟨by simpa using hafter, ?_, ?_, fun id' hne => by simp [hne]⟩
  · simp only [update_self]
    by_cases hz : src = 0 <;> by_cases hd : dst = 0 <;> simp only [hz, hd, if_true, if_false] at * <;> omega
  · simp only [update_self]
    by_cases hz : src = 0
    · have := hlt hz
      simp only [hz, if_true] at hafter ⊢
      omega
    · simp only [hz, if_false] at hafter ⊢
      omega

/-- The balances of a token add up to its supply after every call. -/
theorem Tracked.exec (hs : Tracked s) (h : exec s m c = .ok s') : Tracked s' := by
  obtain ⟨_, hb, ht, _⟩ | ⟨src, dst, id, n, s₁, _, hu, hb, ht, _⟩ := (exec_cases h).2
  · exact ⟨fun id => by rw [hb, ht]; exact hs.sum id, fun id => by rw [ht]; exact hs.bound id⟩
  · obtain ⟨_, hsum, hbound, hother⟩ := update_supply hs hu
    constructor <;> intro id' <;> rw [ht] <;> by_cases hid : id' = id
    · rw [hb, hid, hsum]
    · rw [hb, (hother id' hid).1, (hother id' hid).2, hs.sum]
    · rw [hid]; exact hbound
    · rw [(hother id' hid).1]; exact hs.bound id'

theorem tracked_deployed (m : Msg) : Tracked (deploy m) :=
  ⟨fun id => by simp [deploy], fun id => by simp [deploy, wordBound]⟩

/-- A property of every successful call along a run. -/
def EveryCall (P : State → Msg → Call → State → Prop) (s : State) : List (Msg × Call) → Prop
  | [] => True
  | (m, c) :: rest => (∀ s', exec s m c = .ok s' → P s m c s') ∧ EveryCall P (step s m c) rest

theorem Tracked.step (hs : Tracked s) (m : Msg) (c : Call) : Tracked (step s m c) := by
  unfold PropertyToken.step
  split
  · exact hs.exec ‹_›
  · exact hs

theorem everyCall_congr (hPQ : ∀ s m c s', Tracked s → exec s m c = .ok s' → (P s m c s' ↔ Q s m c s')) (s : State)
    (hs : Tracked s) (calls : List (Msg × Call)) : EveryCall P s calls ↔ EveryCall Q s calls := by
  induction calls generalizing s with
  | nil => exact Iff.rfl
  | cons mc rest ih =>
    obtain ⟨m, c⟩ := mc
    exact and_congr (forall_congr' fun s' => imp_congr_right fun h => hPQ s m c s' hs h)
      (ih (PropertyToken.step s m c) (hs.step m c))

/-- The supply rises in a mint by a minter and falls in a burn by a burner; a
forced transfer leaves it, and the sum of the balances, alone. -/
def SupplySeparated (s : State) (m : Msg) (c : Call) (s' : State) : Prop :=
  ∀ id,
    (s.totalSupply id < s'.totalSupply id →
      (∃ dst n accepted, c = .mint dst id n accepted) ∧ s.access.hasRole .minter m.sender = true) ∧
    (s'.totalSupply id < s.totalSupply id →
      (∃ src n, c = .burn src id n) ∧ s.access.hasRole .burner m.sender = true) ∧
    ((∃ src dst id' n reason, c = .forceTransfer src dst id' n reason) →
      s'.totalSupply id = s.totalSupply id ∧ ∑ a, s'.balances id a = ∑ a, s.balances id a)

/-- A forced transfer that moves something moves it between two holders. -/
def BetweenHolders : Call → Prop
  | .forceTransfer src dst _ n _ => n = 0 ∨ (src = 0 ↔ dst = 0)
  | _ => True

/-- The units of a token identifier that a call creates, and those it destroys. -/
def Call.issued (c : Call) (id : TokenId) : Nat :=
  match c.transfer with
  | some (src, _, id', n) => if src = 0 ∧ id' = id then n else 0
  | none => 0

def Call.retired (c : Call) (id : TokenId) : Nat :=
  match c.transfer with
  | some (_, dst, id', n) => if dst = 0 ∧ id' = id then n else 0
  | none => 0

/-- The supply changes by what is issued and retired. -/
theorem exec_supply (hs : Tracked s) (h : exec s m c = .ok s') (id : TokenId) :
    s'.totalSupply id + c.retired id = s.totalSupply id + c.issued id := by
  obtain ⟨hc, _, ht, _⟩ | ⟨src, dst, id', n, s₁, hc, hu, _, ht, _⟩ := (exec_cases h).2
  · simp [ht, Call.issued, Call.retired, hc]
  · obtain ⟨heq, _, _, hother⟩ := update_supply hs hu
    by_cases hid : id = id'
    · subst hid
      simpa [ht, Call.issued, Call.retired, hc] using heq
    · simp [ht, Call.issued, Call.retired, hc, Ne.symm hid, (hother id hid).1]

theorem betweenHolders_iff :
    BetweenHolders (.forceTransfer src dst id n reason) ↔
      ∀ id', (Call.forceTransfer src dst id n reason).issued id' =
        (Call.forceTransfer src dst id n reason).retired id' := by
  constructor
  · rintro (rfl | hb) id'
    · simp [Call.issued, Call.retired, Call.transfer]
    · simp [Call.issued, Call.retired, Call.transfer, hb]
  · intro h
    have hid := h id
    by_cases hs : src = 0 <;> by_cases hd : dst = 0 <;>
      simp_all [Call.issued, Call.retired, Call.transfer, BetweenHolders]

theorem separated_iff (hs : Tracked s) (h : exec s m c = .ok s') : SupplySeparated s m c s' ↔ BetweenHolders c := by
  have hsupply := exec_supply hs h
  cases c with
  | forceTransfer =>
    rw [betweenHolders_iff]
    constructor
    · intro hsep id'
      have hsame := ((hsep id').2.2 ⟨_, _, _, _, _, rfl⟩).1
      have heq := hsupply id'
      omega
    · intro hb id'
      have hsame : s'.totalSupply id' = s.totalSupply id' := by
        have heq := hsupply id'
        rw [hb id'] at heq
        omega
      refine ⟨fun hlt => by omega, fun hlt => by omega, fun _ => ⟨hsame, ?_⟩⟩
      rw [(hs.exec h).sum, hs.sum, hsame]
  | mint dst id n accepted =>
    refine iff_of_true (fun id' => ?_) trivial
    obtain ⟨hrole, hdst⟩ := mint_role h
    have heq := hsupply id'
    simp only [Call.issued, Call.retired, Call.transfer, hdst, false_and, if_false, true_and] at heq
    refine ⟨fun hlt => ⟨?_, hrole⟩, fun hlt => ?_, by rintro ⟨_, _, _, _, _, hc⟩; cases hc⟩
    · split at heq
      · subst_vars; exact ⟨dst, n, accepted, rfl⟩
      · omega
    · split at heq <;> omega
  | burn src id n =>
    refine iff_of_true (fun id' => ?_) trivial
    obtain ⟨hrole, hsrc⟩ := burn_role h
    have heq := hsupply id'
    simp only [Call.issued, Call.retired, Call.transfer, hsrc, false_and, if_false, true_and] at heq
    refine ⟨fun hlt => ?_, fun hlt => ⟨?_, hrole⟩, by rintro ⟨_, _, _, _, _, hc⟩; cases hc⟩
    · split at heq <;> omega
    · split at heq
      · subst_vars; exact ⟨src, n, rfl⟩
      · omega
  | _ =>
    refine iff_of_true (fun id' => ?_) trivial
    have heq : s'.totalSupply id' = s.totalSupply id' := hsupply id'
    exact ⟨fun hlt => by omega, fun hlt => by omega, by rintro ⟨_, _, _, _, _, hc⟩; cases hc⟩

/-- Along every run, the supply is separated by role in every call exactly if
every forced transfer is one between holders. -/
theorem supply_separated_iff_between_holders (deployer : Msg) (calls : List (Msg × Call)) :
    EveryCall SupplySeparated (deploy deployer) calls ↔
      EveryCall (fun _ _ c _ => BetweenHolders c) (deploy deployer) calls :=
  everyCall_congr (fun _ _ _ _ hs h => separated_iff hs h) _ (tracked_deployed deployer) calls

/-- Account 2 is a transfer agent and nothing else. -/
def transferAgentRun : List (Msg × Call) :=
  [(⟨1, 0⟩, .role (.grantRole .transferAgent 2)),
   (⟨2, 0⟩, .authorizeHolder 3 7)]

theorem forceTransfer_creates_and_destroys :
    let s₀ := run (deploy ⟨1, 0⟩) transferAgentRun
    let s₁ := step s₀ ⟨2, 0⟩ (.forceTransfer 0 3 7 5 0)
    let s₂ := step s₁ ⟨2, 0⟩ (.forceTransfer 3 0 7 2 0)
    s₀.access.hasRole .minter 2 = false ∧ s₀.access.hasRole .burner 2 = false ∧
      s₀.totalSupply 7 = 0 ∧ s₁.totalSupply 7 = 5 ∧ s₂.totalSupply 7 = 3 ∧ balanceOf s₂ 3 7 = 3 := by
  decide

end PropertyToken
