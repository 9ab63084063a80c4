import VistaBlox.DeviceEnrolment
import VistaBlox.Table

/-!
# What EXPIRED promises

A phone drops its pending key only on EXPIRED, so no enrolment with this challenge may have
registered a device or still can. But a consumption dates itself to its start and is seen
from its commit: one that started before the expiry can commit after a replay has found the
challenge unused.
-/
namespace DeviceEnrolment

open Interleaving List Option

variable {r : DeviceChallenge} {w w' : World}

/-- Nobody can consume or use the row for an enrolment any more. -/
def DeviceChallenge.Dead (w : World) (r : DeviceChallenge) : Prop :=
  match r.consumedAt with
  | some consumedAt => consumedAt + enrolmentInsertDeadline ≤ w.now
  | none => r.purpose = .enrolDevice → r.deviceId = none → r.expiresAt ≤ w.now ∧
      ∀ p ∈ w.consuming, p.challenge = r.challenge → p.dpopJkt = r.dpopJkt → r.expiresAt ≤ p.startedAt

def Issued (challenge : Challenge) (w : World) : Prop := ∃ jkt, (challenge, jkt) ∈ w.issued

/-- No enrolment with this challenge will register anything from now on. -/
structure Settled (challenge : Challenge) (w : World) : Prop where
  issued : Issued challenge w
  unlocked : ∀ l ∈ w.locks, l.challenge = challenge → l.live w.now = false
  dead : ∀ r ∈ w.challenges, r.challenge = challenge → r.Dead w

/-- No device registered with this challenge is active. -/
def Clear (challenge : Challenge) (w : World) : Prop := ∀ d ∈ w.devices, d.challenge = challenge → d.active = false

/-- A consumption of this challenge with this key comes too late. -/
structure Unusable (challenge : Challenge) (dpopJkt : Jkt) (w : World) : Prop where
  issued : Issued challenge w
  expired : ∀ r ∈ w.challenges, r.isFor .enrolDevice challenge dpopJkt = true → r.deviceId = none →
    r.consumedAt = none →
    r.expiresAt ≤ w.now

/-- The challenge was consumed, and presented no later than this. -/
def ConsumedFor (challenge : Challenge) (presentedAt : ℤ) (w : World) : Prop :=
  ∃ x ∈ w.consumptions, x.challenge = challenge ∧ presentedAt ≤ x.consumedAt + challengeReplayWindow

def Answer.Holds (w : World) (a : Answer) : Prop :=
  match a.verdict with
  | .expired => Settled a.challenge w ∧ Clear a.challenge w
  | .replayed => ConsumedFor a.challenge a.presentedAt w

/-- What no step takes back. -/
structure Onward (w w' : World) : Prop where
  now : w.now ≤ w'.now
  issued : ∀ i ∈ w.issued, i ∈ w'.issued
  consumptions : ∀ x ∈ w.consumptions, x ∈ w'.consumptions
  unusable : ∀ challenge dpopJkt, Unusable challenge dpopJkt w → Unusable challenge dpopJkt w'
  settled : ∀ challenge, Settled challenge w → Settled challenge w'
  clear : ∀ challenge, Settled challenge w → Clear challenge w → Clear challenge w'

theorem Onward.refl (w : World) : Onward w w :=
  ⟨le_rfl, fun _ h => h, fun _ h => h, fun _ _ h => h, fun _ h => h, fun _ _ h => h⟩

/-- A row of an issued challenge keeps everything but its consumption, and that
too unless the challenge was still open. -/
structure RowKept (w : World) (r r' : DeviceChallenge) : Prop where
  challenge : r'.challenge = r.challenge
  purpose : r'.purpose = r.purpose
  dpopJkt : r'.dpopJkt = r.dpopJkt
  deviceId : r'.deviceId = r.deviceId
  expiresAt : r'.expiresAt = r.expiresAt
  consumedAt : r'.consumedAt = r.consumedAt ∨ (¬ Settled r.challenge w ∧ r'.consumedAt ≠ none)

theorem RowKept.refl (w : World) (r : DeviceChallenge) : RowKept w r r := ⟨rfl, rfl, rfl, rfl, rfl, .inl rfl⟩

theorem RowKept.dead (h : RowKept w r r') (hnow : w.now ≤ w'.now)
    (hconsuming : ∀ p ∈ w'.consuming, p ∈ w.consuming ∨ w.now ≤ p.startedAt) (hsettled : Settled r.challenge w)
    (hdead : r.Dead w) : r'.Dead w' := by
  obtain hsame | hopen := h.consumedAt
  · unfold DeviceChallenge.Dead at hdead ⊢
    rw [hsame, h.purpose, h.deviceId, h.expiresAt, h.challenge, h.dpopJkt]
    split
    · rename_i consumedAt hconsumed
      simp only [hconsumed] at hdead
      exact hdead.trans hnow
    · rename_i hnone
      simp only [hnone] at hdead
      intro hpurpose hdevice
      obtain ⟨hexpired, hstarted⟩ := hdead hpurpose hdevice
      refine ⟨hexpired.trans hnow, fun p hp hchallenge hjkt => ?_⟩
      obtain hold | hlate := hconsuming p hp
      · exact hstarted p hold hchallenge hjkt
      · exact hexpired.trans hlate
  · exact absurd hsettled hopen.1

/-- What a step does to the tables: it keeps the rows, locks and registers no
settled challenge, and starts no consumption in the past. -/
structure Kept (w w' : World) : Prop where
  now : w.now ≤ w'.now
  issued : ∀ i ∈ w.issued, i ∈ w'.issued
  consumptions : ∀ x ∈ w.consumptions, x ∈ w'.consumptions
  rows : ∀ r' ∈ w'.challenges, Issued r'.challenge w → ∃ r ∈ w.challenges, RowKept w r r'
  locks : ∀ l ∈ w'.locks, l ∈ w.locks ∨ ¬ Settled l.challenge w
  consuming : ∀ p ∈ w'.consuming, p ∈ w.consuming ∨ w.now ≤ p.startedAt
  devices : ∀ d ∈ w'.devices, d.active = true →
    (∃ d₀ ∈ w.devices, d₀.active = true ∧ d₀.challenge = d.challenge) ∨ ¬ Settled d.challenge w

theorem Kept.refl (w : World) : Kept w w where
  now := le_rfl
  issued _ hi := hi
  consumptions _ hx := hx
  rows r hr _ := ⟨r, hr, RowKept.refl w r⟩
  locks _ hl := .inl hl
  consuming _ hp := .inl hp
  devices d hd hactive := .inl ⟨d, hd, hactive, rfl⟩

theorem Kept.onward (hkept : Kept w w') : Onward w w' where
  now := hkept.now
  issued := hkept.issued
  consumptions := hkept.consumptions
  unusable challenge dpopJkt h := by
    obtain ⟨jkt, hjkt⟩ := h.issued
    refine ⟨⟨jkt, hkept.issued _ hjkt⟩, fun r' hr' hfor hdevice hnone => ?_⟩
    have hchallenge : r'.challenge = challenge := (of_decide_eq_true hfor).1
    obtain ⟨r, hr, hrow⟩ := hkept.rows r' hr' (hchallenge ▸ h.issued)
    obtain hsame | hopen := hrow.consumedAt
    · rw [hrow.expiresAt]
      refine (h.expired r hr ?_ (hrow.deviceId ▸ hdevice) (hsame ▸ hnone)).trans hkept.now
      simpa only [DeviceChallenge.isFor, hrow.challenge, hrow.purpose, hrow.dpopJkt] using hfor
    · exact absurd hnone hopen.2
  settled challenge h := by
    obtain ⟨jkt, hjkt⟩ := h.issued
    refine ⟨⟨jkt, hkept.issued _ hjkt⟩, fun l hl hchallenge => ?_, fun r' hr' hchallenge => ?_⟩
    · obtain hold | hnew := hkept.locks l hl
      · have hgone := h.unlocked l hold hchallenge
        simp only [Lock.live, decide_eq_false_iff_not, not_lt] at hgone ⊢
        exact hgone.trans hkept.now
      · exact absurd (hchallenge ▸ h) hnew
    · obtain ⟨r, hr, hrow⟩ := hkept.rows r' hr' (hchallenge ▸ h.issued)
      have hr_challenge : r.challenge = challenge := hrow.challenge.symm.trans hchallenge
      exact hrow.dead hkept.now hkept.consuming (hr_challenge ▸ h) (h.dead r hr hr_challenge)
  clear challenge h hclear d hd hchallenge := by
    by_contra hactive
    obtain ⟨d₀, hd₀, hactive₀, hsame⟩ | hopen := hkept.devices d hd (by simpa using hactive)
    · have hnot := hclear d₀ hd₀ (hsame.trans hchallenge)
      rw [hnot] at hactive₀
      cases hactive₀
    · exact hopen (hchallenge ▸ h)

theorem Answer.Holds.onward {a : Answer} (h : Onward w w') (ha : a.Holds w) : a.Holds w' := by
  unfold Answer.Holds at ha ⊢
  split at ha
  · exact ⟨h.settled _ ha.1, h.clear _ ha.1 ha.2⟩
  · obtain ⟨x, hx, hchallenge, hlate⟩ := ha
    exact ⟨x, h.consumptions x hx, hchallenge, hlate⟩

/-- How the tables hang together. -/
structure Tables (w : World) : Prop where
  rows_issued : ∀ r ∈ w.challenges, (r.challenge, r.dpopJkt) ∈ w.issued
  issued_once : ∀ i ∈ w.issued, ∀ j ∈ w.issued, j.1 = i.1 → j.2 = i.2
  keyed : Table.Keyed DeviceChallenge.challenge w.challenges
  consumed : ∀ r ∈ w.challenges, ∀ τ, r.consumedAt = some τ →
    r.purpose = .enrolDevice ∧ r.deviceId = none ∧ ⟨r.challenge, τ⟩ ∈ w.consumptions
  recorded : ∀ x ∈ w.consumptions, Issued x.challenge w ∧
    ∀ r ∈ w.challenges, r.challenge = x.challenge → r.consumedAt = some x.consumedAt
  once : ∀ x ∈ w.consumptions, ∀ y ∈ w.consumptions, y.challenge = x.challenge → y = x
  locked : ∀ l ∈ w.locks, l.live w.now = true → ∃ r ∈ w.challenges, r.challenge = l.challenge ∧
    ∃ τ, r.consumedAt = some τ ∧ l.since < τ + enrolmentInsertDeadline
  registered : ∀ d ∈ w.devices, (d.challenge, d.dpopJkt) ∈ w.issued

structure Sound (w : World) : Prop where
  tables : Tables w
  answered : ∀ a ∈ w.answers, a.Holds w

def rules : Rules World Op where
  inv := Sound
  rely u w w' := Onward w w' ∧ ∀ p ∈ w.consuming, p.thread = u → p ∈ w'.consuming
  req t op w := match op with
    | .consume challenge dpopJkt now => ⟨t, challenge, dpopJkt, now⟩ ∈ w.consuming
    | .insertDevice _ dpopJkt challenge => (challenge, dpopJkt) ∈ w.issued
    | .answer verdict presented => presented.known = true →
        (⟨verdict, presented.challenge, presented.presentedAt⟩ : Answer).Holds w
    | _ => True

/-- A challenge is checked for use by the key it was issued to, and if it is
unconsumed no consumption of it that started in time is still to commit. -/
def inTime : Guard World Event Op where
  call _ op w := match op with
    | .wasConsumedWithinReplayWindow challenge dpopJkt _ => (∀ i ∈ w.issued, i.1 = challenge → i.2 = dpopJkt) ∧
        ∀ r ∈ w.challenges, r.challenge = challenge → r.consumedAt = none →
          ∀ p ∈ w.consuming, p.challenge = challenge → p.dpopJkt = dpopJkt → r.expiresAt ≤ p.startedAt
    | _ => True
  env _ _ := True

variable {P : ℤ → Prop} {challenge : Challenge} {dpopJkt : Jkt} {now : ℤ} {presented : Presentation}

section Statements

variable {t : Nat}

/-- Answers that were true stay true when the tables move on. -/
theorem Sound.step (h : Sound w) (htables : Tables w') (honward : Onward w w') (hanswers : w'.answers = w.answers) :
    Sound w' :=
  ⟨htables, fun a ha => (h.answered a (hanswers ▸ ha)).onward honward⟩

theorem Lock.live_of_later {now' : ℤ} {l : Lock} (hnow : now ≤ now') (h : l.live now' = true) :
    l.live now = true := by
  simp only [Lock.live, decide_eq_true_eq] at h ⊢
  omega

theorem tick_keeps (h : Tables w) (hus : 0 ≤ us) :
    Tables { w with now := w.now + us } ∧ Onward w { w with now := w.now + us } := by
  have hnow : w.now ≤ w.now + us := by omega
  refine ⟨{ h with locked := fun l hl hlive => ?_ }, ?_⟩
  · exact h.locked l hl (Lock.live_of_later hnow hlive)
  · exact Kept.onward { Kept.refl w with now := hnow }

theorem issue_keeps (h : Tables w)
    (hissue : issue challenge purpose dpopJkt deviceId ttlSeconds w = some (expiresAt, w')) :
    Tables w' ∧ Onward w w' := by
  simp only [issue, ite_none_left_eq_some, some.injEq, Prod.mk.injEq, List.any_eq_true,
    decide_eq_true_eq, not_exists, not_and] at hissue
  obtain ⟨hnew, rfl, rfl⟩ := hissue
  have hfresh : ¬ Issued challenge w := fun ⟨jkt, hjkt⟩ => hnew _ hjkt rfl
  constructor
  · refine ⟨?_, ?_, ?_, ?_, ?_, h.once, ?_, fun d hd => mem_append_left _ (h.registered d hd)⟩
    · intro r hr
      obtain hr | hr := mem_append.mp hr
      · exact mem_append_left _ (h.rows_issued r hr)
      · simp [mem_singleton.mp hr]
    · intro i hi j hj hsame
      obtain hi | hi := mem_append.mp hi <;> obtain hj | hj := mem_append.mp hj
      · exact h.issued_once i hi j hj hsame
      · rw [mem_singleton.mp hj] at hsame
        exact absurd hsame.symm (hnew i hi)
      · rw [mem_singleton.mp hi] at hsame
        exact absurd hsame (hnew j hj)
      · rw [mem_singleton.mp hi, mem_singleton.mp hj]
    · refine h.keyed.append ?_
      simp only [Table.find, find?_eq_none, decide_eq_true_eq]
      exact fun r hr hsame => hfresh (hsame ▸ ⟨r.dpopJkt, h.rows_issued r hr⟩)
    · intro r hr τ hτ
      obtain hr | rfl := Table.mem_add hr
      · exact h.consumed r hr τ hτ
      · cases hτ
    · intro x hx
      obtain ⟨⟨jkt, hjkt⟩, hrows⟩ := h.recorded x hx
      refine ⟨⟨jkt, mem_append_left _ hjkt⟩, fun r hr hsame => ?_⟩
      obtain hr | rfl := Table.mem_add hr
      · exact hrows r hr hsame
      · have hissued : Issued challenge w := ⟨jkt, (show challenge = x.challenge from hsame) ▸ hjkt⟩
        exact absurd hissued hfresh
    · intro l hl hlive
      obtain ⟨r, hr, hrest⟩ := h.locked l hl hlive
      exact ⟨r, mem_append_left _ hr, hrest⟩
  · refine Kept.onward { Kept.refl w with issued := fun _ hi => mem_append_left _ hi, rows := fun r hr hissued => ?_ }
    obtain hr | rfl := Table.mem_add hr
    · exact ⟨r, hr, RowKept.refl w r⟩
    · exact absurd hissued hfresh

theorem startConsume_keeps (h : Tables w) :
    Tables (startConsume t challenge dpopJkt w) ∧ Onward w (startConsume t challenge dpopJkt w) := by
  refine ⟨{ h with }, ?_⟩
  refine Kept.onward { Kept.refl w with consuming := fun p hp => ?_ }
  obtain hp | hp := mem_append.mp hp
  · exact .inl hp
  · exact .inr (by simp [mem_singleton.mp hp])

theorem consumable_iff :
    r.consumable .enrolDevice challenge dpopJkt none now = true ↔ r.challenge = challenge ∧ r.purpose = .enrolDevice ∧
      r.dpopJkt = dpopJkt ∧ r.deviceId = none ∧ r.consumedAt = none ∧ now < r.expiresAt := by
  simp [DeviceChallenge.consumable, DeviceChallenge.isFor, and_assoc]

theorem not_settled_of_consumable (hr : r ∈ w.challenges) (hstarted : ⟨t, challenge, dpopJkt, now⟩ ∈ w.consuming)
    (hopen : r.consumable .enrolDevice challenge dpopJkt none now = true) : ¬ Settled r.challenge w := by
  obtain ⟨hchallenge, hpurpose, hjkt, hdevice, hnone, hlt⟩ := consumable_iff.mp hopen
  intro hsettled
  have hdead := hsettled.dead r hr rfl
  simp only [DeviceChallenge.Dead, hnone] at hdead
  exact absurd ((hdead hpurpose hdevice).2 _ hstarted hchallenge.symm hjkt.symm) (not_le_of_gt hlt)

theorem consume_keeps (h : Tables w) (hstarted : ⟨t, challenge, dpopJkt, now⟩ ∈ w.consuming) :
    Tables (consume t challenge dpopJkt now w).2 ∧ Onward w (consume t challenge dpopJkt now w).2 := by
  have hold : ∀ p ∈ w.consuming.filter (fun p => p.thread ≠ t), p ∈ w.consuming ∨ w.now ≤ p.startedAt :=
    fun p hp => .inl (mem_of_mem_filter hp)
  simp only [consume]
  split
  · rename_i hany
    obtain ⟨r₀, hr₀, hopen₀⟩ := List.any_eq_true.mp hany
    obtain ⟨hchallenge₀, -, hjkt₀, -, hnone₀, -⟩ := consumable_iff.mp hopen₀
    have hfirst : ∀ x ∈ w.consumptions, x.challenge ≠ challenge := by
      intro x hx hsame
      have hconsumed := (h.recorded x hx).2 r₀ hr₀ (hchallenge₀.trans hsame.symm)
      rw [hnone₀] at hconsumed
      cases hconsumed
    constructor
    · refine ⟨?_, h.issued_once, ?_, ?_, ?_, ?_, ?_, h.registered⟩
      · intro r' hr'
        obtain ⟨r, hr, rfl⟩ := List.mem_map.mp hr'
        split <;> exact h.rows_issued r hr
      · refine h.keyed.map fun r _ => ?_
        split <;> rfl
      · intro r' hr' τ hτ
        obtain ⟨r, hr, rfl⟩ := List.mem_map.mp hr'
        split at hτ
        · rename_i hopen
          obtain ⟨hchallenge, hpurpose, -, hdevice, -, -⟩ := consumable_iff.mp hopen
          cases hτ
          rw [if_pos hopen]
          exact ⟨hpurpose, hdevice, by simp [hchallenge]⟩
        · rename_i hclosed
          obtain ⟨hpurpose, hdevice, hmem⟩ := h.consumed r hr τ hτ
          rw [if_neg hclosed]
          exact ⟨hpurpose, hdevice, mem_append_left _ hmem⟩
      · intro x hx
        obtain hx | rfl := Table.mem_add hx
        · obtain ⟨hissued, hrows⟩ := h.recorded x hx
          refine ⟨hissued, fun r' hr' hsame => ?_⟩
          obtain ⟨r, hr, rfl⟩ := List.mem_map.mp hr'
          split at hsame
          · rename_i hopen
            exact absurd (hsame.symm.trans (consumable_iff.mp hopen).1) (hfirst x hx)
          · rename_i hclosed
            rw [if_neg hclosed]
            exact hrows r hr hsame
        · refine ⟨⟨dpopJkt, ?_⟩, fun r' hr' hsame => ?_⟩
          · have hissued := h.rows_issued r₀ hr₀
            rwa [hchallenge₀, hjkt₀] at hissued
          · obtain ⟨r, hr, rfl⟩ := List.mem_map.mp hr'
            have hrow : r = r₀ := by
              refine h.keyed.eq_of_key hr hr₀ (Eq.trans ?_ hchallenge₀.symm)
              split at hsame <;> exact hsame
            rw [hrow, if_pos hopen₀]
      · intro x hx y hy hsame
        obtain hx | hx := mem_append.mp hx <;> obtain hy | hy := mem_append.mp hy
        · exact h.once x hx y hy hsame
        · rw [mem_singleton.mp hy] at hsame
          exact absurd hsame.symm (hfirst x hx)
        · rw [mem_singleton.mp hx] at hsame
          exact absurd hsame (hfirst y hy)
        · rw [mem_singleton.mp hx, mem_singleton.mp hy]
      · intro l hl hlive
        obtain ⟨r, hr, hsame, τ, hτ, hlt⟩ := h.locked l hl hlive
        refine ⟨r, List.mem_map.mpr ⟨r, hr, if_neg fun hopen => ?_⟩, hsame, τ, hτ, hlt⟩
        have hnone := (consumable_iff.mp hopen).2.2.2.2.1
        rw [hτ] at hnone
        cases hnone
    · refine Kept.onward
        { Kept.refl w with
          consumptions := fun _ hx => mem_append_left _ hx, consuming := hold, rows := fun r' hr' _ => ?_ }
      obtain ⟨r, hr, rfl⟩ := List.mem_map.mp hr'
      refine ⟨r, hr, ?_⟩
      split
      · rename_i hopen
        exact ⟨rfl, rfl, rfl, rfl, rfl, .inr ⟨not_settled_of_consumable hr hstarted hopen, nofun⟩⟩
      · exact RowKept.refl w r
  · refine ⟨{ h with }, ?_⟩
    exact Kept.onward { Kept.refl w with consuming := hold }

theorem exists_of_any [DecidablePred P] (h : τ?.any (fun τ => decide (P τ)) = true) : ∃ τ, τ? = some τ ∧ P τ := by
  cases τ? with
  | none => cases h
  | some τ => exact ⟨τ, rfl, of_decide_eq_true h⟩

theorem checkInsertDeadline_keeps (h : Tables w) :
    Tables (checkInsertDeadline t challenge dpopJkt w).2 ∧ Onward w (checkInsertDeadline t challenge dpopJkt w).2 := by
  unfold checkInsertDeadline
  split
  · rename_i hany
    obtain ⟨r, hr, hfresh⟩ := List.any_eq_true.mp hany
    obtain ⟨hfor, hfresh⟩ := of_decide_eq_true hfresh
    obtain ⟨τ, hτ, hlt⟩ := exists_of_any hfresh
    have hchallenge : r.challenge = challenge := (of_decide_eq_true hfor).1
    constructor
    · refine { h with locked := fun l hl hlive => ?_ }
      obtain hl | rfl := Table.mem_add hl
      · exact h.locked l (mem_of_mem_filter hl) hlive
      · exact ⟨r, hr, hchallenge, τ, hτ, by show w.now < _; omega⟩
    · refine Kept.onward { Kept.refl w with locks := fun l hl => ?_ }
      obtain hl | rfl := Table.mem_add hl
      · exact .inl (mem_of_mem_filter hl)
      · refine .inr fun hsettled => ?_
        have hdead := hsettled.dead r hr hchallenge
        simp only [DeviceChallenge.Dead, hτ] at hdead
        omega
  · exact ⟨h, Onward.refl w⟩

theorem release_keeps (h : Tables w) (keep : Lock → Bool) :
    Tables { w with locks := w.locks.filter keep } ∧ Onward w { w with locks := w.locks.filter keep } := by
  refine ⟨{ h with locked := fun l hl => h.locked l (mem_of_mem_filter hl) }, ?_⟩
  exact Kept.onward { Kept.refl w with locks := fun _ hl => .inl (mem_of_mem_filter hl) }

theorem insertDevice_keeps (h : Tables w)
    (hissued : (challenge, dpopJkt) ∈ w.issued) :
    Tables (insertDevice t fresh accountId dpopJkt challenge w).2 ∧
      Onward w (insertDevice t fresh accountId dpopJkt challenge w).2 := by
  have hreleased := release_keeps h fun l => l.thread ≠ t
  unfold insertDevice
  split
  · exact hreleased
  · rename_i hheld
    split
    · exact hreleased
    · split
      · exact hreleased
      · obtain ⟨htables, honward⟩ := hreleased
        constructor
        · refine { htables with registered := fun d hd => ?_ }
          obtain hd | rfl := Table.mem_add hd
          · exact htables.registered d hd
          · exact hissued
        · refine Kept.onward
            { Kept.refl w with locks := fun _ hl => .inl (mem_of_mem_filter hl), devices := fun d hd hactive => ?_ }
          obtain hd | rfl := Table.mem_add hd
          · exact .inl ⟨d, hd, hactive, rfl⟩
          · refine .inr fun hsettled => ?_
            rw [Bool.not_eq_false, List.any_eq_true] at hheld
            obtain ⟨l, hl, hlive⟩ := hheld
            obtain ⟨-, hsame, hlive⟩ := of_decide_eq_true hlive
            rw [hsettled.unlocked l hl hsame] at hlive
            cases hlive

theorem pruneExpired_keeps (h : Tables w) (hprune : pruneExpired now w = some (n, w')) :
    Tables w' ∧ Onward w w' := by
  simp only [pruneExpired, ite_none_left_eq_some, some.injEq, Prod.mk.injEq] at hprune
  obtain ⟨hfree, rfl, rfl⟩ := hprune
  have hold : ∀ r ∈ w.challenges.filter fun row => !row.prunable now, r ∈ w.challenges :=
    fun r hr => mem_of_mem_filter hr
  constructor
  · refine ⟨fun r hr => h.rows_issued r (hold r hr), h.issued_once, ?_, fun r hr => h.consumed r (hold r hr),
      fun x hx => ⟨(h.recorded x hx).1, fun r hr => (h.recorded x hx).2 r (hold r hr)⟩, h.once, ?_, h.registered⟩
    · exact h.keyed.sublist (filter_sublist.map _)
    · intro l hl hlive
      obtain ⟨r, hr, hsame, hrest⟩ := h.locked l hl hlive
      refine ⟨r, mem_filter.mpr ⟨hr, ?_⟩, hsame, hrest⟩
      by_contra hprunable
      refine hfree (List.any_eq_true.mpr ⟨r, hr, decide_eq_true ⟨by simpa using hprunable, ?_⟩⟩)
      exact List.any_eq_true.mpr ⟨l, hl, decide_eq_true ⟨hsame.symm, hlive⟩⟩
  · exact Kept.onward { Kept.refl w with rows := fun r hr _ => ⟨r, hold r hr, RowKept.refl w r⟩ }

theorem devices_keeps (h : Tables w)
    (hold : ∀ d ∈ devices, ∃ d₀ ∈ w.devices, d₀.challenge = d.challenge ∧ d₀.dpopJkt = d.dpopJkt ∧
      (d.active = true → d₀.active = true)) : Tables { w with devices } ∧ Onward w { w with devices } := by
  constructor
  · refine { h with registered := fun d hd => ?_ }
    obtain ⟨d₀, hd₀, hchallenge, hjkt, -⟩ := hold d hd
    exact hchallenge ▸ hjkt ▸ h.registered d₀ hd₀
  · refine Kept.onward { Kept.refl w with devices := fun d hd hactive => ?_ }
    obtain ⟨d₀, hd₀, hchallenge, -, hwas⟩ := hold d hd
    exact .inl ⟨d₀, hd₀, hwas hactive, hchallenge⟩

theorem delete_keeps (h : Tables w) (deviceId : DeviceId) :
    Tables { w with devices := w.devices.filter fun d => d.deviceId ≠ deviceId } ∧
      Onward w { w with devices := w.devices.filter fun d => d.deviceId ≠ deviceId } :=
  devices_keeps h fun d hd => ⟨d, mem_of_mem_filter hd, rfl, rfl, fun hactive => hactive⟩

theorem revoke_keeps (h : Tables w) (deviceId : DeviceId) :
    Tables { w with
        devices := w.devices.map fun d => if d.deviceId = deviceId then { d with active := false } else d } ∧
      Onward w { w with
        devices := w.devices.map fun d => if d.deviceId = deviceId then { d with active := false } else d } := by
  refine devices_keeps h fun d hd => ?_
  obtain ⟨d₀, hd₀, rfl⟩ := List.mem_map.mp hd
  refine ⟨d₀, hd₀, ?_⟩
  split
  · exact ⟨rfl, rfl, nofun⟩
  · exact ⟨rfl, rfl, fun hactive => hactive⟩

theorem answer_keeps (h : Sound w) {verdict : Verdict}
    (hholds : presented.known = true → (⟨verdict, presented.challenge, presented.presentedAt⟩ : Answer).Holds w) :
    Sound (answer verdict presented w) ∧ Onward w (answer verdict presented w) := by
  unfold answer
  split
  · rename_i hknown
    have honward : Onward w
        { w with answers := w.answers ++ [⟨verdict, presented.challenge, presented.presentedAt⟩] } :=
      Kept.onward { Kept.refl w with }
    refine ⟨⟨{ h.tables with }, fun a ha => ?_⟩, honward⟩
    obtain ha | rfl := Table.mem_add ha
    · exact (h.answered a ha).onward honward
    · exact (hholds hknown).onward honward
  · exact ⟨h, Onward.refl w⟩

end Statements

variable {F : World → Prop} {op : Op}

section Calls

variable {t : Nat}

/-- Every statement keeps the tables in order and the answers true. -/
theorem run_keeps {c : Choice} {r : Except Failure op.Out} (h : Sound w) (hreq : rules.req t op w)
    (hrun : op.run t c w = some (r, w')) : Sound w' ∧ ∀ u, u ≠ t → rules.rely u w w' := by
  have hread : Sound w ∧ ∀ u, u ≠ t → rules.rely u w w := ⟨h, fun _ _ => ⟨Onward.refl w, fun _ hp _ => hp⟩⟩
  have hstep : ∀ w₁ : World, Tables w₁ ∧ Onward w w₁ → w₁.answers = w.answers →
      (∀ u, u ≠ t → ∀ p ∈ w.consuming, p.thread = u → p ∈ w₁.consuming) →
      Sound w₁ ∧ ∀ u, u ≠ t → rules.rely u w w₁ :=
    fun w₁ hkeeps hanswers hmine => ⟨h.step hkeeps.1 hkeeps.2 hanswers, fun u hu => ⟨hkeeps.2, hmine u hu⟩⟩
  cases op with
  | databaseNow | present | findActiveDeviceForAccount | findByDpopJkt
  | wasConsumedWithinReplayWindow | verifyDeviceAuthJws | verifyAttestation
  | finishCeremony => cases hrun; exact hread
  | issue =>
    obtain ⟨⟨expiresAt, w₁⟩, hissue, hr⟩ := map_eq_some_iff.mp hrun
    cases hr
    have hsame : w₁.answers = w.answers ∧ w₁.consuming = w.consuming := by
      simp only [issue, ite_none_left_eq_some, some.injEq, Prod.mk.injEq] at hissue
      obtain ⟨-, -, rfl⟩ := hissue
      exact ⟨rfl, rfl⟩
    exact hstep _ (issue_keeps h.tables hissue) hsame.1 fun _ _ p hp _ => hsame.2 ▸ hp
  | startConsume =>
    cases hrun
    exact hstep _ (startConsume_keeps h.tables) rfl fun _ _ p hp _ => mem_append_left _ hp
  | consume =>
    cases hrun
    refine hstep _ (consume_keeps h.tables hreq) ?_ fun u hu p hp hthread => ?_
    all_goals
      simp only [consume]
      split
    · rfl
    · rfl
    · exact mem_filter.mpr ⟨hp, by simpa [hthread] using hu⟩
    · exact mem_filter.mpr ⟨hp, by simpa [hthread] using hu⟩
  | checkInsertDeadline =>
    cases hrun
    refine hstep _ (checkInsertDeadline_keeps h.tables) ?_ fun u hu p hp _ => ?_
    all_goals
      simp only [checkInsertDeadline]
      split
    · rfl
    · rfl
    · exact hp
    · exact hp
  | insertDevice =>
    simp only [Op.run, some.injEq] at hrun
    obtain rfl : _ = w' := congrArg Prod.snd hrun
    refine hstep _ (insertDevice_keeps h.tables hreq) ?_ fun u hu p hp _ => ?_
    all_goals
      simp only [insertDevice]
      split
      · first | rfl | exact hp
      · split
        · first | rfl | exact hp
        · split
          · first | rfl | exact hp
          · first | rfl | exact hp
  | delete deviceId =>
    cases hrun
    exact hstep _ (delete_keeps h.tables deviceId) rfl fun _ _ p hp _ => hp
  | pruneExpired =>
    obtain ⟨⟨n, w₁⟩, hprune, hr⟩ := map_eq_some_iff.mp hrun
    cases hr
    have hsame : w₁.answers = w.answers ∧ w₁.consuming = w.consuming := by
      simp only [pruneExpired, ite_none_left_eq_some, some.injEq, Prod.mk.injEq] at hprune
      obtain ⟨-, -, rfl⟩ := hprune
      exact ⟨rfl, rfl⟩
    exact hstep _ (pruneExpired_keeps h.tables hprune) hsame.1 fun _ _ p hp _ => hsame.2 ▸ hp
  | answer =>
    cases hrun
    obtain ⟨hsound, honward⟩ := answer_keeps h hreq
    refine ⟨hsound, fun u _ => ⟨honward, fun p hp _ => ?_⟩⟩
    simp only [answer]
    split <;> exact hp

theorem spec_invoke {P : World → Prop} {Q : op.Out → World → Prop} (hreq : ∀ w, Sound w → P w → rules.req t op w)
    (hpost : ∀ w c a w', Sound w → P w → inTime.call t op w → op.run t c w = some (.ok a, w') → Q a w')
    (hstable : ∀ a, rules.Stable t (Q a)) : Triple system inTime rules t P (invoke op) Q := by
  refine triple_perform hreq (fun w c r w' hinv hP hg hexec => ?_) hstable
  obtain ⟨⟨r₁, w₁⟩, hrun, hr⟩ := map_eq_some_iff.mp hexec
  obtain ⟨hsound, hrely⟩ := run_keeps hinv (hreq w hinv hP) hrun
  split at hr
  · cases hr
    exact ⟨hsound, hrely, fun a ha => hpost w c a w' hinv hP hg (ha ▸ hrun)⟩
  · rename_i applied _
    cases hr
    cases applied with
    | true => exact ⟨hsound, hrely, fun _ ha => nomatch ha⟩
    | false => exact ⟨hinv, fun _ _ => ⟨Onward.refl w, fun _ hp _ => hp⟩, fun _ ha => nomatch ha⟩

theorem lasting_of_onward (hF : ∀ w w', Onward w w' → F w → F w') : rules.Lasting F :=
  fun _ w w' _ _ hrely h => hF w w' hrely.1 h

end Calls

section Programs

variable {t : Nat} {α : Type}

/-- What a request knows of the challenge it was handed. -/
def Known (presented : Presentation) (w : World) : Prop :=
  presented.presentedAt ≤ w.now ∧ (presented.known = true → Issued presented.challenge w)

theorem Known.onward (h : Onward w w') (hknown : Known presented w) : Known presented w' := by
  refine ⟨hknown.1.trans h.now, fun hk => ?_⟩
  obtain ⟨jkt, hjkt⟩ := hknown.2 hk
  exact ⟨jkt, h.issued _ hjkt⟩

theorem known_lasting : rules.Lasting (Known presented) :=
  lasting_of_onward fun _ _ h hknown => hknown.onward h

theorem spec_any (hF : rules.Lasting F) (hreq : ∀ w, Sound w → F w → rules.req t op w) :
    Triple system inTime rules t F (invoke op) fun _ => F := by
  refine spec_invoke hreq (fun w c a w' hinv hw _ hrun => ?_) fun _ => hF t
  obtain ⟨hsound, hrely⟩ := run_keeps hinv (hreq w hinv hw) hrun
  exact hF (t + 1) w w' hinv hsound (hrely _ (Nat.succ_ne_self t)) hw

theorem spec_present :
    Triple system inTime rules t (fun _ => True) (invoke (.present challenge))
      fun presented w => presented.challenge = challenge ∧ Known presented w := by
  refine spec_invoke (fun _ _ _ => trivial) (fun w c presented w' _ _ _ hrun => ?_)
    fun presented => Rules.stable_const.and (known_lasting t)
  cases hrun
  refine ⟨rfl, le_rfl, fun hissued => ?_⟩
  obtain ⟨i, hi, hsame⟩ := List.any_eq_true.mp hissued
  exact ⟨i.2, (of_decide_eq_true hsame) ▸ hi⟩

theorem spec_startConsume :
    Triple system inTime rules t (fun _ => True) (invoke (.startConsume challenge dpopJkt))
      fun now w => now ≤ w.now ∧ ⟨t, challenge, dpopJkt, now⟩ ∈ w.consuming := by
  refine spec_invoke (fun _ _ _ => trivial) (fun w c now w' _ _ _ hrun => ?_) fun now => ?_
  · cases hrun
    exact ⟨le_rfl, by simp [startConsume]⟩
  · exact fun w w' _ _ hrely h => ⟨h.1.trans hrely.1.now, hrely.2 _ h.2 rfl⟩

/-- A challenge of this key that was issued but could not be consumed. -/
def Refused (presented : Presentation) (dpopJkt : Jkt) (w : World) : Prop :=
  Known presented w ∧ (presented.known = true → Unusable presented.challenge dpopJkt w)

theorem refused_lasting : rules.Lasting (Refused presented dpopJkt) :=
  fun u w w' hinv hinv' hrely h =>
    ⟨known_lasting u w w' hinv hinv' hrely h.1, fun hk => hrely.1.unusable _ _ (h.2 hk)⟩

/-- A known challenge that fails to be consumed is unusable. -/
theorem spec_consume :
    Triple system inTime rules t
      (fun w => Known presented w ∧ now ≤ w.now ∧ ⟨t, presented.challenge, dpopJkt, now⟩ ∈ w.consuming)
      (invoke (.consume presented.challenge dpopJkt now))
      fun consumed w => consumed = false → Refused presented dpopJkt w := by
  refine spec_invoke (fun _ _ h => h.2.2) (fun w c consumed w' hinv hpre _ hrun hfalse => ?_)
    fun consumed => Rules.Stable.imp_const fun _ => refused_lasting t
  obtain ⟨hknown, hnow, hstarted⟩ := hpre
  cases hrun
  have honward : Onward w (consume t presented.challenge dpopJkt now w).2 :=
    (consume_keeps hinv.tables hstarted).2
  refine ⟨hknown.onward honward, fun hk => honward.unusable _ _ ⟨hknown.2 hk, fun r hr hfor hdevice hnone => ?_⟩⟩
  by_contra hlate
  have hopen : (w.challenges.any (DeviceChallenge.consumable .enrolDevice presented.challenge dpopJkt none now))
      = true := by
    refine List.any_eq_true.mpr ⟨r, hr, decide_eq_true ⟨hfor, hdevice, hnone, ?_⟩⟩
    omega
  simp [consume, hopen] at hfalse

theorem any_consumedAt [DecidablePred P] (hτ : r.consumedAt = some τ) (h : P τ) :
    r.consumedAt.any (fun τ => decide (P τ)) = true := by
  rw [hτ]
  exact decide_eq_true h

/-- A challenge that could not be consumed, and was not consumed of late either,
is settled: this is where the two windows meet. -/
theorem settled_of_not_recent (h : Sound w) (hnow : now ≤ w.now) (hunusable : Unusable challenge dpopJkt w)
    (hguard : inTime.call t (.wasConsumedWithinReplayWindow challenge dpopJkt now) w)
    (hnot : wasConsumedWithinReplayWindow challenge dpopJkt now w = false) :
    (challenge, dpopJkt) ∈ w.issued ∧ Settled challenge w := by
  obtain ⟨hkey, hcommitted⟩ := hguard
  obtain ⟨jkt, hjkt⟩ := hunusable.issued
  obtain rfl : jkt = dpopJkt := hkey _ hjkt rfl
  have hold : ∀ r ∈ w.challenges, r.challenge = challenge → ∀ τ, r.consumedAt = some τ →
      τ + challengeReplayWindow < now := by
    intro r hr hchallenge τ hτ
    obtain ⟨hpurpose, hdevice, -⟩ := h.tables.consumed r hr τ hτ
    have hr_key : r.dpopJkt = jkt := hkey _ (h.tables.rows_issued r hr) hchallenge
    have hfor : r.isFor .enrolDevice challenge jkt = true := decide_eq_true ⟨hchallenge, hpurpose, hr_key⟩
    by_contra hrecent
    rw [← Bool.not_eq_true] at hnot
    refine hnot (List.any_eq_true.mpr ⟨r, hr, decide_eq_true ⟨hfor, hdevice, any_consumedAt hτ ?_⟩⟩)
    omega
  refine ⟨hjkt, ⟨jkt, hjkt⟩, fun l hl hchallenge => ?_, fun r hr hchallenge => ?_⟩
  · by_contra hlive
    obtain ⟨r, hr, hsame, τ, hτ, hsince⟩ := h.tables.locked l hl (by simpa using hlive)
    have hgone := hold r hr (hsame.trans hchallenge) τ hτ
    simp only [Lock.live, decide_eq_false_iff_not, not_not] at hlive
    simp only [challengeReplayWindow, enrolmentInsertDeadline, transactionLifetime, milliseconds] at hgone hsince hlive
    omega
  · unfold DeviceChallenge.Dead
    split
    · rename_i τ hτ
      have hgone := hold r hr hchallenge τ hτ
      simp only [challengeReplayWindow, enrolmentInsertDeadline, milliseconds] at hgone ⊢
      omega
    · rename_i hnone
      intro hpurpose hdevice
      have hr_key : r.dpopJkt = jkt := hkey _ (h.tables.rows_issued r hr) hchallenge
      refine ⟨hunusable.expired r hr (decide_eq_true ⟨hchallenge, hpurpose, hr_key⟩) hdevice hnone,
        fun p hp hp' hp_key => ?_⟩
      exact hcommitted r hr hchallenge hnone p hp (hp'.trans hchallenge) (hp_key.trans hr_key)

/-- What the request knows once the challenge is known not to be in use. -/
def Over (presented : Presentation) (dpopJkt : Jkt) (w : World) : Prop :=
  presented.known = true → (presented.challenge, dpopJkt) ∈ w.issued ∧ Settled presented.challenge w

theorem spec_wasConsumedWithinReplayWindow :
    Triple system inTime rules t
      (fun w => presented.presentedAt ≤ now ∧ now ≤ w.now ∧ Refused presented dpopJkt w)
      (invoke (.wasConsumedWithinReplayWindow presented.challenge dpopJkt now))
      fun recent w => (recent = true → ConsumedFor presented.challenge presented.presentedAt w) ∧
        (recent = false → Over presented dpopJkt w) := by
  refine spec_invoke (fun _ _ _ => trivial) (fun w c recent w' hinv hpre hg hrun => ?_) fun recent => ?_
  · obtain ⟨hpresented, hnow, hrefused⟩ := hpre
    cases hrun
    refine ⟨fun hrecent => ?_, fun hnot hk => settled_of_not_recent hinv hnow (hrefused.2 hk) hg hnot⟩
    obtain ⟨r, hr, hrow⟩ := List.any_eq_true.mp hrecent
    obtain ⟨hfor, -, hany⟩ := of_decide_eq_true hrow
    obtain ⟨τ, hτ, hle⟩ := exists_of_any hany
    have hchallenge : r.challenge = presented.challenge := (of_decide_eq_true hfor).1
    refine ⟨⟨r.challenge, τ⟩, (hinv.tables.consumed r hr τ hτ).2.2, hchallenge, ?_⟩
    show presented.presentedAt ≤ τ + challengeReplayWindow
    omega
  · intro w w' _ _ hrely h
    refine ⟨fun hrecent => ?_, fun hnot hk => ⟨hrely.1.issued _ (h.2 hnot hk).1, hrely.1.settled _ (h.2 hnot hk).2⟩⟩
    obtain ⟨x, hx, hchallenge, hlate⟩ := h.1 hrecent
    exact ⟨x, hrely.1.consumptions x hx, hchallenge, hlate⟩

theorem clear_of_no_device (h : Sound w) (hissued : (challenge, dpopJkt) ∈ w.issued)
    (hnone : findByDpopJkt dpopJkt w = none) : Clear challenge w := by
  intro d hd hchallenge
  by_contra hactive
  have hkey : d.dpopJkt = dpopJkt := h.tables.issued_once _ hissued _ (h.tables.registered d hd) hchallenge
  simp only [findByDpopJkt, map_eq_none_iff, find?_eq_none, decide_eq_true_eq, not_and] at hnone
  exact hnone d hd hkey (by simpa using hactive)

/-- What makes EXPIRED a truthful answer. -/
def NothingRegistered (presented : Presentation) (w : World) : Prop :=
  presented.known = true → Settled presented.challenge w ∧ Clear presented.challenge w

theorem nothingRegistered_lasting : rules.Lasting (NothingRegistered presented) :=
  lasting_of_onward fun _ _ h hclear hk => ⟨h.settled _ (hclear hk).1, h.clear _ (hclear hk).1 (hclear hk).2⟩

theorem spec_findRegistered :
    Triple system inTime rules t (Over presented input.dpopJkt) (findRegistered input)
      fun registered w => registered = none → NothingRegistered presented w := by
  have hbyKey : Triple system inTime rules t (Over presented input.dpopJkt) (invoke (.findByDpopJkt input.dpopJkt))
      fun byKey w => byKey = none → NothingRegistered presented w := by
    refine spec_invoke (fun _ _ _ => trivial) (fun w c byKey w' hinv hover _ hrun hnone hk => ?_)
      fun byKey => Rules.Stable.imp_const fun _ => nothingRegistered_lasting t
    cases hrun
    exact ⟨(hover hk).2, clear_of_no_device hinv (hover hk).1 hnone⟩
  refine triple_bind hbyKey fun byKey => ?_
  cases byKey with
  | some => exact triple_ret fun _ _ _ hnone => nomatch hnone
  | none =>
    refine triple_pre (triple_post (spec_any nothingRegistered_lasting fun _ _ _ => trivial)
      fun _ _ _ h _ => h) fun _ _ h => h rfl

variable {Q : α → World → Prop}

theorem spec_refuse :
    Triple system inTime rules t
      (fun w => presented.known = true → (⟨verdict, presented.challenge, presented.presentedAt⟩ : Answer).Holds w)
      (refuse verdict presented) Q := by
  refine triple_bind (Q := fun _ _ => True) ?_ fun _ => ?_
  · exact spec_invoke (fun _ _ h => h) (fun _ _ _ _ _ _ _ _ => trivial) fun _ => Rules.stable_const
  · cases verdict <;> exact triple_fail

/-- The answer to an unusable challenge says why it is unusable. -/
theorem spec_throwForUnusableChallenge
    (hsame : presented.challenge = input.challenge) :
    Triple system inTime rules t (Refused presented input.dpopJkt) (throwForUnusableChallenge input presented) Q := by
  have hnow : Triple system inTime rules t (Refused presented input.dpopJkt) (invoke .databaseNow)
      fun now w => presented.presentedAt ≤ now ∧ now ≤ w.now ∧ Refused presented input.dpopJkt w := by
    refine spec_invoke (fun _ _ _ => trivial) (fun w c now w' _ hrefused _ hrun => ?_) fun now => ?_
    · cases hrun
      exact ⟨hrefused.1.1, le_rfl, hrefused⟩
    · exact fun w w' hinv hinv' hrely h => ⟨h.1, h.2.1.trans hrely.1.now,
        refused_lasting t w w' hinv hinv' hrely h.2.2⟩
  refine triple_bind hnow fun now => ?_
  rw [← hsame]
  refine triple_bind spec_wasConsumedWithinReplayWindow fun recent => ?_
  cases recent with
  | true => exact triple_pre spec_refuse fun _ _ h _ => h.1 rfl
  | false =>
    refine triple_pre (triple_bind spec_findRegistered fun registered => ?_) fun _ _ h => h.2 rfl
    cases registered with
    | some => exact triple_fail
    | none => exact triple_pre spec_refuse fun _ _ h => h rfl

theorem true_lasting : rules.Lasting fun _ => True := fun _ _ _ _ _ _ h => h

theorem spec_create (input : EnrolDeviceInput) :
    Triple system inTime rules t (fun _ => True) (create input) fun _ _ => True := by
  have hcheck : Triple system inTime rules t (fun _ => True)
      (invoke (.checkInsertDeadline input.challenge input.dpopJkt))
      fun fresh w => fresh = true → (input.challenge, input.dpopJkt) ∈ w.issued := by
    refine spec_invoke (fun _ _ _ => trivial) (fun w c fresh w' hinv _ _ hrun hfresh => ?_)
      fun fresh w w' _ _ hrely h hfresh => hrely.1.issued _ (h hfresh)
    cases hrun
    simp only [checkInsertDeadline] at hfresh ⊢
    split at hfresh
    · rename_i hany
      rw [if_pos hany]
      obtain ⟨r, hr, hrow⟩ := List.any_eq_true.mp hany
      obtain ⟨hchallenge, -, hkey⟩ := of_decide_eq_true (of_decide_eq_true hrow).1
      exact hchallenge ▸ hkey ▸ hinv.tables.rows_issued r hr
    · cases hfresh
  refine triple_bind hcheck fun fresh => ?_
  cases fresh with
  | false => exact triple_fail
  | true => exact spec_invoke (fun _ _ h => h rfl) (fun _ _ _ _ _ _ _ _ => trivial) fun _ => Rules.stable_const

theorem spec_register :
    Triple system inTime rules t (fun _ => True) (register input) fun _ _ => True := by
  refine triple_bind (spec_any true_lasting fun _ _ _ => trivial) fun _ => ?_
  refine triple_bind (spec_any true_lasting fun _ _ _ => trivial) fun alreadyEnrolled => ?_
  cases alreadyEnrolled with
  | some => exact triple_fail
  | none => exact triple_bind (spec_any true_lasting fun _ _ _ => trivial) fun _ => spec_create input

theorem spec_execute (policy : List MobilePlatform) (input : EnrolDeviceInput) :
    Triple system inTime rules t (fun _ => True) (execute policy input) fun _ _ => True := by
  refine triple_bind spec_present fun presented => ?_
  split
  · refine triple_const fun hsame => ?_
    refine triple_bind (spec_any known_lasting fun _ _ _ => trivial) fun existing => ?_
    cases existing with
    | some => exact triple_fail
    | none =>
      have hstart : Triple system inTime rules t (Known presented)
          (invoke (.startConsume input.challenge input.dpopJkt))
          fun now w => Known presented w ∧ now ≤ w.now ∧ ⟨t, input.challenge, input.dpopJkt, now⟩ ∈ w.consuming :=
        triple_pre (triple_frame known_lasting spec_startConsume)
          fun _ _ h => ⟨h, trivial⟩
      refine triple_bind hstart fun now => ?_
      rw [← hsame]
      refine triple_bind spec_consume fun consumed => ?_
      cases consumed with
      | true => exact triple_pre spec_register fun _ _ _ => trivial
      | false => exact triple_pre (spec_throwForUnusableChallenge hsame) fun _ _ h => h rfl
  · exact triple_fail

theorem spec_enrolVerify :
    Triple system inTime rules t (fun _ => True) (enrolVerify policy input) fun _ _ => True := by
  refine triple_bind (spec_execute policy input) fun deviceId => ?_
  refine triple_catch_any (spec_any true_lasting fun _ _ _ => trivial) fun e => ?_
  exact triple_bind (triple_catch_any (spec_any true_lasting fun _ _ _ => trivial)
    fun _ => triple_done) fun _ => triple_fail

end Programs

theorem env_keeps (h : Sound w) (hstep : env e w = some w') : Sound w' ∧ ∀ t, rules.rely t w w' := by
  cases e with
  | tick =>
    simp only [env, ite_none_right_eq_some, some.injEq] at hstep
    obtain ⟨hus, rfl⟩ := hstep
    obtain ⟨htables, honward⟩ := tick_keeps h.tables hus
    exact ⟨h.step htables honward rfl, fun _ => ⟨honward, fun _ hp _ => hp⟩⟩
  | revoke deviceId =>
    cases hstep
    obtain ⟨htables, honward⟩ := revoke_keeps h.tables deviceId
    exact ⟨h.step htables honward rfl, fun _ => ⟨honward, fun _ hp _ => hp⟩⟩

/-- The answers are true however the enrolments interleave. -/
theorem system_sound : Interleaving.Sound system inTime rules := by
  refine ⟨fun t job => ?_, fun e w w' hinv _ hstep => env_keeps hinv hstep⟩
  cases job with
  | issue =>
    exact triple_bind (spec_any true_lasting fun _ _ _ => trivial) fun _ => triple_done
  | enrolVerify => exact spec_enrolVerify
  | deviceChallengePrune =>
    exact triple_bind (spec_any true_lasting fun _ _ _ => trivial) fun _ =>
      triple_bind (spec_any true_lasting fun _ _ _ => trivial) fun _ => triple_done

/-- Nothing issued, nothing registered. -/
def World.start (now : ℤ) : World := ⟨now, [], [], [], [], [], [], []⟩

theorem start_sound (now : ℤ) : Sound (World.start now) := by
  constructor
  · constructor <;> simp [World.start, Table.Keyed]
  · simp [World.start]

/-- In every run in which the challenges that are checked for use are presented
by their own key and have no consumption outstanding that started in time: once
EXPIRED has been answered, at that moment and ever after, no device registered
with that challenge is active; and REPLAYED is answered only to a challenge
presented within the replay window of its consumption. -/
theorem expired_is_truthful (now : ℤ) (s : Config World Failure Op Op.Out)
    (hrun : Reachable system inTime (idle (World.start now)) s) :
    ∀ a ∈ s.world.answers,
      (a.verdict = .expired → ∀ d ∈ s.world.devices, d.challenge = a.challenge → d.active = false) ∧
      (a.verdict = .replayed → ∀ x ∈ s.world.consumptions, x.challenge = a.challenge →
        a.presentedAt ≤ x.consumedAt + challengeReplayWindow) := by
  have hsound : Sound s.world := (hrun.secure system_sound (secure_idle _ (start_sound now))).1
  intro a ha
  have hholds := hsound.answered a ha
  constructor
  · intro hverdict
    simp only [Answer.Holds, hverdict] at hholds
    exact hholds.2
  · intro hverdict x hx hchallenge
    simp only [Answer.Holds, hverdict] at hholds
    obtain ⟨y, hy, hsame, hlate⟩ := hholds
    obtain rfl : x = y := hsound.tables.once y hy x hx (hchallenge.trans hsame.symm)
    exact hlate

instance (t : Nat) (op : Op) (w : World) : Decidable (inTime.call t op w) := by
  induction op using Op.casesOn <;> (dsimp only [inTime]; infer_instance)

def sampleInput : EnrolDeviceInput := ⟨1, 1, 7, some .android⟩

def sampleEnrol (t : Nat) : Action Choice Event Job :=
  .spawn t (.enrolVerify androidOnlyMobilePlatformPolicy sampleInput)

/-- So many calls of one thread, none of which throws. -/
def sampleCalls (t n : Nat) : List (Action Choice Event Job) := List.replicate n (.call t ⟨none, 5⟩)

/-- How long the router lets an enrolment challenge live. -/
def enrolChallengeTtlSeconds : ℤ := 300

/-- Challenge 7 is issued to key 1. -/
def sampleIssue : List (Action Choice Event Job) :=
  .spawn 0 (.issue 7 .enrolDevice 1 none enrolChallengeTtlSeconds) :: sampleCalls 0 1

/-- The challenge is consumed, but the signature does not hold. A replay right
away is answered REPLAYED, and one two minutes later EXPIRED. -/
def sampleReplays : List (Action Choice Event Job) :=
  sampleIssue ++ sampleEnrol 1 :: sampleCalls 1 4 ++ .call 1 ⟨some false, 5⟩ :: sampleEnrol 2 :: sampleCalls 2 7 ++
    .env (.tick 120000001) :: sampleEnrol 3 :: sampleCalls 3 9

theorem expired_is_truthful_sample : ∃ s, Reachable system inTime (idle (World.start 0)) s ∧
    s.world.answers = [⟨.replayed, 7, 0⟩, ⟨.expired, 7, 120000001⟩] ∧ ∀ a ∈ s.world.answers,
      (a.verdict = .expired → ∀ d ∈ s.world.devices, d.challenge = a.challenge → d.active = false) ∧
      (a.verdict = .replayed → ∀ x ∈ s.world.consumptions, x.challenge = a.challenge →
        a.presentedAt ≤ x.consumedAt + challengeReplayWindow) := by
  obtain ⟨s, hrun, hlook⟩ := exists_of_play system (inTime.allows_of_decide fun _ _ => trivial)
    sampleReplays (idle (World.start 0))
    (fun s => s.world.answers = [⟨.replayed, 7, 0⟩, ⟨.expired, 7, 120000001⟩]) rfl
  exact ⟨s, hrun, of_decide_eq_true hlook, expired_is_truthful 0 s hrun⟩

/-- A consumption starts a millisecond before the expiry and commits a
millisecond after it. In between a replay finds the challenge expired and
unconsumed. -/
def sampleStraddle : List (Action Choice Event Job) :=
  sampleIssue ++ .env (.tick 299999000) :: sampleEnrol 1 :: sampleCalls 1 3 ++
    .env (.tick 2000) :: sampleEnrol 2 :: sampleCalls 2 9 ++ sampleCalls 1 6

/-- The replay is answered EXPIRED, and the enrolment registers its device. -/
theorem expired_then_registered : ∃ s, Reachable system Guard.free (idle (World.start 0)) s ∧
    s.world.answers = [⟨.expired, 7, 300001000⟩] ∧ s.world.devices = [⟨5, 1, 1, true, 7⟩] := by
  obtain ⟨s, hrun, hlook⟩ := exists_of_play system Guard.allows_free sampleStraddle
    (idle (World.start 0))
    (fun s => s.world.answers = [⟨.expired, 7, 300001000⟩] ∧ s.world.devices = [⟨5, 1, 1, true, 7⟩]) rfl
  exact ⟨s, hrun, of_decide_eq_true hlook⟩

end DeviceEnrolment
