import VistaBlox.Interleaving
import Mathlib.Algebra.Order.Ring.Nat
import Mathlib.Tactic.Choose

/-!
# Endless runs

A behaviour is a run that never stops. What a thread does there is forced by its
program: if no way through a program avoids a certain call, a run of it that
completes has made that call.
-/
namespace Interleaving

open List Option

open Function (update update_of_ne update_self)

variable {World Choice Event Job Err Op : Type} {Out : Op → Type} {α β σ : Type}

namespace Prog

variable (good : (op : Op) → Out op → Prop) (F : Op → Prop)

/-- Every way through the program to its end makes a call `F` and gets an answer,
as long as the other calls give good answers. -/
def Must : Prog Err Op Out α → Prop
  | .ret _ => False
  | .fail _ => True
  | .call op next => (∀ e, Must (next (.error e))) ∧ (F op ∨ ∀ a, good op a → Must (next (.ok a)))

variable {good F}

variable {f : α → Prog Err Op Out β} {p : Prog Err Op Out α}

theorem must_bind (hp : p.Must good F) : (p >>= f).Must good F := by
  induction p with
  | ret => exact absurd hp id
  | fail => trivial
  | call op next ih =>
    obtain ⟨herror, hcall | hok⟩ := hp
    · exact ⟨fun e => ih _ (herror e), .inl hcall⟩
    · exact ⟨fun e => ih _ (herror e), .inr fun a ha => ih _ (hok a ha)⟩

/-- What comes before does not matter. -/
theorem must_then (hf : ∀ a, (f a).Must good F) : (p >>= f).Must good F := by
  induction p with
  | ret a => exact hf a
  | fail => trivial
  | call op next ih => exact ⟨fun e => ih _, .inr fun a _ => ih _⟩

variable {op : Op}

theorem must_perform (hop : F op) : (perform op : Prog Err Op Out (Out op)).Must good F :=
  ⟨fun _ => trivial, .inl hop⟩

theorem must_perform_then {f : Out op → Prog Err Op Out β} (hf : ∀ a, good op a → (f a).Must good F) :
    (perform op >>= f).Must good F := ⟨fun _ => trivial, .inr hf⟩

/-- A loop makes the call if one of its rounds does. -/
theorem must_foldlM {body : σ → β → Prog Err Op Out σ} {b : β} (hbody : ∀ acc, (body acc b).Must good F)
    {bs : List β} (hb : b ∈ bs) : ∀ acc, (bs.foldlM body acc).Must good F := by
  induction bs with
  | nil => cases hb
  | cons b' bs ih =>
    intro acc
    rw [foldlM_cons]
    obtain rfl | hb := mem_cons.mp hb
    · exact must_bind (hbody acc)
    · exact must_then (ih hb)

end Prog

structure Behaviour (S : Semantics World Choice Event Job Err Op Out) where
  state : Nat → Config World Err Op Out
  act : Nat → Action Choice Event Job
  step : ∀ n, S.step (state n) (act n) = some (state (n + 1))

namespace Behaviour

variable {S : Semantics World Choice Event Job Err Op Out} (b : Behaviour S)

variable {G : Guard World Event Op}

theorem reachable (hallow : ∀ n, G.Allows (b.state n) (b.act n)) (n : Nat) :
    Reachable S G (b.state 0) (b.state n) := by
  induction n with
  | zero => exact .refl
  | succ n ih => exact .tail (b.act n) ih (hallow n) (b.step n)

/-- The job is started at `m` on thread `t`, and has run to its end at `m'`. -/
structure Completes (j : Job) (t m m' : Nat) : Prop where
  spawn : b.act m = .spawn t j
  after : m < m'
  finished : (b.state m').threads t = .ret ()
  alone : ∀ k, m < k → k < m' → ∀ j', b.act k ≠ .spawn t j'

/-- The job runs to its end again and again. -/
def KeepsCompleting (j : Job) : Prop := ∀ n, ∃ t m m', n ≤ m ∧ b.Completes j t m m'

variable {b}

variable {n t : Nat}

variable {j : Job}

theorem stepped (n : Nat) : S.Stepped (b.state n) (b.act n) (b.state (n + 1)) := Semantics.stepped (b.step n)

/-- The world changes by calls and by outside events. -/
theorem world_step (n : Nat) (hallow : G.Allows (b.state n) (b.act n)) :
    (b.state (n + 1)).world = (b.state n).world ∨
    (∃ e, S.env e (b.state n).world = some (b.state (n + 1)).world) ∨
    ∃ t op c r, G.call t op (b.state n).world ∧ S.exec t op c
      (b.state n).world = some (r, (b.state (n + 1)).world) := by
  have hstep := b.stepped n
  generalize b.act n = a, b.state (n + 1) = s' at hstep hallow ⊢
  cases hstep with
  | spawn => exact .inl rfl
  | env henv => exact .inr (.inl ⟨_, henv⟩)
  | call hthread hexec => exact .inr (.inr ⟨_, _, _, _, hallow.call hthread, hexec⟩)

variable {m m' : Nat}

/-- A thread that has to make a call, and that comes to its end, has made it. -/
theorem must_occur (hle : m ≤ m') (hmust : ((b.state m).threads t).Must good F)
    (hend : (b.state m').threads t = .ret ()) (halone : ∀ k, m ≤ k → k < m' → ∀ j, b.act k ≠ .spawn t j)
    (hgood : ∀ k, m ≤ k → k < m' → ∀ op c a,
      S.exec t op c (b.state k).world = some (.ok a, (b.state (k + 1)).world) → good op a) :
    ∃ k, m ≤ k ∧ k < m' ∧ ∃ op c a, F op ∧
      S.exec t op c (b.state k).world = some (.ok a, (b.state (k + 1)).world) := by
  by_contra hnone
  have hkeep : ∀ k, m ≤ k → k ≤ m' → ((b.state k).threads t).Must good F := by
    intro k hk
    induction k, hk using Nat.le_induction with
    | base => exact fun _ => hmust
    | succ k hk ih =>
      intro hlt
      have hnow := ih (Nat.le_of_succ_le hlt)
      have hstep := b.stepped k
      generalize hact : b.act k = act, hnext : b.state (k + 1) = s' at hstep ⊢
      cases hstep with
      | @spawn u j =>
        have hother : t ≠ u := fun hsame => halone k hk hlt j (hsame ▸ hact)
        simpa only [update_of_ne hother] using hnow
      | env => exact hnow
      | @call u c op next r w hthread hexec =>
        by_cases hsame : t = u
        · subst hsame
          simp only [update_self]
          rw [hthread] at hnow
          cases r with
          | error e => exact hnow.1 e
          | ok a =>
            have hworld : (b.state (k + 1)).world = w := by rw [hnext]
            rw [← hworld] at hexec
            obtain hcall | hok := hnow.2
            · exact absurd ⟨k, hk, hlt, op, c, a, hcall, hexec⟩ hnone
            · exact hok a (hgood k hk hlt op c a hexec)
        · simpa only [update_of_ne hsame] using hnow
  have hfinal := hkeep m' hle le_rfl
  rw [hend] at hfinal
  exact hfinal

/-- A job that has to make a call makes it in every completed run. -/
theorem Completes.occurs (h : b.Completes j t m m') (hmust : (S.job j).Must good F)
    (hgood : ∀ k, m < k → ∀ u op c a,
      S.exec u op c (b.state k).world = some (.ok a, (b.state (k + 1)).world) → good op a) :
    ∃ k, m < k ∧ ∃ u op c a, F op ∧
      S.exec u op c (b.state k).world = some (.ok a, (b.state (k + 1)).world) := by
  have hstart : ((b.state (m + 1)).threads t).Must good F := by
    have hstep := b.step m
    rw [h.spawn] at hstep
    rw [← some.inj hstep]
    simpa only [update_self] using hmust
  obtain ⟨k, hk, -, op, c, a, hop, hexec⟩ := must_occur h.after hstart h.finished h.alone
    fun k hk _ op c a hexec => hgood k hk t op c a hexec
  exact ⟨k, hk, t, op, c, a, hop, hexec⟩

variable {s : Config World Err Op Out}

/-- Where every state can be continued, there is an endless run. -/
theorem exists_of_extends {P : Nat → Config World Err Op Out → Prop} {act : Nat → Action Choice Event Job}
    (hs : P 0 s) (hstep : ∀ n s, P n s → ∃ s', S.step s (act n) = some s' ∧ P (n + 1) s') :
    ∃ b : Behaviour S, b.state 0 = s ∧ b.act = act ∧ ∀ n, P n (b.state n) := by
  choose next hnext hkeep using hstep
  let states : (n : Nat) → { s // P n s } := fun n =>
    Nat.rec ⟨s, hs⟩ (fun n s => ⟨next n s.1 s.2, hkeep n s.1 s.2⟩) n
  exact ⟨⟨fun n => (states n).1, act, fun n => hnext n (states n).1 (states n).2⟩, rfl, rfl, fun n => (states n).2⟩

/-- A step can be put in front. -/
def cons (s : Config World Err Op Out) (a : Action Choice Event Job) (b : Behaviour S)
    (h : S.step s a = some (b.state 0)) : Behaviour S where
  state := fun n => n.casesOn s b.state
  act := fun n => n.casesOn a b.act
  step := fun n => n.casesOn h b.step

variable {a : Action Choice Event Job}

theorem Completes.cons (hc : b.Completes j t m m') (h : S.step s a = some (b.state 0)) :
    (b.cons s a h).Completes j t (m + 1) (m' + 1) where
  spawn := hc.spawn
  after := Nat.succ_lt_succ hc.after
  finished := hc.finished
  alone k hk hk' := by
    cases k with
    | zero => cases hk
    | succ k => exact hc.alone k (Nat.lt_of_succ_lt_succ hk) (Nat.lt_of_succ_lt_succ hk')

theorem KeepsCompleting.cons (hc : b.KeepsCompleting j) (h : S.step s a = some (b.state 0)) :
    (b.cons s a h).KeepsCompleting j := by
  intro n
  obtain ⟨t, m, m', hm, hcompletes⟩ := hc n
  exact ⟨t, m + 1, m' + 1, Nat.le_succ_of_le hm, hcompletes.cons h⟩

/-- An endless run after a schedule. What each step of the two meets, and what
keeps completing, holds for the whole. -/
theorem exists_of_play {test : Config World Err Op Out → Action Choice Event Job → Bool}
    {P : Config World Err Op Out → Action Choice Event Job → Prop} (htest : ∀ s a, test s a = true → P s a)
    {jobs : List Job} {ι : Type} {Q : ι → Config World Err Op Out → Prop}
    (b : Behaviour S) (hb : ∀ n, P (b.state n) (b.act n)) (hjobs : ∀ j ∈ jobs, b.KeepsCompleting j)
    (hQ : ∀ i, ∃ n, Q i (b.state n)) (actions : List (Action Choice Event Job)) :
    ∀ s, S.play test actions s = some (b.state 0) → ∃ b' : Behaviour S, b'.state 0 = s ∧
      (∀ n, P (b'.state n) (b'.act n)) ∧ (∀ j ∈ jobs, b'.KeepsCompleting j) ∧ ∀ i, ∃ n, Q i (b'.state n) := by
  induction actions with
  | nil =>
    intro s hplay
    cases hplay
    exact ⟨b, rfl, hb, hjobs, hQ⟩
  | cons a rest ih =>
    intro s hplay
    simp only [Semantics.play, ite_none_right_eq_some] at hplay
    obtain ⟨hok, hplay⟩ := hplay
    obtain ⟨m, hm, hrest⟩ := bind_eq_some_iff.mp hplay
    obtain ⟨b₁, rfl, hP, hcompleting, hQ₁⟩ := ih m hrest
    refine ⟨b₁.cons s a hm, rfl, fun n => ?_, fun j hj => (hcompleting j hj).cons hm, fun i => ?_⟩
    · cases n with
      | zero => exact htest s a hok
      | succ n => exact hP n
    · obtain ⟨n, hn⟩ := hQ₁ i
      exact ⟨n + 1, hn⟩

end Behaviour

/-- What changes only where a measure drops stops changing. -/
theorem eventually_const {r : Nat → α} (measure : α → Nat)
    (h : ∀ n, r (n + 1) = r n ∨ measure (r (n + 1)) < measure (r n)) : ∃ m, ∀ n, m ≤ n → r n = r m := by
  have hfrom : ∀ k m, measure (r m) = k → ∃ m', ∀ n, m' ≤ n → r n = r m' := by
    intro k
    induction k using Nat.strong_induction_on with
    | _ k ih =>
      intro m hm
      by_cases hdrop : ∃ n, m ≤ n ∧ measure (r n) < k
      · obtain ⟨n, -, hless⟩ := hdrop
        exact ih _ hless n rfl
      · refine ⟨m, fun n hn => ?_⟩
        induction n, hn using Nat.le_induction with
        | base => rfl
        | succ n hn hsame =>
          obtain hkeep | hless := h n
          · exact hkeep.trans hsame
          · rw [hsame, hm] at hless
            exact absurd ⟨n + 1, Nat.le_succ_of_le hn, hless⟩ hdrop
  exact hfrom _ 0 rfl

end Interleaving
