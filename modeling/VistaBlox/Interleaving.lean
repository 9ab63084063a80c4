import Mathlib.Logic.Relation
import Mathlib.Logic.Function.Basic

/-!
# Interleaved programs over one shared world

A program is a tree of atomic calls. Any number of threads run programs against one world,
an environment moves it, and a thread may be abandoned after any call.

The proof rules are of the rely and guarantee kind: an assertion of one thread must survive
every step of the others, and a call must prove its effect acceptable to them.
-/
namespace Interleaving

open List Option

open Relation (ReflTransGen)

variable {Err Op : Type} {Out : Op → Type}

/-- A program has returned, has thrown, or waits for one atomic call whose
answer, or whose error, selects the rest. -/
inductive Prog (Err Op : Type) (Out : Op → Type) (α : Type) where
  | ret : α → Prog Err Op Out α
  | fail : Err → Prog Err Op Out α
  | call : (op : Op) → (Except Err (Out op) → Prog Err Op Out α) → Prog Err Op Out α

namespace Prog

def bind (p : Prog Err Op Out α) (f : α → Prog Err Op Out β) : Prog Err Op Out β :=
  match p with
  | .ret a => f a
  | .fail e => .fail e
  | .call op next => .call op (fun r => (next r).bind f)

instance : Monad (Prog Err Op Out) where
  pure := .ret
  bind := bind

/-- One call; its error is thrown in the calling program. -/
def perform (op : Op) : Prog Err Op Out (Out op) :=
  .call op (fun r => match r with
    | .ok a => .ret a
    | .error e => .fail e)

/-- The handler takes over wherever the body throws. -/
def catchWith (p : Prog Err Op Out α) (handler : Err → Prog Err Op Out α) : Prog Err Op Out α :=
  match p with
  | .ret a => .ret a
  | .fail e => handler e
  | .call op next => .call op (fun r => (next r).catchWith handler)

@[simp] theorem pure_eq : (pure a : Prog Err Op Out α) = .ret a := rfl

/-- The program as a part of a larger system: its calls and errors go by their
names there, and the answers are read back. -/
def embed {Err' Op' : Type} {Out' : Op' → Type} (inj : Op → Op')
    (answer : ∀ op, Except Err' (Out' (inj op)) → Except Err (Out op)) (err : Err → Err') :
    Prog Err Op Out α → Prog Err' Op' Out' α
  | .ret a => .ret a
  | .fail e => .fail (err e)
  | .call op next => .call (inj op) (fun r => (next (answer op r)).embed inj answer err)

theorem embed_bind {Err' Op' : Type} {Out' : Op' → Type} (inj : Op → Op')
    (answer : ∀ op, Except Err' (Out' (inj op)) → Except Err (Out op)) (err : Err → Err')
    (p : Prog Err Op Out α) (f : α → Prog Err Op Out β) :
    (p.bind f).embed inj answer err = (p.embed inj answer err).bind fun a => (f a).embed inj answer err := by
  induction p with
  | ret => rfl
  | fail => rfl
  | call op next ih => simp only [bind, embed, ih]

/-- Every call the program can make, whatever it is answered, is one of these. -/
def Calls (P : Op → Prop) : Prog Err Op Out α → Prop
  | .ret _ => True
  | .fail _ => True
  | .call op next => P op ∧ ∀ r, (next r).Calls P

variable {op : Op}

theorem calls_perform (h : P op) : (perform op : Prog Err Op Out (Out op)).Calls P := by
  refine ⟨h, fun r => ?_⟩
  cases r <;> trivial

theorem Calls.bind {P : Op → Prop} {p : Prog Err Op Out α} {f : α → Prog Err Op Out β} (hp : p.Calls P)
    (hf : ∀ a, (f a).Calls P) : (p >>= f).Calls P := by
  show (p.bind f).Calls P
  induction p with
  | ret a => exact hf a
  | fail => trivial
  | call op next ih => exact ⟨hp.1, fun r => ih r (hp.2 r)⟩

theorem Calls.catchWith {P : Op → Prop} {p : Prog Err Op Out α} {handler : Err → Prog Err Op Out α} (hp : p.Calls P)
    (hh : ∀ e, (handler e).Calls P) : (p.catchWith handler).Calls P := by
  induction p with
  | ret => trivial
  | fail e => exact hh e
  | call op next ih => exact ⟨hp.1, fun r => ih r (hp.2 r)⟩

theorem Calls.foldlM {P : Op → Prop} {body : σ → β → Prog Err Op Out σ} (hbody : ∀ acc b, (body acc b).Calls P)
    (bs : List β) : ∀ acc, (bs.foldlM body acc).Calls P := by
  induction bs with
  | nil => exact fun _ => trivial
  | cons b bs ih =>
    intro acc
    rw [foldlM_cons]
    exact (hbody acc b).bind ih

theorem Calls.mono {P P' : Op → Prop} (h : ∀ op, P op → P' op) {p : Prog Err Op Out α} (hp : p.Calls P) :
    p.Calls P' := by
  induction p with
  | ret => trivial
  | fail => trivial
  | call op next ih => exact ⟨h op hp.1, fun r => ih r (hp.2 r)⟩

end Prog

/-- Threads and environment of one system. A call names its thread; `Choice`
resolves what the world leaves open, and `none` means the call is blocked. -/
structure Semantics (World Choice Event Job Err Op : Type) (Out : Op → Type) where
  exec : Nat → (op : Op) → Choice → World → Option (Except Err (Out op) × World)
  env : Event → World → Option World
  job : Job → Prog Err Op Out Unit

structure Config (World Err Op : Type) (Out : Op → Type) where
  world : World
  threads : Nat → Prog Err Op Out Unit

inductive Action (Choice Event Job : Type) where
  | spawn : Nat → Job → Action Choice Event Job
  | call : Nat → Choice → Action Choice Event Job
  | env : Event → Action Choice Event Job

variable {World Choice Event Job : Type}

/-- No thread has started. -/
def idle (w : World) : Config World Err Op Out := ⟨w, fun _ => .ret ()⟩

/-- Spawning on a thread that is still running abandons that run for good. -/
def Semantics.step (S : Semantics World Choice Event Job Err Op Out) (s : Config World Err Op Out) :
    Action Choice Event Job → Option (Config World Err Op Out)
  | .spawn t j => some ⟨s.world, Function.update s.threads t (S.job j)⟩
  | .call t c => match s.threads t with
    | .call op next => (S.exec t op c s.world).map
        (fun r => ⟨r.2, Function.update s.threads t (next r.1)⟩)
    | _ => none
  | .env e => (S.env e s.world).map (fun w => ⟨w, s.threads⟩)

variable {s : Config World Err Op Out} {t : Nat}

theorem Semantics.step_call (S : Semantics World Choice Event Job Err Op Out) (ht : s.threads t = .call op rest)
    (c : Choice) :
    S.step s (.call t c) =
      (S.exec t op c s.world).map fun r => ⟨r.2, Function.update s.threads t (rest r.1)⟩ := by
  simp only [Semantics.step, ht]

/-- What each action does. -/
inductive Semantics.Stepped (S : Semantics World Choice Event Job Err Op Out) (s : Config World Err Op Out) :
    Action Choice Event Job → Config World Err Op Out → Prop where
  | spawn {t : Nat} {j : Job} : Stepped S s (.spawn t j) ⟨s.world, Function.update s.threads t (S.job j)⟩
  | call {t : Nat} {c : Choice} {op : Op} {rest : Except Err (Out op) → Prog Err Op Out Unit}
      {r : Except Err (Out op)} {w : World} (hthread : s.threads t = .call op rest)
      (hexec : S.exec t op c s.world = some (r, w)) :
      Stepped S s (.call t c) ⟨w, Function.update s.threads t (rest r)⟩
  | env {e : Event} {w : World} (henv : S.env e s.world = some w) : Stepped S s (.env e) ⟨w, s.threads⟩

theorem Semantics.stepped {S : Semantics World Choice Event Job Err Op Out} (h : S.step s a = some s') :
    S.Stepped s a s' := by
  cases a with
  | spawn =>
    cases h
    exact .spawn
  | env =>
    obtain ⟨w, hw, rfl⟩ := map_eq_some_iff.mp h
    exact .env hw
  | call t =>
    cases hthread : s.threads t with
    | ret | fail => simp [Semantics.step, hthread] at h
    | call op rest =>
      rw [S.step_call hthread] at h
      obtain ⟨r, hexec, rfl⟩ := map_eq_some_iff.mp h
      exact .call hthread hexec

/-- A condition on the steps of a run, each judged in the state before it. -/
structure Guard (World Event Op : Type) where
  call : Nat → Op → World → Prop
  env : Event → World → Prop

/-- Every step is allowed. -/
def Guard.free : Guard World Event Op := ⟨fun _ _ _ => True, fun _ _ => True⟩

def Guard.Allows (G : Guard World Event Op) (s : Config World Err Op Out) : Action Choice Event Job → Prop
  | .spawn _ _ => True
  | .call t _ => match s.threads t with
    | .call op _ => G.call t op s.world
    | _ => True
  | .env e => G.env e s.world

theorem Guard.Allows.call {G : Guard World Event Op} (h : G.Allows s (.call t c : Action Choice Event Job))
    (hthread : s.threads t = .call op rest) : G.call t op s.world := by
  simpa only [Guard.Allows, hthread] using h

inductive Reachable (S : Semantics World Choice Event Job Err Op Out) (G : Guard World Event Op)
    (s₀ : Config World Err Op Out) : Config World Err Op Out → Prop where
  | refl : Reachable S G s₀ s₀
  | tail {s s' : Config World Err Op Out} (a : Action Choice Event Job) : Reachable S G s₀ s →
      G.Allows s a → S.step s a = some s' → Reachable S G s₀ s'

def Guard.and (G G' : Guard World Event Op) : Guard World Event Op :=
  ⟨fun t op w => G.call t op w ∧ G'.call t op w, fun e w => G.env e w ∧ G'.env e w⟩

variable {G G' : Guard World Event Op} {S : Semantics World Choice Event Job Err Op Out}
  {s₀ : Config World Err Op Out}

theorem Reachable.mono (h : Reachable S G s₀ s) (hcall : ∀ t op w, G.call t op w → G'.call t op w)
    (henv : ∀ e w, G.env e w → G'.env e w) : Reachable S G' s₀ s := by
  induction h with
  | refl => exact .refl
  | tail a _ hallow hstep ih =>
    refine .tail a ih ?_ hstep
    cases a with
    | spawn => trivial
    | env e => exact henv e _ hallow
    | call t =>
      simp only [Guard.Allows] at hallow ⊢
      split at hallow
      · exact hcall t _ _ hallow
      · trivial

theorem Reachable.free (h : Reachable S G s₀ s) : Reachable S Guard.free s₀ s :=
  h.mono (fun _ _ _ _ => trivial) fun _ _ _ => trivial

/-- What every allowed call and event keeps holds in every state reached. -/
theorem Reachable.always (h : Reachable S G s₀ s) (P : World → Prop) (h₀ : P s₀.world)
    (hcall : ∀ t op c w r w', G.call t op w → S.exec t op c w = some (r, w') → P w → P w')
    (henv : ∀ e w w', G.env e w → S.env e w = some w' → P w → P w') : P s.world := by
  induction h with
  | refl => exact h₀
  | tail a _ hallow hstep ih =>
    cases Semantics.stepped hstep with
    | spawn => exact ih
    | env henv' => exact henv _ _ _ hallow henv' ih
    | call hthread hexec => exact hcall _ _ _ _ _ _ (hallow.call hthread) hexec ih

theorem Reachable.trans (h : Reachable S G a b) (h' : Reachable S G b c) : Reachable S G a c := by
  induction h' with
  | refl => exact h
  | tail act _ hallow hstep ih => exact .tail act ih hallow hstep

def Config.map {World' : Type} (f : World → World') (s : Config World Err Op Out) : Config World' Err Op Out :=
  ⟨f s.world, s.threads⟩

/-- A run of one system is a run of another with the same jobs, whose calls and
events do the same to the images of its worlds. -/
theorem Reachable.map {World' Event' : Type} {S' : Semantics World' Choice Event' Job Err Op Out}
    {G' : Guard World' Event' Op} (h : Reachable S G s₀ s) (f : World → World') (g : Event → Event')
    (hjob : S'.job = S.job) (hexec : ∀ t op c w, S'.exec t op c (f w) = (S.exec t op c w).map fun r => (r.1, f r.2))
    (henv : ∀ e w, S'.env (g e) (f w) = (S.env e w).map f) (hcall : ∀ t op w, G.call t op w → G'.call t op (f w))
    (hevent : ∀ e w, G.env e w → G'.env (g e) (f w)) : Reachable S' G' (s₀.map f) (s.map f) := by
  induction h with
  | refl => exact .refl
  | tail a _ hallow hstep ih =>
    cases Semantics.stepped hstep with
    | @spawn t j => exact .tail (.spawn t j) ih trivial (by rw [Semantics.step, hjob]; rfl)
    | env henv' => exact .tail (.env (g _)) ih (hevent _ _ hallow) (by simp [Semantics.step, Config.map, henv, henv'])
    | @call t c _ _ _ _ hthread hexec' =>
      refine .tail (.call t c) ih ?_ ?_
      · simpa only [Guard.Allows, Config.map, hthread] using hcall _ _ _ (hallow.call hthread)
      · simp [Semantics.step, Config.map, hthread, hexec, hexec']

theorem Guard.allows_free (s : Config World Err Op Out) (a : Action Choice Event Job) (_ : true = true) :
    (Guard.free : Guard World Event Op).Allows s a := by
  cases a with
  | spawn => trivial
  | env => trivial
  | call =>
    simp only [Guard.Allows]
    split <;> trivial

variable {test : Config World Err Op Out → Action Choice Event Job → Bool}

theorem Guard.allows_and {test' : Config World Err Op Out → Action Choice Event Job → Bool}
    (h : ∀ s a, test s a = true → G.Allows s a) (h' : ∀ s a, test' s a = true → G'.Allows s a)
    (s : Config World Err Op Out) (a : Action Choice Event Job) (ht : (test s a && test' s a) = true) :
    (G.and G').Allows s a := by
  obtain ⟨h₁, h₂⟩ := Bool.and_eq_true_iff.mp ht
  have hG := h s a h₁
  have hG' := h' s a h₂
  cases a with
  | spawn => trivial
  | env => exact ⟨hG, hG'⟩
  | call =>
    simp only [Guard.Allows] at hG hG' ⊢
    split at hG <;> simp_all [Guard.and]

/-- A schedule is played step by step; each step has to pass the test first. -/
def Semantics.play (S : Semantics World Choice Event Job Err Op Out)
    (test : Config World Err Op Out → Action Choice Event Job → Bool) :
    List (Action Choice Event Job) → Config World Err Op Out → Option (Config World Err Op Out)
  | [], s => some s
  | a :: rest, s => if test s a then (S.step s a).bind (S.play test rest) else none

theorem reachable_of_play (S : Semantics World Choice Event Job Err Op Out)
    (htest : ∀ s a, test s a = true → G.Allows s a) (actions : List (Action Choice Event Job)) :
    ∀ s s', S.play test actions s = some s' → Reachable S G s s' := by
  induction actions with
  | nil =>
    intro s s' h
    cases h
    exact .refl
  | cons a rest ih =>
    intro s s' h
    simp only [Semantics.play, ite_none_right_eq_some] at h
    obtain ⟨hok, h⟩ := h
    obtain ⟨m, hm, hr⟩ := bind_eq_some_iff.mp h
    exact Reachable.trans (.tail a .refl (htest s a hok) hm) (ih m s' hr)

/-- Play a schedule and look at where it ends. -/
theorem exists_of_play (S : Semantics World Choice Event Job Err Op Out)
    (htest : ∀ s a, test s a = true → G.Allows s a) (actions : List (Action Choice Event Job))
    (s : Config World Err Op Out) (look : Config World Err Op Out → Bool)
    (h : (S.play test actions s).any look = true) : ∃ s', Reachable S G s s' ∧ look s' = true := by
  cases hplay : S.play test actions s with
  | none => simp [hplay] at h
  | some s' => exact ⟨s', reachable_of_play S htest actions s s' hplay, by simpa [hplay] using h⟩

/-- The same with a look at an earlier state of the run. -/
theorem exists_of_play_play (S : Semantics World Choice Event Job Err Op Out)
    (htest : ∀ s a, test s a = true → G.Allows s a) (first rest : List (Action Choice Event Job))
    (s : Config World Err Op Out) (look : Config World Err Op Out → Config World Err Op Out → Bool)
    (h : ((S.play test first s).any fun m => (S.play test rest m).any (look m)) = true) :
    ∃ m s', Reachable S G s m ∧ Reachable S G m s' ∧ look m s' = true := by
  obtain ⟨m, hm, hrest⟩ := exists_of_play S htest first s _ h
  obtain ⟨s', hs', hlook⟩ := exists_of_play S htest rest m _ hrest
  exact ⟨m, s', hm, hs', hlook⟩

/-- A test of the calls, for a condition that leaves the environment free. -/
def threadTest (test : Nat → Op → World → Bool) (s : Config World Err Op Out) : Action Choice Event Job → Bool
  | .call t _ => match s.threads t with
    | .call op _ => test t op s.world
    | _ => true
  | _ => true

theorem threadTest_sound {test : Nat → Op → World → Bool} (hcall : ∀ t op w, test t op w = true → G.call t op w)
    (henv : ∀ e w, G.env e w) (s : Config World Err Op Out) (a : Action Choice Event Job)
    (h : threadTest test s a = true) : G.Allows s a := by
  cases a with
  | spawn => trivial
  | env e => exact henv e s.world
  | call t =>
    simp only [Guard.Allows]
    split
    · rename_i op next hthread
      simp only [threadTest, hthread] at h
      exact hcall t op s.world h
    · trivial

/-- A decidable condition is its own test. -/
theorem Guard.allows_of_decide (G : Guard World Event Op) [∀ t op w, Decidable (G.call t op w)]
    (henv : ∀ e w, G.env e w) (s : Config World Err Op Out) (a : Action Choice Event Job)
    (h : threadTest (fun t op w => decide (G.call t op w)) s a = true) : G.Allows s a :=
  threadTest_sound (fun _ _ _ => of_decide_eq_true) henv s a h

/-- A test of the environment, for a condition that leaves the calls free. -/
def envTest (test : Event → World → Bool) (s : Config World Err Op Out) : Action Choice Event Job → Bool
  | .env e => test e s.world
  | _ => true

theorem envTest_sound {test : Event → World → Bool} (henv : ∀ e w, test e w = true → G.env e w)
    (hcall : ∀ t op w, G.call t op w) (s : Config World Err Op Out) (a : Action Choice Event Job)
    (h : envTest test s a = true) : G.Allows s a := by
  cases a with
  | spawn => trivial
  | env e => exact henv e s.world h
  | call t =>
    simp only [Guard.Allows]
    split
    · exact hcall ..
    · trivial

/-- What a proof fixes: a world invariant, the changes each thread must expect
from everybody else, and what must hold whenever a thread is about to call. -/
structure Rules (World Op : Type) where
  inv : World → Prop
  rely : Nat → World → World → Prop
  req : Nat → Op → World → Prop

/-- The other threads and the environment have taken finitely many steps. -/
def Rules.Later (R : Rules World Op) (t : Nat) : World → World → Prop :=
  ReflTransGen (fun w w' => R.inv w' ∧ R.rely t w w')

def Rules.Stable (R : Rules World Op) (t : Nat) (P : World → Prop) : Prop :=
  ∀ w w', R.inv w → R.inv w' → R.rely t w w' → P w → P w'

variable {R : Rules World Op} {w w' : World}

theorem Rules.Later.inv (h : R.Later t w w') (hw : R.inv w) : R.inv w' := by
  induction h with
  | refl => exact hw
  | tail _ hs => exact hs.1

variable {P : World → Prop}

theorem Rules.Stable.later (hP : R.Stable t P) (h : R.Later t w w') (hw : R.inv w) (hp : P w) : P w' := by
  induction h with
  | refl => exact hp
  | tail hmid hs ih => exact hP _ _ (Rules.Later.inv hmid hw) hs.1 hs.2 ih

theorem Rules.Stable.and (hP : R.Stable t P) (hQ : R.Stable t Q) : R.Stable t (fun w => P w ∧ Q w) :=
  fun w w' hi hi' hr h => ⟨hP w w' hi hi' hr h.1, hQ w w' hi hi' hr h.2⟩

theorem Rules.stable_const : R.Stable t (fun _ => p) :=
  fun _ _ _ _ _ h => h

theorem Rules.Stable.imp_const (h : p → R.Stable t P) : R.Stable t (fun w => p → P w) :=
  fun w w' hi hi' hr hp hc => h hc w w' hi hi' hr (hp hc)

/-- Whatever no step of anybody can undo. -/
def Rules.Lasting (R : Rules World Op) (F : World → Prop) : Prop :=
  ∀ u w w', R.inv w → R.inv w' → R.rely u w w' → F w → F w'

variable {F : World → Prop}

/-- A lasting fact survives one call and whatever the others do next. -/
theorem Rules.Lasting.call (hF : R.Lasting F) (hl : R.Later t w' w'') (hw : R.inv w) (hw' : R.inv w')
    (hr : R.rely u w w') (hf : F w) : F w'' :=
  Rules.Stable.later (hF t) hl hw' (hF u w w' hw hw' hr hf)

variable {Err₀ Op₀ : Type} {Out₀ : Op₀ → Type} {s' : Config World Err Op Out}

section Logic

variable (S : Semantics World Choice Event Job Err Op Out) (G : Guard World Event Op) (R : Rules World Op)

/-- The rest of a thread is safe at this very world: its next call meets its
requirement, keeps the invariant, is acceptable to every other thread, and
leaves a safe rest whatever the others do before the thread moves again. -/
def SafeAt (t : Nat) (Q : α → World → Prop) : Prog Err Op Out α → World → Prop
  | .ret a, w => Q a w
  | .fail _, _ => True
  | .call op next, w => R.req t op w ∧ (G.call t op w → ∀ c r w', S.exec t op c w = some (r, w') →
      R.inv w' ∧ (∀ u, u ≠ t → R.rely u w w') ∧ ∀ w'', R.Later t w' w'' → SafeAt t Q (next r) w'')

def SafeFrom (t : Nat) (Q : α → World → Prop) (p : Prog Err Op Out α) (w : World) : Prop :=
  ∀ w', R.Later t w w' → SafeAt S G R t Q p w'

/-- Pre- and postcondition of one thread; nothing is promised of a throw. -/
def Triple (t : Nat) (P : World → Prop) (p : Prog Err Op Out α) (Q : α → World → Prop) : Prop :=
  ∀ w, R.inv w → P w → SafeAt S G R t Q p w

variable {S G R}

/-- The rules for putting programs together have one form: wherever the program ends
or throws, a safe rest takes over, with a lasting fact to rely on. -/
theorem SafeAt.lift {φ : Prog Err Op Out α → Prog Err Op Out β}
    (hφ : ∀ op next, φ (.call op next) = .call op fun r => φ (next r)) (hF : R.Lasting F)
    (hret : ∀ a w, R.inv w → F w → Q a w → SafeAt S G R t Q' (φ (.ret a)) w)
    (hfail : ∀ e w, R.inv w → F w → SafeAt S G R t Q' (φ (.fail e)) w) :
    ∀ w, R.inv w → F w → SafeAt S G R t Q p w → SafeAt S G R t Q' (φ p) w := by
  induction p with
  | ret a => exact hret a
  | fail e => exact fun w hw hf _ => hfail e w hw hf
  | call op next ih =>
    intro w hw hf h
    rw [hφ]
    refine ⟨h.1, fun hg c r w' he => ?_⟩
    obtain ⟨hi, hr, hrest⟩ := h.2 hg c r w' he
    exact ⟨hi, hr, fun w'' hl => ih r w'' (hl.inv hi) (hF.call hl hw hi (hr _ (Nat.succ_ne_self t)) hf) (hrest w'' hl)⟩

theorem Rules.lasting_true : R.Lasting fun _ => True := fun _ _ _ _ _ _ h => h

theorem triple_ret (h : ∀ w, R.inv w → P w → Q a w) : Triple S G R t P (.ret a) Q := h

theorem triple_done : Triple S G R t P (.ret a) fun _ _ => True := triple_ret fun _ _ _ => trivial

theorem triple_fail : Triple S G R t P (.fail e) Q := fun _ _ _ => trivial

theorem triple_bind (hp : Triple S G R t P p Q) (hf : ∀ a, Triple S G R t (Q a) (f a) Q') :
    Triple S G R t P (p >>= f) Q' :=
  fun w hw h => SafeAt.lift (φ := (Prog.bind · f)) (fun _ _ => rfl) Rules.lasting_true
    (fun a w hw _ => hf a w hw) (fun _ _ _ _ => trivial) w hw trivial (hp w hw h)

theorem triple_pre (hp : Triple S G R t P' p Q) (h : ∀ w, R.inv w → P w → P' w) : Triple S G R t P p Q :=
  fun w hw hP => hp w hw (h w hw hP)

theorem triple_post (hp : Triple S G R t P p Q) (h : ∀ a w, R.inv w → Q a w → Q' a w) : Triple S G R t P p Q' :=
  fun w hw hP => SafeAt.lift (φ := id) (fun _ _ => rfl) Rules.lasting_true
    (fun a w hw _ => h a w hw) (fun _ _ _ _ => trivial) w hw trivial (hp w hw hP)

/-- The handler starts in whatever state the throw leaves: it can use what lasts. -/
theorem triple_catch (hF : R.Lasting F) (hp : Triple S G R t P p Q) (hh : ∀ e, Triple S G R t F (handler e) Q) :
    Triple S G R t (fun w => F w ∧ P w) (p.catchWith handler) Q :=
  fun w hw h => SafeAt.lift (φ := (Prog.catchWith · handler)) (fun _ _ => rfl) hF (fun _ _ _ _ hq => hq)
    hh w hw h.1 (hp w hw h.2)

theorem triple_catch_any (hp : Triple S G R t P p Q) (hh : ∀ e, Triple S G R t (fun _ => True) (handler e) Q) :
    Triple S G R t P (p.catchWith handler) Q :=
  triple_pre (triple_catch Rules.lasting_true hp hh) fun _ _ h => ⟨trivial, h⟩

/-- A fact that does not depend on the world may be split off a precondition. -/
theorem triple_const (h : c → Triple S G R t P p Q) : Triple S G R t (fun w => c ∧ P w) p Q :=
  fun w hw hP => h hP.1 w hw hP.2

theorem triple_exists {ι : Sort _} {P : ι → World → Prop} {Q : α → World → Prop} {p : Prog Err Op Out α}
    (h : ∀ i, Triple S G R t (P i) p Q) : Triple S G R t (fun w => ∃ i, P i w) p Q :=
  fun w hw hP => hP.elim (fun i hi => h i w hw hi)

/-- The rule of one call. Its effect is proved once, for every way the world
may answer, and the assertion about a proper answer must be stable. -/
theorem triple_perform (hreq : ∀ w, R.inv w → P w → R.req t op w)
    (hstep : ∀ w c r w', R.inv w → P w → G.call t op w → S.exec t op c w = some (r, w') →
      R.inv w' ∧ (∀ u, u ≠ t → R.rely u w w') ∧ ∀ a, r = .ok a → Q a w') (hstable : ∀ a, R.Stable t (Q a)) :
    Triple S G R t P (Prog.perform op) Q := by
  intro w hw hP
  refine ⟨hreq w hw hP, fun hg c r w' he => ?_⟩
  obtain ⟨hi, hr, hq⟩ := hstep w c r w' hw hP hg he
  refine ⟨hi, hr, fun w'' hl => ?_⟩
  cases r with
  | ok a => exact (hstable a).later hl hi (hq a rfl)
  | error => trivial

/-- A lasting fact can be carried past any program. -/
theorem triple_frame (hF : R.Lasting F) (hp : Triple S G R t P p Q) :
    Triple S G R t (fun w => F w ∧ P w) p (fun a w => F w ∧ Q a w) :=
  fun w hw h => SafeAt.lift (φ := id) (fun _ _ => rfl) hF (fun _ _ _ => And.intro)
    (fun _ _ _ _ => trivial) w hw h.1 (hp w hw h.2)

/-- A program that makes only harmless calls is harmless. -/
theorem triple_calls {P : Op → Prop} (hreq : ∀ op w, P op → R.inv w → R.req t op w)
    (hcall : ∀ op c w r w', P op → R.inv w → G.call t op w → S.exec t op c w = some (r, w') →
      R.inv w' ∧ ∀ u, u ≠ t → R.rely u w w') {p : Prog Err Op Out α} (hp : p.Calls P) :
    Triple S G R t (fun _ => True) p fun _ _ => True := by
  induction p with
  | ret => exact triple_ret fun _ _ h => h
  | fail => exact triple_fail
  | call op next ih =>
    intro w hw _
    refine ⟨hreq op w hp.1 hw, fun hg c r w' he => ?_⟩
    obtain ⟨hi, hr⟩ := hcall op c w r w' hp.1 hw hg he
    exact ⟨hi, hr, fun w'' hl => ih r (hp.2 r) w'' (hl.inv hi) trivial⟩

/-- An embedded program keeps whatever each of its calls keeps. -/
theorem triple_embed (inj : Op₀ → Op) (answer : ∀ op, Except Err (Out (inj op)) → Except Err₀ (Out₀ op))
    (err : Err₀ → Err) (hreq : ∀ op w, R.inv w → I w → R.req t (inj op) w)
    (hcall : ∀ op c w r w', R.inv w → I w → G.call t (inj op) w → S.exec t (inj op) c w = some (r, w') →
      R.inv w' ∧ (∀ u, u ≠ t → R.rely u w w') ∧ I w') (hstable : R.Stable t I) (p : Prog Err₀ Op₀ Out₀ α) :
    Triple S G R t I (p.embed inj answer err) fun _ => I := by
  induction p with
  | ret => exact triple_ret fun _ _ h => h
  | fail => exact triple_fail
  | call op next ih =>
    intro w hw hI
    refine ⟨hreq op w hw hI, fun hg c r w' he => ?_⟩
    obtain ⟨hi, hr, hkeep⟩ := hcall op c w r w' hw hI hg he
    exact ⟨hi, hr, fun w'' hl => ih _ w'' (hl.inv hi) (hstable.later hl hi hkeep)⟩

/-- The rule of one call of an embedded program. -/
theorem triple_embed_perform (inj : Op₀ → Op) (answer : ∀ op, Except Err (Out (inj op)) → Except Err₀ (Out₀ op))
    (err : Err₀ → Err) (hreq : ∀ w, R.inv w → P w → R.req t (inj op) w)
    (hstep : ∀ w c r w', R.inv w → P w → G.call t (inj op) w → S.exec t (inj op) c w = some (r, w') →
      R.inv w' ∧ (∀ u, u ≠ t → R.rely u w w') ∧ ∀ a, answer op r = .ok a → Q a w') (hstable : ∀ a, R.Stable t (Q a)) :
    Triple S G R t P ((Prog.perform op).embed inj answer err) Q := by
  intro w hw hP
  refine ⟨hreq w hw hP, fun hg c r w' he => ?_⟩
  obtain ⟨hi, hr, hq⟩ := hstep w c r w' hw hP hg he
  refine ⟨hi, hr, fun w'' hl => ?_⟩
  cases hanswer : answer op r with
  | ok a => simpa only [hanswer, Prog.embed, SafeAt] using (hstable a).later hl hi (hq a hanswer)
  | error => simp only [hanswer, Prog.embed, SafeAt]

/-- A loop over a list carries an assertion about the part already done. -/
theorem triple_foldlM {I : List β → World → Prop} (body : σ → β → Prog Err Op Out σ) (done todo : List β)
    (hbody : ∀ acc pre b post, pre ++ b :: post = done ++ todo →
      Triple S G R t (I pre) (body acc b) (fun _ => I (pre ++ [b]))) :
    ∀ acc, Triple S G R t (I done) (todo.foldlM body acc) (fun _ => I (done ++ todo)) := by
  induction todo generalizing done with
  | nil =>
    intro acc
    refine triple_ret (fun w _ h => ?_)
    simpa using h
  | cons b todo ih =>
    intro acc
    rw [foldlM_cons]
    refine triple_bind (hbody acc done b todo rfl) (fun acc' => ?_)
    have h := ih (done ++ [b]) (by simpa using hbody) acc'
    simpa using h

theorem Rules.Later.trans (h : R.Later t a b) (h' : R.Later t b c) :
    R.Later t a c := ReflTransGen.trans h h'

theorem SafeFrom.later (h : SafeFrom S G R t Q p w) (hl : R.Later t w w') : SafeFrom S G R t Q p w' :=
  fun w'' hl' => h w'' (hl.trans hl')

theorem Triple.safeFrom (h : Triple S G R t (fun _ => True) p Q) (hw : R.inv w) : SafeFrom S G R t Q p w :=
  fun w' hl => h w' (hl.inv hw) trivial

/-- What the rules establish of a configuration. -/
def Secure (S : Semantics World Choice Event Job Err Op Out) (G : Guard World Event Op)
    (R : Rules World Op) (s : Config World Err Op Out) : Prop :=
  R.inv s.world ∧ ∀ t, SafeFrom S G R t (fun _ _ => True) (s.threads t) s.world

/-- What the environment and the jobs of a system have to meet. -/
structure Sound (S : Semantics World Choice Event Job Err Op Out) (G : Guard World Event Op)
    (R : Rules World Op) : Prop where
  job : ∀ t j, Triple S G R t (fun _ => True) (S.job j) (fun _ _ => True)
  env : ∀ e w w', R.inv w → G.env e w → S.env e w = some w' → R.inv w' ∧ ∀ t, R.rely t w w'

theorem secure_idle (w : World) (hw : R.inv w) : Secure S G R (idle w) :=
  ⟨hw, fun _ _ _ => trivial⟩

/-- One allowed step keeps a configuration secure. If it changes the world at
all, the change is one that some thread relies on. -/
theorem Secure.step (hsound : Sound S G R) (h : Secure S G R s) (a : Action Choice Event Job)
    (hallow : G.Allows s a) (hstep : S.step s a = some s') :
    Secure S G R s' ∧ (s'.world = s.world ∨ ∃ u, R.rely u s.world s'.world) := by
  obtain ⟨hinv, hsafe⟩ := h
  cases Semantics.stepped hstep with
  | @spawn t j =>
    refine ⟨⟨hinv, fun u => ?_⟩, .inl rfl⟩
    by_cases hu : u = t
    · subst hu
      simpa using (hsound.job u j).safeFrom hinv
    · simpa [hu] using hsafe u
  | env henv =>
    obtain ⟨hi, hr⟩ := hsound.env _ _ _ hinv hallow henv
    exact ⟨⟨hi, fun u => (hsafe u).later (.single ⟨hi, hr u⟩)⟩, .inr ⟨0, hr 0⟩⟩
  | @call t c op rest r w hthread hexec =>
    have hnow : SafeAt S G R t (fun _ _ => True) (.call op rest) s.world := hthread ▸ hsafe t s.world .refl
    obtain ⟨hi, hr, hrest⟩ := hnow.2 (hallow.call hthread) c r w hexec
    refine ⟨⟨hi, fun u => ?_⟩, .inr ⟨t + 1, hr _ (Nat.succ_ne_self t)⟩⟩
    by_cases hu : u = t
    · subst hu
      simpa [SafeFrom] using hrest
    · simpa [hu] using (hsafe u).later (.single ⟨hi, hr u hu⟩)

/-- The rules are sound for whole runs. -/
theorem Reachable.secure (hsound : Sound S G R) (h₀ : Secure S G R s₀) (h : Reachable S G s₀ s) : Secure S G R s := by
  induction h with
  | refl => exact h₀
  | tail a _ hallow hstep ih => exact (ih.step hsound a hallow hstep).1

/-- A relation that every step of the rules implies holds between any two
states of a run. -/
theorem Reachable.related (hsound : Sound S G R) (hs : Secure S G R s) (h : Reachable S G s s')
    (Rel : World → World → Prop) (hrefl : ∀ w, Rel w w) (htrans : ∀ a b c, Rel a b → Rel b c → Rel a c)
    (hrely : ∀ u w w', R.rely u w w' → Rel w w') : Rel s.world s'.world := by
  induction h with
  | refl => exact hrefl _
  | tail a hreach hallow hstep ih =>
    obtain hsame | ⟨u, hr⟩ := ((hreach.secure hsound hs).step hsound a hallow hstep).2
    · rw [hsame]
      exact ih
    · exact htrans _ _ _ ih (hrely u _ _ hr)

/-- Whenever a thread is about to call, the requirement of that call holds. -/
theorem Secure.req (h : Secure S G R s) (ht : s.threads t = .call op rest) : R.req t op s.world := by
  have hnow := h.2 t s.world .refl
  rw [ht] at hnow
  exact hnow.1

/-- Over a run that keeps to the rules and to a further condition, a property
holds throughout if each call keeps it where its requirement holds, and each
outside event does. -/
theorem Reachable.invariant (hsound : Sound S G R) (h₀ : Secure S G R s₀) (h : Reachable S (G.and H) s₀ s)
    (P : World → Prop) (hP : P s₀.world)
    (hcall : ∀ t op c w r w', R.inv w → (∃ u, R.rely u w w') → R.req t op w → H.call t op w →
      S.exec t op c w = some (r, w') → P w → P w')
    (henv : ∀ e w w', R.inv w → (∃ u, R.rely u w w') → H.env e w → S.env e w = some w' → P w → P w') :
    P s.world := by
  have hrules : ∀ {s}, Reachable S (G.and H) s₀ s → Secure S G R s := fun hs =>
    (hs.mono (fun _ _ _ hg => hg.1) fun _ _ hg => hg.1).secure hsound h₀
  induction h with
  | refl => exact hP
  | @tail s s' a hreach hallow hstep ih =>
    have hsecure := hrules hreach
    cases Semantics.stepped hstep with
    | spawn => exact ih
    | env henv' =>
      have hrely := (hsound.env _ _ _ hsecure.1 hallow.1 henv').2
      exact henv _ _ _ hsecure.1 ⟨0, hrely 0⟩ hallow.2 henv' ih
    | @call t c op rest r w hthread hexec =>
      have hg := hallow.call hthread
      have hnow : SafeAt S G R t (fun _ _ => True) (.call op rest) s.world :=
        hthread ▸ hsecure.2 t s.world .refl
      have hrely := (hnow.2 hg.1 c r w hexec).2.1 _ (Nat.succ_ne_self t)
      exact hcall t op c _ r w hsecure.1 ⟨t + 1, hrely⟩ hnow.1 hg.2 hexec ih

end Logic

section Alone

variable (S : Semantics World Choice Event Job Err Op Out) (t : Nat) (c : Choice)

/-- A program that runs to its end while nobody else moves, with the same
choice at every call. -/
def Semantics.alone : Prog Err Op Out α → World → Option (Except Err α × World)
  | .ret a, w => some (.ok a, w)
  | .fail e, w => some (.error e, w)
  | .call op next, w => (S.exec t op c w).bind fun r => Semantics.alone (next r.1) r.2

/-- Alone, the program returns this value and takes the first assertion to the second. -/
def Yields (P : World → Prop) (p : Prog Err Op Out α) (a : α) (P' : World → Prop) : Prop :=
  ∀ w, P w → ∃ w', S.alone t c p w = some (.ok a, w') ∧ P' w'

variable {S t c} {P' P'' : World → Prop}

theorem alone_lift {φ : Prog Err Op Out α → Prog Err Op Out β}
    (hφ : ∀ op next, φ (.call op next) = .call op fun r => φ (next r)) :
    ∀ {w w' : World}, S.alone t c p w = some (.ok a, w') → S.alone t c (φ p) w = S.alone t c (φ (.ret a)) w' := by
  induction p with
  | ret =>
    intro w w' h
    cases h
    rfl
  | fail => exact fun h => by cases h
  | call op next ih =>
    intro w w' h
    obtain ⟨r, hexec, hrest⟩ := bind_eq_some_iff.mp h
    rw [hφ]
    show (S.exec t op c w).bind _ = _
    rw [hexec]
    exact ih r.1 hrest

theorem yields_ret (a : α) : Yields S t c P (.ret a) a P := fun w h => ⟨w, rfl, h⟩

theorem yields_bind (hp : Yields S t c P p a P') (hf : Yields S t c P' (f a) b P'') :
    Yields S t c P (p >>= f) b P'' := by
  intro w h
  obtain ⟨w', hw', h'⟩ := hp w h
  obtain ⟨w'', hw'', h''⟩ := hf w' h'
  exact ⟨w'', (alone_lift (φ := (Prog.bind · f)) (fun _ _ => rfl) hw').trans hw'', h''⟩

theorem yields_catchWith (hp : Yields S t c P p a P') : Yields S t c P (p.catchWith handler) a P' := by
  intro w h
  obtain ⟨w', hw', h'⟩ := hp w h
  exact ⟨w', alone_lift (φ := (Prog.catchWith · handler)) (fun _ _ => rfl) hw', h'⟩

theorem yields_perform (h : ∀ w, P w → ∃ w', S.exec t op c w = some (.ok a, w') ∧ P' w') :
    Yields S t c P (Prog.perform op) a P' := by
  intro w hw
  obtain ⟨w', hexec, h'⟩ := h w hw
  refine ⟨w', ?_, h'⟩
  show (S.exec t op c w).bind _ = _
  rw [hexec]
  rfl

end Alone

end Interleaving
