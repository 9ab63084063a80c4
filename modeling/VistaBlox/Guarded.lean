import Mathlib.Logic.Basic

/-!
# Guarded runs

Runs of a system that takes operations one after the other, as far as a guard lets
them through, while others may change its state in between.
-/
namespace Guarded

structure System (S Op : Type) where
  start : S → Prop
  step : S → Op → S
  other : S → S → Prop

/-- Nobody else changes the state. -/
abbrev System.alone (s₀ : S) (step : S → Op → S) : System S Op := ⟨(· = s₀), step, fun _ _ => False⟩

/-- The states that are reached when every operation taken is allowed. -/
inductive Run (A : System S Op) (allowed : S → Op → Prop) : S → Prop where
  | start {s : S} (h : A.start s) : Run A allowed s
  | step {s : S} {op : Op} (h : Run A allowed s) (hallowed : allowed s op) : Run A allowed (A.step s op)
  | other {s s' : S} (h : Run A allowed s) (hother : A.other s s') : Run A allowed s'

/-- The operations can be taken one after the other. -/
def Playable (A : System S Op) (allowed : S → Op → Prop) : S → List Op → Prop
  | _, [] => True
  | s, op :: ops => allowed s op ∧ Playable A allowed (A.step s op) ops

variable {S T Op : Type} {A : System S Op} {B : System T Op} {allowed : S → Op → Prop} {s : S}

theorem playable_free (ops : List Op) : Playable A (fun _ _ => True) s ops := by
  induction ops generalizing s with
  | nil => trivial
  | cons op ops ih => exact ⟨trivial, ih⟩

theorem Run.play (ops : List Op) (h : Run A allowed s) (hplay : Playable A allowed s ops) :
    Run A allowed (ops.foldl A.step s) := by
  induction ops generalizing s with
  | nil => exact h
  | cons op ops ih => exact ih (h.step hplay.1) hplay.2

/-- What every allowed step keeps, and everything done in between, holds in every run. -/
theorem Run.invariant (h : Run A allowed s) (P : S → Prop) (hstart : ∀ s, A.start s → P s)
    (hstep : ∀ s op, Run A allowed s → allowed s op → P s → P (A.step s op))
    (hother : ∀ s s', A.other s s' → P s → P s') : P s := by
  induction h with
  | start h => exact hstart _ h
  | step h hop ih => exact hstep _ _ h hop ih
  | other _ h ih => exact hother _ _ h ih

/-- Every run is a run of a second system, if its states can be read as states of that
system and the second guard holds wherever the run gets. -/
theorem Run.map (h : Run A allowed s) (f : S → T) (hstart : ∀ s, A.start s → B.start (f s))
    (hstep : ∀ s op, f (A.step s op) = B.step (f s) op) (hother : ∀ s s', A.other s s' → B.other (f s) (f s'))
    (hallowed : ∀ s op, Run A allowed s → allowed s op → allowed' (f s) op) : Run B allowed' (f s) := by
  refine h.invariant (fun s => Run B allowed' (f s)) (fun s h => .start (hstart s h)) (fun s op h hop ih => ?_)
    fun s s' h ih => ih.other (hother s s' h)
  rw [hstep]
  exact ih.step (hallowed s op h hop)

end Guarded
