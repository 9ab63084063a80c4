import VistaBlox.Interleaving

/-!
# Histories beside the world

Each call writes down what it was answered and what it changed. Nothing in the system reads
the history, so it changes no run; a guard or an assertion may refer to it.
-/
namespace Interleaving

variable {World Choice Event Job Err Op History : Type} {Out : Op → Type}

/-- What a call writes down: the world before it, the answer and the world after. -/
abbrev Note (World History Err Op : Type) (Out : Op → Type) : Type :=
  Nat → (op : Op) → World → Except Err (Out op) × World → History → History

def Semantics.recording (S : Semantics World Choice Event Job Err Op Out) (note : Note World History Err Op Out) :
    Semantics (World × History) Choice Event Job Err Op Out where
  exec t op c w := (S.exec t op c w.1).map fun r => (r.1, (r.2, note t op w.1 r w.2))
  env e w := (S.env e w.1).map fun w' => (w', w.2)
  job := S.job

variable {S : Semantics World Choice Event Job Err Op Out} {note : Note World History Err Op Out}

variable {c : Choice} {op : Op} {t : Nat} {w w' : World × History}

theorem recording_exec (h : (S.recording note).exec t op c w = some (r, w')) :
    S.exec t op c w.1 = some (r, w'.1) ∧ w'.2 = note t op w.1 (r, w'.1) w.2 := by
  obtain ⟨x, hexec, hx⟩ := Option.map_eq_some_iff.mp h
  cases hx
  exact ⟨hexec, rfl⟩

theorem exec_recording {w w' : World} {r : Except Err (Out op)} (h : S.exec t op c w = some (r, w'))
    (history : History) :
    (S.recording note).exec t op c (w, history) = some (r, (w', note t op w (r, w') history)) := by
  simp [Semantics.recording, h]

theorem recording_env (h : (S.recording note).env e w = some w') : S.env e w.1 = some w'.1 ∧ w'.2 = w.2 := by
  obtain ⟨x, henv, hx⟩ := Option.map_eq_some_iff.mp h
  cases hx
  exact ⟨henv, rfl⟩

end Interleaving
