import Mathlib.Data.List.Nodup
import Mathlib.Logic.Relation
import Mathlib.Order.Lattice

/-!
# Admitted at most once

A memory of what has been admitted, under a clock. An item is admitted before its last
instant while nothing with its key is remembered, and may be forgotten after it.
-/
namespace SeenOnce

variable {α κ τ : Type} [LinearOrder τ]

structure Memory (α τ : Type) where
  now : τ
  kept : List α
  admitted : List α

inductive Step (key : α → κ) (last : α → τ) : Memory α τ → Memory α τ → Prop where
  | pass (m : Memory α τ) (now : τ) : m.now ≤ now → Step key last m { m with now := now }
  | enter (m : Memory α τ) (x : α) : (∀ y ∈ m.kept, key y ≠ key x) → (∀ y ∈ m.admitted, key y = key x → y = x) →
      m.now < last x →
      Step key last m { m with kept := m.kept ++ [x], admitted := m.admitted ++ [x] }
  | forget (m : Memory α τ) (rest : List α) : rest.Sublist m.kept → (∀ x ∈ m.kept, x ∉ rest → last x ≤ m.now) →
      Step key last m { m with kept := rest }

def Steps (key : α → κ) (last : α → τ) : Memory α τ → Memory α τ → Prop := Relation.ReflTransGen (Step key last)

/-- What has been admitted is remembered or past its last instant, and its key was admitted once. -/
structure Sound (key : α → κ) (last : α → τ) (m : Memory α τ) : Prop where
  remembered : ∀ x ∈ m.admitted, x ∈ m.kept ∨ last x ≤ m.now
  once : (m.admitted.map key).Nodup

variable {key : α → κ} {last : α → τ} {m m' : Memory α τ}

theorem Sound.step (h : Sound key last m) (hs : Step key last m m') : Sound key last m' := by
  cases hs with
  | pass now hnow => exact ⟨fun x hx => (h.remembered x hx).imp_right (le_trans · hnow), h.once⟩
  | enter x hfree hone hopen =>
    have hnew : key x ∉ m.admitted.map key := by
      intro hx
      obtain ⟨y, hy, hkey⟩ := List.mem_map.mp hx
      obtain rfl := hone y hy hkey
      obtain hkept | hlast := h.remembered y hy
      · exact hfree y hkept rfl
      · exact absurd hopen (not_lt_of_ge hlast)
    refine ⟨fun y hy => ?_, ?_⟩
    · obtain hy | hy := List.mem_append.mp hy
      · exact (h.remembered y hy).imp_left (List.mem_append_left [x])
      · exact .inl (List.mem_append_right _ hy)
    · rw [List.map_append]
      exact h.once.append (List.nodup_singleton _) (by simpa using hnew)
  | forget rest _ hpast =>
    refine ⟨fun x hx => ?_, h.once⟩
    obtain hkept | hlast := h.remembered x hx
    · by_cases hrest : x ∈ rest
      · exact .inl hrest
      · exact .inr (hpast x hkept hrest)
    · exact .inr hlast

/-- Over any steps, what was seen is remembered while it can recur. -/
theorem Sound.steps (h : Sound key last m) (hs : Steps key last m m') : Sound key last m' := by
  induction hs with
  | refl => exact h
  | tail _ hstep ih => exact ih.step hstep

/-- From an empty memory, no key is ever admitted twice. -/
theorem Steps.nodup (hs : Steps key last m m') (hnone : m.admitted = []) : (m'.admitted.map key).Nodup := by
  have hsound : Sound key last m := ⟨by simp [hnone], by simp [hnone]⟩
  exact (hsound.steps hs).once

end SeenOnce
