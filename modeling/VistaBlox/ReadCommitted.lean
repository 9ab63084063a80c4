import Mathlib.Logic.Function.Basic
import Mathlib.Tactic.SplitIfs

/-!
# Sessions under READ COMMITTED

A session's writes stay with it until it commits; a statement sees what is committed when it
runs, under the session's own writes; and a row is locked by the session that writes it
until that ends.
-/
namespace ReadCommitted

/-- What is committed, who holds the lock of each row, and what each session
has written so far. -/
structure Store (Row Write DB : Type) where
  committed : DB
  holder : Row → Option Nat
  pending : Nat → List Write

variable {Row Write DB Content : Type}

namespace Store

/-- What a statement of a session sees. -/
def view (apply : DB → Write → DB) (s : Store Row Write DB) (t : Nat) : DB := (s.pending t).foldl apply s.committed

/-- Take the lock of a row. A row that another session holds has to be waited for. -/
def lock [DecidableEq Row] (s : Store Row Write DB) (t : Nat) (row : Row) : Option (Store Row Write DB) :=
  if s.holder row = none ∨ s.holder row = some t then
    some { s with holder := Function.update s.holder row (some t) }
  else none

def write (s : Store Row Write DB) (t : Nat) (x : Write) : Store Row Write DB :=
  { s with pending := Function.update s.pending t (s.pending t ++ [x]) }

def rollback (s : Store Row Write DB) (t : Nat) : Store Row Write DB :=
  { s with
    holder := fun row => if s.holder row = some t then none else s.holder row
    pending := Function.update s.pending t [] }

def commit (apply : DB → Write → DB) (s : Store Row Write DB) (t : Nat) : Store Row Write DB :=
  { s.rollback t with committed := s.view apply t }

end Store

variable {apply : DB → Write → DB} {content : DB → Row → Content} {s s' : Store Row Write DB} {t u : Nat}

/-- Nothing that belongs to a session has changed: not its writes, not its
locks, and not the rows it has locked. -/
structure Undisturbed (content : DB → Row → Content) (u : Nat) (s s' : Store Row Write DB) : Prop where
  pending : s'.pending u = s.pending u
  holder : ∀ row, s'.holder row = some u ↔ s.holder row = some u
  content : ∀ row, s.holder row = some u → content s'.committed row = content s.committed row

theorem Undisturbed.refl (content : DB → Row → Content) (u : Nat) (s : Store Row Write DB) :
    Undisturbed content u s s := ⟨rfl, fun _ => Iff.rfl, fun _ _ => rfl⟩

theorem Undisturbed.trans (h : Undisturbed content u s₁ s₂)
    (h' : Undisturbed content u s₂ s₃) : Undisturbed content u s₁ s₃ :=
  ⟨h'.pending.trans h.pending, fun row => (h'.holder row).trans (h.holder row),
    fun row hrow => (h'.content row ((h.holder row).mpr hrow)).trans (h.content row hrow)⟩

theorem write_undisturbed (x : Write) (hu : u ≠ t) : Undisturbed content u s (s.write t x) :=
  ⟨by simp [Store.write, hu], fun _ => Iff.rfl, fun _ _ => rfl⟩

theorem rollback_holder (hu : u ≠ t) (row : Row) : (s.rollback t).holder row = some u ↔ s.holder row = some u := by
  by_cases hrow : s.holder row = some t
  · simp [Store.rollback, hrow, hu.symm]
  · simp [Store.rollback, hrow]

theorem rollback_undisturbed (hu : u ≠ t) : Undisturbed content u s (s.rollback t) :=
  ⟨by simp [Store.rollback, hu], rollback_holder hu, fun _ _ => rfl⟩

/-- A commit disturbs nobody if it changes only rows its session has locked. -/
theorem commit_undisturbed (hu : u ≠ t)
    (hframe : ∀ row, s.holder row ≠ some t → content (s.view apply t) row = content s.committed row) :
    Undisturbed content u s (s.commit apply t) where
  pending := by simp [Store.commit, Store.rollback, hu]
  holder := rollback_holder hu
  content row hrow := hframe row (by simp [hrow, hu])

section Locks

variable [DecidableEq Row] {row : Row}

theorem lock_eq (h : s.lock t row = some s') : s' = { s with holder := Function.update s.holder row (some t) } := by
  unfold Store.lock at h
  split_ifs at h
  exact (Option.some.inj h).symm

theorem lock_held (h : s.lock t row = some s') (hrow : row' = row ∨ s.holder row' = some t) :
    s'.holder row' = some t := by
  rw [lock_eq h]
  by_cases heq : row' = row
  · simp [heq]
  · simpa [heq] using hrow

theorem lock_undisturbed (h : s.lock t row = some s') (hu : u ≠ t) : Undisturbed content u s s' := by
  have hfree : s.holder row = none ∨ s.holder row = some t := by
    unfold Store.lock at h
    split_ifs at h with hfree
    exact hfree
  rw [lock_eq h]
  refine ⟨rfl, fun row' => ?_, fun _ _ => rfl⟩
  by_cases heq : row' = row
  · subst heq
    rcases hfree with hfree | hfree <;> simp [hfree, hu.symm]
  · simp [heq]

end Locks

end ReadCommitted
