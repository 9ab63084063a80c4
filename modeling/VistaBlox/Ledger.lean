import Mathlib.Data.List.Range

/-!
# Ledgers of changes

A ledger is complete when its numbers have no gap and its changes are the ones that
happened, in their order; they then lead from the first state to the last.
-/
namespace Ledger

variable {ε σ : Type}

section Chains

/-- Every change starts where the one before it ended. -/
inductive Leads (s : σ) : List (σ × σ) → σ → Prop where
  | nil : Leads s [] s
  | snoc {changes : List (σ × σ)} {a b : σ} (h : Leads s changes a) : Leads s (changes ++ [(a, b)]) b

theorem leads_concat (h : Leads s (changes ++ [(a, b)]) e) : e = b ∧ Leads s changes a := by
  generalize hall : changes ++ [(a, b)] = all at h
  cases h with
  | nil => simp at hall
  | snoc h =>
    obtain ⟨rfl, hlast⟩ := List.append_inj' hall rfl
    cases hlast
    exact ⟨rfl, h⟩

/-- What has changed between two looks at a state. -/
def change [DecidableEq σ] (s s' : σ) : List (σ × σ) := if s = s' then [] else [(s, s')]

variable [DecidableEq σ]

@[simp] theorem change_self (s : σ) : change s s = [] := if_pos rfl

variable {s s' : σ}

theorem change_of_ne (h : s ≠ s') : change s s' = [(s, s')] := if_neg h

theorem mem_change (h : c ∈ change s s') : c = (s, s') ∧ s ≠ s' := by
  unfold change at h
  split at h
  · cases h
  · rename_i hne
    exact ⟨List.mem_singleton.mp h, hne⟩

theorem Leads.change (h : Leads s changes a) : Leads s (changes ++ change a b) b := by
  by_cases hab : a = b
  · subst hab
    simpa using h
  · rw [change_of_ne hab]
    exact .snoc h

end Chains

section Entries

variable (number : ε → Nat) (transition : ε → Option (σ × σ))

/-- The ledger has gone on from number `n` to number `n'`, and its new entries tell the changes. -/
def Continues (entries : List ε) (n : Nat) (entries' : List ε) (n' : Nat) (changes : List (σ × σ)) : Prop :=
  ∃ new, entries' = entries ++ new ∧ new.map number = List.range' (n + 1) new.length ∧ n' = n + new.length ∧
    new.filterMap transition = changes

variable {number transition} {entries entries' entries'' : List ε} {n n' n'' : Nat} {changes changes' : List (σ × σ)}

theorem Continues.refl : Continues number transition entries n entries n [] := ⟨[], by simp⟩

theorem Continues.single (hnumber : number e = n + 1) :
    Continues number transition entries n (entries ++ [e]) (n + 1) (transition e).toList := by
  refine ⟨[e], rfl, by simp [hnumber], rfl, ?_⟩
  cases h : transition e <;> simp [h]

theorem Continues.trans (h : Continues number transition entries n entries' n' changes)
    (h' : Continues number transition entries' n' entries'' n'' changes') :
    Continues number transition entries n entries'' n'' (changes ++ changes') := by
  obtain ⟨new, rfl, hnumbers, rfl, rfl⟩ := h
  obtain ⟨new', rfl, hnumbers', rfl, rfl⟩ := h'
  refine ⟨new ++ new', by rw [List.append_assoc], ?_, ?_, List.filterMap_append⟩
  · rw [List.map_append, hnumbers, hnumbers', List.length_append, ← List.range'_append_1]
    congr 2
    omega
  · rw [List.length_append]
    omega

/-- A ledger that began empty. -/
theorem Continues.complete (h : Continues number transition [] 0 entries n changes) :
    entries.map number = List.range' 1 n ∧ entries.filterMap transition = changes := by
  obtain ⟨new, rfl, hnumbers, rfl, rfl⟩ := h
  rw [hnumbers, Nat.zero_add, Nat.zero_add]
  exact ⟨rfl, rfl⟩

end Entries

end Ledger
