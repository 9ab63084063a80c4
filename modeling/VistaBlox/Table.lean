import Mathlib.Algebra.Order.BigOperators.Group.List
import Mathlib.Algebra.Order.Ring.Nat
import Mathlib.Data.List.Nodup

/-!
# Tables of keyed rows

A table is the list of its rows, each with a key. Rows are added at the end,
found by key and rewritten in place; a filtered sum over a table is a `tally`.
Nothing here mentions what the rows are.
-/
namespace Table

open List

variable {α κ : Type} (key : α → κ)

/-- No two rows have the same key. -/
def Keyed (rows : List α) : Prop := (rows.map key).Nodup

variable {rows : List α} {x : α}

theorem mem_add (h : x ∈ rows ++ [y]) : x ∈ rows ∨ x = y := by
  rwa [mem_append, mem_singleton] at h

theorem Keyed.eq_of_key {key : α → κ} (h : Keyed key rows) {y : α} (hx : x ∈ rows) (hy : y ∈ rows)
    (hk : key x = key y) : x = y := inj_on_of_nodup_map h hx hy hk

variable {g : α → α}

theorem Keyed.map {key : α → κ} (h : Keyed key rows) (hg : ∀ x ∈ rows, key (g x) = key x) :
    Keyed key (rows.map g) := by
  have hkeys : (rows.map g).map key = rows.map key := by
    rw [List.map_map]
    exact map_congr_left hg
  unfold Keyed
  rw [hkeys]
  exact h

theorem Keyed.sublist {key : α → κ} {rows' : List α} (h : Keyed key rows)
    (hsub : (rows'.map key).Sublist (rows.map key)) : Keyed key rows' := List.Nodup.sublist hsub h

variable [DecidableEq κ]

def find (rows : List α) (k : κ) : Option α := rows.find? fun x => key x = k

/-- Rewrite the rows with a given key. -/
def update (rows : List α) (k : κ) (f : α → α) : List α := rows.map fun x => if key x = k then f x else x

variable {key}

variable {k : κ}

theorem find_some (h : find key rows k = some x) : x ∈ rows ∧ key x = k :=
  ⟨mem_of_find?_eq_some h, by simpa using find?_some h⟩

theorem find_none (h : find key rows k = none) : ∀ x ∈ rows, key x ≠ k := by
  simpa [find] using h

theorem Keyed.find (h : Keyed key rows) (hx : x ∈ rows) : find key rows (key x) = some x := by
  cases hf : Table.find key rows (key x) with
  | none => exact absurd rfl (find_none hf x hx)
  | some =>
    obtain ⟨hy, hk⟩ := find_some hf
    rw [h.eq_of_key hy hx hk]

theorem Keyed.filter (h : Keyed key rows) (hx : x ∈ rows) : rows.filter (fun y => key y = key x) = [x] := by
  induction rows with
  | nil => cases hx
  | cons y rows ih =>
    obtain ⟨hy, hrest⟩ := nodup_cons.mp h
    rcases mem_cons.mp hx with rfl | hx
    · have hnone : rows.filter (fun z => key z = key x) = [] :=
        filter_eq_nil_iff.mpr fun z hz hk => hy (of_decide_eq_true hk ▸ List.mem_map_of_mem hz)
      rw [filter_cons_of_pos (by simp), hnone]
    · have hne : key y ≠ key x := fun hk => hy (hk ▸ List.mem_map_of_mem hx)
      rw [filter_cons_of_neg (by simpa using hne), ih hrest hx]

theorem Keyed.append (h : Keyed key rows) (hx : Table.find key rows (key x) = none) : Keyed key (rows ++ [x]) := by
  unfold Keyed
  rw [map_append, nodup_append]
  refine ⟨h, by simp, ?_⟩
  rintro k hk k' hk' rfl
  obtain ⟨y, hy, rfl⟩ := List.mem_map.mp hk
  exact find_none hx y hy (by simpa using hk')

theorem find_map (hg : ∀ x, key (g x) = key x) (k : κ) : find key (rows.map g) k = (find key rows k).map g := by
  simp only [find, find?_map, Function.comp_def, hg]

/-- A rewrite of the rows with one key does not show under another. -/
theorem find_update_ne (hf : ∀ x, key (f x) = key x) (hk : k' ≠ k) :
    find key (update key rows k f) k' = find key rows k' := by
  have hkeep : ∀ x, key (if key x = k then f x else x) = key x := by
    intro x
    split
    · exact hf x
    · rfl
  rw [update, find_map hkeep]
  cases hfind : find key rows k' with
  | none => rfl
  | some => simp [(find_some hfind).2, hk]

variable {h : α → α → α}

/-- A loop that rewrites one picked row after another rewrites each picked row once. -/
theorem foldl_rewrite (hkey : ∀ row x, key (h row x) = key x) (hpicked : Keyed key picked)
    (hsame : ∀ p ∈ picked, ∀ x ∈ rows, key x = key p → x = p) :
    picked.foldl (fun rows p => update key rows (key p) (h p)) rows =
      rows.map fun x => if key x ∈ picked.map key then h x x else x := by
  induction picked generalizing rows with
  | nil => simp
  | cons p picked ih =>
    obtain ⟨hp, hrest⟩ := nodup_cons.mp hpicked
    have hsame' : ∀ q ∈ picked, ∀ x ∈ update key rows (key p) (h p), key x = key q → x = q := by
      intro q hq x hx hk
      obtain ⟨y, hy, rfl⟩ := List.mem_map.mp hx
      by_cases hyp : key y = key p
      · simp only [hyp, if_true, hkey] at hk
        exact absurd (List.mem_map.mpr ⟨q, hq, hk.symm⟩) hp
      · simp only [hyp, if_false] at hk ⊢
        exact hsame q (mem_cons_of_mem p hq) y hy hk
    rw [foldl_cons, ih hrest hsame', update, List.map_map]
    refine map_congr_left fun x hx => ?_
    by_cases hxp : key x = key p
    · obtain rfl := hsame p (mem_cons_self ..) x hx hxp
      simp only [Function.comp_apply, if_true, hkey, hp, if_false, map_cons, mem_cons, true_or]
    · simp [hxp]

/-- The same when the loop runs over a selection of the table's own rows. -/
theorem foldl_rewrite_filter (hkey : ∀ row x, key (h row x) = key x) (p : α → Bool) (hrows : Keyed key rows) :
    (rows.filter p).foldl (fun rows r => update key rows (key r) (h r)) rows =
      rows.map fun x => if p x then h x x else x := by
  have hpicked : Keyed key (rows.filter p) := hrows.sublist (filter_sublist.map key)
  have hsame : ∀ r ∈ rows.filter p, ∀ x ∈ rows, key x = key r → x = r :=
    fun r hr x hx hk => hrows.eq_of_key hx (mem_of_mem_filter hr) hk
  rw [foldl_rewrite hkey hpicked hsame]
  refine map_congr_left fun x hx => ?_
  have hmem : key x ∈ (rows.filter p).map key ↔ p x = true := by
    rw [List.mem_map]
    constructor
    · rintro ⟨r, hr, hk⟩
      obtain rfl := hsame r hr x hx hk.symm
      exact (mem_filter.mp hr).2
    · exact fun hp => ⟨x, mem_filter.mpr ⟨hx, hp⟩, rfl⟩
  simp only [hmem]

variable {β σ : Type}

/-- A loop whose rounds leave something alone leaves it alone. -/
theorem foldl_keeps {τ : Type} (φ : σ → τ) {step : σ → β → σ} {bs : List β}
    (hstep : ∀ b ∈ bs, ∀ s, φ (step s b) = φ s) : ∀ s, φ (bs.foldl step s) = φ s := by
  induction bs with
  | nil => exact fun _ => rfl
  | cons b bs ih =>
    intro s
    rw [foldl_cons, ih fun b' hb' => hstep b' (mem_cons_of_mem b hb'), hstep b (mem_cons_self ..)]

/-- A loop whose rounds only add to a log. -/
theorem foldl_appends {ε : Type} (log : σ → List ε) {step : σ → β → σ} {P : β → ε → Prop}
    (hstep : ∀ s b, ∃ added, log (step s b) = log s ++ added ∧ ∀ e ∈ added, P b e) (bs : List β) :
    ∀ s, ∃ added, log (bs.foldl step s) = log s ++ added ∧ ∀ e ∈ added, ∃ b ∈ bs, P b e := by
  induction bs with
  | nil => exact fun s => ⟨[], by simp, by simp⟩
  | cons b bs ih =>
    intro s
    obtain ⟨first, hfirst, hP⟩ := hstep s b
    obtain ⟨rest, hrest, hPs⟩ := ih (step s b)
    refine ⟨first ++ rest, by rw [foldl_cons, hrest, hfirst, append_assoc], fun e he => ?_⟩
    rcases mem_append.mp he with h | h
    · exact ⟨b, mem_cons_self .., hP e h⟩
    · obtain ⟨b', hb', hPb⟩ := hPs e h
      exact ⟨b', mem_cons_of_mem b hb', hPb⟩

/-- The sum of a column over the rows that pass a test. -/
def tally (test : α → Bool) (column : α → Nat) (rows : List α) : Nat := ((rows.filter test).map column).sum

section Tally

variable {test test' : α → Bool} {column : α → Nat}

theorem tally_cons (x : α) :
    tally test column (x :: rows) = (if test x then column x else 0) + tally test column rows := by
  unfold tally
  by_cases h : test x = true <;> simp [h]

theorem tally_append (x : α) :
    tally test column (rows ++ [x]) = tally test column rows + if test x then column x else 0 := by
  unfold tally
  by_cases h : test x = true <;> simp [filter_append, h]

theorem tally_map (g : α → α) :
    tally test column (rows.map g) = tally (fun x => test (g x)) (fun x => column (g x)) rows := by
  simp only [tally, List.filter_map, List.map_map, Function.comp_def]

theorem tally_congr (h : ∀ x ∈ rows, test x = test' x) (hc : ∀ x ∈ rows, test x = true → column x = column' x) :
    tally test column rows = tally test' column' rows := by
  unfold tally
  rw [← filter_congr h]
  refine congrArg List.sum (map_congr_left fun x hx => ?_)
  obtain ⟨hmem, htest⟩ := mem_filter.mp hx
  exact hc x hmem htest

theorem tally_mono (h : ∀ x ∈ rows, test x = true → test' x = true) :
    tally test column rows ≤ tally test' column rows := by
  induction rows with
  | nil => exact le_rfl
  | cons x rows ih =>
    rw [tally_cons, tally_cons]
    have hrest := ih fun y hy => h y (mem_cons_of_mem x hy)
    have hx := h x (mem_cons_self ..)
    by_cases ht : test x = true
    · simp only [ht, hx ht, if_true]
      omega
    · simp only [ht, Bool.false_eq_true, if_false]
      omega

/-- What passes a test splits into what passes a second one too and what does not. -/
theorem tally_split (test test' : α → Bool) (column : α → Nat) (rows : List α) :
    tally (fun x => test x && test' x) column rows + tally (fun x => test x && !test' x) column rows =
      tally test column rows := by
  induction rows with
  | nil => rfl
  | cons x rows ih =>
    rw [tally_cons, tally_cons, tally_cons, ← ih]
    cases test x <;> cases test' x <;> simp <;> omega

theorem tally_eq_zero (hpos : ∀ x ∈ rows, test x = true → 0 < column x) (h : tally test column rows = 0) :
    ∀ x ∈ rows, test x = false := by
  intro x hx
  by_contra ht
  have hmem : column x ∈ (rows.filter test).map column :=
    List.mem_map.mpr ⟨x, mem_filter.mpr ⟨hx, by simpa using ht⟩, rfl⟩
  have hle := single_le_sum (fun _ _ => Nat.zero_le _) _ hmem
  have := hpos x hx (by simpa using ht)
  unfold tally at h
  omega

theorem tally_of_none (h : ∀ x ∈ rows, test x = false) : tally test column rows = 0 := by
  unfold tally
  rw [filter_eq_nil_iff.mpr fun x hx => by simp [h x hx]]
  rfl

end Tally

end Table
