import Mathlib.Algebra.Order.BigOperators.Group.List
import Mathlib.Algebra.Order.Ring.Nat

/-!
# Dividing an amount pro rata

An amount is divided over weights in two roundings: down to a rate for one unit of weight,
in parts of a scale, and down to what each weight gets at that rate.
-/
namespace ProRata

/-- What one unit of weight gets, in parts of the scale. -/
def rate (scale amount total : Nat) : Nat := amount * scale / total

/-- What a weight gets at a rate. -/
def share (scale r weight : Nat) : Nat := weight * r / scale

variable {scale amount r : Nat} {weights : List Nat}

theorem share_mono (h : v ≤ w) : share scale r v ≤ share scale r w :=
  Nat.div_le_div_right (Nat.mul_le_mul_right r h)

/-- Together the shares are at most what the total weight gets. -/
theorem sum_share_mul_le : (weights.map (share scale r)).sum * scale ≤ weights.sum * r := by
  induction weights with
  | nil => simp
  | cons w =>
    have hw : share scale r w * scale ≤ w * r := Nat.div_mul_le_self ..
    rw [List.map_cons, List.sum_cons, List.sum_cons, Nat.add_mul, Nat.add_mul]
    omega

/-- Each share is short of its exact value by less than one. -/
theorem mul_add_length_le (hscale : 0 < scale) (weights : List Nat) :
    weights.sum * r + weights.length ≤ ((weights.map (share scale r)).sum + weights.length) * scale := by
  induction weights with
  | nil => simp
  | cons w weights ih =>
    have hw : w * r < scale * (share scale r w + 1) := Nat.lt_mul_div_succ (w * r) hscale
    rw [List.map_cons, List.sum_cons, List.sum_cons, List.length_cons, Nat.add_mul, Nat.add_mul, Nat.add_mul]
    rw [Nat.add_mul] at ih
    rw [Nat.mul_add, Nat.mul_comm scale] at hw
    rw [Nat.add_mul]
    omega

/-- No more is given out than there is, to all of the weights or to some. -/
theorem sum_share_le (hscale : 0 < scale) {paid : List Nat} (h : paid.Sublist weights) :
    (paid.map (share scale (rate scale amount weights.sum))).sum ≤ amount := by
  have hpaid : (paid.map (share scale (rate scale amount weights.sum))).sum * scale ≤ amount * scale :=
    calc (paid.map (share scale (rate scale amount weights.sum))).sum * scale
      _ ≤ paid.sum * rate scale amount weights.sum := sum_share_mul_le
      _ ≤ weights.sum * rate scale amount weights.sum := Nat.mul_le_mul_right _ (h.sum_le_sum fun _ _ => Nat.zero_le _)
      _ ≤ amount * scale := Nat.mul_div_le ..
  exact Nat.le_of_mul_le_mul_right hpaid hscale

/-- What is left over, when all of the weights are paid: less than one part of
the scale for each unit of weight and one for each share. -/
theorem remainder_lt (amount : Nat) (hscale : 0 < scale) (htotal : 0 < weights.sum) :
    (amount - (weights.map (share scale (rate scale amount weights.sum))).sum) * scale <
      weights.sum + weights.length * scale := by
  have hrate : amount * scale < weights.sum * (rate scale amount weights.sum + 1) := Nat.lt_mul_div_succ _ htotal
  have hshares := mul_add_length_le (r := rate scale amount weights.sum) hscale weights
  rw [Nat.mul_add, Nat.mul_one] at hrate
  rw [Nat.add_mul] at hshares
  rw [Nat.sub_mul]
  omega

end ProRata
