import Mathlib.Algebra.BigOperators.Group.List.Basic
import Mathlib.Algebra.Order.BigOperators.Group.List
import Mathlib.Algebra.Order.Ring.Int
import Mathlib.Tactic.Common

/-! Splitting an amount in proportion to weights, with every part rounded down. -/

namespace ProRata

variable {total : Nat} {amount : Int}

def part (total : Nat) (amount : Int) (weight : Nat) : Int := amount * weight / total

/-- What rounding a part down leaves out, counted in fractions of the total weight. -/
def remainder (total : Nat) (amount : Int) (weight : Nat) : Int := amount * weight % total

private theorem sum_part_add_sum_remainder (total : Nat) (amount : Int) (weights : List Nat) :
    total * (weights.map (part total amount)).sum + (weights.map (remainder total amount)).sum =
      amount * weights.sum := by
  -- Each weight is divided with its remainder, and the sums add up weight by weight.
  induction weights with
  | nil => simp
  | cons weight rest ih =>
    have divided : total * part total amount weight + remainder total amount weight =
        amount * weight := Int.mul_ediv_add_emod _ _
    simp only [List.map_cons, List.sum_cons, Nat.cast_add, Int.mul_add]
    omega

private theorem sum_remainder_bounds (positive : 0 < total) (amount : Int) (weights : List Nat) :
    0 ≤ (weights.map (remainder total amount)).sum ∧
      (weights.map (remainder total amount)).sum ≤ weights.length * (total - 1 : Int) := by
  induction weights with
  | nil => simp
  | cons weight rest ih =>
    have least : 0 ≤ remainder total amount weight := Int.emod_nonneg _ (by omega)
    have most : remainder total amount weight < total := Int.emod_lt_of_pos _ (by omega)
    simp only [List.map_cons, List.sum_cons, List.length_cons, Nat.cast_add, Nat.cast_one,
      Int.add_mul, Int.one_mul]
    omega

theorem sum_part_bounds {weights : List Nat} (positive : 0 < weights.sum) (amount : Int) :
    0 ≤ amount - (weights.map (part weights.sum amount)).sum ∧
      amount - (weights.map (part weights.sum amount)).sum < weights.length := by
  have whole := sum_part_add_sum_remainder weights.sum amount weights
  obtain ⟨least, most⟩ := sum_remainder_bounds positive amount weights
  have scale : (0 : Int) < weights.sum := by omega
  -- The total weight times what is left of the amount is what the parts leave out.
  have left : weights.sum * (amount - (weights.map (part weights.sum amount)).sum) =
      (weights.map (remainder weights.sum amount)).sum := by
    rw [Int.mul_sub, Int.mul_comm _ amount]
    omega
  constructor
  · exact nonneg_of_mul_nonneg_right (left ▸ least) scale
  · -- An empty list has no weight, so the bound on what is left out is strict.
    have nonempty : 0 < (weights.length : Int) := by
      cases weights with
      | nil => exact absurd positive (Nat.lt_irrefl 0)
      | cons => simp
    refine lt_of_mul_lt_mul_left ?_ scale.le
    rw [left, Int.mul_comm _ (weights.length : Int)]
    rw [Int.mul_sub] at most
    omega

private theorem part_add (positive : 0 < total) (first second : Int) (weight : Nat) :
    part total first weight + part total second weight ≤ part total (first + second) weight ∧
      part total (first + second) weight ≤
        part total first weight + part total second weight + 1 := by
  have scale : (0 : Int) < total := by omega
  -- The two remainders together hold the total weight once at most.
  have carry : part total (first + second) weight = part total first weight +
      part total second weight +
      (remainder total first weight + remainder total second weight) / total := by
    have one : total * part total first weight + remainder total first weight =
      first * weight := Int.mul_ediv_add_emod _ _
    have two : total * part total second weight + remainder total second weight =
      second * weight := Int.mul_ediv_add_emod _ _
    have both : (first + second) * weight = remainder total first weight +
        remainder total second weight +
        total * (part total first weight + part total second weight) := by
      rw [Int.add_mul, Int.mul_add]
      omega
    rw [part, both, Int.add_mul_ediv_left _ _ scale.ne', Int.add_comm]
  have least : 0 ≤ (remainder total first weight + remainder total second weight) / total :=
    Int.ediv_nonneg (Int.add_nonneg (Int.emod_nonneg _ scale.ne') (Int.emod_nonneg _ scale.ne'))
      scale.le
  have most : (remainder total first weight + remainder total second weight) / total < 2 := by
    refine Int.ediv_lt_of_lt_mul scale ?_
    have one : remainder total first weight < total := Int.emod_lt_of_pos _ scale
    have two : remainder total second weight < total := Int.emod_lt_of_pos _ scale
    omega
  omega

/-- Parts of several amounts fall short of the part of their sum by less than one for each. -/
theorem part_sum (positive : 0 < total) (weight : Nat) {amounts : List Int}
    (nonempty : amounts ≠ []) :
    (amounts.map fun amount => part total amount weight).sum ≤ part total amounts.sum weight ∧
      part total amounts.sum weight ≤
        (amounts.map fun amount => part total amount weight).sum + (amounts.length - 1) := by
  -- The first amount loses nothing on its own, and each further one loses one at most.
  induction amounts with
  | nil => exact absurd rfl nonempty
  | cons first rest ih =>
    cases rest with
    | nil => simp
    | cons second others =>
      obtain ⟨least, most⟩ := ih (List.cons_ne_nil _ _)
      obtain ⟨low, high⟩ := part_add positive first (second :: others).sum weight
      rw [List.map_cons, List.sum_cons, List.sum_cons, List.length_cons, Nat.cast_add,
        Nat.cast_one]
      omega

end ProRata
