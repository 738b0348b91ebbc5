import Mathlib.Algebra.Order.Group.Int
import Mathlib.Algebra.Order.BigOperators.Group.List
import Mathlib.Algebra.Ring.Int.Defs
import Mathlib.Tactic.Common

/-! The host's fixed-width integers: checked, saturating and truncating arithmetic. -/

namespace Soroban

/-- The largest signed 128-bit value. -/
def i128Max : Int := 2 ^ 127 - 1

/-- The smallest signed 128-bit value. -/
def i128Min : Int := -(2 ^ 127)

/-- The largest unsigned 32-bit value. -/
def u32Max : Nat := 2 ^ 32 - 1

/-- The largest unsigned 64-bit value. -/
def u64Max : Nat := 2 ^ 64 - 1

/-- A signed 128-bit result, or nothing when the exact result does not fit. -/
def narrow (exact : Int) : Option Int :=
  if i128Min ≤ exact ∧ exact ≤ i128Max then some exact else none

/-- Signed addition that reports overflow. -/
def checkedAdd (left right : Int) : Option Int := narrow (left + right)

/-- Signed subtraction that reports overflow. -/
def checkedSub (left right : Int) : Option Int := narrow (left - right)

/-- Signed multiplication that reports overflow. -/
def checkedMul (left right : Int) : Option Int := narrow (left * right)

/-- Unsigned increment below a limit that reports overflow. -/
def checkedSucc (limit count : Nat) : Option Nat :=
  if count < limit then some (count + 1) else none

/-- Unsigned addition below a limit that reports overflow. -/
def checkedAddNat (limit left right : Nat) : Option Nat :=
  if left + right ≤ limit then some (left + right) else none

/-- Unsigned addition that stops at the limit of its type. -/
def saturatingAdd (limit left right : Nat) : Nat := min (left + right) limit

/-- The low 64 bits of an integer, which is what a narrowing cast keeps. -/
def asU64 (value : Int) : Nat := (value % (u64Max + 1)).toNat

/-- An unsigned number with its 64 bits read as a signed one. -/
def asI64 (value : Nat) : Int := Int.bmod value (u64Max + 1)

theorem narrow_eq_some {exact result : Int} :
    narrow exact = some result ↔ result = exact ∧ i128Min ≤ exact ∧ exact ≤ i128Max := by
  unfold narrow
  split
  · rename_i fits
    simp only [Option.some.injEq]
    exact ⟨fun same => ⟨same.symm, fits⟩, fun same => same.1.symm⟩
  · rename_i overflow
    simp only [reduceCtorEq, false_iff]
    exact fun same => overflow same.2

/-- Checked addition returns the exact sum when it fits. -/
@[simp] theorem checkedAdd_eq_some {left right result : Int} :
    checkedAdd left right = some result ↔
      result = left + right ∧ i128Min ≤ left + right ∧ left + right ≤ i128Max :=
  narrow_eq_some

/-- Checked subtraction returns the exact difference when it fits. -/
@[simp] theorem checkedSub_eq_some {left right result : Int} :
    checkedSub left right = some result ↔
      result = left - right ∧ i128Min ≤ left - right ∧ left - right ≤ i128Max :=
  narrow_eq_some

/-- Checked multiplication returns the exact product when it fits. -/
@[simp] theorem checkedMul_eq_some {left right result : Int} :
    checkedMul left right = some result ↔
      result = left * right ∧ i128Min ≤ left * right ∧ left * right ≤ i128Max :=
  narrow_eq_some

@[simp] theorem checkedSucc_eq_some {limit count result : Nat} :
    checkedSucc limit count = some result ↔ result = count + 1 ∧ count < limit := by
  unfold checkedSucc
  split
  · rename_i room
    simp only [Option.some.injEq]
    exact ⟨fun same => ⟨same.symm, room⟩, fun same => same.1.symm⟩
  · rename_i full
    simp only [reduceCtorEq, false_iff]
    exact fun same => full same.2

/-- Checked unsigned addition returns the exact sum when it fits. -/
@[simp] theorem checkedAddNat_eq_some {limit left right result : Nat} :
    checkedAddNat limit left right = some result ↔
      result = left + right ∧ left + right ≤ limit := by
  unfold checkedAddNat
  split
  · rename_i fits
    simp only [Option.some.injEq]
    exact ⟨fun same => ⟨same.symm, fits⟩, fun same => same.1.symm⟩
  · rename_i overflow
    simp only [reduceCtorEq, false_iff]
    exact fun same => overflow same.2

theorem asU64_eq {value : Nat} (fits : value ≤ u64Max) : asU64 value = value := by
  rw [asU64, Int.emod_eq_of_lt (Int.natCast_nonneg value) (by omega), Int.toNat_natCast]

/-- A number below half the range stays the same as a signed one. -/
theorem asI64_eq {value : Nat} (small : value < 2 ^ 63) : asI64 value = value := by
  have range : u64Max + 1 = 2 ^ 64 := by decide
  rw [asI64, range, Int.bmod_eq_of_le] <;> omega

/-- Zero lies strictly inside the signed 128-bit range. -/
theorem i128_signs : i128Min < 0 ∧ 0 < i128Max := by decide

/--
A running total that is checked at every step ends as if it was only checked at the end.

That needs amounts that are not negative, so that the total never comes back into its range.
-/
theorem foldlM_narrow {α : Type} {add : Int → α → Option Int} {weight : α → Int} {items : List α}
    (adds : ∀ total item, 0 ≤ total → total ≤ i128Max →
      add total item = narrow (total + weight item)) (nonneg : ∀ item ∈ items, 0 ≤ weight item)
    {total : Int} (started : 0 ≤ total) (fits : total ≤ i128Max) :
    items.foldlM add total = narrow (total + (items.map weight).sum) := by
  have signs := i128_signs
  induction items generalizing total with
  | nil => simp [narrow, fits, (by omega : i128Min ≤ total)]
  | cons item rest ih =>
    obtain ⟨here, later⟩ := List.forall_mem_cons.mp nonneg
    have remaining : 0 ≤ (rest.map weight).sum := by
      apply List.sum_nonneg
      simpa using later
    rw [List.foldlM_cons, adds total item started fits, List.map_cons, List.sum_cons, ← add_assoc]
    by_cases inside : total + weight item ≤ i128Max
    · have whole : narrow (total + weight item) = some (total + weight item) :=
        if_pos ⟨by omega, inside⟩
      rw [whole]
      exact ih later (by omega) inside
    · -- Once the total has left its range, it stays outside.
      have overflow : narrow (total + weight item) = none := if_neg (by omega)
      rw [overflow]
      exact (if_neg (by omega)).symm

/-- A saturated sum never exceeds the exact sum. -/
theorem saturatingAdd_le (limit left right : Nat) :
    saturatingAdd limit left right ≤ left + right := Nat.min_le_left _ _

theorem saturatingAdd_le_limit (limit left right : Nat) :
    saturatingAdd limit left right ≤ limit := Nat.min_le_right _ _

theorem saturatingAdd_eq {limit left right : Nat} (fits : left + right ≤ limit) :
    saturatingAdd limit left right = left + right := Nat.min_eq_left fits

end Soroban
