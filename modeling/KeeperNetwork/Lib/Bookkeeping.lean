import Mathlib.Algebra.Group.Submonoid.Defs
import Mathlib.Algebra.Order.Group.Int
import Mathlib.Algebra.Order.Monoid.Submonoid
import Mathlib.Data.Int.ConditionallyCompleteOrder
import Mathlib.Logic.Relation
import Mathlib.Order.ConditionallyCompleteLattice.Basic
import Mathlib.Tactic.Abel

/-! Bookkeeping: stocks read off a state, explained by the flows a history of entries books. -/

namespace Bookkeeping

variable {State Record : Type*}

def Drifts (allowed : AddSubmonoid ℤ) (quantity : State → ℤ) (before after : State) : Prop :=
  quantity after - quantity before ∈ allowed

namespace Drifts

variable {allowed : AddSubmonoid ℤ} {quantity : State → ℤ} {before between after : State}

theorem of_eq (same : quantity after = quantity before) : Drifts allowed quantity before after := by
  unfold Drifts
  rw [same, sub_self]
  exact allowed.zero_mem

/-- Nothing drifts while nothing happens. -/
theorem refl (state : State) : Drifts allowed quantity state state := of_eq rfl

theorem trans (first : Drifts allowed quantity before between)
    (second : Drifts allowed quantity between after) : Drifts allowed quantity before after := by
  have sum := allowed.add_mem second first
  rwa [sub_add_sub_cancel] at sum

/-- Without any allowance the quantity is constant. -/
theorem bot_iff : Drifts ⊥ quantity before after ↔ quantity after = quantity before := by
  rw [Drifts, AddSubmonoid.mem_bot, sub_eq_zero]

/-- With every gain allowed the quantity never falls. -/
theorem nonneg_iff :
    Drifts (AddSubmonoid.nonneg ℤ) quantity before after ↔ quantity before ≤ quantity after := by
  rw [Drifts, AddSubmonoid.mem_nonneg, Int.sub_nonneg]

end Drifts

/-- An account has a stock in every state, and every record books a flow into it. -/
structure Account (State Record : Type*) where
  stock : State → ℤ
  flow : Record → ℤ

namespace Account

variable (account : Account State Record)

def booked (history : List Record) : ℤ := (history.map account.flow).sum

/-- The part of the stock that the history does not explain. -/
def unexplained (state : State) (history : List Record) : ℤ :=
  account.stock state - account.booked history

/-- An empty history books nothing. -/
@[simp] theorem booked_nil : account.booked [] = 0 := rfl

@[simp] theorem booked_cons (record : Record) (history : List Record) :
    account.booked (record :: history) = account.flow record + account.booked history := by
  simp [booked]

end Account

end Bookkeeping
