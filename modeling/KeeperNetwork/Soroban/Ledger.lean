import KeeperNetwork.Soroban.Integer

/-! What the host ledger keeps for every contract: addresses, token balances and entry lifetimes. -/

namespace Soroban

/-- A ledger address, of an account or of a contract. -/
structure Address where
  id : Nat
  deriving DecidableEq, Repr

abbrev Bytes := List UInt8

/-- A short name. -/
abbrev Symbol := String

/--
The balances of one token contract.

A balance is an unsigned amount stored in a signed 128-bit integer.
-/
structure Balances where
  of : Address → Int
  nonneg : ∀ holder, 0 ≤ of holder
  fits : ∀ holder, of holder ≤ i128Max

namespace Balances

/-- Nobody holds anything. -/
def zero : Balances where
  of _ := 0
  nonneg _ := le_rfl
  fits _ := i128_signs.2.le

/-- The balances after moving an amount, with a transfer to oneself leaving them alone. -/
def moved (b : Balances) (src dst : Address) (amount : Int) (holder : Address) : Int :=
  -- The sender's debit and the receiver's credit cancel when they are the same address.
  b.of holder - (if holder = src then amount else 0) + (if holder = dst then amount else 0)

def move (b : Balances) (src dst : Address) (amount : Int) : Option Balances :=
  if ready : 0 ≤ amount ∧ amount ≤ b.of src ∧ b.moved src dst amount dst ≤ i128Max then
    some
      { of := b.moved src dst amount
        nonneg := by
          intro holder
          have held := b.nonneg holder
          unfold moved
          by_cases sender : holder = src
          · subst sender; split_ifs <;> omega
          · split_ifs <;> omega
        fits := by
          intro holder
          have stored := b.fits holder
          by_cases receiver : holder = dst
          · subst receiver; exact ready.2.2
          · unfold moved; split_ifs <;> omega }
  else none

variable {b : Balances} {src dst : Address}

theorem move_eq_some {after : Balances} {amount : Int} (done : b.move src dst amount = some after) :
    0 ≤ amount ∧ amount ≤ b.of src ∧ after.of = b.moved src dst amount := by
  unfold move at done
  split at done
  · rename_i ready
    simp only [Option.some.injEq] at done
    subst done
    exact ⟨ready.1, ready.2.1, rfl⟩
  · simp at done

/-- A move is completed when the sender has the funds and the receiver can store them. -/
theorem move_of_ready {amount : Int} (nonneg : 0 ≤ amount) (held : amount ≤ b.of src)
    (stored : b.moved src dst amount dst ≤ i128Max) :
    ∃ after, b.move src dst amount = some after := by
  unfold move
  rw [dif_pos ⟨nonneg, held, stored⟩]
  exact ⟨_, rfl⟩

private theorem moved_sender {amount : Int} (apart : src ≠ dst) :
    b.moved src dst amount src = b.of src - amount := by
  simp [moved, apart]

private theorem moved_receiver {amount : Int} (apart : src ≠ dst) :
    b.moved src dst amount dst = b.of dst + amount := by
  simp [moved, apart.symm]

theorem move_into {after : Balances} {amount : Int} (done : b.move src dst amount = some after)
    (apart : src ≠ dst) : after.of dst = b.of dst + amount := by
  rw [(move_eq_some done).2.2, moved_receiver apart]

theorem move_out {after : Balances} {amount : Int} (done : b.move src dst amount = some after)
    (apart : src ≠ dst) : after.of src = b.of src - amount := by
  rw [(move_eq_some done).2.2, moved_sender apart]

end Balances

/--
Extend the lifetime of a ledger entry.

The entry is renewed only once its remaining lifetime has fallen to the threshold.
-/
def extendTtl (now threshold ledgers liveUntil : Nat) : Nat :=
  if liveUntil - now ≤ threshold then now + ledgers else liveUntil

/-- Renewing with a threshold no larger than the new lifetime never shortens a lifetime. -/
theorem le_extendTtl {now threshold ledgers liveUntil : Nat} (ordered : threshold ≤ ledgers) :
    liveUntil ≤ extendTtl now threshold ledgers liveUntil := by
  unfold extendTtl; split <;> omega

theorem lifetime_le_extendTtl (now ledgers liveUntil : Nat) :
    now + ledgers ≤ extendTtl now ledgers ledgers liveUntil := by
  unfold extendTtl; split <;> omega

/-- Renewing again at the same ledger changes nothing. -/
theorem extendTtl_idem {now threshold ledgers liveUntil : Nat} :
    extendTtl now threshold ledgers (extendTtl now threshold ledgers liveUntil) =
      extendTtl now threshold ledgers liveUntil := by
  unfold extendTtl; split_ifs <;> omega

end Soroban
