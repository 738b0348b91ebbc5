import KeeperNetwork.Lib.Checkpoints
import KeeperNetwork.Lib.FiniteMap
import KeeperNetwork.Soroban.Contract

/-! The governance token's constants, storage and the balances it reports. -/

namespace KeeperNetwork.GovernanceToken

open Soroban

/-- The errors the token returns. -/
inductive TokenError where
  | alreadyInitialized
  | negativeAmount
  | insufficientBalance
  | insufficientAllowance
  | tokensLocked
  | invalidExpiration
  deriving DecidableEq, Repr

/-- One whole token in its base units. -/
def oneToken : Int := 10000000

def totalSupply : Int := 100000000 * oneToken

def allocEarlyKeepers : Int := 40000000 * oneToken

def allocTreasury : Int := 25000000 * oneToken

def allocCoreTeam : Int := 20000000 * oneToken

def allocPublic : Int := 15000000 * oneToken

/-- Six months until the team's first token vests. -/
def teamCliffSeconds : Nat := 180 * 24 * 60 * 60

/-- Two years until all of the team's tokens have vested. -/
def teamVestingSeconds : Nat := 730 * 24 * 60 * 60

theorem allocations_total :
    allocEarlyKeepers + allocTreasury + allocCoreTeam + allocPublic = totalSupply := by decide

/-- A linear release of an amount that begins with a cliff. -/
structure VestingSchedule where
  totalAmount : Int
  startTime : Nat
  cliffDuration : Nat
  totalDuration : Nat
  deriving DecidableEq, Repr

/-- What a spender may still take, and the last ledger at which it may. -/
structure AllowanceValue where
  amount : Int
  expirationLedger : Nat
  deriving DecidableEq, Repr

/-- A balance and the ledger that left it behind. -/
structure Checkpoint where
  ledger : Nat
  balance : Int
  deriving DecidableEq, Repr

/-- The events the token publishes. -/
inductive Event where
  | mint (admin dst : Address) (amount : Int)
  | approve (src spender : Address) (amount : Int)
  | transfer (src dst : Address) (amount : Int)
  | burn (src : Address) (amount : Int)
  deriving DecidableEq, Repr

/-- The ledger clock and the token's storage. -/
structure Env where
  sequence : Nat
  timestamp : Nat
  admin : Option Address
  initialized : Bool
  balances : Finmap fun _ : Address => Int
  allowances : Finmap fun _ : Address × Address => AllowanceValue
  vesting : Finmap fun _ : Address => VestingSchedule
  checkpointCount : Finmap fun _ : Address => Nat
  checkpoints : Finmap fun _ : Address × Nat => Checkpoint
  events : List Event

abbrev Contract := Program TokenError Env

namespace Env

variable (e : Env)

def emit (event : Event) : Env := { e with events := e.events ++ [event] }

def balance (id : Address) : Int := (e.balances.lookup id).getD 0

/-- What a spender may take now, which is nothing once its allowance has expired. -/
def allowance (src spender : Address) : Int :=
  match e.allowances.lookup (src, spender) with
  | some value => if e.sequence ≤ value.expirationLedger then value.amount else 0
  | none => 0

/-- The vested part of an allocation, absent when the arithmetic panics. -/
def vestedBalance (id : Address) : Option Int :=
  match e.vesting.lookup id with
  | none => some (e.balance id)
  | some schedule => do
    let cliff ← checkedAddNat u64Max schedule.startTime schedule.cliffDuration
    if e.timestamp < cliff then some 0
    else do
      let stop ← checkedAddNat u64Max schedule.startTime schedule.totalDuration
      if stop ≤ e.timestamp then some schedule.totalAmount
      else do
        let elapsed := e.timestamp - schedule.startTime
        let product ← checkedMul schedule.totalAmount elapsed
        some (product.tdiv schedule.totalDuration)

/-- The part of an allocation that is still locked. -/
def unvestedBalance (id : Address) : Option Int :=
  match e.vesting.lookup id with
  | none => some 0
  | some schedule => do
    let vested ← e.vestedBalance id
    checkedSub schedule.totalAmount vested

/-- What an address may spend: its balance without the locked part, and never below zero. -/
def spendableBalance (id : Address) : Option Int := do
  let unvested ← e.unvestedBalance id
  let spendable ← checkedSub (e.balance id) unvested
  if spendable < 0 then some 0 else some spendable

def countOf (id : Address) : Nat := (e.checkpointCount.lookup id).getD 0

/--
The balance of an address at a past ledger, read off its checkpoints.

Nothing is returned when the search reads a missing checkpoint.
-/
def balanceAt (id : Address) (ledger : Nat) : Option Int :=
  let count := e.countOf id
  if count = 0 then some 0
  else do
    -- One more round than there are checkpoints is enough for a halving search.
    let ans ← Checkpoints.searchLast (fun mid => e.checkpoints.lookup (id, mid))
      (fun cp => cp.ledger ≤ ledger) (count + 1) 0 ((count : Int) - 1) (-1)
    if 0 ≤ ans then do
      let cp ← e.checkpoints.lookup (id, ans.toNat)
      some cp.balance
    else some 0

end Env

def deployed (sequence timestamp : Nat) : Env :=
  { sequence, timestamp
    admin := none
    initialized := false
    balances := ∅
    allowances := ∅
    vesting := ∅
    checkpointCount := ∅
    checkpoints := ∅
    events := [] }

end KeeperNetwork.GovernanceToken
