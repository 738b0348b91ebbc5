import KeeperNetwork.Soroban.Ledger

/-! Tunable bounds and protocol constants of the keeper registry. -/

namespace KeeperNetwork

/-- The shortest lock window a task may ask for, about a minute of ledgers. -/
def minLockLedgers : Nat := 12

/-- The longest lock window a task may ask for, about a day of ledgers. -/
def maxLockLedgers : Nat := 17280

/-- The shortest storage lifetime a task may be registered with. -/
def minTtlLedgers : Nat := 1000

/-- Ledgers of instance lifetime requested by each state-changing call. -/
def instanceBumpLedgers : Nat := 100000

/-- The instance is renewed only once this many ledgers or fewer remain. -/
def instanceBumpThreshold : Nat := 50000

/-- Ledgers of lifetime requested for a keeper balance entry each time it is written. -/
def keeperBalanceBumpLedgers : Nat := 100000

/-- A keeper balance entry is renewed only once this many ledgers or fewer remain. -/
def keeperBalanceBumpThreshold : Nat := 50000

/-- The longest calldata a task may carry, in bytes. -/
def maxCalldataLen : Nat := 1024

/-- The longest proof an execution may submit, in bytes. -/
def maxProofLen : Nat := 256

/-- The most tasks one batch may register. -/
def maxBatchSize : Nat := 50

/-- The seconds one ledger is taken to last when lifetimes are compared with deadlines. -/
def secondsPerLedger : Nat := 5

/-- Ledgers of lifetime a task's entry must keep beyond its deadline. -/
def ttlSafetyMarginLedgers : Nat := 17280

/-- The protocol fee of a registry whose fee was never written. -/
def defaultFeeBps : Nat := 0

/-- Ledgers of lifetime requested for a stake entry each time it is written. -/
def keeperStakeBumpLedgers : Nat := 100000

/-- A stake entry is renewed only once this many ledgers or fewer remain. -/
def keeperStakeBumpThreshold : Nat := 50000

/-- Ledgers between asking for stake back and being able to withdraw it. -/
def unbondDelayLedgers : Nat := 86400

/-- Ledgers after a slash within which the slashed keeper may appeal. -/
def slashDisputeWindowLedgers : Nat := 51840

/-- The longest hold that may be placed on the credit of an execution. -/
def maxExecutionDisputeWindowLedgers : Nat := 86400

/-- The highest reputation score a claim may be made to require. -/
def maxReputationFloorBps : Nat := 10000

def reputationTtlThreshold : Nat := 50000

/-- Ledgers of lifetime requested for a reputation entry each time it is written. -/
def reputationTtlLedgers : Nat := 6300000

end KeeperNetwork
