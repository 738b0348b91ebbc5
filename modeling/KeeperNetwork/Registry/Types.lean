import KeeperNetwork.Registry.Constants
import KeeperNetwork.Soroban.Contract

/-! The registry's errors, domain types and events. -/

namespace KeeperNetwork

open Soroban

/-- The errors a registry call can return. -/
inductive KeeperError where
  | alreadyInitialized
  | unauthorized
  | contractPaused
  | taskNotFound
  | invalidTaskStatus
  | deadlinePassed
  | deadlineNotPassed
  | invalidReward
  | lockPeriodActive
  | invalidFeeBps
  | notTaskOwner
  | notTaskClaimer
  | noRewardsAvailable
  | notInitialized
  | ttlTooShort
  | calldataTooLarge
  | invalidTaskParams
  | arithmeticOverflow
  | proofTooLarge
  | verificationFailed
  | batchTooLarge
  | emptyBatch
  | batchRewardCeilingExceeded
  | insufficientStake
  | unbondNotReady
  | unbondAlreadyPending
  | noPendingUnbond
  | minStakeNotMet
  | slashNotFound
  | appealWindowClosed
  | appealAlreadyRaised
  | notSlashedKeeper
  | noPendingCredit
  | executionAlreadyDisputed
  | disputeWindowClosed
  | noDisputedCredit
  | reputationBelowFloor
  | invalidReputationFloor
  | conditionNotMet
  deriving DecidableEq, Repr

/-- Why a call failed: with an error of its own, or by a trap of the host. -/
abbrev Failure := Fault KeeperError

/-- The kind of automation a task represents. -/
inductive TaskType where
  | liquidation
  | oraclePricePush
  | fundingRateUpdate
  | liquidityRebalance
  | ttlExtension
  | custom
  deriving DecidableEq, Repr

/-- Lifecycle state of a task. -/
inductive TaskStatus where
  | pending
  | claimed
  | executed
  | cancelled
  | expired
  deriving DecidableEq, Repr

/-- Full task record. -/
structure Task where
  owner : Address
  taskType : TaskType
  calldata : Bytes
  reward : Int
  deadline : Nat
  /-- Ledgers of lifetime of the storage entry. -/
  ttlLedgers : Nat
  status : TaskStatus
  claimer : Option Address
  claimLedger : Option Nat
  /-- Ledgers the claimer holds exclusive rights. -/
  lockLedgers : Nat
  /-- Contract that must approve the proof of an execution. -/
  verifier : Option Address
  /-- Contract that must be satisfied before a claim. -/
  condition : Option Address
  deriving DecidableEq, Repr

/-- One entry of a batch registration, with the owner shared by the whole batch. -/
structure BatchTaskParams where
  taskType : TaskType
  calldata : Bytes
  reward : Int
  deadline : Nat
  ttlLedgers : Nat
  lockLedgers : Nat
  verifier : Option Address
  condition : Option Address
  deriving DecidableEq, Repr

/-- A keeper's pending stake withdrawal. -/
structure UnbondRequest where
  amount : Int
  /-- First ledger at which the request can be withdrawn. -/
  unlockLedger : Nat
  deriving DecidableEq, Repr

/-- A keeper's aggregate slash history. -/
structure SlashHistory where
  count : Nat
  totalSlashed : Int
  deriving DecidableEq, Repr

/-- One record of a slash, kept until an appeal against it is resolved. -/
structure SlashRecord where
  keeper : Address
  amount : Int
  reason : Symbol
  ledger : Nat
  /-- Whether an appeal has been raised. -/
  appealed : Bool
  deriving DecidableEq, Repr

/-- One execution credit still within its dispute window. -/
structure PendingCredit where
  taskId : Nat
  netReward : Int
  /-- First ledger at which the credit can be finalized. -/
  unlockLedger : Nat
  /-- Whether the task's owner has disputed the execution. -/
  disputed : Bool
  deriving DecidableEq, Repr

/-- Stored history of one keeper. -/
structure ReputationRecord where
  successes : Nat
  missedClaims : Nat
  scoreBps : Nat
  lastUpdatedLedger : Nat
  deriving DecidableEq, Repr

/-- The events the registry publishes, each with its payload. -/
inductive Event where
  | taskRegistered (taskId : Nat) (owner : Address) (reward : Int) (deadline : Nat)
      (condition : Option Address)
  | conditionNotMet (taskId : Nat) (condition : Address)
  | taskClaimed (taskId : Nat) (keeper : Address) (sequence : Nat)
  | taskExecuted (taskId : Nat) (keeper : Address) (netReward : Int) (proof : Bytes)
  | taskExpired (taskId : Nat)
  | taskCancelled (taskId : Nat) (owner : Address)
  | rewardsWithdrawn (keeper : Address) (amount : Int)
  | rewardIncreased (taskId : Nat) (newReward : Int)
  | deadlineExtended (taskId : Nat) (newDeadline : Nat)
  | paused (paused : Bool)
  | feeUpdated (oldBps newBps : Nat)
  | adminTransferred (oldAdmin newAdmin : Address)
  | minRewardUpdated (oldMin newMin : Int)
  | feesSwept (treasury : Address) (amount remaining : Int)
  | initialized (admin rewardToken : Address) (feeBps : Nat)
  | upgraded (admin : Address) (newWasmHash : Bytes)
  | verificationFailed (taskId : Nat) (keeper : Address)
  | verifierUpdated (taskId : Nat) (oldVerifier newVerifier : Option Address)
  | stakeDeposited (keeper : Address) (amount newTotal : Int)
  | unbondInitiated (keeper : Address) (amount : Int) (unlockLedger : Nat)
  | stakeWithdrawn (keeper : Address) (amount : Int)
  | slashed (slashId : Nat) (keeper : Address) (amount : Int) (reason : Symbol)
  | minStakeUpdated (oldMin newMin : Int)
  | slashAppealRaised (slashId : Nat) (keeper : Address)
  | slashAppealResolved (slashId : Nat) (upheld : Bool)
  | disputeWindowUpdated (oldLedgers newLedgers : Nat)
  | executionDisputed (taskId : Nat) (keeper : Address)
  | executionDisputeResolved (taskId : Nat) (upheld : Bool)
  | rewardsFinalized (keeper : Address) (taskId : Nat) (amount : Int)
  | reputationFloorUpdated (oldFloorBps newFloorBps : Nat)
  deriving DecidableEq, Repr

end KeeperNetwork
