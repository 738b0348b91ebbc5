import KeeperNetwork.Indexer.Store
import KeeperNetwork.Soroban.Integer

/-! State derived by folding the history of events. -/

namespace KeeperNetwork.Indexer

open Soroban

/-- The lifecycle of a task, named to match the contract's. -/
inductive TaskStatus where
  | pending
  | claimed
  | executed
  | cancelled
  | expired
  deriving DecidableEq, Repr

/-- A task's current state, in the fields that events carry. -/
structure TaskState where
  taskId : Nat
  owner : String
  status : TaskStatus
  /-- The registered reward with every increase folded in. -/
  reward : Int
  deadline : Nat
  condition : Option String
  conditionRejectionCount : Nat
  /-- The keeper that holds the claim, once claimed. -/
  keeper : Option String
  claimLedger : Option Nat
  /-- The net reward paid on execution, once executed. -/
  netReward : Option Int
  lastLedger : Nat
  oracleAddress : Option String
  asset : Option String
  oracleThreshold : Option Int
  deriving DecidableEq, Repr

namespace TaskState

def registered (taskId : Nat) (owner : String) (reward : Int) (deadline : Nat)
    (condition : Option String) (ledger : Nat) : TaskState where
  taskId
  owner
  status := .pending
  reward
  deadline
  condition
  conditionRejectionCount := 0
  keeper := none
  claimLedger := none
  netReward := none
  lastLedger := ledger
  oracleAddress := none
  asset := none
  oracleThreshold := none

/-- The state of a registered task after an event, absent when the event does not change it. -/
def change (state : TaskState) : EventPayload → Option TaskState
  | .taskClaimed _ keeper claimLedger =>
    some { state with status := .claimed, keeper := some keeper, claimLedger := some claimLedger }
  | .taskExecuted _ keeper netReward _ =>
    some { state with status := .executed, keeper := some keeper, netReward := some netReward }
  | .taskExpired _ => some { state with status := .expired }
  | .taskCancelled .. => some { state with status := .cancelled }
  -- The contract emits the resulting total, so the latest value wins.
  | .rewardIncreased _ newReward => some { state with reward := newReward }
  | .deadlineExtended _ newDeadline => some { state with deadline := newDeadline }
  | .oraclePriceConditionSet _ oracle asset threshold =>
    some { state with
      oracleAddress := some oracle, asset := some asset, oracleThreshold := some threshold }
  | .conditionNotMet .. =>
    some { state with
      conditionRejectionCount := saturatingAdd u64Max state.conditionRejectionCount 1 }
  | _ => none

def next (taskId : Nat) (state : Option TaskState) (event : IndexedEvent) : Option TaskState :=
  match event.payload with
  | .taskRegistered _ owner reward deadline condition =>
    some (registered taskId owner reward deadline condition event.ledger)
  | other =>
    match state with
    -- Without a registration there is no task to speak of.
    | none => none
    | some state =>
      match state.change other with
      | some changed => some { changed with lastLedger := event.ledger }
      | none => some state

def fold (taskId : Nat) (history : List IndexedEvent) : Option TaskState :=
  history.foldl (next taskId) none

end TaskState

/-- Everything the indexer knows about one keeper. -/
structure KeeperSummary where
  keeper : String
  claimedTaskIds : List Nat
  executedTaskIds : List Nat
  totalEarned : Int
  totalWithdrawn : Int
  /-- Earned minus withdrawn. -/
  creditedBalance : Int
  deriving DecidableEq, Repr

namespace KeeperSummary

/-- What the fold of a keeper's events has gathered so far. -/
structure Gathered where
  claimedTaskIds : List Nat
  executedTaskIds : List Nat
  totalEarned : Int
  totalWithdrawn : Int

/-- Gather one more event, which panics when a sum leaves the range of its type. -/
def gather (gathered : Gathered) (event : IndexedEvent) : Option Gathered :=
  match event.payload with
  | .taskClaimed taskId .. =>
    some { gathered with claimedTaskIds := gathered.claimedTaskIds ++ [taskId] }
  | .taskExecuted taskId _ netReward _ => do
    let totalEarned ← checkedAdd gathered.totalEarned netReward
    return { gathered with
      executedTaskIds := gathered.executedTaskIds ++ [taskId]
      totalEarned }
  | .rewardsWithdrawn _ amount => do
    let totalWithdrawn ← checkedAdd gathered.totalWithdrawn amount
    return { gathered with totalWithdrawn }
  | _ => some gathered

/-- Fold a keeper's events into their summary, absent when an addition overflows. -/
def fold (keeper : String) (events : List IndexedEvent) : Option KeeperSummary := do
  let gathered ← events.foldlM gather ⟨[], [], 0, 0⟩
  let creditedBalance ← checkedSub gathered.totalEarned gathered.totalWithdrawn
  return {
    keeper
    claimedTaskIds := gathered.claimedTaskIds
    executedTaskIds := gathered.executedTaskIds
    totalEarned := gathered.totalEarned
    totalWithdrawn := gathered.totalWithdrawn
    creditedBalance }

end KeeperSummary

/-- The registry's configuration, in which a field is absent until an event sets it. -/
structure AdminConfig where
  admin : Option String
  rewardToken : Option String
  feeBps : Option Nat
  paused : Option Bool
  minReward : Option Int
  totalFeesSwept : Int
  /-- The most recent code, hex-encoded. -/
  currentWasmHash : Option String
  deriving DecidableEq, Repr

namespace AdminConfig

def blank : AdminConfig := ⟨none, none, none, none, none, 0, none⟩

/-- The configuration after one more event, apart from the total of fees swept. -/
def configure (config : AdminConfig) : EventPayload → AdminConfig
  | .initialized admin rewardToken feeBps =>
    -- The contract starts unpaused, which is known from here on.
    { config with
      admin := some admin
      rewardToken := some rewardToken
      feeBps := some feeBps
      paused := some (config.paused.getD false) }
  | .paused paused => { config with paused := some paused }
  | .feeUpdated _ newBps => { config with feeBps := some newBps }
  | .adminTransferred _ newAdmin => { config with admin := some newAdmin }
  | .minRewardUpdated _ newMin => { config with minReward := some newMin }
  | .upgraded _ newWasmHash => { config with currentWasmHash := some newWasmHash }
  | _ => config

/-- What is swept so far after one more event, which panics when the sum leaves its range. -/
def sweep (swept : Int) : EventPayload → Option Int
  | .feesSwept _ amount _ => checkedAdd swept amount
  | _ => some swept

/-- The configuration and the fees swept so far after one more event. -/
def next (state : AdminConfig × Int) (event : IndexedEvent) : Option (AdminConfig × Int) := do
  let swept ← sweep state.2 event.payload
  return (state.1.configure event.payload, swept)

/-- Fold the admin events into the live configuration, absent when the sum of fees overflows. -/
def fold (events : List IndexedEvent) : Option AdminConfig := do
  let (config, swept) ← events.foldlM next (blank, 0)
  return { config with totalFeesSwept := swept }

end AdminConfig

end KeeperNetwork.Indexer
