import KeeperNetwork.Registry.Task

/-! Batch registration: many tasks under one authorization. -/

namespace KeeperNetwork

open Soroban

def validateBatch (minReward : Int) : List BatchTaskParams → Int → Contract Int
  | [], total => pure total
  | params :: rest, total => do
    validateTaskParams params.reward minReward params.deadline params.calldata.length
      params.ttlLedgers params.lockLedgers
    let total ← okOr (checkedAdd total params.reward) .arithmeticOverflow
    validateBatch minReward rest total

/-- Escrow and store every entry of a batch, one transfer each. -/
def registerEntries (token : Token) (inv : Invocation) (owner : Address) :
    List BatchTaskParams → Contract (List Nat)
  | [] => pure []
  | params :: rest => do
    token owner (← get).self params.reward
    let taskId ← nextTaskId
    saveTask inv taskId (newTask owner params)
    emit (.taskRegistered taskId owner params.reward params.deadline params.condition)
    let taskIds ← registerEntries token inv owner rest
    return taskId :: taskIds

def batchRegisterTasks (token : Token) (inv : Invocation) (owner : Address)
    (tasks : List BatchTaskParams) (maxTotalReward : Int) : Contract (List Nat) := do
  requireNotPaused
  requireAuth inv.auths owner
  rejectIf (tasks = []) .emptyBatch
  rejectIf (tasks.length > maxBatchSize) .batchTooLarge
  rejectIf (maxTotalReward ≤ 0) .invalidReward
  let totalReward ← validateBatch (minRewardFloor (← get)) tasks 0
  rejectIf (totalReward > maxTotalReward) .batchRewardCeilingExceeded
  bumpInstance
  let _ ← okOr (← get).rewardToken .notInitialized
  registerEntries token inv owner tasks

end KeeperNetwork
