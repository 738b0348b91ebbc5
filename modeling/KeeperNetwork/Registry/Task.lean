import KeeperNetwork.Registry.Reputation

/-! Task lifecycle: registration, funding, claiming, execution and the two refund paths. -/

namespace KeeperNetwork

open Soroban

/-- Whether a task still holds its escrow. -/
def TaskStatus.isOpen : TaskStatus → Bool
  | .pending | .claimed => true
  | .executed | .cancelled | .expired => false

/-- The record of a freshly registered task. -/
def newTask (owner : Address) (params : BatchTaskParams) : Task :=
  { owner
    taskType := params.taskType
    calldata := params.calldata
    reward := params.reward
    deadline := params.deadline
    ttlLedgers := params.ttlLedgers
    status := .pending
    claimer := none
    claimLedger := none
    lockLedgers := params.lockLedgers
    verifier := params.verifier
    condition := params.condition }

/-- Escrow a reward from the owner and store the task it funds. -/
def registerTask (token : Token) (inv : Invocation) (owner : Address) (params : BatchTaskParams) :
    Contract Nat := do
  requireNotPaused
  requireAuth inv.auths owner
  validateTaskParams params.reward (minRewardFloor (← get)) params.deadline
    params.calldata.length params.ttlLedgers params.lockLedgers
  bumpInstance
  -- The transfer comes before the id is allocated and the record written.
  transferReward token owner (← get).self params.reward
  let taskId ← nextTaskId
  saveTask inv taskId (newTask owner params)
  emit (.taskRegistered taskId owner params.reward params.deadline params.condition)
  return taskId

/-- Top up the reward of a task that has not finished yet. -/
def increaseReward (token : Token) (inv : Invocation) (owner : Address) (taskId : Nat)
    (additional : Int) : Contract Unit := do
  requireNotPaused
  requireAuth inv.auths owner
  rejectIf (additional ≤ 0) .invalidReward
  let task ← loadTask taskId
  rejectIf (task.owner ≠ owner) .notTaskOwner
  rejectIf (task.status.isOpen = false) .invalidTaskStatus
  bumpInstance
  transferReward token owner (← get).self additional
  -- The record written back is the one loaded before the transfer.
  let reward ← expect (checkedAdd task.reward additional)
  saveTask inv taskId { task with reward }
  emit (.rewardIncreased taskId reward)

def extendDeadline (inv : Invocation) (owner : Address) (taskId newDeadline : Nat) :
    Contract Unit := do
  requireNotPaused
  requireAuth inv.auths owner
  let task ← loadTask taskId
  rejectIf (task.owner ≠ owner) .notTaskOwner
  rejectIf (task.status.isOpen = false) .invalidTaskStatus
  rejectIf (newDeadline ≤ task.deadline) .deadlinePassed
  bumpInstance
  saveTask inv taskId { task with deadline := newDeadline }
  emit (.deadlineExtended taskId newDeadline)

/-- Set or clear the verifier of a task nobody has claimed. -/
def updateVerifier (inv : Invocation) (owner : Address) (taskId : Nat)
    (newVerifier : Option Address) : Contract Unit := do
  requireNotPaused
  requireAuth inv.auths owner
  let task ← loadTask taskId
  rejectIf (task.owner ≠ owner) .notTaskOwner
  rejectIf (task.status ≠ .pending) .invalidTaskStatus
  bumpInstance
  saveTask inv taskId { task with verifier := newVerifier }
  emit (.verifierUpdated taskId task.verifier newVerifier)

def missedClaimer (task : Task) : Contract (Option Address) :=
  match task.status with
  | .pending => pure none
  | .claimed => do
    -- A takeover has to wait for the current lock to expire.
    rejectIf (lockExpired (← get) task = false) .lockPeriodActive
    return task.claimer
  | _ => throw (.error .invalidTaskStatus)

/-- Fail unless the condition attached to a task is met. -/
def requireCondition (inv : Invocation) (taskId : Nat) (task : Task) : Contract Unit :=
  match task.condition with
  | none => pure ()
  | some condition =>
    whenever (inv.isMet condition taskId ≠ some true) do
      emit (.conditionNotMet taskId condition)
      throw (.error .conditionNotMet)

/-- Track a missed claim of the displaced claimer, if there is one. -/
def recordMissed (inv : Invocation) : Option Address → Contract Unit
  | some missed => recordMissedClaim inv missed
  | none => pure ()

/-- Claim a pending task, or take over a claim whose lock window has elapsed. -/
def claimTask (inv : Invocation) (keeper : Address) (taskId : Nat) : Contract Unit := do
  requireNotPaused
  requireAuth inv.auths keeper
  let minStake := minStakeFloor (← get)
  rejectIf (0 < minStake ∧ keeperStakeOf (← get) keeper < minStake) .minStakeNotMet
  let task ← loadTask taskId
  rejectIf (task.deadline ≤ (← get).timestamp) .deadlinePassed
  let missed ← missedClaimer task
  requireReputationFloor keeper
  requireCondition inv taskId task
  bumpInstance
  recordMissed inv missed
  let e ← get
  saveTask inv taskId
    { task with status := .claimed, claimer := some keeper, claimLedger := some e.sequence }
  emit (.taskClaimed taskId keeper e.sequence)

def requireApproval (inv : Invocation) (keeper : Address) (taskId : Nat) (proof : Bytes)
    (task : Task) : Contract Unit :=
  match task.verifier with
  | none => pure ()
  | some verifier =>
    whenever (inv.verify verifier taskId keeper proof ≠ some true) do
      emit (.verificationFailed taskId keeper)
      throw (.error .verificationFailed)

/-- Credit an execution, holding the credit back while a dispute window is configured. -/
def creditExecution (inv : Invocation) (keeper : Address) (taskId : Nat) (keeperNet : Int) :
    Contract Unit := do
  let window := disputeWindowLedgers (← get)
  (if 0 < window then addPendingCredit inv keeper taskId keeperNet window
    else creditKeeper inv keeper keeperNet)

/-- Submit the proof of an execution and credit the claimer with its share of the reward. -/
def executeTask (inv : Invocation) (keeper : Address) (taskId : Nat) (proof : Bytes) :
    Contract Unit := do
  requireNotPaused
  requireAuth inv.auths keeper
  rejectIf (proof.length > maxProofLen) .proofTooLarge
  let task ← loadTask taskId
  rejectIf (task.status ≠ .claimed) .invalidTaskStatus
  rejectIf (task.claimer ≠ some keeper) .notTaskClaimer
  rejectIf (task.deadline ≤ (← get).timestamp) .deadlinePassed
  requireApproval inv keeper taskId proof task
  bumpInstance
  let shares ← liftResult (splitReward task.reward (feeBps (← get)))
  creditExecution inv keeper taskId shares.1
  accrueFee shares.2
  recordSuccess inv keeper
  saveTask inv taskId { task with status := .executed }
  emit (.taskExecuted taskId keeper shares.1 proof)

/-- Reclaim the escrow of a task that is pending, or claimed with its lock window elapsed. -/
def cancelTask (token : Token) (inv : Invocation) (owner : Address) (taskId : Nat) :
    Contract Unit := do
  requireAuth inv.auths owner
  let task ← loadTask taskId
  rejectIf (task.owner ≠ owner) .notTaskOwner
  rejectIf (task.status.isOpen = false) .invalidTaskStatus
  rejectIf (task.status = .claimed ∧ lockExpired (← get) task = false) .lockPeriodActive
  bumpInstance
  -- The record is closed before the refund is paid.
  saveTask inv taskId { task with status := .cancelled }
  transferReward token (← get).self owner task.reward
  emit (.taskCancelled taskId owner)

/-- Return the escrow of a task whose deadline has passed, whoever asks for it. -/
def expireTask (token : Token) (inv : Invocation) (taskId : Nat) : Contract Unit := do
  let task ← loadTask taskId
  rejectIf (task.status.isOpen = false) .invalidTaskStatus
  rejectIf ((← get).timestamp < task.deadline) .deadlineNotPassed
  bumpInstance
  -- The record is closed before the refund is paid.
  saveTask inv taskId { task with status := .expired }
  transferReward token (← get).self task.owner task.reward
  emit (.taskExpired taskId)

/-- Publish one event for each finalized credit. -/
def emitFinalized (keeper : Address) (finalized : List (Nat × Int)) : Contract Unit :=
  modify fun e =>
    { e with events := e.events ++ finalized.map fun moved =>
        .rewardsFinalized keeper moved.1 moved.2 }

/-- Pay out a keeper's balance, after finalizing the credits whose window has elapsed. -/
def withdrawRewards (token : Token) (inv : Invocation) (keeper : Address) : Contract Int := do
  requireAuth inv.auths keeper
  let finalized ← finalizeRewards inv keeper
  emitFinalized keeper finalized
  let balance := keeperRewardOf (← get) keeper
  rejectIf (balance ≤ 0) .noRewardsAvailable
  bumpInstance
  -- The balance is emptied before it is paid.
  modify fun e => e.setKeeperReward inv keeper 0
  transferReward token (← get).self keeper balance
  emit (.rewardsWithdrawn keeper balance)
  return balance

end KeeperNetwork
