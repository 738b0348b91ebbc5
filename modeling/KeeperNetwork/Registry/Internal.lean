import KeeperNetwork.Registry.Env

/-! Internal helpers shared by the registry's entry points. -/

namespace KeeperNetwork

open Soroban

def whenever (condition : Prop) [Decidable condition] (action : Contract Unit) : Contract Unit :=
  if condition then action else pure ()

/-- Renew the instance lifetime, as every state-changing entry point does. -/
def bumpInstance : Contract Unit :=
  modify Env.bump

/-- Renew a persistent entry's lifetime. -/
def extendEntry (key : DataKey) (threshold ledgers : Nat) : Contract Unit :=
  modify fun e => e.extend key threshold ledgers

def emit (event : Event) : Contract Unit :=
  modify fun e => e.emit event

/-- Fail while the registry is paused. -/
def requireNotPaused : Contract Unit := do
  rejectIf ((← get).paused.getD false = true) .contractPaused

/-- Fail unless the registry was initialized. -/
def requireInitialized : Contract Unit := do
  rejectIf ((← get).admin = none) .notInitialized

def requireAdmin (inv : Invocation) (caller : Address) : Contract Unit := do
  let admin ← okOr (← get).admin .notInitialized
  requireAuth inv.auths caller
  rejectIf (caller ≠ admin) .unauthorized

def nextTaskId : Contract Nat := do
  let next ← expect (checkedSucc u64Max ((← get).taskCounter.getD 0))
  modify fun e => { e with taskCounter := some next }
  return next

/-- The least lifetime a task with this deadline must be stored with. -/
def requiredTtlLedgers (e : Env) (deadline : Nat) : Nat :=
  -- A deadline already passed leaves only the safety margin.
  (deadline - e.timestamp) / secondsPerLedger + ttlSafetyMarginLedgers

def loadTask (taskId : Nat) : Contract Task := do
  okOr ((← get).tasks.lookup taskId) .taskNotFound

/-- Write a task record and renew its entry for the lifetime it was registered with. -/
def saveTask (inv : Invocation) (taskId : Nat) (task : Task) : Contract Unit := do
  modify fun e => e.setTask inv taskId task
  extendEntry (.task taskId) task.ttlLedgers task.ttlLedgers

def transferReward (token : Token) (src dst : Address) (amount : Int) : Contract Unit := do
  let _ ← okOr (← get).rewardToken .notInitialized
  token src dst amount

def feeBps (e : World) : Nat := e.feeBps.getD defaultFeeBps

def splitReward (reward : Int) (feeBps : Nat) : Except KeeperError (Int × Int) :=
  match checkedMul reward feeBps with
  | none => .error .arithmeticOverflow
  | some product =>
    -- Division truncates towards zero.
    let fee := product.tdiv 10000
    match checkedSub reward fee with
    | none => .error .arithmeticOverflow
    | some net => .ok (net, fee)

def liftResult {α : Type} : Except KeeperError α → Contract α
  | .ok value => pure value
  | .error reason => throw (.error reason)

/-- A keeper's withdrawable balance. -/
def keeperRewardOf (e : World) (keeper : Address) : Int :=
  (e.keeperReward.lookup keeper).getD 0

/-- Add to a keeper's withdrawable balance. -/
def creditKeeper (inv : Invocation) (keeper : Address) (amount : Int) : Contract Unit := do
  let updated ← okOr (checkedAdd (keeperRewardOf (← get) keeper) amount)
    .arithmeticOverflow
  modify fun e => e.setKeeperReward inv keeper updated
  extendEntry (.keeperReward keeper) keeperBalanceBumpThreshold keeperBalanceBumpLedgers

def readSlashHistory (e : World) (keeper : Address) : SlashHistory :=
  (e.slashHistory.lookup keeper).getD ⟨0, 0⟩

def writeSlashHistory (inv : Invocation) (keeper : Address) (amount : Int) : Contract Unit := do
  let current := readSlashHistory (← get) keeper
  let count ← okOr (checkedSucc u32Max current.count) .arithmeticOverflow
  let totalSlashed ← okOr (checkedAdd current.totalSlashed amount) .arithmeticOverflow
  modify fun e => e.setSlashHistory inv keeper ⟨count, totalSlashed⟩
  extendEntry (.slashHistory keeper) keeperStakeBumpThreshold keeperStakeBumpLedgers

/-- The protocol fees awaiting a sweep. -/
def feesAccrued (e : World) : Int := e.feesAccrued.getD 0

def accrueFee (amount : Int) : Contract Unit :=
  whenever (amount ≠ 0) do
    let updated ← okOr (checkedAdd (feesAccrued (← get)) amount) .arithmeticOverflow
    modify fun e => { e with feesAccrued := some updated }

/-- Check the parameters of a task, alike for single and batch registration. -/
def validateTaskParams (reward minReward : Int)
    (deadline calldataLen ttlLedgers lockLedgers : Nat) : Contract Unit := do
  rejectIf (reward ≤ 0 ∨ reward < minReward) .invalidReward
  rejectIf (deadline ≤ (← get).timestamp) .deadlinePassed
  rejectIf (calldataLen > maxCalldataLen) .calldataTooLarge
  rejectIf (¬ (minLockLedgers ≤ lockLedgers ∧ lockLedgers ≤ maxLockLedgers)) .invalidTaskParams
  rejectIf (ttlLedgers < minTtlLedgers) .invalidTaskParams
  rejectIf (ttlLedgers < requiredTtlLedgers (← get) deadline) .ttlTooShort

/-- The least reward a task may be registered with. -/
def minRewardFloor (e : World) : Int := e.minReward.getD 0

/-- Whether a claimed task's exclusive lock window has elapsed. -/
def lockExpired (e : World) (task : Task) : Bool :=
  match task.claimLedger with
  | some claimedAt => saturatingAdd u32Max claimedAt task.lockLedgers ≤ e.sequence
  | none => true

def keeperStakeOf (e : World) (keeper : Address) : Int :=
  (e.keeperStake.lookup keeper).getD 0

/-- The least stake a claim requires. -/
def minStakeFloor (e : World) : Int := e.minStake.getD 0

def nextSlashId : Contract Nat := do
  let next ← expect (checkedSucc u64Max ((← get).slashCounter.getD 0))
  modify fun e => { e with slashCounter := some next }
  return next

/-- The hold placed on the credit of an execution, zero when disabled. -/
def disputeWindowLedgers (e : World) : Nat := e.disputeWindowLedgers.getD 0

/-- A keeper's credits still awaiting finalization. -/
def pendingCreditsOf (e : World) (keeper : Address) : List PendingCredit :=
  (e.pendingReward.lookup keeper).getD []

/-- Write a keeper's pending credits, dropping the entry when none are left. -/
def savePendingCredits (inv : Invocation) (keeper : Address) (credits : List PendingCredit) :
    Contract Unit :=
  if credits.isEmpty then modify fun e => e.removePendingReward keeper
  else do
    modify fun e => e.setPendingReward inv keeper credits
    extendEntry (.pendingReward keeper) keeperBalanceBumpThreshold keeperBalanceBumpLedgers

def addPendingCredit (inv : Invocation) (keeper : Address) (taskId : Nat) (netReward : Int)
    (windowLedgers : Nat) : Contract Unit := do
  let e ← get
  savePendingCredits inv keeper (pendingCreditsOf e keeper ++
    [{ taskId, netReward, unlockLedger := saturatingAdd u32Max e.sequence windowLedgers,
       disputed := false }])

/-- Whether a credit can be finalized: its window has elapsed and nobody disputes it. -/
def PendingCredit.finalizable (credit : PendingCredit) (now : Nat) : Bool :=
  !credit.disputed && decide (credit.unlockLedger ≤ now)

/-- Walk over the pending credits, crediting the finalizable ones and keeping the others. -/
def finalizeCredits (inv : Invocation) (keeper : Address) (now : Nat) :
    List PendingCredit → Contract (List PendingCredit × List (Nat × Int))
  | [] => pure ([], [])
  | credit :: rest =>
    if credit.finalizable now then do
      creditKeeper inv keeper credit.netReward
      let walked ← finalizeCredits inv keeper now rest
      return (walked.1, (credit.taskId, credit.netReward) :: walked.2)
    else do
      let walked ← finalizeCredits inv keeper now rest
      return (credit :: walked.1, walked.2)

/-- Move every finalizable credit into the keeper's balance, returning what was moved. -/
def finalizeRewards (inv : Invocation) (keeper : Address) : Contract (List (Nat × Int)) := do
  let e ← get
  let walked ← finalizeCredits inv keeper e.sequence (pendingCreditsOf e keeper)
  -- With nothing finalized the stored list is already right.
  whenever (walked.2 ≠ []) (savePendingCredits inv keeper walked.1)
  return walked.2

end KeeperNetwork
