import KeeperNetwork.Registry.Batch
import KeeperNetwork.Registry.Staking

/-! When the shared helpers succeed, and exactly what they leave behind. -/

namespace KeeperNetwork

open Soroban

variable {inv : Invocation} {e e' : Env} {u : Unit}

@[simp] theorem bumpInstance_returns : bumpInstance.Returns e u e' ↔ e' = e.bump := by
  simp [bumpInstance]

@[simp] theorem extendEntry_returns {key : DataKey} {threshold ledgers : Nat} :
    (extendEntry key threshold ledgers).Returns e u e' ↔ e' = e.extend key threshold ledgers := by
  simp [extendEntry]

@[simp] theorem emit_returns {event : Event} : (emit event).Returns e u e' ↔ e' = e.emit event := by
  simp [emit]

@[simp] theorem whenever_returns {condition : Prop} [Decidable condition] {action : Contract Unit} :
    (whenever condition action).Returns e u e' ↔
      (condition ∧ action.Returns e u e') ∨ (¬ condition ∧ e' = e) := by
  unfold whenever
  split <;> simp [*]

@[simp] theorem liftResult_returns {α : Type} {result : Except KeeperError α} {value : α} :
    (liftResult result).Returns e value e' ↔ result = .ok value ∧ e' = e := by
  cases result with
  | error reason => simp [liftResult]
  | ok held =>
    simp only [liftResult, EStateM.returns_pure, Except.ok.injEq]
    exact and_congr_left' eq_comm

@[simp] theorem requireNotPaused_returns :
    requireNotPaused.Returns e u e' ↔ e.paused.getD false = false ∧ e' = e := by
  simp [requireNotPaused, and_comm]

/-- The initialization check passes exactly once there is an administrator. -/
@[simp] theorem requireInitialized_returns :
    requireInitialized.Returns e u e' ↔ e.admin ≠ none ∧ e' = e := by
  simp [requireInitialized, and_comm]

@[simp] theorem requireAdmin_returns {caller : Address} :
    (requireAdmin inv caller).Returns e u e' ↔
      (e.admin = some caller ∧ caller ∈ inv.auths) ∧ e' = e := by
  simp [requireAdmin, and_assoc]

@[simp] theorem loadTask_returns {taskId : Nat} {task : Task} :
    (loadTask taskId).Returns e task e' ↔ e.tasks.lookup taskId = some task ∧ e' = e := by
  simp [loadTask, and_comm]

section Bump

variable (e : Env)

@[simp] theorem feeBps_bump : feeBps e.bump = feeBps e := rfl

@[simp] theorem feesAccrued_bump : feesAccrued e.bump = feesAccrued e := rfl

@[simp] theorem disputeWindowLedgers_bump :
    disputeWindowLedgers e.bump = disputeWindowLedgers e := rfl

@[simp] theorem keeperRewardOf_bump (keeper : Address) :
    keeperRewardOf e.bump keeper = keeperRewardOf e keeper := rfl

@[simp] theorem keeperStakeOf_bump (keeper : Address) :
    keeperStakeOf e.bump keeper = keeperStakeOf e keeper := rfl

@[simp] theorem pendingCreditsOf_bump (keeper : Address) :
    pendingCreditsOf e.bump keeper = pendingCreditsOf e keeper := rfl

@[simp] theorem readSlashHistory_bump (keeper : Address) :
    readSlashHistory e.bump keeper = readSlashHistory e keeper := rfl

/-- Renewing the instance unlocks nothing. -/
@[simp] theorem lockExpired_bump (task : Task) : lockExpired e.bump task = lockExpired e task := rfl

end Bump

namespace Env

/-- The environment after a task record was written and its entry renewed. -/
@[simps!] def saveTask (e : Env) (inv : Invocation) (taskId : Nat) (task : Task) : Env :=
  (e.setTask inv taskId task).extend (.task taskId) task.ttlLedgers task.ttlLedgers

/-- The environment after a task id was allocated. -/
@[simps] def countTask (e : Env) : Env :=
  { e with taskCounter := some (e.taskCounter.getD 0 + 1) }

@[simps] def countSlashId (e : Env) : Env :=
  { e with slashCounter := some (e.slashCounter.getD 0 + 1) }

/-- The environment after a stake was written and its entry renewed. -/
@[simps!] def saveStake (e : Env) (inv : Invocation) (keeper : Address) (amount : Int) : Env :=
  (e.setKeeperStake inv keeper amount).extend (.keeperStake keeper) keeperBalanceBumpThreshold
    keeperBalanceBumpLedgers

/-- The environment after an unbond request was written and its entry renewed. -/
@[simps!] def saveUnbondRequest (e : Env) (inv : Invocation) (keeper : Address)
    (request : UnbondRequest) : Env :=
  (e.setUnbondRequest inv keeper request).extend (.unbondRequest keeper)
    keeperBalanceBumpThreshold keeperBalanceBumpLedgers

/-- The environment after a slash record was written and its entry renewed. -/
@[simps!] def saveSlash (e : Env) (inv : Invocation) (slashId : Nat) (record : SlashRecord) : Env :=
  (e.setSlash inv slashId record).extend (.slash slashId) keeperBalanceBumpThreshold
    keeperBalanceBumpLedgers

/-- The environment after a reputation was updated and its entry renewed. -/
@[simps!] def trackAction (e : Env) (inv : Invocation) (keeper : Address) (success : Bool) : Env :=
  (e.setReputation inv keeper
    (updatedRecord (storedRecord e keeper) success e.sequence)).extend
      (.reputation keeper) reputationTtlThreshold reputationTtlLedgers

@[simps!] def credit (e : Env) (inv : Invocation) (keeper : Address) (amount : Int) : Env :=
  (e.setKeeperReward inv keeper (keeperRewardOf e keeper + amount)).extend
    (.keeperReward keeper) keeperBalanceBumpThreshold keeperBalanceBumpLedgers

/-- The environment after one more slash entered a keeper's history. -/
@[simps!] def countSlash (e : Env) (inv : Invocation) (keeper : Address) (amount : Int) : Env :=
  (e.setSlashHistory inv keeper
    ⟨(readSlashHistory e keeper).count + 1,
      (readSlashHistory e keeper).totalSlashed + amount⟩).extend
    (.slashHistory keeper) keeperStakeBumpThreshold keeperStakeBumpLedgers

/-- The environment after an amount was added to the protocol fees. -/
@[simps] def accrue (e : Env) (amount : Int) : Env :=
  { e with
    feesAccrued := if amount = 0 then e.feesAccrued
      else some (KeeperNetwork.feesAccrued e + amount) }

/-- The environment after a keeper's pending credits were written. -/
@[simps] def savePending (e : Env) (inv : Invocation) (keeper : Address)
    (credits : List PendingCredit) : Env :=
  { e with
    pendingReward := if credits = [] then e.pendingReward.erase keeper
      else e.pendingReward.insert keeper credits
    liveUntil := if credits = [] then Function.update e.liveUntil (.pendingReward keeper) none
      else ((e.setPendingReward inv keeper credits).extend (.pendingReward keeper)
        keeperBalanceBumpThreshold keeperBalanceBumpLedgers).liveUntil }

/-- The environment after part of a slash was drawn from a pending unbond request. -/
@[simps] def drawUnbond (e : Env) (inv : Invocation) (keeper : Address) (request : UnbondRequest)
    (amount : Int) : Env :=
  { e with
    unbondRequest := if request.amount - amount = 0 then e.unbondRequest.erase keeper
      else e.unbondRequest.insert keeper { request with amount := request.amount - amount }
    liveUntil := if request.amount - amount = 0 then
        Function.update e.liveUntil (.unbondRequest keeper) none
      else (e.saveUnbondRequest inv keeper
        { request with amount := request.amount - amount }).liveUntil }

end Env

@[simp] theorem saveTask_returns {taskId : Nat} {task : Task} :
    (saveTask inv taskId task).Returns e u e' ↔ e' = e.saveTask inv taskId task := by
  simp [saveTask, Env.saveTask]

@[simp] theorem nextTaskId_returns {taskId : Nat} :
    nextTaskId.Returns e taskId e' ↔
      (taskId = e.taskCounter.getD 0 + 1 ∧ e.taskCounter.getD 0 < u64Max) ∧ e' = e.countTask := by
  rw [and_assoc, and_comm, and_assoc]
  simp [nextTaskId, Env.countTask, and_assoc]

variable {keeper : Address} {amount : Int}

@[simp] theorem transferReward_returns {token : Token} {src dst : Address} :
    (transferReward token src dst amount).Returns e u e' ↔
      e.rewardToken ≠ none ∧ (token src dst amount).Returns e u e' := by
  simp [transferReward, Option.ne_none_iff_exists']

@[simp] theorem creditKeeper_returns :
    (creditKeeper inv keeper amount).Returns e u e' ↔
      (i128Min ≤ keeperRewardOf e keeper + amount ∧
        keeperRewardOf e keeper + amount ≤ i128Max) ∧ e' = e.credit inv keeper amount := by
  simp [creditKeeper, Env.credit, and_assoc]

@[simp] theorem writeSlashHistory_returns :
    (writeSlashHistory inv keeper amount).Returns e u e' ↔
      ((readSlashHistory e keeper).count < u32Max ∧
        i128Min ≤ (readSlashHistory e keeper).totalSlashed + amount ∧
        (readSlashHistory e keeper).totalSlashed + amount ≤ i128Max) ∧
      e' = e.countSlash inv keeper amount := by
  simp [writeSlashHistory, Env.countSlash, and_assoc]

@[simp] theorem accrueFee_returns :
    (accrueFee amount).Returns e u e' ↔
      (amount ≠ 0 → i128Min ≤ feesAccrued e + amount ∧
        feesAccrued e + amount ≤ i128Max) ∧ e' = e.accrue amount := by
  by_cases zero : amount = 0
  · simp [accrueFee, Env.accrue, zero]
  · simp [accrueFee, Env.accrue, zero, and_assoc]

@[simp] theorem nextSlashId_returns {slashId : Nat} :
    nextSlashId.Returns e slashId e' ↔
      (slashId = e.slashCounter.getD 0 + 1 ∧ e.slashCounter.getD 0 < u64Max) ∧
        e' = e.countSlashId := by
  rw [and_assoc, and_comm, and_assoc]
  simp [nextSlashId, Env.countSlashId, and_assoc]

@[simp] theorem savePendingCredits_returns {credits : List PendingCredit} :
    (savePendingCredits inv keeper credits).Returns e u e' ↔
      e' = e.savePending inv keeper credits := by
  cases credits <;> simp [savePendingCredits, Env.savePending, Env.removePendingReward,
    Env.setPendingReward, Env.extend]

@[simp] theorem saveStake_returns :
    (saveStake inv keeper amount).Returns e u e' ↔ e' = e.saveStake inv keeper amount := by
  simp [saveStake, Env.saveStake]

@[simp] theorem saveUnbondRequest_returns {request : UnbondRequest} :
    (saveUnbondRequest inv keeper request).Returns e u e' ↔
      e' = e.saveUnbondRequest inv keeper request := by
  simp [saveUnbondRequest, Env.saveUnbondRequest]

@[simp] theorem saveSlash_returns {slashId : Nat} {record : SlashRecord} :
    (saveSlash inv slashId record).Returns e u e' ↔ e' = e.saveSlash inv slashId record := by
  simp [saveSlash, Env.saveSlash]

@[simp] theorem updateReputation_returns {success : Bool} :
    (updateReputation inv keeper success).Returns e u e' ↔
      e' = e.trackAction inv keeper success := by
  simp [updateReputation, Env.trackAction]

@[simp] theorem requireReputationFloor_returns :
    (requireReputationFloor keeper).Returns e u e' ↔
      (reputationFloorBps e = 0 ∨
        reputationFloorBps e ≤ (storedRecord e keeper).scoreBps) ∧ e' = e := by
  rw [and_comm]
  simp [requireReputationFloor, or_iff_not_imp_left]

@[simp] theorem drawFromUnbond_returns {pending : Option UnbondRequest} :
    (drawFromUnbond inv keeper pending amount).Returns e u e' ↔
      ∃ request, pending = some request ∧ (i128Min ≤ request.amount - amount ∧
        request.amount - amount ≤ i128Max) ∧ e' = e.drawUnbond inv keeper request amount := by
  simp only [drawFromUnbond, EStateM.returns_bind, okOr_returns, checkedSub_eq_some, and_assoc,
    exists_and_left, exists_eq_left]
  refine exists_congr fun request => and_congr_right fun _ => and_congr_right fun _ =>
    and_congr_right fun _ => ?_
  by_cases used : request.amount - amount = 0
  · simp [Env.drawUnbond, Env.removeUnbondRequest, used]
  · simp [Env.drawUnbond, Env.saveUnbondRequest, Env.setUnbondRequest, Env.extend, used]

end KeeperNetwork
