import KeeperNetwork.Lib.Ignores
import KeeperNetwork.Registry.Invoke

/-! Changes of the ledger that entry points neither see nor touch. -/

/-- A check that may end the program ignores every change. -/
theorem EStateM.Ignores.reject {ε σ α : Type} {change : σ → σ} {condition : Prop}
    [Decidable condition] {reason : ε} {rest : Unit → Soroban.Program ε σ α}
    (later : Ignores change (rest ())) :
    Ignores change (Soroban.rejectIf condition reason >>= rest) :=
  .bind (.ite (.throw _) (.pure _)) fun _ => later

namespace KeeperNetwork

open Soroban EStateM

/--
A change of the environment that the code about tasks and rewards has no part in.

Nothing that code reads shows the change, and everything it writes can be written before or after.
-/
structure Spares (change : Env → Env) : Prop where
  self : ∀ e, (change e).self = e.self
  sequence : ∀ e, (change e).sequence = e.sequence
  timestamp : ∀ e, (change e).timestamp = e.timestamp
  rewardToken : ∀ e, (change e).rewardToken = e.rewardToken
  feeBps : ∀ e, (change e).feeBps = e.feeBps
  taskCounter : ∀ e, (change e).taskCounter = e.taskCounter
  feesAccrued : ∀ e, (change e).feesAccrued = e.feesAccrued
  minReward : ∀ e, (change e).minReward = e.minReward
  minStake : ∀ e, (change e).minStake = e.minStake
  window : ∀ e, (change e).disputeWindowLedgers = e.disputeWindowLedgers
  reputationFloor : ∀ e, (change e).reputationFloor = e.reputationFloor
  tasks : ∀ e, (change e).tasks = e.tasks
  keeperReward : ∀ e, (change e).keeperReward = e.keeperReward
  pendingReward : ∀ e, (change e).pendingReward = e.pendingReward
  reputation : ∀ e, (change e).reputation = e.reputation
  bump : ∀ e, (change e).bump = change e.bump
  extend : ∀ e key threshold ledgers,
    (change e).extend key threshold ledgers = change (e.extend key threshold ledgers)
  publish : ∀ e events, { change e with events } = change { e with events }
  events : ∀ e, (change e).events = e.events
  count : ∀ e next, { change e with taskCounter := some next } =
    change { e with taskCounter := some next }
  accrue : ∀ e amount, { change e with feesAccrued := some amount } =
    change { e with feesAccrued := some amount }
  setTask : ∀ e inv taskId task,
    (change e).setTask inv taskId task = change (e.setTask inv taskId task)
  setKeeperReward : ∀ e inv keeper amount,
    (change e).setKeeperReward inv keeper amount = change (e.setKeeperReward inv keeper amount)
  setPendingReward : ∀ e inv keeper credits,
    (change e).setPendingReward inv keeper credits = change (e.setPendingReward inv keeper credits)
  removePendingReward : ∀ e keeper,
    (change e).removePendingReward keeper = change (e.removePendingReward keeper)
  setReputation : ∀ e inv keeper record,
    (change e).setReputation inv keeper record = change (e.setReputation inv keeper record)

/-- A token whose transfers ignore the change. -/
def Oblivious (change : Env → Env) (token : Token) : Prop :=
  ∀ src dst amount, Ignores change (token src dst amount)

variable {change : Env → Env} {token : Token} {inv : Invocation}

@[congr] theorem rejectIf_congr {left right : Prop} [Decidable left] [Decidable right]
    (same : left ↔ right) (reason : KeeperError) :
    (rejectIf left reason : Contract Unit) = rejectIf right reason := by
  simp only [rejectIf, same]

theorem rejectIf_ignores (condition : Prop) [Decidable condition] (reason : KeeperError) :
    Ignores change (rejectIf condition reason) := .ite (.throw _) (.pure _)

theorem okOr_ignores {α : Type} (value : Option α) (reason : KeeperError) :
    Ignores change (okOr value reason) := by
  cases value with
  | none => exact .throw _
  | some found => exact .pure found

theorem expect_ignores {α : Type} (value : Option α) :
    Ignores change (expect value : Contract α) := by
  cases value with
  | none => exact .throw _
  | some found => exact .pure found

theorem requireAuth_ignores (auths : List Address) (address : Address) :
    Ignores change (requireAuth auths address : Contract Unit) := .ite (.pure _) (.throw _)

theorem liftResult_ignores {α : Type} (result : Except KeeperError α) :
    Ignores change (liftResult result) := by
  cases result with
  | ok value => exact .pure value
  | error reason => exact .throw _

theorem whenever_ignores (condition : Prop) [Decidable condition] {action : Contract Unit}
    (ignores : Ignores change action) : Ignores change (whenever condition action) :=
  .ite ignores (.pure _)

theorem requireNotPaused_ignores (paused : ∀ e, (change e).paused = e.paused) :
    Ignores change requireNotPaused :=
  .get_bind (fun e => by simp only [paused]) fun _ => rejectIf_ignores _ _

/-- The checks at the start of an entry point ignore a change that keeps the pause flag. -/
theorem enter {α : Type} (paused : ∀ e, (change e).paused = e.paused) {caller : Address}
    {rest : Contract α} (later : Ignores change rest) :
    Ignores change (do requireNotPaused; requireAuth inv.auths caller; rest) :=
  .bind (requireNotPaused_ignores paused) fun _ => .bind (requireAuth_ignores _ _) fun _ => later

namespace Spares

variable (spares : Spares change)
include spares

theorem lockExpired_eq (e : Env) (task : Task) :
    lockExpired (change e) task = lockExpired e task := by
  simp only [lockExpired, spares.sequence]

theorem window_eq (e : Env) : disputeWindowLedgers (change e) = disputeWindowLedgers e := by
  simp only [disputeWindowLedgers, spares.window]

theorem requiredTtl_eq (e : Env) (deadline : Nat) :
    requiredTtlLedgers (change e) deadline = requiredTtlLedgers e deadline := by
  simp only [requiredTtlLedgers, spares.timestamp]

theorem record_eq (e : Env) (keeper : Address) :
    storedRecord (change e) keeper = storedRecord e keeper := by
  simp only [storedRecord, spares.reputation]

theorem floor_eq (e : Env) : reputationFloorBps (change e) = reputationFloorBps e := by
  simp only [reputationFloorBps, spares.reputationFloor]

theorem rewardOf_eq (e : Env) (keeper : Address) :
    keeperRewardOf (change e) keeper = keeperRewardOf e keeper := by
  simp only [keeperRewardOf, spares.keeperReward]

theorem minStake_eq (e : Env) : minStakeFloor (change e) = minStakeFloor e := by
  simp only [minStakeFloor, spares.minStake]

theorem bumpInstance : Ignores change bumpInstance :=
  .modify spares.bump

theorem extendEntry (key : DataKey) (threshold ledgers : Nat) :
    Ignores change (extendEntry key threshold ledgers) :=
  .modify fun e => spares.extend e key threshold ledgers

theorem emit (event : Event) : Ignores change (emit event) :=
  .modify fun e => by
    simp only [Env.emit, spares.events]
    exact spares.publish e _

theorem loadTask (taskId : Nat) : Ignores change (loadTask taskId) :=
  .get_bind (fun e => by simp only [spares.tasks]) fun _ => okOr_ignores _ _

theorem saveTask (taskId : Nat) (task : Task) : Ignores change (saveTask inv taskId task) :=
  .bind (.modify fun e => spares.setTask e inv taskId task) fun _ => spares.extendEntry _ _ _

theorem nextTaskId : Ignores change nextTaskId :=
  .get_bind (fun e => by simp only [spares.taskCounter]) fun _ =>
    .bind (expect_ignores _) fun next => .bind (.modify fun e => spares.count e next) fun _ =>
      .pure _

theorem transferReward (blind : Oblivious change token) (src dst : Address) (amount : Int) :
    Ignores change (transferReward token src dst amount) :=
  .get_bind (fun e => by simp only [spares.rewardToken]) fun _ =>
    .bind (okOr_ignores _ _) fun _ => blind src dst amount

theorem creditKeeper (keeper : Address) (amount : Int) :
    Ignores change (creditKeeper inv keeper amount) :=
  .get_bind (fun e => by simp only [spares.rewardOf_eq]) fun _ =>
    .bind (okOr_ignores _ _) fun updated =>
      .bind (.modify fun e => spares.setKeeperReward e inv keeper updated) fun _ =>
        spares.extendEntry _ _ _

theorem savePendingCredits (keeper : Address) (credits : List PendingCredit) :
    Ignores change (savePendingCredits inv keeper credits) :=
  .ite (.modify fun e => spares.removePendingReward e keeper)
    (.bind (.modify fun e => spares.setPendingReward e inv keeper credits) fun _ =>
      spares.extendEntry _ _ _)

theorem addPendingCredit (keeper : Address) (taskId : Nat) (netReward : Int) (windowLedgers : Nat) :
    Ignores change (addPendingCredit inv keeper taskId netReward windowLedgers) :=
  .get_bind (fun e => by simp only [pendingCreditsOf, spares.pendingReward, spares.sequence])
    fun _ => spares.savePendingCredits _ _

theorem finalizeCredits (keeper : Address) (now : Nat) (credits : List PendingCredit) :
    Ignores change (finalizeCredits inv keeper now credits) := by
  induction credits with
  | nil => exact .pure _
  | cons credit rest ih =>
    exact .ite (.bind (spares.creditKeeper keeper _) fun _ => .bind ih fun _ => .pure _)
      (.bind ih fun _ => .pure _)

theorem finalizeRewards (keeper : Address) : Ignores change (finalizeRewards inv keeper) :=
  .get_bind (fun e => by simp only [pendingCreditsOf, spares.pendingReward, spares.sequence])
    fun _ => .bind (spares.finalizeCredits keeper _ _) fun _ =>
      .bind (whenever_ignores _ (spares.savePendingCredits keeper _)) fun _ => .pure _

theorem accrueFee (amount : Int) : Ignores change (accrueFee amount) :=
  whenever_ignores _ (.get_bind
    (fun e => by simp only [KeeperNetwork.feesAccrued, spares.feesAccrued]) fun _ =>
      .bind (okOr_ignores _ _) fun updated => .modify fun e => spares.accrue e updated)

theorem updateReputation (keeper : Address) (success : Bool) :
    Ignores change (updateReputation inv keeper success) :=
  .bind (.modify fun e => by
    simp only [storedRecord, spares.reputation, spares.sequence]
    exact spares.setReputation e inv keeper _) fun _ => spares.extendEntry _ _ _

theorem validateTaskParams (reward minReward : Int)
    (deadline calldataLen ttlLedgers lockLedgers : Nat) :
    Ignores change (validateTaskParams reward minReward deadline calldataLen ttlLedgers
      lockLedgers) :=
  .reject <| .get_bind (fun e => by simp only [spares.timestamp]) fun _ =>
    .reject <| .reject <| .reject <| .reject <|
      .get_bind (fun e => by simp only [spares.requiredTtl_eq]) fun _ => rejectIf_ignores _ _

theorem registerTask (paused : ∀ e, (change e).paused = e.paused) (blind : Oblivious change token)
    (owner : Address) (params : BatchTaskParams) :
    Ignores change (registerTask token inv owner params) :=
  enter paused <| .get_bind (fun e => by simp only [minRewardFloor, spares.minReward]) fun _ =>
    .bind (spares.validateTaskParams _ _ _ _ _ _) fun _ => .bind spares.bumpInstance fun _ =>
      .get_bind (fun e => by simp only [spares.self]) fun _ =>
        .bind (spares.transferReward blind _ _ _) fun _ => .bind spares.nextTaskId fun _ =>
          .bind (spares.saveTask _ _) fun _ => .bind (spares.emit _) fun _ => .pure _

theorem validateBatch (minReward : Int) (tasks : List BatchTaskParams) (total : Int) :
    Ignores change (validateBatch minReward tasks total) := by
  induction tasks generalizing total with
  | nil => exact .pure _
  | cons params rest ih =>
    exact .bind (spares.validateTaskParams _ _ _ _ _ _) fun _ =>
      .bind (okOr_ignores _ _) fun total => ih total

theorem registerEntries (blind : Oblivious change token) (owner : Address)
    (tasks : List BatchTaskParams) : Ignores change (registerEntries token inv owner tasks) := by
  induction tasks with
  | nil => exact .pure _
  | cons params rest ih =>
    exact .get_bind (fun e => by simp only [spares.self]) fun _ =>
      .bind (blind _ _ _) fun _ => .bind spares.nextTaskId fun _ =>
        .bind (spares.saveTask _ _) fun _ => .bind (spares.emit _) fun _ =>
          .bind ih fun _ => .pure _

theorem batchRegisterTasks (paused : ∀ e, (change e).paused = e.paused)
    (blind : Oblivious change token) (owner : Address) (tasks : List BatchTaskParams)
    (maxTotalReward : Int) :
    Ignores change (batchRegisterTasks token inv owner tasks maxTotalReward) :=
  enter paused <| .reject <| .reject <| .reject <|
    .get_bind (fun e => by simp only [minRewardFloor, spares.minReward]) fun _ =>
      .bind (spares.validateBatch _ _ _) fun _ => .reject <| .bind spares.bumpInstance fun _ =>
        .get_bind (fun e => by simp only [spares.rewardToken]) fun _ =>
          .bind (okOr_ignores _ _) fun _ => spares.registerEntries blind owner tasks

/-- Topping a task up ignores a spared change that keeps the pause flag. -/
theorem increaseReward (paused : ∀ e, (change e).paused = e.paused) (blind : Oblivious change token)
    (owner : Address) (taskId : Nat) (additional : Int) :
    Ignores change (increaseReward token inv owner taskId additional) :=
  enter paused <| .reject <| .bind (spares.loadTask _) fun _ => .reject <| .reject <|
    .bind spares.bumpInstance fun _ => .get_bind (fun e => by simp only [spares.self]) fun _ =>
      .bind (spares.transferReward blind _ _ _) fun _ => .bind (expect_ignores _) fun _ =>
        .bind (spares.saveTask _ _) fun _ => spares.emit _

theorem extendDeadline (paused : ∀ e, (change e).paused = e.paused) (owner : Address)
    (taskId newDeadline : Nat) : Ignores change (extendDeadline inv owner taskId newDeadline) :=
  enter paused <| .bind (spares.loadTask _) fun _ => .reject <| .reject <| .reject <|
    .bind spares.bumpInstance fun _ => .bind (spares.saveTask _ _) fun _ => spares.emit _

theorem updateVerifier (paused : ∀ e, (change e).paused = e.paused) (owner : Address) (taskId : Nat)
    (newVerifier : Option Address) : Ignores change (updateVerifier inv owner taskId newVerifier) :=
  enter paused <| .bind (spares.loadTask _) fun _ => .reject <| .reject <|
    .bind spares.bumpInstance fun _ => .bind (spares.saveTask _ _) fun _ => spares.emit _

theorem missedClaimer (task : Task) : Ignores change (missedClaimer task) := by
  unfold KeeperNetwork.missedClaimer
  cases task.status with
  | pending => exact .pure _
  | claimed =>
    exact .get_bind (fun e => by simp only [spares.lockExpired_eq]) fun _ =>
      .reject <| .pure _
  | executed | cancelled | expired => exact .throw _

theorem requireCondition (taskId : Nat) (task : Task) :
    Ignores change (requireCondition inv taskId task) := by
  unfold KeeperNetwork.requireCondition
  cases task.condition with
  | none => exact .pure _
  | some condition =>
    exact whenever_ignores _ (.bind (spares.emit _) fun _ => .throw _)

theorem recordMissed (missed : Option Address) : Ignores change
    (recordMissed inv missed) := by
  cases missed with
  | none => exact .pure _
  | some keeper => exact spares.updateReputation keeper false

theorem requireApproval (keeper : Address) (taskId : Nat) (proof : Bytes) (task : Task) :
    Ignores change (requireApproval inv keeper taskId proof task) := by
  unfold KeeperNetwork.requireApproval
  cases task.verifier with
  | none => exact .pure _
  | some verifier =>
    exact whenever_ignores _ (.bind (spares.emit _) fun _ => .throw _)

/-- Claiming a task only sees of a spared change whether the keeper's stake suffices. -/
theorem claimTask (paused : ∀ e, (change e).paused = e.paused) (keeper : Address) (taskId : Nat)
    {start : Env}
    (alike : 0 < minStakeFloor start →
      (keeperStakeOf (change start) keeper < minStakeFloor start ↔
        keeperStakeOf start keeper < minStakeFloor start)) :
    IgnoresAt change (claimTask inv keeper taskId) start := by
  -- Neither of the first two checks changes the state, so the stake is read where the call began.
  refine (requireNotPaused_ignores paused start).bind fun _ unpaused checked => ?_
  obtain ⟨rfl, -⟩ : unpaused = start ∧ _ := by simpa [requireNotPaused] using checked
  refine (requireAuth_ignores inv.auths keeper unpaused).bind fun _ signed checked => ?_
  obtain ⟨-, rfl⟩ : _ ∧ signed = unpaused := by simpa using checked
  refine .get_bind (by simp only [spares.minStake_eq]) (.get_bind ?_ ?_)
  · refine congrArg (· >>= _) (rejectIf_congr (and_congr_right fun positive => ?_) _)
    exact alike positive
  · refine (rejectIf_ignores _ _ _).bind fun _ finish _ => Ignores.bind (spares.loadTask _)
      (fun _ => ?_) finish
    exact .get_bind (fun e => by simp only [spares.timestamp]) fun _ =>
      .reject <| .bind (spares.missedClaimer _) fun _ =>
        .bind (.get_bind (fun e => by simp only [spares.record_eq, spares.floor_eq])
          fun _ => rejectIf_ignores _ _) fun _ =>
          .bind (spares.requireCondition _ _) fun _ => .bind spares.bumpInstance fun _ =>
            .bind (spares.recordMissed _) fun _ =>
              .get_bind (fun e => by simp only [spares.sequence]) fun _ =>
                .bind (spares.saveTask _ _) fun _ => spares.emit _

theorem executeTask (paused : ∀ e, (change e).paused = e.paused) (keeper : Address) (taskId : Nat)
    (proof : Bytes) : Ignores change (executeTask inv keeper taskId proof) :=
  enter paused <| .reject <| .bind (spares.loadTask _) fun _ => .reject <| .reject <|
    .get_bind (fun e => by simp only [spares.timestamp]) fun _ =>
      .reject <| .bind (spares.requireApproval _ _ _ _) fun _ => .bind spares.bumpInstance fun _ =>
        .get_bind (fun e => by simp only [KeeperNetwork.feeBps, spares.feeBps]) fun _ =>
          .bind (liftResult_ignores _) fun _ =>
            .bind (.get_bind (fun e => by simp only [spares.window_eq]) fun _ =>
                .ite (spares.addPendingCredit _ _ _ _) (spares.creditKeeper _ _)) fun _ =>
              .bind (spares.accrueFee _) fun _ => .bind (spares.updateReputation _ _) fun _ =>
                .bind (spares.saveTask _ _) fun _ => spares.emit _

theorem cancelTask (blind : Oblivious change token) (owner : Address) (taskId : Nat) :
    Ignores change (cancelTask token inv owner taskId) :=
  .bind (requireAuth_ignores _ _) fun _ => .bind (spares.loadTask _) fun _ =>
    .reject <| .reject <| .get_bind (fun e => by simp only [spares.lockExpired_eq]) fun _ =>
      .reject <| .bind spares.bumpInstance fun _ => .bind (spares.saveTask _ _) fun _ =>
        .get_bind (fun e => by simp only [spares.self]) fun _ =>
          .bind (spares.transferReward blind _ _ _) fun _ => spares.emit _

theorem expireTask (blind : Oblivious change token) (taskId : Nat) :
    Ignores change (expireTask token inv taskId) :=
  .bind (spares.loadTask _) fun _ => .reject <|
    .get_bind (fun e => by simp only [spares.timestamp]) fun _ =>
      .reject <| .bind spares.bumpInstance fun _ => .bind (spares.saveTask _ _) fun _ =>
        .get_bind (fun e => by simp only [spares.self]) fun _ =>
          .bind (spares.transferReward blind _ _ _) fun _ => spares.emit _

theorem withdrawRewards (blind : Oblivious change token) (keeper : Address) :
    Ignores change (withdrawRewards token inv keeper) :=
  .bind (requireAuth_ignores _ _) fun _ => .bind (spares.finalizeRewards _) fun moved =>
    .bind (.modify fun e => by
      simp only [spares.events]
      exact spares.publish e _) fun _ =>
      .get_bind (fun e => by simp only [spares.rewardOf_eq]) fun _ =>
        .reject <| .bind spares.bumpInstance fun _ =>
          .bind (.modify fun e => spares.setKeeperReward e inv keeper 0) fun _ =>
            .get_bind (fun e => by simp only [spares.self]) fun _ =>
              .bind (spares.transferReward blind _ _ _) fun _ => .bind (spares.emit _) fun _ =>
                .pure _

end Spares

/-- A spared change that the code about stakes has no part in either. -/
structure SparesStakes (change : Env → Env) : Prop extends Spares change where
  admin : ∀ e, (change e).admin = e.admin
  keeperStake : ∀ e, (change e).keeperStake = e.keeperStake
  unbondRequest : ∀ e, (change e).unbondRequest = e.unbondRequest
  slashCounter : ∀ e, (change e).slashCounter = e.slashCounter
  slashHistory : ∀ e, (change e).slashHistory = e.slashHistory
  countSlash : ∀ e next, { change e with slashCounter := some next } =
    change { e with slashCounter := some next }
  setKeeperStake : ∀ e inv keeper amount,
    (change e).setKeeperStake inv keeper amount = change (e.setKeeperStake inv keeper amount)
  setUnbondRequest : ∀ e inv keeper request,
    (change e).setUnbondRequest inv keeper request = change (e.setUnbondRequest inv keeper request)
  removeUnbondRequest : ∀ e keeper,
    (change e).removeUnbondRequest keeper = change (e.removeUnbondRequest keeper)
  setSlash : ∀ e inv slashId record,
    (change e).setSlash inv slashId record = change (e.setSlash inv slashId record)
  setSlashHistory : ∀ e inv keeper history,
    (change e).setSlashHistory inv keeper history = change (e.setSlashHistory inv keeper history)

namespace SparesStakes

variable (spares : SparesStakes change)
include spares

theorem requireInitialized : Ignores change requireInitialized :=
  .get_bind (fun e => by simp only [spares.admin]) fun _ => rejectIf_ignores _ _

theorem requireAdmin (caller : Address) : Ignores change (requireAdmin inv caller) :=
  .get_bind (fun e => by simp only [spares.admin]) fun _ => .bind (okOr_ignores _ _) fun _ =>
    .bind (requireAuth_ignores _ _) fun _ => rejectIf_ignores _ _

theorem saveStake (keeper : Address) (amount : Int) :
    Ignores change (saveStake inv keeper amount) :=
  .bind (.modify fun e => spares.setKeeperStake e inv keeper amount) fun _ =>
    spares.extendEntry _ _ _

theorem saveUnbondRequest (keeper : Address) (request : UnbondRequest) :
    Ignores change (saveUnbondRequest inv keeper request) :=
  .bind (.modify fun e => spares.setUnbondRequest e inv keeper request) fun _ =>
    spares.extendEntry _ _ _

theorem drawFromUnbond (keeper : Address) (pending : Option UnbondRequest) (amount : Int) :
    Ignores change (drawFromUnbond inv keeper pending amount) :=
  .bind (okOr_ignores _ _) fun _ => .bind (okOr_ignores _ _) fun _ =>
    .ite (.modify fun e => spares.removeUnbondRequest e keeper) (spares.saveUnbondRequest _ _)

theorem nextSlashId : Ignores change nextSlashId :=
  .get_bind (fun e => by simp only [spares.slashCounter]) fun _ =>
    .bind (expect_ignores _) fun next => .bind (.modify fun e => spares.countSlash e next) fun _ =>
      .pure _

theorem saveSlash (slashId : Nat) (record : SlashRecord) :
    Ignores change (saveSlash inv slashId record) :=
  .bind (.modify fun e => spares.setSlash e inv slashId record) fun _ => spares.extendEntry _ _ _

theorem history_eq (e : Env) (keeper : Address) :
    readSlashHistory (change e) keeper = readSlashHistory e keeper := by
  simp only [readSlashHistory, spares.slashHistory]

theorem stakeOf_eq (e : Env) (keeper : Address) :
    keeperStakeOf (change e) keeper = keeperStakeOf e keeper := by
  simp only [keeperStakeOf, spares.keeperStake]

theorem writeSlashHistory (keeper : Address) (amount : Int) :
    Ignores change (writeSlashHistory inv keeper amount) :=
  .get_bind (fun e => by simp only [spares.history_eq]) fun _ => .bind (okOr_ignores _ _) fun _ =>
    .bind (okOr_ignores _ _) fun _ =>
      .bind (.modify fun e => spares.setSlashHistory e inv keeper _) fun _ =>
        spares.extendEntry _ _ _

theorem withdrawStake (blind : Oblivious change token) (keeper : Address) :
    Ignores change (withdrawStake token inv keeper) :=
  .bind spares.requireInitialized fun _ => .bind (requireAuth_ignores _ _) fun _ =>
    .get_bind (fun e => by simp only [spares.unbondRequest]) fun _ =>
      .bind (okOr_ignores _ _) fun _ => .get_bind (fun e => by simp only [spares.sequence])
        fun _ => .reject <| .bind spares.bumpInstance fun _ =>
          .bind (.modify fun e => spares.removeUnbondRequest e keeper) fun _ =>
            .get_bind (fun e => by simp only [spares.self]) fun _ =>
              .bind (spares.transferReward blind _ _ _) fun _ => .bind (spares.emit _) fun _ =>
                .pure _

theorem slash (blind : Oblivious change token) (admin keeper : Address) (amount : Int)
    (reason : Symbol) (treasury : Address) :
    Ignores change (slash token inv admin keeper amount reason treasury) :=
  .bind (spares.requireAdmin _) fun _ => .reject <|
    .get_bind (fun e => by simp only [spares.stakeOf_eq]) fun _ =>
      .get_bind (fun e => by simp only [spares.unbondRequest]) fun _ =>
        .bind (okOr_ignores _ _) fun _ => .reject <|
          .bind spares.bumpInstance fun _ => .bind (okOr_ignores _ _) fun _ =>
            .bind (spares.saveStake _ _) fun _ => .bind (okOr_ignores _ _) fun _ =>
              .bind (whenever_ignores _ (spares.drawFromUnbond _ _ _)) fun _ =>
                .bind spares.nextSlashId fun _ =>
                  .get_bind (fun e => by simp only [spares.sequence]) fun _ =>
                    .bind (spares.saveSlash _ _) fun _ =>
                      .bind (spares.writeSlashHistory _ _) fun _ =>
                        .get_bind (fun e => by simp only [spares.self]) fun _ =>
                          .bind (spares.transferReward blind _ _ _) fun _ =>
                            .bind (spares.emit _) fun _ => .pure _

end SparesStakes

end KeeperNetwork
