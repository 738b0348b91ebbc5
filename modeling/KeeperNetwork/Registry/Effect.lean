import KeeperNetwork.Registry.Invoke
import KeeperNetwork.Registry.WalkLaws

/-! Everything a successful call can do, one case for each way it can succeed. -/

namespace KeeperNetwork

open Soroban

namespace Env

/-- The environment after the missed claim of a displaced keeper was tracked. -/
@[simps] def noteMissed (e : Env) (inv : Invocation) (missed : Option Address) : Env :=
  { e with
    reputation := missed.elim e.reputation fun keeper => (e.trackAction inv keeper false).reputation
    liveUntil := missed.elim e.liveUntil fun keeper => (e.trackAction inv keeper false).liveUntil }

@[simps] def emitFinalized (e : Env) (keeper : Address) (ready : List PendingCredit) : Env :=
  { e with
    events := e.events ++ ready.map fun credit =>
      .rewardsFinalized keeper credit.taskId credit.netReward }

def newSlash (e : Env) (keeper : Address) (amount : Int) (reason : Symbol) : SlashRecord :=
  { keeper, amount, reason, ledger := e.sequence, appealed := false }

/-- The environment after the books of a slash were written, just before its payout. -/
@[simps] def bookSlash (e : Env) (inv : Invocation) (keeper : Address) (amount : Int)
    (reason : Symbol) : Env :=
  { e with
    slashCounter := some (e.slashCounter.getD 0 + 1)
    slashes := e.slashes.insert (e.slashCounter.getD 0 + 1) (e.newSlash keeper amount reason)
    slashHistory := (e.countSlash inv keeper amount).slashHistory
    liveUntil := ((e.countSlashId.saveSlash inv (e.slashCounter.getD 0 + 1)
      (e.newSlash keeper amount reason)).countSlash inv keeper amount).liveUntil }

end Env

/-- The credit an execution of a task leaves behind while a dispute window is configured. -/
def heldCredit (e : Env) (taskId : Nat) (keeperNet : Int) : PendingCredit :=
  { taskId
    netReward := keeperNet
    unlockLedger := saturatingAdd u32Max e.sequence (disputeWindowLedgers e)
    disputed := false }

/-- A claim is a fresh one of a pending task, or a takeover after the lock has expired. -/
def Claimable (e : Env) (task : Task) (missed : Option Address) : Prop :=
  (task.status = .pending ∧ missed = none) ∨
    (task.status = .claimed ∧ lockExpired e task = true ∧ missed = task.claimer)

def ConditionMet (inv : Invocation) (taskId : Nat) (task : Task) : Prop :=
  ∀ condition, task.condition = some condition → inv.isMet condition taskId = some true

def Approved (inv : Invocation) (keeper : Address) (taskId : Nat) (proof : Bytes) (task : Task) :
    Prop :=
  ∀ verifier, task.verifier = some verifier → inv.verify verifier taskId keeper proof = some true

def IsAdmin (inv : Invocation) (e : Env) (caller : Address) : Prop :=
  e.admin = some caller ∧ caller ∈ inv.auths

/-- What a call that opens new exposure demands of its signer. -/
def Permitted (inv : Invocation) (e : Env) (signer : Address) : Prop :=
  e.paused.getD false = false ∧ signer ∈ inv.auths

/-- The successful outcomes of the registry's entry points. -/
inductive Effect (token : Token) (inv : Invocation) (e : Env) : Call → Value → Env → Prop where
  | initializeRegistry {admin rewardToken : Address} {feeBps : Nat}
      (absent : e.admin = none) (legal : feeBps ≤ 10000) (signed : admin ∈ inv.auths) :
      Effect token inv e (.initializeRegistry admin rewardToken feeBps) .unit
        (Env.emit (Env.bump { e with
          admin := some admin
          rewardToken := some rewardToken
          feeBps := some feeBps
          paused := some false
          taskCounter := some 0 }) (.initialized admin rewardToken feeBps))
  | pause {admin : Address} (admitted : IsAdmin inv e admin) :
      Effect token inv e (.pause admin) .unit
        (Env.emit (Env.bump { e with paused := some true }) (.paused true))
  | unpause {admin : Address} (admitted : IsAdmin inv e admin) :
      Effect token inv e (.unpause admin) .unit
        (Env.emit (Env.bump { e with paused := some false }) (.paused false))
  | setFeeBps {admin : Address} {newBps : Nat} (admitted : IsAdmin inv e admin)
      (legal : newBps ≤ 10000) :
      Effect token inv e (.setFeeBps admin newBps) .unit
        (Env.emit (Env.bump { e with feeBps := some newBps })
          (.feeUpdated (feeBps e) newBps))
  | setMinReward {admin : Address} {minReward : Int} (admitted : IsAdmin inv e admin)
      (legal : 0 ≤ minReward) :
      Effect token inv e (.setMinReward admin minReward) .unit
        (Env.emit (Env.bump { e with minReward := some minReward })
          (.minRewardUpdated (minRewardFloor e) minReward))
  | setReputationFloor {admin : Address} {floorBps : Nat} (admitted : IsAdmin inv e admin)
      (legal : floorBps ≤ maxReputationFloorBps) :
      Effect token inv e (.setReputationFloor admin floorBps) .unit
        (Env.emit (Env.bump { e with reputationFloor := some floorBps })
          (.reputationFloorUpdated (reputationFloorBps e) floorBps))
  | transferAdmin {admin newAdmin : Address} (admitted : IsAdmin inv e admin)
      (accepted : newAdmin ∈ inv.auths) :
      Effect token inv e (.transferAdmin admin newAdmin) .unit
        (Env.emit (Env.bump { e with admin := some newAdmin }) (.adminTransferred admin newAdmin))
  | upgrade {admin : Address} {newWasmHash : Bytes} (admitted : IsAdmin inv e admin) :
      Effect token inv e (.upgrade admin newWasmHash) .unit
        (Env.emit (Env.bump { e with wasm := some newWasmHash }) (.upgraded admin newWasmHash))
  | sweepFees {admin treasury : Address} {amount : Int} {paid : Env}
      (admitted : IsAdmin inv e admin) (positive : 0 < amount)
      (accrued : amount ≤ feesAccrued e)
      (configured : e.rewardToken ≠ none)
      (payout : (token e.self treasury amount).Returns
        (Env.bump { e with feesAccrued := some (feesAccrued e - amount) }) () paid) :
      Effect token inv e (.sweepFees admin treasury amount) .unit
        (paid.emit (.feesSwept treasury amount (feesAccrued e - amount)))
  | registerTask {owner : Address} {params : BatchTaskParams} {paid : Env}
      (permitted : Permitted inv e owner) (valid : ValidParams e params)
      (configured : e.rewardToken ≠ none)
      (escrowed : (token owner e.self params.reward).Returns e.bump () paid)
      (room : paid.taskCounter.getD 0 < u64Max) :
      Effect token inv e (.registerTask owner params) (.id (paid.taskCounter.getD 0 + 1))
        ((paid.countTask.saveTask inv (paid.taskCounter.getD 0 + 1) (newTask owner params)).emit
          (.taskRegistered (paid.taskCounter.getD 0 + 1) owner params.reward params.deadline
            params.condition))
  | batchRegisterTasks {owner : Address} {tasks : List BatchTaskParams} {maxTotalReward : Int}
      {taskIds : List Nat} {e' : Env}
      (permitted : Permitted inv e owner) (nonempty : tasks ≠ [])
      (small : tasks.length ≤ maxBatchSize) (ceiling : 0 < maxTotalReward)
      (valid : ∀ params ∈ tasks, ValidParams e params)
      (fit : SumsFit 0 (tasks.map BatchTaskParams.reward))
      (within : (tasks.map BatchTaskParams.reward).sum ≤ maxTotalReward)
      (configured : e.rewardToken ≠ none)
      (registered : Registered token inv owner tasks e.bump taskIds e') :
      Effect token inv e (.batchRegisterTasks owner tasks maxTotalReward) (.ids taskIds) e'
  | increaseReward {owner : Address} {taskId : Nat} {additional : Int} {task : Task} {paid : Env}
      (permitted : Permitted inv e owner) (positive : 0 < additional)
      (found : e.tasks.lookup taskId = some task) (owned : task.owner = owner)
      (unfinished : task.status.isOpen = true)
      (configured : e.rewardToken ≠ none)
      (escrowed : (token owner e.self additional).Returns e.bump () paid)
      (fits : i128Min ≤ task.reward + additional ∧ task.reward + additional ≤ i128Max) :
      Effect token inv e (.increaseReward owner taskId additional) .unit
        ((paid.saveTask inv taskId { task with reward := task.reward + additional }).emit
          (.rewardIncreased taskId (task.reward + additional)))
  | extendDeadline {owner : Address} {taskId newDeadline : Nat} {task : Task}
      (permitted : Permitted inv e owner)
      (found : e.tasks.lookup taskId = some task) (owned : task.owner = owner)
      (unfinished : task.status.isOpen = true) (later : task.deadline < newDeadline) :
      Effect token inv e (.extendDeadline owner taskId newDeadline) .unit
        ((e.bump.saveTask inv taskId { task with deadline := newDeadline }).emit
          (.deadlineExtended taskId newDeadline))
  | updateVerifier {owner : Address} {taskId : Nat} {newVerifier : Option Address} {task : Task}
      (permitted : Permitted inv e owner)
      (found : e.tasks.lookup taskId = some task) (owned : task.owner = owner)
      (unclaimed : task.status = .pending) :
      Effect token inv e (.updateVerifier owner taskId newVerifier) .unit
        ((e.bump.saveTask inv taskId { task with verifier := newVerifier }).emit
          (.verifierUpdated taskId task.verifier newVerifier))
  | claimTask {keeper : Address} {taskId : Nat} {task : Task} {missed : Option Address}
      (permitted : Permitted inv e keeper)
      (staked : 0 < minStakeFloor e →
        minStakeFloor e ≤ keeperStakeOf e keeper)
      (found : e.tasks.lookup taskId = some task) (ahead : e.timestamp < task.deadline)
      (claimable : Claimable e task missed)
      (reputable : reputationFloorBps e = 0 ∨
        reputationFloorBps e ≤ (storedRecord e keeper).scoreBps)
      (met : ConditionMet inv taskId task) :
      Effect token inv e (.claimTask keeper taskId) .unit
        (((e.bump.noteMissed inv missed).saveTask inv taskId
          { task with
            status := .claimed, claimer := some keeper, claimLedger := some e.sequence }).emit
          (.taskClaimed taskId keeper e.sequence))
  | executeTaskHeld {keeper : Address} {taskId : Nat} {proof : Bytes} {task : Task}
      {keeperNet fee : Int}
      (permitted : Permitted inv e keeper) (short : proof.length ≤ maxProofLen)
      (found : e.tasks.lookup taskId = some task) (claimed : task.status = .claimed)
      (claimer : task.claimer = some keeper) (ahead : e.timestamp < task.deadline)
      (approved : Approved inv keeper taskId proof task)
      (split : splitReward task.reward (feeBps e) = .ok (keeperNet, fee))
      (window : 0 < disputeWindowLedgers e)
      (fits : fee ≠ 0 → feesAccrued e + fee ≤ i128Max) :
      Effect token inv e (.executeTask keeper taskId proof) .unit
        (((((e.bump.savePending inv keeper (pendingCreditsOf e keeper ++
            [heldCredit e taskId keeperNet])).accrue fee).trackAction inv keeper true).saveTask inv
            taskId { task with status := .executed }).emit
          (.taskExecuted taskId keeper keeperNet proof))
  | executeTaskPaid {keeper : Address} {taskId : Nat} {proof : Bytes} {task : Task}
      {keeperNet fee : Int}
      (permitted : Permitted inv e keeper) (short : proof.length ≤ maxProofLen)
      (found : e.tasks.lookup taskId = some task) (claimed : task.status = .claimed)
      (claimer : task.claimer = some keeper) (ahead : e.timestamp < task.deadline)
      (approved : Approved inv keeper taskId proof task)
      (split : splitReward task.reward (feeBps e) = .ok (keeperNet, fee))
      (window : disputeWindowLedgers e = 0)
      (stored : keeperRewardOf e keeper + keeperNet ≤ i128Max)
      (fits : fee ≠ 0 → feesAccrued e + fee ≤ i128Max) :
      Effect token inv e (.executeTask keeper taskId proof) .unit
        (((((e.bump.credit inv keeper keeperNet).accrue fee).trackAction inv keeper true).saveTask
            inv taskId { task with status := .executed }).emit
          (.taskExecuted taskId keeper keeperNet proof))
  | cancelTask {owner : Address} {taskId : Nat} {task : Task} {paid : Env}
      (signed : owner ∈ inv.auths)
      (found : e.tasks.lookup taskId = some task) (owned : task.owner = owner)
      (unfinished : task.status.isOpen = true)
      (unlocked : task.status = .claimed → lockExpired e task = true)
      (configured : e.rewardToken ≠ none)
      (refund : (token e.self owner task.reward).Returns
        (e.bump.saveTask inv taskId { task with status := .cancelled }) () paid) :
      Effect token inv e (.cancelTask owner taskId) .unit (paid.emit (.taskCancelled taskId owner))
  | expireTask {taskId : Nat} {task : Task} {paid : Env}
      (found : e.tasks.lookup taskId = some task) (unfinished : task.status.isOpen = true)
      (passed : task.deadline ≤ e.timestamp)
      (configured : e.rewardToken ≠ none)
      (refund : (token e.self task.owner task.reward).Returns
        (e.bump.saveTask inv taskId { task with status := .expired }) () paid) :
      Effect token inv e (.expireTask taskId) .unit (paid.emit (.taskExpired taskId))
  | withdrawRewards {keeper : Address} {ready held : List PendingCredit} {balance : Int}
      {paid : Env} (signed : keeper ∈ inv.auths)
      (readied : ready = readyCredits (pendingCreditsOf e keeper) e.sequence)
      (kept : held = heldCredits (pendingCreditsOf e keeper) e.sequence)
      (fit : SumsFit (keeperRewardOf e keeper) (ready.map PendingCredit.netReward))
      (owed : balance =
        keeperRewardOf e keeper + (ready.map PendingCredit.netReward).sum)
      (positive : 0 < balance)
      (configured : e.rewardToken ≠ none)
      (payout : (token e.self keeper balance).Returns
        ((((e.finalized inv keeper ready held).emitFinalized keeper ready).bump).setKeeperReward
          inv keeper 0) () paid) :
      Effect token inv e (.withdrawRewards keeper) (.amount balance)
        (paid.emit (.rewardsWithdrawn keeper balance))
  | stakeDeposit {keeper : Address} {amount : Int} {paid : Env}
      (ready : e.admin ≠ none) (permitted : Permitted inv e keeper) (positive : 0 < amount)
      (fits : keeperStakeOf e keeper + amount ≤ i128Max)
      (configured : e.rewardToken ≠ none)
      (deposited : (token keeper e.self amount).Returns
        (e.bump.saveStake inv keeper (keeperStakeOf e keeper + amount)) () paid) :
      Effect token inv e (.stakeDeposit keeper amount) .unit
        (paid.emit (.stakeDeposited keeper amount (keeperStakeOf e keeper + amount)))
  | initiateUnbond {keeper : Address} {amount : Int}
      (ready : e.admin ≠ none) (permitted : Permitted inv e keeper) (positive : 0 < amount)
      (staked : amount ≤ keeperStakeOf e keeper)
      (single : e.unbondRequest.lookup keeper = none) :
      Effect token inv e (.initiateUnbond keeper amount) .unit
        (((e.bump.saveStake inv keeper (keeperStakeOf e keeper - amount)).saveUnbondRequest
          inv keeper
          { amount, unlockLedger := saturatingAdd u32Max e.sequence unbondDelayLedgers }).emit
          (.unbondInitiated keeper amount (saturatingAdd u32Max e.sequence unbondDelayLedgers)))
  | withdrawStake {keeper : Address} {request : UnbondRequest} {paid : Env}
      (ready : e.admin ≠ none) (signed : keeper ∈ inv.auths)
      (found : e.unbondRequest.lookup keeper = some request)
      (elapsed : request.unlockLedger ≤ e.sequence)
      (configured : e.rewardToken ≠ none)
      (payout : (token e.self keeper request.amount).Returns (e.bump.removeUnbondRequest keeper)
        () paid) :
      Effect token inv e (.withdrawStake keeper) (.amount request.amount)
        (paid.emit (.stakeWithdrawn keeper request.amount))
  | slashStake {admin keeper treasury : Address} {amount : Int} {reason : Symbol} {paid : Env}
      (admitted : IsAdmin inv e admin) (positive : 0 < amount)
      (covered : amount ≤ keeperStakeOf e keeper)
      (slashable : amount ≤ keeperStakeOf e keeper +
        (e.unbondRequest.lookup keeper).elim 0 UnbondRequest.amount)
      (numbered : e.slashCounter.getD 0 < u64Max)
      (counted : (readSlashHistory e keeper).count < u32Max)
      (totaled : (readSlashHistory e keeper).totalSlashed + amount ≤ i128Max)
      (configured : e.rewardToken ≠ none)
      (payout : (token e.self treasury amount).Returns
        ((e.bump.saveStake inv keeper (keeperStakeOf e keeper - amount)).bookSlash inv
          keeper amount reason) () paid) :
      Effect token inv e (.slash admin keeper amount reason treasury)
        (.id (e.slashCounter.getD 0 + 1))
        (paid.emit (.slashed (e.slashCounter.getD 0 + 1) keeper amount reason))
  | slashUnbond {admin keeper treasury : Address} {amount : Int} {reason : Symbol}
      {request : UnbondRequest} {paid : Env}
      (admitted : IsAdmin inv e admin) (positive : 0 < amount)
      (exceeds : keeperStakeOf e keeper < amount)
      (found : e.unbondRequest.lookup keeper = some request)
      (slashable : amount ≤ keeperStakeOf e keeper + request.amount)
      (numbered : e.slashCounter.getD 0 < u64Max)
      (counted : (readSlashHistory e keeper).count < u32Max)
      (totaled : (readSlashHistory e keeper).totalSlashed + amount ≤ i128Max)
      (configured : e.rewardToken ≠ none)
      (payout : (token e.self treasury amount).Returns
        (((e.bump.saveStake inv keeper 0).drawUnbond inv keeper request
          (amount - keeperStakeOf e keeper)).bookSlash inv keeper amount reason) () paid) :
      Effect token inv e (.slash admin keeper amount reason treasury)
        (.id (e.slashCounter.getD 0 + 1))
        (paid.emit (.slashed (e.slashCounter.getD 0 + 1) keeper amount reason))
  | setMinStake {admin : Address} {minStake : Int} (admitted : IsAdmin inv e admin)
      (legal : 0 ≤ minStake) :
      Effect token inv e (.setMinStake admin minStake) .unit
        (Env.emit (Env.bump { e with minStake := some minStake })
          (.minStakeUpdated (minStakeFloor e) minStake))
  | raiseSlashAppeal {keeper : Address} {slashId : Nat} {record : SlashRecord}
      (signed : keeper ∈ inv.auths) (found : e.slashes.lookup slashId = some record)
      (slashed : record.keeper = keeper) (unappealed : record.appealed = false)
      (within : e.sequence ≤ saturatingAdd u32Max record.ledger slashDisputeWindowLedgers) :
      Effect token inv e (.raiseSlashAppeal keeper slashId) .unit
        ((e.bump.saveSlash inv slashId { record with appealed := true }).emit
          (.slashAppealRaised slashId keeper))
  | rejectSlashAppeal {admin : Address} {slashId : Nat} {record : SlashRecord}
      (admitted : IsAdmin inv e admin) (found : e.slashes.lookup slashId = some record)
      (appealed : record.appealed = true) :
      Effect token inv e (.resolveSlashAppeal admin slashId false) .unit
        ((e.bump.removeSlash slashId).emit (.slashAppealResolved slashId false))
  | upholdSlashAppeal {admin : Address} {slashId : Nat} {record : SlashRecord} {paid : Env}
      (admitted : IsAdmin inv e admin) (found : e.slashes.lookup slashId = some record)
      (appealed : record.appealed = true)
      (fits : i128Min ≤ keeperStakeOf e record.keeper + record.amount ∧
        keeperStakeOf e record.keeper + record.amount ≤ i128Max)
      (configured : e.rewardToken ≠ none)
      (refund : (token admin e.self record.amount).Returns
        ((e.bump.removeSlash slashId).saveStake inv record.keeper
          (keeperStakeOf e record.keeper + record.amount)) () paid) :
      Effect token inv e (.resolveSlashAppeal admin slashId true) .unit
        (paid.emit (.slashAppealResolved slashId true))
  | setDisputeWindow {admin : Address} {ledgers : Nat} (admitted : IsAdmin inv e admin)
      (legal : ledgers ≤ maxExecutionDisputeWindowLedgers) :
      Effect token inv e (.setDisputeWindow admin ledgers) .unit
        (Env.emit (Env.bump { e with disputeWindowLedgers := some ledgers })
          (.disputeWindowUpdated (disputeWindowLedgers e) ledgers))
  | disputeExecution {owner keeper : Address} {taskId index : Nat} {task : Task}
      {credit : PendingCredit}
      (signed : owner ∈ inv.auths)
      (found : e.tasks.lookup taskId = some task) (owned : task.owner = owner)
      (claimer : task.claimer = some keeper)
      (located : (pendingCreditsOf e keeper).findIdx?
        (fun credit => credit.taskId == taskId) = some index)
      (read : (pendingCreditsOf e keeper)[index]? = some credit)
      (undisputed : credit.disputed = false) (within : e.sequence < credit.unlockLedger) :
      Effect token inv e (.disputeExecution owner taskId) .unit
        ((e.bump.savePending inv keeper ((pendingCreditsOf e keeper).set index
          { credit with disputed := true })).emit (.executionDisputed taskId keeper))
  | upholdDispute {admin keeper : Address} {taskId index : Nat} {task : Task}
      {credit : PendingCredit}
      (admitted : IsAdmin inv e admin)
      (found : e.tasks.lookup taskId = some task) (claimer : task.claimer = some keeper)
      (located : (pendingCreditsOf e keeper).findIdx?
        (fun credit => credit.taskId == taskId && credit.disputed) = some index)
      (read : (pendingCreditsOf e keeper)[index]? = some credit)
      (fits : 0 < credit.netReward → feesAccrued e + credit.netReward ≤ i128Max) :
      Effect token inv e (.resolveExecutionDispute admin taskId true) .unit
        (((e.bump.savePending inv keeper ((pendingCreditsOf e keeper).eraseIdx
          index)).accrue (max credit.netReward 0)).emit (.executionDisputeResolved taskId true))
  | releaseDispute {admin keeper : Address} {taskId index : Nat} {task : Task}
      {credit : PendingCredit}
      (admitted : IsAdmin inv e admin)
      (found : e.tasks.lookup taskId = some task) (claimer : task.claimer = some keeper)
      (located : (pendingCreditsOf e keeper).findIdx?
        (fun credit => credit.taskId == taskId && credit.disputed) = some index)
      (read : (pendingCreditsOf e keeper)[index]? = some credit) :
      Effect token inv e (.resolveExecutionDispute admin taskId false) .unit
        ((e.bump.savePending inv keeper ((pendingCreditsOf e keeper).set index
          { credit with disputed := false })).emit (.executionDisputeResolved taskId false))

end KeeperNetwork
