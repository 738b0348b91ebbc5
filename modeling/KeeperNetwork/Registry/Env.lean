import KeeperNetwork.Lib.FiniteMap
import KeeperNetwork.Registry.Types

/-! The environment a registry call runs in: ledger clock, token balances and contract storage. -/

namespace KeeperNetwork

open Soroban

/-- The registry's entry points with their arguments. -/
inductive Call where
  | initializeRegistry (admin rewardToken : Address) (feeBps : Nat)
  | pause (admin : Address)
  | unpause (admin : Address)
  | setFeeBps (admin : Address) (newBps : Nat)
  | setMinReward (admin : Address) (minReward : Int)
  | setReputationFloor (admin : Address) (floorBps : Nat)
  | transferAdmin (admin newAdmin : Address)
  | upgrade (admin : Address) (newWasmHash : Bytes)
  | sweepFees (admin treasury : Address) (amount : Int)
  | registerTask (owner : Address) (params : BatchTaskParams)
  | batchRegisterTasks (owner : Address) (tasks : List BatchTaskParams) (maxTotalReward : Int)
  | increaseReward (owner : Address) (taskId : Nat) (additional : Int)
  | extendDeadline (owner : Address) (taskId newDeadline : Nat)
  | updateVerifier (owner : Address) (taskId : Nat) (newVerifier : Option Address)
  | claimTask (keeper : Address) (taskId : Nat)
  | executeTask (keeper : Address) (taskId : Nat) (proof : Bytes)
  | cancelTask (owner : Address) (taskId : Nat)
  | expireTask (taskId : Nat)
  | withdrawRewards (keeper : Address)
  | stakeDeposit (keeper : Address) (amount : Int)
  | initiateUnbond (keeper : Address) (amount : Int)
  | withdrawStake (keeper : Address)
  | slash (admin keeper : Address) (amount : Int) (reason : Symbol) (treasury : Address)
  | setMinStake (admin : Address) (minStake : Int)
  | raiseSlashAppeal (keeper : Address) (slashId : Nat)
  | resolveSlashAppeal (admin : Address) (slashId : Nat) (upholdAppeal : Bool)
  | setDisputeWindow (admin : Address) (ledgers : Nat)
  | disputeExecution (owner : Address) (taskId : Nat)
  | resolveExecutionDispute (admin : Address) (taskId : Nat) (upholdDispute : Bool)
  deriving DecidableEq, Repr

/-- What a successful call returns. -/
inductive Value where
  | unit
  | id (id : Nat)
  | ids (ids : List Nat)
  | amount (amount : Int)
  deriving DecidableEq, Repr

/-- The persistent storage entries, each of which has a lifetime of its own. -/
inductive DataKey where
  | task (taskId : Nat)
  | keeperReward (keeper : Address)
  | keeperStake (keeper : Address)
  | unbondRequest (keeper : Address)
  | slash (slashId : Nat)
  | pendingReward (keeper : Address)
  | slashHistory (keeper : Address)
  | reputation (keeper : Address)
  deriving DecidableEq, Repr

/--
Everything the ledger holds that a registry call can read or write.

An instance entry that was never written is absent, and its reader supplies the default.
-/
structure World where
  self : Address
  sequence : Nat
  timestamp : Nat
  balances : Balances
  admin : Option Address
  rewardToken : Option Address
  feeBps : Option Nat
  paused : Option Bool
  taskCounter : Option Nat
  feesAccrued : Option Int
  minReward : Option Int
  minStake : Option Int
  slashCounter : Option Nat
  disputeWindowLedgers : Option Nat
  reputationFloor : Option Nat
  /-- Last ledger at which the instance entry is live. -/
  instanceLiveUntil : Nat
  tasks : Finmap fun _ : Nat => Task
  keeperReward : Finmap fun _ : Address => Int
  keeperStake : Finmap fun _ : Address => Int
  unbondRequest : Finmap fun _ : Address => UnbondRequest
  slashes : Finmap fun _ : Nat => SlashRecord
  pendingReward : Finmap fun _ : Address => List PendingCredit
  slashHistory : Finmap fun _ : Address => SlashHistory
  reputation : Finmap fun _ : Address => ReputationRecord
  /-- Last ledger at which a persistent entry is live. -/
  liveUntil : DataKey → Option Nat
  events : List Event
  /-- The code that replaced this contract, if it was ever upgraded. -/
  wasm : Option Bytes

/-- The host's record of one committed call. -/
structure Receipt where
  before : World
  call : Call
  value : Value
  after : World

/-- What has happened to the registry: calls of its own, and tokens sent to it from outside. -/
inductive Entry where
  | call (receipt : Receipt)
  | outside (amount : Int)

/-- The ledger together with the history that led to it, latest entry first. -/
structure Env extends World where
  history : List Entry

instance : Coe Env World := ⟨Env.toWorld⟩

/-- A contract program over the environment. -/
abbrev Contract := Program KeeperError Env

/-- The reward token's transfer, as the registry can invoke it. -/
abbrev Token := Address → Address → Int → Contract Unit

/-- What the host and the other contracts contribute to one call. -/
structure Invocation where
  auths : List Address
  /-- A condition contract's answer for a task, absent when the call to it failed. -/
  isMet : Address → Nat → Option Bool
  /-- A verifier's answer for a proof, absent when the call to it failed. -/
  verify : Address → Nat → Address → Bytes → Option Bool
  /-- Ledgers of lifetime the host gives to a new persistent entry. -/
  freshTtl : Nat

namespace Env

/-- Lifetimes after writing an entry: a new entry gets one, an old entry keeps its own. -/
def granted (e : Env) (inv : Invocation) (key : DataKey) : DataKey → Option Nat :=
  Function.update e.liveUntil key (some ((e.liveUntil key).getD (e.sequence + inv.freshTtl)))

/-- Renew the lifetime of the instance. -/
@[simps] def bump (e : Env) : Env :=
  { e with
    instanceLiveUntil :=
      extendTtl e.sequence instanceBumpThreshold instanceBumpLedgers e.instanceLiveUntil }

/-- Renew the lifetime of a persistent entry. -/
@[simps] def extend (e : Env) (key : DataKey) (threshold ledgers : Nat) : Env :=
  { e with
    liveUntil := Function.update e.liveUntil key
      ((e.liveUntil key).map (extendTtl e.sequence threshold ledgers)) }

@[simps] def emit (e : Env) (event : Event) : Env :=
  { e with events := e.events ++ [event] }

@[simps] def setTask (e : Env) (inv : Invocation) (taskId : Nat) (task : Task) : Env :=
  { e with
    tasks := e.tasks.insert taskId task
    liveUntil := e.granted inv (.task taskId) }

/-- Write a keeper's withdrawable balance. -/
@[simps] def setKeeperReward (e : Env) (inv : Invocation) (keeper : Address) (amount : Int) : Env :=
  { e with
    keeperReward := e.keeperReward.insert keeper amount
    liveUntil := e.granted inv (.keeperReward keeper) }

@[simps] def setKeeperStake (e : Env) (inv : Invocation) (keeper : Address) (amount : Int) : Env :=
  { e with
    keeperStake := e.keeperStake.insert keeper amount
    liveUntil := e.granted inv (.keeperStake keeper) }

@[simps] def setUnbondRequest (e : Env) (inv : Invocation) (keeper : Address)
    (request : UnbondRequest) : Env :=
  { e with
    unbondRequest := e.unbondRequest.insert keeper request
    liveUntil := e.granted inv (.unbondRequest keeper) }

@[simps] def removeUnbondRequest (e : Env) (keeper : Address) : Env :=
  { e with
    unbondRequest := e.unbondRequest.erase keeper
    liveUntil := Function.update e.liveUntil (.unbondRequest keeper) none }

@[simps] def setSlash (e : Env) (inv : Invocation) (slashId : Nat) (record : SlashRecord) : Env :=
  { e with
    slashes := e.slashes.insert slashId record
    liveUntil := e.granted inv (.slash slashId) }

@[simps] def removeSlash (e : Env) (slashId : Nat) : Env :=
  { e with
    slashes := e.slashes.erase slashId
    liveUntil := Function.update e.liveUntil (.slash slashId) none }

@[simps] def setPendingReward (e : Env) (inv : Invocation) (keeper : Address)
    (credits : List PendingCredit) : Env :=
  { e with
    pendingReward := e.pendingReward.insert keeper credits
    liveUntil := e.granted inv (.pendingReward keeper) }

@[simps] def removePendingReward (e : Env) (keeper : Address) : Env :=
  { e with
    pendingReward := e.pendingReward.erase keeper
    liveUntil := Function.update e.liveUntil (.pendingReward keeper) none }

@[simps] def setSlashHistory (e : Env) (inv : Invocation) (keeper : Address)
    (history : SlashHistory) : Env :=
  { e with
    slashHistory := e.slashHistory.insert keeper history
    liveUntil := e.granted inv (.slashHistory keeper) }

@[simps] def setReputation (e : Env) (inv : Invocation) (keeper : Address)
    (record : ReputationRecord) : Env :=
  { e with
    reputation := e.reputation.insert keeper record
    liveUntil := e.granted inv (.reputation keeper) }

end Env

end KeeperNetwork
