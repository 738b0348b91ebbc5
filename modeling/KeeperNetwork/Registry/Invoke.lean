import KeeperNetwork.Registry.Admin
import KeeperNetwork.Registry.Batch
import KeeperNetwork.Registry.Staking

/-! Dispatching a call, committing or rolling it back, and the runs a registry can make. -/

namespace KeeperNetwork

open Soroban

def runCall (token : Token) (inv : Invocation) : Call → Contract Value
  | .initializeRegistry admin rewardToken feeBps =>
      (fun _ => .unit) <$> initializeRegistry inv admin rewardToken feeBps
  | .pause admin => (fun _ => .unit) <$> pause inv admin
  | .unpause admin => (fun _ => .unit) <$> unpause inv admin
  | .setFeeBps admin newBps => (fun _ => .unit) <$> setFeeBps inv admin newBps
  | .setMinReward admin minReward => (fun _ => .unit) <$> setMinReward inv admin minReward
  | .setReputationFloor admin floorBps =>
      (fun _ => .unit) <$> setReputationFloor inv admin floorBps
  | .transferAdmin admin newAdmin => (fun _ => .unit) <$> transferAdmin inv admin newAdmin
  | .upgrade admin newWasmHash => (fun _ => .unit) <$> upgrade inv admin newWasmHash
  | .sweepFees admin treasury amount =>
      (fun _ => .unit) <$> sweepFees token inv admin treasury amount
  | .registerTask owner params => .id <$> registerTask token inv owner params
  | .batchRegisterTasks owner tasks maxTotalReward =>
      .ids <$> batchRegisterTasks token inv owner tasks maxTotalReward
  | .increaseReward owner taskId additional =>
      (fun _ => .unit) <$> increaseReward token inv owner taskId additional
  | .extendDeadline owner taskId newDeadline =>
      (fun _ => .unit) <$> extendDeadline inv owner taskId newDeadline
  | .updateVerifier owner taskId newVerifier =>
      (fun _ => .unit) <$> updateVerifier inv owner taskId newVerifier
  | .claimTask keeper taskId => (fun _ => .unit) <$> claimTask inv keeper taskId
  | .executeTask keeper taskId proof => (fun _ => .unit) <$> executeTask inv keeper taskId proof
  | .cancelTask owner taskId => (fun _ => .unit) <$> cancelTask token inv owner taskId
  | .expireTask taskId => (fun _ => .unit) <$> expireTask token inv taskId
  | .withdrawRewards keeper => .amount <$> withdrawRewards token inv keeper
  | .stakeDeposit keeper amount => (fun _ => .unit) <$> stakeDeposit token inv keeper amount
  | .initiateUnbond keeper amount => (fun _ => .unit) <$> initiateUnbond inv keeper amount
  | .withdrawStake keeper => .amount <$> withdrawStake token inv keeper
  | .slash admin keeper amount reason treasury =>
      .id <$> slash token inv admin keeper amount reason treasury
  | .setMinStake admin minStake => (fun _ => .unit) <$> setMinStake inv admin minStake
  | .raiseSlashAppeal keeper slashId => (fun _ => .unit) <$> raiseSlashAppeal inv keeper slashId
  | .resolveSlashAppeal admin slashId upholdAppeal =>
      (fun _ => .unit) <$> resolveSlashAppeal token inv admin slashId upholdAppeal
  | .setDisputeWindow admin ledgers => (fun _ => .unit) <$> setDisputeWindow inv admin ledgers
  | .disputeExecution owner taskId => (fun _ => .unit) <$> disputeExecution inv owner taskId
  | .resolveExecutionDispute admin taskId upholdDispute =>
      (fun _ => .unit) <$> resolveExecutionDispute inv admin taskId upholdDispute

def recordedCall (token : Token) (inv : Invocation) (call : Call) : Contract Value := do
  let before ← get
  let value ← runCall token inv call
  modify fun after => { after with
    history := .call ⟨before, call, value, after⟩ :: after.history }
  return value

/-- Invoke the registry: a call that fails is rolled back, events and history included. -/
def invoke (token : Token) (inv : Invocation) (call : Call) (e : Env) :
    Except Failure Value × Env :=
  (recordedCall token inv call).commit e

/-- The call would go through in this state. -/
def Succeeds (token : Token) (inv : Invocation) (call : Call) (e : Env) : Prop :=
  ∃ value e', invoke token inv call e = (.ok value, e')

def exactTransfer : Token := fun src dst amount e =>
  match e.balances.move src dst amount with
  | some balances => .ok () { e with balances }
  | none => .error .transferRefused e

/-- A token whose successful transfers move the exact amount and do nothing else. -/
def ExactToken (token : Token) : Prop :=
  -- It may refuse a transfer for reasons of its own.
  ∀ src dst amount e e', (token src dst amount).Returns e () e' →
    (exactTransfer src dst amount).Returns e () e'

/-- One thing that can happen to a registry whose token behaves as given. -/
inductive Step (behaves : Call → Token → Prop) : Env → Env → Prop where
  | call (token : Token) (inv : Invocation) (call : Call) (e : Env)
      (behaved : behaves call token)
      -- The registry signs nothing: it has no account logic and never calls itself.
      (unsigned : e.self ∉ inv.auths)
      (running : e.wasm = none) :
      Step behaves e (invoke token inv call e).2
  | close (timestamp : Nat) (e : Env)
      (counted : e.sequence < u32Max) (later : e.timestamp ≤ timestamp)
      (fits : timestamp ≤ u64Max) :
      Step behaves e { e with sequence := e.sequence + 1, timestamp }
  /-- Token balances change without the registry, which can only gain from it. -/
  | outside (balances : Balances) (e : Env)
      (gained : e.balances.of e.self ≤ balances.of e.self) :
      Step behaves e { e with
        balances
        history := .outside (balances.of e.self - e.balances.of e.self) :: e.history }

/-- Any number of steps. -/
abbrev Run (behaves : Call → Token → Prop) := Relation.ReflTransGen (Step behaves)

/-- A step with a token that moves exact amounts. -/
abbrev ExactStep := Step fun _ token => ExactToken token

/-- A run with exact tokens. -/
abbrev ExactRun := Run fun _ token => ExactToken token

/-- A deployed registry nobody has called yet. -/
structure Blank (e : Env) : Prop where
  admin : e.admin = none
  rewardToken : e.rewardToken = none
  feeBps : e.feeBps = none
  paused : e.paused = none
  taskCounter : e.taskCounter = none
  feesAccrued : e.feesAccrued = none
  minReward : e.minReward = none
  minStake : e.minStake = none
  slashCounter : e.slashCounter = none
  disputeWindowLedgers : e.disputeWindowLedgers = none
  reputationFloor : e.reputationFloor = none
  tasks : e.tasks = ∅
  keeperReward : e.keeperReward = ∅
  keeperStake : e.keeperStake = ∅
  unbondRequest : e.unbondRequest = ∅
  slashes : e.slashes = ∅
  pendingReward : e.pendingReward = ∅
  slashHistory : e.slashHistory = ∅
  reputation : e.reputation = ∅
  liveUntil : e.liveUntil = fun _ => none
  events : e.events = []
  wasm : e.wasm = none
  history : e.history = []
  sequence : e.sequence ≤ u32Max
  timestamp : e.timestamp ≤ u64Max

/-- A registry on which exactly the initialization has succeeded. -/
def Fresh (e : Env) : Prop :=
  ∃ blank inv admin rewardToken feeBps, Blank blank ∧ blank.self ∉ inv.auths ∧
    (initializeRegistry inv admin rewardToken feeBps).Returns blank () e

end KeeperNetwork
