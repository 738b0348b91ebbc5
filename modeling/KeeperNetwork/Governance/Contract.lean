import KeeperNetwork.Governance.Types
import KeeperNetwork.Lib.Trace

/-! The governance contract's entry points, and the runs they make up. -/

namespace KeeperNetwork.Governance

open Soroban

/-- Store the contract's dependencies and the default parameters. -/
def initializeGovernance (inv : Invocation) (admin kprsToken registry : Address) :
    Contract Unit := do
  rejectIf ((← get).initialized = true) .alreadyInitialized
  modify fun e => { e with
    admin := some admin
    kprsToken := some kprsToken
    registry := some registry
    proposalThreshold := some defaultProposalThreshold
    votingPeriod := some defaultVotingPeriod
    timelockDelay := some defaultTimelockDelay
    quorumBps := some defaultQuorumBps
    proposalCount := some 0
    totalSupply := some inv.token.totalSupply
    initialized := true }
  modify fun e => e.emit (.governanceInitialized admin kprsToken registry)

/-- An account's current token balance. -/
def internalGetVotingPower (inv : Invocation) (account : Address) : Contract Int := do
  let _ ← okOr (← get).kprsToken .notInitialized
  return inv.token.balance account

/-- An account's token balance at a past ledger. -/
def internalGetVotingPowerAt (inv : Invocation) (account : Address) (ledger : Nat) :
    Contract Int := do
  let _ ← okOr (← get).kprsToken .notInitialized
  expect (inv.token.balanceAt account ledger)

/-- The bounds an action's value has to lie in. -/
def GovernableAction.Valid : GovernableAction → Prop
  | .setFeeBps bps => bps ≤ 10000
  | .setMinReward min => 0 ≤ min
  | .setReputationFloor floor => floor ≤ 10000
  | .addTreasuryRecipient _ sharesBps => sharesBps ≠ 0 ∧ sharesBps ≤ 10000
  | .updateTreasuryShares _ newSharesBps => newSharesBps ≠ 0 ∧ newSharesBps ≤ 10000
  | .setVotingPeriod period => 14400 ≤ period ∧ period ≤ 201600
  | .setTimelockDelay delay => 14400 ≤ delay ∧ delay ≤ 86400
  | .setQuorumBps bps => 100 ≤ bps ∧ bps ≤ 2000
  | .setProposalThreshold threshold => 0 ≤ threshold
  | _ => True

instance (action : GovernableAction) : Decidable action.Valid := by
  cases action <;> unfold GovernableAction.Valid <;> infer_instance

/-- Reject an action whose value is out of bounds. -/
def internalValidateAction (action : GovernableAction) : Contract Unit :=
  rejectIf (¬ action.Valid) .invalidParameterValue

def newProposal (id : Nat) (proposer : Address) (action : GovernableAction)
    (createdAt votingEnd : Nat) : Proposal :=
  { id, proposer, action, createdAt, votingEnd
    status := .active
    eta := 0
    votesFor := 0
    votesAgainst := 0
    votesAbstain := 0 }

def createProposal (inv : Invocation) (proposer : Address) (action : GovernableAction) :
    Contract Nat := do
  requireAuth inv.auths proposer
  rejectIf ((← get).initialized = false) .notInitialized
  let balance ← internalGetVotingPower inv proposer
  rejectIf (balance < (← get).threshold) .insufficientProposerBalance
  internalValidateAction action
  let proposalId ← okOr (checkedSucc u64Max (← get).count) .arithmeticOverflow
  let e ← get
  let votingEnd := saturatingAdd u32Max e.sequence e.period
  modify fun e => e.store proposalId (newProposal proposalId proposer action e.sequence votingEnd)
  modify fun e => { e with proposalCount := some proposalId }
  modify fun e => e.emit (.proposalCreated proposalId proposer votingEnd)
  return proposalId

def vote (inv : Invocation) (voter : Address) (proposalId : Nat) (choice : VoteChoice) :
    Contract Unit := do
  requireAuth inv.auths voter
  rejectIf ((← get).initialized = false) .notInitialized
  let p ← okOr ((← get).proposals.lookup proposalId) .proposalNotFound
  rejectIf (p.status ≠ .active) .votingEnded
  rejectIf (p.votingEnd < (← get).sequence) .votingEnded
  rejectIf (((← get).votes.lookup (proposalId, voter)).isSome = true) .alreadyVoted
  let weight ← internalGetVotingPowerAt inv voter p.createdAt
  rejectIf (weight ≤ 0) .insufficientVotingPower
  let votes ← okOr (checkedAdd (p.tally choice) weight) .arithmeticOverflow
  modify fun e => e.store proposalId (p.withTally choice votes)
  modify fun e => { e with votes := e.votes.insert (proposalId, voter) ⟨choice, weight⟩ }
  modify fun e => e.emit (.voteCast proposalId voter choice weight)

def judge (p : Proposal) (proposalId : Nat) (totalVotes quorum : Int) : ProposalStatus × Event :=
  if totalVotes < quorum then (.defeated, .proposalDefeated proposalId totalVotes quorum)
  else if p.votesFor ≤ p.votesAgainst then
    (.defeated, .proposalDefeated proposalId p.votesFor p.votesAgainst)
  else (.passed, .proposalPassed proposalId p.votesFor p.votesAgainst)

/-- Settle a proposal whose voting period is over. -/
def evaluateProposal (proposalId : Nat) : Contract ProposalStatus := do
  rejectIf ((← get).initialized = false) .notInitialized
  let p ← okOr ((← get).proposals.lookup proposalId) .proposalNotFound
  if p.status ≠ .active then pure p.status
  else do
    rejectIf ((← get).sequence ≤ p.votingEnd) .votingStillActive
    let totalVotes ← okOr p.totalVotes .arithmeticOverflow
    let quorum ← expect (← get).quorumThreshold
    let outcome := judge p proposalId totalVotes quorum
    modify fun e => e.emit outcome.2
    modify fun e => e.store proposalId { p with status := outcome.1 }
    return outcome.1

/-- The proposal to queue: an open one is settled first, in the same call, and has to pass. -/
def settleOpen (proposalId : Nat) (stored : Proposal) : Contract Proposal :=
  if stored.status = .active then do
    let status ← evaluateProposal proposalId
    rejectIf (status ≠ .passed) .passingThresholdNotMet
    okOr ((← get).proposals.lookup proposalId) .proposalNotFound
  else pure stored

/-- Start the timelock of a passed proposal. -/
def queueProposal (proposalId : Nat) : Contract Nat := do
  rejectIf ((← get).initialized = false) .notInitialized
  let stored ← okOr ((← get).proposals.lookup proposalId) .proposalNotFound
  if stored.status = .queued then pure stored.eta
  else do
    let p ← settleOpen proposalId stored
    rejectIf (p.status ≠ .passed) .proposalNotQueued
    let e ← get
    let eta ← okOr (checkedAddNat u64Max e.sequence e.delay) .arithmeticOverflow
    modify fun e => e.store proposalId { p with status := .queued, eta }
    modify fun e => e.emit (.proposalQueued proposalId eta)
    return eta

/-- Apply an action: only the contract's own parameters are ever written. -/
def Env.applyAction (e : Env) : GovernableAction → Env
  | .setVotingPeriod period => { e with votingPeriod := some period }
  | .setTimelockDelay delay => { e with timelockDelay := some delay }
  | .setQuorumBps bps => { e with quorumBps := some bps }
  | .setProposalThreshold threshold => { e with proposalThreshold := some threshold }
  | _ => e

/-- Execute a queued proposal whose timelock has elapsed. -/
def executeProposal (proposalId : Nat) : Contract Unit := do
  rejectIf ((← get).initialized = false) .notInitialized
  let p ← okOr ((← get).proposals.lookup proposalId) .proposalNotFound
  rejectIf (p.status = .executed) .proposalAlreadyExecuted
  rejectIf (p.status ≠ .queued) .proposalNotQueued
  rejectIf ((← get).sequence < p.eta) .timelockNotElapsed
  modify fun e => e.applyAction p.action
  modify fun e => e.store proposalId { p with status := .executed }
  modify fun e => e.emit (.proposalExecuted proposalId)

def cancelProposal (inv : Invocation) (caller : Address) (proposalId : Nat) : Contract Unit := do
  requireAuth inv.auths caller
  rejectIf ((← get).initialized = false) .notInitialized
  let admin ← expect (← get).admin
  let p ← okOr ((← get).proposals.lookup proposalId) .proposalNotFound
  rejectIf (p.status = .executed) .cannotCancelExecuted
  rejectIf (p.status = .cancelled) .proposalAlreadyCancelled
  rejectIf (caller ≠ p.proposer ∧ caller ≠ admin) .unauthorized
  modify fun e => e.store proposalId { p with status := .cancelled }
  modify fun e => e.emit (.proposalCancelled proposalId caller)

def getProposalStatus (proposalId : Nat) : Contract ProposalStatus := do
  let e ← get
  let p ← okOr (e.proposals.lookup proposalId) .proposalNotFound
  if p.status ≠ .active then pure p.status
  else if e.sequence ≤ p.votingEnd then pure .active
  else do
    let totalVotes ← okOr p.totalVotes .arithmeticOverflow
    let quorum ← expect e.quorumThreshold
    if totalVotes < quorum ∨ p.votesFor ≤ p.votesAgainst then pure .defeated
    else pure .passed

/-- The governance contract's entry points with their arguments. -/
inductive Call where
  | initializeGovernance (admin kprsToken registry : Address)
  | createProposal (proposer : Address) (action : GovernableAction)
  | vote (voter : Address) (proposalId : Nat) (choice : VoteChoice)
  | evaluateProposal (proposalId : Nat)
  | queueProposal (proposalId : Nat)
  | executeProposal (proposalId : Nat)
  | cancelProposal (caller : Address) (proposalId : Nat)
  deriving DecidableEq, Repr

/-- What a successful call returns. -/
inductive Value where
  | unit
  | proposalId (id : Nat)
  | status (status : ProposalStatus)
  | eta (ledger : Nat)
  deriving DecidableEq, Repr

def perform (inv : Invocation) : Call → Contract Value
  | .initializeGovernance admin kprsToken registry =>
    (fun _ => .unit) <$> initializeGovernance inv admin kprsToken registry
  | .createProposal proposer action => .proposalId <$> createProposal inv proposer action
  | .vote voter proposalId choice => (fun _ => .unit) <$> vote inv voter proposalId choice
  | .evaluateProposal proposalId => .status <$> evaluateProposal proposalId
  | .queueProposal proposalId => .eta <$> queueProposal proposalId
  | .executeProposal proposalId => (fun _ => .unit) <$> executeProposal proposalId
  | .cancelProposal caller proposalId =>
    (fun _ => .unit) <$> cancelProposal inv caller proposalId

/-- What can happen to the governance contract. -/
inductive Label where
  | call (call : Call)
  | refused (call : Call)
  | close (sequence : Nat)
  deriving DecidableEq, Repr

/-- One thing that happens to the governance contract, with any signatures and any token. -/
inductive Step : Env → Label → Env → Prop
  | called {e e' : Env} {inv : Invocation} {call : Call} {value : Value}
      (ran : (perform inv call).Returns e value e') : Step e (.call call) e'
  | refused {e : Env} {inv : Invocation} {call : Call} {failure : Fault GovernanceError}
      (failed : (perform inv call).Fails e failure) : Step e (.refused call) e
  | closed {e : Env} {sequence : Nat} (onward : e.sequence < sequence)
      (counted : sequence ≤ u32Max) : Step e (.close sequence) { e with sequence }

/-- One move of a scripted run. -/
inductive Turn where
  | call (inv : Invocation) (call : Call)
  | close (sequence : Nat)

def Turn.label : Turn → Label
  | .call _ entry => .call entry
  | .close sequence => .close sequence

def Turn.next (e : Env) : Turn → Env
  | .call inv entry => ((perform inv entry).commit e).2
  | .close sequence => { e with sequence }

/-- The turn is a call that returns, or a ledger that may open. -/
def Turn.Legal (e : Env) : Turn → Prop
  | .call inv entry => (perform inv entry).succeeds e = true
  | .close sequence => e.sequence < sequence ∧ sequence ≤ u32Max

instance (e : Env) (turn : Turn) : Decidable (turn.Legal e) := by
  cases turn <;> unfold Turn.Legal <;> infer_instance

theorem Turn.Legal.step {e : Env} {turn : Turn} (legal : turn.Legal e) :
    Step e turn.label (turn.next e) := by
  cases turn with
  | call inv entry =>
    obtain ⟨_, ran⟩ := EStateM.returns_of_succeeds legal
    exact .called ran
  | close sequence => exact .closed legal.1 legal.2

theorem scripted {e : Env} {script : List Turn}
    (playable : Trace.Playable Turn.next Turn.Legal e script) :
    Trace Step e (script.map Turn.label).reverse (script.foldl Turn.next e) :=
  Trace.of_playable (fun _ _ legal => legal.step) script playable

end KeeperNetwork.Governance
