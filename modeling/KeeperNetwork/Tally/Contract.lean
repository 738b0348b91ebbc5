import Mathlib.Algebra.BigOperators.Group.Finset.Basic
import KeeperNetwork.Lib.FiniteMap
import KeeperNetwork.Lib.Trace
import KeeperNetwork.Soroban.Contract

/-! The governance contract that caches a tally of every proposal's votes. -/

namespace KeeperNetwork.Tally

open Soroban

/-- The errors the contract returns. -/
inductive GovernanceError where
  | notInitialized
  | insufficientHoldings
  | proposalNotFound
  | votingClosed
  | alreadyVoted
  | cannotExecute
  | proposalNotPassed
  | alreadyExecuted
  deriving DecidableEq, Repr

def defaultVotingPeriodLedgers : Nat := 120960

def defaultTimelockLedgers : Nat := 34560

/-- A quorum of a quarter, in basis points. -/
def defaultQuorumBps : Nat := 2500

/-- A simple majority, in basis points. -/
def defaultPassingThresholdBps : Nat := 5000

/-- What a creator of proposals must hold. -/
def minProposalThreshold : Int := 1000000

/-- What a proposal would change. -/
inductive ProposalType where
  | changeFeeBps (bps : Nat)
  | changeMinReward (reward : Int)
  | changeVotingPeriod (ledgers : Nat)
  | changeTimelock (ledgers : Nat)
  deriving DecidableEq, Repr

/-- The stage a proposal is recorded at. -/
inductive ProposalStatus where
  | opened
  | failed
  | passed
  | queued
  | executed
  | cancelled
  deriving DecidableEq, Repr

/-- A proposal with the ledgers its stages begin at. -/
structure Proposal where
  id : Nat
  creator : Address
  proposalType : ProposalType
  status : ProposalStatus
  createdLedger : Nat
  votingPeriodLedgers : Nat
  timelockLedgers : Nat
  votingEndLedger : Nat
  executionStartLedger : Nat
  deriving DecidableEq, Repr

def Proposal.VotingClosed (proposal : Proposal) (currentLedger : Nat) : Prop :=
  proposal.votingEndLedger ≤ currentLedger

/-- The timelock has ended. -/
def Proposal.CanExecute (proposal : Proposal) (currentLedger : Nat) : Prop :=
  proposal.executionStartLedger ≤ currentLedger

instance (proposal : Proposal) (currentLedger : Nat) :
    Decidable (proposal.VotingClosed currentLedger) :=
  inferInstanceAs (Decidable (_ ≤ _))

instance (proposal : Proposal) (currentLedger : Nat) :
    Decidable (proposal.CanExecute currentLedger) :=
  inferInstanceAs (Decidable (_ ≤ _))

/-- What a voter chooses. -/
inductive VoteChoice where
  | yes
  | no
  | abstain
  deriving DecidableEq, Repr

/-- The cached sums of the votes on a proposal. -/
structure VoteTally where
  yesVotes : Nat
  noVotes : Nat
  abstainVotes : Nat
  totalVotingPower : Nat
  deriving DecidableEq, Repr

namespace VoteTally

def new : VoteTally := ⟨0, 0, 0, 0⟩

/-- Count a vote, stopping at the largest number. -/
def add (tally : VoteTally) (choice : VoteChoice) (votingPower : Nat) : VoteTally :=
  let total := saturatingAdd u64Max tally.totalVotingPower votingPower
  match choice with
  | .yes => { tally with
      yesVotes := saturatingAdd u64Max tally.yesVotes votingPower, totalVotingPower := total }
  | .no => { tally with
      noVotes := saturatingAdd u64Max tally.noVotes votingPower, totalVotingPower := total }
  | .abstain => { tally with
      abstainVotes := saturatingAdd u64Max tally.abstainVotes votingPower
      totalVotingPower := total }

/-- Whether the tally meets quorum and has passed, absent when a sum overflows. -/
def isPassed (tally : VoteTally) (quorumBps passingThresholdBps : Nat) : Option Bool :=
  if tally.totalVotingPower = 0 then some false
  else do
    let decided ← checkedAddNat u64Max tally.yesVotes tally.noVotes
    let votesCast ← checkedAddNat u64Max decided tally.abstainVotes
    let quorumVotes := asU64 (tally.totalVotingPower * quorumBps / 10000 : Nat)
    if votesCast < quorumVotes then some false
    else do
      let yesOnly ← checkedAddNat u64Max tally.yesVotes tally.noVotes
      if yesOnly = 0 then some false
      else
        let passingYes := asU64 (yesOnly * passingThresholdBps / 10000 : Nat)
        some (decide (passingYes ≤ tally.yesVotes))

end VoteTally

/-- The ledger clock, the token contracts and the governance storage. -/
structure Env where
  sequence : Nat
  tokens : Address → Balances
  tokenAddress : Option Address
  votingPeriodLedgers : Option Nat
  timelockLedgers : Option Nat
  quorumBps : Option Nat
  passingThresholdBps : Option Nat
  proposalCounter : Option Nat
  proposals : Finmap fun _ : Nat => Proposal
  voteRecords : Finset (Nat × Address)
  tallies : Finmap fun _ : Nat => VoteTally

abbrev Contract := Program GovernanceError Env

namespace Env

variable (e : Env)

def nextProposalId : Nat := e.proposalCounter.getD 0

def voterBalance (voter : Address) : Option Int :=
  e.tokenAddress.map fun address => (e.tokens address).of voter

end Env

def deployed (sequence : Nat) (tokens : Address → Balances) : Env :=
  { sequence, tokens
    tokenAddress := none
    votingPeriodLedgers := none
    timelockLedgers := none
    quorumBps := none
    passingThresholdBps := none
    proposalCounter := none
    proposals := ∅
    voteRecords := ∅
    tallies := ∅ }

/-- Set the token and the default parameters, which nothing keeps from happening again. -/
def initializeTally (tokenAddress : Address) : Contract Unit :=
  modify fun e => { e with
    tokenAddress := some tokenAddress
    votingPeriodLedgers := some defaultVotingPeriodLedgers
    timelockLedgers := some defaultTimelockLedgers
    quorumBps := some defaultQuorumBps
    passingThresholdBps := some defaultPassingThresholdBps
    proposalCounter := some 0 }

def createProposal (auths : List Address) (creator : Address) (proposalType : ProposalType) :
    Contract Nat := do
  rejectIf ((← get).tokenAddress = none) .notInitialized
  requireAuth auths creator
  let balance ← okOr ((← get).voterBalance creator) .notInitialized
  rejectIf (balance < minProposalThreshold) .insufficientHoldings
  let e ← get
  let id := e.nextProposalId
  let counter ← expect (checkedSucc u64Max id)
  let period := e.votingPeriodLedgers.getD defaultVotingPeriodLedgers
  let timelock := e.timelockLedgers.getD defaultTimelockLedgers
  let votingEnd ← expect (checkedAddNat u32Max e.sequence period)
  let executionStart ← expect (checkedAddNat u32Max votingEnd timelock)
  modify fun e => { e with
    proposalCounter := some counter
    proposals := e.proposals.insert id
      ⟨id, creator, proposalType, .opened, e.sequence, period, timelock, votingEnd,
        executionStart⟩
    tallies := e.tallies.insert id .new }
  return id

def vote (auths : List Address) (id : Nat) (voter : Address) (choice : VoteChoice) :
    Contract Unit := do
  rejectIf ((← get).tokenAddress = none) .notInitialized
  requireAuth auths voter
  let proposal ← okOr ((← get).proposals.lookup id) .proposalNotFound
  rejectIf (proposal.VotingClosed (← get).sequence) .votingClosed
  rejectIf ((id, voter) ∈ (← get).voteRecords) .alreadyVoted
  let balance ← okOr ((← get).voterBalance voter) .notInitialized
  modify fun e => { e with voteRecords := insert (id, voter) e.voteRecords }
  let tally ← okOr ((← get).tallies.lookup id) .proposalNotFound
  modify fun e => { e with tallies := e.tallies.insert id (tally.add choice (asU64 balance)) }
  -- The proposal is written back as it was read, to renew its lifetime.
  modify fun e => { e with proposals := e.proposals.insert id proposal }

/-- Execute a proposal whose timelock has ended and whose tally has passed. -/
def executeProposal (id : Nat) : Contract Unit := do
  rejectIf ((← get).tokenAddress = none) .notInitialized
  let proposal ← okOr ((← get).proposals.lookup id) .proposalNotFound
  rejectIf (¬ proposal.CanExecute (← get).sequence) .cannotExecute
  let tally ← okOr ((← get).tallies.lookup id) .proposalNotFound
  let e ← get
  let passed ← expect (tally.isPassed (e.quorumBps.getD defaultQuorumBps)
    (e.passingThresholdBps.getD defaultPassingThresholdBps))
  rejectIf (passed = false) .proposalNotPassed
  rejectIf (proposal.status = .executed) .alreadyExecuted
  modify fun e => { e with
    proposals := e.proposals.insert id { proposal with status := .executed } }

/-- The contract's entry points with their arguments. -/
inductive Call where
  | initializeTally (tokenAddress : Address)
  | createProposal (creator : Address) (proposalType : ProposalType)
  | vote (id : Nat) (voter : Address) (choice : VoteChoice)
  | executeProposal (id : Nat)
  deriving DecidableEq, Repr

def perform (auths : List Address) : Call → Contract Unit
  | .initializeTally tokenAddress => initializeTally tokenAddress
  | .createProposal creator proposalType => do
    let _ ← createProposal auths creator proposalType
  | .vote id voter choice => vote auths id voter choice
  | .executeProposal id => executeProposal id

/-- A vote with the power behind it. -/
structure Ballot where
  proposal : Nat
  voter : Address
  choice : VoteChoice
  power : Nat
  deriving DecidableEq, Repr

/-- What can happen to the contract. -/
inductive Label where
  | configured
  | created (id : Nat)
  | voted (ballot : Ballot)
  | executed (id : Nat)
  | refused (call : Call)
  | moved
  | close (sequence : Nat)
  deriving DecidableEq, Repr

def Call.label (e : Env) : Call → Label
  | .initializeTally _ => .configured
  | .createProposal _ _ => .created e.nextProposalId
  | .vote id voter choice => .voted ⟨id, voter, choice, ((e.voterBalance voter).getD 0).toNat⟩
  | .executeProposal id => .executed id

def Supplied (supply : Int) (balances : Balances) : Prop :=
  ∃ holders : Finset Address, (∀ holder, holder ∉ holders → balances.of holder = 0) ∧
    ∑ holder ∈ holders, balances.of holder = supply

/-- One thing that happens to the contract, with any signatures. -/
inductive Step (supply : Nat) : Env → Label → Env → Prop
  | called {e e' : Env} {auths : List Address} {call : Call}
      (ran : (perform auths call).Returns e () e') : Step supply e (call.label e) e'
  | refused {e : Env} {auths : List Address} {call : Call} {failure : Fault GovernanceError}
      (failed : (perform auths call).Fails e failure) : Step supply e (.refused call) e
  /-- Balances change in any way that keeps the supply of every token. -/
  | moved {e : Env} {tokens : Address → Balances}
      (supplied : ∀ token, Supplied supply (tokens token)) :
      Step supply e .moved { e with tokens }
  | closed {e : Env} {sequence : Nat} (onward : e.sequence < sequence)
      (counted : sequence ≤ u32Max) : Step supply e (.close sequence) { e with sequence }

end KeeperNetwork.Tally
