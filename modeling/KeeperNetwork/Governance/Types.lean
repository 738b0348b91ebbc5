import KeeperNetwork.Lib.FiniteMap
import KeeperNetwork.Soroban.Contract

/-! The governance contract's proposals, parameters and storage. -/

namespace KeeperNetwork.Governance

open Soroban

/-- The errors the governance contract returns. -/
inductive GovernanceError where
  | alreadyInitialized
  | notInitialized
  | insufficientProposerBalance
  | invalidParameterValue
  | proposalNotFound
  | votingEnded
  | votingStillActive
  | alreadyVoted
  | passingThresholdNotMet
  | timelockNotElapsed
  | proposalAlreadyExecuted
  | proposalNotQueued
  | unauthorized
  | arithmeticOverflow
  | insufficientVotingPower
  | proposalAlreadyCancelled
  | cannotCancelExecuted
  deriving DecidableEq, Repr

/-- One whole token in its base units. -/
def oneToken : Int := 10000000

def defaultProposalThreshold : Int := 100000 * oneToken

def defaultVotingPeriod : Nat := 50400

/-- Ledgers a passed proposal waits by default. -/
def defaultTimelockDelay : Nat := 28800

/-- The default part of the supply that has to vote. -/
def defaultQuorumBps : Nat := 400

/-- The ways to vote. -/
inductive VoteChoice where
  | against
  | for_
  | abstain
  deriving DecidableEq, Repr

/-- A vote and the voting power it was cast with. -/
structure VoteRecord where
  choice : VoteChoice
  weight : Int
  deriving DecidableEq, Repr

/-- The closed list of what governance may decide. -/
inductive GovernableAction where
  | setFeeBps (bps : Nat)
  | setMinReward (min : Int)
  | setReputationFloor (floor : Nat)
  | pauseRegistry
  | unpauseRegistry
  | addTreasuryRecipient (recipient : Address) (sharesBps : Nat)
  | removeTreasuryRecipient (recipient : Address)
  | updateTreasuryShares (recipient : Address) (newSharesBps : Nat)
  | pauseTreasury
  | unpauseTreasury
  | setVotingPeriod (period : Nat)
  | setTimelockDelay (delay : Nat)
  | setQuorumBps (bps : Nat)
  | setProposalThreshold (threshold : Int)
  | upgradeRegistry (newWasmHash : Bytes)
  | upgradeTreasury (newWasmHash : Bytes)
  deriving DecidableEq, Repr

/-- Where a proposal is in its life. -/
inductive ProposalStatus where
  | active
  | passed
  | defeated
  | queued
  | executed
  | cancelled
  deriving DecidableEq, Repr

/-- A proposal with its schedule and its tallies. -/
structure Proposal where
  id : Nat
  proposer : Address
  action : GovernableAction
  status : ProposalStatus
  createdAt : Nat
  votingEnd : Nat
  eta : Nat
  votesFor : Int
  votesAgainst : Int
  votesAbstain : Int
  deriving DecidableEq, Repr

/-- The events the governance contract publishes. -/
inductive Event where
  | governanceInitialized (admin kprsToken registry : Address)
  | proposalCreated (proposalId : Nat) (proposer : Address) (votingEnd : Nat)
  | voteCast (proposalId : Nat) (voter : Address) (choice : VoteChoice) (weight : Int)
  | proposalDefeated (proposalId : Nat) (reached needed : Int)
  | proposalPassed (proposalId : Nat) (votesFor votesAgainst : Int)
  | proposalQueued (proposalId eta : Nat)
  | proposalExecuted (proposalId : Nat)
  | proposalCancelled (proposalId : Nat) (caller : Address)
  deriving DecidableEq, Repr

/-- The ledger number and the governance contract's storage. -/
structure Env where
  sequence : Nat
  admin : Option Address
  initialized : Bool
  kprsToken : Option Address
  registry : Option Address
  proposalThreshold : Option Int
  votingPeriod : Option Nat
  timelockDelay : Option Nat
  quorumBps : Option Nat
  proposalCount : Option Nat
  totalSupply : Option Int
  proposals : Finmap fun _ : Nat => Proposal
  votes : Finmap fun _ : Nat × Address => VoteRecord
  events : List Event

/-- What the governance contract can ask the token for. -/
structure TokenClient where
  totalSupply : Int
  balance : Address → Int
  /-- A past balance, absent when the token panics. -/
  balanceAt : Address → Nat → Option Int

/-- What the host and the token contribute to one call. -/
structure Invocation where
  auths : List Address
  token : TokenClient

abbrev Contract := Program GovernanceError Env

def Proposal.tally (p : Proposal) : VoteChoice → Int
  | .for_ => p.votesFor
  | .against => p.votesAgainst
  | .abstain => p.votesAbstain

def Proposal.withTally (p : Proposal) (choice : VoteChoice) (votes : Int) : Proposal :=
  match choice with
  | .for_ => { p with votesFor := votes }
  | .against => { p with votesAgainst := votes }
  | .abstain => { p with votesAbstain := votes }

/-- All votes cast, absent when the sum overflows. -/
def Proposal.totalVotes (p : Proposal) : Option Int := do
  let sum ← checkedAdd p.votesFor p.votesAgainst
  checkedAdd sum p.votesAbstain

namespace Env

variable (e : Env)

def emit (event : Event) : Env := { e with events := e.events ++ [event] }

def store (id : Nat) (p : Proposal) : Env := { e with proposals := e.proposals.insert id p }

def threshold : Int := e.proposalThreshold.getD defaultProposalThreshold

def period : Nat := e.votingPeriod.getD defaultVotingPeriod

/-- Ledgers a passed proposal waits. -/
def delay : Nat := e.timelockDelay.getD defaultTimelockDelay

/-- The part of the supply that has to vote. -/
def bps : Nat := e.quorumBps.getD defaultQuorumBps

def count : Nat := e.proposalCount.getD 0

def totalTokenSupply : Int := e.totalSupply.getD (100000000 * oneToken)

/-- The votes a quorum needs, absent when the product overflows. -/
def quorumThreshold : Option Int := do
  let product ← checkedMul e.totalTokenSupply e.bps
  some (product.tdiv 10000)

end Env

/-- A governance contract that was just deployed. -/
def deployed (sequence : Nat) : Env :=
  { sequence
    admin := none
    initialized := false
    kprsToken := none
    registry := none
    proposalThreshold := none
    votingPeriod := none
    timelockDelay := none
    quorumBps := none
    proposalCount := none
    totalSupply := none
    proposals := ∅
    votes := ∅
    events := [] }

end KeeperNetwork.Governance
