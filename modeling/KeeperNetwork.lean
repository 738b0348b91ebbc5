import KeeperNetwork.Proofs.LockWindow
import KeeperNetwork.Proofs.CreditOrder
import KeeperNetwork.Proofs.Unbonding
import KeeperNetwork.Proofs.LockStorage
import KeeperNetwork.Proofs.Payouts
import KeeperNetwork.Proofs.Wealth
import KeeperNetwork.Proofs.Authority
import KeeperNetwork.Proofs.Execution
import KeeperNetwork.Proofs.RewardSplit
import KeeperNetwork.Proofs.ClaimEnds
import KeeperNetwork.Proofs.PausePolicy
import KeeperNetwork.Proofs.BatchRefinement
import KeeperNetwork.Conditions.Deviation
import KeeperNetwork.GovernanceToken.Allowances
import KeeperNetwork.GovernanceToken.Past
import KeeperNetwork.GovernanceToken.Vesting
import KeeperNetwork.Governance.Outcome
import KeeperNetwork.Governance.Continuity
import KeeperNetwork.Tally.Passing
import KeeperNetwork.Treasury.Distribution
import KeeperNetwork.Network.Sweep
import KeeperNetwork.Network.Execution
import KeeperNetwork.Indexer.Contradiction
import KeeperNetwork.Indexer.Rejections
import KeeperNetwork.Indexer.Unrecognised
import KeeperNetwork.Indexer.Resumption
import KeeperNetwork.Indexer.Stats
import KeeperNetwork.Indexer.Activity
import KeeperNetwork.Indexer.Standings
import KeeperNetwork.Indexer.Cache
import KeeperNetwork.Indexer.Termination
import KeeperNetwork.Indexer.Fingerprints
import KeeperNetwork.Indexer.Sha256
import KeeperNetwork.Bot.Exclusion
import KeeperNetwork.Bot.V1
import KeeperNetwork.Cli.Preflight
import KeeperNetwork.Cli.TaskFile
import KeeperNetwork.Sdk.Delivery
