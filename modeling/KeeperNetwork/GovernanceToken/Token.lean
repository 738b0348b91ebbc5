import KeeperNetwork.GovernanceToken.Types
import KeeperNetwork.Lib.Trace

/-! The governance token's entry points, and the runs they make up. -/

namespace KeeperNetwork.GovernanceToken

open Soroban

def Env.writeCheckpoint (e : Env) (id : Address) (position : Nat) (amount : Int) : Env :=
  { e with checkpoints := e.checkpoints.insert (id, position) ⟨e.sequence, amount⟩ }

/-- Store a checkpoint behind the existing ones. -/
def appendCheckpoint (id : Address) (amount : Int) : Contract Unit := do
  let e ← get
  let count ← expect (checkedSucc u32Max (e.countOf id))
  modify fun e => { e.writeCheckpoint id (e.countOf id) amount with
    checkpointCount := e.checkpointCount.insert id count }

/-- Write a balance, and checkpoint it for the current ledger. -/
def setBalance (id : Address) (amount : Int) : Contract Unit := do
  modify fun e => { e with balances := e.balances.insert id amount }
  let e ← get
  match e.countOf id with
  | 0 => appendCheckpoint id amount
  | last + 1 => do
    let cp ← expect (e.checkpoints.lookup (id, last))
    -- A second change within one ledger overwrites the checkpoint of the first.
    if cp.ledger = e.sequence then modify fun e => e.writeCheckpoint id last amount
    else appendCheckpoint id amount

/-- Mint the fixed supply to the four allocations, with the team's part vesting. -/
def initializeToken (auths : List Address)
    (admin earlyKeepers treasury coreTeam publicDistribution : Address) : Contract Unit := do
  rejectIf ((← get).initialized = true) .alreadyInitialized
  requireAuth auths admin
  modify fun e => { e with admin := some admin, initialized := true }
  setBalance earlyKeepers allocEarlyKeepers
  modify fun e => e.emit (.mint admin earlyKeepers allocEarlyKeepers)
  setBalance treasury allocTreasury
  modify fun e => e.emit (.mint admin treasury allocTreasury)
  setBalance coreTeam allocCoreTeam
  modify fun e => { e with
    vesting := e.vesting.insert coreTeam
      ⟨allocCoreTeam, e.timestamp, teamCliffSeconds, teamVestingSeconds⟩ }
  modify fun e => e.emit (.mint admin coreTeam allocCoreTeam)
  setBalance publicDistribution allocPublic
  modify fun e => e.emit (.mint admin publicDistribution allocPublic)

/-- Let a spender take up to an amount until a ledger. -/
def approve (auths : List Address) (src spender : Address) (amount : Int)
    (expirationLedger : Nat) : Contract Unit := do
  requireAuth auths src
  rejectIf (amount < 0) .negativeAmount
  rejectIf (expirationLedger < (← get).sequence) .invalidExpiration
  modify fun e => { e with
    allowances :=
      if amount = 0 then e.allowances.erase (src, spender)
      else e.allowances.insert (src, spender) ⟨amount, expirationLedger⟩ }
  modify fun e => e.emit (.approve src spender amount)

def requireFunds (src : Address) (amount : Int) : Contract Int := do
  let e ← get
  let spendable ← expect (e.spendableBalance src)
  rejectIf (spendable < amount) .tokensLocked
  rejectIf (e.balance src < amount) .insufficientBalance
  return e.balance src

/-- Move an amount between two balances that are both read before either is written. -/
def moveTokens (src dst : Address) (amount : Int) : Contract Unit := do
  let fromBalance ← requireFunds src amount
  let toBalance := (← get).balance dst
  let debited ← expect (checkedSub fromBalance amount)
  setBalance src debited
  let credited ← expect (checkedAdd toBalance amount)
  setBalance dst credited

/-- Take an amount out of a balance. -/
def burnTokens (src : Address) (amount : Int) : Contract Unit := do
  let fromBalance ← requireFunds src amount
  let debited ← expect (checkedSub fromBalance amount)
  setBalance src debited

/-- Lower an allowance that was read before, keeping its expiration. -/
def spendAllowance (src spender : Address) (current amount : Int) : Contract Unit := do
  let value ← expect ((← get).allowances.lookup (src, spender))
  let rest ← expect (checkedSub current amount)
  modify fun e => { e with
    allowances := e.allowances.insert (src, spender) ⟨rest, value.expirationLedger⟩ }

/-- Send one's own tokens. -/
def transfer (auths : List Address) (src dst : Address) (amount : Int) : Contract Unit := do
  requireAuth auths src
  rejectIf (amount < 0) .negativeAmount
  if amount = 0 then pure ()
  else do
    moveTokens src dst amount
    modify fun e => e.emit (.transfer src dst amount)

/-- Send another holder's tokens within an allowance. -/
def transferFrom (auths : List Address) (spender src dst : Address) (amount : Int) :
    Contract Unit := do
  requireAuth auths spender
  rejectIf (amount < 0) .negativeAmount
  if amount = 0 then pure ()
  else do
    let current := (← get).allowance src spender
    rejectIf (current < amount) .insufficientAllowance
    moveTokens src dst amount
    spendAllowance src spender current amount
    modify fun e => e.emit (.transfer src dst amount)

/-- Destroy one's own tokens. -/
def burn (auths : List Address) (src : Address) (amount : Int) : Contract Unit := do
  requireAuth auths src
  rejectIf (amount < 0) .negativeAmount
  if amount = 0 then pure ()
  else do
    burnTokens src amount
    modify fun e => e.emit (.burn src amount)

/-- Destroy another holder's tokens within an allowance. -/
def burnFrom (auths : List Address) (spender src : Address) (amount : Int) :
    Contract Unit := do
  requireAuth auths spender
  rejectIf (amount < 0) .negativeAmount
  if amount = 0 then pure ()
  else do
    let current := (← get).allowance src spender
    rejectIf (current < amount) .insufficientAllowance
    burnTokens src amount
    spendAllowance src spender current amount
    modify fun e => e.emit (.burn src amount)

/-- The token's entry points with their arguments. -/
inductive Call where
  | initializeToken (admin earlyKeepers treasury coreTeam publicDistribution : Address)
  | approve (src spender : Address) (amount : Int) (expirationLedger : Nat)
  | transfer (src dst : Address) (amount : Int)
  | transferFrom (spender src dst : Address) (amount : Int)
  | burn (src : Address) (amount : Int)
  | burnFrom (spender src : Address) (amount : Int)
  deriving DecidableEq, Repr

def perform (auths : List Address) : Call → Contract Unit
  | .initializeToken admin earlyKeepers treasury coreTeam publicDistribution =>
    initializeToken auths admin earlyKeepers treasury coreTeam publicDistribution
  | .approve src spender amount expirationLedger =>
    approve auths src spender amount expirationLedger
  | .transfer src dst amount => transfer auths src dst amount
  | .transferFrom spender src dst amount => transferFrom auths spender src dst amount
  | .burn src amount => burn auths src amount
  | .burnFrom spender src amount => burnFrom auths spender src amount

/-- What can happen to the token. -/
inductive Label where
  | call (call : Call)
  | refused (call : Call)
  | close (sequence timestamp : Nat)
  deriving DecidableEq, Repr

/-- One thing that happens to the token, with any signatures. -/
inductive Step : Env → Label → Env → Prop
  | called {e e' : Env} {auths : List Address} {call : Call}
      (ran : (perform auths call).Returns e () e') : Step e (.call call) e'
  | refused {e : Env} {auths : List Address} {call : Call} {failure : Fault TokenError}
      (failed : (perform auths call).Fails e failure) : Step e (.refused call) e
  | closed {e : Env} {sequence timestamp : Nat} (onward : e.sequence < sequence)
      (counted : sequence ≤ u32Max) (later : e.timestamp ≤ timestamp)
      (timed : timestamp ≤ u64Max) :
      Step e (.close sequence timestamp) { e with sequence, timestamp }

/-- One move of a scripted run. -/
inductive Turn where
  | call (auths : List Address) (call : Call)
  | close (sequence timestamp : Nat)

def Turn.label : Turn → Label
  | .call _ entry => .call entry
  | .close sequence timestamp => .close sequence timestamp

def Turn.next (e : Env) : Turn → Env
  | .call auths entry => ((perform auths entry).commit e).2
  | .close sequence timestamp => { e with sequence, timestamp }

/-- The turn is a call that returns, or a ledger that may open. -/
def Turn.Legal (e : Env) : Turn → Prop
  | .call auths entry => (perform auths entry).succeeds e = true
  | .close sequence timestamp =>
    e.sequence < sequence ∧ sequence ≤ u32Max ∧ e.timestamp ≤ timestamp ∧ timestamp ≤ u64Max

instance (e : Env) (turn : Turn) : Decidable (turn.Legal e) := by
  cases turn <;> unfold Turn.Legal <;> infer_instance

theorem Turn.Legal.step {e : Env} {turn : Turn} (legal : turn.Legal e) :
    Step e turn.label (turn.next e) := by
  cases turn with
  | call auths entry =>
    obtain ⟨_, ran⟩ := EStateM.returns_of_succeeds legal
    exact .called ran
  | close sequence timestamp => exact .closed legal.1 legal.2.1 legal.2.2.1 legal.2.2.2

theorem scripted {e : Env} {script : List Turn}
    (playable : Trace.Playable Turn.next Turn.Legal e script) :
    Trace Step e (script.map Turn.label).reverse (script.foldl Turn.next e) :=
  Trace.of_playable (fun _ _ legal => legal.step) script playable

end KeeperNetwork.GovernanceToken
