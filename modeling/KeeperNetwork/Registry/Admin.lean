import KeeperNetwork.Registry.Internal
import KeeperNetwork.Registry.Reputation

/-! Administrative entry points: configuration, the pause switch and fee control. -/

namespace KeeperNetwork

open Soroban

/-- Configure a freshly deployed registry. -/
def initializeRegistry (inv : Invocation) (admin rewardToken : Address) (feeBps : Nat) :
    Contract Unit := do
  rejectIf ((← get).admin ≠ none) .alreadyInitialized
  rejectIf (feeBps > 10000) .invalidFeeBps
  requireAuth inv.auths admin
  modify fun e => { e with
    admin := some admin
    rewardToken := some rewardToken
    feeBps := some feeBps
    paused := some false
    taskCounter := some 0 }
  bumpInstance
  emit (.initialized admin rewardToken feeBps)

def setPaused (inv : Invocation) (admin : Address) (paused : Bool) : Contract Unit := do
  requireAdmin inv admin
  bumpInstance
  modify fun e => { e with paused := some paused }
  emit (.paused paused)

/-- Block everything that opens new exposure. -/
def pause (inv : Invocation) (admin : Address) : Contract Unit :=
  setPaused inv admin true

/-- Lift the pause. -/
def unpause (inv : Invocation) (admin : Address) : Contract Unit :=
  setPaused inv admin false

/-- Adjust the protocol fee of later executions. -/
def setFeeBps (inv : Invocation) (admin : Address) (newBps : Nat) : Contract Unit := do
  requireAdmin inv admin
  rejectIf (newBps > 10000) .invalidFeeBps
  bumpInstance
  let oldBps := feeBps (← get)
  modify fun e => { e with feeBps := some newBps }
  emit (.feeUpdated oldBps newBps)

def setMinReward (inv : Invocation) (admin : Address) (minReward : Int) : Contract Unit := do
  requireAdmin inv admin
  rejectIf (minReward < 0) .invalidReward
  bumpInstance
  let oldMin := minRewardFloor (← get)
  modify fun e => { e with minReward := some minReward }
  emit (.minRewardUpdated oldMin minReward)

/-- Set the least reputation score of later claims. -/
def setReputationFloor (inv : Invocation) (admin : Address) (floorBps : Nat) :
    Contract Unit := do
  requireAdmin inv admin
  rejectIf (floorBps > maxReputationFloorBps) .invalidReputationFloor
  bumpInstance
  let oldFloor := reputationFloorBps (← get)
  modify fun e => { e with reputationFloor := some floorBps }
  emit (.reputationFloorUpdated oldFloor floorBps)

/-- Hand the administrator role to an address that agrees to take it. -/
def transferAdmin (inv : Invocation) (admin newAdmin : Address) : Contract Unit := do
  requireAdmin inv admin
  requireAuth inv.auths newAdmin
  bumpInstance
  modify fun e => { e with admin := some newAdmin }
  emit (.adminTransferred admin newAdmin)

/-- Replace the contract's code, keeping its storage. -/
def upgrade (inv : Invocation) (admin : Address) (newWasmHash : Bytes) : Contract Unit := do
  requireAdmin inv admin
  bumpInstance
  emit (.upgraded admin newWasmHash)
  modify fun e => { e with wasm := some newWasmHash }

def sweepFees (token : Token) (inv : Invocation) (admin treasury : Address) (amount : Int) :
    Contract Unit := do
  requireAdmin inv admin
  rejectIf (amount ≤ 0) .invalidReward
  let accrued := feesAccrued (← get)
  rejectIf (amount > accrued) .noRewardsAvailable
  bumpInstance
  -- The accumulator is reduced before the fees are paid.
  modify fun e => { e with feesAccrued := some (accrued - amount) }
  transferReward token (← get).self treasury amount
  emit (.feesSwept treasury amount (accrued - amount))

end KeeperNetwork
