import KeeperNetwork.Registry.Reputation

/-! Read-only views. -/

namespace KeeperNetwork

open Soroban

def getTask (e : World) (taskId : Nat) : Except KeeperError Task :=
  match e.tasks.lookup taskId with
  | some task => .ok task
  | none => .error .taskNotFound

def isPaused (e : World) : Bool := e.paused.getD false

def keeperBalance (e : World) (keeper : Address) : Int := keeperRewardOf e keeper

/-- A keeper's aggregate slash history, as the number of slashes and the amount slashed. -/
def slashHistory (e : World) (keeper : Address) : Nat × Int :=
  let history := readSlashHistory e keeper
  (history.count, history.totalSlashed)

/-- Whether a task can be claimed right now, as far as its own state and its condition go. -/
def isClaimable (inv : Invocation) (e : World) (taskId : Nat) : Bool :=
  match e.tasks.lookup taskId with
  | none => false
  | some task =>
    if task.deadline ≤ e.timestamp then false
    else
      let stateAllowsClaim :=
        match task.status with
        | .pending => true
        | .claimed => lockExpired e task
        | _ => false
      if stateAllowsClaim = false then false
      else
        match task.condition with
        | some condition => inv.isMet condition taskId == some true
        | none => true

/-- A keeper's stored reputation, which is a zero record without any tracked action. -/
def keeperReputation (e : World) (keeper : Address) : ReputationRecord := storedRecord e keeper

end KeeperNetwork
