import KeeperNetwork.Registry.Internal

/-! Keeper reputation: the success rate of a keeper's tracked claims. -/

namespace KeeperNetwork

open Soroban

namespace ReputationRecord

/-- The record of a keeper with no tracked actions. -/
def zero : ReputationRecord := ⟨0, 0, 0, 0⟩

/-- Bring the score in line with the counts. -/
def recompute (record : ReputationRecord) : ReputationRecord :=
  let actions := saturatingAdd u64Max record.successes record.missedClaims
  { record with
    -- The quotient is at most 10000, so its narrowing to 32 bits is exact.
    scoreBps := if actions = 0 then 0 else record.successes * 10000 / actions % 2 ^ 32 }

end ReputationRecord

def storedRecord (e : World) (keeper : Address) : ReputationRecord :=
  (e.reputation.lookup keeper).getD ReputationRecord.zero

/-- The record after one more tracked action at this ledger. -/
def updatedRecord (record : ReputationRecord) (success : Bool) (sequence : Nat) :
    ReputationRecord :=
  let counted := if success then
      { record with successes := saturatingAdd u64Max record.successes 1 }
    else { record with missedClaims := saturatingAdd u64Max record.missedClaims 1 }
  ReputationRecord.recompute { counted with lastUpdatedLedger := sequence }

def updateReputation (inv : Invocation) (keeper : Address) (success : Bool) : Contract Unit := do
  modify fun e => e.setReputation inv keeper
    (updatedRecord (storedRecord e keeper) success e.sequence)
  extendEntry (.reputation keeper) reputationTtlThreshold reputationTtlLedgers

def recordSuccess (inv : Invocation) (keeper : Address) : Contract Unit :=
  updateReputation inv keeper true

/-- Track a claim that was taken over. -/
def recordMissedClaim (inv : Invocation) (keeper : Address) : Contract Unit :=
  updateReputation inv keeper false

/-- The least score a claim requires, zero when disabled. -/
def reputationFloorBps (e : World) : Nat := e.reputationFloor.getD 0

/-- Fail when the keeper's stored score is below the floor. -/
def requireReputationFloor (keeper : Address) : Contract Unit := do
  let e ← get
  rejectIf (reputationFloorBps e ≠ 0 ∧
    (storedRecord e keeper).scoreBps < reputationFloorBps e) .reputationBelowFloor

end KeeperNetwork
