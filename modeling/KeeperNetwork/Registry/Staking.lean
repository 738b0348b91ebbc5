import KeeperNetwork.Registry.Internal

/-! Staking, unbonding, slashing with appeals, and disputes of executions. -/

namespace KeeperNetwork

open Soroban

def saveStake (inv : Invocation) (keeper : Address) (amount : Int) : Contract Unit := do
  modify fun e => e.setKeeperStake inv keeper amount
  extendEntry (.keeperStake keeper) keeperBalanceBumpThreshold keeperBalanceBumpLedgers

def saveUnbondRequest (inv : Invocation) (keeper : Address) (request : UnbondRequest) :
    Contract Unit := do
  modify fun e => e.setUnbondRequest inv keeper request
  extendEntry (.unbondRequest keeper) keeperBalanceBumpThreshold keeperBalanceBumpLedgers

def saveSlash (inv : Invocation) (slashId : Nat) (record : SlashRecord) : Contract Unit := do
  modify fun e => e.setSlash inv slashId record
  extendEntry (.slash slashId) keeperBalanceBumpThreshold keeperBalanceBumpLedgers

/-- Post collateral. -/
def stakeDeposit (token : Token) (inv : Invocation) (keeper : Address) (amount : Int) :
    Contract Unit := do
  requireInitialized
  requireNotPaused
  rejectIf (amount ≤ 0) .invalidReward
  requireAuth inv.auths keeper
  bumpInstance
  let updated ← okOr (checkedAdd (keeperStakeOf (← get) keeper) amount)
    .arithmeticOverflow
  -- The stake is credited before the tokens arrive.
  saveStake inv keeper updated
  transferReward token keeper (← get).self amount
  emit (.stakeDeposited keeper amount updated)

/-- Start the unbonding delay for part of a keeper's stake. -/
def initiateUnbond (inv : Invocation) (keeper : Address) (amount : Int) : Contract Unit := do
  requireInitialized
  requireNotPaused
  rejectIf (amount ≤ 0) .invalidReward
  requireAuth inv.auths keeper
  let currentStake := keeperStakeOf (← get) keeper
  rejectIf (amount > currentStake) .insufficientStake
  rejectIf ((← get).unbondRequest.lookup keeper ≠ none) .unbondAlreadyPending
  bumpInstance
  let remaining ← okOr (checkedSub currentStake amount) .arithmeticOverflow
  saveStake inv keeper remaining
  let unlockLedger := saturatingAdd u32Max (← get).sequence unbondDelayLedgers
  saveUnbondRequest inv keeper { amount, unlockLedger }
  emit (.unbondInitiated keeper amount unlockLedger)

/-- Release a keeper's unbond request once its delay has elapsed. -/
def withdrawStake (token : Token) (inv : Invocation) (keeper : Address) : Contract Int := do
  requireInitialized
  requireAuth inv.auths keeper
  let request ← okOr ((← get).unbondRequest.lookup keeper) .noPendingUnbond
  rejectIf ((← get).sequence < request.unlockLedger) .unbondNotReady
  bumpInstance
  -- The request is cleared before it is paid.
  modify fun e => e.removeUnbondRequest keeper
  transferReward token (← get).self keeper request.amount
  emit (.stakeWithdrawn keeper request.amount)
  return request.amount

def drawFromUnbond (inv : Invocation) (keeper : Address) (pending : Option UnbondRequest)
    (fromUnbond : Int) : Contract Unit := do
  let request ← okOr pending .arithmeticOverflow
  let remaining ← okOr (checkedSub request.amount fromUnbond) .arithmeticOverflow
  -- A request that is used up disappears, and a reduced one keeps its unlock ledger.
  (if remaining = 0 then modify fun e => e.removeUnbondRequest keeper
    else saveUnbondRequest inv keeper { request with amount := remaining })

/-- Move part of a keeper's collateral to a treasury. -/
def slash (token : Token) (inv : Invocation) (admin keeper : Address) (amount : Int)
    (reason : Symbol) (treasury : Address) : Contract Nat := do
  requireAdmin inv admin
  rejectIf (amount ≤ 0) .invalidReward
  let currentStake := keeperStakeOf (← get) keeper
  let pending := (← get).unbondRequest.lookup keeper
  let totalSlashable ← okOr (checkedAdd currentStake (pending.elim 0 UnbondRequest.amount))
    .arithmeticOverflow
  rejectIf (amount > totalSlashable) .insufficientStake
  bumpInstance
  -- The stake is drawn on first, and the pending unbond only for the remainder.
  let fromStake := min amount currentStake
  let remainingStake ← okOr (checkedSub currentStake fromStake) .arithmeticOverflow
  saveStake inv keeper remainingStake
  let fromUnbond ← okOr (checkedSub amount fromStake) .arithmeticOverflow
  whenever (0 < fromUnbond) (drawFromUnbond inv keeper pending fromUnbond)
  let slashId ← nextSlashId
  saveSlash inv slashId
    { keeper, amount, reason, ledger := (← get).sequence, appealed := false }
  writeSlashHistory inv keeper amount
  transferReward token (← get).self treasury amount
  emit (.slashed slashId keeper amount reason)
  return slashId

def setMinStake (inv : Invocation) (admin : Address) (minStake : Int) : Contract Unit := do
  requireAdmin inv admin
  rejectIf (minStake < 0) .invalidReward
  bumpInstance
  let oldMin := minStakeFloor (← get)
  modify fun e => { e with minStake := some minStake }
  emit (.minStakeUpdated oldMin minStake)

def raiseSlashAppeal (inv : Invocation) (keeper : Address) (slashId : Nat) : Contract Unit := do
  requireAuth inv.auths keeper
  let record ← okOr ((← get).slashes.lookup slashId) .slashNotFound
  rejectIf (record.keeper ≠ keeper) .notSlashedKeeper
  rejectIf (record.appealed = true) .appealAlreadyRaised
  rejectIf (saturatingAdd u32Max record.ledger slashDisputeWindowLedgers < (← get).sequence)
    .appealWindowClosed
  bumpInstance
  saveSlash inv slashId { record with appealed := true }
  emit (.slashAppealRaised slashId keeper)

/-- Return a slashed amount to the keeper's stake, funded by the administrator. -/
def refundSlash (token : Token) (inv : Invocation) (admin : Address) (record : SlashRecord) :
    Contract Unit := do
  let restored ← okOr (checkedAdd (keeperStakeOf (← get) record.keeper) record.amount)
    .arithmeticOverflow
  saveStake inv record.keeper restored
  transferReward token admin (← get).self record.amount

def resolveSlashAppeal (token : Token) (inv : Invocation) (admin : Address) (slashId : Nat)
    (upholdAppeal : Bool) : Contract Unit := do
  requireAdmin inv admin
  let record ← okOr ((← get).slashes.lookup slashId) .slashNotFound
  rejectIf (record.appealed = false) .slashNotFound
  bumpInstance
  -- The record is removed before the refund is collected.
  modify fun e => e.removeSlash slashId
  whenever (upholdAppeal = true) (refundSlash token inv admin record)
  emit (.slashAppealResolved slashId upholdAppeal)

/-- Set the hold placed on the credits of later executions. -/
def setDisputeWindow (inv : Invocation) (admin : Address) (ledgers : Nat) : Contract Unit := do
  requireAdmin inv admin
  rejectIf (ledgers > maxExecutionDisputeWindowLedgers) .invalidTaskParams
  bumpInstance
  let oldLedgers := disputeWindowLedgers (← get)
  modify fun e => { e with disputeWindowLedgers := some ledgers }
  emit (.disputeWindowUpdated oldLedgers ledgers)

def disputeExecution (inv : Invocation) (owner : Address) (taskId : Nat) : Contract Unit := do
  requireAuth inv.auths owner
  let task ← loadTask taskId
  rejectIf (task.owner ≠ owner) .notTaskOwner
  let keeper ← okOr task.claimer .noPendingCredit
  let credits := pendingCreditsOf (← get) keeper
  let index ← okOr (credits.findIdx? fun credit => credit.taskId == taskId) .noPendingCredit
  let credit ← okOr credits[index]? .noPendingCredit
  rejectIf (credit.disputed = true) .executionAlreadyDisputed
  rejectIf (credit.unlockLedger ≤ (← get).sequence) .disputeWindowClosed
  bumpInstance
  modify fun e => e.setPendingReward inv keeper
    (credits.set index { credit with disputed := true })
  extendEntry (.pendingReward keeper) keeperBalanceBumpThreshold keeperBalanceBumpLedgers
  emit (.executionDisputed taskId keeper)

/-- Walk over the numbered credits, forfeiting or releasing the one at the index. -/
def resolveCredits (index : Nat) (upholdDispute : Bool) :
    List (PendingCredit × Nat) → Int → Contract (List PendingCredit × Int)
  | [], forfeited => pure ([], forfeited)
  | (credit, position) :: rest, forfeited =>
    if position = index then
      if upholdDispute then do
        let forfeited ← okOr (checkedAdd forfeited credit.netReward) .arithmeticOverflow
        resolveCredits index upholdDispute rest forfeited
      else do
        let walked ← resolveCredits index upholdDispute rest forfeited
        return ({ credit with disputed := false } :: walked.1, walked.2)
    else do
      let walked ← resolveCredits index upholdDispute rest forfeited
      return (credit :: walked.1, walked.2)

/-- Decide a dispute: the credit is forfeited to the protocol, or released again. -/
def resolveExecutionDispute (inv : Invocation) (admin : Address) (taskId : Nat)
    (upholdDispute : Bool) : Contract Unit := do
  requireAdmin inv admin
  let task ← loadTask taskId
  let keeper ← okOr task.claimer .noDisputedCredit
  let credits := pendingCreditsOf (← get) keeper
  let index ← okOr (credits.findIdx? fun credit => credit.taskId == taskId && credit.disputed)
    .noDisputedCredit
  bumpInstance
  let walked ← resolveCredits index upholdDispute credits.zipIdx 0
  savePendingCredits inv keeper walked.1
  whenever (0 < walked.2) (accrueFee walked.2)
  emit (.executionDisputeResolved taskId upholdDispute)

end KeeperNetwork
