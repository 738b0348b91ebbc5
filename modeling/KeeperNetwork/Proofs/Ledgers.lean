import KeeperNetwork.Proofs.Funds

/-! The funds of the registry: protocol fees, keeper rewards, and bonded and unbonding stakes. -/

namespace KeeperNetwork

open Soroban Bookkeeping

namespace Call

/-- The protocol's cut of an execution, rounded down at the fee rate of the moment. -/
def executionFee (w : World) : Call → Int
  | .executeTask _ taskId _ =>
    (w.tasks.lookup taskId).elim 0 fun task => task.reward * feeBps w / 10000
  | _ => 0

/-- What an execution earns a keeper after the fee. -/
def executionNet (w : World) (keeper : Address) : Call → Int
  | .executeTask executor taskId _ =>
    if executor = keeper then
      (w.tasks.lookup taskId).elim 0 fun task => task.reward - task.reward * feeBps w / 10000
    else 0
  | _ => 0

/-- The keeper and the credit that an upheld dispute takes away. -/
def forfeit (w : World) : Call → Option (Address × PendingCredit)
  | .resolveExecutionDispute _ taskId true => do
    let task ← w.tasks.lookup taskId
    let keeper ← task.claimer
    let credit ← (pendingCreditsOf w keeper).find? fun credit =>
      credit.taskId == taskId && credit.disputed
    return (keeper, credit)
  | _ => none

/-- The amount that an upheld dispute takes away. -/
def forfeited (w : World) (call : Call) : Int :=
  (call.forfeit w).elim 0 fun (_, credit) => credit.netReward

/-- The amount that an upheld dispute takes away from one keeper. -/
def forfeitedFrom (w : World) (keeper : Address) (call : Call) : Int :=
  (call.forfeit w).elim 0 fun (owner, credit) => if owner = keeper then credit.netReward else 0

/-- The fees the administrator takes out. -/
@[simp] def swept : Call → Int
  | .sweepFees _ _ amount => amount
  | _ => 0

@[simp] def rewardsWithdrawn (keeper : Address) (value : Value) : Call → Int
  | .withdrawRewards withdrawer =>
    match value with
    | .amount paid => if withdrawer = keeper then paid else 0
    | _ => 0
  | _ => 0

@[simp] def staked (keeper : Address) : Call → Int
  | .stakeDeposit depositor amount => if depositor = keeper then amount else 0
  | _ => 0

/-- The stake a keeper asks back. -/
@[simp] def unbonded (keeper : Address) : Call → Int
  | .initiateUnbond asker amount => if asker = keeper then amount else 0
  | _ => 0

@[simp] def stakeWithdrawn (keeper : Address) (value : Value) : Call → Int
  | .withdrawStake withdrawer =>
    match value with
    | .amount paid => if withdrawer = keeper then paid else 0
    | _ => 0
  | _ => 0

/-- What a slash of a keeper counts for. -/
@[simp] def slashWeight (gain : Int → Int) (keeper : Address) : Call → Int
  | .slash _ offender amount _ _ => if offender = keeper then gain amount else 0
  | _ => 0

@[simp] def slashed (keeper : Address) (call : Call) : Int := call.slashWeight id keeper

/-- The part of a slash that its bonded stake does not cover. -/
@[simp] def slashedUnbonding (w : World) (keeper : Address) : Call → Int
  | .slash _ offender amount _ _ =>
    if offender = keeper then max 0 (amount - keeperStakeOf w keeper) else 0
  | _ => 0

/-- What an upheld appeal gives back to a keeper. -/
@[simp] def stakeRefunded (w : World) (keeper : Address) : Call → Int
  | .resolveSlashAppeal _ slashId true =>
    (w.slashes.lookup slashId).elim 0 fun record =>
      if record.keeper = keeper then record.amount else 0
  | _ => 0

end Call

attribute [local simp] Call.forfeited Call.forfeitedFrom keeperStakeOf_eq

/-- The protocol fees: cuts of executions and forfeited credits, less what was swept. -/
@[local simp] def feesFund : Fund where
  stock := feesAccrued
  flow w call _ := call.executionFee w + call.forfeited w - call.swept

/-- What a keeper earned and neither withdrew nor forfeited. -/
@[local simp] def rewardsFund (keeper : Address) : Fund where
  stock w := entitlement w keeper
  flow w call value :=
    call.executionNet w keeper - call.rewardsWithdrawn keeper value - call.forfeitedFrom w keeper

/-- What a keeper asked back of its stake and has not received. -/
@[local simp] def unbondingFund (keeper : Address) : Fund where
  stock w := w.unbondRequest.weightAt UnbondRequest.amount keeper
  flow w call value :=
    call.unbonded keeper - call.stakeWithdrawn keeper value - call.slashedUnbonding w keeper

/-- What can be slashed from a keeper: its stake, and what it asked back of it. -/
@[local simp] def exposure (w : World) (keeper : Address) : Int :=
  keeperStakeOf w keeper + w.unbondRequest.weightAt UnbondRequest.amount keeper

/-- The stake of a keeper, with what it has asked back. -/
@[local simp] def stakeFund (keeper : Address) : Fund where
  stock w := exposure w keeper
  flow w call value :=
    call.staked keeper - call.stakeWithdrawn keeper value - call.slashed keeper +
      call.stakeRefunded w keeper

/-- An aggregate of a keeper's slash history, and what one more slash adds to it. -/
@[local simp]
def slashFund (keeper : Address) (aggregate : SlashHistory → Int) (gain : Int → Int) : Fund where
  stock w := aggregate (readSlashHistory w keeper)
  flow _ call _ := call.slashWeight gain keeper

variable {inv : Invocation} {e e' : Env} {call : Call} {value : Value} {keeper : Address}

theorem forfeit_of_located (admin : Address) {taskId index : Nat} {task : Task}
    {credit : PendingCredit} (found : e.tasks.lookup taskId = some task)
    (claimer : task.claimer = some keeper)
    (located : (pendingCreditsOf e keeper).findIdx?
      (fun credit => credit.taskId == taskId && credit.disputed) = some index)
    (read : (pendingCreditsOf e keeper)[index]? = some credit) :
    (Call.resolveExecutionDispute admin taskId true).forfeit e =
      some (keeper, credit) := by
  -- The first position that matches holds the first credit that matches.
  obtain ⟨within, matched, earlier⟩ := List.findIdx?_eq_some_iff_getElem.mp located
  obtain ⟨_, rfl⟩ := List.getElem?_eq_some_iff.mp read
  have first : (pendingCreditsOf e keeper).find? (fun credit =>
      credit.taskId == taskId && credit.disputed) =
        some (pendingCreditsOf e keeper)[index] := by
    refine List.find?_eq_some_iff_getElem.mpr ⟨matched, index, within, rfl, ?_⟩
    intro j before
    simpa [imp_iff_not_or] using earlier j before
  simp [Call.forfeit, found, claimer, first]

theorem execution_of_split (keeper other : Address) {taskId : Nat} (proof : Bytes) {task : Task}
    {keeperNet fee : Int} (formed : WellFormed e) (found : e.tasks.lookup taskId = some task)
    (split : splitReward task.reward (feeBps e) = .ok (keeperNet, fee)) :
    (Call.executeTask keeper taskId proof).executionFee e = fee ∧
      (Call.executeTask keeper taskId proof).executionNet e other =
        if other = keeper then keeperNet else 0 := by
  -- Rewards are positive, so rounding towards zero is rounding down.
  obtain ⟨cut, rest⟩ := splitReward_ok split
  have positive := (formed.tasks _ _ found).positive
  have product : 0 ≤ task.reward * feeBps e :=
    Int.mul_nonneg positive.le (Int.natCast_nonneg _)
  rw [Int.tdiv_eq_ediv_of_nonneg product] at cut
  constructor
  · simp [Call.executionFee, found, cut]
  · by_cases same : other = keeper
    · simp [Call.executionNet, found, same, rest, cut]
    · simp [Call.executionNet, same, Ne.symm same]

theorem feesFund_sound : feesFund.Sound where
  reads same := by simp only [feesFund, feesAccrued, same.fees]
  quiet w call value quiet := by
    cases call <;> first | rfl | cases quiet
  writes formed loud effect := by
    cases effect with
    | sweepFees _ _ _ _ moved =>
      obtain rfl := skipTransfer_returns.mp moved
      simp [feesAccrued, Call.executionFee, Call.forfeit]
      omega
    | @executeTaskHeld keeper _ proof _ _ _ _ _ found _ _ _ _ split
    | @executeTaskPaid keeper _ proof _ _ _ _ _ found _ _ _ _ split =>
      obtain ⟨fee, -⟩ := execution_of_split keeper keeper proof formed found split
      simp [fee, Call.forfeit]
    | @upholdDispute admin _ _ _ _ _ _ found claimer located read =>
      have taken := forfeit_of_located admin found claimer located read
      have amount := formed.credit_nonneg (List.mem_of_getElem? read)
      simp [taken, Call.executionFee, max_eq_left amount]
    | withdrawRewards | stakeDeposit | initiateUnbond | withdrawStake | slashStake | slashUnbond
    | rejectSlashAppeal | upholdSlashAppeal | disputeExecution | releaseDispute =>
      try obtain rfl := skipTransfer_returns.mp ‹_›
      simp [feesAccrued, Call.executionFee, Call.forfeit]
    | _ => simp [Call.quiet] at loud

theorem entitlement_withdrawn (e : Env) (inv : Invocation) (keeper other : Address) :
    let credits := pendingCreditsOf e keeper
    let ready := readyCredits credits e.sequence
    let held := heldCredits credits e.sequence
    entitlement ((((e.finalized inv keeper ready held).emitFinalized keeper ready).bump
        ).setKeeperReward inv keeper 0) other =
      if other = keeper then creditsTotal held else entitlement e other := by
  intro credits ready held
  have whole := creditsTotal_ready_held credits e.sequence
  by_cases same : other = keeper
  · subst same
    by_cases empty : ready = []
    · -- Nothing was ready, so the whole list was held back.
      have none : creditsTotal ready = 0 := by simp [empty, creditsTotal]
      have kept : creditsTotal credits = creditsTotal held := by
        change creditsTotal ready + creditsTotal held = _ at whole
        omega
      simpa [entitlement, keeperRewardOf, pendingCreditsOf, empty, credits] using kept
    · by_cases rest : held = []
      · simp [entitlement, keeperRewardOf, pendingCreditsOf, empty, rest]
      · simp [entitlement, keeperRewardOf, pendingCreditsOf, empty, rest]
  · by_cases empty : ready = []
    · simp [entitlement, keeperRewardOf, pendingCreditsOf, empty, same]
    · by_cases rest : held = []
      · simp [entitlement, keeperRewardOf, pendingCreditsOf, empty, rest, same]
      · simp [entitlement, keeperRewardOf, pendingCreditsOf, empty, rest, same]

theorem entitlement_replace (inv : Invocation) (other : Address) {index : Nat}
    {credit replacement : PendingCredit} (read : (pendingCreditsOf e keeper)[index]? = some credit)
    (same : replacement.netReward = credit.netReward) :
    entitlement (e.savePending inv keeper
        ((pendingCreditsOf e keeper).set index replacement)) other =
      entitlement e other := by
  rw [entitlement_savePending, creditsTotal_set read, same, sub_add_cancel]
  split
  · next here => rw [here, entitlement]
  · rfl

/-- What a keeper is owed is explained by executions, withdrawals and forfeits. -/
theorem rewardsFund_sound (keeper : Address) : (rewardsFund keeper).Sound where
  reads same := entitlement_congr same.rewards same.credits keeper
  quiet w call value quiet := by
    cases call <;> first | rfl | cases quiet
  writes {inv e e' call value} formed loud effect := by
    cases effect with
    | @executeTaskHeld executor taskId proof _ keeperNet _ _ _ found _ _ _ _ split =>
      obtain ⟨-, net⟩ := execution_of_split executor keeper proof formed found split
      have held := entitlement_hold e.bump inv executor keeper (heldCredit e taskId keeperNet)
      refine ((entitlement_congr (by simp) (by simp) keeper).trans held).trans ?_
      simp [net, Call.forfeit, entitlement, heldCredit]
    | @executeTaskPaid executor _ proof _ keeperNet _ _ _ found _ _ _ _ split =>
      obtain ⟨-, net⟩ := execution_of_split executor keeper proof formed found split
      have paid := entitlement_credit e.bump inv executor keeper keeperNet
      refine ((entitlement_congr (by simp) (by simp) keeper).trans paid).trans ?_
      simp [net, Call.forfeit, entitlement]
    | @withdrawRewards withdrawer _ _ balance _ _ readied waiting _ owed _ _ moved =>
      obtain rfl := skipTransfer_returns.mp moved
      subst readied waiting
      have whole := creditsTotal_ready_held (pendingCreditsOf e withdrawer) e.sequence
      have left := entitlement_withdrawn e inv withdrawer keeper
      refine ((entitlement_congr (by simp) (by simp) keeper).trans left).trans ?_
      by_cases same : keeper = withdrawer
      · subst same
        simp only [creditsTotal] at whole owed
        simp [Call.executionNet, Call.forfeit, entitlement, creditsTotal]
        omega
      · simp [Call.executionNet, Call.forfeit, same, Ne.symm same]
    | @upholdDispute admin owner _ index _ credit _ found claimer located read =>
      have taken := forfeit_of_located admin found claimer located read
      have saved := entitlement_savePending e.bump inv owner keeper
        ((pendingCreditsOf e owner).eraseIdx index)
      refine ((entitlement_congr (by simp) (by simp) keeper).trans saved).trans ?_
      by_cases same : keeper = owner
      · subst same
        simp [Call.executionNet, taken, entitlement, creditsTotal_eraseIdx read]
        omega
      · simp [Call.executionNet, taken, same, Ne.symm same, entitlement]
    | @disputeExecution _ _ _ index _ credit _ _ _ _ _ read =>
      have kept := @entitlement_replace e.bump _ inv keeper index credit
        { credit with disputed := true } (by simpa using read) rfl
      refine ((entitlement_congr (by simp) (by simp) keeper).trans kept).trans ?_
      exact ((entitlement_congr (by simp) (by simp) keeper)).trans (add_zero _).symm
    | @releaseDispute _ _ _ index _ credit _ _ _ _ read =>
      have kept := @entitlement_replace e.bump _ inv keeper index credit
        { credit with disputed := false } (by simpa using read) rfl
      refine ((entitlement_congr (by simp) (by simp) keeper).trans kept).trans ?_
      exact ((entitlement_congr (by simp) (by simp) keeper)).trans (add_zero _).symm
    | sweepFees | stakeDeposit | initiateUnbond | withdrawStake | slashStake | slashUnbond
    | rejectSlashAppeal | upholdSlashAppeal =>
      try obtain rfl := skipTransfer_returns.mp ‹_›
      exact (entitlement_congr (by simp) (by simp) keeper).trans (add_zero _).symm
    | _ => simp [Call.quiet] at loud

theorem weightAt_drawUnbond (e : Env) (inv : Invocation) {request : UnbondRequest}
    (amount : Int) (found : e.unbondRequest.lookup keeper = some request) (other : Address) :
    (e.drawUnbond inv keeper request amount).unbondRequest.weightAt UnbondRequest.amount other =
      e.unbondRequest.weightAt UnbondRequest.amount other -
        if other = keeper then amount else 0 := by
  -- A request that is used up is removed, which leaves the same nothing behind.
  have held := Finmap.weightAt_of_lookup UnbondRequest.amount found
  by_cases same : other = keeper
  · subst same
    by_cases used : request.amount - amount = 0
    · simp [used, held]
    · simp [used, held]
  · by_cases used : request.amount - amount = 0
    · simp [used, same]
    · simp [used, same]

/-- What a keeper asked back is explained by requests, withdrawals and slashes. -/
theorem unbondingFund_sound (keeper : Address) : (unbondingFund keeper).Sound where
  reads same := by simp only [unbondingFund, same.unbonds]
  quiet w call value quiet := by
    cases call <;> first | rfl | cases quiet
  writes {inv e e' call value} formed loud effect := by
    cases effect with
    | @initiateUnbond asker _ _ _ _ _ single =>
      by_cases same : keeper = asker
      · subst same
        simp [Finmap.weightAt_of_lookup_none _ single]
      · simp [same, Ne.symm same]
    | @withdrawStake withdrawer _ _ _ _ found _ _ moved =>
      obtain rfl := skipTransfer_returns.mp moved
      by_cases same : keeper = withdrawer
      · subst same
        simp [Finmap.weightAt_of_lookup _ found]
      · simp [same, Ne.symm same]
    | @slashStake _ offender _ amount _ _ _ _ covered _ _ _ _ _ moved =>
      obtain rfl := skipTransfer_returns.mp moved
      by_cases same : offender = keeper
      · subst same
        simpa using covered
      · simp [same]
    | @slashUnbond _ offender _ amount _ request _ _ _ exceeds found _ _ _ _ _ moved =>
      obtain rfl := skipTransfer_returns.mp moved
      have drawn := weightAt_drawUnbond (e.bump.saveStake inv offender 0) inv
        (amount - keeperStakeOf e offender) found keeper
      have rest : max 0 (amount - keeperStakeOf e offender) =
          amount - keeperStakeOf e offender := by omega
      refine Eq.trans (by simp only [unbondingFund, Env.emit_unbondRequest,
        Env.bookSlash_unbondRequest]) (drawn.trans ?_)
      by_cases same : offender = keeper
      · subst same
        simp [rest, -keeperStakeOf_eq]
        omega
      · simp [same, Ne.symm same]
    | sweepFees | executeTaskHeld | executeTaskPaid | withdrawRewards | stakeDeposit
    | rejectSlashAppeal | upholdSlashAppeal | disputeExecution | upholdDispute | releaseDispute =>
      try obtain rfl := skipTransfer_returns.mp ‹_›
      simp
    | _ => simp [Call.quiet] at loud

/-- A stake is explained by deposits, withdrawals, slashes and upheld appeals. -/
theorem stakeFund_sound (keeper : Address) : (stakeFund keeper).Sound where
  reads same := by simp only [stakeFund, exposure, keeperStakeOf, same.stakes, same.unbonds]
  quiet w call value quiet := by
    cases call <;> first | rfl | cases quiet
  writes {inv e e' call value} formed loud effect := by
    have pending := (unbondingFund_sound keeper).writes formed loud effect
    cases effect with
    | @stakeDeposit depositor _ _ _ _ _ _ _ moved =>
      obtain rfl := skipTransfer_returns.mp moved
      by_cases same : keeper = depositor
      · subst same
        simp
        omega
      · simp [same, Ne.symm same]
    | @initiateUnbond asker _ _ _ _ _ single =>
      by_cases same : keeper = asker
      · subst same
        simp [Finmap.weightAt_of_lookup_none _ single]
      · simp [same]
    | @withdrawStake withdrawer _ _ _ _ found _ _ moved =>
      obtain rfl := skipTransfer_returns.mp moved
      by_cases same : keeper = withdrawer
      · subst same
        simp [Finmap.weightAt_of_lookup _ found]
      · simp [same, Ne.symm same]
    | @slashStake _ offender _ amount _ _ _ _ covered _ _ _ _ _ moved =>
      obtain rfl := skipTransfer_returns.mp moved
      by_cases same : keeper = offender
      · subst same
        simp
        omega
      · simp [same, Ne.symm same]
    | @slashUnbond _ offender _ amount _ request _ _ _ exceeds found _ _ _ _ _ moved =>
      obtain rfl := skipTransfer_returns.mp moved
      by_cases same : keeper = offender
      · subst same
        simp at pending exceeds ⊢
        omega
      · simp [same, Ne.symm same]
          at pending ⊢
        omega
    | @upholdSlashAppeal _ _ record _ _ found _ _ _ moved =>
      obtain rfl := skipTransfer_returns.mp moved
      by_cases same : keeper = record.keeper
      · subst same
        simp [found]
        omega
      · simp [found, same, Ne.symm same]
    | sweepFees | executeTaskHeld | executeTaskPaid | withdrawRewards | rejectSlashAppeal
    | disputeExecution | upholdDispute | releaseDispute =>
      try obtain rfl := skipTransfer_returns.mp ‹_›
      simp [keeperStakeOf]
    | _ => simp [Call.quiet] at loud

theorem slashFund_sound (keeper : Address) {aggregate : SlashHistory → Int} {gain : Int → Int}
    (adds : ∀ count total amount,
      aggregate ⟨count + 1, total + amount⟩ = aggregate ⟨count, total⟩ + gain amount) :
    (slashFund keeper aggregate gain).Sound where
  reads same := by simp only [slashFund, readSlashHistory, same.slashed]
  quiet w call value quiet := by
    cases call <;> first | rfl | cases quiet
  writes {inv e e' call value} formed loud effect := by
    cases effect with
    | @slashStake _ offender _ _ _ _ _ _ _ _ _ _ _ _ moved
    | @slashUnbond _ offender _ _ _ _ _ _ _ _ _ _ _ _ _ _ moved =>
      obtain rfl := skipTransfer_returns.mp moved
      by_cases same : keeper = offender
      · subst same
        simp [readSlashHistory, adds]
      · simp [readSlashHistory, same, Ne.symm same]
    | sweepFees | executeTaskHeld | executeTaskPaid | withdrawRewards | stakeDeposit
    | initiateUnbond | withdrawStake | rejectSlashAppeal | upholdSlashAppeal | disputeExecution
    | upholdDispute | releaseDispute =>
      try obtain rfl := skipTransfer_returns.mp ‹_›
      simp [readSlashHistory]
    | _ => simp [Call.quiet] at loud

end KeeperNetwork
