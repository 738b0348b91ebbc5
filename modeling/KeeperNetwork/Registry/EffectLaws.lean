import KeeperNetwork.Registry.Effect

/-! Every successful call has one of the listed effects. -/

namespace KeeperNetwork

open Soroban

variable {token : Token} {inv : Invocation} {e e' : Env} {u : Unit} {value : Value}

@[simp] theorem missedClaimer_returns {task : Task} {missed : Option Address} :
    (missedClaimer task).Returns e missed e' ↔ Claimable e task missed ∧ e' = e := by
  unfold missedClaimer Claimable
  cases task.status with
  | claimed => simp [and_assoc, and_comm, and_left_comm]
  | _ => simp

variable {taskId : Nat}

@[simp] theorem requireCondition_returns {task : Task} :
    (requireCondition inv taskId task).Returns e u e' ↔ ConditionMet inv taskId task ∧ e' = e := by
  unfold requireCondition ConditionMet
  cases task.condition <;> simp

variable {keeper : Address}

@[simp] theorem requireApproval_returns {proof : Bytes} {task : Task} :
    (requireApproval inv keeper taskId proof task).Returns e u e' ↔
      Approved inv keeper taskId proof task ∧ e' = e := by
  unfold requireApproval Approved
  cases task.verifier <;> simp

@[simp] theorem recordMissed_returns {missed : Option Address} :
    (recordMissed inv missed).Returns e u e' ↔ e' = e.noteMissed inv missed := by
  cases missed with
  | none => simp [recordMissed, Env.noteMissed]
  | some keeper =>
    simp [recordMissed, recordMissedClaim, Env.noteMissed, Env.trackAction, Env.setReputation,
      Env.extend]

theorem emitFinalized_returns {ready : List PendingCredit} :
    (emitFinalized keeper (ready.map fun credit => (credit.taskId, credit.netReward))).Returns
      e u e' ↔ e' = e.emitFinalized keeper ready := by
  simp [emitFinalized, Env.emitFinalized, Function.comp_def]

theorem creditExecution_returns {keeperNet : Int} :
    (creditExecution inv keeper taskId keeperNet).Returns e u e' ↔
      (0 < disputeWindowLedgers e ∧ e' = e.savePending inv keeper
        (pendingCreditsOf e keeper ++ [heldCredit e taskId keeperNet])) ∨
      (disputeWindowLedgers e = 0 ∧
        (i128Min ≤ keeperRewardOf e keeper + keeperNet ∧
          keeperRewardOf e keeper + keeperNet ≤ i128Max) ∧
        e' = e.credit inv keeper keeperNet) := by
  by_cases window : 0 < disputeWindowLedgers e
  · have open' : disputeWindowLedgers e ≠ 0 := by omega
    simp [creditExecution, addPendingCredit, heldCredit, window, open']
  · have closed : disputeWindowLedgers e = 0 := by omega
    simp [creditExecution, closed]

@[simp] theorem feesAccrued_credit (keeper : Address) (amount : Int) :
    feesAccrued (e.credit inv keeper amount) = feesAccrued e := by
  simp [feesAccrued]

@[simp] theorem feesAccrued_savePending (keeper : Address) (credits : List PendingCredit) :
    feesAccrued (e.savePending inv keeper credits) = feesAccrued e := by
  simp [feesAccrued]

theorem executeTask_effect {proof : Bytes}
    (ran : (executeTask inv keeper taskId proof).Returns e () e') :
    Effect token inv e (.executeTask keeper taskId proof) .unit e' := by
  simp [executeTask, recordSuccess, creditExecution_returns] at ran
  obtain ⟨active, signed, short, task, found, claimed, claimer, ahead, approved, keeperNet, fee,
    split, credited, held, fits, rfl⟩ := ran
  -- The two ways of crediting leave the fee accumulator alone.
  rcases held with ⟨window, rfl⟩ | ⟨window, ⟨-, stored⟩, rfl⟩
  · exact .executeTaskHeld ⟨active, signed⟩ short found claimed claimer ahead approved split window
      fun nonzero => (fits nonzero).2
  · exact .executeTaskPaid ⟨active, signed⟩ short found claimed claimer ahead approved split window
      stored fun nonzero => (fits nonzero).2

theorem keeperRewardOf_finalized (keeper : Address) (ready held : List PendingCredit) :
    keeperRewardOf ((e.finalized inv keeper ready held).emitFinalized keeper ready) keeper =
      keeperRewardOf e keeper + (ready.map PendingCredit.netReward).sum := by
  by_cases empty : ready = [] <;> simp [keeperRewardOf, empty]

theorem countSlash_saveSlash (keeper : Address) (amount : Int) (reason : Symbol) :
    (e.countSlashId.saveSlash inv (e.slashCounter.getD 0 + 1)
      { keeper, amount, reason, ledger := e.sequence, appealed := false }).countSlash inv keeper
      amount = e.bookSlash inv keeper amount reason := by
  simp [Env.bookSlash, Env.countSlash, Env.setSlashHistory, Env.extend, Env.newSlash,
    readSlashHistory]

@[simp] theorem readSlashHistory_saveSlash (keeper : Address) (slashId : Nat)
    (record : SlashRecord) :
    readSlashHistory (e.countSlashId.saveSlash inv slashId record) keeper =
      readSlashHistory e keeper := by
  simp [readSlashHistory]

@[simp] theorem readSlashHistory_saveStake (keeper staker : Address) (amount : Int) :
    readSlashHistory (e.saveStake inv staker amount) keeper =
      readSlashHistory e keeper := by
  simp [readSlashHistory]

@[simp] theorem readSlashHistory_drawUnbond (keeper staker : Address) (request : UnbondRequest)
    (amount : Int) :
    readSlashHistory (e.drawUnbond inv staker request amount) keeper =
      readSlashHistory e keeper := by
  simp [readSlashHistory]

theorem slash_effect {admin treasury : Address} {amount : Int} {reason : Symbol} {slashId : Nat}
    (ran : (slash token inv admin keeper amount reason treasury).Returns e slashId e') :
    Effect token inv e (.slash admin keeper amount reason treasury) (.id slashId) e' := by
  simp [slash, countSlash_saveSlash] at ran
  obtain ⟨admitted, positive, -, slashable, -, -, drawn, draws, numbered, ⟨counted, -, totaled⟩, _,
    paid, ⟨configured, payout⟩, rfl, rfl⟩ := ran
  rcases draws with ⟨exceeds, request, found, -, rfl⟩ | ⟨covered, rfl⟩
  · -- The whole stake goes, and the rest comes out of the request.
    simp [found, min_eq_right exceeds.le] at slashable numbered counted totaled configured payout ⊢
    exact .slashUnbond admitted positive exceeds found slashable numbered counted totaled configured
      payout
  · simp [min_eq_left covered] at numbered counted totaled configured payout ⊢
    exact .slashStake admitted positive covered slashable numbered counted totaled configured
      payout

@[simp] theorem keeperStakeOf_removeSlash (keeper : Address) (slashId : Nat) :
    keeperStakeOf (e.removeSlash slashId) keeper = keeperStakeOf e keeper := by
  simp [keeperStakeOf]

theorem resolveSlashAppeal_effect {admin : Address} {slashId : Nat} {upholdAppeal : Bool}
    (ran : (resolveSlashAppeal token inv admin slashId upholdAppeal).Returns e () e') :
    Effect token inv e (.resolveSlashAppeal admin slashId upholdAppeal) .unit e' := by
  simp [resolveSlashAppeal, refundSlash] at ran
  obtain ⟨admitted, record, found, appealed, _, decided, resolved, rfl⟩ := ran
  cases upholdAppeal with
  | false =>
    obtain rfl : decided = e.bump.removeSlash slashId := by simpa using resolved
    exact .rejectSlashAppeal admitted found appealed
  | true =>
    simp at resolved
    obtain ⟨fits, configured, refund⟩ := resolved
    exact .upholdSlashAppeal admitted found appealed fits configured refund

theorem setPendingReward_extend {credits : List PendingCredit} (nonempty : credits ≠ []) :
    (e.setPendingReward inv keeper credits).extend (.pendingReward keeper)
      keeperBalanceBumpThreshold keeperBalanceBumpLedgers = e.savePending inv keeper credits := by
  simp [Env.savePending, Env.setPendingReward, Env.extend, nonempty]

theorem disputeExecution_effect {owner : Address}
    (ran : (disputeExecution inv owner taskId).Returns e () e') :
    Effect token inv e (.disputeExecution owner taskId) .unit e' := by
  simp [disputeExecution] at ran
  obtain ⟨signed, task, found, owned, keeper, claimer, index, located, credit, read, undisputed,
    within, rfl⟩ := ran
  -- The rewritten list is not empty, so it is stored and not dropped.
  have nonempty : (pendingCreditsOf e keeper).set index
      { credit with disputed := true } ≠ [] := by
    intro empty
    have short := congrArg List.length empty
    rw [List.length_set, List.length_nil, List.length_eq_zero_iff] at short
    simp [short] at read
  rw [setPendingReward_extend nonempty]
  exact .disputeExecution signed found owned claimer located read undisputed within

@[simp] theorem accrue_zero : e.accrue 0 = e := by
  simp [Env.accrue]

theorem resolveExecutionDispute_effect {admin : Address} {upholdDispute : Bool}
    (ran : (resolveExecutionDispute inv admin taskId upholdDispute).Returns e () e') :
    Effect token inv e (.resolveExecutionDispute admin taskId upholdDispute) .unit e' := by
  simp [resolveExecutionDispute] at ran
  obtain ⟨admitted, task, found, keeper, claimer, index, located, remaining, forfeited, _, walked,
    _, settled, rfl⟩ := ran
  obtain ⟨inside, -, -⟩ := List.findIdx?_eq_some_iff_getElem.mp located
  have read := List.getElem?_eq_getElem inside
  rw [← Nat.zero_add index] at walked
  cases upholdDispute with
  | false =>
    simp only [resolveCredits_released read, Prod.mk.injEq] at walked
    obtain ⟨⟨rfl, rfl⟩, rfl⟩ := walked
    obtain ⟨positive, -⟩ | ⟨-, rfl⟩ := settled
    · omega
    · exact .releaseDispute admitted found claimer located read
  | true =>
    simp only [resolveCredits_upheld read, Prod.mk.injEq] at walked
    obtain ⟨-, ⟨rfl, rfl⟩, rfl⟩ := walked
    simp only [Int.zero_add] at settled
    rcases settled with ⟨positive, fits, rfl⟩ | ⟨negative, rfl⟩
    · have exact : Effect token inv e (.resolveExecutionDispute admin taskId true) .unit _ :=
        .upholdDispute admitted found claimer located read fun _ => (fits positive.ne').2
      rwa [max_eq_left positive.le] at exact
    · have exact : Effect token inv e (.resolveExecutionDispute admin taskId true) .unit _ :=
        .upholdDispute admitted found claimer located read fun positive => by omega
      rwa [max_eq_right negative, accrue_zero] at exact

/-- A call that returns has the effect of its entry point. -/
theorem runCall_effect {call : Call} (ran : (runCall token inv call).Returns e value e') :
    Effect token inv e call value e' := by
  cases call with
  | initializeRegistry admin rewardToken feeBps =>
    simp [runCall, initializeRegistry] at ran
    obtain ⟨absent, legal, signed, rfl, rfl⟩ := ran
    exact .initializeRegistry absent legal signed
  | pause | unpause | upgrade =>
    simp [runCall, pause, unpause, setPaused, upgrade] at ran
    obtain ⟨admitted, rfl, rfl⟩ := ran
    constructor
    exact admitted
  | setFeeBps | setMinReward | setReputationFloor | setMinStake | setDisputeWindow =>
    -- Every setter asks for the administrator and for a legal value.
    simp [runCall, setFeeBps, setMinReward, setReputationFloor, setMinStake,
      setDisputeWindow] at ran
    obtain ⟨admitted, legal, rfl, rfl⟩ := ran
    constructor
    · exact admitted
    · exact legal
  | transferAdmin admin newAdmin =>
    simp [runCall, transferAdmin] at ran
    obtain ⟨admitted, accepted, rfl, rfl⟩ := ran
    exact .transferAdmin admitted accepted
  | sweepFees admin treasury amount =>
    simp [runCall, sweepFees] at ran
    obtain ⟨admitted, positive, accrued, _, paid, ⟨configured, payout⟩, rfl, rfl⟩ := ran
    exact .sweepFees admitted positive accrued configured payout
  | registerTask owner params =>
    simp [runCall, registerTask] at ran
    obtain ⟨active, signed, valid, _, paid, ⟨configured, escrowed⟩, room, rfl, rfl⟩ := ran
    exact .registerTask ⟨active, signed⟩ valid configured escrowed room
  | batchRegisterTasks owner tasks maxTotalReward =>
    simp [runCall, batchRegisterTasks, validateBatch_returns, registerEntries_returns,
      ← Option.ne_none_iff_exists'] at ran
    obtain ⟨active, signed, nonempty, small, ceiling, ⟨valid, fit⟩, within, configured, taskIds,
      registered, rfl⟩ := ran
    exact .batchRegisterTasks ⟨active, signed⟩ nonempty small ceiling valid fit within configured
      registered
  | increaseReward owner taskId additional =>
    simp [runCall, increaseReward] at ran
    obtain ⟨active, signed, positive, task, found, owned, unfinished, _, paid,
      ⟨configured, escrowed⟩, fits, rfl, rfl⟩ := ran
    exact .increaseReward ⟨active, signed⟩ positive found owned unfinished configured escrowed fits
  | extendDeadline owner taskId newDeadline =>
    simp [runCall, extendDeadline] at ran
    obtain ⟨active, signed, task, found, owned, unfinished, later, rfl, rfl⟩ := ran
    exact .extendDeadline ⟨active, signed⟩ found owned unfinished later
  | updateVerifier owner taskId newVerifier =>
    simp [runCall, updateVerifier] at ran
    obtain ⟨active, signed, task, found, owned, unclaimed, rfl, rfl⟩ := ran
    exact .updateVerifier ⟨active, signed⟩ found owned unclaimed
  | claimTask keeper taskId =>
    simp [runCall, claimTask] at ran
    obtain ⟨active, signed, staked, task, found, ahead, missed, claimable, reputable, met, rfl,
      rfl⟩ := ran
    exact .claimTask ⟨active, signed⟩ staked found ahead claimable reputable met
  | executeTask keeper taskId proof =>
    simp only [runCall, EStateM.returns_map] at ran
    obtain ⟨_, ran, rfl⟩ := ran
    exact executeTask_effect ran
  | cancelTask owner taskId =>
    simp [runCall, cancelTask] at ran
    obtain ⟨signed, task, found, owned, unfinished, unlocked, _, paid, ⟨configured, refund⟩, rfl,
      rfl⟩ := ran
    exact .cancelTask signed found owned unfinished unlocked configured refund
  | expireTask taskId =>
    simp [runCall, expireTask] at ran
    obtain ⟨task, found, unfinished, passed, _, paid, ⟨configured, refund⟩, rfl, rfl⟩ := ran
    exact .expireTask found unfinished passed configured refund
  | withdrawRewards keeper =>
    simp [runCall, withdrawRewards, emitFinalized_returns, keeperRewardOf_finalized] at ran
    obtain ⟨signed, fit, positive, _, paid, ⟨configured, payout⟩, rfl, rfl⟩ := ran
    exact .withdrawRewards signed rfl rfl fit rfl positive configured payout
  | stakeDeposit keeper amount =>
    simp [runCall, stakeDeposit] at ran
    obtain ⟨ready, active, positive, signed, ⟨-, fits⟩, _, paid, ⟨configured, deposited⟩, rfl,
      rfl⟩ := ran
    exact .stakeDeposit ready ⟨active, signed⟩ positive fits configured deposited
  | initiateUnbond keeper amount =>
    simp [runCall, initiateUnbond] at ran
    obtain ⟨ready, active, positive, signed, staked, single, -, rfl, rfl⟩ := ran
    exact .initiateUnbond ready ⟨active, signed⟩ positive staked single
  | withdrawStake keeper =>
    simp [runCall, withdrawStake] at ran
    obtain ⟨ready, signed, request, found, elapsed, _, paid, ⟨configured, payout⟩, rfl, rfl⟩ := ran
    exact .withdrawStake ready signed found elapsed configured payout
  | slash admin keeper amount reason treasury =>
    simp only [runCall, EStateM.returns_map] at ran
    obtain ⟨_, ran, rfl⟩ := ran
    exact slash_effect ran
  | raiseSlashAppeal keeper slashId =>
    simp [runCall, raiseSlashAppeal] at ran
    obtain ⟨signed, record, found, slashed, unappealed, within, rfl, rfl⟩ := ran
    exact .raiseSlashAppeal signed found slashed unappealed within
  | resolveSlashAppeal admin slashId upholdAppeal =>
    simp only [runCall, EStateM.returns_map] at ran
    obtain ⟨_, ran, rfl⟩ := ran
    exact resolveSlashAppeal_effect ran
  | disputeExecution owner taskId =>
    simp only [runCall, EStateM.returns_map] at ran
    obtain ⟨_, ran, rfl⟩ := ran
    exact disputeExecution_effect ran
  | resolveExecutionDispute admin taskId upholdDispute =>
    simp only [runCall, EStateM.returns_map] at ran
    obtain ⟨_, ran, rfl⟩ := ran
    exact resolveExecutionDispute_effect ran

end KeeperNetwork
