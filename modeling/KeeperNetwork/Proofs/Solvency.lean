import KeeperNetwork.Proofs.Runs

/-! The registry holds what it owes: its balance covers every bucket, to the last unit. -/

namespace KeeperNetwork

open Soroban Bookkeeping

/-- What a call kept although it booked it as paid, because the registry was its own treasury. -/
@[local simp] def Receipt.retained (receipt : Receipt) : Int :=
  match receipt.call with
  | .sweepFees _ treasury amount => if receipt.before.self = treasury then amount else 0
  | .slash _ _ amount _ treasury => if receipt.before.self = treasury then amount else 0
  | _ => 0

/-- The surplus is explained by tokens sent from outside and payouts to the registry itself. -/
def solvency : Account World Entry where
  stock := surplus
  flow
    | .call receipt => receipt.retained
    | .outside amount => amount

/-- What is escrowed for a task. -/
def escrowOf (taskId : Nat) (e : Env) : Int := e.tasks.weightAt Task.escrow taskId

/-- The token lets the escrow of a topped up task drift only as allowed during the transfer. -/
def KeepsToppedUp (allowed : AddSubmonoid ℤ) (call : Call) (token : Token) : Prop :=
  ∀ owner taskId additional, call = .increaseReward owner taskId additional →
    Across (Calm (escrowOf taskId) allowed) token

/-- What a transfer adds to the balance of one holder. -/
def netGain (holder src dst : Address) (amount : Int) : Int :=
  (if holder = dst then amount else 0) - (if holder = src then amount else 0)

variable {allowed : AddSubmonoid ℤ} {token : Token} {inv : Invocation} {e pre paid e' : Env}
  {src dst : Address} {amount : Int}

theorem surplus_move {balances : Balances}
    (moved : e.balances.move src dst amount = some balances) :
    surplus { e with balances }.toWorld = surplus e + netGain e.self src dst amount := by
  -- A transfer changes the balance of the registry and no bucket.
  obtain ⟨-, -, after⟩ := Balances.move_eq_some moved
  have owed : buckets { e with balances }.toWorld = buckets e := rfl
  simp only [surplus, owed, after, Balances.moved, netGain]
  omega

theorem Wraps.surplus (wraps : Wraps (Calm (Env.unexplained solvency) allowed) token)
    (moved : (token src dst amount).Returns pre () paid) (formed : WellFormed pre) :
    paid.unexplained solvency - (pre.unexplained solvency + netGain pre.self src dst amount) ∈
      allowed := by
  -- The drifts before and after the move add up, and the move itself is a plain gain or loss.
  obtain ⟨before, after, ⟨steady, first⟩, exact, -, second⟩ := wraps _ _ _ _ _ moved
  obtain ⟨balances, done, rfl⟩ := exactTransfer_returns.mp exact
  have gained := surplus_move done
  have still : WellFormed { before with balances }.toWorld :=
    (steady.wellFormed formed).frame (by simp)
  have sum := allowed.add_mem (second still) (first formed)
  simp only [Env.unexplained, Account.unexplained, solvency] at sum gained ⊢
  rw [gained, steady.self] at sum
  convert sum using 1
  omega

theorem unexplained_solvency (e : Env) :
    e.unexplained solvency = e.balances.of e.self - (e.tasks.total Task.escrow +
      e.keeperReward.total id + feesAccrued e + e.keeperStake.total id +
      e.unbondRequest.total UnbondRequest.amount + e.pendingReward.total creditsTotal) -
      solvency.booked e.history := rfl

section Writes

variable (e : Env)

/-- Renewing the instance costs nothing. -/
@[simp] theorem unexplained_bump : e.bump.unexplained solvency = e.unexplained solvency := rfl

@[simp] theorem unexplained_emit (event : Event) :
    (e.emit event).unexplained solvency = e.unexplained solvency := rfl

@[simp] theorem unexplained_countTask :
    e.countTask.unexplained solvency = e.unexplained solvency := rfl

@[simp] theorem unexplained_noteMissed (missed : Option Address) :
    (e.noteMissed inv missed).unexplained solvency = e.unexplained solvency := rfl

@[simp] theorem unexplained_trackAction (keeper : Address) (success : Bool) :
    (e.trackAction inv keeper success).unexplained solvency = e.unexplained solvency := rfl

@[simp] theorem unexplained_removeSlash (slashId : Nat) :
    (e.removeSlash slashId).unexplained solvency = e.unexplained solvency := rfl

@[simp] theorem unexplained_saveSlash (slashId : Nat) (record : SlashRecord) :
    (e.saveSlash inv slashId record).unexplained solvency = e.unexplained solvency := rfl

@[simp] theorem unexplained_bookSlash (keeper : Address) (booked : Int) (reason : Symbol) :
    (e.bookSlash inv keeper booked reason).unexplained solvency = e.unexplained solvency := rfl

@[simp] theorem unexplained_emitFinalized (keeper : Address) (ready : List PendingCredit) :
    (e.emitFinalized keeper ready).unexplained solvency = e.unexplained solvency := rfl

attribute [local simp] Finmap.total_insert

/-- Writing a task frees the escrow it held and binds the escrow it holds now. -/
@[simp] theorem unexplained_saveTask (taskId : Nat) (task : Task) :
    (e.saveTask inv taskId task).unexplained solvency =
      e.unexplained solvency + e.tasks.weightAt Task.escrow taskId - task.escrow := by
  simp [unexplained_solvency, feesAccrued]
  omega

@[simp] theorem unexplained_credit (keeper : Address) (credited : Int) :
    (e.credit inv keeper credited).unexplained solvency = e.unexplained solvency - credited := by
  simp [unexplained_solvency, keeperRewardOf_eq]
  omega

@[simp] theorem unexplained_accrue (accrued : Int) :
    (e.accrue accrued).unexplained solvency = e.unexplained solvency - accrued := by
  simp [unexplained_solvency]
  omega

@[simp] theorem unexplained_savePending (keeper : Address) (credits : List PendingCredit) :
    (e.savePending inv keeper credits).unexplained solvency = e.unexplained solvency +
      creditsTotal (pendingCreditsOf e keeper) - creditsTotal credits := by
  -- Only the bucket of the pending credits differs.
  simp only [unexplained_solvency, total_savePending, Env.savePending_balances,
    Env.savePending_self, Env.savePending_tasks, Env.savePending_keeperReward,
    feesAccrued_savePending, Env.savePending_keeperStake, Env.savePending_unbondRequest,
    Env.savePending_history]
  omega

/-- Writing a stake frees the old one and binds the new one. -/
@[simp] theorem unexplained_saveStake (keeper : Address) (stake : Int) :
    (e.saveStake inv keeper stake).unexplained solvency =
      e.unexplained solvency + keeperStakeOf e keeper - stake := by
  simp [unexplained_solvency, feesAccrued, keeperStakeOf_eq]
  omega

/-- Writing a keeper's balance frees the old one and binds the new one. -/
@[simp] theorem unexplained_setKeeperReward (keeper : Address) (owed : Int) :
    (e.setKeeperReward inv keeper owed).unexplained solvency =
      e.unexplained solvency + keeperRewardOf e keeper - owed := by
  simp [unexplained_solvency, feesAccrued, keeperRewardOf_eq]
  omega

@[simp] theorem unexplained_saveUnbondRequest (keeper : Address) (request : UnbondRequest) :
    (e.saveUnbondRequest inv keeper request).unexplained solvency = e.unexplained solvency +
      e.unbondRequest.weightAt UnbondRequest.amount keeper - request.amount := by
  simp [unexplained_solvency, feesAccrued]
  omega

@[simp] theorem unexplained_removeUnbondRequest (keeper : Address) :
    (e.removeUnbondRequest keeper).unexplained solvency =
      e.unexplained solvency + e.unbondRequest.weightAt UnbondRequest.amount keeper := by
  simp [unexplained_solvency, feesAccrued, Finmap.total_erase]
  omega

theorem unexplained_drawUnbond {keeper : Address} {request : UnbondRequest} {drawn : Int}
    (found : e.unbondRequest.lookup keeper = some request) :
    (e.drawUnbond inv keeper request drawn).unexplained solvency =
      e.unexplained solvency + drawn := by
  -- Only the bucket of the unbonding stakes differs.
  simp only [unexplained_solvency, total_drawUnbond found, feesAccrued, Env.drawUnbond_balances,
    Env.drawUnbond_self, Env.drawUnbond_tasks, Env.drawUnbond_keeperReward,
    Env.drawUnbond_feesAccrued, Env.drawUnbond_keeperStake, Env.drawUnbond_pendingReward,
    Env.drawUnbond_history]
  omega

theorem unexplained_finalized (keeper : Address) :
    (e.finalized inv keeper (readyCredits (pendingCreditsOf e keeper) e.sequence)
      (heldCredits (pendingCreditsOf e keeper) e.sequence)).unexplained solvency =
      e.unexplained solvency := by
  -- What leaves the pending credits arrives among the rewards.
  obtain ⟨rewards, pending⟩ := total_finalized e inv keeper
  simp only [unexplained_solvency, rewards, pending, feesAccrued, Env.finalized_balances,
    Env.finalized_self, Env.finalized_tasks, Env.finalized_feesAccrued, Env.finalized_keeperStake,
    Env.finalized_unbondRequest, Env.finalized_history]
  omega

end Writes

variable {call : Call} {value : Value}

theorem surplus_record {change : Int} (drift : change ∈ allowed)
    (matched : e'.unexplained solvency = e.unexplained solvency + change +
      Receipt.retained ⟨e, call, value, e'⟩) :
    Drifts allowed (Env.unexplained solvency) e (e'.record e call value) := by
  unfold Drifts
  rw [Env.unexplained_record, matched]
  -- The record books exactly what the registry retained.
  convert drift using 1
  simp only [solvency]
  omega

theorem Wraps.balances (wraps : Wraps (Calm (Env.unexplained solvency) allowed) token)
    (moved : (token src dst amount).Returns pre () paid) (formed : WellFormed pre) {event : Event}
    (matched : pre.unexplained solvency + netGain pre.self src dst amount =
      e.unexplained solvency + Receipt.retained ⟨e, call, value, paid⟩) :
    Drifts allowed (Env.unexplained solvency) e
      ((paid.emit event).record e call value) := by
  refine surplus_record (wraps.surplus moved formed) ?_
  rw [unexplained_emit, matched]
  simp only [Receipt.retained]
  omega

variable {self : Address}

theorem netGain_receive (apart : self ≠ src) : netGain self src self amount = amount := by
  simp [netGain, apart]

theorem netGain_pay (apart : self ≠ dst) : netGain self self dst amount = -amount := by
  simp [netGain, apart]

theorem netGain_retain :
    netGain self self dst amount = (if self = dst then amount else 0) - amount := by
  simp [netGain]

theorem Wraps.registers (inv : Invocation)
    (wraps : Wraps (Calm (Env.unexplained solvency) allowed) token) {owner : Address}
    {params : BatchTaskParams} (formed : WellFormed pre) (foreign : pre.self ≠ owner)
    (moved : (token owner pre.self params.reward).Returns pre () paid) :
    Drifts allowed (Env.unexplained solvency) pre
      (paid.countTask.saveTask inv (paid.taskCounter.getD 0 + 1) (newTask owner params)) := by
  have gained := wraps.surplus moved formed
  have steady := (wraps.mono fun _ _ => And.left).steady moved
  -- The new number was free, so the escrow of the task is all new.
  have fresh := Finmap.weightAt_of_lookup_none Task.escrow
    ((steady.wellFormed formed).absent (Nat.lt_succ_self _))
  have bound : (newTask owner params).escrow = params.reward := rfl
  unfold Drifts
  convert gained using 1
  rw [netGain_receive foreign, unexplained_saveTask, unexplained_countTask, Env.countTask_tasks,
    fresh, bound]
  omega

theorem Registered.surplus {owner : Address} {entries : List BatchTaskParams} {taskIds : List Nat}
    (wraps : Wraps (Calm (Env.unexplained solvency) allowed) token) (formed : WellFormed e)
    (foreign : e.self ≠ owner) (positive : ∀ params ∈ entries, 0 < params.reward)
    (registered : Registered token inv owner entries e taskIds e') :
    Drifts allowed (Env.unexplained solvency) e e' := by
  -- Each entry is paid for and stored before the next one.
  induction registered with
  | done => exact .refl _
  | next escrowed room others ih =>
    obtain ⟨here, later⟩ := List.forall_mem_cons.mp positive
    have paid := (wraps.mono fun _ _ => And.left).steady escrowed
    have stored := paid.trans (.store inv (paid.self ▸ foreign.symm) here)
    have here := wraps.registers inv formed foreign escrowed
    exact here.trans (ih (stored.emit.wellFormed formed) (by simpa [paid.self] using foreign) later)

attribute [local simp] Task.escrow

/-- A call changes the unexplained surplus only by what its token may. -/
theorem Effect.surplus (wraps : Wraps (Calm (Env.unexplained solvency) allowed) token)
    (kept : KeepsToppedUp allowed call token) (formed : WellFormed e)
    (unsigned : e.self ∉ inv.auths) (effect : Effect token inv e call value e') :
    Drifts allowed (Env.unexplained solvency) e (e'.record e call value) := by
  -- A signer is never the registry itself.
  have outside : ∀ signer ∈ inv.auths, e.self ≠ signer :=
    fun signer signed same => unsigned (same ▸ signed)
  cases effect with
  | @sweepFees admin treasury amount _ admitted positive accrued configured payout =>
    have unpaid : Effect skipTransfer inv e (.sweepFees admin treasury amount) .unit _ :=
      .sweepFees admitted positive accrued configured (skipTransfer_returns.mpr rfl)
    refine wraps.balances payout (formed.paying unsigned unpaid) ?_
    simp [unexplained_solvency, feesAccrued, netGain_retain]
    omega
  | registerTask permitted valid _ escrowed =>
    have registered := wraps.registers inv formed.bump (outside _ permitted.2) escrowed
    refine surplus_record registered ?_
    simp
  | batchRegisterTasks permitted _ _ _ valid _ _ _ registered =>
    refine surplus_record (registered.surplus wraps formed.bump (outside _ permitted.2)
      fun params member => (valid params member).positive) ?_
    simp
  | increaseReward permitted positive found _ unfinished _ escrowed =>
    -- The record written back was loaded before the transfer.
    have gained := wraps.surplus escrowed formed.bump
    have held := (kept _ _ _ rfl escrowed).2 formed.bump
    refine surplus_record (allowed.add_mem gained held) ?_
    simp [netGain_receive (outside _ permitted.2), escrowOf, unfinished,
      Finmap.weightAt_of_lookup _ found]
    omega
  | cancelTask signed found _ unfinished _ _ refund =>
    refine wraps.balances refund (formed.bump.rewrite found rfl rfl) ?_
    simp [netGain_pay (outside _ signed), Finmap.weightAt_of_lookup _ found, unfinished]
  | expireTask found unfinished _ _ refund =>
    refine wraps.balances refund (formed.bump.rewrite found rfl rfl) ?_
    simp [netGain_pay (formed.tasks _ _ found).foreign.symm, Finmap.weightAt_of_lookup _ found,
      unfinished]
  | withdrawRewards signed readied waiting fit owed positive configured payout =>
    refine wraps.balances payout (formed.paying unsigned (.withdrawRewards signed readied waiting
      fit owed positive configured (skipTransfer_returns.mpr rfl))) ?_
    subst readied waiting
    simp [netGain_pay (outside _ signed), unexplained_finalized, keeperRewardOf_finalized, owed]
    omega
  | stakeDeposit ready permitted positive fits configured deposited =>
    refine wraps.balances deposited (formed.paying unsigned (.stakeDeposit ready permitted positive
      fits configured (skipTransfer_returns.mpr rfl))) ?_
    simp [netGain_receive (outside _ permitted.2)]
    omega
  | withdrawStake ready signed found elapsed configured payout =>
    refine wraps.balances payout formed.bump.removeUnbondRequest ?_
    simp [Finmap.weightAt_of_lookup _ found, netGain_pay (outside _ signed)]
  | @slashStake admin keeper treasury amount reason _ admitted positive covered slashable numbered
      counted totaled configured payout =>
    have unpaid : Effect skipTransfer inv e (.slash admin keeper amount reason treasury) _ _ :=
      .slashStake admitted positive covered slashable numbered counted totaled configured
        (skipTransfer_returns.mpr rfl)
    refine wraps.balances payout (formed.paying unsigned unpaid) ?_
    simp [netGain_retain]
    omega
  | @slashUnbond admin keeper treasury amount reason _ _ admitted positive exceeds found slashable
      numbered counted totaled configured payout =>
    have unpaid : Effect skipTransfer inv e (.slash admin keeper amount reason treasury) _ _ :=
      .slashUnbond admitted positive exceeds found slashable numbered counted totaled configured
        (skipTransfer_returns.mpr rfl)
    refine wraps.balances payout (formed.paying unsigned unpaid) ?_
    simp [netGain_retain, unexplained_drawUnbond, found]
  | upholdSlashAppeal admitted found appealed fits configured refund =>
    refine wraps.balances refund (formed.paying unsigned (.upholdSlashAppeal admitted found appealed
      fits configured (skipTransfer_returns.mpr rfl))) ?_
    simp [netGain_receive (outside _ admitted.2)]
    omega
  | extendDeadline _ found | updateVerifier _ found =>
    refine surplus_record allowed.zero_mem ?_
    simp [Finmap.weightAt_of_lookup _ found]
  | claimTask _ _ found _ claimable =>
    refine surplus_record allowed.zero_mem ?_
    rcases claimable with ⟨pending, -⟩ | ⟨claimed, -⟩
    · simp [Finmap.weightAt_of_lookup _ found, pending]
    · simp [Finmap.weightAt_of_lookup _ found, claimed]
  | executeTaskHeld _ _ found claimed _ _ _ split =>
    refine surplus_record allowed.zero_mem ?_
    obtain ⟨-, rfl⟩ := splitReward_ok split
    simp [Finmap.weightAt_of_lookup _ found, claimed, heldCredit, creditsTotal]
    omega
  | executeTaskPaid _ _ found claimed _ _ _ split =>
    refine surplus_record allowed.zero_mem ?_
    obtain ⟨-, rfl⟩ := splitReward_ok split
    simp [Finmap.weightAt_of_lookup _ found, claimed]
    omega
  | initiateUnbond _ _ _ _ single =>
    refine surplus_record allowed.zero_mem ?_
    simp [Finmap.weightAt_of_lookup_none _ single]
    omega
  | disputeExecution _ _ _ _ _ read | releaseDispute _ _ _ _ read =>
    refine surplus_record allowed.zero_mem ?_
    simp [creditsTotal_set read]
  | upholdDispute _ _ _ _ read =>
    refine surplus_record allowed.zero_mem ?_
    have amount := formed.credit_nonneg (List.mem_of_getElem? read)
    simp [creditsTotal_eraseIdx read, max_eq_left amount]
    omega
  | _ =>
    refine surplus_record allowed.zero_mem ?_
    simp [unexplained_solvency, feesAccrued]

theorem ExactToken.keeps (exact : ExactToken token) (call : Call) :
    KeepsToppedUp allowed call token := by
  intro owner taskId additional _
  exact Calm.across (exact.wraps_refl Calm.refl) fun _ _ => rfl

/-- The surplus is explained in every run with an exact token. -/
theorem solvency_conserved : Conserved solvency where
  call exact formed unsigned effect := by
    refine Drifts.bot_iff.mp ?_
    exact effect.surplus (exact.wraps_refl Calm.refl) (exact.keeps _) formed unsigned
  clock _ _ _ := rfl
  -- What arrives is in no bucket, so all of it is surplus.
  outside w balances := by
    have owed : buckets { w with balances } = buckets w := rfl
    simp only [solvency, surplus, owed]
    omega

/-- Everything that was sent to the registry without a call of its own. -/
def outsideTotal (history : List Entry) : Int :=
  (history.map fun
    | .call _ => 0
    | .outside amount => amount).sum

/-- Everything the registry kept although it booked it as paid. -/
def retainedTotal (history : List Entry) : Int := receiptTotal Receipt.retained history

/-- The registry paid out to itself. -/
def Receipt.PaysItself (receipt : Receipt) : Prop :=
  match receipt.call with
  | .sweepFees _ treasury _ => receipt.before.self = treasury
  | .slash _ _ _ _ treasury => receipt.before.self = treasury
  | _ => False

theorem solvency_booked (history : List Entry) :
    solvency.booked history = outsideTotal history + retainedTotal history := by
  -- An arrival books its amount, and a call what it retained.
  induction history with
  | nil => rfl
  | cons entry rest ih =>
    rw [Account.booked_cons, ih]
    cases entry <;> simp only [solvency, outsideTotal, retainedTotal, receiptTotal_call,
      receiptTotal_outside, List.map_cons, List.sum_cons] <;> omega

theorem Effect.retained (effect : Effect token inv e call value e') :
    let receipt : Receipt := ⟨e, call, value, e'⟩
    (receipt.PaysItself → 0 < receipt.retained) ∧
      (¬ receipt.PaysItself → receipt.retained = 0) := by
  -- Only a sweep and a slash can pay the registry itself.
  cases effect with
  | sweepFees _ positive | slashStake _ positive | slashUnbond _ positive =>
    simp only [Receipt.PaysItself, Receipt.retained]
    exact ⟨fun itself => by rwa [if_pos itself], fun other => if_neg other⟩
  | _ => simp [Receipt.PaysItself]

theorem Effect.retained_nonneg (effect : Effect token inv e call value e') :
    0 ≤ Receipt.retained ⟨e, call, value, e'⟩ := by
  obtain ⟨itself, other⟩ := effect.retained
  by_cases pays : Receipt.PaysItself ⟨e, call, value, e'⟩
  · exact (itself pays).le
  · exact (other pays).ge

theorem retainedTotal_eq_zero_iff {history : List Entry}
    (exact : ∀ receipt, .call receipt ∈ history →
      (receipt.PaysItself → 0 < receipt.retained) ∧ (¬ receipt.PaysItself → receipt.retained = 0)) :
    0 ≤ retainedTotal history ∧ (retainedTotal history = 0 ↔
      ∀ receipt, .call receipt ∈ history → ¬ receipt.PaysItself) := by
  have nonneg (receipt : Receipt) (member : .call receipt ∈ history) : 0 ≤ receipt.retained := by
    obtain ⟨itself, other⟩ := exact receipt member
    by_cases pays : receipt.PaysItself
    · exact (itself pays).le
    · exact (other pays).ge
  refine ⟨receiptTotal_nonneg nonneg, (receiptTotal_eq_zero nonneg).trans ?_⟩
  -- A call retains nothing exactly when it does not pay the registry itself.
  refine forall₂_congr fun receipt member => ⟨?_, (exact receipt member).2⟩
  intro zero itself
  have positive := (exact receipt member).1 itself
  omega

/-- A fresh registry, at a time when one keeper holds all the tokens. -/
def beforeStaking : Env :=
  genesis ⟨0⟩ ⟨1⟩ ⟨2⟩ 100 (hundredOf ⟨3⟩) 0 0

/-- The same registry after the keeper staked and was slashed in favour of a treasury. -/
def slashedTo (treasury : Address) : Env :=
  let staked :=
    (invoke exactTransfer (signedBy [⟨3⟩] 1000) (.stakeDeposit ⟨3⟩ 100) beforeStaking).2
  (invoke exactTransfer (signedBy [⟨1⟩] 1000) (.slash ⟨1⟩ ⟨3⟩ 40 "late" treasury) staked).2

theorem beforeStaking_fresh : Fresh beforeStaking := genesis_fresh (by decide)

theorem slashedTo_run (treasury : Address) : ExactRun beforeStaking (slashedTo treasury) :=
  .tail (.tail .refl (.call _ _ _ _ exactTransfer_exact (by decide) rfl))
    (.call _ _ _ _ exactTransfer_exact (by decide) rfl)

/--
The balance equals what the registry owes plus what was sent to it from outside.

It does so exactly as long as nobody made the registry pay fees or slashed stake to itself.
-/
theorem balance_eq_buckets_iff {start : Env} (fresh : Fresh start) (run : ExactRun start e) :
    e.balances.of e.self =
        buckets e + (start.balances.of start.self + outsideTotal e.history) ↔
      ∀ receipt, .call receipt ∈ e.history → ¬ receipt.PaysItself := by
  -- The balance is what was there, what arrived, what is owed and what was retained.
  have explained := solvency_conserved.explained fresh run
  have initially := fresh.buckets
  obtain ⟨-, same⟩ := retainedTotal_eq_zero_iff
    (ExactRun.receipts (fun _ _ effect => effect.retained) fresh run)
  rw [solvency_booked] at explained
  simp only [solvency, surplus] at explained
  rw [← same]
  omega

/-- A slash in favour of somebody else leaves the balance equal to what is owed. -/
theorem balance_eq_buckets_slashed :
    (slashedTo ⟨4⟩).balances.of (slashedTo ⟨4⟩).self = buckets (slashedTo ⟨4⟩) +
        (beforeStaking.balances.of beforeStaking.self + outsideTotal (slashedTo ⟨4⟩).history) ∧
      ∀ receipt, .call receipt ∈ (slashedTo ⟨4⟩).history → ¬ receipt.PaysItself :=
  ⟨by decide, (balance_eq_buckets_iff beforeStaking_fresh (slashedTo_run ⟨4⟩)).mp (by decide)⟩

/-- A slash in favour of the registry itself leaves it with tokens no bucket accounts for. -/
theorem balance_ne_buckets_slashed :
    Fresh beforeStaking ∧ ExactRun beforeStaking (slashedTo ⟨0⟩) ∧
      (slashedTo ⟨0⟩).balances.of (slashedTo ⟨0⟩).self ≠ buckets (slashedTo ⟨0⟩) +
        (beforeStaking.balances.of beforeStaking.self + outsideTotal (slashedTo ⟨0⟩).history) :=
  ⟨beforeStaking_fresh, slashedTo_run ⟨0⟩, by decide⟩

end KeeperNetwork
