import KeeperNetwork.Proofs.Reentrancy

/-! Exits are always open: whoever is owed something can get it out, paused or not. -/

namespace KeeperNetwork

open Soroban Bookkeeping

variable {token : Token} {inv : Invocation} {start e : Env} {call : Call} {value : Value}

theorem ExactRun.covered (fresh : Fresh start) (run : ExactRun start e) :
    buckets e ≤ e.balances.of e.self := by
  -- A token that only moves exact amounts is a re-entrant one that never calls back.
  have reenters : Run (Reenters toppedUp) start e :=
    run.lift id fun a b step => step.mono fun _ _ exact => ⟨0, exact⟩
  exact buckets_le_balance fresh reenters

namespace WellFormed

variable {w : World}

theorem credits_nonneg (formed : WellFormed w) (keeper : Address) (credits : List PendingCredit)
    (found : w.pendingReward.lookup keeper = some credits) : 0 ≤ creditsTotal credits :=
  List.sum_nonneg (List.forall_mem_map.mpr (formed.credits keeper credits found))

theorem buckets_nonneg (formed : WellFormed w) :
    0 ≤ openEscrow w ∧ 0 ≤ rewardsOwed w ∧ 0 ≤ stakesBonded w ∧ 0 ≤ stakesUnbonding w ∧
      0 ≤ creditsPending w :=
  ⟨Finmap.total_nonneg formed.escrow_nonneg, Finmap.total_nonneg formed.rewards,
    Finmap.total_nonneg formed.stakes,
    Finmap.total_nonneg fun keeper request found => (formed.unbonds keeper request found).le,
    Finmap.total_nonneg formed.credits_nonneg⟩

theorem reward_le_buckets (formed : WellFormed w) {taskId : Nat} {task : Task}
    (found : w.tasks.lookup taskId = some task) (unfinished : task.status.isOpen = true) :
    task.reward ≤ buckets w := by
  have part := Finmap.weightAt_le_total formed.escrow_nonneg taskId
  rw [Finmap.weightAt_of_lookup _ found, Task.escrow, if_pos unfinished] at part
  obtain ⟨-, rewards, stakes, unbonds, credits⟩ := formed.buckets_nonneg
  have fees := formed.fees
  unfold buckets openEscrow
  omega

theorem entitlement_le_buckets (formed : WellFormed w) (keeper : Address) :
    entitlement w keeper ≤ buckets w := by
  have rewards : w.keeperReward.weightAt id keeper ≤ w.keeperReward.total id :=
    Finmap.weightAt_le_total formed.rewards keeper
  have credits := Finmap.weightAt_le_total formed.credits_nonneg keeper
  obtain ⟨escrow, -, stakes, unbonds, -⟩ := formed.buckets_nonneg
  have fees := formed.fees
  rw [entitlement, keeperRewardOf_eq, creditsTotal_pendingCreditsOf]
  simp only [buckets, rewardsOwed, creditsPending]
  omega

theorem unbond_le_buckets (formed : WellFormed w) {keeper : Address} {request : UnbondRequest}
    (found : w.unbondRequest.lookup keeper = some request) : request.amount ≤ buckets w := by
  have part := Finmap.weightAt_le_total
    (fun keeper request found => (formed.unbonds keeper request found).le) keeper
  rw [Finmap.weightAt_of_lookup _ found] at part
  obtain ⟨escrow, rewards, stakes, -, credits⟩ := formed.buckets_nonneg
  have fees := formed.fees
  unfold buckets stakesUnbonding
  omega

end WellFormed

/--
The token pays what the registry can afford.

It is asked in a state that may differ from the given one in everything but address and balances.
-/
def Affords (token : Token) (e : Env) : Prop :=
  ∀ (dst : Address) (amount : Int) (a : Env), a.self = e.self → a.balances = e.balances →
    0 < amount → amount ≤ e.balances.of e.self → ∃ b, (token e.self dst amount).Returns a () b

/-- A call succeeds, and moves exactly an amount from the registry to an address. -/
def PaysOut (token : Token) (inv : Invocation) (call : Call) (e : Env) (value : Value)
    (dst : Address) (amount : Int) : Prop :=
  (invoke token inv call e).1 = .ok value ∧
    e.balances.move e.self dst amount = some (invoke token inv call e).2.balances

theorem Affords.pays (affords : Affords token e) (exact : ExactToken token) (pre : Env)
    (dst : Address) {amount : Int} (self : pre.self = e.self) (balances : pre.balances = e.balances)
    (positive : 0 < amount) (covered : amount ≤ e.balances.of e.self) :
    ∃ paid, (token e.self dst amount).Returns pre () paid ∧
      e.balances.move e.self dst amount = some paid.balances := by
  obtain ⟨paid, moved⟩ := affords dst amount pre self balances positive covered
  obtain ⟨after, done, rfl⟩ := exact.moves moved
  exact ⟨_, moved, by rwa [balances] at done⟩

theorem PaysOut.of_returns {e' : Env} {dst : Address} {amount : Int}
    (ran : (runCall token inv call).Returns e value e')
    (moved : e.balances.move e.self dst amount = some e'.balances) :
    PaysOut token inv call e value dst amount := by
  have committed : invoke token inv call e = (.ok value, e'.record e call value) :=
    EStateM.commit_eq_ok.mpr (recordedCall_returns.mpr ⟨e', ran, rfl⟩)
  simpa [PaysOut, committed] using moved

section Enabled

variable {taskId : Nat} {task : Task} {owner keeper : Address}

theorem expireTask_paysOut (inv : Invocation) (formed : WellFormed e)
    (covered : buckets e ≤ e.balances.of e.self) (exact : ExactToken token)
    (affords : Affords token e) (found : e.tasks.lookup taskId = some task)
    (unfinished : task.status.isOpen = true) (passed : task.deadline ≤ e.timestamp) :
    PaysOut token inv (.expireTask taskId) e .unit task.owner task.reward := by
  have positive := (formed.tasks taskId task found).positive
  have within := (formed.reward_le_buckets found unfinished).trans covered
  obtain ⟨paid, moved, done⟩ := affords.pays exact
    (e.bump.saveTask inv taskId { task with status := .expired }) task.owner (by simp) (by simp)
    positive within
  have ran : (runCall token inv (.expireTask taskId)).Returns e .unit
      (paid.emit (.taskExpired taskId)) := by
    simp [runCall, expireTask]
    exact ⟨task, found, unfinished, passed, (), paid, ⟨formed.configured, moved⟩, rfl⟩
  exact .of_returns ran (by simpa using done)

theorem cancelTask_paysOut (formed : WellFormed e) (covered : buckets e ≤ e.balances.of e.self)
    (exact : ExactToken token) (affords : Affords token e) (signed : task.owner ∈ inv.auths)
    (found : e.tasks.lookup taskId = some task)
    (exitable : task.status = .pending ∨
      task.status = .claimed ∧ lockExpired e task = true) :
    PaysOut token inv (.cancelTask task.owner taskId) e .unit task.owner task.reward := by
  have unfinished : task.status.isOpen = true := by
    rcases exitable with status | ⟨status, -⟩ <;> simp [status]
  have unlocked : task.status = .claimed → lockExpired e task = true := by
    rcases exitable with status | ⟨-, elapsed⟩
    · simp [status]
    · exact fun _ => elapsed
  have positive := (formed.tasks taskId task found).positive
  have within := (formed.reward_le_buckets found unfinished).trans covered
  obtain ⟨paid, moved, done⟩ := affords.pays exact
    (e.bump.saveTask inv taskId { task with status := .cancelled }) task.owner (by simp) (by simp)
    positive within
  have ran : (runCall token inv (.cancelTask task.owner taskId)).Returns e .unit
      (paid.emit (.taskCancelled taskId task.owner)) := by
    simp [runCall, cancelTask]
    exact ⟨signed, task, found, rfl, unfinished, unlocked, (), paid, ⟨formed.configured, moved⟩,
      rfl⟩
  exact .of_returns ran (by simpa using done)

/-- A keeper whose unbonding delay has elapsed can withdraw what it asked back. -/
theorem withdrawStake_paysOut (formed : WellFormed e) (covered : buckets e ≤ e.balances.of e.self)
    (exact : ExactToken token) (affords : Affords token e) (signed : keeper ∈ inv.auths)
    {request : UnbondRequest} (found : e.unbondRequest.lookup keeper = some request)
    (elapsed : request.unlockLedger ≤ e.sequence) :
    PaysOut token inv (.withdrawStake keeper) e (.amount request.amount) keeper
      request.amount := by
  have positive := formed.unbonds keeper request found
  have within := (formed.unbond_le_buckets found).trans covered
  obtain ⟨paid, moved, done⟩ := affords.pays exact (e.bump.removeUnbondRequest keeper) keeper
    (by simp) (by simp) positive within
  have ran : (runCall token inv (.withdrawStake keeper)).Returns e (.amount request.amount)
      (paid.emit (.stakeWithdrawn keeper request.amount)) := by
    simp [runCall, withdrawStake]
    exact ⟨formed.ready, signed, request, found, elapsed, (), paid, ⟨formed.configured, moved⟩,
      rfl, rfl⟩
  exact .of_returns ran (by simpa using done)

/-- What a keeper can withdraw at once: its balance and the credits that are ready. -/
def withdrawable (w : World) (keeper : Address) : Int :=
  keeperRewardOf w keeper + creditsTotal (readyCredits (pendingCreditsOf w keeper) w.sequence)

/-- A keeper can withdraw all that is withdrawable. -/
theorem withdrawRewards_paysOut (formed : WellFormed e) (covered : buckets e ≤ e.balances.of e.self)
    (exact : ExactToken token) (affords : Affords token e) (signed : keeper ∈ inv.auths)
    (positive : 0 < withdrawable e keeper) :
    PaysOut token inv (.withdrawRewards keeper) e (.amount (withdrawable e keeper)) keeper
      (withdrawable e keeper) := by
  -- The credits that are held back are not negative, so what is ready is covered as well.
  have whole := creditsTotal_ready_held (pendingCreditsOf e keeper) e.sequence
  have heldBack :
      0 ≤ creditsTotal (heldCredits (pendingCreditsOf e keeper) e.sequence) :=
    List.sum_nonneg (List.forall_mem_map.mpr fun credit listed =>
      formed.credit_nonneg (List.mem_of_mem_filter listed))
  have within : withdrawable e keeper ≤ e.balances.of e.self := by
    have entitled := (formed.entitlement_le_buckets keeper).trans covered
    simp only [withdrawable, entitlement] at entitled ⊢
    omega
  -- The running sums of the walk stay below the balance of the registry, which fits.
  have fit : SumsFit (keeperRewardOf e keeper)
      ((readyCredits (pendingCreditsOf e keeper) e.sequence).map
        PendingCredit.netReward) := by
    have started := formed.rewardOf_nonneg keeper
    have signs := i128_signs
    refine sumsFit_of_nonneg (by omega) ?_ ?_
    · intro amount member
      obtain ⟨credit, listed, rfl⟩ := List.mem_map.mp member
      exact formed.credit_nonneg (List.mem_of_mem_filter listed)
    · have stored := e.balances.fits e.self
      simp only [withdrawable, creditsTotal] at within
      omega
  obtain ⟨paid, moved, done⟩ := affords.pays exact
    ((((e.finalized inv keeper (readyCredits (pendingCreditsOf e keeper) e.sequence)
      (heldCredits (pendingCreditsOf e keeper) e.sequence)).emitFinalized keeper
      (readyCredits (pendingCreditsOf e keeper) e.sequence)).bump).setKeeperReward inv
      keeper 0) keeper (by simp) (by simp) positive within
  have ran : (runCall token inv (.withdrawRewards keeper)).Returns e
      (.amount (withdrawable e keeper))
      (paid.emit (.rewardsWithdrawn keeper (withdrawable e keeper))) := by
    simp only [withdrawable, creditsTotal] at moved positive ⊢
    simp [runCall, withdrawRewards, emitFinalized_returns, keeperRewardOf_finalized]
    exact ⟨signed, fit, positive, (), paid, ⟨formed.configured, moved⟩, rfl⟩
  exact .of_returns ran (by simpa using done)

end Enabled

/--
Whoever is owed something can get all of it out, in every state that any run reaches.

Nothing is assumed about the pause switch. The token must move exact amounts and pay whatever the
balance of the registry covers.
-/
theorem exits_enabled (fresh : Fresh start) (run : ExactRun start e) (exact : ExactToken token)
    (affords : Affords token e) (inv : Invocation) :
    (∀ taskId task, e.tasks.lookup taskId = some task → task.status.isOpen = true →
      task.deadline ≤ e.timestamp →
      PaysOut token inv (.expireTask taskId) e .unit task.owner task.reward) ∧
    (∀ taskId task, e.tasks.lookup taskId = some task → task.owner ∈ inv.auths →
      (task.status = .pending ∨ task.status = .claimed ∧ lockExpired e task = true) →
      PaysOut token inv (.cancelTask task.owner taskId) e .unit task.owner task.reward) ∧
    (∀ keeper ∈ inv.auths, 0 < withdrawable e keeper →
      PaysOut token inv (.withdrawRewards keeper) e (.amount (withdrawable e keeper))
        keeper (withdrawable e keeper)) ∧
    (∀ keeper ∈ inv.auths, ∀ request, e.unbondRequest.lookup keeper = some request →
      request.unlockLedger ≤ e.sequence →
      PaysOut token inv (.withdrawStake keeper) e (.amount request.amount) keeper
        request.amount) := by
  have formed := ExactRun.wellFormed fresh run
  have covered := ExactRun.covered fresh run
  refine ⟨?_, ?_, ?_, ?_⟩
  · intro taskId task found unfinished passed
    exact expireTask_paysOut inv formed covered exact affords found unfinished passed
  · intro taskId task found signed exitable
    exact cancelTask_paysOut formed covered exact affords signed found exitable
  · intro keeper signed positive
    exact withdrawRewards_paysOut formed covered exact affords signed positive
  · intro keeper signed request found elapsed
    exact withdrawStake_paysOut formed covered exact affords signed found elapsed

/-- The plain token affords every payout while nobody else holds too much. -/
theorem exactTransfer_affords
    (room : ∀ holder, e.balances.of holder + e.balances.of e.self ≤ i128Max) :
    Affords exactTransfer e := by
  intro dst amount a self balances positive covered
  have fits : e.balances.moved e.self dst amount dst ≤ i128Max := by
    have bound := room dst
    unfold Balances.moved
    split_ifs <;> omega
  obtain ⟨after, moved⟩ := Balances.move_of_ready positive.le covered fits
  exact ⟨_, exactTransfer_returns.mpr ⟨after, by rw [balances, moved], rfl⟩⟩

/-- A registry in the last ledger but one, where delays have nowhere left to run. -/
def beforeExits : Env :=
  genesis ⟨0⟩ ⟨1⟩ ⟨2⟩ 100 (hundredOf ⟨3⟩) 4294967294 0

/-- One task is executed, another one is left to its deadline, and a stake is asked back. -/
def exitsScript : List Turn :=
  [.call [⟨3⟩] (.registerTask ⟨3⟩ sampleParams), .call [⟨3⟩] (.registerTask ⟨3⟩ sampleParams),
    .call [⟨3⟩] (.claimTask ⟨3⟩ 2), .call [⟨3⟩] (.executeTask ⟨3⟩ 2 []),
    .call [⟨3⟩] (.stakeDeposit ⟨3⟩ 10), .call [⟨3⟩] (.initiateUnbond ⟨3⟩ 10), .close 100]

theorem exitsScript_affords : Affords exactTransfer (play beforeExits exitsScript) := by
  refine exactTransfer_affords fun holder => ?_
  have held : (play beforeExits exitsScript).balances.of holder =
      ((((hundredOf ⟨3⟩).of holder -
        (if holder = ⟨3⟩ then 40 else 0) + if holder = ⟨0⟩ then 40 else 0) -
        (if holder = ⟨3⟩ then 40 else 0) + if holder = ⟨0⟩ then 40 else 0) -
        (if holder = ⟨3⟩ then 10 else 0) + if holder = ⟨0⟩ then 10 else 0) := rfl
  have own : (play beforeExits exitsScript).balances.of
      (play beforeExits exitsScript).self = 90 := by decide
  have large : (300 : Int) ≤ i128Max := by decide
  rw [held, own]
  simp only [hundredOf, heldBy]
  split_ifs <;> omega

/-- After the script, all four exits are open. -/
theorem exits_enabled_overdue :
    PaysOut exactTransfer (signedBy [] 1000) (.expireTask 1) (play beforeExits exitsScript) .unit
      ⟨3⟩ 40 ∧
    PaysOut exactTransfer (signedBy [⟨3⟩] 1000) (.cancelTask ⟨3⟩ 1)
      (play beforeExits exitsScript) .unit ⟨3⟩ 40 ∧
    PaysOut exactTransfer (signedBy [⟨3⟩] 1000) (.withdrawRewards ⟨3⟩)
      (play beforeExits exitsScript) (.amount 40) ⟨3⟩ 40 ∧
    PaysOut exactTransfer (signedBy [⟨3⟩] 1000) (.withdrawStake ⟨3⟩)
      (play beforeExits exitsScript) (.amount 10) ⟨3⟩ 10 := by
  have fresh : Fresh beforeExits := genesis_fresh (by decide)
  have run : ExactRun beforeExits (play beforeExits exitsScript) := Playable.run (by decide)
  obtain ⟨expire, -⟩ := exits_enabled fresh run exactTransfer_exact exitsScript_affords
    (signedBy [] 1000)
  obtain ⟨-, cancel, rewards, stake⟩ := exits_enabled fresh run exactTransfer_exact
    exitsScript_affords (signedBy [⟨3⟩] 1000)
  have owed : withdrawable (play beforeExits exitsScript) ⟨3⟩ = 40 := by decide
  refine ⟨?_, ?_, ?_, ?_⟩
  · exact expire 1 (newTask ⟨3⟩ sampleParams) (by decide) (by decide) (by decide)
  · exact cancel 1 (newTask ⟨3⟩ sampleParams) (by decide) (by decide) (.inl rfl)
  · exact owed ▸ rewards ⟨3⟩ (by decide) (by decide)
  · exact stake ⟨3⟩ (by decide) ⟨10, 4294967295⟩ (by decide +kernel) (by decide +kernel)

end KeeperNetwork
