import KeeperNetwork.Proofs.Exits

/-! Which admitted tasks can be executed: those whose reward times the fee still fits its type. -/

namespace KeeperNetwork

open Soroban

/-- Everything the caller of an execution has to bring along. -/
structure Executable (inv : Invocation) (e : Env) (keeper : Address) (taskId : Nat) (proof : Bytes)
    (task : Task) : Prop where
  permitted : Permitted inv e keeper
  short : proof.length ≤ maxProofLen
  found : e.tasks.lookup taskId = some task
  claimed : task.status = .claimed
  claimer : task.claimer = some keeper
  ahead : e.timestamp < task.deadline
  approved : Approved inv keeper taskId proof task

variable {token : Token} {inv : Invocation} {start e : Env} {keeper : Address} {taskId : Nat}
  {proof : Bytes} {task : Task} {reward : Int} {bps : Nat}

theorem splitReward_ok_iff (positive : 0 < reward) (stored : reward ≤ i128Max)
    (legal : bps ≤ 10000) :
    (∃ shares, splitReward reward bps = .ok shares) ↔ reward * bps ≤ i128Max := by
  rw [splitReward_eq positive stored legal]
  by_cases fits : reward * bps ≤ i128Max <;> simp [fits]

theorem ExactRun.reward_fits (fresh : Fresh start) (run : ExactRun start e)
    (found : e.tasks.lookup taskId = some task) : task.reward ≤ i128Max := by
  -- An unsettled task is covered by the balance, and settling a task keeps its reward.
  induction run generalizing task with
  | refl =>
    rw [fresh.unused.1.tasks] at found
    simp at found
  | @tail e e' ran last ih =>
    have formed := ExactRun.wellFormed fresh (ran.tail last)
    have covered := ExactRun.covered fresh (ran.tail last)
    have stored := e'.balances.fits e'.self
    by_cases unfinished : task.status.isOpen = true
    · exact ((formed.reward_le_buckets found unfinished).trans covered).trans stored
    cases Step.happens last with
    | failed | closed | received => exact ih found
    | called exact _ _ effect =>
      cases effect.taskMove exact (ExactRun.wellFormed fresh ran) taskId with
      | untouched same => exact ih (same ▸ found)
      | registered _ _ written =>
        cases written.symm.trans found
        simp [newTask] at unfinished
      | toppedUp _ _ open' _ written | extended _ _ open' _ written =>
        cases written.symm.trans found
        exact absurd open' unfinished
      | reverified _ _ pending written =>
        cases written.symm.trans found
        simp [pending] at unfinished
      | claimed _ _ _ _ written =>
        cases written.symm.trans found
        simp at unfinished
      | executed _ before _ _ _ _ written | cancelled _ before _ _ _ written
      | expired _ before _ _ written =>
        cases written.symm.trans found
        have kept := ih before
        exact kept

theorem WellFormed.reward_with_dues_le_buckets {w : World} (formed : WellFormed w)
    (keeper : Address) (found : w.tasks.lookup taskId = some task)
    (unfinished : task.status.isOpen = true) :
    task.reward + keeperRewardOf w keeper + feesAccrued w ≤ buckets w := by
  -- The three amounts sit in different buckets, and no bucket is negative.
  have escrow := Finmap.weightAt_le_total formed.escrow_nonneg taskId
  rw [Finmap.weightAt_of_lookup _ found, Task.escrow, if_pos unfinished] at escrow
  have rewards : w.keeperReward.weightAt id keeper ≤ w.keeperReward.total id :=
    Finmap.weightAt_le_total formed.rewards keeper
  obtain ⟨-, -, stakes, unbonds, credits⟩ := formed.buckets_nonneg
  rw [keeperRewardOf_eq]
  unfold buckets openEscrow rewardsOwed
  omega

theorem Executable.succeeds (token : Token) (ready : Executable inv e keeper taskId proof task)
    (formed : WellFormed e) (covered : buckets e ≤ e.balances.of e.self)
    (fits : task.reward * feeBps e ≤ i128Max) :
    Succeeds token inv (.executeTask keeper taskId proof) e := by
  have signs := i128_signs
  have unfinished : task.status.isOpen = true := by rw [ready.claimed]; rfl
  -- The reward, the balance of the keeper and the accrued fees are parts of what is owed.
  have stored := e.balances.fits e.self
  have owed := formed.reward_with_dues_le_buckets keeper ready.found unfinished
  have positive := (formed.tasks taskId task ready.found).positive
  have held := formed.rewardOf_nonneg keeper
  have fees := formed.fees
  obtain ⟨⟨keeperNet, fee⟩, split⟩ :=
    (splitReward_ok_iff positive (by omega) formed.fee).mpr fits
  obtain ⟨-, rest⟩ := splitReward_ok split
  obtain ⟨net, cut⟩ := splitReward_nonneg positive formed.fee split
  have ran : ∃ finish, (runCall token inv (.executeTask keeper taskId proof)).Returns e .unit
      finish := by
    simp [runCall, executeTask, recordSuccess, creditExecution_returns]
    refine ⟨ready.permitted.1, ready.permitted.2, ready.short, task, ready.found, ready.claimed,
      ready.claimer, ready.ahead, ready.approved, keeperNet, fee, split, ?_⟩
    -- The credit is held back or paid, as the dispute window says, with the same fees.
    by_cases window : 0 < disputeWindowLedgers e
    · refine ⟨_, .inl ⟨window, rfl⟩, fun _ => ?_⟩
      rw [feesAccrued_savePending, feesAccrued_bump]
      omega
    · refine ⟨_, .inr ⟨by omega, ⟨by omega, by omega⟩, rfl⟩, fun _ => ?_⟩
      rw [feesAccrued_credit, feesAccrued_bump]
      omega
  obtain ⟨finish, ran⟩ := ran
  exact ⟨_, _, EStateM.commit_eq_ok.mpr (recordedCall_returns.mpr ⟨finish, ran, rfl⟩)⟩

theorem Executable.overflows (token : Token) (ready : Executable inv e keeper taskId proof task)
    (large : ¬ task.reward * feeBps e ≤ i128Max) :
    (invoke token inv (.executeTask keeper taskId proof) e).1 =
      .error (.error .arithmeticOverflow) := by
  -- Every check before the split passes, and the split is the first step that can fail.
  have overflow : splitReward task.reward (feeBps e) = .error .arithmeticOverflow := by
    simp [splitReward, checkedMul, narrow, large]
  rw [invoke_fails]
  simp [runCall, executeTask, requireNotPaused, bumpInstance, ready.permitted.1,
    ready.permitted.2, Nat.not_lt.mpr ready.short, loadTask, ready.found, ready.claimed,
    ready.claimer, ready.ahead, ready.approved, overflow, liftResult]

/--
A stored task can be split, and executed by its claimer, exactly while its reward times the fee
fits the type of the reward.

Nothing else can overflow: what is added up on the way is part of what the registry holds.
-/
theorem execution_fits_iff (fresh : Fresh start) (run : ExactRun start e)
    (found : e.tasks.lookup taskId = some task) :
    (∀ bps ≤ 10000, (∃ shares, splitReward task.reward bps = .ok shares) ↔
      task.reward * bps ≤ i128Max) ∧
    ∀ (token : Token) (inv : Invocation) (keeper : Address) (proof : Bytes),
      Executable inv e keeper taskId proof task →
      ((invoke token inv (.executeTask keeper taskId proof) e).1 ≠
          .error (.error .arithmeticOverflow) ↔ task.reward * feeBps e ≤ i128Max) ∧
      (Succeeds token inv (.executeTask keeper taskId proof) e ↔
        task.reward * feeBps e ≤ i128Max) := by
  have formed := ExactRun.wellFormed fresh run
  have positive := (formed.tasks taskId task found).positive
  have stored := ExactRun.reward_fits fresh run found
  refine ⟨fun bps legal => splitReward_ok_iff positive stored legal, ?_⟩
  intro token inv keeper proof ready
  by_cases fits : task.reward * feeBps e ≤ i128Max
  · have succeeds := ready.succeeds token formed (ExactRun.covered fresh run) fits
    obtain ⟨value, after, called⟩ := succeeds
    refine ⟨iff_of_true ?_ fits, iff_of_true ⟨value, after, called⟩ fits⟩
    rw [called]
    simp
  · have overflow := ready.overflows token fits
    refine ⟨iff_of_false (not_not.mpr overflow) fits, iff_of_false ?_ fits⟩
    rintro ⟨value, after, called⟩
    rw [called] at overflow
    cases overflow

/-- A registry at a time when one address holds a tenth of all the tokens that can exist. -/
def beforeLarge : Env :=
  genesis ⟨0⟩ ⟨1⟩ ⟨2⟩ 100 (heldBy ⟨3⟩ (10 ^ 37) (by decide) (by decide)) 0 0

/-- A task with the given reward is registered and claimed. -/
def largeScript (reward : Int) : List Turn :=
  [.call [⟨3⟩] (.registerTask ⟨3⟩ { sampleParams with reward }), .call [⟨4⟩] (.claimTask ⟨4⟩ 1)]

def largeTask (reward : Int) : Task :=
  { newTask ⟨3⟩ { sampleParams with reward } with
    status := .claimed, claimer := some ⟨4⟩, claimLedger := some 0 }

theorem beforeLarge_fresh : Fresh beforeLarge := genesis_fresh (by decide)

theorem largeScript_executable (reward : Int)
    (found : (play beforeLarge (largeScript reward)).tasks.lookup 1 = some (largeTask reward))
    (active : (play beforeLarge (largeScript reward)).paused.getD false = false)
    (early : (play beforeLarge (largeScript reward)).timestamp = 0) :
    Executable (signedBy [⟨4⟩] 1000) (play beforeLarge (largeScript reward)) ⟨4⟩ 1 []
      (largeTask reward) where
  permitted := ⟨active, List.mem_singleton.mpr rfl⟩
  short := Nat.zero_le _
  found := found
  claimed := rfl
  claimer := rfl
  ahead := by rw [early]; exact (by decide : 0 < 100)
  approved _ attached := by cases attached

/-- A reward of a billion tokens with seven decimals can be executed. -/
theorem execution_fits_billion :
    Succeeds exactTransfer (signedBy [⟨4⟩] 1000) (.executeTask ⟨4⟩ 1 [])
      (play beforeLarge (largeScript (10 ^ 16))) := by
  have run : ExactRun beforeLarge (play beforeLarge (largeScript (10 ^ 16))) :=
    Playable.run (by decide)
  have found : (play beforeLarge (largeScript (10 ^ 16))).tasks.lookup 1 =
      some (largeTask (10 ^ 16)) := by decide
  obtain ⟨-, executed⟩ := execution_fits_iff beforeLarge_fresh run found
  exact (executed exactTransfer _ ⟨4⟩ [] (largeScript_executable _ found rfl rfl)).2.mpr
    (by decide)

/-- A reward that was admitted and claimed can be too large to be executed at the default fee. -/
theorem execution_overflows :
    Fresh beforeLarge ∧ ExactRun beforeLarge (play beforeLarge (largeScript (10 ^ 37))) ∧
      Executable (signedBy [⟨4⟩] 1000) (play beforeLarge (largeScript (10 ^ 37))) ⟨4⟩ 1 []
        (largeTask (10 ^ 37)) ∧
      splitReward (10 ^ 37) 100 = .error .arithmeticOverflow ∧
      (invoke exactTransfer (signedBy [⟨4⟩] 1000) (.executeTask ⟨4⟩ 1 [])
        (play beforeLarge (largeScript (10 ^ 37)))).1 = .error (.error .arithmeticOverflow) :=
  ⟨beforeLarge_fresh, Playable.run (by decide), largeScript_executable _ (by decide) rfl rfl,
    by decide, rfl⟩

end KeeperNetwork
