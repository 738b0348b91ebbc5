import KeeperNetwork.Proofs.Ledgers

/-! What each account is worth, in tokens and in what the registry owes it, call by call. -/

namespace KeeperNetwork

open Soroban

/-- The escrow of a task, if the account owns it. -/
@[local simp] def Task.escrowFor (account : Address) (task : Task) : Int :=
  if task.owner = account then task.escrow else 0

/-- What an account has: its tokens, its rewards, its stake and the escrow of its open tasks. -/
def wealth (w : World) (account : Address) : Int :=
  w.balances.of account + w.tasks.total (Task.escrowFor account) + entitlement w account +
    exposure w account

/--
What a call adds to the wealth of an account.

Every other call only moves what an account has from one form into another.
-/
@[local simp] def Call.gain (w : World) (account : Address) : Call → Int
  | .executeTask keeper taskId proof =>
    (executeTask keeper taskId proof).executionNet w account -
      (w.tasks.lookup taskId).elim 0 fun task => if task.owner = account then task.reward else 0
  | .sweepFees _ treasury amount => if treasury = account then amount else 0
  | .slash _ keeper amount _ treasury =>
    (if treasury = account then amount else 0) - if keeper = account then amount else 0
  | .resolveSlashAppeal admin slashId true =>
    (w.slashes.lookup slashId).elim 0 fun record =>
      (if record.keeper = account then record.amount else 0) -
        if admin = account then record.amount else 0
  | .resolveExecutionDispute admin taskId uphold =>
    -(resolveExecutionDispute admin taskId uphold).forfeitedFrom w account
  | _ => 0

/-- The part of an account's wealth that is in tokens or in escrow. -/
@[local simp] def Env.worth (e : Env) (account : Address) : Int :=
  e.balances.of account + e.tasks.total (Task.escrowFor account)

variable {token : Token} {inv : Invocation} {start e e' : Env} {call : Call} {value : Value}
  {account : Address}

theorem ExactToken.worth {pre paid : Env} {src dst : Address} {amount : Int}
    (exact : ExactToken token) (transferred : (token src dst amount).Returns pre () paid)
    (account : Address) :
    paid.worth account = pre.worth account +
      (if dst = account then amount else 0) - if src = account then amount else 0 := by
  obtain ⟨balances, moved, rfl⟩ := exact.moves transferred
  obtain ⟨-, -, after⟩ := Balances.move_eq_some moved
  simp only [Env.worth, after, Balances.moved, @eq_comm _ account]
  omega

attribute [local simp] Finmap.total_insert Task.escrow rewardsFund stakeFund Call.executionNet
  Call.forfeitedFrom Call.forfeit

variable {entries : List BatchTaskParams}

theorem Registered.worth {owner : Address} {taskIds : List Nat} (exact : ExactToken token)
    (foreign : e.self ≠ account)
    (free : ∀ taskId, e.taskCounter.getD 0 < taskId → e.tasks.lookup taskId = none)
    (registered : Registered token inv owner entries e taskIds e') :
    e'.worth account = e.worth account := by
  induction registered with
  | done => rfl
  | @next params rest e paid finish taskIds escrowed room others ih =>
    have escrow := exact.worth escrowed account
    obtain ⟨balances, -, rfl⟩ := exact.moves escrowed
    have absent := free (e.taskCounter.getD 0 + 1) (Nat.lt_succ_self _)
    -- The ids beyond the new one are still free.
    have later : ∀ taskId, e.taskCounter.getD 0 + 1 < taskId → (e.tasks.insert
        (e.taskCounter.getD 0 + 1) (newTask owner params)).lookup taskId = none := by
      intro taskId above
      rw [Finmap.lookup_insert_of_ne _ above.ne']
      exact free taskId (Nat.lt_of_succ_lt above)
    rw [ih (by simpa using foreign) (by simpa using later)]
    -- What the owner pays is the escrow of its new task.
    simp [foreign, Finmap.weightAt_of_lookup_none _ absent, newTask] at escrow ⊢
    omega

/-- A quiet call leaves every account its worth. -/
theorem Effect.worth_quiet (exact : ExactToken token) (formed : WellFormed e)
    (foreign : e.self ≠ account) (effect : Effect token inv e call value e')
    (quiet : call.quiet = true) : e'.worth account = e.worth account := by
  cases effect with
  | initializeRegistry absent => exact absurd absent formed.ready
  | registerTask _ _ _ escrowed room =>
    have single := @Registered.next _ inv _ _ _ e.bump _ _ _ escrowed room (.done _)
    have filed := single.worth exact (by simpa using foreign) fun _ => formed.bump.absent
    simpa using filed
  | batchRegisterTasks _ _ _ _ _ _ _ _ registered =>
    have filed := registered.worth exact (by simpa using foreign) fun _ => formed.bump.absent
    simpa using filed
  | @increaseReward _ _ _ task _ _ _ found owned unfinished _ escrowed =>
    have escrow := exact.worth escrowed account
    obtain ⟨balances, -, rfl⟩ := exact.moves escrowed
    by_cases own : task.owner = account <;>
      simp [foreign, own, ← owned, unfinished, Finmap.weightAt_of_lookup _ found] at escrow ⊢ <;>
      omega
  | cancelTask _ found owned unfinished _ _ moved =>
    have refund := exact.worth moved account
    simp [foreign, owned, unfinished, Finmap.weightAt_of_lookup _ found] at refund ⊢
    omega
  | expireTask found unfinished _ _ moved =>
    have refund := exact.worth moved account
    simp [foreign, unfinished, Finmap.weightAt_of_lookup _ found] at refund ⊢
    omega
  | extendDeadline _ found _ unfinished =>
    simp [unfinished, Finmap.weightAt_of_lookup _ found]
  | updateVerifier _ found _ unclaimed =>
    simp [unclaimed, Finmap.weightAt_of_lookup _ found]
  | claimTask _ _ found _ claimable =>
    -- A claim leaves the escrow of an open task as it was.
    rcases claimable with ⟨status, -⟩ | ⟨status, -⟩ <;>
      simp [status, Finmap.weightAt_of_lookup _ found]
  | pause | unpause | setFeeBps | setMinReward | setReputationFloor | transferAdmin | upgrade
  | setMinStake | setDisputeWindow | raiseSlashAppeal =>
    simp
  | _ => cases quiet

theorem Effect.worth_loud (exact : ExactToken token) (foreign : e.self ≠ account)
    (effect : Effect token inv e call value e') (loud : call.quiet = false) :
    e'.worth account = e.worth account + call.gain e account -
      (rewardsFund account).flow e call value -
        (stakeFund account).flow e call value := by
  cases effect with
  | sweepFees _ _ _ _ moved | stakeDeposit _ _ _ _ _ moved | withdrawStake _ _ _ _ _ moved
  | slashStake _ _ _ _ _ _ _ _ moved | slashUnbond _ _ _ _ _ _ _ _ _ moved
  | withdrawRewards _ _ _ _ _ _ _ moved =>
    have paid := exact.worth moved account
    simp [foreign] at paid ⊢
    omega
  | upholdSlashAppeal _ found _ _ _ moved =>
    have paid := exact.worth moved account
    simp [foreign, found] at paid ⊢
    omega
  | executeTaskHeld _ _ found claimed | executeTaskPaid _ _ found claimed =>
    simp [found, claimed, Finmap.weightAt_of_lookup _ found]
    omega
  | initiateUnbond | rejectSlashAppeal | disputeExecution | upholdDispute | releaseDispute => simp
  | _ => cases loud

theorem ExactToken.balance_le {pre paid : Env} {src dst : Address} {amount : Int}
    (exact : ExactToken token) (transferred : (token src dst amount).Returns pre () paid)
    (apart : src ≠ account) : pre.balances.of account ≤ paid.balances.of account := by
  obtain ⟨balances, moved, rfl⟩ := exact.moves transferred
  obtain ⟨nonneg, -, after⟩ := Balances.move_eq_some moved
  simp only [after, Balances.moved, if_neg apart.symm]
  split <;> omega

theorem Registered.balance_le {owner : Address} {taskIds : List Nat} (exact : ExactToken token)
    (apart : owner ≠ account) (registered : Registered token inv owner entries e taskIds e') :
    e.balances.of account ≤ e'.balances.of account := by
  induction registered with
  | done => exact le_rfl
  | next escrowed _ _ ih => exact (exact.balance_le escrowed apart).trans ih

theorem Effect.balance_le (exact : ExactToken token) (foreign : e.self ≠ account)
    (unsigned : account ∉ inv.auths) (effect : Effect token inv e call value e') :
    e.balances.of account ≤ e'.balances.of account := by
  have other : ∀ signer ∈ inv.auths, signer ≠ account := fun _ signed same =>
    unsigned (same ▸ signed)
  -- The registry pays, or a signer does.
  cases effect with
  | sweepFees _ _ _ _ moved | cancelTask _ _ _ _ _ _ moved | expireTask _ _ _ _ moved
  | withdrawRewards _ _ _ _ _ _ _ moved | withdrawStake _ _ _ _ _ moved
  | slashStake _ _ _ _ _ _ _ _ moved | slashUnbond _ _ _ _ _ _ _ _ _ moved =>
    simpa using exact.balance_le moved foreign
  | registerTask permitted _ _ moved | increaseReward permitted _ _ _ _ _ moved
  | stakeDeposit _ permitted _ _ _ moved =>
    simpa using exact.balance_le moved (other _ permitted.2)
  | upholdSlashAppeal admitted _ _ _ _ moved =>
    simpa using exact.balance_le moved (other _ admitted.2)
  | batchRegisterTasks permitted _ _ _ _ _ _ _ registered =>
    simpa using registered.balance_le exact (other _ permitted.2)
  | _ => simp

/--
What every account is worth is accounted for, call by call, in every reachable state.

An account gains by its executions, by payouts named to it and by refunded slashes. It loses by
executions of its own tasks, slashes, forfeits and, as the admin, the refunds it pays. Nothing
else changes its wealth, and its tokens never decrease in a call that it did not sign.
-/
theorem wealth_accounted (fresh : Fresh start) (run : ExactRun start e) (exact : ExactToken token)
    (unsigned : e.self ∉ inv.auths) (foreign : e.self ≠ account)
    (called : invoke token inv call e = (.ok value, e')) :
    wealth e' account = wealth e account + call.gain e account ∧
      (account ∉ inv.auths → e.balances.of account ≤ e'.balances.of account) := by
  have formed := ExactRun.wellFormed fresh run
  obtain ⟨finish, effect, rfl⟩ := invoke_ok called
  simp only [Env.record_toWorld]
  refine ⟨?_, fun absent => effect.balance_le exact foreign absent⟩
  -- Rewards and stakes are explained by their funds, and tokens and escrow by the rest.
  have earned := (rewardsFund_sound account).flows exact.detached formed unsigned effect
  have staked := (stakeFund_sound account).flows exact.detached formed unsigned effect
  change entitlement finish account = entitlement e account + _ at earned
  change exposure finish account = exposure e account + _ at staked
  simp only [wealth]
  cases quiet : call.quiet with
  | true =>
    have worth := effect.worth_quiet exact formed foreign quiet
    have none : call.gain e account = 0 := by cases call <;> first | rfl | cases quiet
    rw [(rewardsFund_sound account).quiet _ _ _ quiet] at earned
    rw [(stakeFund_sound account).quiet _ _ _ quiet] at staked
    simp only [Env.worth] at worth
    omega
  | false =>
    have worth := effect.worth_loud exact foreign quiet
    simp only [Env.worth] at worth
    omega

def claimedForForty : Env :=
  play (genesis ⟨0⟩ ⟨1⟩ ⟨2⟩ 0 (hundredOf ⟨3⟩) 7 30)
    [.call [⟨3⟩] (.registerTask ⟨3⟩ sampleParams), .call [⟨4⟩] (.claimTask ⟨4⟩ 1)]

/-- The execution costs the owner the reward and no token, and it signs nothing for that. -/
theorem wealth_accounted_execution :
    ∃ value after, invoke exactTransfer (signedBy [⟨4⟩] 0) (.executeTask ⟨4⟩ 1 []) claimedForForty =
        (.ok value, after) ∧ wealth claimedForForty ⟨3⟩ = 100 ∧
      wealth after ⟨3⟩ = 60 ∧ 60 ≤ after.balances.of ⟨3⟩ := by
  have fresh : Fresh (genesis ⟨0⟩ ⟨1⟩ ⟨2⟩ 0 (hundredOf ⟨3⟩) 7 30) := genesis_fresh (by decide)
  have run : ExactRun _ claimedForForty := Playable.run (by decide)
  obtain ⟨accounted, kept⟩ := @wealth_accounted exactTransfer (signedBy [⟨4⟩] 0) _ _ _
    (.executeTask ⟨4⟩ 1 []) _ ⟨3⟩ fresh run exactTransfer_exact (by decide) (by decide) rfl
  refine ⟨_, _, rfl, by decide, accounted.trans (by decide), ?_⟩
  exact le_trans (by decide) (kept (by decide))

end KeeperNetwork
