import KeeperNetwork.Proofs.Credits

/-! What an administrator can take out, whatever calls it makes and in whatever order. -/

namespace KeeperNetwork

open Soroban

/-- The calls that only the admin can make. -/
def Call.byAdmin : Call → Bool
  | .pause .. | .unpause .. | .setFeeBps .. | .setMinReward .. | .setReputationFloor ..
  | .transferAdmin .. | .upgrade .. | .sweepFees .. | .slash .. | .setMinStake ..
  | .resolveSlashAppeal .. | .setDisputeWindow .. | .resolveExecutionDispute .. => true
  | _ => false

variable {token : Token} {inv : Invocation} {start e e' : Env} {call : Call} {value : Value}
  {keeper : Address} {credit : PendingCredit}

theorem Effect.byAdmin_frame (exact : ExactToken token) (effect : Effect token inv e call value e')
    (admin : call.byAdmin = true) : e'.tasks = e.tasks ∧ e'.keeperReward = e.keeperReward := by
  cases effect with
  | pause | unpause | setFeeBps | setMinReward | setReputationFloor | transferAdmin | upgrade
  | sweepFees | slashStake | slashUnbond | setMinStake | rejectSlashAppeal | upholdSlashAppeal
  | setDisputeWindow | upholdDispute | releaseDispute =>
    try obtain ⟨balances, -, rfl⟩ := exact.moves ‹_›
    simp
  | _ => simp [Call.byAdmin] at admin

theorem Call.forfeit_mem {w : World} (taken : call.forfeit w = some (keeper, credit)) :
    credit ∈ pendingCreditsOf w keeper ∧ credit.disputed = true := by
  cases call with
  | resolveExecutionDispute admin taskId uphold =>
    cases uphold with
    | true =>
      simp only [Call.forfeit, Option.bind_eq_bind, Option.bind_eq_some_iff, Option.pure_def,
        Option.some.injEq, Prod.mk.injEq] at taken
      obtain ⟨_, -, _, -, _, found, rfl, rfl⟩ := taken
      have matched := List.find?_some found
      exact ⟨List.mem_of_find?_eq_some found, by simp_all⟩
    | false => simp [Call.forfeit] at taken
  | _ => simp [Call.forfeit] at taken

theorem ExactRun.forfeits_disputed (fresh : Fresh start) (run : ExactRun start e)
    {receipt : Receipt} {later earlier : List Entry}
    (recorded : e.history = later ++ .call receipt :: earlier)
    (taken : receipt.call.forfeit receipt.before = some (keeper, credit)) :
    DisputedInTime earlier credit := by
  -- The call started in a state whose credits were all earned.
  refine ExactRun.receipts_after (fun earlier receipt =>
    receipt.call.forfeit receipt.before = some (keeper, credit) →
      DisputedInTime earlier credit) ?_ fresh run recorded taken
  intro token inv e e' call value ran exact effect taken
  obtain ⟨member, disputed⟩ := Call.forfeit_mem taken
  exact ((ExactRun.credited fresh ran).earned keeper credit member).disputed disputed

/-- What a keeper has at stake is what it put in or got back, less what it took out or lost. -/
theorem ExactRun.stake_explained (fresh : Fresh start) (run : ExactRun start e) (keeper : Address) :
    exposure e keeper =
      receiptTotal (fun receipt => receipt.call.staked keeper) e.history -
        receiptTotal (fun receipt => receipt.call.stakeWithdrawn keeper receipt.value) e.history -
        receiptTotal (fun receipt => receipt.call.slashed keeper) e.history +
        receiptTotal (fun receipt => receipt.call.stakeRefunded receipt.before keeper)
          e.history := by
  have explained := (stakeFund_sound keeper).explained fresh (ExactRun.detached run)
  simp only [stakeFund, receiptTotal_sub, receiptTotal_add] at explained
  have none : exposure start keeper = 0 := by
    simp [exposure, keeperStakeOf, fresh.unused.1.stakes, fresh.unused.1.unbonds,
      Finmap.weightAt]
  omega

/--
An administrator can take out no more than the protocol earned and keepers put at stake.

None of its calls touches a task or a reward balance, its sweeps are covered by execution fees and
by credits whose owners disputed them in time, and its slashes by the keeper's own stake.
-/
theorem admin_extraction_bounded (fresh : Fresh start) (run : ExactRun start e) :
    (∀ token inv call, ExactToken token → call.byAdmin = true →
      (invoke token inv call e).2.tasks = e.tasks ∧
        (invoke token inv call e).2.keeperReward = e.keeperReward) ∧
    (receiptTotal (fun receipt => receipt.call.swept) e.history + feesAccrued e =
      receiptTotal (fun receipt => receipt.call.executionFee receipt.before) e.history +
        receiptTotal (fun receipt => receipt.call.forfeited receipt.before) e.history) ∧
    (∀ later receipt earlier keeper credit, e.history = later ++ .call receipt :: earlier →
      receipt.call.forfeit receipt.before = some (keeper, credit) →
        DisputedInTime earlier credit) ∧
    (∀ keeper, receiptTotal (fun receipt => receipt.call.slashed keeper) e.history ≤
      receiptTotal (fun receipt => receipt.call.staked keeper) e.history +
        receiptTotal (fun receipt => receipt.call.stakeRefunded receipt.before keeper) e.history -
        receiptTotal (fun receipt => receipt.call.stakeWithdrawn keeper receipt.value)
          e.history) := by
  refine ⟨fun token inv call exact admin => ?_, ?_, ?_, fun keeper => ?_⟩
  · rcases invoke_cases token inv call e with ⟨value, finish, effect, called⟩ | failed
    · have frame := effect.byAdmin_frame exact admin
      rw [called]
      exact frame
    · rw [failed]
      exact ⟨rfl, rfl⟩
  · have explained := feesFund_sound.explained fresh (ExactRun.detached run)
    simp only [feesFund, receiptTotal_sub, receiptTotal_add] at explained
    have none : feesAccrued start = 0 := by simp [feesAccrued, fresh.unused.1.fees]
    omega
  · intro later receipt earlier keeper credit recorded taken
    exact ExactRun.forfeits_disputed fresh run recorded taken
  · -- What is left at stake is never negative, so it bounds what was slashed.
    have explained := ExactRun.stake_explained fresh run keeper
    have formed := ExactRun.wellFormed fresh run
    have bonded := formed.stakeOf_nonneg keeper
    have unbonding : 0 ≤ e.unbondRequest.weightAt UnbondRequest.amount keeper := by
      cases found : e.unbondRequest.lookup keeper with
      | none => rw [Finmap.weightAt_of_lookup_none _ found]
      | some request =>
        rw [Finmap.weightAt_of_lookup _ found]
        exact (formed.unbonds keeper request found).le
    unfold exposure at explained
    omega

/-- A registry with a fee of ten percent, and an owner who holds 100 tokens. -/
def beforeAdmin : Env :=
  genesis ⟨0⟩ ⟨1⟩ ⟨2⟩ 1000 (hundredOf ⟨3⟩) 0 0

theorem beforeAdmin_fresh : Fresh beforeAdmin := genesis_fresh (by decide)

/-- An execution is disputed and forfeited, a stake is slashed, and all fees are swept. -/
def adminScript : List Turn :=
  [.call [⟨1⟩] (.setDisputeWindow ⟨1⟩ 10), .call [⟨3⟩] (.registerTask ⟨3⟩ sampleParams),
    .call [⟨4⟩] (.claimTask ⟨4⟩ 1), .call [⟨4⟩] (.executeTask ⟨4⟩ 1 []),
    .call [⟨3⟩] (.disputeExecution ⟨3⟩ 1), .call [⟨1⟩] (.resolveExecutionDispute ⟨1⟩ 1 true),
    .call [⟨3⟩] (.stakeDeposit ⟨3⟩ 50), .call [⟨1⟩] (.slash ⟨1⟩ ⟨3⟩ 20 "late" ⟨5⟩),
    .call [⟨1⟩] (.sweepFees ⟨1⟩ ⟨5⟩ 40)]

/-- After the script the fee of 4 and the forfeited 36 tokens were swept, and 20 slashed of 50. -/
theorem admin_extraction_bounded_swept :
    (play beforeAdmin adminScript).balances.of ⟨5⟩ = 60 ∧
    receiptTotal (fun receipt => receipt.call.swept) (play beforeAdmin adminScript).history +
        feesAccrued (play beforeAdmin adminScript) =
      receiptTotal (fun receipt => receipt.call.executionFee receipt.before)
          (play beforeAdmin adminScript).history +
        receiptTotal (fun receipt => receipt.call.forfeited receipt.before)
          (play beforeAdmin adminScript).history ∧
    receiptTotal (fun receipt => receipt.call.slashed ⟨3⟩)
      (play beforeAdmin adminScript).history ≤ 50 := by
  obtain ⟨-, fees, -, slashed⟩ := admin_extraction_bounded beforeAdmin_fresh
    (Playable.run (by decide : Playable beforeAdmin adminScript))
  exact ⟨by decide, fees, (slashed ⟨3⟩).trans (by decide)⟩

end KeeperNetwork
