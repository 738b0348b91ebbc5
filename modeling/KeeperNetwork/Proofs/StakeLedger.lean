import KeeperNetwork.Proofs.AdminBound
import KeeperNetwork.Proofs.Oblivious
import KeeperNetwork.Proofs.Slashes

/-! The stake ledger: what a keeper has at stake is explained by its own calls and its slashes. -/

namespace KeeperNetwork

open Soroban EStateM

/-- The entries that staking, unbonding and slashing keep. -/
structure StakeEntries where
  keeperStake : Finmap fun _ : Address => Int
  unbondRequest : Finmap fun _ : Address => UnbondRequest
  slashes : Finmap fun _ : Nat => SlashRecord
  slashHistory : Finmap fun _ : Address => SlashHistory
  slashCounter : Option Nat

def Env.withStakes (entries : StakeEntries) (e : Env) : Env :=
  { e with
    keeperStake := entries.keeperStake
    unbondRequest := entries.unbondRequest
    slashes := entries.slashes
    slashHistory := entries.slashHistory
    slashCounter := entries.slashCounter }

/-- The calls that move a task through its life, from its registration to its reward. -/
def Call.aboutTasks : Call → Bool
  | .registerTask .. | .batchRegisterTasks .. | .increaseReward .. | .extendDeadline ..
  | .updateVerifier .. | .claimTask .. | .executeTask .. | .cancelTask .. | .expireTask ..
  | .withdrawRewards .. => true
  | _ => false

variable {token : Token} {inv : Invocation} {start e : Env} {call : Call}

theorem withStakes_spares (entries : StakeEntries) : Spares (Env.withStakes entries) := by
  constructor <;> intros <;> rfl

theorem runCall_ignores_stakes {entries : StakeEntries}
    (blind : Oblivious (Env.withStakes entries) token) (about : call.aboutTasks = true)
    (alike : ∀ keeper taskId, call = .claimTask keeper taskId → 0 < minStakeFloor e →
      (keeperStakeOf (e.withStakes entries) keeper < minStakeFloor e ↔
        keeperStakeOf e keeper < minStakeFloor e)) :
    IgnoresAt (Env.withStakes entries) (runCall token inv call) e := by
  have spares := withStakes_spares entries
  have paused : ∀ e : Env, (e.withStakes entries).paused = e.paused := fun _ => rfl
  cases call with
  | registerTask owner params => exact (spares.registerTask paused blind owner params).map _ e
  | batchRegisterTasks owner tasks maxTotalReward =>
    exact (spares.batchRegisterTasks paused blind owner tasks maxTotalReward).map _ e
  | increaseReward owner taskId additional =>
    exact (spares.increaseReward paused blind owner taskId additional).map _ e
  | extendDeadline owner taskId newDeadline =>
    exact (spares.extendDeadline paused owner taskId newDeadline).map _ e
  | updateVerifier owner taskId newVerifier =>
    exact (spares.updateVerifier paused owner taskId newVerifier).map _ e
  | claimTask keeper taskId =>
    exact (spares.claimTask paused keeper taskId (alike keeper taskId rfl)).map _
  | executeTask keeper taskId proof => exact (spares.executeTask paused keeper taskId proof).map _ e
  | cancelTask owner taskId => exact (spares.cancelTask blind owner taskId).map _ e
  | expireTask taskId => exact (spares.expireTask blind taskId).map _ e
  | withdrawRewards keeper => exact (spares.withdrawRewards blind keeper).map _ e
  | _ => simp [Call.aboutTasks] at about

theorem Succeeds.slash_covered {admin keeper treasury : Address} {amount : Int} {reason : Symbol}
    (succeeds : Succeeds token inv (.slash admin keeper amount reason treasury) e) :
    0 < amount ∧ amount ≤ exposure e keeper := by
  obtain ⟨value, finish, effect⟩ := succeeds.effect
  cases effect with
  | slashStake _ positive _ slashable =>
    refine ⟨positive, ?_⟩
    cases found : e.unbondRequest.lookup keeper with
    | none => simpa [exposure, found, Finmap.weightAt_of_lookup_none _ found] using slashable
    | some request => simpa [exposure, found, Finmap.weightAt_of_lookup _ found] using slashable
  | slashUnbond _ positive _ found slashable =>
    exact ⟨positive, by rwa [exposure, Finmap.weightAt_of_lookup _ found]⟩

theorem ExactRun.slashHistory_explained (fresh : Fresh start) (run : ExactRun start e)
    (keeper : Address) :
    ((readSlashHistory e keeper).count : Int) =
        receiptTotal (fun receipt => receipt.call.slashWeight (fun _ => 1) keeper) e.history ∧
      (readSlashHistory e keeper).totalSlashed =
        receiptTotal (fun receipt => receipt.call.slashed keeper) e.history := by
  have blank : readSlashHistory start keeper = ⟨0, 0⟩ := by
    simp [readSlashHistory, fresh.unused.1.slashed]
  have counts := (slashFund_sound keeper (fun _ _ _ => by push_cast; rfl) :
    (slashFund keeper (fun history => history.count) fun _ => 1).Sound).explained fresh
      (ExactRun.detached run)
  have totals := (slashFund_sound keeper (fun _ _ _ => rfl) :
    (slashFund keeper SlashHistory.totalSlashed id).Sound).explained fresh (ExactRun.detached run)
  simp only [slashFund, blank] at counts totals
  constructor
  · simpa using counts
  · simpa using totals

/--
The stake ledger of every keeper adds up.

What it has at stake is what it put in, less what it took out and lost, plus what was refunded. A
slash never takes more than that, its history counts and adds up its slashes, a slash is refunded at
most once and only after an appeal in time, and the life of tasks has no part in any of it.
-/
theorem stake_ledger (fresh : Fresh start) (run : ExactRun start e) :
    (∀ keeper,
      keeperStakeOf e keeper + e.unbondRequest.weightAt UnbondRequest.amount keeper =
        receiptTotal (fun receipt => receipt.call.staked keeper) e.history -
          receiptTotal (fun receipt => receipt.call.stakeWithdrawn keeper receipt.value) e.history -
          receiptTotal (fun receipt => receipt.call.slashed keeper) e.history +
          receiptTotal (fun receipt => receipt.call.stakeRefunded receipt.before keeper)
            e.history ∧
      0 ≤ keeperStakeOf e keeper ∧
      (∀ request, e.unbondRequest.lookup keeper = some request → 0 < request.amount) ∧
      ((readSlashHistory e keeper).count : Int) =
        receiptTotal (fun receipt => receipt.call.slashWeight (fun _ => 1) keeper) e.history ∧
      (readSlashHistory e keeper).totalSlashed =
        receiptTotal (fun receipt => receipt.call.slashed keeper) e.history) ∧
    (∀ token inv admin keeper amount reason treasury,
      Succeeds token inv (.slash admin keeper amount reason treasury) e →
        0 < amount ∧ amount ≤ exposure e keeper) ∧
    (∀ slashId, receiptTotal (Receipt.resolved slashId) e.history ≤ 1 ∧
      ∀ later receipt earlier admin, e.history = later ++ .call receipt :: earlier →
        receipt.call = .resolveSlashAppeal admin slashId true →
        ∃ record, receipt.before.slashes.lookup slashId = some record ∧
          receipt.call.stakeRefunded receipt.before record.keeper = record.amount ∧
          SlashedBy earlier slashId record ∧ AppealedInTime earlier slashId record) ∧
    (∀ entries token inv call, Oblivious (Env.withStakes entries) token →
      call.aboutTasks = true → ∀ s : Env,
      (∀ keeper taskId, call = .claimTask keeper taskId → 0 < minStakeFloor s →
        (keeperStakeOf (s.withStakes entries) keeper < minStakeFloor s ↔
          keeperStakeOf s keeper < minStakeFloor s)) →
      IgnoresAt (Env.withStakes entries) (runCall token inv call) s) := by
  have formed := ExactRun.wellFormed fresh run
  refine ⟨fun keeper => ?_, ?_, fun slashId => ⟨?_, ?_⟩, ?_⟩
  · obtain ⟨counts, totals⟩ := ExactRun.slashHistory_explained fresh run keeper
    exact ⟨ExactRun.stake_explained fresh run keeper, formed.stakeOf_nonneg keeper,
      formed.unbonds keeper, counts, totals⟩
  · exact fun _ _ _ _ _ _ _ succeeds => succeeds.slash_covered
  · exact (ExactRun.slashFacts fresh run slashId).decided_once
  · intro later receipt earlier admin placed called
    obtain ⟨record, found, slashed, appealed⟩ :=
      ExactRun.refunds_appealed fresh run placed called
    exact ⟨record, found, by simp [called, found], slashed, appealed⟩
  · exact fun _ _ _ _ blind about _ alike => runCall_ignores_stakes blind about alike

/-- A registry with a keeper who holds 100 tokens and an administrator who holds none. -/
def beforeStakes : Env :=
  genesis ⟨0⟩ ⟨1⟩ ⟨2⟩ 100 (hundredOf ⟨3⟩) 0 0

theorem beforeStakes_fresh : Fresh beforeStakes := genesis_fresh (by decide)

/-- A stake is partly unbonded, slashed beyond what is bonded, appealed and refunded. -/
def stakeScript : List Turn :=
  [.call [⟨3⟩] (.stakeDeposit ⟨3⟩ 50), .call [⟨3⟩] (.initiateUnbond ⟨3⟩ 30),
    .call [⟨1⟩] (.slash ⟨1⟩ ⟨3⟩ 25 "late" ⟨1⟩), .call [⟨3⟩] (.raiseSlashAppeal ⟨3⟩ 1),
    .call [⟨1⟩] (.resolveSlashAppeal ⟨1⟩ 1 true)]

/-- After the script everything is at stake again, and the one slash was decided once. -/
theorem stake_ledger_refunded :
    exposure (play beforeStakes stakeScript) ⟨3⟩ = 50 ∧
    (play beforeStakes stakeScript).unbondRequest.weightAt UnbondRequest.amount ⟨3⟩ = 25 ∧
    (readSlashHistory (play beforeStakes stakeScript) ⟨3⟩).totalSlashed =
      receiptTotal (fun receipt => receipt.call.slashed ⟨3⟩)
        (play beforeStakes stakeScript).history ∧
    receiptTotal (Receipt.resolved 1) (play beforeStakes stakeScript).history ≤ 1 := by
  obtain ⟨ledger, -, decided, -⟩ := stake_ledger beforeStakes_fresh
    (Playable.run (by decide : Playable beforeStakes stakeScript))
  obtain ⟨-, -, -, -, totals⟩ := ledger ⟨3⟩
  exact ⟨by decide, by decide, totals, (decided 1).1⟩

end KeeperNetwork
