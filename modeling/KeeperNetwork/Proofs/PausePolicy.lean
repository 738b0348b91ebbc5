import KeeperNetwork.Proofs.Exits
import KeeperNetwork.Proofs.Oblivious

/-! Which ways to recover one's own value the pause switch leaves alone. -/

namespace KeeperNetwork

open Soroban EStateM

/-- The environment with the pause switch thrown. -/
def Env.flipPaused (e : Env) : Env :=
  { e with paused := some !(e.paused.getD false) }

/-- The calls by which value goes back to whom it belongs, and slashing. -/
def Call.recovers : Call → Bool
  | .cancelTask .. | .expireTask .. | .withdrawRewards .. | .initiateUnbond .. | .withdrawStake ..
  | .slash .. => true
  | _ => false

/-- The call that asks for stake back. -/
def Call.unbonds : Call → Bool
  | .initiateUnbond .. => true
  | _ => false

variable {token : Token} {inv : Invocation} {start e : Env} {call : Call} {keeper : Address}
  {amount : Int}

theorem flipPaused_spares : SparesStakes Env.flipPaused := by
  constructor
  · constructor <;> intros <;> rfl
  all_goals intros; rfl

theorem runCall_ignores_paused (blind : Oblivious Env.flipPaused token)
    (recovers : call.recovers = true) (other : call.unbonds = false) :
    Ignores Env.flipPaused (runCall token inv call) := by
  have spares := flipPaused_spares
  cases call with
  | cancelTask owner taskId => exact (spares.cancelTask blind owner taskId).map _
  | expireTask taskId => exact (spares.expireTask blind taskId).map _
  | withdrawRewards keeper => exact (spares.withdrawRewards blind keeper).map _
  | withdrawStake keeper => exact (spares.withdrawStake blind keeper).map _
  | slash admin keeper amount reason treasury =>
    exact (spares.slash blind admin keeper amount reason treasury).map _
  | initiateUnbond => simp [Call.unbonds] at other
  | _ => simp [Call.recovers] at recovers

theorem initiateUnbond_fails_paused (ready : e.admin ≠ none) :
    (initiateUnbond inv keeper amount).Fails e (.error .contractPaused) ↔
      e.paused.getD false = true := by
  -- Past the check of the switch, nothing fails for this reason.
  simp [initiateUnbond, requireInitialized, requireNotPaused, ready]
  simp [bumpInstance, saveStake, saveUnbondRequest, extendEntry, emit]

theorem initiateUnbond_sees_paused (ready : e.admin ≠ none) :
    ¬ IgnoresAt Env.flipPaused (runCall token inv (.initiateUnbond keeper amount)) e := by
  intro ignores
  have flipped : e.flipPaused.admin ≠ none := ready
  have same := @IgnoresAt.fails _ _ _ _ _ _ ignores (.error .contractPaused)
  simp only [runCall, fails_map, initiateUnbond_fails_paused ready,
    initiateUnbond_fails_paused flipped] at same
  simp [Env.flipPaused] at same

theorem succeeds_initiateUnbond_iff (formed : WellFormed e) (signed : keeper ∈ inv.auths)
    (staked : 0 < keeperStakeOf e keeper) (single : e.unbondRequest.lookup keeper = none) :
    Succeeds token inv (.initiateUnbond keeper (keeperStakeOf e keeper)) e ↔
      e.paused.getD false = false := by
  constructor
  · intro succeeds
    obtain ⟨value, finish, effect⟩ := succeeds.effect
    cases effect with
    | initiateUnbond _ permitted => exact permitted.1
  · intro running
    have signs := i128_signs
    have ran : ∃ finish, (runCall token inv
        (.initiateUnbond keeper (keeperStakeOf e keeper))).Returns e .unit finish := by
      simp [runCall, initiateUnbond, formed.ready, running, staked, signed, single]
      omega
    obtain ⟨finish, ran⟩ := ran
    exact ⟨_, _, commit_eq_ok.mpr (recordedCall_returns.mpr ⟨finish, ran, rfl⟩)⟩

/--
Of the calls that recover value, only asking for stake back is subject to the pause switch.

All others do the same whether it is on or off, and so pay open escrow, rewards and unbonded stake
out while it is on. A keeper's bonded stake can be asked back exactly while it is off.
-/
theorem pause_policy (fresh : Fresh start) (run : ExactRun start e) (exact : ExactToken token)
    (blind : Oblivious Env.flipPaused token) (affords : Affords token e) (inv : Invocation) :
    (∀ call, call.recovers = true →
      (IgnoresAt Env.flipPaused (runCall token inv call) e ↔ call.unbonds = false)) ∧
    (∀ taskId task, e.tasks.lookup taskId = some task → task.status.isOpen = true →
      task.deadline ≤ e.timestamp →
      PaysOut token inv (.expireTask taskId) e .unit task.owner task.reward) ∧
    (∀ taskId task, e.tasks.lookup taskId = some task → task.owner ∈ inv.auths →
      (task.status = .pending ∨ task.status = .claimed ∧ lockExpired e task = true) →
      PaysOut token inv (.cancelTask task.owner taskId) e .unit task.owner task.reward) ∧
    (∀ keeper ∈ inv.auths, 0 < withdrawable e keeper →
      PaysOut token inv (.withdrawRewards keeper) e (.amount (withdrawable e keeper))
        keeper (withdrawable e keeper)) ∧
    (∀ keeper ∈ inv.auths, ∀ request, e.unbondRequest.lookup keeper = some request →
      request.unlockLedger ≤ e.sequence →
      PaysOut token inv (.withdrawStake keeper) e (.amount request.amount) keeper
        request.amount) ∧
    (∀ keeper ∈ inv.auths, 0 < keeperStakeOf e keeper →
      e.unbondRequest.lookup keeper = none →
      (Succeeds token inv (.initiateUnbond keeper (keeperStakeOf e keeper)) e ↔
        e.paused.getD false = false)) := by
  have formed := ExactRun.wellFormed fresh run
  have covered := ExactRun.covered fresh run
  refine ⟨fun call recovers => ⟨?_, fun other => runCall_ignores_paused blind recovers other e⟩,
    ?_, ?_, ?_, ?_, ?_⟩
  · intro ignores
    cases call with
    | initiateUnbond keeper amount => exact absurd ignores (initiateUnbond_sees_paused formed.ready)
    | _ => rfl
  · intro taskId task found unfinished passed
    exact expireTask_paysOut inv formed covered exact affords found unfinished passed
  · intro taskId task found signed exitable
    exact cancelTask_paysOut formed covered exact affords signed found exitable
  · intro keeper signed positive
    exact withdrawRewards_paysOut formed covered exact affords signed positive
  · intro keeper signed request found elapsed
    exact withdrawStake_paysOut formed covered exact affords signed found elapsed
  · intro keeper signed staked single
    exact succeeds_initiateUnbond_iff formed signed staked single

/-- A registry whose owner and keeper are about to put 50 tokens in. -/
def beforePause : Env :=
  genesis ⟨0⟩ ⟨1⟩ ⟨2⟩ 100 (hundredOf ⟨3⟩) 0 0

theorem beforePause_fresh : Fresh beforePause := genesis_fresh (by decide)

/-- A task is registered and a stake is bonded before the pause, and the deadline passes in it. -/
def pauseScript : List Turn :=
  [.call [⟨3⟩] (.registerTask ⟨3⟩ sampleParams), .call [⟨3⟩] (.stakeDeposit ⟨3⟩ 10),
    .call [⟨1⟩] (.pause ⟨1⟩), .close 100]

theorem pauseScript_run : ExactRun beforePause (play beforePause pauseScript) :=
  Playable.run (by decide)

theorem pauseScript_affords : Affords exactTransfer (play beforePause pauseScript) := by
  refine exactTransfer_affords fun holder => ?_
  have held : (play beforePause pauseScript).balances.of holder =
      (((hundredOf ⟨3⟩).of holder -
        (if holder = ⟨3⟩ then 40 else 0) + if holder = ⟨0⟩ then 40 else 0) -
        (if holder = ⟨3⟩ then 10 else 0) + if holder = ⟨0⟩ then 10 else 0) := rfl
  have own : (play beforePause pauseScript).balances.of
      (play beforePause pauseScript).self = 50 := by decide
  have large : (300 : Int) ≤ i128Max := by decide
  rw [held, own]
  simp only [hundredOf, heldBy]
  split_ifs <;> omega

theorem exactTransfer_oblivious_paused : Oblivious Env.flipPaused exactTransfer := by
  intro src dst amount e
  simp only [IgnoresAt, EStateM.run, exactTransfer]
  have same : e.flipPaused.balances = e.balances := rfl
  rw [same]
  cases e.balances.move src dst amount <;> rfl

/-- While the registry is paused the overdue task pays its owner, and the stake is stuck. -/
theorem pause_policy_overdue :
    PaysOut exactTransfer (signedBy [⟨3⟩] 1000) (.expireTask 1) (play beforePause pauseScript)
      .unit ⟨3⟩ 40 ∧
    ¬ Succeeds exactTransfer (signedBy [⟨3⟩] 1000) (.initiateUnbond ⟨3⟩ 10)
      (play beforePause pauseScript) := by
  obtain ⟨-, expire, -, -, -, unbond⟩ := pause_policy beforePause_fresh pauseScript_run
    exactTransfer_exact exactTransfer_oblivious_paused pauseScript_affords (signedBy [⟨3⟩] 1000)
  have staked : keeperStakeOf (play beforePause pauseScript) ⟨3⟩ = 10 := by decide
  refine ⟨expire 1 (newTask ⟨3⟩ sampleParams) (by decide) (by decide) (by decide), ?_⟩
  have paused := unbond ⟨3⟩ (by decide) (by decide) (by decide)
  rw [staked] at paused
  rw [paused]
  decide

/-- Asking for stake back fails for the pause switch alone. -/
theorem unbond_refused_paused :
    ∃ start e : Env, Fresh start ∧ ExactRun start e ∧ e.paused = some true ∧
      (invoke exactTransfer (signedBy [⟨3⟩] 1000) (.initiateUnbond ⟨3⟩ 10) e).1 =
        .error (.error .contractPaused) ∧
      (invoke exactTransfer (signedBy [⟨3⟩] 1000) (.initiateUnbond ⟨3⟩ 10) e.flipPaused).1 =
        .ok .unit :=
  ⟨beforePause, play beforePause pauseScript, beforePause_fresh, pauseScript_run, rfl, rfl, rfl⟩

end KeeperNetwork
