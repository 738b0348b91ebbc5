import KeeperNetwork.Proofs.AdminBound
import KeeperNetwork.Proofs.TaskWrites

/-! Whoever loses by a call, or whose task or settings it changes, has signed it or is outranked. -/

namespace KeeperNetwork

open Soroban

/-- Who has to sign a call. -/
def Call.caller : Call → Option Address
  | .initializeRegistry admin .. | .pause admin | .unpause admin | .setFeeBps admin _
  | .setMinReward admin _ | .setReputationFloor admin _ | .transferAdmin admin _
  | .upgrade admin _ | .sweepFees admin .. | .slash admin .. | .setMinStake admin _
  | .resolveSlashAppeal admin .. | .setDisputeWindow admin _
  | .resolveExecutionDispute admin .. => some admin
  | .registerTask owner _ | .batchRegisterTasks owner .. | .increaseReward owner ..
  | .extendDeadline owner .. | .updateVerifier owner .. | .cancelTask owner _
  | .disputeExecution owner _ => some owner
  | .claimTask keeper _ | .executeTask keeper .. | .withdrawRewards keeper
  | .stakeDeposit keeper _ | .initiateUnbond keeper _ | .withdrawStake keeper
  | .raiseSlashAppeal keeper _ => some keeper
  | .expireTask _ => none

/-- What only the administrator sets. -/
def World.settings (w : World) :=
  (w.admin, w.rewardToken, w.feeBps, w.paused, w.minReward, w.minStake, w.disputeWindowLedgers,
    w.reputationFloor, w.wasm)

/-- What a successful call changes is its caller's to change. -/
structure Authorized (inv : Invocation) (e e' : Env) (call : Call) : Prop where
  signed : ∀ caller, call.caller = some caller → caller ∈ inv.auths
  admin : call.byAdmin = true → call.caller = e.admin
  settings : e'.settings ≠ e.settings → call.byAdmin = true
  fees : feesAccrued e' < feesAccrued e → call.byAdmin = true
  rewards : ∀ keeper, entitlement e' keeper < entitlement e keeper →
    call.caller = some keeper ∨ call.byAdmin = true
  stakes : ∀ keeper, exposure e' keeper < exposure e keeper →
    call.caller = some keeper ∨ call.byAdmin = true
  /-- A task changes only as the call that is about it says. -/
  tasks : ∀ taskId task, e.tasks.lookup taskId = some task →
    e'.tasks.lookup taskId = some task ∨ call.subject = some taskId ∧
      ∃ task', e'.tasks.lookup taskId = some task' ∧ Rewrite e taskId task call task'

variable {token : Token} {inv : Invocation} {start e e' : Env} {call : Call} {value : Value}

attribute [local simp] Call.caller Call.byAdmin Call.forfeited Call.forfeitedFrom Call.forfeit
  Call.executionFee Call.executionNet feesFund rewardsFund stakeFund

theorem Effect.caller (effect : Effect token inv e call value e') :
    (∀ caller, call.caller = some caller → caller ∈ inv.auths) ∧
      (e.admin ≠ none → call.byAdmin = true → call.caller = e.admin) := by
  cases effect with
  | initializeRegistry absent _ signed => simp [signed]
  | pause admitted | unpause admitted | setFeeBps admitted | setMinReward admitted
  | setReputationFloor admitted | transferAdmin admitted | upgrade admitted | sweepFees admitted
  | slashStake admitted | slashUnbond admitted | setMinStake admitted
  | rejectSlashAppeal admitted | upholdSlashAppeal admitted | setDisputeWindow admitted
  | upholdDispute admitted | releaseDispute admitted =>
    simp [admitted.1, admitted.2]
  | registerTask permitted | batchRegisterTasks permitted | increaseReward permitted
  | extendDeadline permitted | updateVerifier permitted | claimTask permitted
  | executeTaskHeld permitted | executeTaskPaid permitted | stakeDeposit _ permitted
  | initiateUnbond _ permitted =>
    simp [permitted.2]
  | cancelTask signed | withdrawRewards signed | withdrawStake _ signed
  | raiseSlashAppeal signed | disputeExecution signed =>
    simp [signed]
  | expireTask => simp

theorem Effect.settings (detached : Detached token) (formed : WellFormed e)
    (effect : Effect token inv e call value e') (user : call.byAdmin = false) :
    e'.settings = e.settings := by
  cases effect with
  | initializeRegistry absent => exact absurd absent formed.ready
  | batchRegisterTasks _ _ _ _ _ _ _ _ registered =>
    obtain ⟨-, -, same⟩ := registered.outcome detached
    rw [same]
    rfl
  | registerTask | increaseReward | extendDeadline | updateVerifier | claimTask | executeTaskHeld
  | executeTaskPaid | cancelTask | expireTask | withdrawRewards | stakeDeposit | initiateUnbond
  | withdrawStake | raiseSlashAppeal | disputeExecution =>
    try obtain ⟨balances, rfl⟩ := detached ‹_›
    simp [World.settings]
  | _ => cases user

theorem TaskWrite.authorized (formed : WellFormed e) (write : TaskWrite e e' call value)
    {taskId : Nat} {task : Task} (found : e.tasks.lookup taskId = some task) :
    e'.tasks.lookup taskId = some task ∨ call.subject = some taskId ∧
      ∃ task', e'.tasks.lookup taskId = some task' ∧ Rewrite e taskId task call task' := by
  cases write with
  | untouched _ _ tasks => exact .inl (tasks ▸ found)
  | @rewritten written old new _ about stored rewrite tasks =>
    by_cases here : taskId = written
    · subst here
      obtain rfl : old = task := Option.some.inj (stored.symm.trans found)
      exact .inr ⟨about, new, by rw [tasks, Finmap.lookup_insert], rewrite⟩
    · rw [tasks, Finmap.lookup_insert_of_ne _ here]
      exact .inl found
  | filed _ _ numbered consecutive tasks =>
    -- New tasks are filed under ids that are still free.
    have free : taskId ∉ (call.filings value).map Filing.taskId := by
      rw [numbered, consecutive, List.mem_range'_1]
      rintro ⟨above, -⟩
      rw [formed.absent (by omega)] at found
      cases found
    have distinct : ((call.filings value).map Filing.taskId).Nodup := by
      rw [numbered, consecutive]
      exact List.nodup_range'
    rw [tasks, (lookup_fileAll e.tasks _ distinct taskId).2 free]
    exact .inl found

theorem Effect.gains (formed : WellFormed e)
    (effect : Effect token inv e call value e') (user : call.byAdmin = false) :
    0 ≤ feesFund.flow e call value ∧ ∀ keeper, call.caller ≠ some keeper →
      0 ≤ (rewardsFund keeper).flow e call value ∧
        0 ≤ (stakeFund keeper).flow e call value := by
  -- A quiet call adds nothing to any fund.
  by_cases quiet : call.quiet = true
  · have fees := feesFund_sound.quiet e call value quiet
    refine ⟨fees.ge, fun keeper _ => ⟨?_, ?_⟩⟩
    · exact ((rewardsFund_sound keeper).quiet e call value quiet).ge
    · exact ((stakeFund_sound keeper).quiet e call value quiet).ge
  cases effect with
  | @executeTaskHeld executor _ proof _ _ _ _ _ found _ _ _ _ split
  | @executeTaskPaid executor _ proof _ _ _ _ _ found _ _ _ _ split =>
    have cut := (execution_of_split executor executor proof formed found split).1
    have shares := splitReward_nonneg (formed.tasks _ _ found).positive formed.fee split
    refine ⟨by simp [-Call.executionFee, cut, shares.2], fun keeper other => ?_⟩
    obtain ⟨-, net⟩ := execution_of_split executor keeper proof formed found split
    simp [-Call.executionNet, net, (Option.some_injective _).ne_iff.mp other.symm]
  | stakeDeposit _ _ positive =>
    refine ⟨by simp, fun keeper other => ⟨by simp, ?_⟩⟩
    simp only [stakeFund, Call.staked]
    split <;> simp [positive.le]
  | withdrawRewards | withdrawStake =>
    -- A withdrawal takes from its caller alone.
    refine ⟨by simp, fun keeper other => ?_⟩
    have apart := (Option.some_injective _).ne_iff.mp other
    simp [apart]
  | initiateUnbond | disputeExecution => simp
  | _ => first | exact absurd rfl quiet | cases user

theorem Fund.Sound.grows {fund : Fund} (sound : fund.Sound) (detached : Detached token)
    (formed : WellFormed e) (unsigned : e.self ∉ inv.auths)
    (effect : Effect token inv e call value e') (gain : 0 ≤ fund.flow e call value) :
    fund.stock e ≤ fund.stock e' := by
  rw [sound.flows detached formed unsigned effect]
  exact Int.le_add_of_nonneg_right gain

/--
Every change that a call makes in a reachable state is its caller's to make.

The caller has signed the call. The settings and the fees change only by calls of the stored
administrator, and rewards and stakes of a keeper shrink only by those and by the keeper's own. A
task changes only by the call about it, made by its owner or its keeper or, after the deadline, by
anybody.
-/
theorem changes_authorized (fresh : Fresh start) (run : DetachedRun start e)
    (detached : Detached token) (unsigned : e.self ∉ inv.auths)
    (called : invoke token inv call e = (.ok value, e')) : Authorized inv e e' call := by
  have formed := DetachedRun.wellFormed fresh run
  obtain ⟨finish, effect, rfl⟩ := invoke_ok called
  obtain ⟨signed, admin⟩ := effect.caller
  refine ⟨signed, admin formed.ready, fun changed => ?_, fun less => ?_, fun keeper less => ?_,
    fun keeper less => ?_, fun taskId task => (effect.taskWrite detached formed).authorized formed⟩
  · by_contra user
    exact changed (@Effect.settings _ _ e finish _ _ detached formed effect
      (Bool.eq_false_iff.mpr user))
  · by_contra user
    have gains := effect.gains formed (Bool.eq_false_iff.mpr user)
    exact absurd less (feesFund_sound.grows detached formed unsigned effect gains.1).not_gt
  · by_contra strange
    obtain ⟨other, user⟩ := not_or.mp strange
    have gains := (effect.gains formed (Bool.eq_false_iff.mpr user)).2 keeper other
    exact absurd less ((rewardsFund_sound keeper).grows detached formed unsigned effect
      gains.1).not_gt
  · by_contra strange
    obtain ⟨other, user⟩ := not_or.mp strange
    have gains := (effect.gains formed (Bool.eq_false_iff.mpr user)).2 keeper other
    exact absurd less ((stakeFund_sound keeper).grows detached formed unsigned effect
      gains.2).not_gt

def fiftyStaked : Env :=
  play (genesis ⟨0⟩ ⟨1⟩ ⟨2⟩ 0 (hundredOf ⟨3⟩) 7 30) [.call [⟨3⟩] (.stakeDeposit ⟨3⟩ 50)]

/-- A slash takes from a keeper that did not sign it, and rests on the administrator. -/
theorem changes_authorized_slash :
    ∃ value after, invoke exactTransfer (signedBy [⟨1⟩] 0) (.slash ⟨1⟩ ⟨3⟩ 20 "late" ⟨5⟩)
        fiftyStaked = (.ok value, after) ∧ exposure after ⟨3⟩ = 30 ∧
      Authorized (signedBy [⟨1⟩] 0) fiftyStaked after (.slash ⟨1⟩ ⟨3⟩ 20 "late" ⟨5⟩) := by
  have run : ExactRun _ fiftyStaked := Playable.run (by decide)
  exact ⟨_, _, rfl, by decide, changes_authorized (genesis_fresh (by decide)) run.detached
    exactTransfer_exact.detached (by decide) rfl⟩

end KeeperNetwork
