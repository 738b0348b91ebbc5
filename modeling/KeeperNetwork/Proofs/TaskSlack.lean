import KeeperNetwork.Proofs.Funds
import KeeperNetwork.Proofs.Solvency
import KeeperNetwork.Proofs.TaskMove

/-! The slack of a task: what was escrowed for it, less what was released and is still held. -/

namespace KeeperNetwork

open Soroban Bookkeeping

/-- What a call releases of a task's escrow. -/
def Call.released (w : World) (taskId : Nat) (call : Call) : Int :=
  if call.settles taskId then (w.tasks.lookup taskId).elim 0 Task.reward else 0

/-- The slack of a task, as an account. -/
def slack (taskId : Nat) : Account World Entry where
  -- What is held counts against the slack, as does what is released.
  stock w := -w.tasks.weightAt Task.escrow taskId
  flow
    | .call receipt => receipt.call.released receipt.before taskId -
        receipt.call.deposited receipt.value taskId
    | .outside _ => 0

variable {token : Token} {inv : Invocation} {e e' : Env} {call : Call} {value : Value}
  {taskId : Nat}

theorem unexplained_slack (e : Env) (taskId : Nat) :
    e.unexplained (slack taskId) = -escrowOf taskId e - (slack taskId).booked e.history := rfl

attribute [local simp] Call.files

theorem deposited_of_not_files (other : call.files = false) (value : Value) (taskId : Nat) :
    call.deposited value taskId = 0 := by
  cases call <;> simp at other <;> cases value <;> rfl

theorem released_of_files (files : call.files = true) (w : World) (taskId : Nat) :
    call.released w taskId = 0 := by
  -- Only the three filing calls are left, and none of them settles a task.
  cases call with
  | registerTask | batchRegisterTasks | increaseReward => rfl
  | _ => cases files

variable {entries : List BatchTaskParams}

theorem batchDeposit_nonneg (positive : ∀ params ∈ entries, 0 < params.reward)
    (taskIds : List Nat) (taskId : Nat) : 0 ≤ batchDeposit taskIds entries taskId := by
  induction entries generalizing taskIds with
  | nil => simp [batchDeposit]
  | cons params rest ih =>
    obtain ⟨here, later⟩ := List.forall_mem_cons.mp positive
    cases taskIds with
    | nil => simp [batchDeposit]
    | cons first others =>
      have tail := ih later others
      rw [batchDeposit_cons]
      split <;> omega

theorem Effect.deposited_nonneg (effect : Effect token inv e call value e') (taskId : Nat) :
    0 ≤ call.deposited value taskId := by
  cases files : call.files with
  | false => rw [deposited_of_not_files files]
  | true =>
    cases effect with
    | registerTask _ valid =>
      have positive := valid.positive
      simp only [Call.deposited]
      split <;> omega
    | batchRegisterTasks _ _ _ _ valid =>
      exact batchDeposit_nonneg (fun params member => (valid params member).positive) _ _
    | increaseReward _ positive =>
      simp only [Call.deposited]
      split <;> omega
    | _ => simp at files

attribute [local simp] escrowOf Task.escrow

theorem Effect.escrow_alone (alone : Effect skipTransfer inv e call value e')
    (other : call.files = false) (taskId : Nat) :
    escrowOf taskId e' = escrowOf taskId e - call.released e taskId := by
  cases alone with
  | registerTask | batchRegisterTasks | increaseReward => simp at other
  | @extendDeadline _ written _ _ _ found | @updateVerifier _ written _ _ _ found =>
    by_cases same : taskId = written
    · subst same
      simp [Call.released, Call.settles, Finmap.weightAt_of_lookup _ found]
    · simp [Call.released, Call.settles, same]
  | @claimTask _ written task _ _ _ found _ claimable =>
    have unfinished : task.status.isOpen = true := by
      rcases claimable with ⟨status, -⟩ | ⟨status, -⟩ <;> simp [status]
    by_cases same : taskId = written
    · subst same
      simp [Call.released, Call.settles, Finmap.weightAt_of_lookup _ found, unfinished]
    · simp [Call.released, Call.settles, same]
  | @executeTaskHeld _ written _ task _ _ _ _ found status
  | @executeTaskPaid _ written _ task _ _ _ _ found status =>
    by_cases same : taskId = written
    · subst same
      simp [Call.released, Call.settles, found, Finmap.weightAt_of_lookup _ found, status]
    · simp [Call.released, Call.settles, same, Ne.symm same]
  | @cancelTask _ written _ _ _ found _ unfinished _ _ moved
  | @expireTask written _ _ found unfinished _ _ moved =>
    obtain rfl := skipTransfer_returns.mp moved
    by_cases same : taskId = written
    · subst same
      simp [Call.released, Call.settles, found, Finmap.weightAt_of_lookup _ found, unfinished]
    · simp [Call.released, Call.settles, same, Ne.symm same]
  | _ =>
    try obtain rfl := skipTransfer_returns.mp ‹_›
    simp [Call.released, Call.settles]

theorem escrowOf_store (formed : WellFormed e) (inv : Invocation) (owner : Address)
    (params : BatchTaskParams) (event : Event) (taskId : Nat) :
    escrowOf taskId ((e.countTask.saveTask inv (e.taskCounter.getD 0 + 1)
        (newTask owner params)).emit event) =
      escrowOf taskId e + if e.taskCounter.getD 0 + 1 = taskId then params.reward else 0 := by
  -- The id is new, so nothing was held for it.
  have fresh := Finmap.weightAt_of_lookup_none Task.escrow
    (formed.absent (Nat.lt_succ_self (e.taskCounter.getD 0)))
  by_cases same : e.taskCounter.getD 0 + 1 = taskId
  · subst same
    simp [fresh, newTask]
  · simp [same, Ne.symm same]

theorem Registered.escrow_keeps {owner : Address} {taskIds : List Nat}
    (across : Across (Calm (escrowOf taskId) (AddSubmonoid.nonneg ℤ)) token)
    (foreign : owner ≠ e.self) (positive : ∀ params ∈ entries, 0 < params.reward)
    (formed : WellFormed e) (registered : Registered token inv owner entries e taskIds e') :
    escrowOf taskId e ≤ escrowOf taskId e' := by
  induction registered with
  | done => exact le_rfl
  | @next params rest e paid finish taskIds escrowed room others ih =>
    obtain ⟨here, later⟩ := List.forall_mem_cons.mp positive
    obtain ⟨steady, drift⟩ := across escrowed
    have outside := steady.self ▸ foreign
    have stored := steady.trans (.store inv outside here)
    have rest := ih (by simpa using outside) later (stored.emit.wellFormed formed)
    have kept := Drifts.nonneg_iff.mp (drift formed)
    rw [escrowOf_store (steady.wellFormed formed)] at rest
    split at rest <;> omega

/-- A call that does not settle a task never takes from its escrow. -/
theorem Effect.escrow_keeps (across : Across (Calm (escrowOf taskId) (AddSubmonoid.nonneg ℤ)) token)
    (formed : WellFormed e) (unsigned : e.self ∉ inv.auths)
    (unsettled : call.settles taskId = false) (effect : Effect token inv e call value e') :
    escrowOf taskId e ≤ escrowOf taskId e' := by
  have nothing : call.released e taskId = 0 := by simp [Call.released, unsettled]
  cases effect.staged with
  | settled other alone =>
    have kept := alone.escrow_alone other taskId
    omega
  | @paid pre paid _ _ _ event other alone moved =>
    have written := alone.escrow_alone other taskId
    have kept := Drifts.nonneg_iff.mp ((across moved).2 (formed.paying unsigned alone))
    have first : escrowOf taskId (pre.emit event) = escrowOf taskId pre := rfl
    have last : escrowOf taskId (paid.emit event) = escrowOf taskId paid := rfl
    omega
  | filed files effect =>
    have bumped : escrowOf taskId e.bump = escrowOf taskId e := rfl
    cases effect with
    | registerTask _ valid _ escrowed =>
      obtain ⟨steady, drift⟩ := across escrowed
      have kept := Drifts.nonneg_iff.mp (drift formed.bump)
      have positive := valid.positive
      rw [escrowOf_store (steady.wellFormed formed.bump)]
      split <;> omega
    | batchRegisterTasks permitted _ _ _ valid _ _ _ registered =>
      have foreign : _ ≠ e.self := fun same => unsigned (same ▸ permitted.2)
      have kept := registered.escrow_keeps across (by simpa using foreign)
        (fun params member => (valid params member).positive) formed.bump
      omega
    | @increaseReward _ written additional task paid _ positive found _ unfinished _ escrowed =>
      have kept := Drifts.nonneg_iff.mp ((across escrowed).2 formed.bump)
      by_cases same : taskId = written
      · -- The record that is written back is an old one, but it held no less then.
        subst same
        simp [Finmap.weightAt_of_lookup _ found, unfinished]
        omega
      · have other : escrowOf taskId ((paid.saveTask inv written
            { task with reward := task.reward + additional }).emit
            (.rewardIncreased written (task.reward + additional))) = escrowOf taskId paid := by
          simp [same]
        omega
    | _ => simp at files

theorem Registered.slack {owner : Address} {taskIds : List Nat}
    (across : Across (Calm (Env.unexplained (slack taskId)) (AddSubmonoid.nonneg ℤ)) token)
    (foreign : owner ≠ e.self) (positive : ∀ params ∈ entries, 0 < params.reward)
    (formed : WellFormed e) (registered : Registered token inv owner entries e taskIds e') :
    e.unexplained (slack taskId) ≤
      e'.unexplained (slack taskId) + batchDeposit taskIds entries taskId := by
  -- Each entry binds its own reward, and the transfer before it only adds slack.
  induction registered with
  | done => simp [batchDeposit]
  | @next params rest e paid finish taskIds escrowed room others ih =>
    obtain ⟨here, later⟩ := List.forall_mem_cons.mp positive
    obtain ⟨steady, drift⟩ := across escrowed
    have outside := steady.self ▸ foreign
    have stored := steady.trans (.store inv outside here)
    have rest := ih (by simpa using outside) later (stored.emit.wellFormed formed)
    have kept := Drifts.nonneg_iff.mp (drift formed)
    rw [unexplained_slack _ taskId, escrowOf_store (steady.wellFormed formed)] at rest
    rw [unexplained_slack paid] at kept
    rw [batchDeposit_cons]
    simp only [Env.emit_history, Env.saveTask_history, Env.countTask_history] at rest
    omega

/-- The slack of a topped up task cannot shrink while its own top-up is under way. -/
def HoldsToppedUp (taskId : Nat) (call : Call) (token : Token) : Prop :=
  ∀ owner additional, call = .increaseReward owner taskId additional →
    Across (fun a b => (slack taskId).booked b.history ≤ (slack taskId).booked a.history) token

/-- Every call leaves a task its slack, as long as top-ups are not interrupted. -/
theorem Effect.slack
    (across : Across (Calm (Env.unexplained (slack taskId)) (AddSubmonoid.nonneg ℤ)) token)
    (held : HoldsToppedUp taskId call token) (formed : WellFormed e)
    (unsigned : e.self ∉ inv.auths) (effect : Effect token inv e call value e') :
    e.unexplained (slack taskId) ≤
      (e'.record e call value).unexplained (slack taskId) := by
  have booked : (KeeperNetwork.slack taskId).flow (.call ⟨e, call, value, e'⟩) =
      call.released e taskId - call.deposited value taskId := rfl
  rw [Env.unexplained_record, booked]
  cases effect.staged with
  | settled other alone =>
    have kept := alone.escrow_alone other taskId
    have nothing := deposited_of_not_files other value taskId
    have history : e'.history = e.history := alone.history_of fun _ _ _ _ _ moved => by
      rw [skipTransfer_returns.mp moved]
    rw [unexplained_slack, unexplained_slack, history]
    omega
  | @paid pre paid _ _ _ event other alone moved =>
    -- The task is settled before the payout, so the token finds its escrow already gone.
    have written := alone.escrow_alone other taskId
    have nothing := deposited_of_not_files other value taskId
    have history : (pre.emit event).history = e.history :=
      alone.history_of fun _ _ _ _ _ moved => by rw [skipTransfer_returns.mp moved]
    have kept := Drifts.nonneg_iff.mp ((across moved).2 (formed.paying unsigned alone))
    have first : escrowOf taskId (pre.emit event) = escrowOf taskId pre := rfl
    have last : (paid.emit event).unexplained (KeeperNetwork.slack taskId) =
      paid.unexplained (KeeperNetwork.slack taskId) := rfl
    rw [Env.emit_history] at history
    rw [unexplained_slack pre, history] at kept
    rw [last, unexplained_slack e]
    omega
  | filed files effect =>
    have unsettled := released_of_files files e taskId
    have bumped : e.bump.unexplained (KeeperNetwork.slack taskId) =
      e.unexplained (KeeperNetwork.slack taskId) := rfl
    cases effect with
    | registerTask _ valid _ escrowed =>
      obtain ⟨steady, drift⟩ := across escrowed
      have kept := Drifts.nonneg_iff.mp (drift formed.bump)
      rw [bumped] at kept
      simp only [unexplained_slack, escrowOf_store (steady.wellFormed formed.bump),
        Env.emit_history, Env.saveTask_history, Env.countTask_history, Call.deposited] at kept ⊢
      omega
    | batchRegisterTasks permitted _ _ _ valid _ _ _ registered =>
      have foreign : _ ≠ e.self := fun same => unsigned (same ▸ permitted.2)
      have kept := registered.slack across (by simpa using foreign)
        (fun params member => (valid params member).positive) formed.bump
      simp only [Call.deposited]
      omega
    | @increaseReward owner written additional task paid _ positive found _ unfinished _ escrowed =>
      by_cases same : written = taskId
      · -- The old record is written back, so the token must not have settled it meanwhile.
        subst same
        have kept := held owner additional rfl escrowed
        simp only [Env.bump_history] at kept
        simp [unexplained_slack, Finmap.weightAt_of_lookup _ found, unfinished, Call.deposited]
        omega
      · have kept := Drifts.nonneg_iff.mp ((across escrowed).2 formed.bump)
        have elsewhere : escrowOf taskId ((paid.saveTask inv written
            { task with reward := task.reward + additional }).emit
            (.rewardIncreased written (task.reward + additional))) = escrowOf taskId paid := by
          simp [Ne.symm same]
        rw [bumped] at kept
        simp only [unexplained_slack, elsewhere, Env.emit_history, Env.saveTask_history,
          Call.deposited, if_neg same] at kept ⊢
        omega
    | _ => simp at files

end KeeperNetwork
