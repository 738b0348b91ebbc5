import KeeperNetwork.Proofs.Runs

/-! What one call can do to one task, when the token moves exact amounts. -/

namespace KeeperNetwork

open Soroban

/-- The calls that settle a task. -/
def Call.settles (call : Call) (taskId : Nat) : Bool :=
  match call with
  | .executeTask _ settled _ => settled == taskId
  | .cancelTask _ settled => settled == taskId
  | .expireTask settled => settled == taskId
  | _ => false

def batchDeposit (registered : List Nat) (tasks : List BatchTaskParams) (taskId : Nat) : Int :=
  ((registered.zip tasks).map fun entry => if entry.1 = taskId then entry.2.reward else 0).sum

/-- What a call adds to the escrow of a task. -/
def Call.deposited (call : Call) (value : Value) (taskId : Nat) : Int :=
  match call, value with
  | .registerTask _ params, .id registered => if registered = taskId then params.reward else 0
  | .batchRegisterTasks _ tasks _, .ids registered => batchDeposit registered tasks taskId
  | .increaseReward _ toppedUp additional, _ => if toppedUp = taskId then additional else 0
  | _, _ => 0

def Receipt.escrowed (taskId : Nat) (receipt : Receipt) : Int :=
  receipt.call.deposited receipt.value taskId

/-- All that was ever escrowed for a task. -/
def totalEscrowed (taskId : Nat) (history : List Entry) : Int :=
  receiptTotal (Receipt.escrowed taskId) history

/-- The ways a successful call can treat one task. -/
inductive TaskMove (e e' : Env) (call : Call) (value : Value) (taskId : Nat) : Prop where
  /-- The call is about something else. -/
  | untouched (same : e'.tasks.lookup taskId = e.tasks.lookup taskId)
      (unsettled : call.settles taskId = false) (nothing : call.deposited value taskId = 0)
  | registered {owner : Address} {params : BatchTaskParams}
      (absent : e.tasks.lookup taskId = none) (valid : ValidParams e params)
      (stored : e'.tasks.lookup taskId = some (newTask owner params))
      (unsettled : call.settles taskId = false)
      (deposit : call.deposited value taskId = params.reward)
  | toppedUp {owner : Address} {additional : Int} {task : Task}
      (called : call = .increaseReward owner taskId additional)
      (found : e.tasks.lookup taskId = some task) (unfinished : task.status.isOpen = true)
      (positive : 0 < additional)
      (stored : e'.tasks.lookup taskId =
        some { task with reward := task.reward + additional })
  | extended {owner : Address} {newDeadline : Nat} {task : Task}
      (called : call = .extendDeadline owner taskId newDeadline)
      (found : e.tasks.lookup taskId = some task) (unfinished : task.status.isOpen = true)
      (later : task.deadline < newDeadline)
      (stored : e'.tasks.lookup taskId = some { task with deadline := newDeadline })
  | reverified {owner : Address} {newVerifier : Option Address} {task : Task}
      (called : call = .updateVerifier owner taskId newVerifier)
      (found : e.tasks.lookup taskId = some task) (unclaimed : task.status = .pending)
      (stored : e'.tasks.lookup taskId = some { task with verifier := newVerifier })
  /-- A keeper claims the task, for the first time or from a keeper that let its lock expire. -/
  | claimed {keeper : Address} {task : Task} {missed : Option Address}
      (called : call = .claimTask keeper taskId)
      (found : e.tasks.lookup taskId = some task) (ahead : e.timestamp < task.deadline)
      (claimable : Claimable e task missed)
      (stored : e'.tasks.lookup taskId = some { task with
        status := .claimed, claimer := some keeper, claimLedger := some e.sequence })
  | executed {keeper : Address} {proof : Bytes} {task : Task} {keeperNet fee : Int}
      (called : call = .executeTask keeper taskId proof)
      (found : e.tasks.lookup taskId = some task) (claimed : task.status = .claimed)
      (claimer : task.claimer = some keeper) (ahead : e.timestamp < task.deadline)
      (split : splitReward task.reward (feeBps e) = .ok (keeperNet, fee))
      (stored : e'.tasks.lookup taskId = some { task with status := .executed })
      (credited : ∀ other, entitlement e' other =
        entitlement e other + if other = keeper then keeperNet else 0)
      (unpaid : e'.balances = e.balances)
      (accrued : feesAccrued e' = feesAccrued e + fee)
  | cancelled {owner : Address} {task : Task}
      (called : call = .cancelTask owner taskId)
      (found : e.tasks.lookup taskId = some task) (owned : task.owner = owner)
      (unfinished : task.status.isOpen = true)
      (unlocked : task.status = .claimed → lockExpired e task = true)
      (stored : e'.tasks.lookup taskId = some { task with status := .cancelled })
      (refund : e.balances.move e.self task.owner task.reward = some e'.balances)
      (uncredited : ∀ keeper, entitlement e' keeper = entitlement e keeper)
      (unaccrued : feesAccrued e' = feesAccrued e)
  | expired {task : Task}
      (called : call = .expireTask taskId)
      (found : e.tasks.lookup taskId = some task) (unfinished : task.status.isOpen = true)
      (passed : task.deadline ≤ e.timestamp)
      (stored : e'.tasks.lookup taskId = some { task with status := .expired })
      (refund : e.balances.move e.self task.owner task.reward = some e'.balances)
      (uncredited : ∀ keeper, entitlement e' keeper = entitlement e keeper)
      (unaccrued : feesAccrued e' = feesAccrued e)

variable {token : Token} {inv : Invocation} {e e' : Env}

theorem batchDeposit_cons (first taskId : Nat) (params : BatchTaskParams) (rest : List Nat)
    (entries : List BatchTaskParams) :
    batchDeposit (first :: rest) (params :: entries) taskId =
      (if first = taskId then params.reward else 0) + batchDeposit rest entries taskId := by
  simp [batchDeposit]

theorem Registered.lookup {owner : Address} {entries : List BatchTaskParams} {taskIds : List Nat}
    (exact : ExactToken token) (registered : Registered token inv owner entries e taskIds e')
    (taskId : Nat) :
    (e'.tasks.lookup taskId = e.tasks.lookup taskId ∧ batchDeposit taskIds entries taskId = 0) ∨
    (e.taskCounter.getD 0 < taskId ∧ ∃ params ∈ entries,
      e'.tasks.lookup taskId = some (newTask owner params) ∧
      batchDeposit taskIds entries taskId = params.reward) := by
  induction registered with
  | done => exact .inl ⟨rfl, rfl⟩
  | @next params rest e paid finish taskIds escrowed room others ih =>
    obtain ⟨balances, -, rfl⟩ := exact.moves escrowed
    simp only [Env.emit_tasks, Env.saveTask_tasks, Env.countTask_tasks, Finmap.lookup_insert_eq,
      Env.emit_taskCounter, Env.saveTask_taskCounter, Env.countTask_taskCounter,
      Option.getD_some] at ih
    rw [batchDeposit_cons]
    rcases ih with ⟨same, nothing⟩ | ⟨above, other, member, stored, deposit⟩
    · -- The rest of the batch is about other tasks, so only the first entry can be about this one.
      rw [same, nothing, add_zero]
      by_cases first : taskId = e.taskCounter.getD 0 + 1
      · exact .inr ⟨by omega, params, List.mem_cons_self, by rw [if_pos first],
          if_pos first.symm⟩
      · exact .inl ⟨if_neg first, if_neg (Ne.symm first)⟩
    · have later : e.taskCounter.getD 0 + 1 ≠ taskId := by omega
      exact .inr ⟨by omega, other, List.mem_cons_of_mem _ member, stored,
        by rw [if_neg later, zero_add, deposit]⟩

theorem TaskMove.of_write {call : Call} {value : Value} {taskId : Nat} (written : Nat) (task : Task)
    (tasks : e'.tasks = e.tasks.insert written task)
    (unsettled : taskId ≠ written → call.settles taskId = false)
    (nothing : taskId ≠ written → call.deposited value taskId = 0)
    (here : taskId = written → e'.tasks.lookup taskId = some task →
      TaskMove e e' call value taskId) : TaskMove e e' call value taskId := by
  by_cases same : taskId = written
  · exact here same (by rw [tasks, Finmap.lookup_insert_eq, if_pos same])
  · exact .untouched (by rw [tasks, Finmap.lookup_insert_eq, if_neg same]) (unsettled same)
      (nothing same)

/-- What a call does to one task is one of the moves. -/
theorem Effect.taskMove {call : Call} {value : Value} (exact : ExactToken token)
    (formed : WellFormed e) (effect : Effect token inv e call value e') (taskId : Nat) :
    TaskMove e e' call value taskId := by
  cases effect with
  | @registerTask owner params paid _ valid _ escrowed =>
    obtain ⟨balances, -, rfl⟩ := exact.moves escrowed
    refine .of_write (e.taskCounter.getD 0 + 1) (newTask owner params) (by simp)
      (by simp [Call.settles]) (fun other => by simp [Call.deposited, Ne.symm other]) ?_
    intro same stored
    exact .registered (formed.absent (by omega)) valid stored (by simp [Call.settles])
      (by simp [Call.deposited, same])
  | batchRegisterTasks _ _ _ _ valid _ _ _ registered =>
    rcases registered.lookup exact taskId with
      ⟨same, nothing⟩ | ⟨above, params, member, stored, deposit⟩
    · exact .untouched same (by simp [Call.settles]) nothing
    · exact .registered (formed.bump.absent above) (valid params member) stored
        (by simp [Call.settles]) deposit
  | @increaseReward owner written additional task paid _ positive found _ unfinished _ escrowed =>
    obtain ⟨balances, -, rfl⟩ := exact.moves escrowed
    refine .of_write written { task with reward := task.reward + additional } (by simp)
      (by simp [Call.settles]) (fun other => by simp [Call.deposited, Ne.symm other]) ?_
    rintro rfl stored
    exact .toppedUp rfl found unfinished positive stored
  | @extendDeadline _ written newDeadline task _ found _ unfinished later =>
    refine .of_write written { task with deadline := newDeadline } (by simp)
      (by simp [Call.settles]) (by simp [Call.deposited]) ?_
    rintro rfl stored
    exact .extended rfl found unfinished later stored
  | @updateVerifier _ written newVerifier task _ found _ unclaimed =>
    refine .of_write written { task with verifier := newVerifier } (by simp)
      (by simp [Call.settles]) (by simp [Call.deposited]) ?_
    rintro rfl stored
    exact .reverified rfl found unclaimed stored
  | @claimTask keeper written task missed _ _ found ahead claimable =>
    refine .of_write written { task with
        status := .claimed, claimer := some keeper, claimLedger := some e.sequence } (by simp)
      (by simp [Call.settles]) (by simp [Call.deposited]) ?_
    rintro rfl stored
    exact .claimed rfl found ahead claimable stored
  | @executeTaskHeld keeper written _ task _ _ _ _ found claimed claimer ahead _ split =>
    refine .of_write written { task with status := .executed } (by simp)
      (fun other => by simp [Call.settles, Ne.symm other]) (by simp [Call.deposited]) ?_
    rintro rfl stored
    refine .executed rfl found claimed claimer ahead split stored (fun other => ?_) (by simp)
      (by simp)
    refine Eq.trans (entitlement_congr ?_ ?_ other)
      (entitlement_hold e.bump inv keeper other (heldCredit e taskId _)) <;> simp
  | @executeTaskPaid keeper written _ task _ _ _ _ found claimed claimer ahead _ split =>
    refine .of_write written { task with status := .executed } (by simp)
      (fun other => by simp [Call.settles, Ne.symm other]) (by simp [Call.deposited]) ?_
    rintro rfl stored
    refine .executed rfl found claimed claimer ahead split stored (fun other => ?_) (by simp)
      (by simp)
    refine Eq.trans (entitlement_congr ?_ ?_ other)
      (entitlement_credit e.bump inv keeper other _) <;> simp
  | @cancelTask owner written task paid signed found owned unfinished unlocked _ refund =>
    obtain ⟨balances, moved, rfl⟩ := exact.moves refund
    refine .of_write written { task with status := .cancelled } (by simp)
      (fun other => by simp [Call.settles, Ne.symm other]) (by simp [Call.deposited]) ?_
    rintro rfl stored
    exact .cancelled rfl found owned unfinished unlocked stored (by simpa [owned] using moved)
      (entitlement_congr (by simp) (by simp)) (by simp [feesAccrued])
  | @expireTask written task paid found unfinished passed _ refund =>
    obtain ⟨balances, moved, rfl⟩ := exact.moves refund
    refine .of_write written { task with status := .expired } (by simp)
      (fun other => by simp [Call.settles, Ne.symm other]) (by simp [Call.deposited]) ?_
    rintro rfl stored
    exact .expired rfl found unfinished passed stored (by simpa using moved)
      (entitlement_congr (by simp) (by simp)) (by simp [feesAccrued])
  | _ =>
    try obtain ⟨balances, -, rfl⟩ := exact.moves ‹_›
    exact .untouched (by simp) (by simp [Call.settles]) (by simp [Call.deposited])

end KeeperNetwork
