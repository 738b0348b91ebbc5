import KeeperNetwork.Proofs.Detached

/-! What one call does to the whole table of tasks, with any token that cannot reach it. -/

namespace KeeperNetwork

open Soroban

/-- A task that was registered, under the id it got. -/
structure Filing where
  taskId : Nat
  owner : Address
  params : BatchTaskParams
  deriving DecidableEq

def Filing.event (filing : Filing) : Event :=
  .taskRegistered filing.taskId filing.owner filing.params.reward filing.params.deadline
    filing.params.condition

def batchFilings (owner : Address) (taskIds : List Nat) (entries : List BatchTaskParams) :
    List Filing :=
  (taskIds.zip entries).map fun entry => ⟨entry.1, owner, entry.2⟩

namespace Call

def taskIds (call : Call) (value : Value) : List Nat :=
  match call, value with
  | .registerTask .., .id taskId => [taskId]
  | .batchRegisterTasks .., .ids taskIds => taskIds
  | _, _ => []

/-- The tasks that a call registers. -/
def filings (call : Call) (value : Value) : List Filing :=
  match call, value with
  | .registerTask owner params, .id taskId => [⟨taskId, owner, params⟩]
  | .batchRegisterTasks owner tasks _, .ids taskIds => batchFilings owner taskIds tasks
  | _, _ => []

/-- The number of tasks that a call asks to register. -/
def requested : Call → Nat
  | .registerTask .. => 1
  | .batchRegisterTasks _ tasks _ => tasks.length
  | _ => 0

/-- The stored task that a call is about. -/
def subject : Call → Option Nat
  | .increaseReward _ taskId _ | .extendDeadline _ taskId _ | .updateVerifier _ taskId _
  | .claimTask _ taskId | .executeTask _ taskId _ | .cancelTask _ taskId | .expireTask taskId =>
    some taskId
  | _ => none

end Call

/-- The table with all filed tasks. -/
def fileAll (tasks : Finmap fun _ : Nat => Task) (filings : List Filing) :
    Finmap fun _ : Nat => Task :=
  filings.foldl (fun stored filing =>
    stored.insert filing.taskId (newTask filing.owner filing.params)) tasks

/-- How a call rewrites the record of one task. -/
inductive Rewrite (e : Env) (taskId : Nat) (task : Task) : Call → Task → Prop where
  | toppedUp {owner : Address} {additional : Int} (owned : task.owner = owner)
      (unfinished : task.status.isOpen = true) (positive : 0 < additional) :
      Rewrite e taskId task (.increaseReward owner taskId additional)
        { task with reward := task.reward + additional }
  | extended {owner : Address} {newDeadline : Nat} (owned : task.owner = owner)
      (unfinished : task.status.isOpen = true) (later : task.deadline < newDeadline) :
      Rewrite e taskId task (.extendDeadline owner taskId newDeadline)
        { task with deadline := newDeadline }
  | reverified {owner : Address} {newVerifier : Option Address} (owned : task.owner = owner)
      (unclaimed : task.status = .pending) :
      Rewrite e taskId task (.updateVerifier owner taskId newVerifier)
        { task with verifier := newVerifier }
  /-- A keeper claims the task, for the first time or from a keeper that let its lock expire. -/
  | claimed {keeper : Address} {missed : Option Address} (ahead : e.timestamp < task.deadline)
      (claimable : Claimable e task missed) :
      Rewrite e taskId task (.claimTask keeper taskId) { task with
        status := .claimed, claimer := some keeper, claimLedger := some e.sequence }
  | executed {keeper : Address} {proof : Bytes} (claimed : task.status = .claimed)
      (claimer : task.claimer = some keeper) (ahead : e.timestamp < task.deadline) :
      Rewrite e taskId task (.executeTask keeper taskId proof) { task with status := .executed }
  | cancelled {owner : Address} (owned : task.owner = owner)
      (unfinished : task.status.isOpen = true)
      (unlocked : task.status = .claimed → lockExpired e task = true) :
      Rewrite e taskId task (.cancelTask owner taskId) { task with status := .cancelled }
  | expired (unfinished : task.status.isOpen = true) (passed : task.deadline ≤ e.timestamp) :
      Rewrite e taskId task (.expireTask taskId) { task with status := .expired }

/-- What a successful call does to the table of tasks. -/
inductive TaskWrite (e e' : Env) (call : Call) (value : Value) : Prop where
  /-- The call is about something else. -/
  | untouched (unrequested : call.requested = 0) (about : call.subject = none)
      (tasks : e'.tasks = e.tasks) (counter : e'.taskCounter = e.taskCounter)
  | rewritten {taskId : Nat} {task task' : Task} (unrequested : call.requested = 0)
      (about : call.subject = some taskId) (found : e.tasks.lookup taskId = some task)
      (rewrite : Rewrite e taskId task call task') (tasks : e'.tasks = e.tasks.insert taskId task')
      (counter : e'.taskCounter = e.taskCounter)
  | filed (about : call.subject = none)
      (valid : ∀ filing ∈ call.filings value, ValidParams e filing.params)
      (numbered : (call.filings value).map Filing.taskId = call.taskIds value)
      (consecutive : call.taskIds value = List.range' (e.taskCounter.getD 0 + 1) call.requested)
      (tasks : e'.tasks = fileAll e.tasks (call.filings value))
      (counter : e'.taskCounter.getD 0 = e.taskCounter.getD 0 + call.requested)

variable {token : Token} {inv : Invocation} {e e' : Env} {call : Call} {value : Value}

theorem Call.taskIds_of_unrequested (effect : Effect token inv e call value e')
    (unrequested : call.requested = 0) : call.taskIds value = [] ∧ call.filings value = [] := by
  -- An empty batch is refused, so only calls that register nothing ask for nothing.
  cases effect with
  | registerTask => cases unrequested
  | batchRegisterTasks _ nonempty =>
    exact absurd (List.eq_nil_of_length_eq_zero unrequested) nonempty
  | _ => exact ⟨rfl, rfl⟩

/--
Storing the entries of a batch files each of them under the next free id.

Nothing but the table, its counter, the log and lifetimes is written; balances are the token's.
-/
theorem Registered.outcome {owner : Address} {entries : List BatchTaskParams} {taskIds : List Nat}
    (detached : Detached token) (registered : Registered token inv owner entries e taskIds e') :
    taskIds = List.range' (e.taskCounter.getD 0 + 1) entries.length ∧
      e'.taskCounter.getD 0 = e.taskCounter.getD 0 + entries.length ∧
      e' = { e with
        balances := e'.balances
        liveUntil := e'.liveUntil
        taskCounter := e'.taskCounter
        tasks := fileAll e.tasks (batchFilings owner taskIds entries)
        events := e.events ++ (batchFilings owner taskIds entries).map Filing.event } := by
  induction registered with
  | done => simp [fileAll, batchFilings]
  | @next params rest e paid finish taskIds escrowed room others ih =>
    obtain ⟨balances, rfl⟩ := detached escrowed
    obtain ⟨numbers, counter, same⟩ := ih
    simp only [Env.emit_taskCounter, Env.saveTask_taskCounter, Env.countTask_taskCounter,
      Option.getD_some] at numbers counter
    refine ⟨?_, ?_, ?_⟩
    · rw [numbers, List.length_cons, List.range'_succ]
    · rw [counter, List.length_cons]
      omega
    · -- The entries after the first are stored on top of it, and announced after it.
      rw [same]
      simp [fileAll, batchFilings, Filing.event]

/-- Every successful call treats the table of tasks in one of the listed ways. -/
theorem Effect.taskWrite (detached : Detached token) (formed : WellFormed e)
    (effect : Effect token inv e call value e') : TaskWrite e e' call value := by
  cases effect with
  | initializeRegistry absent => exact absurd absent formed.ready
  | @registerTask owner params paid _ valid _ escrowed =>
    obtain ⟨balances, rfl⟩ := detached escrowed
    refine .filed rfl ?_ rfl ?_ (by simp [fileAll, Call.filings]) (by simp [Call.requested])
    · intro filing member
      obtain rfl := List.mem_singleton.mp member
      exact valid
    · simp [Call.taskIds, Call.requested]
  | @batchRegisterTasks owner tasks _ taskIds _ _ _ _ _ valid _ _ _ registered =>
    obtain ⟨numbers, counter, same⟩ := registered.outcome detached
    have length : taskIds.length = tasks.length := by rw [numbers, List.length_range']
    refine .filed rfl ?_ ?_ numbers (by rw [same]; rfl) counter
    · intro filing member
      obtain ⟨entry, listed, rfl⟩ := List.mem_map.mp member
      exact valid _ (List.of_mem_zip listed).2
    · simp only [Call.filings, batchFilings, Call.taskIds, List.map_map]
      exact List.map_fst_zip length.le
  | increaseReward _ positive found owned unfinished _ escrowed =>
    obtain ⟨balances, rfl⟩ := detached escrowed
    exact .rewritten rfl rfl found (.toppedUp owned unfinished positive) (by simp) (by simp)
  | extendDeadline _ found owned unfinished later =>
    exact .rewritten rfl rfl found (.extended owned unfinished later) (by simp) (by simp)
  | updateVerifier _ found owned unclaimed =>
    exact .rewritten rfl rfl found (.reverified owned unclaimed) (by simp) (by simp)
  | claimTask _ _ found ahead claimable =>
    exact .rewritten rfl rfl found (.claimed ahead claimable) (by simp) (by simp)
  | executeTaskHeld _ _ found claimed claimer ahead
  | executeTaskPaid _ _ found claimed claimer ahead =>
    exact .rewritten rfl rfl found (.executed claimed claimer ahead) (by simp) (by simp)
  | cancelTask _ found owned unfinished unlocked _ refund =>
    obtain ⟨balances, rfl⟩ := detached refund
    exact .rewritten rfl rfl found (.cancelled owned unfinished unlocked) (by simp) (by simp)
  | expireTask found unfinished passed _ refund =>
    obtain ⟨balances, rfl⟩ := detached refund
    exact .rewritten rfl rfl found (.expired unfinished passed) (by simp) (by simp)
  | _ =>
    try obtain ⟨balances, rfl⟩ := detached ‹_›
    exact .untouched rfl rfl (by simp) (by simp)

/-- A filing among others with ids of their own is what the table holds under its id. -/
theorem lookup_fileAll (tasks : Finmap fun _ : Nat => Task) (filings : List Filing)
    (distinct : (filings.map Filing.taskId).Nodup) (taskId : Nat) :
    (∀ filing ∈ filings, filing.taskId = taskId →
      (fileAll tasks filings).lookup taskId = some (newTask filing.owner filing.params)) ∧
    (taskId ∉ filings.map Filing.taskId →
      (fileAll tasks filings).lookup taskId = tasks.lookup taskId) := by
  induction filings generalizing tasks with
  | nil => simp [fileAll]
  | cons first rest ih =>
    obtain ⟨absent, others⟩ := List.nodup_cons.mp distinct
    have later := ih (tasks.insert first.taskId (newTask first.owner first.params)) others
    refine ⟨?_, ?_⟩
    · intro filing member same
      rcases List.mem_cons.mp member with rfl | old
      · -- Nothing after the first filing is stored under its id again.
        subst same
        refine (later.2 absent).trans ?_
        rw [Finmap.lookup_insert]
      · exact later.1 filing old same
    · intro missing
      rw [List.map_cons, List.mem_cons, not_or] at missing
      refine (later.2 missing.2).trans ?_
      rw [Finmap.lookup_insert_of_ne _ missing.1]

theorem total_fileAll (weight : Task → Int) (weightless : ∀ owner params,
      weight (newTask owner params) = 0) (tasks : Finmap fun _ : Nat => Task)
    (filings : List Filing) (fresh : ∀ filing ∈ filings, tasks.weightAt weight filing.taskId = 0) :
    (fileAll tasks filings).total weight = tasks.total weight := by
  induction filings generalizing tasks with
  | nil => rfl
  | cons first rest ih =>
    obtain ⟨here, later⟩ := List.forall_mem_cons.mp fresh
    refine (ih _ fun filing member => ?_).trans ?_
    · rw [Finmap.weightAt_insert, weightless]
      split
      · rfl
      · exact later filing member
    · rw [Finmap.total_insert, here, weightless]
      omega

end KeeperNetwork
