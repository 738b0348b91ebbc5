import KeeperNetwork.Proofs.TaskWrites
import KeeperNetwork.Registry.Views

/-! Stored tasks are well formed, numbered without gaps, and still what was registered. -/

namespace KeeperNetwork

open Soroban

def Call.verifierSet (taskId : Nat) : Call → Option (Option Address)
  | .updateVerifier _ about newVerifier => if about = taskId then some newVerifier else none
  | _ => none

namespace Entry

def taskIds : Entry → List Nat
  | .call receipt => receipt.call.taskIds receipt.value
  | .outside _ => []

/-- The tasks that an entry of the history registered. -/
def filings : Entry → List Filing
  | .call receipt => receipt.call.filings receipt.value
  | .outside _ => []

def verifierSet (taskId : Nat) : Entry → Option (Option Address)
  | .call receipt => receipt.call.verifierSet taskId
  | .outside _ => none

end Entry

/-- The ids that the registry gave out, oldest first. -/
def idsReturned (history : List Entry) : List Nat :=
  history.foldr (fun entry earlier => earlier ++ entry.taskIds) []

/-- The verifier that was set last, if any was. -/
def lastVerifier (taskId : Nat) (history : List Entry) : Option (Option Address) :=
  history.findSome? (Entry.verifierSet taskId)

/-- What a stored task still has in common with its registration. -/
structure AsFiled (history : List Entry) (filing : Filing) (task : Task) : Prop where
  owner : task.owner = filing.owner
  taskType : task.taskType = filing.params.taskType
  calldata : task.calldata = filing.params.calldata
  ttlLedgers : task.ttlLedgers = filing.params.ttlLedgers
  lockLedgers : task.lockLedgers = filing.params.lockLedgers
  condition : task.condition = filing.params.condition
  /-- The deadline only ever moves back. -/
  deadline : filing.params.deadline ≤ task.deadline
  /-- The reward only ever grows. -/
  reward : filing.params.reward ≤ task.reward
  verifier : task.verifier = (lastVerifier filing.taskId history).getD filing.params.verifier

/-- What holds of every stored task. -/
structure TaskRecord (history : List Entry) (taskId : Nat) (task : Task) : Prop where
  positive : 0 < task.reward
  lock : minLockLedgers ≤ task.lockLedgers ∧ task.lockLedgers ≤ maxLockLedgers
  /-- Nobody has claimed a pending task yet. -/
  unclaimed : task.status = .pending → task.claimer = none ∧ task.claimLedger = none
  /-- A claimed or executed task names its claimer and the ledger of the claim. -/
  claimed : task.status = .claimed ∨ task.status = .executed →
    (∃ keeper, task.claimer = some keeper) ∧ ∃ ledger, task.claimLedger = some ledger
  /-- The task was registered under its id. -/
  filed : ∃ filing, filing ∈ history.flatMap Entry.filings ∧ filing.taskId = taskId ∧
    AsFiled history filing task

/-- What holds of the table of tasks. -/
structure TaskTable (e : Env) : Prop where
  /-- Tasks are stored under the ids up to the counter. -/
  stored : ∀ taskId, (∃ task, e.tasks.lookup taskId = some task) ↔
    1 ≤ taskId ∧ taskId ≤ e.taskCounter.getD 0
  /-- Ids were returned one after the other. -/
  returned : idsReturned e.history = List.range' 1 (e.taskCounter.getD 0)
  /-- No verifier was ever set for a task that does not exist yet. -/
  verifiers : ∀ taskId, e.taskCounter.getD 0 < taskId → lastVerifier taskId e.history = none
  records : ∀ taskId task, e.tasks.lookup taskId = some task → TaskRecord e.history taskId task

variable {token : Token} {inv : Invocation} {start e e' : Env} {call : Call} {value : Value}
  {history : List Entry} {entry : Entry} {taskId : Nat} {task task' : Task}

theorem Call.verifierSet_of_subject (other : call.subject ≠ some taskId) :
    call.verifierSet taskId = none := by
  cases call with
  | updateVerifier owner about newVerifier =>
    exact if_neg fun same => other (congrArg some same)
  | _ => rfl

theorem TaskRecord.later (record : TaskRecord history taskId task)
    (silent : entry.verifierSet taskId = none) : TaskRecord (entry :: history) taskId task := by
  obtain ⟨filing, listed, named, filed⟩ := record.filed
  refine { record with filed := ⟨filing, ?_, named, { filed with verifier := ?_ }⟩ }
  · exact List.mem_flatMap.mpr ((List.mem_flatMap.mp listed).imp fun _ found =>
      ⟨List.mem_cons_of_mem _ found.1, found.2⟩)
  · -- The last verifier set is the one that was set before.
    rw [lastVerifier, named, List.findSome?_cons, silent]
    exact named ▸ filed.verifier

/-- A rewritten task still agrees with the history of its calls. -/
theorem TaskRecord.rewritten (record : TaskRecord e.history taskId task)
    (rewrite : Rewrite e taskId task call task') (receipt : Receipt)
    (about : receipt.call = call) : TaskRecord (.call receipt :: e.history) taskId task' := by
  subst about
  by_cases silent : receipt.call.verifierSet taskId = none
  · -- Every rewrite but one of the verifier only adds to what was filed.
    have kept : TaskRecord (.call receipt :: e.history) taskId task := record.later silent
    obtain ⟨filing, listed, named, filed⟩ := kept.filed
    generalize receipt.call = call at rewrite silent
    cases rewrite with
    | toppedUp _ _ positive =>
      refine { kept with
        positive := ?_
        filed := ⟨filing, listed, named, { filed with reward := ?_ }⟩ }
      · exact Int.add_pos kept.positive positive
      · exact filed.reward.trans (le_add_of_nonneg_right positive.le)
    | extended _ _ later =>
      exact { kept with
        filed := ⟨filing, listed, named, { filed with deadline := filed.deadline.trans later.le }⟩ }
    | reverified => simp [Call.verifierSet] at silent
    | claimed =>
      exact
        { positive := kept.positive
          lock := kept.lock
          unclaimed := fun pending => nomatch pending
          claimed := fun _ => ⟨⟨_, rfl⟩, _, rfl⟩
          filed := ⟨filing, listed, named, { filed with }⟩ }
    | executed claimed =>
      exact
        { positive := kept.positive
          lock := kept.lock
          unclaimed := fun pending => nomatch pending
          claimed := fun _ => kept.claimed (.inl claimed)
          filed := ⟨filing, listed, named, { filed with }⟩ }
    | cancelled | expired =>
      exact
        { positive := kept.positive
          lock := kept.lock
          unclaimed := fun pending => nomatch pending
          claimed := fun held => by simp at held
          filed := ⟨filing, listed, named, { filed with }⟩ }
  · -- The verifier is replaced by the one the call sets, which is now the last one set.
    obtain ⟨filing, listed, named, filed⟩ := record.filed
    have present : filing ∈ (.call receipt :: e.history).flatMap Entry.filings :=
      List.mem_flatMap.mpr ((List.mem_flatMap.mp listed).imp fun _ found =>
        ⟨List.mem_cons_of_mem _ found.1, found.2⟩)
    have set : lastVerifier taskId (.call receipt :: e.history) =
        receipt.call.verifierSet taskId := by
      obtain ⟨verifier, sets⟩ := Option.ne_none_iff_exists'.mp silent
      rw [lastVerifier, List.findSome?_cons, Entry.verifierSet, sets]
    generalize receipt.call = call at rewrite silent set
    cases rewrite with
    | reverified =>
      refine { record with filed := ⟨filing, present, named, { filed with verifier := ?_ }⟩ }
      rw [named, set]
      simp [Call.verifierSet]
    | _ => simp [Call.verifierSet] at silent

theorem Filing.record {filing : Filing} (valid : ValidParams e filing.params)
    (listed : filing ∈ history.flatMap Entry.filings)
    (unset : lastVerifier filing.taskId history = none) :
    TaskRecord history filing.taskId (newTask filing.owner filing.params) where
  positive := valid.positive
  lock := valid.lock
  unclaimed _ := ⟨rfl, rfl⟩
  claimed held := by simp [newTask] at held
  filed := by
    refine ⟨filing, listed, rfl, ?_⟩
    constructor
    any_goals first | rfl | exact le_rfl
    rw [unset]
    rfl

theorem idsReturned_call (receipt : Receipt) (history : List Entry) :
    idsReturned (.call receipt :: history) =
      idsReturned history ++ receipt.call.taskIds receipt.value := rfl

/-- A call keeps the table of tasks in step with the history. -/
theorem Effect.taskTable (detached : Detached token) (formed : WellFormed e)
    (effect : Effect token inv e call value e') (history : e'.history = e.history)
    (table : TaskTable e) : TaskTable (e'.record e call value) := by
  set receipt : Receipt := ⟨e, call, value, e'⟩ with recorded
  have after : (e'.record e call value).history = .call receipt :: e.history := by
    rw [Env.record_history, history]
  -- The last verifier of a task is untouched by a call about something else.
  have unset : ∀ taskId, call.subject ≠ some taskId → lastVerifier taskId e.history = none →
      lastVerifier taskId (.call receipt :: e.history) = none := by
    intro taskId other none
    rw [lastVerifier, List.findSome?_cons, Entry.verifierSet, Call.verifierSet_of_subject other]
    exact none
  have untouched : ∀ taskId task, call.subject ≠ some taskId →
      e.tasks.lookup taskId = some task → TaskRecord (.call receipt :: e.history) taskId task :=
    fun taskId task other found =>
      (table.records taskId task found).later (Call.verifierSet_of_subject other)
  cases effect.taskWrite detached formed with
  | untouched unrequested about tasks counter =>
    obtain ⟨ids, -⟩ := Call.taskIds_of_unrequested effect unrequested
    refine ⟨?_, ?_, ?_, ?_⟩
    · simpa [tasks, counter] using table.stored
    · rw [after, idsReturned_call, ids, List.append_nil, table.returned]
      simp [counter]
    · rw [after]
      intro taskId above
      exact unset taskId (by simp [about]) (table.verifiers taskId (by simpa [counter] using above))
    · rw [after]
      intro taskId task found
      exact untouched taskId task (by simp [about]) (by simpa [tasks] using found)
  | @rewritten taskId task task' unrequested about found rewrite tasks counter =>
    obtain ⟨ids, -⟩ := Call.taskIds_of_unrequested effect unrequested
    have allocated := (table.stored taskId).mp ⟨task, found⟩
    refine ⟨?_, ?_, ?_, ?_⟩
    · intro other
      rw [Env.record_toWorld, counter, ← table.stored other, tasks, Finmap.lookup_insert_eq]
      split
      · next same => exact iff_of_true ⟨_, rfl⟩ ⟨task, same ▸ found⟩
      · rfl
    · rw [after, idsReturned_call, ids, List.append_nil, table.returned]
      simp [counter]
    · rw [after]
      intro other above
      have apart : other ≠ taskId := by
        rintro rfl
        simp only [Env.record_toWorld, counter] at above
        omega
      exact unset other (by simpa [about] using apart.symm)
        (table.verifiers other (by simpa [counter] using above))
    · rw [after]
      intro other stored present
      rw [Env.record_toWorld, tasks, Finmap.lookup_insert_eq] at present
      split at present
      · next same =>
        cases present
        subst same
        exact (table.records _ task found).rewritten rewrite receipt rfl
      · next apart => exact untouched other stored (by simpa [about] using Ne.symm apart) present
  | filed about valid numbered consecutive tasks counter =>
    -- The new ids start right after the counter, so they are distinct and none of them is taken.
    have above : ∀ taskId, taskId ∈ (call.filings value).map Filing.taskId ↔
        e.taskCounter.getD 0 < taskId ∧ taskId ≤ e.taskCounter.getD 0 + call.requested := by
      intro taskId
      rw [numbered, consecutive, List.mem_range'_1]
      omega
    have distinct : ((call.filings value).map Filing.taskId).Nodup := by
      rw [numbered, consecutive]
      exact List.nodup_range'
    have looked := fun taskId => lookup_fileAll e.tasks (call.filings value) distinct taskId
    refine ⟨?_, ?_, ?_, ?_⟩
    · intro taskId
      rw [Env.record_toWorld, counter, tasks]
      by_cases new : taskId ∈ (call.filings value).map Filing.taskId
      · obtain ⟨filing, listed, named⟩ := List.mem_map.mp new
        have within := (above taskId).mp new
        exact iff_of_true ⟨_, (looked taskId).1 filing listed named⟩ (by omega)
      · rw [(looked taskId).2 new, table.stored taskId]
        have outside := mt (above taskId).mpr new
        omega
    · rw [after, idsReturned_call, table.returned]
      rw [consecutive, Env.record_toWorld, counter, Nat.add_comm _ 1, List.range'_append_1]
    · rw [after]
      intro taskId beyond
      rw [Env.record_toWorld, counter] at beyond
      exact unset taskId (by simp [about]) (table.verifiers taskId (by omega))
    · rw [after]
      intro taskId task found
      rw [Env.record_toWorld, tasks] at found
      by_cases new : taskId ∈ (call.filings value).map Filing.taskId
      · obtain ⟨filing, listed, rfl⟩ := List.mem_map.mp new
        cases ((looked filing.taskId).1 filing listed rfl).symm.trans found
        have beyond := (above filing.taskId).mp new
        refine Filing.record (valid filing listed) ?_
          (unset filing.taskId (by simp [about]) (table.verifiers filing.taskId beyond.1))
        exact List.mem_flatMap.mpr ⟨.call receipt, List.mem_cons_self, listed⟩
      · rw [(looked taskId).2 new] at found
        exact untouched taskId task (by simp [about]) found

theorem DetachedRun.taskTable (fresh : Fresh start) (run : DetachedRun start e) : TaskTable e := by
  refine DetachedRun.invariant TaskTable
    (fun detached formed effect history table => effect.taskTable detached formed history table)
    (fun e sequence timestamp table => ⟨table.stored, table.returned, table.verifiers,
      table.records⟩)
    (fun e balances amount table => ⟨table.stored, (List.append_nil _).trans table.returned,
      table.verifiers, fun taskId task found => (table.records taskId task found).later rfl⟩)
    fresh ?_ run
  -- A fresh registry has no tasks and has returned no id.
  obtain ⟨_, _, _, initialized⟩ := fresh.initialized
  have none := fresh.unused.1.tasks
  refine ⟨?_, ?_, ?_, ?_⟩
  · intro taskId
    simp [none, initialized.taskCounter]
    omega
  · simp [fresh.history, initialized.taskCounter, idsReturned]
  · simp [fresh.history, lastVerifier]
  · simp [none]

theorem Effect.consecutive (detached : Detached token) (formed : WellFormed e)
    (effect : Effect token inv e call value e') :
    call.taskIds value = List.range' (e.taskCounter.getD 0 + 1) call.requested := by
  cases effect.taskWrite detached formed with
  | untouched unrequested | rewritten unrequested =>
    rw [(Call.taskIds_of_unrequested effect unrequested).1, unrequested]
    rfl
  | filed _ _ _ consecutive => exact consecutive

theorem TaskWrite.condition (write : TaskWrite e e' call value) (table : TaskTable e)
    (found : e.tasks.lookup taskId = some task) :
    ∃ task', e'.tasks.lookup taskId = some task' ∧ task'.condition = task.condition := by
  cases write with
  | untouched _ _ tasks => exact ⟨task, tasks ▸ found, rfl⟩
  | @rewritten written old new _ _ stored rewrite tasks =>
    rw [tasks, Finmap.lookup_insert_eq]
    split
    · next here =>
      subst here
      obtain rfl : old = task := Option.some.inj (stored.symm.trans found)
      exact ⟨new, rfl, by cases rewrite <;> rfl⟩
    · exact ⟨task, found, rfl⟩
  | filed _ _ numbered consecutive tasks =>
    -- New tasks are filed under ids that are still free.
    have known : taskId ≤ e.taskCounter.getD 0 := ((table.stored taskId).mp ⟨task, found⟩).2
    have other : taskId ∉ (call.filings value).map Filing.taskId := by
      rw [numbered, consecutive]
      simp only [List.mem_range'_1, not_and]
      omega
    have distinct : ((call.filings value).map Filing.taskId).Nodup := by
      rw [numbered, consecutive]
      exact List.nodup_range'
    rw [tasks, (lookup_fileAll e.tasks _ distinct taskId).2 other]
    exact ⟨task, found, rfl⟩

theorem DetachedRun.condition (fresh : Fresh start) (run : DetachedRun start e)
    (later : DetachedRun e e') (found : e.tasks.lookup taskId = some task) :
    ∃ task', e'.tasks.lookup taskId = some task' ∧ task'.condition = task.condition := by
  induction later with
  | refl => exact ⟨task, found, rfl⟩
  | tail between last ih =>
    obtain ⟨middle, stored, same⟩ := ih
    have reached := run.trans between
    cases Step.happens last with
    | called detached _ _ effect =>
      obtain ⟨task', stored', kept⟩ :=
        (effect.taskWrite detached (DetachedRun.wellFormed fresh reached)).condition
          (DetachedRun.taskTable fresh reached) stored
      exact ⟨task', stored', kept.trans same⟩
    | failed | closed | received => exact ⟨middle, stored, same⟩

theorem TaskTable.lockExpired_eq (table : TaskTable e) (found : e.tasks.lookup taskId = some task)
    (status : task.status = .claimed) :
    ∃ claimedAt, task.claimLedger = some claimedAt ∧ lockExpired e task =
      decide (saturatingAdd u32Max claimedAt task.lockLedgers ≤ e.sequence) := by
  obtain ⟨-, claimedAt, ledger⟩ := (table.records taskId task found).claimed (.inl status)
  exact ⟨claimedAt, ledger, by simp [lockExpired, ledger]⟩

/--
The registry's tasks are well formed.

They are stored under exactly the ids up to the counter. Registrations return the next ids in
order, and never one twice. Every stored task is what was registered under its id, up to a larger
reward, a later deadline and the verifier last set while it was pending. A claimed one has a claim
ledger, so its lock is always measured from there, also where it is offered for a claim.
-/
theorem tasks_wellFormed (fresh : Fresh start) (run : DetachedRun start e) :
    (∀ taskId, (∃ task, e.tasks.lookup taskId = some task) ↔
      1 ≤ taskId ∧ taskId ≤ e.taskCounter.getD 0) ∧
    (∀ receipt, .call receipt ∈ e.history → receipt.call.taskIds receipt.value =
      List.range' (receipt.before.taskCounter.getD 0 + 1) receipt.call.requested) ∧
    (idsReturned e.history).Nodup ∧
    (∀ taskId task, e.tasks.lookup taskId = some task → TaskRecord e.history taskId task) ∧
    (∀ taskId task, e.tasks.lookup taskId = some task → task.status = .claimed →
      ∃ claimedAt, task.claimLedger = some claimedAt ∧ lockExpired e task =
        decide (saturatingAdd u32Max claimedAt task.lockLedgers ≤ e.sequence)) ∧
    (∀ inv taskId, isClaimable inv e taskId = true ↔
      ∃ task, e.tasks.lookup taskId = some task ∧ e.timestamp < task.deadline ∧
        ConditionMet inv taskId task ∧ (task.status = .pending ∨ task.status = .claimed ∧
          ∃ claimedAt, task.claimLedger = some claimedAt ∧
            saturatingAdd u32Max claimedAt task.lockLedgers ≤ e.sequence)) ∧
    ∀ receipt, .call receipt ∈ e.history → ∀ owner taskId newVerifier,
      receipt.call = .updateVerifier owner taskId newVerifier →
      ∃ task, receipt.before.tasks.lookup taskId = some task ∧ task.status = .pending := by
  have table := DetachedRun.taskTable fresh run
  refine ⟨table.stored, ?_, ?_, table.records, fun _ _ => table.lockExpired_eq,
    fun inv taskId => ?_, ?_⟩
  · exact DetachedRun.receipts (fun detached formed effect => effect.consecutive detached formed)
      fresh run
  · rw [table.returned]
    exact List.nodup_range'
  · unfold isClaimable ConditionMet
    cases found : e.tasks.lookup taskId with
    | none => simp
    | some task =>
      -- The condition decides once the deadline and the state of the task allow a claim.
      cases status : task.status with
      | pending => cases condition : task.condition <;> simp [status, condition]
      | claimed =>
        obtain ⟨claimedAt, ledger, expired⟩ := table.lockExpired_eq found status
        cases condition : task.condition <;>
          simp [status, ledger, expired, condition, and_comm]
      | _ => simp [status]
  · refine DetachedRun.receipts (fun _ _ effect owner taskId newVerifier sets => ?_) fresh run
    cases effect with
    | updateVerifier _ found _ unclaimed =>
      cases sets
      exact ⟨_, found, unclaimed⟩
    | _ => cases sets

/-- A registry at a time when one owner holds all the tokens. -/
def beforeRecords : Env :=
  genesis ⟨0⟩ ⟨1⟩ ⟨2⟩ 100 (heldBy ⟨3⟩ 200 (by decide) (by decide)) 0 0

/-- Three tasks are registered, and the first one gets a verifier and a claimer. -/
def recordsScript : List Turn :=
  [.call [⟨3⟩] (.registerTask ⟨3⟩ sampleParams),
    .call [⟨3⟩] (.batchRegisterTasks ⟨3⟩ [sampleParams, sampleParams] 100),
    .call [⟨3⟩] (.updateVerifier ⟨3⟩ 1 (some ⟨5⟩)), .call [⟨4⟩] (.claimTask ⟨4⟩ 1)]

/-- After the script three ids were returned, and the claimed task has its new verifier. -/
theorem tasks_wellFormed_claimed :
    idsReturned (play beforeRecords recordsScript).history = [1, 2, 3] ∧
      (idsReturned (play beforeRecords recordsScript).history).Nodup ∧
      ∃ task, (play beforeRecords recordsScript).tasks.lookup 1 = some task ∧
        task.verifier = some ⟨5⟩ ∧
        TaskRecord (play beforeRecords recordsScript).history 1 task := by
  have fresh : Fresh beforeRecords := genesis_fresh (by decide)
  have run : ExactRun beforeRecords (play beforeRecords recordsScript) := Playable.run (by decide)
  obtain ⟨-, -, distinct, records, -⟩ := tasks_wellFormed fresh run.detached
  exact ⟨by decide, distinct, _, rfl, rfl, records 1 _ rfl⟩

end KeeperNetwork
