import KeeperNetwork.Proofs.TaskMove

/-! Whether the storage entry of a task outlives the escrow it records. -/

namespace KeeperNetwork

open Soroban

/-- The lifetime that lasts until a deadline and a safety margin beyond it, at five seconds each. -/
def lastingLedgers (w : World) (deadline : Nat) : Nat :=
  -- The last ledger before the deadline may be a whole ledger away, however few seconds are left.
  (deadline - w.timestamp + (secondsPerLedger - 1)) / secondsPerLedger + ttlSafetyMarginLedgers

/-- The call leaves no task with a deadline that its storage lifetime does not reach. -/
def Call.LastsLongEnough (w : World) : Call → Prop
  | .registerTask _ params => lastingLedgers w params.deadline ≤ params.ttlLedgers
  | .batchRegisterTasks _ tasks _ =>
    ∀ params ∈ tasks, lastingLedgers w params.deadline ≤ params.ttlLedgers
  | .extendDeadline _ taskId newDeadline => ∀ task, w.tasks.lookup taskId = some task →
    lastingLedgers w newDeadline ≤ task.ttlLedgers
  | _ => True

/-- A step in which a ledger that closes takes at least its five seconds. -/
def PacedStep (e e' : Env) : Prop :=
  ExactStep e e' ∧ (e'.sequence = e.sequence ∨ e.timestamp + secondsPerLedger ≤ e'.timestamp)

/-- The ways a successful call can leave the entry of a task. -/
inductive LifeMove (e e' : Env) (call : Call) (taskId : Nat) (task : Task) : Prop where
  /-- The deadline was there before, and the entry lives no shorter. -/
  | kept {before : Task} (found : e.tasks.lookup taskId = some before)
      (deadline : task.deadline = before.deadline)
      (unfinished : task.status.isOpen = true → before.status.isOpen = true)
      (longer : ∀ live, e.liveUntil (.task taskId) = some live →
        ∃ live', e'.liveUntil (.task taskId) = some live' ∧ live ≤ live')
  /-- The deadline is new, and the entry was renewed for the lifetime of the task. -/
  | renewed {live : Nat}
      (enough : call.LastsLongEnough e →
        lastingLedgers e task.deadline ≤ task.ttlLedgers)
      (stored : e'.liveUntil (.task taskId) = some live)
      (long : e.sequence + task.ttlLedgers ≤ live)

variable {token : Token} {inv : Invocation} {start e e' : Env} {call : Call} {value : Value}
  {taskId : Nat} {task : Task}

theorem saveTask_renews (e : Env) (inv : Invocation) (taskId : Nat) (record : Task) :
    ∃ live, (e.saveTask inv taskId record).liveUntil (.task taskId) = some live ∧
      e.sequence + record.ttlLedgers ≤ live ∧
      ∀ before, e.liveUntil (.task taskId) = some before → before ≤ live := by
  -- The threshold of the renewal is the lifetime itself, so a shorter remainder is never left.
  refine ⟨extendTtl e.sequence record.ttlLedgers record.ttlLedgers
    ((e.liveUntil (.task taskId)).getD (e.sequence + inv.freshTtl)), by simp [Env.granted],
    lifetime_le_extendTtl _ _ _, fun before stored => ?_⟩
  simpa [stored] using le_extendTtl (le_refl record.ttlLedgers)

theorem saveTask_spares (e : Env) (inv : Invocation) {saved : Nat} (record : Task)
    (other : taskId ≠ saved) :
    (e.saveTask inv saved record).liveUntil (.task taskId) = e.liveUntil (.task taskId) := by
  simp [Env.granted, other]

theorem savePending_spares (e : Env) (inv : Invocation) (keeper : Address)
    (credits : List PendingCredit) (taskId : Nat) :
    (e.savePending inv keeper credits).liveUntil (.task taskId) = e.liveUntil (.task taskId) := by
  rw [Env.savePending_liveUntil]
  split <;> simp [Env.granted]

theorem finalized_spares (e : Env) (inv : Invocation) (keeper : Address)
    (ready held : List PendingCredit) (taskId : Nat) :
    (e.finalized inv keeper ready held).liveUntil (.task taskId) = e.liveUntil (.task taskId) := by
  rw [Env.finalized_liveUntil]
  split
  · rfl
  · rw [savePending_spares, Env.credited_liveUntil]
    split <;> simp [Env.granted]

theorem drawUnbond_spares (e : Env) (inv : Invocation) (keeper : Address)
    (request : UnbondRequest) (amount : Int) (taskId : Nat) :
    (e.drawUnbond inv keeper request amount).liveUntil (.task taskId) =
      e.liveUntil (.task taskId) := by
  rw [Env.drawUnbond_liveUntil]
  split <;> simp [Env.granted]

namespace LifeMove

theorem of_same (tasks : e'.tasks.lookup taskId = e.tasks.lookup taskId)
    (lives : e'.liveUntil (.task taskId) = e.liveUntil (.task taskId))
    (found : e'.tasks.lookup taskId = some task) : LifeMove e e' call taskId task :=
  .kept (tasks.symm.trans found) rfl id fun live stored => ⟨live, lives.trans stored, le_rfl⟩

theorem of_save (inv : Invocation) {written : Env} (saved : Nat) (record : Task)
    (lives : ∀ key, e'.liveUntil key = (written.saveTask inv saved record).liveUntil key)
    (tasks : e'.tasks = e.tasks.insert saved record) (now : written.sequence = e.sequence)
    (spared : ∀ id, written.liveUntil (.task id) = e.liveUntil (.task id))
    (cause : (∃ before, e.tasks.lookup saved = some before ∧ record.deadline = before.deadline ∧
        (record.status.isOpen = true → before.status.isOpen = true)) ∨
      (call.LastsLongEnough e →
        lastingLedgers e record.deadline ≤ record.ttlLedgers))
    (found : e'.tasks.lookup taskId = some task) : LifeMove e e' call taskId task := by
  by_cases same : taskId = saved
  · subst same
    obtain rfl : record = task := by simpa [tasks] using found
    obtain ⟨live, stored, long, longer⟩ := saveTask_renews written inv taskId record
    rw [← lives] at stored
    rw [now] at long
    rw [spared] at longer
    rcases cause with ⟨before, read, deadline, unfinished⟩ | enough
    · exact .kept read deadline unfinished fun old lived => ⟨live, stored, longer old lived⟩
    · exact .renewed enough stored long
  · exact of_same (by rw [tasks, Finmap.lookup_insert_of_ne _ same])
      (by rw [lives, saveTask_spares written inv record same, spared]) found

end LifeMove

theorem Registered.lives {owner : Address} {entries : List BatchTaskParams}
    {taskIds : List Nat} (exact : ExactToken token)
    (registered : Registered token inv owner entries e taskIds e') (taskId : Nat) :
    (e'.tasks.lookup taskId = e.tasks.lookup taskId ∧
      e'.liveUntil (.task taskId) = e.liveUntil (.task taskId)) ∨
    ∃ params ∈ entries, e'.tasks.lookup taskId = some (newTask owner params) ∧
      ∃ live, e'.liveUntil (.task taskId) = some live ∧ e.sequence + params.ttlLedgers ≤ live := by
  induction registered with
  | done => exact .inl ⟨rfl, rfl⟩
  | @next params rest e paid finish taskIds escrowed room others ih =>
    obtain ⟨balances, -, rfl⟩ := exact.moves escrowed
    rcases ih with ⟨same, lives⟩ | ⟨other, member, stored, live, lives, long⟩
    · -- The rest of the batch is about other tasks, so only the first entry can be about this one.
      by_cases first : taskId = e.taskCounter.getD 0 + 1
      · obtain ⟨live, renewed, long, -⟩ := saveTask_renews { e with balances }.countTask inv taskId
          (newTask owner params)
        refine .inr ⟨params, List.mem_cons_self,
          same.trans (by simp [Finmap.lookup_insert_eq, first]), live,
          lives.trans (Eq.trans ?_ renewed), long⟩
        simp [Env.granted, first]
      · refine .inl ⟨same.trans (by simp [first]), lives.trans ?_⟩
        simp [Env.granted, first]
    · exact .inr ⟨other, List.mem_cons_of_mem _ member, stored, live, lives, by simpa using long⟩

/-- How a call changes the lifetime of a task that is stored afterwards. -/
theorem Effect.lifeMove (exact : ExactToken token) (effect : Effect token inv e call value e')
    (found : e'.tasks.lookup taskId = some task) : LifeMove e e' call taskId task := by
  cases effect with
  | @registerTask owner params paid _ _ _ escrowed =>
    obtain ⟨balances, -, rfl⟩ := exact.moves escrowed
    exact .of_save inv (e.taskCounter.getD 0 + 1) (newTask owner params) (Env.emit_liveUntil _ _)
      (by simp) rfl (fun _ => rfl) (.inr id) found
  | @batchRegisterTasks owner entries _ _ _ _ _ _ _ _ _ _ _ registered =>
    rcases registered.lives exact taskId with
      ⟨same, lives⟩ | ⟨params, member, stored, live, lives, long⟩
    · exact .of_same same lives found
    · cases found.symm.trans stored
      exact .renewed (fun enough => enough params member) lives long
  | @increaseReward _ saved additional before _ _ _ stored _ _ _ escrowed =>
    obtain ⟨balances, -, rfl⟩ := exact.moves escrowed
    exact .of_save inv saved { before with reward := before.reward + additional }
      (Env.emit_liveUntil _ _) (by simp) rfl (fun _ => rfl) (.inl ⟨before, stored, rfl, id⟩) found
  | @extendDeadline _ saved newDeadline before _ stored =>
    exact .of_save inv saved { before with deadline := newDeadline } (Env.emit_liveUntil _ _)
      (by simp) rfl (fun _ => rfl) (.inr fun enough => enough before stored) found
  | @updateVerifier _ saved newVerifier before _ stored =>
    exact .of_save inv saved { before with verifier := newVerifier } (Env.emit_liveUntil _ _)
      (by simp) rfl (fun _ => rfl) (.inl ⟨before, stored, rfl, id⟩) found
  | @claimTask keeper saved before missed _ _ stored _ claimable =>
    refine .of_save inv saved { before with
        status := .claimed, claimer := some keeper, claimLedger := some e.sequence }
      (Env.emit_liveUntil _ _) (by simp) rfl ?_ (.inl ⟨before, stored, rfl, fun _ => ?_⟩) found
    · cases missed <;> simp [Env.granted]
    · rcases claimable with ⟨status, -⟩ | ⟨status, -⟩ <;> simp [status, TaskStatus.isOpen]
  | @executeTaskHeld _ saved _ before _ _ _ _ stored claimed
  | @executeTaskPaid _ saved _ before _ _ _ _ stored claimed =>
    refine .of_save inv saved { before with status := .executed } (Env.emit_liveUntil _ _)
      (by simp) (by simp) ?_ (.inl ⟨before, stored, rfl, by simp [TaskStatus.isOpen]⟩) found
    simp [Env.granted]
  | @cancelTask _ saved before _ _ stored _ _ _ _ refund =>
    obtain ⟨balances, -, rfl⟩ := exact.moves refund
    exact .of_save inv saved { before with status := .cancelled } (Env.emit_liveUntil _ _)
      (by simp) rfl (fun _ => rfl) (.inl ⟨before, stored, rfl, by simp [TaskStatus.isOpen]⟩) found
  | @expireTask saved before _ stored _ _ _ refund =>
    obtain ⟨balances, -, rfl⟩ := exact.moves refund
    exact .of_save inv saved { before with status := .expired } (Env.emit_liveUntil _ _)
      (by simp) rfl (fun _ => rfl) (.inl ⟨before, stored, rfl, by simp [TaskStatus.isOpen]⟩) found
  | @withdrawRewards keeper ready held _ _ _ _ _ _ _ _ _ moved =>
    obtain ⟨balances, -, rfl⟩ := exact.moves moved
    refine .of_same (by simp) (Eq.trans ?_ (finalized_spares e inv keeper ready held taskId)) found
    simp [Env.granted]
  | @slashUnbond _ keeper _ amount _ request _ _ _ _ _ _ _ _ _ _ moved =>
    obtain ⟨balances, -, rfl⟩ := exact.moves moved
    refine .of_same (by simp) (Eq.trans ?_ (drawUnbond_spares (e.bump.saveStake inv keeper 0) inv
      keeper request (amount - keeperStakeOf e keeper) taskId)) found
    simp [Env.granted]
  | disputeExecution | releaseDispute | upholdDispute =>
    exact .of_same (by simp) (savePending_spares e.bump inv _ _ taskId) found
  | _ =>
    try obtain ⟨balances, -, rfl⟩ := exact.moves ‹_›
    exact .of_same (by simp) (by simp [Env.granted]) found

/-- Every unsettled task whose deadline lies ahead has an entry that lasts beyond it. -/
def EntriesLast (e : Env) : Prop :=
  ∀ taskId task, e.tasks.lookup taskId = some task → task.status.isOpen = true →
    e.timestamp < task.deadline → ∃ live, e.liveUntil (.task taskId) = some live ∧
      e.sequence + lastingLedgers e task.deadline ≤ live

theorem Effect.entriesLast (exact : ExactToken token) (effect : Effect token inv e call value e')
    (enough : call.LastsLongEnough e) (last : EntriesLast e) : EntriesLast e' := by
  intro taskId task found unfinished ahead
  obtain ⟨sequence, timestamp⟩ := effect.clock exact
  have lasting : lastingLedgers e' task.deadline =
      lastingLedgers e task.deadline := by
    simp [lastingLedgers, timestamp]
  rw [sequence, lasting]
  rw [timestamp] at ahead
  cases effect.lifeMove exact found with
  | kept before deadline stillOpen longer =>
    obtain ⟨live, lived, long⟩ := last _ _ before (stillOpen unfinished) (deadline ▸ ahead)
    obtain ⟨live', stored, more⟩ := longer live lived
    exact ⟨live', stored, deadline ▸ long.trans more⟩
  | renewed covered stored long =>
    exact ⟨_, stored, (Nat.add_le_add_left (covered enough) _).trans long⟩

theorem PacedStep.entriesLast (step : PacedStep e e')
    (enough : ∀ receipt, .call receipt ∈ e'.history → receipt.call.LastsLongEnough receipt.before)
    (last : EntriesLast e) : EntriesLast e' := by
  obtain ⟨step, paced⟩ := step
  cases Step.happens step with
  | @called _ _ call value finish exact _ _ effect =>
    have lasting : call.LastsLongEnough e := enough _ Env.mem_record
    have kept : EntriesLast finish := effect.entriesLast exact lasting last
    exact kept
  | failed | received => exact last
  | closed timestamp =>
    -- The ledger that closed took five seconds off the way to the deadline.
    intro taskId task found unfinished ahead
    have took : e.timestamp + secondsPerLedger ≤ timestamp := by simpa using paced
    simp only [secondsPerLedger] at took ahead
    obtain ⟨live, lived, long⟩ := last taskId task found unfinished (by omega)
    refine ⟨live, lived, ?_⟩
    simp only [lastingLedgers, secondsPerLedger] at long ⊢
    omega

theorem entriesLast_of_run (fresh : Fresh start) (run : Relation.ReflTransGen PacedStep start e)
    (enough : ∀ receipt, .call receipt ∈ e.history → receipt.call.LastsLongEnough receipt.before) :
    EntriesLast e := by
  induction run with
  | refl =>
    intro taskId task found
    simp [fresh.unused.1.tasks] at found
  | @tail before after _ last ih =>
    exact last.entriesLast enough (ih fun receipt member =>
      enough receipt (ExactStep.history_keeps last.1 _ member))

/--
The storage entry of a task outlives the escrow it records.

As long as no call sets a deadline that the lifetime of its task does not reach, the entry of an
unsettled task is live, with the safety margin to spare, at the ledger that reaches the deadline.
-/
theorem task_storage_outlives_escrow (fresh : Fresh start)
    (run : Relation.ReflTransGen PacedStep start e)
    (enough : ∀ receipt, .call receipt ∈ e.history → receipt.call.LastsLongEnough receipt.before)
    (step : PacedStep e e') (found : e.tasks.lookup taskId = some task)
    (unfinished : task.status.isOpen = true) (ahead : e.timestamp < task.deadline)
    (reached : task.deadline ≤ e'.timestamp) :
    e'.tasks.lookup taskId = some task ∧ ∃ live, e'.liveUntil (.task taskId) = some live ∧
      e'.sequence + ttlSafetyMarginLedgers ≤ live := by
  obtain ⟨live, lived, long⟩ :=
    entriesLast_of_run fresh run enough taskId task found unfinished ahead
  -- Only a ledger that closes can move the clock past the deadline.
  cases Step.happens step.1 with
  | called exact _ _ effect =>
    have same := (effect.clock exact).2
    simp only [Env.record_toWorld] at reached
    omega
  | failed | received => exact absurd reached (Nat.not_le_of_lt ahead)
  | closed timestamp =>
    refine ⟨found, live, lived, ?_⟩
    simp only [lastingLedgers, secondsPerLedger] at long ⊢
    omega

/-- A registry that waits for its first task. -/
def beforeDeadline : Env :=
  genesis ⟨0⟩ ⟨1⟩ ⟨2⟩ 100 (hundredOf ⟨3⟩) 0 0

theorem beforeDeadline_fresh : Fresh beforeDeadline := genesis_fresh (by decide)

/-- A task is registered with a lifetime that reaches its deadline, which then moves far away. -/
def deadlineScript : List Turn :=
  [.call [⟨3⟩] (.registerTask ⟨3⟩ sampleParams),
    .call [⟨3⟩] (.extendDeadline ⟨3⟩ 1 200000)]

/-- A registry nobody calls for some ledgers, at five seconds each. -/
def Env.idle (e : Env) (ledgers : Nat) : Env :=
  { e with
    sequence := e.sequence + ledgers
    timestamp := e.timestamp + secondsPerLedger * ledgers }

theorem pacedStep_idle {ledgers : Nat} (counted : e.sequence + ledgers < u32Max)
    (fits : e.timestamp + secondsPerLedger * (ledgers + 1) ≤ u64Max) :
    PacedStep (e.idle ledgers) (e.idle (ledgers + 1)) := by
  have grown : e.timestamp + secondsPerLedger * ledgers + secondsPerLedger =
      e.timestamp + secondsPerLedger * (ledgers + 1) := by
    simp only [secondsPerLedger]
    omega
  exact ⟨.close _ (e.idle ledgers) counted (Nat.le_add_right _ _ |>.trans grown.le) fits,
    .inr grown.le⟩

theorem pacedRun_idle {ledgers : Nat} (counted : e.sequence + ledgers ≤ u32Max)
    (fits : e.timestamp + secondsPerLedger * ledgers ≤ u64Max) :
    Relation.ReflTransGen PacedStep e (e.idle ledgers) := by
  induction ledgers with
  | zero => exact .refl
  | succ ledgers ih =>
    simp only [secondsPerLedger] at fits ih
    exact .tail (ih (by omega) (by omega)) (pacedStep_idle counted fits)

theorem deadlineScript_registers :
    PacedStep beforeDeadline (play beforeDeadline (deadlineScript.take 1)) :=
  ⟨@Turn.Legal.step beforeDeadline (.call [⟨3⟩] (.registerTask ⟨3⟩ sampleParams)) (by decide),
    .inl (by decide)⟩

/-- The entry of the task lasts when its deadline stays where it was. -/
theorem task_storage_outlives_escrow_registered :
    ∃ live, ((play beforeDeadline (deadlineScript.take 1)).idle 20).liveUntil (.task 1) =
      some live ∧ 20 + 17280 ≤ live := by
  have waiting : Relation.ReflTransGen PacedStep (play beforeDeadline (deadlineScript.take 1))
      ((play beforeDeadline (deadlineScript.take 1)).idle 19) :=
    pacedRun_idle (by decide) (by decide)
  have recorded : ((play beforeDeadline (deadlineScript.take 1)).idle 19).history =
      [.call ⟨beforeDeadline, .registerTask ⟨3⟩ sampleParams, .id 1,
        (play beforeDeadline (deadlineScript.take 1))⟩] := rfl
  have stored : ((play beforeDeadline (deadlineScript.take 1)).idle 19).tasks.lookup 1 =
      some (newTask ⟨3⟩ sampleParams) := rfl
  refine (task_storage_outlives_escrow beforeDeadline_fresh
    (.head deadlineScript_registers waiting) (fun receipt member => ?_)
    (pacedStep_idle (by decide) (by decide)) stored (by decide) (by decide) (by decide)).2
  obtain rfl : receipt = _ := by simpa [recorded] using member
  have lasting : lastingLedgers beforeDeadline 100 ≤ 20000 := by decide
  exact lasting

/-- A deadline that is moved back can lie beyond the life of the entry that holds the escrow. -/
theorem extended_deadline_outlives_entry :
    ∃ start e e' : Env, ∃ task : Task, Fresh start ∧ Relation.ReflTransGen PacedStep start e ∧
      PacedStep e e' ∧ e.tasks.lookup 1 = some task ∧ task.status.isOpen = true ∧
      e.timestamp < task.deadline ∧ task.deadline ≤ e'.timestamp ∧
      ∃ live, e'.liveUntil (.task 1) = some live ∧ live < e'.sequence := by
  have extending : PacedStep (play beforeDeadline (deadlineScript.take 1))
      (play beforeDeadline deadlineScript) :=
    ⟨@Turn.Legal.step (play beforeDeadline (deadlineScript.take 1))
      (.call [⟨3⟩] (.extendDeadline ⟨3⟩ 1 200000)) (by decide), .inl (by decide)⟩
  -- Nobody calls until the last ledger before the deadline.
  have waiting : Relation.ReflTransGen PacedStep (play beforeDeadline deadlineScript)
      ((play beforeDeadline deadlineScript).idle 39999) :=
    pacedRun_idle (by decide) (by decide)
  refine ⟨beforeDeadline, _, (play beforeDeadline deadlineScript).idle 40000, _,
    beforeDeadline_fresh, .head deadlineScript_registers (.head extending waiting),
    pacedStep_idle (by decide) (by decide), rfl, by decide, by decide, by decide, 20000, by decide,
    by decide⟩

end KeeperNetwork
