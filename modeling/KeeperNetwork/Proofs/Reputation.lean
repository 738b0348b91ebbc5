import KeeperNetwork.Proofs.TaskRecords

/-! A keeper's reputation is what the table of tasks and the history of claims say about it. -/

namespace KeeperNetwork

open Soroban

def Task.claimedBy (keeper : Address) (task : Task) : Int :=
  if task.status = .claimed ∧ task.claimer = some keeper then 1 else 0

def Task.executedBy (keeper : Address) (task : Task) : Int :=
  if task.status = .executed ∧ task.claimer = some keeper then 1 else 0

/-- How many tasks a keeper has executed. -/
def executions (w : World) (keeper : Address) : Int := w.tasks.total (Task.executedBy keeper)

def Call.executes (keeper : Address) : Call → Int
  | .executeTask executor _ _ => if executor = keeper then 1 else 0
  | _ => 0

/-- One when a claim replaces the keeper as the claimer of a task. -/
def Call.displaces (w : World) (keeper : Address) : Call → Int
  | .claimTask _ taskId => (w.tasks.lookup taskId).elim 0 (Task.claimedBy keeper)
  | _ => 0

/-- The number of successful claims that replaced the keeper as a claimer. -/
def displacements (keeper : Address) (history : List Entry) : Int :=
  receiptTotal (fun receipt => receipt.call.displaces receipt.before keeper) history

/-- The score that two counts of tracked actions amount to. -/
def scoreOf (successes missedClaims : Nat) : Nat := successes * 10000 / (successes + missedClaims)

/-- The stored record of a keeper agrees with what happened, up to the limit of its counters. -/
structure Tracked (e : Env) (keeper : Address) : Prop where
  successes : ((keeperReputation e keeper).successes : Int) =
    min (executions e keeper) u64Max
  missed : ((keeperReputation e keeper).missedClaims : Int) =
    min (displacements keeper e.history) u64Max
  /-- The stored score is the one its counts amount to. -/
  score : (keeperReputation e keeper).recompute = keeperReputation e keeper

variable {token : Token} {inv : Invocation} {start e e' : Env} {call : Call} {value : Value}
  {keeper : Address} {taskId : Nat} {task task' : Task}

theorem TaskWrite.total (weight : Task → Int)
    (weightless : ∀ owner params, weight (newTask owner params) = 0) (formed : WellFormed e)
    (write : TaskWrite e e' call value) :
    (call.subject = none ∧ e'.tasks.total weight = e.tasks.total weight) ∨
    ∃ taskId task task', e.tasks.lookup taskId = some task ∧ Rewrite e taskId task call task' ∧
      e'.tasks.total weight = e.tasks.total weight - weight task + weight task' := by
  cases write with
  | untouched _ about tasks => exact .inl ⟨about, by rw [tasks]⟩
  | @rewritten taskId task task' _ _ found rewrite tasks =>
    refine .inr ⟨taskId, task, task', found, rewrite, ?_⟩
    rw [tasks, Finmap.total_insert, Finmap.weightAt_of_lookup _ found]
  | filed about _ numbered consecutive tasks =>
    refine .inl ⟨about, ?_⟩
    rw [tasks]
    refine total_fileAll weight weightless _ _ fun filing listed => ?_
    -- The id of a filing lies above the counter, where nothing is stored yet.
    have member : filing.taskId ∈ call.taskIds value :=
      numbered ▸ List.mem_map.mpr ⟨filing, listed, rfl⟩
    rw [consecutive, List.mem_range'_1] at member
    exact Finmap.weightAt_of_lookup_none _ (formed.absent (by omega))

theorem Effect.executions (detached : Detached token) (formed : WellFormed e)
    (effect : Effect token inv e call value e') (keeper : Address) :
    KeeperNetwork.executions e' keeper =
      KeeperNetwork.executions e keeper + call.executes keeper := by
  rcases (effect.taskWrite detached formed).total (Task.executedBy keeper)
    (fun _ _ => by simp [Task.executedBy, newTask]) formed with
    ⟨about, same⟩ | ⟨taskId, task, task', -, rewrite, total⟩
  · have none : call.executes keeper = 0 := by cases call <;> first | rfl | cases about
    rw [KeeperNetwork.executions, same, none, add_zero, KeeperNetwork.executions]
  · rw [KeeperNetwork.executions, total, KeeperNetwork.executions]
    -- Only an execution turns a task into an executed one, and none turns back.
    cases rewrite with
    | executed claimed claimer =>
      simp [Task.executedBy, Call.executes, claimed, claimer]
    | toppedUp _ unfinished | extended _ unfinished | cancelled _ unfinished
    | expired unfinished =>
      have open' : task.status ≠ .executed := by
        rintro done
        simp [done] at unfinished
      simp [Task.executedBy, Call.executes, open']
    | reverified _ unclaimed => simp [Task.executedBy, Call.executes, unclaimed]
    | claimed _ claimable =>
      have open' : task.status ≠ .executed := by
        rcases claimable with ⟨status, -⟩ | ⟨status, -⟩ <;> simp [status]
      simp [Task.executedBy, Call.executes, open']

/-- What a successful call writes into the reputation of a keeper. -/
inductive ReputationMove (e e' : Env) (call : Call) (keeper : Address) : Prop where
  | untouched (record : keeperReputation e' keeper = keeperReputation e keeper)
      (unexecuted : call.executes keeper = 0) (undisplaced : call.displaces e keeper = 0)
  | succeeded {taskId : Nat} {proof : Bytes} (called : call = .executeTask keeper taskId proof)
      (record : keeperReputation e' keeper =
        updatedRecord (keeperReputation e keeper) true e.sequence)
  | missed {other : Address} {taskId : Nat} {task : Task}
      (called : call = .claimTask other taskId) (found : e.tasks.lookup taskId = some task)
      (claimed : task.status = .claimed) (claimer : task.claimer = some keeper)
      (lapsed : lockExpired e task = true)
      (record : keeperReputation e' keeper =
        updatedRecord (keeperReputation e keeper) false e.sequence)

theorem keeperReputation_congr {w w' : World} (same : w'.reputation = w.reputation)
    (keeper : Address) : keeperReputation w' keeper = keeperReputation w keeper := by
  simp only [keeperReputation, storedRecord, same]

theorem keeperReputation_trackAction (e : Env) (inv : Invocation) (tracked keeper : Address)
    (success : Bool) :
    keeperReputation (e.trackAction inv tracked success) keeper =
      if keeper = tracked then updatedRecord (keeperReputation e keeper) success e.sequence
      else keeperReputation e keeper := by
  simp only [keeperReputation, storedRecord, Env.trackAction_reputation,
    Finmap.getD_lookup_insert]
  split
  · next same => rw [same]
  · rfl

/-- Every successful call treats the record of every keeper in one of the listed ways. -/
theorem Effect.reputationMove (detached : Detached token)
    (effect : Effect token inv e call value e') (keeper : Address) :
    ReputationMove e e' call keeper := by
  cases effect with
  | @executeTaskHeld executor taskId proof task | @executeTaskPaid executor taskId proof task =>
    have tracked := keeperReputation_trackAction e inv executor keeper true
    by_cases same : keeper = executor
    · subst same
      rw [if_pos rfl] at tracked
      exact .succeeded rfl ((keeperReputation_congr (by simp [storedRecord]) keeper).trans tracked)
    · rw [if_neg same] at tracked
      exact .untouched ((keeperReputation_congr (by simp [storedRecord]) keeper).trans tracked)
        (if_neg (Ne.symm same)) rfl
  | @claimTask other taskId task missed _ _ found _ claimable =>
    rcases claimable with ⟨pending, rfl⟩ | ⟨claimed, lapsed, rfl⟩
    · -- Nobody held the claim of a pending task.
      refine .untouched (keeperReputation_congr (by simp) keeper) rfl ?_
      simp [Call.displaces, found, Task.claimedBy, pending]
    · by_cases held : task.claimer = some keeper
      · have tracked := keeperReputation_trackAction e inv keeper keeper false
        rw [if_pos rfl] at tracked
        exact .missed rfl found claimed held lapsed
          ((keeperReputation_congr (by simp [held, storedRecord]) keeper).trans tracked)
      · refine .untouched ?_ rfl (by simp [Call.displaces, found, Task.claimedBy, held])
        cases claimer : task.claimer with
        | none => exact keeperReputation_congr (by simp) keeper
        | some displaced =>
          have apart : keeper ≠ displaced := by
            rintro rfl
            exact held claimer
          have tracked := keeperReputation_trackAction e inv displaced keeper false
          rw [if_neg apart] at tracked
          exact (keeperReputation_congr (by simp [storedRecord]) keeper).trans tracked
  | batchRegisterTasks _ _ _ _ _ _ _ _ registered =>
    obtain ⟨-, -, same⟩ := registered.outcome detached
    exact .untouched (keeperReputation_congr (by rw [same]; rfl) keeper) rfl rfl
  | _ =>
    try obtain ⟨balances, rfl⟩ := detached ‹_›
    exact .untouched (keeperReputation_congr (by simp) keeper) rfl rfl

theorem saturatingAdd_count {count : Nat} {actions : Int}
    (counted : (count : Int) = min actions u64Max) :
    (saturatingAdd u64Max count 1 : Int) = min (actions + 1) u64Max := by
  unfold saturatingAdd
  omega

theorem executions_nonneg (w : World) (keeper : Address) : 0 ≤ executions w keeper := by
  apply Finmap.total_nonneg
  intro taskId task _
  unfold Task.executedBy
  split <;> decide

theorem Task.claimedBy_nonneg (keeper : Address) (task : Task) : 0 ≤ task.claimedBy keeper := by
  unfold Task.claimedBy
  split <;> decide

theorem Call.displaces_nonneg (w : World) (keeper : Address) (call : Call) :
    0 ≤ call.displaces w keeper := by
  unfold Call.displaces
  split
  · cases w.tasks.lookup _ with
    | none => exact le_rfl
    | some task => exact task.claimedBy_nonneg keeper
  · exact le_rfl

/-- The number of claims that were taken over is not negative. -/
theorem displacements_nonneg (keeper : Address) (history : List Entry) :
    0 ≤ displacements keeper history :=
  receiptTotal_nonneg fun receipt _ => receipt.call.displaces_nonneg receipt.before keeper

theorem Effect.tracked (detached : Detached token) (formed : WellFormed e)
    (effect : Effect token inv e call value e') (history : e'.history = e.history)
    (tracked : Tracked e keeper) : Tracked (e'.record e call value) keeper := by
  have executed := effect.executions detached formed keeper
  have displaced : displacements keeper (e'.record e call value).history =
      call.displaces e keeper + displacements keeper e.history := by
    simp [displacements, history]
  obtain ⟨successes, misses, score⟩ := tracked
  cases effect.reputationMove detached keeper with
  | untouched record unexecuted undisplaced =>
    rw [unexecuted, add_zero] at executed
    rw [undisplaced, zero_add] at displaced
    refine ⟨?_, ?_, ?_⟩
    · rw [Env.record_toWorld, record, executed, successes]
    · rw [displaced, Env.record_toWorld, record, misses]
    · rw [Env.record_toWorld, record, score]
  | succeeded called record =>
    subst called
    simp only [Call.executes, if_true] at executed
    simp only [Call.displaces, zero_add] at displaced
    refine ⟨?_, ?_, ?_⟩
    · rw [Env.record_toWorld, record, executed]
      exact saturatingAdd_count successes
    · rw [displaced, Env.record_toWorld, record]
      exact misses
    · rw [Env.record_toWorld, record]
      rfl
  | missed called found claimed claimer _ record =>
    subst called
    simp only [Call.executes, add_zero] at executed
    simp only [Call.displaces, found, Option.elim_some, Task.claimedBy, claimed, claimer,
      and_self, if_true] at displaced
    refine ⟨?_, ?_, ?_⟩
    · rw [Env.record_toWorld, record, executed]
      exact successes
    · rw [displaced, Env.record_toWorld, record, Int.add_comm]
      exact saturatingAdd_count misses
    · rw [Env.record_toWorld, record]
      rfl

theorem DetachedRun.tracked (fresh : Fresh start) (run : DetachedRun start e) (keeper : Address) :
    Tracked e keeper := by
  refine DetachedRun.invariant (fun e => Tracked e keeper)
    (fun detached formed effect history tracked => effect.tracked detached formed history tracked)
    (fun _ _ _ tracked => ⟨tracked.successes, tracked.missed, tracked.score⟩)
    (fun e balances amount tracked => ⟨tracked.successes, ?_, tracked.score⟩) fresh ?_ run
  · rw [displacements, receiptTotal_outside]
    exact tracked.missed
  · -- A fresh registry has tracked nothing, and nothing has happened yet.
    obtain ⟨_, _, _, initialized⟩ := fresh.initialized
    have blank : keeperReputation start keeper = ReputationRecord.zero := by
      simp [keeperReputation, storedRecord, initialized.reputation]
    refine ⟨?_, ?_, ?_⟩
    · simp [blank, ReputationRecord.zero, executions, fresh.unused.1.tasks]
    · simp [blank, ReputationRecord.zero, displacements, fresh.history]
    · rw [blank]
      rfl

theorem ReputationRecord.score_eq {record : ReputationRecord} (same : record.recompute = record)
    (few : record.successes + record.missedClaims ≤ u64Max) :
    record.scoreBps = scoreOf record.successes record.missedClaims ∧ record.scoreBps ≤ 10000 := by
  have score : record.scoreBps = record.recompute.scoreBps := by rw [same]
  have bound : record.successes * 10000 / (record.successes + record.missedClaims) ≤ 10000 := by
    apply Nat.div_le_of_le_mul
    exact Nat.mul_le_mul_right _ (Nat.le_add_right _ _)
  simp only [recompute, saturatingAdd_eq few] at score
  rw [score]
  split
  · next none => simp [scoreOf, none]
  · rw [Nat.mod_eq_of_lt (by omega)]
    exact ⟨rfl, bound⟩

/--
The reputation of a keeper agrees with the table of tasks and the history of claims.

Only an execution of its own or a takeover of a claim it let lapse changes its record, and a call
that fails changes nothing at all.
-/
theorem reputation_agrees (fresh : Fresh start) (run : DetachedRun start e) (keeper : Address)
    (few : executions e keeper + displacements keeper e.history < 2 ^ 64) :
    ((keeperReputation e keeper).successes : Int) = executions e keeper ∧
    ((keeperReputation e keeper).missedClaims : Int) = displacements keeper e.history ∧
    (keeperReputation e keeper).scoreBps =
      scoreOf (keeperReputation e keeper).successes
        (keeperReputation e keeper).missedClaims ∧
    (keeperReputation e keeper).scoreBps ≤ 10000 ∧
    ∀ (token : Token) (inv : Invocation) (call : Call), Detached token →
      (keeperReputation (invoke token inv call e).2.toWorld keeper ≠
          keeperReputation e keeper → Succeeds token inv call e ∧
        ((∃ taskId proof, call = .executeTask keeper taskId proof) ∨
          ∃ other taskId task, call = .claimTask other taskId ∧
            e.tasks.lookup taskId = some task ∧ task.status = .claimed ∧
            task.claimer = some keeper ∧ lockExpired e task = true)) ∧
      ∀ failure, (invoke token inv call e).1 = .error failure →
        (invoke token inv call e).2 = e := by
  obtain ⟨successes, missed, score⟩ := DetachedRun.tracked fresh run keeper
  have limit : (u64Max : Int) = 2 ^ 64 - 1 := by decide
  rw [min_eq_left (by omega)] at successes missed
  obtain ⟨scored, bounded⟩ := ReputationRecord.score_eq score (by omega)
  refine ⟨successes, missed, scored, bounded, fun token inv call detached => ⟨?_, ?_⟩⟩
  · -- A call that went through is one of the two that track something for the keeper.
    intro changed
    cases called : invoke token inv call e with
    | mk result after =>
      rw [called] at changed
      cases result with
      | error failure =>
        rw [invoke_error called] at changed
        exact absurd rfl changed
      | ok value =>
        obtain ⟨finish, effect, rfl⟩ := invoke_ok called
        refine ⟨⟨value, _, called⟩, ?_⟩
        cases effect.reputationMove detached keeper with
        | untouched record => exact absurd record changed
        | succeeded executes => exact .inl ⟨_, _, executes⟩
        | missed claims found claimed claimer lapsed =>
          exact .inr ⟨_, _, _, claims, found, claimed, claimer, lapsed⟩
  · intro failure failed
    exact invoke_error (Prod.ext failed rfl)

/-- A keeper executes one task and lets the claim of another lapse. -/
def reputationScript : List Turn :=
  [.call [⟨3⟩] (.registerTask ⟨3⟩ sampleParams), .call [⟨3⟩] (.registerTask ⟨3⟩ sampleParams),
    .call [⟨4⟩] (.claimTask ⟨4⟩ 1), .call [⟨4⟩] (.executeTask ⟨4⟩ 1 []),
    .call [⟨4⟩] (.claimTask ⟨4⟩ 2)] ++
  List.replicate 12 (.close 0) ++ [.call [⟨5⟩] (.claimTask ⟨5⟩ 2)]

/-- One execution and one missed claim make half of the full score. -/
theorem reputation_agrees_half :
    executions (play beforeRecords reputationScript) ⟨4⟩ = 1 ∧
      displacements ⟨4⟩ (play beforeRecords reputationScript).history = 1 ∧
      (keeperReputation (play beforeRecords reputationScript) ⟨4⟩).scoreBps = 5000 := by
  have executed : executions (play beforeRecords reputationScript) ⟨4⟩ = 1 := by decide
  have displaced : displacements ⟨4⟩ (play beforeRecords reputationScript).history = 1 := by
    decide
  have fresh : Fresh beforeRecords := genesis_fresh (by decide)
  have run : ExactRun beforeRecords (play beforeRecords reputationScript) :=
    Playable.run (by decide)
  obtain ⟨successes, missed, score, -⟩ := reputation_agrees fresh run.detached ⟨4⟩
    (by rw [executed, displaced]; decide)
  refine ⟨executed, displaced, ?_⟩
  rfl

end KeeperNetwork
