import KeeperNetwork.Indexer.Mirror
import KeeperNetwork.Lib.Trace

/-! Rejected calls leave no event behind, on the ledger or in the indexer. -/

namespace KeeperNetwork

open Soroban

/-- A call that was made, with how it ended. -/
structure Attempt where
  call : Call
  result : Except Failure Value

/-- One thing that happens to a registry, with the call if one was made. -/
inductive Attempted : Env → Option Attempt → Env → Prop
  | call {token : Token} {inv : Invocation} {call : Call} {e e' : Env}
      {result : Except Failure Value} (detached : Detached token) (unsigned : e.self ∉ inv.auths)
      (running : e.wasm = none) (called : invoke token inv call e = (result, e')) :
      Attempted e (some ⟨call, result⟩) e'
  | other {e e' : Env} (step : Step (fun _ _ => False) e e') : Attempted e none e'

def Attempt.rejectedClaim (taskId : Nat) : Option Attempt → Bool
  | some ⟨.claimTask _ about, .error (.error .conditionNotMet)⟩ => about = taskId
  | _ => false

/-- The attempt was an execution of the task by the keeper that its verifier rejected. -/
def Attempt.rejectedExecution (taskId : Nat) (keeper : Address) : Option Attempt → Bool
  | some ⟨.executeTask executor about _, .error (.error .verificationFailed)⟩ =>
    about = taskId ∧ executor = keeper
  | _ => false

def Event.conditionFailed (taskId : Nat) : Event → Bool
  | .conditionNotMet about _ => about = taskId
  | _ => false

def Event.verifierFailed (taskId : Nat) (keeper : Address) : Event → Bool
  | .verificationFailed about executor => about = taskId ∧ executor = keeper
  | _ => false

def Event.Rejects : Event → Prop
  | .conditionNotMet .. | .verificationFailed .. => True
  | _ => False

variable {start e e' : Env}

theorem Attempted.step {label : Option Attempt} (attempted : Attempted e label e') :
    Step (fun _ token => Detached token) e e' := by
  -- An attempt is a call, and its result is remembered beside it.
  cases attempted with
  | @call token inv call _ _ result detached unsigned running called =>
    have reached : e' = (invoke token inv call e).2 := by rw [called]
    rw [reached]
    exact .call token inv call e detached unsigned running
  | other step => exact step.mono fun _ _ never => never.elim

theorem Attempted.run {labels : List (Option Attempt)} (run : Trace Attempted start labels e) :
    DetachedRun start e := by
  induction run with
  | nil => exact .refl
  | snoc _ last ih => exact ih.tail last.step

def Turn.attempt (e : Env) : Turn → Option Attempt
  | .call auths entry => some ⟨entry, (invoke exactTransfer (signedBy auths 1000) entry e).1⟩
  | .close _ => none

/-- What a script attempts, latest first. -/
def attemptsOf (e : Env) : List Turn → List (Option Attempt)
  | [] => []
  | turn :: script => attemptsOf (turn.play e) script ++ [turn.attempt e]

theorem Turn.Legal.attempted {turn : Turn} (legal : turn.Legal e) :
    Attempted e (turn.attempt e) (turn.play e) := by
  -- What the scripted token does is exact, so the registry's own address never signs.
  cases turn with
  | call auths entry =>
    have unsigned : e.self ∉ (signedBy auths 1000).auths := legal.1
    exact .call exactTransfer_exact.detached unsigned legal.2 rfl
  | close timestamp => exact .other (.close timestamp e legal.1 legal.2.1 legal.2.2)

theorem Playable.attempted {script : List Turn} (playable : Playable e script) :
    Trace Attempted e (attemptsOf e script) (play e script) := by
  induction script generalizing e with
  | nil => exact .nil
  | cons turn script ih => exact (Trace.single playable.1.attempted).append (ih playable.2)

theorem Call.announces_no_rejection (call : Call) (w : World) (value : Value) :
    ∀ event ∈ call.announces w value, ¬ event.Rejects := by
  intro event announced
  -- No entry point announces a rejection, so this is a look at every list of announcements.
  cases call with
  | registerTask | batchRegisterTasks | increaseReward | updateVerifier | disputeExecution =>
    simp only [Call.announces, List.mem_map] at announced
    obtain ⟨_, -, rfl⟩ := announced
    exact id
  | withdrawRewards keeper =>
    simp only [Call.announces, List.mem_append, List.mem_map] at announced
    rcases announced with ⟨_, -, rfl⟩ | paid
    · exact id
    · cases value <;> simp at paid
      exact paid ▸ id
  | withdrawStake | slash =>
    cases value <;> simp [Call.announces] at announced
    exact announced ▸ id
  | _ =>
    simp only [Call.announces, List.mem_singleton] at announced
    exact announced ▸ id

theorem DetachedRun.no_rejection (fresh : Fresh start) (run : DetachedRun start e) :
    ∀ event ∈ e.events, ¬ event.Rejects := by
  refine DetachedRun.log_all (fun _ _ _ => id) ?_ fresh run
  intro token inv e e' call value formed effect
  exact call.announces_no_rejection e value

variable {events : List Event}

theorem countP_conditionFailed (silent : ∀ event ∈ events, ¬ event.Rejects) (taskId : Nat) :
    events.countP (Event.conditionFailed taskId) = 0 := by
  -- The event that would count is the one that is never emitted.
  rw [List.countP_eq_zero]
  intro event listed failed
  cases event with
  | conditionNotMet => exact silent _ listed trivial
  | _ => cases failed

theorem countP_verifierFailed (silent : ∀ event ∈ events, ¬ event.Rejects) (taskId : Nat)
    (keeper : Address) : events.countP (Event.verifierFailed taskId keeper) = 0 := by
  -- The event that would count is the one that is never emitted.
  rw [List.countP_eq_zero]
  intro event listed failed
  cases event with
  | verificationFailed => exact silent _ listed trivial
  | _ => cases failed

namespace Indexer

/-- The payload says that a condition was not met. -/
def EventPayload.Rejects : EventPayload → Prop
  | .conditionNotMet .. => True
  | _ => False

theorem payload_rejects {texts : TextForms} (silent : ∀ event ∈ events, ¬ event.Rejects) :
    ∀ payload ∈ events.filterMap (Event.payload texts), ¬ payload.Rejects := by
  -- A payload rejects only if it was decoded from an event that does.
  intro payload listed rejects
  obtain ⟨event, member, known⟩ := List.mem_filterMap.mp listed
  cases event with
  | conditionNotMet => exact silent _ member trivial
  | _ => cases known <;> exact rejects

theorem TaskState.next_count {taskId : Nat} {state : Option TaskState} {row : IndexedEvent}
    (other : ¬ row.payload.Rejects)
    (before : ∀ known, state = some known → known.conditionRejectionCount = 0) :
    ∀ known, TaskState.next taskId state row = some known →
      known.conditionRejectionCount = 0 := by
  obtain ⟨⟨ledger, closed, hash, index, payload⟩, cursor⟩ := row
  intro known next
  -- Registration starts the count, one kind of event raises it, and the others leave it.
  cases payload with
  | taskRegistered => cases next; rfl
  | conditionNotMet => exact absurd trivial other
  | _ =>
    cases state with
    | none => cases next
    | some old =>
      have none_yet := before old rfl
      cases next
      exact none_yet

theorem TaskState.fold_count {taskId : Nat} {rows : List IndexedEvent}
    (silent : ∀ row ∈ rows, ¬ row.payload.Rejects) :
    ∀ state, TaskState.fold taskId rows = some state → state.conditionRejectionCount = 0 := by
  -- From any state without rejections the fold reaches only such states.
  suffices step : ∀ state : Option TaskState,
      (∀ known, state = some known → known.conditionRejectionCount = 0) →
      ∀ known, rows.foldl (TaskState.next taskId) state = some known →
        known.conditionRejectionCount = 0 from step none (fun _ absent => by cases absent)
  induction rows with
  | nil => exact fun _ before => before
  | cons row rows ih =>
    intro state before
    obtain ⟨here, later⟩ := List.forall_mem_cons.mp silent
    exact ih later _ (TaskState.next_count here before)

variable {texts : TextForms}

theorem DetachedRun.uncounted (fresh : Fresh start) (run : DetachedRun start e) {db : Db}
    (stored : db.events.map (·.payload) = e.events.filterMap (Event.payload texts)) (taskId : Nat) :
    ∀ state, TaskState.fold taskId (db.taskHistory taskId) = some state →
      state.conditionRejectionCount = 0 := by
  apply TaskState.fold_count
  intro row listed
  -- Every row of the store was told by the log.
  have member : row.payload ∈ e.events.filterMap (Event.payload texts) := by
    rw [← stored]
    exact List.mem_map_of_mem (List.mem_of_mem_filter listed)
  exact payload_rejects (DetachedRun.no_rejection fresh run) _ member

/--
A rejection is never observable, since its event is rolled back with the call.

In every run the ledger's log has one event for each claim of a task that the condition rejected
exactly when there was no such claim. The same goes for executions that the verifier rejected,
and for the rejections the indexer counts once it has ingested the log.
-/
theorem rejections_observed_iff {labels : List (Option Attempt)} (fresh : Fresh start)
    (run : Trace Attempted start labels e) (stamps : List Stamp)
    (complete : stamps.length = e.events.length) (distinct : (stamps.map Stamp.key).Nodup)
    (taskId : Nat) (keeper : Address) :
    (e.events.countP (Event.conditionFailed taskId) =
        labels.countP (Attempt.rejectedClaim taskId) ↔
      labels.countP (Attempt.rejectedClaim taskId) = 0) ∧
    (e.events.countP (Event.verifierFailed taskId keeper) =
        labels.countP (Attempt.rejectedExecution taskId keeper) ↔
      labels.countP (Attempt.rejectedExecution taskId keeper) = 0) ∧
    ∃ outcome after,
      (ingestBatch (published texts stamps e.events)).run Process.blank = .ok outcome after ∧
      ∀ state, TaskState.fold taskId (after.db.taskHistory taskId) = some state →
        (state.conditionRejectionCount = labels.countP (Attempt.rejectedClaim taskId) ↔
          labels.countP (Attempt.rejectedClaim taskId) = 0) := by
  -- A rejected call fails, and a failed call leaves no event behind.
  have silent := DetachedRun.no_rejection fresh (Attempted.run run)
  -- The indexer stores what was published, so it has no rejection to count either.
  obtain ⟨outcome, after, ran, stored⟩ := ingestBatch_published texts complete distinct
  refine ⟨?_, ?_, outcome, after, ran, fun state folded => ?_⟩
  · rw [countP_conditionFailed silent]
    exact eq_comm
  · rw [countP_verifierFailed silent]
    exact eq_comm
  · rw [DetachedRun.uncounted fresh (Attempted.run run) stored taskId state folded]
    exact eq_comm

/-- One task that only a condition can open, and one that only a verifier can close. -/
def gated : List Turn :=
  [.call [⟨3⟩] (.registerTask ⟨3⟩ { sampleParams with condition := some ⟨7⟩ }),
    .call [⟨3⟩] (.registerTask ⟨3⟩ { sampleParams with verifier := some ⟨8⟩ }),
    .call [⟨4⟩] (.claimTask ⟨4⟩ 2)]

/-- Before anything is rejected, the log and the counts agree. -/
theorem rejections_observed_before :
    (play feeless gated).events.countP (Event.conditionFailed 1) =
        (attemptsOf feeless gated).countP (Attempt.rejectedClaim 1) ∧
      ∃ outcome after, (ingestBatch (published sampleTexts
          (sampleStamps (play feeless gated).events) (play feeless gated).events)).run
          Process.blank = .ok outcome after := by
  have playable : Playable feeless gated := by decide
  obtain ⟨claims, -, outcome, after, ran, -⟩ := rejections_observed_iff
    (genesis_fresh (by decide)) playable.attempted
    (sampleStamps (play feeless gated).events) (by decide) (by decide) 1 ⟨4⟩
  exact ⟨claims.mpr (by decide), outcome, after, ran⟩

/-- The condition rejects a claim of the first task, and the verifier an execution of the second. -/
def rejected : List Turn :=
  gated ++ [.call [⟨4⟩] (.claimTask ⟨4⟩ 1), .call [⟨4⟩] (.executeTask ⟨4⟩ 2 [])]

/-- One claim and one execution are rejected, and neither the ledger nor the indexer shows it. -/
theorem rejections_unobserved :
    Playable feeless rejected ∧
      (attemptsOf feeless rejected).countP (Attempt.rejectedClaim 1) = 1 ∧
      (attemptsOf feeless rejected).countP (Attempt.rejectedExecution 2 ⟨4⟩) = 1 ∧
      (play feeless rejected).events.countP (Event.conditionFailed 1) = 0 ∧
      (play feeless rejected).events.countP (Event.verifierFailed 2 ⟨4⟩) = 0 ∧
      ∃ outcome after, (ingestBatch (published sampleTexts
          (sampleStamps (play feeless rejected).events) (play feeless rejected).events)).run
          Process.blank = .ok outcome after ∧
        ∃ state, TaskState.fold 1 (after.db.taskHistory 1) = some state ∧
          state.conditionRejectionCount = 0 := by
  have playable : Playable feeless rejected := by decide
  have fresh : Fresh feeless := genesis_fresh (by decide)
  have complete : (sampleStamps (play feeless rejected).events).length =
      (play feeless rejected).events.length := by decide
  obtain ⟨outcome, after, ran, stored⟩ :=
    ingestBatch_published sampleTexts complete (by decide)
  -- The first task is registered, so the indexer has a state for it.
  obtain ⟨state, folded, -⟩ := Option.map_eq_some_iff.mp
    (DetachedRun.view fresh (ExactRun.detached playable.run) stored 1)
  refine ⟨playable, by decide, by decide, by decide, by decide, outcome, after, ran, state, folded,
    ?_⟩
  exact DetachedRun.uncounted fresh (ExactRun.detached playable.run) stored 1 state folded

end Indexer

end KeeperNetwork
