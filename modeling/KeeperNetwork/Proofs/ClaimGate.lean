import KeeperNetwork.Lib.Outcome
import KeeperNetwork.Registry.Genesis
import KeeperNetwork.Registry.Transfers
import KeeperNetwork.Registry.Views

/-! Everything a claim is checked against, and what a refused claim leaves behind. -/

namespace KeeperNetwork

open Soroban EStateM

/-- The status, the lock and the deadline of a stored task allow a claim. -/
structure Offered (e : World) (taskId : Nat) (task : Task) : Prop where
  found : e.tasks.lookup taskId = some task
  ahead : e.timestamp < task.deadline
  free : task.status = .pending ∨ task.status = .claimed ∧ lockExpired e task = true

/-- The registry is open and a keeper has the stake it asks for. -/
structure Enrolled (e : World) (keeper : Address) : Prop where
  active : isPaused e = false
  staked : 0 < minStakeFloor e → minStakeFloor e ≤ keeperStakeOf e keeper

/-- The stored score of a keeper reaches the floor. -/
def Reputable (e : World) (keeper : Address) : Prop :=
  reputationFloorBps e ≤ (storedRecord e keeper).scoreBps

variable {token : Token} {inv : Invocation} {e e' : Env} {keeper : Address} {taskId : Nat}

theorem isClaimable_iff_offered {w : World} :
    isClaimable inv w taskId = true ↔
      ∃ task, Offered w taskId task ∧ ConditionMet inv taskId task := by
  unfold isClaimable ConditionMet
  cases found : w.tasks.lookup taskId with
  | none =>
    simp only [Bool.false_eq_true, false_iff, not_exists]
    intro task offered
    exact absurd (found.symm.trans offered.1.found) (by simp)
  | some task =>
    have offered (other : Task) : Offered w taskId other ↔ other = task ∧
        w.timestamp < task.deadline ∧
        (task.status = .pending ∨ task.status = .claimed ∧ lockExpired w task = true) := by
      constructor
      · rintro ⟨here, ahead, free⟩
        obtain rfl : other = task := Option.some.inj (here.symm.trans found)
        exact ⟨rfl, ahead, free⟩
      · rintro ⟨rfl, ahead, free⟩
        exact ⟨found, ahead, free⟩
    -- The condition decides once the deadline and the state of the task allow a claim.
    simp only [offered, and_assoc, exists_eq_left]
    cases status : task.status <;> cases task.condition <;> simp

theorem claimable_iff_free {task : Task} :
    (∃ missed, Claimable e task missed) ↔
      task.status = .pending ∨ task.status = .claimed ∧ lockExpired e task = true := by
  constructor
  · rintro ⟨missed, ⟨pending, -⟩ | ⟨claimed, expired, -⟩⟩
    · exact .inl pending
    · exact .inr ⟨claimed, expired⟩
  · rintro (pending | ⟨claimed, expired⟩)
    · exact ⟨none, .inl ⟨pending, rfl⟩⟩
    · exact ⟨task.claimer, .inr ⟨claimed, expired, rfl⟩⟩

/-- A claim goes through exactly when it passes every check. -/
theorem claimTask_returns :
    (∃ e', (claimTask inv keeper taskId).Returns e () e') ↔
      keeper ∈ inv.auths ∧ Enrolled e keeper ∧ Reputable e keeper ∧
        ∃ task, Offered e taskId task ∧ ConditionMet inv taskId task := by
  constructor
  · rintro ⟨finish, ran⟩
    simp [claimTask] at ran
    obtain ⟨active, signed, staked, task, found, ahead, missed, claimable, reputable, met, -⟩ := ran
    have offered : Offered e taskId task :=
      ⟨found, ahead, claimable_iff_free.mp ⟨missed, claimable⟩⟩
    -- A floor of zero is reached by every score.
    have reached : Reputable e keeper := by
      unfold Reputable
      omega
    exact ⟨signed, ⟨active, staked⟩, reached, task, offered, met⟩
  · rintro ⟨signed, admitted, reputable, task, offered, met⟩
    have claimable := claimable_iff_free.mpr offered.free
    simp [claimTask]
    exact ⟨admitted.active, signed, admitted.staked, task, offered.found, offered.ahead, claimable,
      .inr reputable, met⟩

section Ends

variable {returned : Unit → Env → Prop} {failed : Failure → Env → Prop}

theorem ends_rejectIf {condition : Prop} [Decidable condition] {reason : KeeperError}
    (rejected : condition → failed (.error reason) e) (passed : ¬ condition → returned () e) :
    (rejectIf condition reason).Ends e returned failed := by
  unfold rejectIf
  split
  · exact rejected ‹_›
  · exact passed ‹_›

theorem ends_okOr {α : Type} {value : Option α} {reason : KeeperError}
    {returned : α → Env → Prop} (absent : value = none → failed (.error reason) e)
    (present : ∀ found, value = some found → returned found e) :
    (okOr value reason).Ends e returned failed := by
  cases value with
  | none => exact absent rfl
  | some found => exact present found rfl

theorem ends_requireAuth {address : Address}
    (unsigned : address ∉ inv.auths → failed .unauthenticated e)
    (signed : address ∈ inv.auths → returned () e) :
    (requireAuth inv.auths address).Ends e returned failed := by
  unfold requireAuth
  split
  · exact signed ‹_›
  · exact unsigned ‹_›

theorem ends_missedClaimer {task : Task} {returned : Option Address → Env → Prop}
    (taken : ∀ reason, reason = .lockPeriodActive ∨ reason = .invalidTaskStatus →
      failed (.error reason) e) (free : ∀ missed, Claimable e task missed → returned missed e) :
    (missedClaimer task).Ends e returned failed := by
  unfold missedClaimer
  cases status : task.status with
  | pending => exact free none (.inl ⟨status, rfl⟩)
  | claimed =>
    simp only [ends_bind, ends_get]
    refine ends_rejectIf (fun _ => taken _ (.inl rfl)) fun expired => ?_
    exact free task.claimer (.inr ⟨status, by simpa using expired, rfl⟩)
  | executed | cancelled | expired => exact taken _ (.inr rfl)

theorem ends_requireCondition {task : Task}
    (unmet : ∀ condition, task.condition = some condition →
      inv.isMet condition taskId ≠ some true →
      failed (.error .conditionNotMet) (e.emit (.conditionNotMet taskId condition)))
    (met : ConditionMet inv taskId task → returned () e) :
    (requireCondition inv taskId task).Ends e returned failed := by
  unfold requireCondition whenever
  cases condition : task.condition with
  | none => exact met fun other here => by simp [condition] at here
  | some contract =>
    by_cases answer : inv.isMet contract taskId = some true
    · simp only [ne_eq, answer, not_true_eq_false, ↓reduceIte, ends_pure]
      refine met fun other here => ?_
      obtain rfl : contract = other := Option.some.inj (condition.symm.trans here)
      exact answer
    · simp only [ne_eq, answer, not_false_eq_true, ↓reduceIte, ends_bind]
      exact unmet contract condition answer

end Ends

/-- The ways a claim is refused, with the failure and the state it is left in. -/
inductive Refused (inv : Invocation) (e : Env) (taskId : Nat) : Failure → Env → Prop
  /-- The registry, the stake or the task itself does not allow the claim. -/
  | outright {failure : Failure} (other : failure ≠ .error .reputationBelowFloor)
      (another : failure ≠ .error .conditionNotMet) : Refused inv e taskId failure e
  /-- Only the score of the keeper stands in the way so far. -/
  | reputation {task : Task} (offered : Offered e taskId task) :
      Refused inv e taskId (.error .reputationBelowFloor) e
  /-- Only the condition of the task stands in the way. -/
  | condition {task : Task} {contract : Address} (offered : Offered e taskId task)
      (attached : task.condition = some contract)
      (unmet : inv.isMet contract taskId ≠ some true) :
      Refused inv e taskId (.error .conditionNotMet) (e.emit (.conditionNotMet taskId contract))

theorem claimTask_ends :
    (claimTask inv keeper taskId).Ends e (fun _ _ => True) (Refused inv e taskId) := by
  unfold claimTask
  simp only [ends_bind, ends_get]
  refine ends_rejectIf (fun _ => .outright (by simp) (by simp)) fun _ => ?_
  refine ends_requireAuth (fun _ => .outright (by simp) (by simp)) fun _ => ?_
  refine ends_rejectIf (fun _ => .outright (by simp) (by simp)) fun _ => ?_
  refine ends_okOr (fun _ => .outright (by simp) (by simp)) fun task found => ?_
  refine ends_rejectIf (fun _ => .outright (by simp) (by simp)) fun ahead => ?_
  refine ends_missedClaimer (fun reason which => ?_) fun missed claimable => ?_
  · rcases which with rfl | rfl <;> exact .outright (by simp) (by simp)
  -- From here on the task itself allows the claim.
  have offered : Offered e taskId task :=
    ⟨found, Nat.lt_of_not_le ahead, claimable_iff_free.mp ⟨missed, claimable⟩⟩
  refine ends_rejectIf (fun _ => .reputation offered) fun _ => ?_
  refine ends_requireCondition (fun _ attached unmet => .condition offered attached unmet) ?_
  -- What remains only writes.
  intro _
  cases missed <;> trivial

theorem succeeds_claimTask_iff :
    Succeeds token inv (.claimTask keeper taskId) e ↔
      ∃ e', (claimTask inv keeper taskId).Returns e () e' := by
  simp only [Succeeds, invoke, commit_eq_ok, recordedCall_returns, runCall, returns_map]
  constructor
  · rintro ⟨_, _, finish, ⟨_, ran, _⟩, _⟩
    exact ⟨finish, ran⟩
  · rintro ⟨finish, ran⟩
    exact ⟨_, _, finish, ⟨(), ran, rfl⟩, rfl⟩

theorem claimTask_refused {failure : Failure}
    (failed : (invoke token inv (.claimTask keeper taskId) e).1 = .error failure) :
    ∃ finish, (claimTask inv keeper taskId).run e = .error failure finish ∧
      Refused inv e taskId failure finish := by
  obtain ⟨finish, ran⟩ := fails_map.mp (invoke_fails.mp failed)
  exact ⟨finish, ran, claimTask_ends.of_error ran⟩

/--
What is offered for a claim can be claimed by every keeper the registry admits.

A signed claim goes through exactly when the task is claimable, the registry is not paused, the
keeper has the stake asked for and its stored score reaches the floor. A claim is refused for the
score or the condition only when the task's own state allows it. A refused claim writes nothing,
not even before it is rolled back.
-/
theorem claimTask_iff_isClaimable (token : Token) (inv : Invocation) (e : Env) (keeper : Address)
    (taskId : Nat) (signed : keeper ∈ inv.auths) :
    (Succeeds token inv (.claimTask keeper taskId) e ↔
      isClaimable inv e taskId = true ∧ isPaused e = false ∧
        (0 < minStakeFloor e →
          minStakeFloor e ≤ keeperStakeOf e keeper) ∧
        reputationFloorBps e ≤ (storedRecord e keeper).scoreBps) ∧
      (∀ reason ∈ [KeeperError.reputationBelowFloor, .conditionNotMet],
        (invoke token inv (.claimTask keeper taskId) e).1 = .error (.error reason) →
        ∃ task, e.tasks.lookup taskId = some task ∧ e.timestamp < task.deadline ∧
          (task.status = .pending ∨
            task.status = .claimed ∧ lockExpired e task = true)) ∧
      ∀ failure, (invoke token inv (.claimTask keeper taskId) e).1 = .error failure →
        (invoke token inv (.claimTask keeper taskId) e).2 = e ∧
        ∃ events, (claimTask inv keeper taskId).run e = .error failure { e with events } := by
  refine ⟨?_, ?_, ?_⟩
  · rw [succeeds_claimTask_iff, claimTask_returns, isClaimable_iff_offered]
    constructor
    · rintro ⟨-, admitted, reputable, claimable⟩
      exact ⟨claimable, admitted.active, admitted.staked, reputable⟩
    · rintro ⟨claimable, active, staked, reputable⟩
      exact ⟨signed, ⟨active, staked⟩, reputable, claimable⟩
  · intro reason which failed
    obtain ⟨finish, -, refused⟩ := claimTask_refused failed
    cases refused with
    | outright other another => simp_all
    | reputation offered
    | condition offered => exact ⟨_, offered.found, offered.ahead, offered.free⟩
  · intro failure failed
    obtain ⟨finish, ran, refused⟩ := claimTask_refused failed
    refine ⟨invoke_error (Prod.ext failed rfl), ?_⟩
    -- At most an event is published before the failure.
    cases refused with
    | outright | reputation => exact ⟨e.events, ran⟩
    | condition => exact ⟨_, ran⟩

/-- A registry with one claimed task whose lock has not expired. -/
def beforeTakeover : Env :=
  play (genesis ⟨0⟩ ⟨1⟩ ⟨2⟩ 300 (hundredOf ⟨3⟩) 10 20)
    [.call [⟨3⟩] (.registerTask ⟨3⟩ sampleParams), .call [⟨4⟩] (.claimTask ⟨4⟩ 1)]

/-- A keeper takes its own claim over once the lock has expired, and not before. -/
theorem claimTask_iff_isClaimable_takeover :
    ¬ Succeeds exactTransfer (signedBy [⟨4⟩] 1000) (.claimTask ⟨4⟩ 1) beforeTakeover ∧
      Succeeds exactTransfer (signedBy [⟨4⟩] 1000) (.claimTask ⟨4⟩ 1)
        { beforeTakeover with sequence := 22 } := by
  obtain ⟨locked, -⟩ := claimTask_iff_isClaimable exactTransfer (signedBy [⟨4⟩] 1000)
    beforeTakeover ⟨4⟩ 1 (by decide)
  obtain ⟨expired, -⟩ := claimTask_iff_isClaimable exactTransfer (signedBy [⟨4⟩] 1000)
    { beforeTakeover with sequence := 22 } ⟨4⟩ 1 (by decide)
  exact ⟨fun succeeds => absurd (locked.mp succeeds).1 (by decide), expired.mpr (by decide)⟩

end KeeperNetwork
