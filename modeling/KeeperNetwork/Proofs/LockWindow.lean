import KeeperNetwork.Proofs.TaskMove

/-! A claim keeps a task to one keeper until its lock expires. -/

namespace KeeperNetwork

open Soroban

/-- What a task keeps of the record a claim left, as long as the lock lasts. -/
structure LockHeld (claim task : Task) : Prop where
  status : task.status = claim.status
  claimer : task.claimer = claim.claimer
  claimLedger : task.claimLedger = claim.claimLedger
  lockLedgers : task.lockLedgers = claim.lockLedgers
  verifier : task.verifier = claim.verifier
  condition : task.condition = claim.condition
  reward : claim.reward ≤ task.reward
  deadline : claim.deadline ≤ task.deadline

/-- Neither the lock of a task nor its deadline has been reached. -/
def BeforeLockEnds (taskId lockEnds : Nat) (e : Env) : Prop :=
  e.sequence < lockEnds ∧ ∀ task, e.tasks.lookup taskId = some task → e.timestamp < task.deadline

/-- A step in the lock window of a keeper, which does not execute the task itself. -/
def LockStep (keeper : Address) (taskId lockEnds : Nat) (e e' : Env) : Prop :=
  BeforeLockEnds taskId lockEnds e ∧
    Step (fun call token => ExactToken token ∧ ∀ proof, call ≠ .executeTask keeper taskId proof)
      e e'

variable {token : Token} {inv : Invocation} {start e e' : Env} {call : Call} {value : Value}
  {keeper : Address} {taskId : Nat} {claim task : Task}

theorem LockHeld.refl (claim : Task) : LockHeld claim claim :=
  ⟨rfl, rfl, rfl, rfl, rfl, rfl, le_rfl, le_rfl⟩

theorem lockExpired_eq_false {claimedAt : Nat} {w : World}
    (claimLedger : task.claimLedger = some claimedAt) (fits : claimedAt + task.lockLedgers ≤ u32Max)
    (before : w.sequence < claimedAt + task.lockLedgers) : lockExpired w task = false := by
  simpa [lockExpired, claimLedger, saturatingAdd_eq fits] using before

theorem TaskMove.lockHeld (move : TaskMove e e' call value taskId)
    (found : e.tasks.lookup taskId = some task) (held : LockHeld claim task)
    (status : claim.status = .claimed) (claimer : claim.claimer = some keeper)
    (locked : lockExpired e task = false) (ahead : e.timestamp < task.deadline)
    (other : ∀ proof, call ≠ .executeTask keeper taskId proof) :
    ∃ task', e'.tasks.lookup taskId = some task' ∧ LockHeld claim task' := by
  have claimed : task.status = .claimed := held.status.trans status
  cases move with
  | untouched same => exact ⟨task, same.trans found, held⟩
  | registered absent => simp [absent] at found
  | toppedUp _ here _ positive stored =>
    cases found.symm.trans here
    have grown := held.reward
    exact ⟨_, stored, { held with reward := by simp only; omega }⟩
  | extended _ here _ later stored =>
    cases found.symm.trans here
    have before := held.deadline
    exact ⟨_, stored, { held with deadline := by simp only; omega }⟩
  | reverified _ here unclaimed =>
    cases found.symm.trans here
    simp [claimed] at unclaimed
  | claimed _ here _ claimable =>
    -- A takeover needs an expired lock.
    cases found.symm.trans here
    simp [Claimable, claimed, locked] at claimable
  | executed called here _ executor =>
    -- Only the claimer executes, and the claimer is the keeper whose execution is left out.
    cases found.symm.trans here
    rw [held.claimer, claimer] at executor
    cases executor
    exact absurd called (other _)
  | cancelled _ here _ _ unlocked =>
    cases found.symm.trans here
    simp [locked] at unlocked
    simp [claimed] at unlocked
  | expired _ here _ passed =>
    cases found.symm.trans here
    omega

theorem LockStep.lockHeld {claimedAt : Nat} (formed : WellFormed e)
    (step : LockStep keeper taskId (claimedAt + claim.lockLedgers) e e')
    (status : claim.status = .claimed) (claimer : claim.claimer = some keeper)
    (claimLedger : claim.claimLedger = some claimedAt)
    (fits : claimedAt + claim.lockLedgers ≤ u32Max)
    (found : e.tasks.lookup taskId = some task) (held : LockHeld claim task) :
    ∃ task', e'.tasks.lookup taskId = some task' ∧ LockHeld claim task' := by
  obtain ⟨⟨before, ahead⟩, step⟩ := step
  rw [← held.lockLedgers] at before fits
  have locked := lockExpired_eq_false (held.claimLedger.trans claimLedger) fits before
  cases Step.happens step with
  | called behaved _ _ effect =>
    exact (effect.taskMove behaved.1 formed taskId).lockHeld found held status claimer locked
      (ahead task found) behaved.2
  | failed | closed | received => exact ⟨task, found, held⟩

/--
A claim keeps its task to the keeper until the lock ends.

Whatever anybody else does before that, and before the deadline, the task stays claimed by the
keeper under the terms of the claim, and neither a takeover nor a cancellation goes through.
-/
theorem lock_window_exclusive (fresh : Fresh start) (run : ExactRun start e)
    (exact : ExactToken token) (unsigned : e.self ∉ inv.auths) (running : e.wasm = none)
    {begun : Env} (called : invoke token inv (.claimTask keeper taskId) e = (.ok value, begun)) :
    ∃ claim, begun.tasks.lookup taskId = some claim ∧ claim.status = .claimed ∧
      claim.claimer = some keeper ∧ claim.claimLedger = some e.sequence ∧
      (e.sequence + claim.lockLedgers ≤ u32Max →
        ∀ later, Relation.ReflTransGen
            (LockStep keeper taskId (e.sequence + claim.lockLedgers)) begun later →
          ∃ task, later.tasks.lookup taskId = some task ∧ LockHeld claim task ∧
            (later.sequence < e.sequence + claim.lockLedgers → ∀ token inv,
              (∀ other, ¬ Succeeds token inv (.claimTask other taskId) later) ∧
              ∀ owner, ¬ Succeeds token inv (.cancelTask owner taskId) later)) := by
  have claiming : ExactStep e begun := by
    simpa [called] using
      (Step.call token inv (.claimTask keeper taskId) e exact unsigned running : ExactStep _ _)
  have formed := ExactRun.wellFormed fresh (run.tail claiming)
  obtain ⟨finish, effect, rfl⟩ := invoke_ok called
  cases effect with
  | @claimTask _ _ task _ _ _ found =>
    refine ⟨{ task with
      status := .claimed, claimer := some keeper, claimLedger := some e.sequence }, by simp, rfl,
      rfl, rfl, fun fits later window => ?_⟩
    -- Every state on the way is well formed, so each step meets the lock in the form it needs.
    obtain ⟨-, kept, stored, held⟩ : WellFormed later ∧
        ∃ kept, later.tasks.lookup taskId = some kept ∧ LockHeld { task with
          status := .claimed, claimer := some keeper, claimLedger := some e.sequence } kept := by
      induction window with
      | refl => exact ⟨formed, _, by simp, .refl _⟩
      | @tail a b _ last ih =>
        obtain ⟨formed, task, found, held⟩ := ih
        have exact : ExactStep a b := last.2.mono fun _ _ behaved => behaved.1
        exact ⟨(ExactStep.steady exact).wellFormed formed,
          last.lockHeld formed rfl rfl rfl fits found held⟩
    refine ⟨kept, stored, held, fun before token inv => ?_⟩
    have locked : lockExpired later kept = false :=
      lockExpired_eq_false held.claimLedger (by rw [held.lockLedgers]; exact fits)
        (by rw [held.lockLedgers]; exact before)
    constructor
    · intro other succeeds
      obtain ⟨value, finish, effect⟩ := succeeds.effect
      cases effect with
      | claimTask _ _ here _ claimable =>
        cases stored.symm.trans here
        simp [Claimable, held.status, locked] at claimable
    · intro owner succeeds
      obtain ⟨value, finish, effect⟩ := succeeds.effect
      cases effect with
      | cancelTask _ here _ _ unlocked =>
        cases stored.symm.trans here
        have expired := unlocked held.status
        simp [locked] at expired

/-- A registry with one task that nobody has claimed. -/
def beforeClaim : Env :=
  genesis ⟨0⟩ ⟨1⟩ ⟨2⟩ 100 (hundredOf ⟨3⟩) 0 0

theorem beforeClaim_fresh : Fresh beforeClaim := genesis_fresh (by decide)

/-- A keeper claims the task, and the owner adds to its reward. -/
def claimScript : List Turn :=
  [.call [⟨3⟩] (.registerTask ⟨3⟩ sampleParams), .call [⟨4⟩] (.claimTask ⟨4⟩ 1),
    .call [⟨3⟩] (.increaseReward ⟨3⟩ 1 60)]

/-- After the script the task is still its claimer's, and the owner cannot cancel it. -/
theorem lock_window_exclusive_toppedUp :
    ∃ task, (play beforeClaim claimScript).tasks.lookup 1 = some task ∧
      task.claimer = some ⟨4⟩ ∧ 40 ≤ task.reward ∧ ∀ token inv,
        ¬ Succeeds token inv (.cancelTask ⟨3⟩ 1) (play beforeClaim claimScript) := by
  have registered := Playable.run
    (by decide : Playable beforeClaim (claimScript.take 1))
  have claimed : invoke exactTransfer (signedBy [⟨4⟩] 1000) (.claimTask ⟨4⟩ 1)
      (play beforeClaim (claimScript.take 1)) =
        (.ok .unit, play beforeClaim (claimScript.take 2)) := rfl
  obtain ⟨claim, found, -, claimer, -, window⟩ := lock_window_exclusive beforeClaim_fresh registered
    exactTransfer_exact (by decide) (by decide) claimed
  have terms : ((play beforeClaim (claimScript.take 2)).tasks.lookup 1).map (fun task =>
      (task.lockLedgers, task.deadline, task.reward)) = some (12, 100, 40) := by decide
  rw [found] at terms
  simp only [Option.map_some, Option.some.injEq, Prod.mk.injEq] at terms
  obtain ⟨lock, deadline, reward⟩ := terms
  have ends : (play beforeClaim (claimScript.take 1)).sequence + claim.lockLedgers = 12 := by
    rw [lock]
    decide
  -- The top-up is a step in the window, so the lock survives it.
  rw [ends] at window
  obtain ⟨task, stored, held, refused⟩ := window (by decide) (play beforeClaim claimScript)
    (.single ⟨⟨by decide, fun task here => by
      cases found.symm.trans here
      rw [deadline]
      decide⟩,
      .call exactTransfer (signedBy [⟨3⟩] 1000) (.increaseReward ⟨3⟩ 1 60) _
        ⟨exactTransfer_exact, by simp⟩ (by decide) (by decide)⟩)
  refine ⟨task, stored, held.claimer.trans claimer, reward ▸ held.reward, fun token inv => ?_⟩
  exact (refused (by decide) token inv).2 ⟨3⟩

end KeeperNetwork
