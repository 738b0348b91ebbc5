import KeeperNetwork.Proofs.Reputation

/-! How claims end: every claim is still open, was executed, taken over, cancelled or expired. -/

namespace KeeperNetwork

open Soroban

def Call.claims (keeper : Address) : Call → Int
  | .claimTask claimer _ => if claimer = keeper then 1 else 0
  | _ => 0

/-- One when a call closes a task while the keeper holds its claim. -/
@[local simp] def Call.abandons (w : World) (keeper : Address) : Call → Int
  | .cancelTask _ taskId | .expireTask taskId =>
    (w.tasks.lookup taskId).elim 0 (Task.claimedBy keeper)
  | _ => 0

/-- The calls that can end a claim on a task. -/
def Call.endsClaim (taskId : Nat) : Call → Prop
  | .claimTask _ about | .executeTask _ about _ | .cancelTask _ about | .expireTask about =>
    about = taskId
  | _ => False

def claimsMade (keeper : Address) (history : List Entry) : Int :=
  receiptTotal (fun receipt => receipt.call.claims keeper) history

/-- The number of claims of a keeper that were closed by a cancellation or an expiry. -/
def abandonments (keeper : Address) (history : List Entry) : Int :=
  receiptTotal (fun receipt => receipt.call.abandons receipt.before keeper) history

/-- How many tasks a keeper holds a claim on. -/
def openClaims (w : World) (keeper : Address) : Int := w.tasks.total (Task.claimedBy keeper)

/-- How many claims of a keeper have ended. -/
def endedClaims (e : Env) (keeper : Address) : Int :=
  claimsMade keeper e.history - openClaims e keeper

/-- Two records show that a claim ended, and how. -/
inductive ShowsEnd (e : Env) (task : Task) (keeper : Address) (call : Call)
    (before after : ReputationRecord) : Prop where
  /-- The keeper executed the task, which counts as one success. -/
  | executed {taskId : Nat} {proof : Bytes} (called : call = .executeTask keeper taskId proof)
      (successes : after.successes = before.successes + 1)
      (missed : after.missedClaims = before.missedClaims)
  /-- The keeper let its lock or the deadline pass, which counts as one missed claim. -/
  | missed (unexecuted : ∀ executor taskId proof, call ≠ .executeTask executor taskId proof)
      (lapsed : lockExpired e task = true ∨ task.deadline ≤ e.timestamp)
      (successes : after.successes = before.successes)
      (missed : after.missedClaims = before.missedClaims + 1)

variable {token : Token} {inv : Invocation} {start e e' : Env} {call : Call} {value : Value}
  {keeper : Address} {taskId : Nat} {task task' : Task}

attribute [local simp] Task.claimedBy Call.displaces Call.executes

theorem Effect.openClaims (detached : Detached token) (formed : WellFormed e)
    (effect : Effect token inv e call value e') (keeper : Address) :
    KeeperNetwork.openClaims e' keeper = KeeperNetwork.openClaims e keeper +
      call.claims keeper - call.executes keeper - call.displaces e keeper -
      call.abandons e keeper := by
  rcases (effect.taskWrite detached formed).total (Task.claimedBy keeper)
    (fun _ _ => by simp [newTask]) formed with
    ⟨about, same⟩ | ⟨taskId, task, task', found, rewrite, total⟩
  · have elsewhere : call.claims keeper = 0 ∧ call.executes keeper = 0 ∧
        call.displaces e keeper = 0 ∧ call.abandons e keeper = 0 := by
      cases call <;> first | exact ⟨rfl, rfl, rfl, rfl⟩ | cases about
    obtain ⟨claims, executes, displaces, abandons⟩ := elsewhere
    rw [KeeperNetwork.openClaims, same, claims, executes, displaces, abandons,
      KeeperNetwork.openClaims]
    omega
  · rw [KeeperNetwork.openClaims, total, KeeperNetwork.openClaims]
    cases rewrite with
    | toppedUp | extended | reverified =>
      -- The claim of the task is what it was.
      simp [Call.claims]
    | claimed =>
      -- The new claim replaces the one before it, which is the keeper's own or another's.
      simp only [Call.claims, Call.executes, Call.displaces, Call.abandons, found,
        Option.elim_some]
      simp
      omega
    | executed claimed claimer =>
      simp [Call.claims, claimed, claimer]
    | cancelled | expired =>
      simp [Call.claims, found]

theorem DetachedRun.claims_balance (fresh : Fresh start) (run : DetachedRun start e)
    (keeper : Address) :
    claimsMade keeper e.history = openClaims e keeper + executions e keeper +
      displacements keeper e.history + abandonments keeper e.history := by
  refine DetachedRun.invariant (fun e => claimsMade keeper e.history =
      openClaims e keeper + executions e keeper +
      displacements keeper e.history + abandonments keeper e.history)
    ?_ (fun _ _ _ balanced => balanced) ?_ fresh ?_ run
  · intro token inv e e' call value detached formed effect history balanced
    have opened := effect.openClaims detached formed keeper
    have executed := effect.executions detached formed keeper
    simp only [claimsMade, displacements, abandonments, Env.record_history, Env.record_toWorld,
      history, receiptTotal_call] at balanced ⊢
    omega
  · intro e balances amount balanced
    simp only [claimsMade, displacements, abandonments, receiptTotal_outside]
    exact balanced
  · simp [claimsMade, displacements, abandonments, openClaims, executions, fresh.history,
      fresh.unused.1.tasks]

theorem Call.abandons_nonneg (w : World) (keeper : Address) (call : Call) :
    0 ≤ call.abandons w keeper := by
  unfold Call.abandons
  split
  · cases w.tasks.lookup _ with
    | none => exact le_rfl
    | some task => exact task.claimedBy_nonneg keeper
  · cases w.tasks.lookup _ with
    | none => exact le_rfl
    | some task => exact task.claimedBy_nonneg keeper
  · exact le_rfl

theorem openClaims_pos (found : e.tasks.lookup taskId = some task)
    (claimed : task.status = .claimed) (claimer : task.claimer = some keeper) :
    1 ≤ openClaims e keeper := by
  have held : e.tasks.weightAt (Task.claimedBy keeper) taskId = 1 := by
    rw [Finmap.weightAt_of_lookup _ found]
    simp [claimed, claimer]
  rw [← held]
  exact Finmap.weightAt_le_total (fun _ other _ => other.claimedBy_nonneg keeper) taskId

theorem openClaims_nonneg (w : World) (keeper : Address) : 0 ≤ openClaims w keeper :=
  Finmap.total_nonneg fun _ task _ => task.claimedBy_nonneg keeper

theorem Effect.executor_claimer {proof : Bytes}
    (effect : Effect token inv e (.executeTask keeper taskId proof) value e')
    (found : e.tasks.lookup taskId = some task) : task.claimer = some keeper := by
  cases effect with
  | executeTaskHeld _ _ stored _ claimer | executeTaskPaid _ _ stored _ claimer =>
    cases stored.symm.trans found
    exact claimer

/-- The end of a claim shows in the record unless it is abandoned. -/
theorem Effect.showsEnd_iff (detached : Detached token) (effect : Effect token inv e call value e')
    (ends : call.endsClaim taskId) (found : e.tasks.lookup taskId = some task)
    (claimed : task.status = .claimed) (claimer : task.claimer = some keeper)
    (room : (keeperReputation e keeper).successes < u64Max ∧
      (keeperReputation e keeper).missedClaims < u64Max) :
    ShowsEnd e task keeper call (keeperReputation e keeper)
        (keeperReputation e' keeper) ↔ call.abandons e keeper = 0 := by
  cases effect.reputationMove detached keeper with
  | untouched record unexecuted undisplaced =>
    -- A record that stays as it is shows nothing, and only closing the task leaves it alone.
    have silent : ¬ShowsEnd e task keeper call (keeperReputation e keeper)
        (keeperReputation e' keeper) := by
      rw [record]
      rintro (⟨_, more, _⟩ | ⟨_, _, _, more⟩) <;> omega
    refine iff_of_false silent ?_
    cases call with
    | claimTask other about =>
      cases ends
      simp [found, claimed, claimer] at undisplaced
    | executeTask executor about proof =>
      -- Only the claimer can execute, and for the keeper itself that would be a success.
      cases ends
      have same := claimer.symm.trans (effect.executor_claimer found)
      simp [Option.some.inj same] at unexecuted
    | cancelTask owner about | expireTask about =>
      cases ends
      simp [found, claimed, claimer]
    | _ => exact ends.elim
  | succeeded called record =>
    subst called
    refine iff_of_true (.executed rfl ?_ ?_) rfl
    · rw [record]
      exact saturatingAdd_eq (by omega)
    · rw [record]
      rfl
  | @missed other about taken called stored _ _ lapsed record =>
    subst called
    cases ends
    cases stored.symm.trans found
    refine iff_of_true (.missed ?_ (.inl lapsed) ?_ ?_) rfl
    · intro executor about proof same
      cases same
    · rw [record]
      rfl
    · rw [record]
      exact saturatingAdd_eq (by omega)

/--
The record of a keeper shows every claim of it that has ended exactly when none of them ended with
its task cancelled or expired.

From any state reached, the call that ends a claim shows in the record, as exactly one success or
exactly one missed claim, unless it cancels or expires the task.
-/
theorem claims_shown_iff (fresh : Fresh start) (run : DetachedRun start e) (keeper : Address)
    (few : claimsMade keeper e.history < 2 ^ 64) :
    (((keeperReputation e keeper).successes : Int) +
          (keeperReputation e keeper).missedClaims = endedClaims e keeper ↔
        ∀ receipt, .call receipt ∈ e.history →
          receipt.call.abandons receipt.before keeper = 0) ∧
    ∀ (token : Token) (inv : Invocation) (call : Call) (taskId : Nat) (task : Task),
      Detached token → Succeeds token inv call e → call.endsClaim taskId →
      e.tasks.lookup taskId = some task → task.status = .claimed → task.claimer = some keeper →
      (ShowsEnd e task keeper call (keeperReputation e keeper)
          (keeperReputation (invoke token inv call e).2.toWorld keeper) ↔
        call.abandons e keeper = 0) := by
  obtain ⟨successes, missed, -⟩ := DetachedRun.tracked fresh run keeper
  have balanced := DetachedRun.claims_balance fresh run keeper
  have abandoned : 0 ≤ abandonments keeper e.history :=
    receiptTotal_nonneg fun receipt _ => receipt.call.abandons_nonneg receipt.before keeper
  have opened := openClaims_nonneg e keeper
  have limit : (u64Max : Int) = 2 ^ 64 - 1 := by decide
  -- Every tracked action ended a claim, so the counters are exact.
  refine ⟨?_, ?_⟩
  · rw [← receiptTotal_eq_zero fun receipt _ => receipt.call.abandons_nonneg receipt.before keeper]
    change _ ↔ abandonments keeper e.history = 0
    unfold endedClaims
    omega
  · intro token inv call taskId task detached goes ends found claimed claimer
    obtain ⟨value, after, called⟩ := goes
    obtain ⟨finish, effect, rfl⟩ := invoke_ok called
    -- The claim that is about to end leaves room in both counters.
    have held := openClaims_pos found claimed claimer
    have shown := effect.showsEnd_iff detached ends found claimed claimer (by omega)
    rw [called]
    exact shown

/-- A keeper claims a task and holds it until its deadline, where the task expires. -/
def expiryScript : List Turn :=
  [.call [⟨3⟩] (.registerTask ⟨3⟩ sampleParams), .call [⟨4⟩] (.claimTask ⟨4⟩ 1), .close 100,
    .call [] (.expireTask 1)]

/-- After the expiry the keeper's only claim has ended, and its record shows nothing. -/
theorem claims_unshown_expired : ∃ start e, Fresh start ∧ ExactRun start e ∧
    endedClaims e ⟨4⟩ = 1 ∧ (keeperReputation e ⟨4⟩).successes = 0 ∧
    (keeperReputation e ⟨4⟩).missedClaims = 0 := by
  refine ⟨beforeRecords, play beforeRecords expiryScript, ?_, Playable.run (by decide), ?_⟩
  · exact genesis_fresh (by decide)
  · decide

/-- After an execution and a takeover both claims of the keeper show in its record. -/
theorem claims_shown_half :
    endedClaims (play beforeRecords reputationScript) ⟨4⟩ = 2 ∧
      ((keeperReputation (play beforeRecords reputationScript) ⟨4⟩).successes : Int) +
        (keeperReputation (play beforeRecords reputationScript) ⟨4⟩).missedClaims = 2 := by
  have ended : endedClaims (play beforeRecords reputationScript) ⟨4⟩ = 2 := by decide
  have fresh : Fresh beforeRecords := genesis_fresh (by decide)
  have run : ExactRun beforeRecords (play beforeRecords reputationScript) :=
    Playable.run (by decide)
  have none : abandonments ⟨4⟩ (play beforeRecords reputationScript).history = 0 := by decide
  have never := (receiptTotal_eq_zero fun receipt _ =>
    receipt.call.abandons_nonneg receipt.before ⟨4⟩).mp none
  have shown := (claims_shown_iff fresh run.detached ⟨4⟩ (by decide)).1.mpr never
  exact ⟨ended, shown.trans ended⟩

end KeeperNetwork
