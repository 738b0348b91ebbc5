import KeeperNetwork.Proofs.Detached
import KeeperNetwork.Proofs.TaskStorage

/-! Whether a time lock ends while the storage it depends on is still live. -/

namespace KeeperNetwork

open Soroban

/-- Without a further call, the instance and an entry are both live at a ledger. -/
def Env.LiveAt (e : Env) (key : DataKey) (ledger : Nat) : Prop :=
  ledger ≤ e.instanceLiveUntil ∧ ∃ live, e.liveUntil key = some live ∧ ledger ≤ live

/-- The last ledger at which an entry is live right after it was written, before any renewal. -/
def Env.writtenUntil (e : Env) (inv : Invocation) (key : DataKey) : Nat :=
  (e.liveUntil key).getD (e.sequence + inv.freshTtl)

/-- A lifetime is short enough to be renewed now, or long enough to need no renewal. -/
def RenewedOrLong (now threshold unlock liveUntil : Nat) : Prop :=
  liveUntil - now ≤ threshold ∨ unlock ≤ liveUntil

/-- Before the call that starts a lock, no lifetime lies between the threshold and the lock. -/
def Env.CoversLock (e : Env) (inv : Invocation) (key : DataKey) (unlock : Nat) : Prop :=
  RenewedOrLong e.sequence instanceBumpThreshold unlock e.instanceLiveUntil ∧
    RenewedOrLong e.sequence keeperBalanceBumpThreshold unlock (e.writtenUntil inv key)

variable {token : Token} {inv : Invocation} {start e e' : Env} {call : Call} {value : Value}
  {keeper : Address}

theorem le_extendTtl_iff {now threshold ledgers unlock liveUntil : Nat}
    (within : unlock ≤ now + ledgers) :
    unlock ≤ extendTtl now threshold ledgers liveUntil ↔
      RenewedOrLong now threshold unlock liveUntil := by
  unfold extendTtl RenewedOrLong
  split <;> omega

theorem Effect.window (exact : ExactToken token) (effect : Effect token inv e call value e')
    (bounded : disputeWindowLedgers e ≤ maxExecutionDisputeWindowLedgers) :
    disputeWindowLedgers e' ≤ maxExecutionDisputeWindowLedgers := by
  cases effect with
  | setDisputeWindow _ legal => simpa [disputeWindowLedgers] using legal
  | batchRegisterTasks _ _ _ _ _ _ _ _ registered =>
    rw [registered.frame exact.detached]
    exact bounded
  | _ =>
    try obtain ⟨balances, -, rfl⟩ := exact.moves ‹_›
    simpa [disputeWindowLedgers] using bounded

theorem ExactRun.window (fresh : Fresh start) (run : ExactRun start e) :
    disputeWindowLedgers e ≤ maxExecutionDisputeWindowLedgers := by
  induction run with
  | refl =>
    obtain ⟨blank, inv, admin, rewardToken, bps, empty, -, ran⟩ := fresh
    simp [initializeRegistry] at ran
    obtain ⟨-, -, -, rfl⟩ := ran
    simp [disputeWindowLedgers, empty.disputeWindowLedgers]
  | tail _ last ih =>
    cases Step.happens last with
    | called exact _ _ effect =>
      have bounded := effect.window exact ih
      exact bounded
    | failed | closed | received => exact ih

theorem liveAt_iff {key : DataKey} {unlock : Nat}
    (bumped : e'.instanceLiveUntil = e.bump.instanceLiveUntil)
    (written : e'.liveUntil key = some (extendTtl e.sequence keeperBalanceBumpThreshold
      keeperBalanceBumpLedgers (e.writtenUntil inv key)))
    (within : unlock ≤ e.sequence + maxExecutionDisputeWindowLedgers) :
    e'.LiveAt key unlock ↔ e.CoversLock inv key unlock := by
  have instanceReaches : unlock ≤ e.sequence + instanceBumpLedgers := by
    simp only [maxExecutionDisputeWindowLedgers, instanceBumpLedgers] at within ⊢
    omega
  have entryReaches : unlock ≤ e.sequence + keeperBalanceBumpLedgers := instanceReaches
  simp [Env.LiveAt, Env.CoversLock, bumped, written, le_extendTtl_iff instanceReaches,
    le_extendTtl_iff entryReaches]

/--
A time lock is outlived by the storage it depends on exactly if the call that starts it finds
every lifetime short enough to be renewed, or long enough already.
-/
theorem time_lock_storage (fresh : Fresh start) (run : ExactRun start e)
    (called : invoke token inv call e = (.ok value, e')) :
    (∀ keeper amount, call = .initiateUnbond keeper amount → ∃ request,
      e'.unbondRequest.lookup keeper = some request ∧
      request.unlockLedger = saturatingAdd u32Max e.sequence unbondDelayLedgers ∧
      (e'.LiveAt (.unbondRequest keeper) request.unlockLedger ↔
        e.CoversLock inv (.unbondRequest keeper) request.unlockLedger)) ∧
    (∀ keeper taskId proof, call = .executeTask keeper taskId proof →
      0 < disputeWindowLedgers e → ∃ credit,
      pendingCreditsOf e' keeper = pendingCreditsOf e keeper ++ [credit] ∧
      credit.taskId = taskId ∧
      credit.unlockLedger = saturatingAdd u32Max e.sequence (disputeWindowLedgers e) ∧
      (e'.LiveAt (.pendingReward keeper) credit.unlockLedger ↔
        e.CoversLock inv (.pendingReward keeper) credit.unlockLedger)) := by
  obtain ⟨finish, effect, rfl⟩ := invoke_ok called
  constructor
  · rintro keeper amount rfl
    cases effect with
    | initiateUnbond =>
      refine ⟨⟨amount, saturatingAdd u32Max e.sequence unbondDelayLedgers⟩, by simp, rfl,
        liveAt_iff (by simp) (by simp [Env.granted, Env.writtenUntil]) ?_⟩
      exact saturatingAdd_le _ _ _
  · rintro keeper taskId proof rfl window
    have bounded := ExactRun.window fresh run
    cases effect with
    | executeTaskPaid _ _ _ _ _ _ _ _ closed => omega
    | @executeTaskHeld _ _ _ task keeperNet fee =>
      refine ⟨heldCredit e taskId keeperNet, by simp [pendingCreditsOf], rfl, rfl,
        liveAt_iff (by simp) (by simp [Env.granted, Env.writtenUntil]) ?_⟩
      exact (saturatingAdd_le _ _ _).trans (Nat.add_le_add_left bounded _)

/-- A registry in which a keeper is about to deposit a stake. -/
def beforeUnbond : Env :=
  genesis ⟨0⟩ ⟨1⟩ ⟨2⟩ 100 (hundredOf ⟨4⟩) 0 0

theorem beforeUnbond_fresh : Fresh beforeUnbond := genesis_fresh (by decide)

def afterDeposit : Env := play beforeUnbond [.call [⟨4⟩] (.stakeDeposit ⟨4⟩ 100)]

theorem afterDeposit_run : ExactRun beforeUnbond afterDeposit :=
  Playable.run (by decide : Playable beforeUnbond [.call [⟨4⟩] (.stakeDeposit ⟨4⟩ 100)])

/-- A request made at once is live at its unlock ledger. -/
theorem time_lock_storage_early :
    (invoke exactTransfer (signedBy [⟨4⟩] 1000) (.initiateUnbond ⟨4⟩ 60) afterDeposit).2.LiveAt
      (.unbondRequest ⟨4⟩) 86400 := by
  have called : invoke exactTransfer (signedBy [⟨4⟩] 1000) (.initiateUnbond ⟨4⟩ 60) afterDeposit =
      (.ok .unit,
        (invoke exactTransfer (signedBy [⟨4⟩] 1000) (.initiateUnbond ⟨4⟩ 60) afterDeposit).2) := rfl
  obtain ⟨request, -, unlock, live⟩ :=
    (time_lock_storage beforeUnbond_fresh afterDeposit_run called).1 ⟨4⟩ 60 rfl
  have ends : request.unlockLedger = 86400 := unlock.trans (by decide)
  rw [ends] at live
  -- The instance outlives the lock as it is, and the new entry is renewed.
  exact live.mpr ⟨.inr (by decide), .inl (by decide)⟩

/-- A request made after 30000 quiet ledgers waits longer than the instance lives. -/
theorem unbond_outlives_instance :
    ∃ start e e' : Env, ∃ request : UnbondRequest, Fresh start ∧ ExactRun start e ∧
      invoke exactTransfer (signedBy [⟨4⟩] 1000) (.initiateUnbond ⟨4⟩ 60) e = (.ok .unit, e') ∧
      e'.unbondRequest.lookup ⟨4⟩ = some request ∧
      ¬ e'.LiveAt (.unbondRequest ⟨4⟩) request.unlockLedger := by
  have quiet : ExactRun afterDeposit (afterDeposit.idle 30000) :=
    (pacedRun_idle (by decide : afterDeposit.sequence + 30000 ≤ u32Max) (by decide)).lift id
      fun _ _ step => step.1
  -- The instance has 70000 ledgers left, too many to be renewed and too few for the lock.
  exact ⟨beforeUnbond, afterDeposit.idle 30000, _, ⟨60, 116400⟩, beforeUnbond_fresh,
    afterDeposit_run.trans quiet, rfl, by decide +kernel,
    fun live => absurd live.1 (by decide +kernel)⟩

end KeeperNetwork
