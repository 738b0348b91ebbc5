import KeeperNetwork.Lib.Bookkeeping
import KeeperNetwork.Registry.Accounting

/-! Transfers that move the exact amount between two stretches of other activity. -/

namespace KeeperNetwork

open Soroban Bookkeeping

variable {token : Token} {inv : Invocation} {e e' : Env} {src dst : Address} {amount : Int}

theorem exactTransfer_returns :
    (exactTransfer src dst amount).Returns e () e' ↔
      ∃ balances, e.balances.move src dst amount = some balances ∧ e' = { e with balances } := by
  unfold exactTransfer EStateM.Returns EStateM.run
  cases moved : e.balances.move src dst amount with
  | none => simp [moved]
  | some balances => simp [moved, eq_comm]

/--
A token whose successful transfers move the exact amount.

Before and after the move it may do more, as long as that is related as given.
-/
def Wraps (around : Env → Env → Prop) (token : Token) : Prop :=
  ∀ src dst amount e e', (token src dst amount).Returns e () e' →
    ∃ before after, around e before ∧ (exactTransfer src dst amount).Returns before () after ∧
      around after e'

theorem ExactToken.wraps (exact : ExactToken token) : Wraps Eq token :=
  fun _ _ _ e e' moved => ⟨e, e', rfl, exact _ _ _ _ _ moved, rfl⟩

theorem ExactToken.moves (exact : ExactToken token)
    (moved : (token src dst amount).Returns e () e') :
    ∃ balances, e.balances.move src dst amount = some balances ∧ e' = { e with balances } :=
  exactTransfer_returns.mp (exact _ _ _ _ _ moved)

variable {around : Env → Env → Prop}

theorem Wraps.mono {wider : Env → Env → Prop} (wraps : Wraps around token)
    (looser : ∀ a b, around a b → wider a b) : Wraps wider token := by
  intro src dst amount e e' moved
  obtain ⟨before, after, first, exact, second⟩ := wraps _ _ _ _ _ moved
  exact ⟨before, after, looser _ _ first, exact, looser _ _ second⟩

/-- Every successful transfer of the token relates the states it starts and ends in. -/
def Across (around : Env → Env → Prop) (token : Token) : Prop :=
  ∀ ⦃src dst : Address⦄ ⦃amount : Int⦄ ⦃a b : Env⦄,
    (token src dst amount).Returns a () b → around a b

/-- A transitive relation that ignores balances holds across a whole transfer. -/
theorem Wraps.across (wraps : Wraps around token)
    (trans : ∀ a b c, around a b → around b c → around a c)
    (ignores : ∀ (a : Env) (balances : Balances), around a { a with balances }) :
    Across around token := by
  -- The move itself changes balances only, so it can be glued to what surrounds it.
  intro src dst amount e e' moved
  obtain ⟨before, after, first, exact, second⟩ := wraps _ _ _ _ _ moved
  obtain ⟨balances, -, rfl⟩ := exactTransfer_returns.mp exact
  exact trans _ _ _ first (trans _ _ _ (ignores _ _) second)

theorem ExactToken.across (exact : ExactToken token)
    (ignores : ∀ (a : Env) (balances : Balances), around a { a with balances }) :
    Across around token := by
  intro src dst amount e e' moved
  obtain ⟨balances, -, rfl⟩ := exact.moves moved
  exact ignores _ _

/-- A stand-in for the token that accepts every transfer and moves nothing. -/
def skipTransfer : Token := fun _ _ _ => pure ()

/-- The stand-in changes nothing. -/
@[simp] theorem skipTransfer_returns : (skipTransfer src dst amount).Returns e () e' ↔ e' = e := by
  simp [skipTransfer]

/-- The part of an account's stock that the registry's history does not explain. -/
def Env.unexplained (account : Account World Entry) (e : Env) : Int :=
  account.unexplained e e.history

def Env.record (e' : Env) (before : World) (call : Call) (value : Value) : Env :=
  { e' with history := .call ⟨before, call, value, e'⟩ :: e'.history }

variable {before : World} {call : Call} {value : Value}

@[simp] theorem Env.record_toWorld : (e.record before call value).toWorld = e.toWorld := rfl

@[simp] theorem Env.record_history :
    (e.record before call value).history =
      .call ⟨before, call, value, e⟩ :: e.history := rfl

theorem Env.mem_record : .call ⟨before, call, value, e⟩ ∈ (e.record before call value).history :=
  List.mem_cons_self

theorem Env.record_keeps (history : e'.history = e.history) :
    ∀ entry ∈ e.history, entry ∈ (e'.record before call value).history := by
  intro entry old
  rw [Env.record_history, history]
  exact List.mem_cons_of_mem _ old

theorem Env.unexplained_record (account : Account World Entry) (before : World) (call : Call)
    (value : Value) :
    (e.record before call value).unexplained account =
      e.unexplained account - account.flow (.call ⟨before, call, value, e⟩) := by
  simp only [Env.unexplained, Account.unexplained, Env.record_toWorld, Env.record_history,
    Account.booked_cons]
  omega

theorem recordedCall_returns :
    (recordedCall token inv call).Returns e value e' ↔
      ∃ finish, (runCall token inv call).Returns e value finish ∧
        e' = finish.record e call value := by
  simp only [recordedCall, EStateM.returns_bind, EStateM.returns_get, EStateM.returns_modify,
    EStateM.returns_pure]
  constructor
  · rintro ⟨_, _, ⟨rfl, rfl⟩, _, finish, ran, _, _, rfl, rfl, rfl⟩
    exact ⟨finish, ran, rfl⟩
  · rintro ⟨finish, ran, rfl⟩
    exact ⟨_, _, ⟨rfl, rfl⟩, _, finish, ran, (), _, rfl, rfl, rfl⟩

theorem invoke_ok (called : invoke token inv call e = (.ok value, e')) :
    ∃ finish, Effect token inv e call value finish ∧
      e' = finish.record e call value := by
  obtain ⟨finish, ran, rfl⟩ := recordedCall_returns.mp (EStateM.commit_eq_ok.mp called)
  exact ⟨finish, runCall_effect ran, rfl⟩

theorem invoke_error {failure : Failure} (called : invoke token inv call e = (.error failure, e')) :
    e' = e := by
  rcases (recordedCall token inv call).commit_cases e with
    ⟨value, finish, -, committed⟩ | ⟨reason, finish, -, rolledBack⟩
  · cases committed.symm.trans called
  · cases rolledBack.symm.trans called
    rfl

theorem invoke_fails {failure : Failure} :
    (invoke token inv call e).1 = .error failure ↔ (runCall token inv call).Fails e failure := by
  rw [invoke, EStateM.commit_eq_error]
  simp [recordedCall]

theorem Succeeds.effect (succeeds : Succeeds token inv call e) :
    ∃ value finish, Effect token inv e call value finish := by
  obtain ⟨value, e', called⟩ := succeeds
  obtain ⟨finish, effect, -⟩ := invoke_ok called
  exact ⟨value, finish, effect⟩

/-- An invocation either had an effect that was recorded, or changed nothing. -/
theorem invoke_cases (token : Token) (inv : Invocation) (call : Call) (e : Env) :
    (∃ value finish, Effect token inv e call value finish ∧
      (invoke token inv call e).2 = finish.record e call value) ∨
    (invoke token inv call e).2 = e := by
  rcases (recordedCall token inv call).commit_cases e with
    ⟨value, _, ran, committed⟩ | ⟨_, _, _, rolledBack⟩
  · obtain ⟨finish, called, rfl⟩ := recordedCall_returns.mp ran
    exact .inl ⟨value, finish, runCall_effect called, by rw [invoke, committed]⟩
  · exact .inr (by rw [invoke, rolledBack])

end KeeperNetwork
