import KeeperNetwork.Lib.Program

/-! Programs that neither read nor write the part of the state that a change touches. -/

namespace EStateM

variable {ε σ α β : Type}

def Result.mapState (change : σ → σ) : Result ε σ α → Result ε σ α
  | .ok value finish => .ok value (change finish)
  | .error failure finish => .error failure (change finish)

/--
The change makes no difference to a run of the program.

Started in the changed state it has the outcome it has otherwise, with the state changed alike.
-/
def IgnoresAt (change : σ → σ) (program : EStateM ε σ α) (start : σ) : Prop :=
  program.run (change start) = (program.run start).mapState change

/-- The change makes no difference to the program, wherever it starts. -/
def Ignores (change : σ → σ) (program : EStateM ε σ α) : Prop :=
  ∀ start, IgnoresAt change program start

variable {change : σ → σ} {start : σ}

/-- A sequence ignores a change that its first part, and then its second part, ignores. -/
theorem IgnoresAt.bind {first : EStateM ε σ α} {rest : α → EStateM ε σ β}
    (here : IgnoresAt change first start)
    (later : ∀ value finish, first.Returns start value finish →
      IgnoresAt change (rest value) finish) : IgnoresAt change (first >>= rest) start := by
  unfold IgnoresAt at here ⊢
  simp only [run_bind, here]
  cases ran : first.run start with
  | ok value finish => exact later value finish ran
  | error failure finish => rfl

variable {program : EStateM ε σ α}

theorem IgnoresAt.returns {finish : σ} {value : α} (ignores : IgnoresAt change program start)
    (ran : program.Returns start value finish) :
    program.Returns (change start) value (change finish) := by
  unfold Returns at ran ⊢
  rw [ignores, ran]
  rfl

/-- A change that is ignored is no reason to fail, nor to succeed. -/
theorem IgnoresAt.fails (ignores : IgnoresAt change program start) {failure : ε} :
    program.Fails (change start) failure ↔ program.Fails start failure := by
  unfold Fails
  rw [ignores]
  cases program.run start <;> simp [Result.mapState]

/-- Reading the state ignores a change that what is read does not show. -/
theorem IgnoresAt.get_bind {rest : σ → EStateM ε σ α} (unread : rest (change start) = rest start)
    (later : IgnoresAt change (rest start) start) : IgnoresAt change (get >>= rest) start := by
  unfold IgnoresAt at later ⊢
  simp only [run_bind, run_get, unread]
  exact later

theorem IgnoresAt.map (ignores : IgnoresAt change program start) (shape : α → β) :
    IgnoresAt change (shape <$> program) start := by
  exact ignores.bind fun _ _ _ => rfl

namespace Ignores

theorem pure (value : α) : Ignores change (Pure.pure value : EStateM ε σ α) := fun _ => rfl

theorem throw (failure : ε) : Ignores change (throw failure : EStateM ε σ α) := fun _ => rfl

theorem modify {write : σ → σ} (commutes : ∀ state, write (change state) = change (write state)) :
    Ignores change (modify write : EStateM ε σ PUnit) := fun start =>
  congrArg (Result.ok _) (commutes start)

theorem bind {first : EStateM ε σ α} {rest : α → EStateM ε σ β} (here : Ignores change first)
    (later : ∀ value, Ignores change (rest value)) : Ignores change (first >>= rest) :=
  fun start => (here start).bind fun value finish _ => later value finish

theorem map (ignores : Ignores change program) (shape : α → β) :
    Ignores change (shape <$> program) := fun start => (ignores start).map shape

/-- Reading the state ignores a change that what is read does not show. -/
theorem get_bind {rest : σ → EStateM ε σ α} (unread : ∀ state, rest (change state) = rest state)
    (later : ∀ state, Ignores change (rest state)) : Ignores change (get >>= rest) :=
  fun start => .get_bind (unread start) (later start start)

/-- A branch ignores what both its sides ignore. -/
theorem ite {condition : Prop} [Decidable condition] {left right : EStateM ε σ α}
    (yes : Ignores change left) (no : Ignores change right) :
    Ignores change (if condition then left else right) := by
  split
  · exact yes
  · exact no

end Ignores

end EStateM
