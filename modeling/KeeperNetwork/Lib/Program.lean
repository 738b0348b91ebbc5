import Mathlib.Logic.Relation
import Mathlib.Tactic.Common

/-! Programs over a state that may fail: what a successful run says, and runs that roll back. -/

namespace EStateM

variable {ε σ α β : Type}

/-- Started in one state, the program returns the value and leaves the other state. -/
def Returns (program : EStateM ε σ α) (start : σ) (value : α) (finish : σ) : Prop :=
  program.run start = .ok value finish

variable {finish : σ}

@[simp] theorem returns_pure {start : σ} {given value : α} :
    (pure given : EStateM ε σ α).Returns start value finish ↔ value = given ∧ finish = start := by
  simp only [Returns, run_pure, Result.ok.injEq]
  exact ⟨fun same => ⟨same.1.symm, same.2.symm⟩, fun same => ⟨same.1.symm, same.2.symm⟩⟩

/-- A sequence returns exactly when its first part does and its second part does from there. -/
@[simp] theorem returns_bind {first : EStateM ε σ α} {rest : α → EStateM ε σ β} {start : σ}
    {value : β} :
    (first >>= rest).Returns start value finish ↔
      ∃ middle between, first.Returns start middle between ∧
        (rest middle).Returns between value finish := by
  simp only [Returns, run_bind]
  cases ran : first.run start with
  | ok middle between => simp
  | error failure between => simp

variable {program : EStateM ε σ α}

/-- Mapping over a result returns the mapped value of a returned one. -/
@[simp] theorem returns_map {change : α → β} {start : σ} {value : β} :
    (change <$> program).Returns start value finish ↔
      ∃ inner, program.Returns start inner finish ∧ value = change inner := by
  rw [map_eq_pure_bind, returns_bind]
  constructor
  · rintro ⟨inner, between, ran, returned⟩
    obtain ⟨rfl, rfl⟩ := returns_pure.mp returned
    exact ⟨inner, ran, rfl⟩
  · rintro ⟨inner, ran, rfl⟩
    exact ⟨inner, finish, ran, returns_pure.mpr ⟨rfl, rfl⟩⟩

/-- Reading the state returns it and leaves it alone. -/
@[simp] theorem returns_get {start value : σ} :
    (get : EStateM ε σ σ).Returns start value finish ↔ value = start ∧ finish = start := by
  simp only [Returns, run_get, Result.ok.injEq]
  exact ⟨fun same => ⟨same.1.symm, same.2.symm⟩, fun same => ⟨same.1.symm, same.2.symm⟩⟩

@[simp] theorem returns_modify {change : σ → σ} {start : σ} {value : PUnit} :
    (modify change : EStateM ε σ PUnit).Returns start value finish ↔ finish = change start := by
  simp only [Returns, run_modify, Result.ok.injEq]
  exact ⟨fun same => same.2.symm, fun same => ⟨trivial, same.symm⟩⟩

/-- Setting the state leaves that state. -/
@[simp] theorem returns_set {given start : σ} {value : PUnit} :
    (set given : EStateM ε σ PUnit).Returns start value finish ↔ finish = given := by
  simp only [Returns, run_set, Result.ok.injEq]
  exact ⟨fun same => same.2.symm, fun same => ⟨trivial, same.symm⟩⟩

@[simp] theorem returns_throw {failure : ε} {start : σ} {value : α} :
    (throw failure : EStateM ε σ α).Returns start value finish ↔ False := by
  refine iff_false_intro ?_
  intro ran
  cases ran

@[simp] theorem returns_ite {condition : Prop} [Decidable condition] {left right : EStateM ε σ α}
    {start : σ} {value : α} :
    (if condition then left else right).Returns start value finish ↔
      if condition then left.Returns start value finish else right.Returns start value finish := by
  split <;> rfl

/-- A program has at most one result. -/
theorem Returns.unique {start other : σ} {value another : α}
    (ran : program.Returns start value finish) (again : program.Returns start another other) :
    value = another ∧ finish = other := by
  have same := Eq.trans (Eq.symm ran) again
  simpa using same

def Fails (program : EStateM ε σ α) (start : σ) (failure : ε) : Prop :=
  ∃ finish, program.run start = .error failure finish

section Fails

variable {start : σ} {failure : ε}

@[simp] theorem fails_pure {value : α} : ¬ (pure value : EStateM ε σ α).Fails start failure := by
  simp [Fails]

/-- A sequence fails when its first part does, or its second part does from there. -/
@[simp] theorem fails_bind {first : EStateM ε σ α} {rest : α → EStateM ε σ β} :
    (first >>= rest).Fails start failure ↔ first.Fails start failure ∨
      ∃ middle between, first.Returns start middle between ∧
        (rest middle).Fails between failure := by
  simp only [Fails, Returns, run_bind]
  cases ran : first.run start with
  | ok middle between => simp
  | error reason between => simp

@[simp] theorem fails_map {change : α → β} :
    (change <$> program).Fails start failure ↔ program.Fails start failure := by
  rw [map_eq_pure_bind, fails_bind]
  simp only [fails_pure, and_false, exists_false, or_false]

@[simp] theorem fails_get : ¬ (get : EStateM ε σ σ).Fails start failure := by
  simp [Fails]

@[simp] theorem fails_modify {change : σ → σ} :
    ¬ (modify change : EStateM ε σ PUnit).Fails start failure := by
  simp [Fails]

@[simp] theorem fails_throw {reason : ε} :
    (throw reason : EStateM ε σ α).Fails start failure ↔ failure = reason := by
  constructor
  · rintro ⟨finish, ran⟩
    cases ran
    rfl
  · rintro rfl
    exact ⟨start, rfl⟩

end Fails

def commit (program : EStateM ε σ α) (start : σ) : Except ε α × σ :=
  match program.run start with
  | .ok value finish => (.ok value, finish)
  -- Every write made before the failure is discarded.
  | .error failure _ => (.error failure, start)

/-- A committed run either returned, or failed and changed nothing. -/
theorem commit_cases (program : EStateM ε σ α) (start : σ) :
    (∃ value finish, program.Returns start value finish ∧
      program.commit start = (.ok value, finish)) ∨
    (∃ failure finish, program.run start = .error failure finish ∧
      program.commit start = (.error failure, start)) := by
  unfold Returns commit
  cases program.run start with
  | ok value finish => exact .inl ⟨value, finish, rfl, rfl⟩
  | error failure finish => exact .inr ⟨failure, finish, rfl, rfl⟩

theorem commit_eq_ok {start : σ} {value : α} :
    program.commit start = (.ok value, finish) ↔ program.Returns start value finish := by
  unfold EStateM.commit Returns
  cases program.run start <;> simp

/-- A run is rolled back for a reason exactly when it failed for it. -/
theorem commit_eq_error {start : σ} {failure : ε} :
    (program.commit start).1 = .error failure ↔ program.Fails start failure := by
  unfold EStateM.commit Fails
  cases program.run start <;> simp

def succeeds (program : EStateM ε σ α) (start : σ) : Bool :=
  match program.run start with
  | .ok _ _ => true
  | .error _ _ => false

theorem returns_of_succeeds {start : σ} (succeeded : program.succeeds start = true) :
    ∃ value, program.Returns start value (program.commit start).2 := by
  unfold succeeds at succeeded
  unfold Returns commit
  cases ran : program.run start with
  | ok value finish => exact ⟨value, rfl⟩
  | error failure finish => rw [ran] at succeeded; cases succeeded

def answer (program : EStateM ε σ α) (start : σ) : Option α :=
  match program.run start with
  | .ok value _ => some value
  | .error _ _ => none

/-- A program that answers returns its answer, and its committed state is what it left. -/
theorem returns_of_answer {start : σ} {value : α} (answered : program.answer start = some value) :
    program.Returns start value (program.commit start).2 := by
  unfold answer at answered
  unfold Returns commit
  cases ran : program.run start with
  | ok found finish => rw [ran] at answered; rw [Option.some.inj answered]
  | error failure finish => rw [ran] at answered; cases answered

end EStateM
