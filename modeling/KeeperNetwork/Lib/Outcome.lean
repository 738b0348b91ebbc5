import KeeperNetwork.Lib.Program

/-! Conditions on both outcomes of a program that keeps what it wrote before it failed. -/

namespace EStateM

variable {ε σ α β ι : Type}

/-- The state a program leaves behind, whether it returns or fails. -/
def after (program : EStateM ε σ α) (start : σ) : σ :=
  match program.run start with
  | .ok _ finish => finish
  | .error _ finish => finish

/-- Whichever way the program ends, the condition for that way holds. -/
def Ends (program : EStateM ε σ α) (start : σ) (returned : α → σ → Prop)
    (failed : ε → σ → Prop) : Prop :=
  match program.run start with
  | .ok value finish => returned value finish
  | .error failure finish => failed failure finish

section Rules

variable {start : σ} {returned : α → σ → Prop} {failed : ε → σ → Prop}

/-- A returned value meets its condition in the state it was returned in. -/
@[simp] theorem ends_pure {value : α} :
    (pure value : EStateM ε σ α).Ends start returned failed ↔ returned value start := Iff.rfl

@[simp] theorem ends_throw {failure : ε} :
    (throw failure : EStateM ε σ α).Ends start returned failed ↔ failed failure start := Iff.rfl

/-- A sequence ends as its second part does, or as its first part does when that fails. -/
@[simp] theorem ends_bind {first : EStateM ε σ α} {rest : α → EStateM ε σ β}
    {returned : β → σ → Prop} :
    (first >>= rest).Ends start returned failed ↔
      first.Ends start (fun value middle => (rest value).Ends middle returned failed) failed := by
  simp only [Ends, run_bind]
  cases first.run start <;> rfl

/-- Reading the state returns it. -/
@[simp] theorem ends_get {returned : σ → σ → Prop} :
    (get : EStateM ε σ σ).Ends start returned failed ↔ returned start start := Iff.rfl

@[simp] theorem ends_modify {change : σ → σ} {returned : PUnit → σ → Prop} :
    (modify change : EStateM ε σ PUnit).Ends start returned failed ↔
      returned ⟨⟩ (change start) := Iff.rfl

variable {program : EStateM ε σ α}

/-- Weaker conditions are easier to meet. -/
theorem Ends.mono {returned' : α → σ → Prop} {failed' : ε → σ → Prop}
    (ends : program.Ends start returned failed)
    (onReturn : ∀ value finish, returned value finish → returned' value finish)
    (onFailure : ∀ failure finish, failed failure finish → failed' failure finish) :
    program.Ends start returned' failed' := by
  unfold Ends at ends ⊢
  cases ran : program.run start with
  | ok value finish =>
    rw [ran] at ends
    exact onReturn value finish ends
  | error failure finish =>
    rw [ran] at ends
    exact onFailure failure finish ends

theorem Ends.of_returns {value : α} {finish : σ} (ends : program.Ends start returned failed)
    (ran : program.Returns start value finish) : returned value finish := by
  unfold Ends at ends
  rw [ran] at ends
  exact ends

theorem Ends.of_error {failure : ε} {finish : σ} (ends : program.Ends start returned failed)
    (ran : program.run start = .error failure finish) : failed failure finish := by
  unfold Ends at ends
  rw [ran] at ends
  exact ends

theorem Ends.fails (ends : program.Ends start (fun _ _ => False) failed) :
    ∃ failure finish, program.run start = .error failure finish ∧ failed failure finish := by
  unfold Ends at ends
  cases ran : program.run start with
  | ok value finish =>
    rw [ran] at ends
    exact ends.elim
  | error failure finish =>
    rw [ran] at ends
    exact ⟨failure, finish, rfl, ends⟩

theorem Ends.after {holds : σ → Prop}
    (ends : program.Ends start (fun _ finish => holds finish) fun _ finish => holds finish) :
    holds (program.after start) := by
  unfold Ends at ends
  unfold EStateM.after
  cases ran : program.run start <;> rw [ran] at ends <;> exact ends

/--
Going over a list keeps an invariant that tells which items were gone over.

A step that fails ends the whole walk with its failure.
-/
theorem ends_foldlM {step : α → ι → EStateM ε σ α} {items : List ι} (holds : List ι → α → σ → Prop)
    (kept : ∀ seen item rest, items = seen ++ item :: rest → ∀ value middle,
      holds seen value middle →
      (step value item).Ends middle (fun next finish => holds (seen ++ [item]) next finish) failed)
    (value : α) (initially : holds [] value start) :
    (items.foldlM step value).Ends start (fun last finish => holds items last finish) failed := by
  -- The invariant is carried from any split of the list to its end.
  suffices carried : ∀ (rest seen : List ι), items = seen ++ rest → ∀ value middle,
      holds seen value middle →
      (rest.foldlM step value).Ends middle (fun last finish => holds items last finish) failed from
    carried items [] rfl value start initially
  intro rest
  induction rest with
  | nil =>
    intro seen split value middle held
    simpa [split] using held
  | cons item rest ih =>
    intro seen split value middle held
    rw [List.foldlM_cons, ends_bind]
    exact (kept seen item rest split value middle held).mono
      (fun next finish held' => ih (seen ++ [item]) (by simpa using split) next finish held')
      fun _ _ bad => bad

end Rules

end EStateM
