import KeeperNetwork.Lib.Program
import KeeperNetwork.Soroban.Ledger

/-! Contract programs: why the host rolls an invocation back, and the checks contracts make. -/

namespace Soroban

/-- Why the host rolled an invocation back. -/
inductive Fault (ε : Type) where
  | error (reason : ε)
  | unauthenticated
  | transferRefused
  | panicked
  deriving DecidableEq, Repr

/-- A program of a contract, which may fail. -/
abbrev Program (ε σ : Type) := EStateM (Fault ε) σ

variable {ε σ α : Type}

/-- Return early with an error when the condition holds. -/
def rejectIf (condition : Prop) [Decidable condition] (reason : ε) : Program ε σ Unit :=
  if condition then throw (.error reason) else pure ()

/-- Unwrap a value, returning an error when it is absent. -/
def okOr (value : Option α) (reason : ε) : Program ε σ α :=
  match value with
  | some found => pure found
  | none => throw (.error reason)

/-- Unwrap a value, panicking when it is absent. -/
def expect (value : Option α) : Program ε σ α :=
  match value with
  | some found => pure found
  | none => throw .panicked

/-- The host traps unless the address signed the invocation. -/
def requireAuth (auths : List Address) (address : Address) : Program ε σ Unit :=
  if address ∈ auths then pure () else throw .unauthenticated

variable {start finish : σ} {reason : ε} {failure : Fault ε}

@[simp] theorem rejectIf_returns {condition : Prop} [Decidable condition] {u : Unit} :
    (rejectIf condition reason).Returns start u finish ↔ ¬ condition ∧ finish = start := by
  unfold rejectIf
  split <;> simp [*]

variable {value : Option α}

@[simp] theorem okOr_returns {found : α} :
    (okOr value reason).Returns start found finish ↔ value = some found ∧ finish = start := by
  cases value with
  | none => simp [okOr]
  | some held =>
    simp only [okOr, EStateM.returns_pure, Option.some.injEq]
    exact and_congr_left' eq_comm

@[simp] theorem expect_returns {found : α} :
    (expect value : Program ε σ α).Returns start found finish ↔
      value = some found ∧ finish = start := by
  cases value with
  | none => simp [expect]
  | some held =>
    simp only [expect, EStateM.returns_pure, Option.some.injEq]
    exact and_congr_left' eq_comm

@[simp] theorem requireAuth_returns {auths : List Address} {address : Address} {u : Unit} :
    (requireAuth auths address : Program ε σ Unit).Returns start u finish ↔
      address ∈ auths ∧ finish = start := by
  unfold requireAuth
  split <;> simp [*]

@[simp] theorem rejectIf_fails {condition : Prop} [Decidable condition] :
    (rejectIf condition reason : Program ε σ Unit).Fails start failure ↔
      condition ∧ failure = .error reason := by
  unfold rejectIf
  split <;> simp [*]

@[simp] theorem okOr_fails :
    (okOr value reason : Program ε σ α).Fails start failure ↔
      value = none ∧ failure = .error reason := by
  cases value <;> simp [okOr]

@[simp] theorem requireAuth_fails {auths : List Address} {address : Address} :
    (requireAuth auths address : Program ε σ Unit).Fails start failure ↔
      address ∉ auths ∧ failure = .unauthenticated := by
  unfold requireAuth
  split <;> simp [*]

end Soroban
