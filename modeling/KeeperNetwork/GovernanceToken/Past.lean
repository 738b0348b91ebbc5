import KeeperNetwork.GovernanceToken.History
import KeeperNetwork.GovernanceToken.Supply

/-! Reading a past balance gives what the last operation until then left behind. -/

namespace KeeperNetwork.GovernanceToken

open Soroban

/-- A step that remembers the state it left behind. -/
def Recorded (before : Env) (entry : Label × Env) (after : Env) : Prop :=
  Step before entry.1 after ∧ entry.2 = after

/-- The states that the operations among the steps left behind, latest first. -/
def operations (entries : List (Label × Env)) : List Env :=
  entries.filterMap fun entry =>
    match entry.1 with
    | .call _ => some entry.2
    | .refused _ | .close .. => none

/-- The balance after the last operation at a ledger or before it, or zero before the first. -/
def balanceAfter (states : List Env) (id : Address) (ledger : Nat) : Int :=
  ((states.find? fun state => state.sequence ≤ ledger).map (Env.balance · id)).getD 0

/-- The checkpoints of an account agree with what the operations left behind. -/
def Agrees (e : Env) (states : List Env) : Prop :=
  ∀ id, ∃ history, Keeps e id history ∧
    ∀ ledger, balanceIn history ledger = balanceAfter states id ledger

theorem balanceAfter_cons (state : Env) (states : List Env) (id : Address) (ledger : Nat) :
    balanceAfter (state :: states) id ledger =
      if state.sequence ≤ ledger then state.balance id else balanceAfter states id ledger := by
  by_cases made : state.sequence ≤ ledger <;> simp [balanceAfter, made]

theorem Recorded.agrees {before after : Env} {entry : Label × Env} {entries : List (Label × Env)}
    (step : Recorded before entry after) (agrees : Agrees before (operations entries)) :
    Agrees after (operations (entry :: entries)) := by
  intro id
  obtain ⟨history, keeps, same⟩ := agrees id
  obtain ⟨label, left⟩ := entry
  obtain ⟨step, rfl⟩ := step
  cases step with
  | called ran =>
    obtain ⟨sequence, now, kept, past⟩ := (perform_effect ran).rewrites.keeps keeps
    refine ⟨now, kept, fun ledger => ?_⟩
    change _ = balanceAfter (left :: operations entries) id ledger
    rw [balanceAfter_cons]
    split
    · -- From the operation's ledger on the account has what the operation left it.
      exact kept.balance_later ‹_›
    · -- Before that ledger neither the history nor the last operation has changed.
      have now : left.sequence = before.sequence := sequence
      rw [past ledger (by omega), same]
  | refused => exact ⟨history, keeps, same⟩
  | closed onward =>
    exact ⟨history, ⟨keeps.counted, keeps.stored, keeps.ordered.later (Nat.le_of_lt onward),
      keeps.current⟩, same⟩

theorem Trace.agrees {sequence timestamp : Nat} {entries : List (Label × Env)} {e : Env}
    (run : Trace Recorded (deployed sequence timestamp) entries e) :
    Agrees e (operations entries) := by
  induction run with
  | nil => exact fun _ => ⟨[], ⟨rfl, trivial, trivial, rfl⟩, fun _ => rfl⟩
  | snoc _ last ih => exact last.agrees ih

theorem Turn.Legal.recorded {e : Env} {turn : Turn} (legal : turn.Legal e) :
    Recorded e (turn.label, turn.next e) (turn.next e) := ⟨legal.step, rfl⟩

/--
The checkpoint history is exact.

In every run every checkpoint below the count is stored, at a later ledger than those before it.
Reading a balance at a ledger always ends, and gives what the last operation until that ledger
left behind, which at the current ledger is the balance.
-/
theorem checkpoints_exact {sequence timestamp : Nat} {entries : List (Label × Env)} {e : Env}
    (run : Trace Recorded (deployed sequence timestamp) entries e) (id : Address) :
    (∀ index < e.countOf id, ∃ cp, e.checkpoints.lookup (id, index) = some cp) ∧
      (∀ first second earlier later, first < second → second < e.countOf id →
        e.checkpoints.lookup (id, first) = some earlier →
        e.checkpoints.lookup (id, second) = some later → earlier.ledger < later.ledger) ∧
      (∀ ledger, e.balanceAt id ledger = some (balanceAfter (operations entries) id ledger)) ∧
      e.balanceAt id e.sequence = some (e.balance id) := by
  -- One history describes the stored checkpoints and the operations at once.
  obtain ⟨history, keeps, same⟩ := Trace.agrees run id
  rw [keeps.counted]
  refine ⟨?_, ?_, ?_, ?_⟩
  · intro index below
    obtain ⟨cp, -, here⟩ := keeps.stored.get below
    exact ⟨cp, here⟩
  · intro first second earlier later before below left right
    exact keeps.stored.moment_lt keeps.ordered below before left right
  · intro ledger
    rw [keeps.balanceAt, same]
  · rw [keeps.balanceAt, keeps.balance_later (Nat.le_refl _)]

/-- A transfer in the ledger of the mint and one in a later ledger are read back at every ledger. -/
theorem checkpoints_exact_transfers :
    ∃ e entries, Trace Recorded (deployed 1 0) entries e ∧ e.balanceAt ⟨1⟩ 0 = some 0 ∧
      e.balanceAt ⟨1⟩ 6 = some (allocEarlyKeepers - 3) ∧
      e.balanceAt ⟨1⟩ 7 = some (allocEarlyKeepers - 8) := by
  have mint : Turn.Legal (deployed 1 0)
      (.call [⟨0⟩] (.initializeToken ⟨0⟩ ⟨1⟩ ⟨2⟩ ⟨3⟩ ⟨4⟩)) := by decide
  have send : Turn.Legal minted (.call [⟨1⟩] (.transfer ⟨1⟩ ⟨2⟩ 3)) := by decide
  have close : Turn.Legal (Turn.next minted (.call [⟨1⟩] (.transfer ⟨1⟩ ⟨2⟩ 3))) (.close 7 9) := by
    decide
  have again : Turn.Legal (Turn.next (Turn.next minted (.call [⟨1⟩] (.transfer ⟨1⟩ ⟨2⟩ 3)))
      (.close 7 9)) (.call [⟨1⟩] (.transfer ⟨1⟩ ⟨2⟩ 5)) := by decide
  have run := (((Trace.nil.snoc mint.recorded).snoc send.recorded).snoc close.recorded).snoc
    again.recorded
  obtain ⟨-, -, read, -⟩ := checkpoints_exact run ⟨1⟩
  refine ⟨_, _, run, ?_, ?_, ?_⟩
  · rw [read]; decide
  · rw [read]; decide
  · rw [read]; decide

end KeeperNetwork.GovernanceToken
