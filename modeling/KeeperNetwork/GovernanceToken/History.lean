import KeeperNetwork.GovernanceToken.Effect

/-! The checkpoints of an account are the history of its balance. -/

namespace KeeperNetwork.GovernanceToken

open Soroban

def balanceIn (history : List Checkpoint) (ledger : Nat) : Int :=
  ((Checkpoints.inForce Checkpoint.ledger ledger history).map Checkpoint.balance).getD 0

/-- The stored checkpoints of an account are a history of its balance. -/
structure Keeps (e : Env) (id : Address) (history : List Checkpoint) : Prop where
  counted : e.countOf id = history.length
  stored : Checkpoints.Stored (fun index => e.checkpoints.lookup (id, index)) history
  ordered : Checkpoints.Ordered Checkpoint.ledger e.sequence history
  current : e.balance id = (history.head?.map Checkpoint.balance).getD 0

def Tracked (e : Env) : Prop := ∀ id, ∃ history, Keeps e id history

section Keeps

variable {e e' : Env} {id other : Address} {history : List Checkpoint} {amount : Int}

theorem Keeps.balanceAt (keeps : Keeps e id history) (ledger : Nat) :
    e.balanceAt id ledger = some (balanceIn history ledger) := by
  simp only [Env.balanceAt, keeps.counted, List.length_eq_zero_iff]
  split
  · rename_i empty
    simp [empty, balanceIn, Checkpoints.inForce]
  · -- The search ends at the checkpoint in force, or before the first one.
    obtain ⟨answer, ended, ⟨negative, nothing⟩ | ⟨nonneg, made, here, inForce⟩⟩ :=
      Checkpoints.searchLast_inForce keeps.stored keeps.ordered ledger
    · rw [ended]
      simp [balanceIn, nothing, negative]
    · rw [ended]
      simp [balanceIn, inForce, nonneg, here]

theorem Keeps.balance_later (keeps : Keeps e id history) {ledger : Nat}
    (now : e.sequence ≤ ledger) : balanceIn history ledger = e.balance id := by
  rw [keeps.current]
  cases history with
  | nil => rfl
  | cons latest earlier =>
    -- The latest checkpoint is not of the future, so it is in force.
    have made : latest.ledger ≤ ledger := Nat.le_trans keeps.ordered.1 now
    simp [balanceIn, Checkpoints.inForce, made]

theorem head_record (new : Checkpoint) (history : List Checkpoint) :
    (Checkpoints.record Checkpoint.ledger new history).head? = some new := by
  -- Whether it replaces the latest checkpoint or not, the new one is first.
  cases history with
  | nil => rfl
  | cons latest earlier =>
    simp only [Checkpoints.record]
    split <;> rfl

theorem count_insert (counts : Finmap fun _ : Address => Nat) (id other : Address) (count : Nat) :
    ((counts.insert id count).lookup other).getD 0 =
      if other = id then count else (counts.lookup other).getD 0 := by
  rw [Finmap.lookup_insert_eq]
  split <;> rfl

theorem Wrote.keeps_other (wrote : Wrote e id amount e') (apart : other ≠ id)
    (keeps : Keeps e other history) : Keeps e' other history := by
  have balance : e'.balance other = e.balance other := by rw [wrote.balance, if_neg apart]
  -- The checkpoints of different accounts are stored under different keys.
  have same (index position : Nat) : (other, index) ≠ (id, position) :=
    fun equal => apart (congrArg Prod.fst equal)
  cases wrote with
  | overwrite counted found now =>
    refine ⟨keeps.counted, keeps.stored.congr fun index below => ?_, keeps.ordered,
      balance.trans keeps.current⟩
    exact Finmap.lookup_insert_of_ne _ (same index _)
  | behind room fresh =>
    refine ⟨?_, keeps.stored.congr fun index below => ?_, keeps.ordered,
      balance.trans keeps.current⟩
    · rw [← keeps.counted]
      exact (count_insert _ _ _ _).trans (if_neg apart)
    · exact Finmap.lookup_insert_of_ne _ (same index _)

/-- A written balance is recorded in the history of its holder. -/
theorem Wrote.keeps (wrote : Wrote e id amount e') (keeps : Keeps e id history) :
    Keeps e' id (Checkpoints.record Checkpoint.ledger ⟨e.sequence, amount⟩ history) := by
  have balance : e'.balance id = amount := by rw [wrote.balance, if_pos rfl]
  have now : e'.sequence = e.sequence := wrote.sameTerms.sequence
  have ordered : Checkpoints.Ordered Checkpoint.ledger e'.sequence
      (Checkpoints.record Checkpoint.ledger ⟨e.sequence, amount⟩ history) :=
    now.symm ▸ keeps.ordered.record rfl
  have current := balance.trans
    (congrArg (fun head => (head.map Checkpoint.balance).getD 0)
      (head_record ⟨e.sequence, amount⟩ history)).symm
  -- It remains to see that the checkpoint is counted and stored where the record stands.
  cases wrote with
  | @overwrite last cp counted found same =>
    cases history with
    | nil => exact absurd (counted.symm.trans keeps.counted) (by simp)
    | cons latest earlier =>
      -- The latest checkpoint is of this ledger and gives way to the new one.
      obtain rfl : last = earlier.length := by
        have := counted.symm.trans keeps.counted
        simpa using this
      obtain rfl : cp = latest := Option.some.inj (found.symm.trans keeps.stored.1)
      have replaced : Checkpoints.record Checkpoint.ledger ⟨e.sequence, amount⟩ (cp :: earlier) =
          ⟨e.sequence, amount⟩ :: earlier := if_pos same
      rw [replaced] at ordered current ⊢
      refine ⟨counted, keeps.stored.2.push (fun index below => ?_) ?_, ordered, current⟩
      · exact Finmap.lookup_insert_of_ne _ fun equal =>
          absurd (congrArg Prod.snd equal) (Nat.ne_of_lt below)
      · exact Finmap.lookup_insert _
  | behind room fresh =>
    have added : Checkpoints.record Checkpoint.ledger ⟨e.sequence, amount⟩ history =
        ⟨e.sequence, amount⟩ :: history := by
      cases history with
      | nil => rfl
      | cons latest earlier => exact if_neg (fresh _ _ keeps.counted keeps.stored.1)
    rw [added] at ordered current ⊢
    refine ⟨?_, keeps.stored.push (fun index below => ?_) ?_, ordered, current⟩
    · rw [List.length_cons, ← keeps.counted]
      exact (count_insert _ _ _ _).trans (if_pos rfl)
    · exact Finmap.lookup_insert_of_ne _ fun equal =>
        absurd (congrArg Prod.snd equal) (keeps.counted ▸ Nat.ne_of_lt below)
    · rw [← keeps.counted]
      exact Finmap.lookup_insert _

end Keeps

/-- Balances, checkpoints and the ledger are the same in two states. -/
structure SameHoldings (e e' : Env) : Prop where
  sequence : e'.sequence = e.sequence
  balances : e'.balances = e.balances
  count : e'.checkpointCount = e.checkpointCount
  checkpoints : e'.checkpoints = e.checkpoints

theorem SameHoldings.keeps {e e' : Env} {id : Address} {history : List Checkpoint}
    (same : SameHoldings e e') (keeps : Keeps e id history) : Keeps e' id history := by
  -- The history is read from the four parts that are the same.
  obtain ⟨sequence, balances, count, checkpoints⟩ := same
  refine ⟨?_, checkpoints ▸ keeps.stored, sequence ▸ keeps.ordered, ?_⟩
  · rw [← keeps.counted, Env.countOf, count, Env.countOf]
  · rw [← keeps.current, Env.balance, balances, Env.balance]

theorem Keeps.later {e : Env} {id : Address} {history : List Checkpoint} {sequence timestamp : Nat}
    (keeps : Keeps e id history) (onward : e.sequence < sequence) :
    Keeps { e with sequence, timestamp } id history :=
  ⟨keeps.counted, keeps.stored, keeps.ordered.later (Nat.le_of_lt onward), keeps.current⟩

/-- Balances are written one after the other, with anything but holdings changing in between. -/
inductive Rewrites (e : Env) : Env → Prop
  | none {e' : Env} (same : SameHoldings e e') : Rewrites e e'
  | more {before after e' : Env} {id : Address} {amount : Int} (first : Rewrites e before)
      (write : Wrote before id amount after) (same : SameHoldings after e') : Rewrites e e'

/-- Writing balances leaves every history of the past. -/
theorem Rewrites.keeps {e e' : Env} (rewrites : Rewrites e e') {id : Address}
    {history : List Checkpoint} (keeps : Keeps e id history) :
    e'.sequence = e.sequence ∧ ∃ now, Keeps e' id now ∧
      ∀ ledger < e.sequence, balanceIn now ledger = balanceIn history ledger := by
  -- One write at a time, to this account or to another.
  induction rewrites with
  | none same => exact ⟨same.sequence, history, same.keeps keeps, fun _ _ => rfl⟩
  | @more before after e' written amount first write same ih =>
    obtain ⟨sequence, middle, kept, past⟩ := ih
    refine ⟨(same.sequence.trans write.sameTerms.sequence).trans sequence, ?_⟩
    -- A write in the present ledger does not change what was held before it.
    by_cases here : id = written
    · subst here
      refine ⟨_, same.keeps (write.keeps kept), fun ledger earlier => ?_⟩
      rw [balanceIn, Checkpoints.inForce_record, if_neg (by dsimp only; omega)]
      exact past ledger earlier
    · exact ⟨middle, same.keeps (write.keeps_other here kept), past⟩

/-- Every call writes balances one after the other. -/
theorem Effect.rewrites {e e' : Env} {auths : List Address} {call : Call}
    (effect : Effect e auths call e') : Rewrites e e' := by
  -- A call writes at most the four shares of the mint, or one debit and one credit.
  cases effect with
  | @minted admin _ _ _ _ _ _ _ _ fresh auth early dao team rest =>
    have started : Rewrites e { e with admin := some admin, initialized := true } :=
      .none ⟨rfl, rfl, rfl, rfl⟩
    exact (((started.more early (by constructor <;> rfl)).more dao
      (by constructor <;> rfl)).more team (by constructor <;> rfl)).more rest ⟨rfl, rfl, rfl, rfl⟩
  | approved | transferredNothing | transferredFromNothing | burnedNothing | burnedFromNothing =>
    exact .none ⟨rfl, rfl, rfl, rfl⟩
  | transferred auth funded debit credit | transferredFrom auth funded spent debit credit =>
    exact ((Rewrites.none ⟨rfl, rfl, rfl, rfl⟩).more debit ⟨rfl, rfl, rfl, rfl⟩).more credit
      ⟨rfl, rfl, rfl, rfl⟩
  | burned auth funded debit | burnedFrom auth funded spent debit =>
    exact (Rewrites.none ⟨rfl, rfl, rfl, rfl⟩).more debit ⟨rfl, rfl, rfl, rfl⟩

def Call.Moves : Call → Prop
  | .initializeToken .. => True
  | .approve .. => False
  | .transfer _ _ amount => 0 < amount
  | .transferFrom _ _ _ amount => 0 < amount
  | .burn _ amount => 0 < amount
  | .burnFrom _ _ amount => 0 < amount

instance (call : Call) : Decidable call.Moves := by
  cases call <;> unfold Call.Moves <;> infer_instance

theorem Effect.sameHoldings {e e' : Env} {auths : List Address} {call : Call}
    (effect : Effect e auths call e') (still : ¬ call.Moves) : SameHoldings e e' := by
  -- Whatever writes a balance moves a positive amount.
  cases effect with
  | minted => exact absurd trivial still
  | approved | transferredNothing | transferredFromNothing | burnedNothing | burnedFromNothing =>
    exact ⟨rfl, rfl, rfl, rfl⟩
  | transferred auth funded | transferredFrom auth funded | burned auth funded
  | burnedFrom auth funded => exact absurd funded.positive still

section Steps

variable {e e' : Env} {label : Label}

/-- A ledger never reopens. -/
theorem Step.sequence_le (step : Step e label e') : e.sequence ≤ e'.sequence := by
  -- Only the close of a ledger moves the sequence, and it moves it on.
  cases step with
  | called ran => exact Nat.le_of_eq (perform_effect ran).frame.1.symm
  | refused => exact Nat.le_refl _
  | closed onward => exact Nat.le_of_lt onward

/-- Every account keeps a history. -/
theorem Step.tracked (step : Step e label e') (tracked : Tracked e) : Tracked e' := by
  intro id
  obtain ⟨history, keeps⟩ := tracked id
  cases step with
  | called ran =>
    obtain ⟨-, now, kept, -⟩ := (perform_effect ran).rewrites.keeps keeps
    exact ⟨now, kept⟩
  | refused => exact ⟨history, keeps⟩
  | closed onward =>
    exact ⟨history, keeps.later onward⟩

/-- A past balance never changes, and one of the current ledger changes by moved tokens only. -/
theorem Step.balanceAt (step : Step e label e') (tracked : Tracked e) (id : Address) {ledger : Nat}
    (settled : ledger < e.sequence ∨ ∀ call, label = .call call → ¬ call.Moves) :
    e'.balanceAt id ledger = e.balanceAt id ledger := by
  obtain ⟨history, keeps⟩ := tracked id
  rw [keeps.balanceAt]
  cases step with
  | called ran =>
    -- Either the ledger is past, or the call moves nothing.
    rcases settled with past | still
    · obtain ⟨-, now, kept, same⟩ := (perform_effect ran).rewrites.keeps keeps
      rw [kept.balanceAt, same ledger past]
    · exact (((perform_effect ran).sameHoldings (still _ rfl)).keeps keeps).balanceAt ledger
  | refused => exact keeps.balanceAt ledger
  | closed onward => exact (keeps.later onward).balanceAt ledger

/-- At the current ledger the checkpoints give the current balance. -/
theorem Tracked.balance_now (tracked : Tracked e) (id : Address) :
    e.balanceAt id e.sequence = some (e.balance id) := by
  obtain ⟨history, keeps⟩ := tracked id
  rw [keeps.balanceAt, keeps.balance_later (Nat.le_refl _)]

theorem deployed_tracked (sequence timestamp : Nat) : Tracked (deployed sequence timestamp) :=
  fun _ => ⟨[], rfl, trivial, trivial, rfl⟩

end Steps

end KeeperNetwork.GovernanceToken
