import KeeperNetwork.Indexer.Leaderboard
import KeeperNetwork.Proofs.Reputation

/-! The all-time leaderboard shows what the registry's own table of tasks says of its keepers. -/

namespace KeeperNetwork.Indexer

open Soroban

/--
What the registry says of a keeper, as a line of the board.

The registry's events tell no reputation, so that column stays at its default.
-/
def figures (texts : TextForms) (e : Env) (keeper : Address) : Totals where
  keeper := texts keeper
  executions := (executions e keeper).toNat
  totalReward := earnedBy keeper e.history
  reputation := 0

/-- The board shows keepers of the registry with their figures, and leaves out only lower ones. -/
structure Faithful (texts : TextForms) (e : Env) (rankBy : RankBy) (limit : Nat)
    (board : Leaderboard) : Prop where
  sound : ∀ entry ∈ board.entries, ∃ keeper, 0 < executions e keeper ∧
    entry.shown = figures texts e keeper
  complete : ∀ keeper, 0 < executions e keeper →
    (∃ entry ∈ board.entries, entry.shown = figures texts e keeper) ∨
      board.entries.length = limit ∧
        ∀ entry ∈ board.entries, Precedes rankBy entry.shown (figures texts e keeper)

@[local simp] def EventPayload.executed : EventPayload → Int
  | .taskExecuted .. => 1
  | _ => 0

variable {texts : TextForms} {start e : Env} {db : Db} {row : IndexedEvent}

attribute [local simp] EventPayload.naming EventPayload.keeper EventPayload.eventType Event.payload
  Call.announces Call.executes eventTotal

theorem executed_announces (injective : Function.Injective texts) (keeper : Address)
    (call : Call) (w : World) (value : Value) :
    eventTotal (fun event =>
        (event.payload texts).elim 0 (EventPayload.naming (texts keeper) EventPayload.executed))
      (call.announces w value) = call.executes keeper := by
  -- Only an execution announces one, under the name of its keeper.
  cases call with
  | executeTask executor =>
    by_cases same : executor = keeper
    · simp [same]
    · simp [injective.ne same, same]
  | withdrawRewards | withdrawStake | slash => cases value <;> simp [Function.comp_def]
  | _ => simp [Filing.event, Function.comp_def]

theorem DetachedRun.executions (fresh : Fresh start) (run : DetachedRun start e)
    (keeper : Address) : KeeperNetwork.executions e keeper =
      receiptTotal (fun receipt => receipt.call.executes keeper) e.history := by
  refine DetachedRun.invariant (fun e => KeeperNetwork.executions e keeper = receiptTotal
      (fun receipt => receipt.call.executes keeper) e.history) ?_ (fun _ _ _ => id) ?_ fresh ?_ run
  · intro token inv e e' call value detached formed effect history counted
    have executed := effect.executions detached formed keeper
    simp only [Env.record_toWorld, executed, counted, Env.record_history, history,
      receiptTotal_call]
    exact Int.add_comm _ _
  · intro e balances amount counted
    rw [receiptTotal_outside]
    exact counted
  · simp [KeeperNetwork.executions, fresh.unused.1.tasks, fresh.history]

theorem sum_work {weight : EventPayload → Int}
    (idle : ∀ payload, payload.eventType ≠ .taskExecuted → weight payload = 0) (name : String) :
    ((db.workOf none name).map fun row => weight row.payload).sum =
      ((db.events.map (·.payload)).map (EventPayload.naming name weight)).sum := by
  -- A row that is left out weighs nothing under the name.
  unfold Db.workOf Db.executionsSince
  induction db.events with
  | nil => rfl
  | cons row rows ih =>
    obtain ⟨⟨ledger, closed, hash, index, payload⟩, cursor⟩ := row
    by_cases executed : payload.eventType = .taskExecuted
    · cases payload <;> cases executed
      next taskId keeper netReward proof =>
      by_cases named : keeper = name
      · simp_all [IndexedEvent.keeperColumn]
      · simp_all [IndexedEvent.keeperColumn]
    · simp_all

/-- The rows of a store tell the events of the registry. -/
def Told (texts : TextForms) (e : Env) (db : Db) : Prop :=
  db.events.map (·.payload) = e.events.filterMap (Event.payload texts)

namespace Told

variable (told : Told texts e db)

include told

theorem event (member : row ∈ db.events) :
    ∃ event ∈ e.events, event.payload texts = some row.payload := by
  have listed : row.payload ∈ db.events.map (·.payload) := List.mem_map_of_mem member
  rw [told] at listed
  exact List.mem_filterMap.mp listed

theorem keeper (member : row ∈ db.executionsSince none) :
    ∃ keeper, row.keeperColumn = texts keeper := by
  have executed := executed_of_mem member
  obtain ⟨event, -, same⟩ := told.event (List.mem_of_mem_filter member)
  obtain ⟨⟨ledger, closed, hash, index, payload⟩, cursor⟩ := row
  -- An execution names the text form of its keeper.
  cases event <;> cases same <;> cases executed
  exact ⟨_, rfl⟩

theorem reputations : db.reputations = ∅ := by
  -- No event of the registry becomes a row that tells a reputation.
  have none : (db.events.filter fun row => row.payload.eventType = .reputationUpdated ∧
      row.payload.keeper.isSome) = [] := by
    refine List.filter_eq_nil_iff.mpr fun row member => ?_
    obtain ⟨event, -, same⟩ := told.event member
    obtain ⟨⟨ledger, closed, hash, index, payload⟩, cursor⟩ := row
    cases event <;> cases same <;> simp
  rw [Db.reputations, none]
  rfl

variable (injective : Function.Injective texts) (fresh : Fresh start) (run : DetachedRun start e)

include injective fresh run

/-- A keeper has as many rows of work as it has executed tasks. -/
theorem length_work (keeper : Address) :
    ((db.workOf none (texts keeper)).length : Int) = executions e keeper := by
  -- Every row of work counts one, so the rows are as many as the executions they announce.
  have each : ∀ row ∈ db.workOf none (texts keeper), row.payload.executed = 1 := by
    intro row member
    have executed := executed_of_mem (List.mem_of_mem_filter member)
    cases payload : row.payload <;> rw [payload] at executed <;> cases executed
    rfl
  have summed := @sum_work db EventPayload.executed
    (fun payload other => by cases payload <;> first | rfl | exact absurd rfl other) (texts keeper)
  rw [told, DetachedRun.payloads (fun _ _ _ => rfl) (executed_announces injective keeper) fresh run,
    List.map_congr_left each] at summed
  rw [DetachedRun.executions fresh run, ← summed]
  simp

/-- The indexed totals of a keeper are its figures in the registry. -/
theorem totalsOf (keeper : Address) : db.totalsOf none (texts keeper) = figures texts e keeper := by
  -- The rows are counted above, and their earnings add up to what was announced.
  have count := told.length_work injective fresh run keeper
  have earned := @sum_work db EventPayload.earned
    (fun payload other => by cases payload <;> first | rfl | exact absurd rfl other) (texts keeper)
  rw [told, DetachedRun.payloads (fun _ _ _ => rfl) (earned_announces injective keeper) fresh run]
    at earned
  simp only [Db.totalsOf, figures, ← count, Int.toNat_natCast, earned, told.reputations]
  rfl

/-- The indexed keepers are those that have executed a task. -/
theorem mem_keepers {name : String} :
    name ∈ db.keepersSince none ↔
      ∃ keeper, texts keeper = name ∧ 0 < executions e keeper := by
  rw [Db.keepersSince, List.mem_dedup, List.mem_map]
  -- A keeper has executed a task exactly when there is a row of its work.
  constructor
  · rintro ⟨row, member, rfl⟩
    obtain ⟨keeper, named⟩ := told.keeper member
    refine ⟨keeper, named.symm, ?_⟩
    have work : row ∈ db.workOf none (texts keeper) :=
      List.mem_filter.mpr ⟨member, decide_eq_true named⟩
    rw [← told.length_work injective fresh run]
    exact_mod_cast List.length_pos_of_mem work
  · rintro ⟨keeper, rfl, positive⟩
    rw [← told.length_work injective fresh run] at positive
    obtain ⟨row, work⟩ := List.exists_mem_of_length_pos (by exact_mod_cast positive)
    obtain ⟨member, named⟩ := List.mem_filter.mp work
    exact ⟨row, member, of_decide_eq_true named⟩

/-- The board of the indexed keepers agrees with the contract's records. -/
theorem faithful {rankBy : RankBy} {limit : Nat} :
    Faithful texts e rankBy limit ⟨rankBy, none,
      rank ((db.keepersSince none).map (db.totalsOf none)) rankBy limit⟩ := by
  have keepers := @mem_keepers _ _ _ _ told injective fresh run
  have exact := told.totalsOf injective fresh run
  have shown := @rank_shown rankBy ((db.keepersSince none).map (db.totalsOf none)) limit
  have order := sorted_perm ((db.keepersSince none).map (db.totalsOf none)) rankBy
  have top := trueTop_rank db rankBy none limit
  generalize rank ((db.keepersSince none).map (db.totalsOf none)) rankBy limit = entries
    at shown top
  have sound : ∀ entry ∈ entries, ∃ keeper, 0 < executions e keeper ∧
      entry.shown = figures texts e keeper := by
    -- An entry shows the totals of a keeper with an execution.
    intro entry member
    have listed := List.mem_map_of_mem (f := LeaderboardEntry.shown) member
    rw [shown] at listed
    obtain ⟨name, known, same⟩ := List.mem_map.mp (order.mem_iff.mp (List.mem_of_mem_take listed))
    obtain ⟨keeper, rfl, positive⟩ := keepers.mp known
    exact ⟨keeper, positive, same.symm.trans (exact keeper)⟩
  refine ⟨sound, fun keeper positive => or_iff_not_imp_left.mpr fun unlisted => ?_⟩
  have known := keepers.mpr ⟨keeper, rfl, positive⟩
  have among := order.mem_iff.mpr (List.mem_map_of_mem (f := db.totalsOf none) known)
  rw [← List.take_append_drop limit (sorted _ _), List.mem_append, ← shown, exact] at among
  rcases among with early | late
  · exact absurd (List.mem_map.mp early) unlisted
  · -- The keeper comes after the last entry that the limit allows.
    refine ⟨?_, fun entry member => ?_⟩
    · have counted := congrArg List.length shown
      have beyond := List.length_pos_of_mem late
      rw [List.length_map, List.length_take] at counted
      rw [List.length_drop] at beyond
      change entries.length = limit
      omega
    · rw [← exact]
      refine top.top _ known (fun other listed same => ?_) entry member
      obtain ⟨twin, -, shows⟩ := sound other listed
      -- Two keepers do not share a text form.
      obtain rfl : twin = keeper := injective ((congrArg Totals.keeper shows).symm.trans same)
      exact unlisted ⟨other, listed, shows⟩

theorem noOverflow (few : ∀ keeper, executions e keeper ≤ u32Max)
    (fits : ∀ keeper, earnedBy keeper e.history ≤ i128Max) : db.NoOverflow none := by
  intro name
  by_cases known : name ∈ db.keepersSince none
  · obtain ⟨keeper, rfl, -⟩ := (told.mem_keepers injective fresh run).mp known
    have count := told.length_work injective fresh run keeper
    have earned := congrArg Totals.totalReward (told.totalsOf injective fresh run keeper)
    have signed : ∀ row ∈ db.workOf none (texts keeper), 0 ≤ row.payload.earned := by
      intro row member
      have stored := List.mem_of_mem_filter (List.mem_of_mem_filter member)
      obtain ⟨event, listed, same⟩ := told.event stored
      exact (DetachedRun.amounts_nonneg fresh run _ (List.mem_filterMap.mpr ⟨_, listed, same⟩)).1
    -- Nothing that was earned is negative, so the positive terms are all of them.
    rw [List.map_congr_left fun row member => max_eq_right (signed row member),
      List.map_congr_left fun row member => min_eq_left (signed row member)]
    refine ⟨?_, earned.trans_le (fits keeper), by simp [i128_signs.1.le]⟩
    have room := few keeper
    omega
  · have idle : db.workOf none name = [] := by
      refine List.filter_eq_nil_iff.mpr fun row member named => known ?_
      exact List.mem_dedup.mpr (List.mem_map.mpr ⟨row, member, of_decide_eq_true named⟩)
    rw [idle]
    exact ⟨Nat.zero_le _, i128_signs.2.le, i128_signs.1.le⟩

end Told

/--
The all-time board of a fresh indexer shows the keepers of the registry as the registry has them.

The log of any run is fed through the parser, wherever the network placed its events, and the
store returns the rows in any order. There is a board unless a total overflows.
-/
theorem leaderboard_faithful (injective : Function.Injective texts) (fresh : Fresh start)
    (run : DetachedRun start e) (stamps : List Stamp)
    (complete : stamps.length = e.events.length) (distinct : (stamps.map Stamp.key).Nodup) :
    ∃ outcome after,
      (ingestBatch (published texts stamps e.events)).run Process.blank = .ok outcome after ∧
      ∀ rows, rows.Perm (after.db.executionsSince none) → ∀ rankBy limit,
        (∀ board, leaderboard after.db rows rankBy none limit = some board →
          Faithful texts e rankBy limit board) ∧
        ((∀ keeper, executions e keeper ≤ u32Max) →
          (∀ keeper, earnedBy keeper e.history ≤ i128Max) →
          ∃ board, leaderboard after.db rows rankBy none limit = some board) := by
  obtain ⟨outcome, after, ran, stored⟩ := ingestBatch_published texts complete distinct
  have told : Told texts e after.db := stored
  refine ⟨outcome, after, ran, fun rows listed rankBy limit => ⟨fun board built => ?_, ?_⟩⟩
  · rw [leaderboard_eq listed built]
    exact told.faithful injective fresh run
  · intro few fits
    have overflow := told.noOverflow injective fresh run few fits
    exact Option.isSome_iff_exists.mp (leaderboard_isSome listed overflow)

/-- One keeper has executed a task for forty, and the board is built. -/
theorem leaderboard_faithful_single :
    figures sampleTexts (play feeless (executed 40 1)) ⟨4⟩ = ⟨sampleTexts ⟨4⟩, 1, 40, 0⟩ ∧
      ∃ outcome after, (ingestBatch (published sampleTexts
          (sampleStamps (play feeless (executed 40 1)).events)
          (play feeless (executed 40 1)).events)).run Process.blank = .ok outcome after ∧
        ∃ board, leaderboard after.db (after.db.executionsSince none) .reward none 10 = some board ∧
          Faithful sampleTexts (play feeless (executed 40 1)) .reward 10 board := by
  have playable : Playable feeless (executed 40 1) := by decide
  obtain ⟨outcome, after, ran, faithful⟩ := leaderboard_faithful sampleTexts_injective
    (genesis_fresh (by decide))
    (ExactRun.detached playable.run) (sampleStamps (play feeless (executed 40 1)).events)
    (by decide) (by decide)
  obtain ⟨shows, fits⟩ := faithful _ (.refl _) .reward 10
  -- Only one keeper has any figures at all.
  obtain ⟨board, built⟩ := fits
    (fun keeper => by
      change (if _ ∧ some (⟨4⟩ : Address) = some keeper then 1 else 0) + 0 ≤ _
      split <;> decide)
    (fun keeper => by
      change (if (⟨4⟩ : Address) = keeper then _ else 0) + 0 ≤ _
      split <;> decide)
  exact ⟨rfl, outcome, after, ran, board, built, shows board built⟩

end KeeperNetwork.Indexer
