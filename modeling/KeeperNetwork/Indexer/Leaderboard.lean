import KeeperNetwork.Indexer.Balances
import KeeperNetwork.Lib.GroupBy
import Mathlib.Data.List.Dedup
import Mathlib.Data.List.Sort
import Mathlib.Data.Prod.Lex
import Mathlib.Data.String.Basic

/-! The keeper leaderboard is the true top of the keepers, however the store returns its rows. -/

namespace KeeperNetwork.Indexer

open Soroban

/-- Which metric to rank by. -/
inductive RankBy where
  | executions
  | reward
  | reputation
  deriving DecidableEq, Repr

/-- One keeper's position on the leaderboard. -/
structure LeaderboardEntry where
  /-- The position after ordering and tie-breaking, counted from one. -/
  rank : Nat
  keeper : String
  executions : Nat
  totalReward : Int
  reputation : Int
  deriving DecidableEq, Repr

/-- A ranked leaderboard. -/
structure Leaderboard where
  rankBy : RankBy
  since : Option Int
  entries : List LeaderboardEntry
  deriving DecidableEq, Repr

/-- One keeper's totals before ranking. -/
structure Totals where
  keeper : String
  executions : Nat
  totalReward : Int
  reputation : Int
  deriving DecidableEq, Repr

def IndexedEvent.keeperColumn (row : IndexedEvent) : String := row.payload.keeper.getD ""

namespace Totals

def first (row : IndexedEvent) : Option Totals :=
  match row.payload with
  | .taskExecuted _ _ netReward _ => some ⟨row.keeperColumn, 1, netReward, 0⟩
  | _ => none

/-- The totals with one more execution, absent when a sum leaves the range of its type. -/
def another (totals : Totals) (row : IndexedEvent) : Option Totals :=
  match row.payload with
  | .taskExecuted _ _ netReward _ => do
    let executions ← checkedSucc u32Max totals.executions
    let totalReward ← checkedAdd totals.totalReward netReward
    return { totals with executions, totalReward }
  | _ => none

def withReputation (reputations : Finmap fun _ : String => Int) (totals : Totals) : Totals :=
  match reputations.lookup totals.keeper with
  | some reputation => { totals with reputation }
  | none => totals

/-- The order in which totals are listed, from the best to the worst. -/
def compare (rankBy : RankBy) (a b : Totals) : Ordering :=
  let primary := match rankBy with
    | .executions => Ord.compare b.executions a.executions
    | .reward => Ord.compare b.totalReward a.totalReward
    | .reputation => Ord.compare b.reputation a.reputation
  primary.then ((match rankBy with
    -- The other metric breaks a tie on the first.
    | .executions => Ord.compare b.totalReward a.totalReward
    | .reward | .reputation => Ord.compare b.executions a.executions).then
      (Ord.compare a.keeper b.keeper))

end Totals

def totalsByKeeper : Grouping IndexedEvent Totals String where
  rowKey := IndexedEvent.keeperColumn
  key := Totals.keeper
  start := Totals.first
  extend := Totals.another
  key_start {row group} started := by
    unfold Totals.first at started
    split at started
    · obtain rfl := Option.some.inj started
      rfl
    · cases started
  key_extend {group row group'} extended := by
    unfold Totals.another at extended
    split at extended
    · simp only [Option.bind_eq_bind, Option.bind_eq_some_iff, Option.pure_def,
        Option.some.injEq] at extended
      obtain ⟨_, -, _, -, rfl⟩ := extended
      rfl
    · cases extended

namespace Db

/-- The executions at or after the start of a window. -/
def executionsSince (db : Db) (since : Option Int) : List IndexedEvent :=
  db.events.filter fun row => row.payload.eventType = .taskExecuted ∧ row.payload.keeper.isSome ∧
    since.all fun start => start ≤ row.ledgerCloseTime

/-- The latest known reputation of every keeper. -/
def reputations (db : Db) : Finmap fun _ : String => Int :=
  ((db.events.filter fun row => row.payload.eventType = .reputationUpdated ∧
      row.payload.keeper.isSome).insertionSort fun earlier later =>
        toLex (earlier.ledger, earlier.cursor) ≤ toLex (later.ledger, later.cursor)).foldl
    (fun known row => match row.payload with
      | .reputationUpdated _ _ score => known.insert row.keeperColumn score
      | _ => known) ∅

end Db

def sorted (totals : List Totals) (rankBy : RankBy) : List Totals :=
  totals.insertionSort fun a b => a.compare rankBy b ≠ .gt

def rank (totals : List Totals) (rankBy : RankBy) (limit : Nat) : List LeaderboardEntry :=
  ((sorted totals rankBy).take limit).mapIdx fun index totals =>
    ⟨index + 1, totals.keeper, totals.executions, totals.totalReward, totals.reputation⟩

/--
Build a leaderboard from the executions as the store returns them.

The query asks for no order of the rows, so they come in any.
-/
def leaderboard (db : Db) (rows : List IndexedEvent) (rankBy : RankBy) (since : Option Int)
    (limit : Nat) : Option Leaderboard := do
  let totals ← totalsByKeeper.gather rows
  let totals := totals.map (Totals.withReputation db.reputations)
  return ⟨rankBy, since, rank totals rankBy limit⟩

namespace Db

variable (db : Db) (since : Option Int)

def keepersSince : List String := ((db.executionsSince since).map IndexedEvent.keeperColumn).dedup

def workOf (keeper : String) : List IndexedEvent :=
  (db.executionsSince since).filter fun row => row.keeperColumn = keeper

/-- What one keeper did and earned in the window. -/
def totalsOf (keeper : String) : Totals where
  keeper
  executions := (db.workOf since keeper).length
  totalReward := ((db.workOf since keeper).map fun row => row.payload.earned).sum
  reputation := (db.reputations.lookup keeper).getD 0

/-- No total leaves the range of its type, in whichever order it is summed. -/
def NoOverflow : Prop := ∀ keeper, (db.workOf since keeper).length ≤ u32Max ∧
  ((db.workOf since keeper).map fun row => max 0 row.payload.earned).sum ≤ i128Max ∧
  i128Min ≤ ((db.workOf since keeper).map fun row => min 0 row.payload.earned).sum

end Db

namespace RankBy

def metric (rankBy : RankBy) (totals : Totals) : Int :=
  match rankBy with
  | executions => totals.executions
  | reward => totals.totalReward
  | reputation => totals.reputation

/-- The figure that breaks a tie. -/
def other (rankBy : RankBy) (totals : Totals) : Int :=
  match rankBy with
  | executions => totals.totalReward
  | reward | reputation => totals.executions

end RankBy

/-- Both figures descending, and then the address ascending. -/
def Precedes (rankBy : RankBy) (a b : Totals) : Prop :=
  rankBy.metric b < rankBy.metric a ∨ rankBy.metric a = rankBy.metric b ∧
    (rankBy.other b < rankBy.other a ∨ rankBy.other a = rankBy.other b ∧ a.keeper < b.keeper)

/-- What totals are ordered by, as one value of a linear order. -/
def Totals.standing (rankBy : RankBy) (totals : Totals) : Intᵒᵈ ×ₗ Intᵒᵈ ×ₗ String :=
  toLex (OrderDual.toDual (rankBy.metric totals),
    toLex (OrderDual.toDual (rankBy.other totals), totals.keeper))

variable {rankBy : RankBy} {a b c : Totals} {totals totals' : List Totals} {limit : Nat}

theorem precedes_iff : Precedes rankBy a b ↔ a.standing rankBy < b.standing rankBy := by
  simp only [Precedes, Totals.standing, Prod.Lex.toLex_lt_toLex, OrderDual.toDual_lt_toDual,
    OrderDual.toDual_inj]

theorem compare_eq_gt : a.compare rankBy b = .gt ↔ Precedes rankBy b a := by
  -- Each step of the comparison is one level of the order, with the sides swapped.
  cases rankBy with
  | executions | reward | reputation =>
    simp only [Totals.compare, Precedes, RankBy.metric, RankBy.other, Ordering.then_eq_gt,
      compare_gt_iff_gt, compare_eq_iff_eq, Int.ofNat_lt, Int.ofNat_inj]

theorem compare_ne_gt : a.compare rankBy b ≠ .gt ↔ a.standing rankBy ≤ b.standing rankBy := by
  rw [Ne, compare_eq_gt, precedes_iff, not_lt]

theorem precedes_of_ne (apart : a.keeper ≠ b.keeper) :
    Precedes rankBy a b ∨ Precedes rankBy b a := by
  rw [precedes_iff, precedes_iff]
  -- Equal standings would be those of one keeper.
  refine lt_or_gt_of_ne fun same => apart ?_
  have rest := congrArg Prod.snd (congrArg ofLex same)
  exact congrArg Prod.snd (congrArg ofLex rest)

theorem sorted_perm (totals : List Totals) (rankBy : RankBy) :
    (sorted totals rankBy).Perm totals := List.perm_insertionSort _ _

theorem sorted_pairwise (distinct : (totals.map Totals.keeper).Nodup) :
    (sorted totals rankBy).Pairwise (Precedes rankBy) := by
  have total : Std.Total fun a b : Totals => a.compare rankBy b ≠ .gt :=
    ⟨fun a b => by simpa only [compare_ne_gt] using le_total _ _⟩
  have transitive : IsTrans Totals fun a b => a.compare rankBy b ≠ .gt :=
    ⟨fun a b c => by simpa only [compare_ne_gt] using le_trans⟩
  have ascending := List.pairwise_insertionSort
    (fun a b : Totals => a.compare rankBy b ≠ .gt) totals
  have apart : ((sorted totals rankBy).map Totals.keeper).Nodup :=
    ((sorted_perm totals rankBy).map _).nodup_iff.mpr distinct
  -- The standings do not decrease, and differ in the keeper.
  refine List.Pairwise.imp₂ ?_ ascending (List.pairwise_map.mp apart)
  intro a b atMost different
  rcases precedes_of_ne different with before | after
  · exact before
  · exact absurd (compare_eq_gt.mpr after) atMost

theorem sorted_congr (distinct : (totals.map Totals.keeper).Nodup)
    (same : totals.Perm totals') : sorted totals rankBy = sorted totals' rankBy := by
  have distinct' := ((same.map Totals.keeper).nodup_iff).mp distinct
  refine List.Perm.eq_of_pairwise ?_ (sorted_pairwise distinct) (sorted_pairwise distinct')
    (((sorted_perm totals rankBy).trans same).trans (sorted_perm totals' rankBy).symm)
  -- Two totals cannot precede each other.
  intro a b _ _ before after
  exact absurd (precedes_iff.mp after) (precedes_iff.mp before).asymm

section Gathering

variable {db : Db} {since : Option Int} {rows : List IndexedEvent} {row : IndexedEvent}
  {keeper : String} {made made' : Totals}

theorem first_eq (executed : row.payload.eventType = .taskExecuted) :
    Totals.first row = some ⟨row.keeperColumn, 1, row.payload.earned, 0⟩ := by
  obtain ⟨⟨ledger, closed, hash, index, payload⟩, cursor⟩ := row
  cases payload <;> first | rfl | cases executed

theorem another_eq_some (executed : row.payload.eventType = .taskExecuted) :
    made.another row = some made' ↔ made.executions + 1 ≤ u32Max ∧
      i128Min ≤ made.totalReward + row.payload.earned ∧
      made.totalReward + row.payload.earned ≤ i128Max ∧
      made' = { made with
        executions := made.executions + 1
        totalReward := made.totalReward + row.payload.earned } := by
  obtain ⟨⟨ledger, closed, hash, index, payload⟩, cursor⟩ := row
  cases payload with
  | taskExecuted taskId name netReward proof =>
    simp only [Totals.another, EventPayload.earned, Option.bind_eq_bind, Option.bind_eq_some_iff,
      checkedSucc_eq_some, checkedAdd_eq_some, Option.pure_def, Option.some.injEq]
    -- Both checked sums pass exactly when they fit.
    constructor
    · rintro ⟨_, ⟨rfl, room⟩, _, ⟨rfl, low, high⟩, rfl⟩
      exact ⟨room, low, high, rfl⟩
    · rintro ⟨room, low, high, rfl⟩
      exact ⟨_, ⟨rfl, room⟩, _, ⟨rfl, low, high⟩, rfl⟩
  | _ => cases executed

theorem alone_totals (executed : ∀ row ∈ rows, row.payload.eventType = .taskExecuted)
    (gathered : totalsByKeeper.alone rows = some made) :
    made.executions = rows.length ∧
      made.totalReward = (rows.map fun row => row.payload.earned).sum ∧ made.reputation = 0 := by
  -- One row at a time, from the last one back.
  induction rows using List.reverseRecOn generalizing made with
  | nil => cases gathered
  | append_singleton rows row ih =>
    have last := executed row (by simp)
    by_cases none : rows = []
    · subst none
      have single : totalsByKeeper.start row = some made := by
        simpa [Grouping.alone] using gathered
      change Totals.first row = some made at single
      rw [first_eq last] at single
      obtain rfl := Option.some.inj single
      simp
    · rw [Grouping.alone_concat none, Option.bind_eq_some_iff] at gathered
      obtain ⟨before, earlier, extended⟩ := gathered
      obtain ⟨count, sum, plain⟩ := ih (fun row member => executed row (by simp [member])) earlier
      obtain ⟨-, -, -, rfl⟩ := (another_eq_some last).mp extended
      simp [count, sum, plain]

theorem alone_isSome (executed : ∀ row ∈ rows, row.payload.eventType = .taskExecuted)
    (nonempty : rows ≠ []) (room : rows.length ≤ u32Max)
    (high : (rows.map fun row => max 0 row.payload.earned).sum ≤ i128Max)
    (low : i128Min ≤ (rows.map fun row => min 0 row.payload.earned).sum) :
    (totalsByKeeper.alone rows).isSome := by
  induction rows using List.reverseRecOn with
  | nil => exact absurd rfl nonempty
  | append_singleton rows row ih =>
    have last := executed row (by simp)
    by_cases none : rows = []
    · subst none
      change ((Totals.first row).bind _).isSome
      rw [first_eq last]
      rfl
    · have earlier : ∀ row ∈ rows, row.payload.eventType = .taskExecuted :=
        fun row member => executed row (by simp [member])
      simp only [List.map_append, List.map_cons, List.map_nil, List.sum_append, List.sum_cons,
        List.sum_nil, List.length_append, List.length_cons, List.length_nil] at room high low
      obtain ⟨before, made⟩ := Option.isSome_iff_exists.mp
        (ih earlier none (by omega) (by omega) (by omega))
      obtain ⟨count, sum, -⟩ := alone_totals earlier made
      -- A sum lies between the sum of its negative terms and that of its positive ones.
      have above : (rows.map fun row => row.payload.earned).sum ≤
          (rows.map fun row => max 0 row.payload.earned).sum :=
        List.sum_le_sum fun row _ => le_max_right _ _
      have below : (rows.map fun row => min 0 row.payload.earned).sum ≤
          (rows.map fun row => row.payload.earned).sum :=
        List.sum_le_sum fun row _ => min_le_right _ _
      rw [Grouping.alone_concat none, made, Option.bind_some]
      refine Option.isSome_iff_exists.mpr ⟨_, (another_eq_some last).mpr ⟨?_, ?_, ?_, rfl⟩⟩
      · omega
      · omega
      · omega

theorem executed_of_mem (member : row ∈ db.executionsSince since) :
    row.payload.eventType = .taskExecuted := by
  have selected := (List.mem_filter.mp member).2
  exact (of_decide_eq_true selected).1

theorem withReputation_eq (plain : made.reputation = 0) :
    made.withReputation db.reputations =
      { made with reputation := (db.reputations.lookup made.keeper).getD 0 } := by
  -- A keeper without a known reputation keeps the one it starts with.
  unfold Totals.withReputation
  cases db.reputations.lookup made.keeper with
  | none => rw [Option.getD_none, ← plain]
  | some reputation => rfl

theorem rowsOf_perm (listed : rows.Perm (db.executionsSince since)) (keeper : String) :
    (totalsByKeeper.rowsOf rows keeper).Perm (db.workOf since keeper) := listed.filter _

theorem gathered_perm (listed : rows.Perm (db.executionsSince since))
    (gathered : totalsByKeeper.gather rows = some totals) :
    (totals.map (Totals.withReputation db.reputations)).Perm
      ((db.keepersSince since).map (db.totalsOf since)) := by
  have exactly := Grouping.gather_exact gathered
  -- Every total is that of its keeper.
  have each : ∀ made ∈ totals,
      made.withReputation db.reputations = db.totalsOf since made.keeper := by
    intro made member
    have own := rowsOf_perm listed made.keeper
    have executed : ∀ row ∈ totalsByKeeper.rowsOf rows made.keeper,
        row.payload.eventType = .taskExecuted := fun row among =>
      executed_of_mem (listed.mem_iff.mp (List.mem_of_mem_filter among))
    obtain ⟨count, sum, plain⟩ := alone_totals executed (exactly.exact made member)
    rw [withReputation_eq plain, count, sum, own.length_eq, (own.map _).sum_eq]
    rfl
  -- The keepers are those of the rows, each once.
  have keepers : (totals.map Totals.keeper).Perm (db.keepersSince since) := by
    refine (List.perm_ext_iff_of_nodup exactly.distinct (List.nodup_dedup _)).mpr fun keeper => ?_
    rw [List.mem_dedup, ← (listed.map IndexedEvent.keeperColumn).mem_iff]
    exact exactly.keys keeper
  have same : totals.map (Totals.withReputation db.reputations) =
      (totals.map Totals.keeper).map (db.totalsOf since) := by
    rw [List.map_map]
    exact List.map_congr_left each
  rw [same]
  exact keepers.map _

theorem keepersSince_distinct :
    (((db.keepersSince since).map (db.totalsOf since)).map Totals.keeper).Nodup := by
  rw [List.map_map]
  exact (List.map_id _).symm ▸ List.nodup_dedup _

theorem leaderboard_eq (listed : rows.Perm (db.executionsSince since)) {board : Leaderboard}
    (built : leaderboard db rows rankBy since limit = some board) :
    board = ⟨rankBy, since,
      rank ((db.keepersSince since).map (db.totalsOf since)) rankBy limit⟩ := by
  obtain ⟨totals, gathered, ranked⟩ := Option.bind_eq_some_iff.mp built
  obtain rfl := Option.some.inj ranked
  -- What was gathered is a rearrangement of the totals of the keepers.
  have same := (gathered_perm listed gathered).symm
  unfold rank
  rw [sorted_congr keepersSince_distinct same]

theorem leaderboard_isSome (listed : rows.Perm (db.executionsSince since))
    (fits : db.NoOverflow since) : (leaderboard db rows rankBy since limit).isSome := by
  have gathered : (totalsByKeeper.gather rows).isSome := by
    -- It is enough that the rows of each keeper can be summed.
    refine Grouping.gather_isSome fun keeper known => ?_
    have own := rowsOf_perm listed keeper
    obtain ⟨room, high, low⟩ := fits keeper
    obtain ⟨row, member, named⟩ := List.mem_map.mp known
    refine alone_isSome ?_ ?_ (own.length_eq ▸ room) ?_ ?_
    · exact fun row among => executed_of_mem (listed.mem_iff.mp (List.mem_of_mem_filter among))
    · exact List.ne_nil_of_mem (List.mem_filter.mpr ⟨member, decide_eq_true named⟩)
    · rwa [(own.map _).sum_eq]
    · rwa [(own.map _).sum_eq]
  obtain ⟨totals, made⟩ := Option.isSome_iff_exists.mp gathered
  unfold leaderboard
  rw [made]
  rfl

end Gathering

def LeaderboardEntry.shown (entry : LeaderboardEntry) : Totals :=
  ⟨entry.keeper, entry.executions, entry.totalReward, entry.reputation⟩

theorem rank_shown : (rank totals rankBy limit).map LeaderboardEntry.shown =
    (sorted totals rankBy).take limit := by
  unfold rank
  exact List.ext_getElem (by simp) fun index _ _ => by simp [LeaderboardEntry.shown]

theorem rank_ranks : (rank totals rankBy limit).map LeaderboardEntry.rank =
    List.range' 1 (rank totals rankBy limit).length := by
  unfold rank
  exact List.ext_getElem (by simp) fun index _ _ => by simp [Nat.add_comm]

/-- The board lists the best keepers of the window. -/
structure TrueTop (db : Db) (rankBy : RankBy) (since : Option Int) (limit : Nat)
    (board : Leaderboard) : Prop where
  length : board.entries.length = min limit (db.keepersSince since).length
  ranks : board.entries.map LeaderboardEntry.rank = List.range' 1 board.entries.length
  exact : ∀ entry ∈ board.entries, entry.keeper ∈ db.keepersSince since ∧
    entry.executions = (db.workOf since entry.keeper).length ∧
    entry.totalReward = ((db.workOf since entry.keeper).map fun row => row.payload.earned).sum
  ordered : board.entries.Pairwise fun a b => Precedes rankBy a.shown b.shown
  top : ∀ keeper ∈ db.keepersSince since, (∀ entry ∈ board.entries, entry.keeper ≠ keeper) →
    ∀ entry ∈ board.entries, Precedes rankBy entry.shown (db.totalsOf since keeper)
  whole : (db.keepersSince since).length ≤ limit →
    (board.entries.map LeaderboardEntry.executions).sum = (db.executionsSince since).length

theorem sum_workOf (db : Db) (since : Option Int) :
    ((db.keepersSince since).map fun keeper => (db.workOf since keeper).length).sum =
      (db.executionsSince since).length := by
  have counted := List.sum_map_count_dedup_eq_length
    ((db.executionsSince since).map IndexedEvent.keeperColumn)
  rw [List.length_map] at counted
  rw [← counted]
  -- The rows of a keeper are counted by its name.
  refine congrArg List.sum (List.map_congr_left fun keeper _ => ?_)
  rw [Db.workOf, ← List.countP_eq_length_filter, List.count, List.countP_map]
  refine List.countP_congr fun row _ => ?_
  simp

/-- Ranking the totals of all keepers gives the true top of them. -/
theorem trueTop_rank (db : Db) (rankBy : RankBy) (since : Option Int) (limit : Nat) :
    TrueTop db rankBy since limit ⟨rankBy, since,
      rank ((db.keepersSince since).map (db.totalsOf since)) rankBy limit⟩ := by
  have order : (sorted ((db.keepersSince since).map (db.totalsOf since)) rankBy).Pairwise
      (Precedes rankBy) := sorted_pairwise keepersSince_distinct
  have whole := sorted_perm ((db.keepersSince since).map (db.totalsOf since)) rankBy
  have shown : (rank ((db.keepersSince since).map (db.totalsOf since)) rankBy limit).map
      LeaderboardEntry.shown = _ := rank_shown
  generalize sorted ((db.keepersSince since).map (db.totalsOf since)) rankBy = listed
    at order whole shown
  have among : ∀ entry ∈ rank ((db.keepersSince since).map (db.totalsOf since)) rankBy limit,
      entry.shown ∈ listed.take limit := fun entry member =>
    shown ▸ List.mem_map_of_mem member
  refine ⟨?_, rank_ranks, fun entry member => ?_, ?_, fun keeper known unlisted entry member => ?_,
    fun room => ?_⟩
  · have counted := congrArg List.length shown
    rw [List.length_map, List.length_take, whole.length_eq, List.length_map] at counted
    exact counted
  · -- An entry shows the totals of one of the keepers.
    obtain ⟨keeper, known, same⟩ :=
      List.mem_map.mp (whole.mem_iff.mp (List.mem_of_mem_take (among entry member)))
    have named : keeper = entry.keeper := congrArg Totals.keeper same
    rw [named] at known same
    exact ⟨known, (congrArg Totals.executions same).symm, (congrArg Totals.totalReward same).symm⟩
  · have sub := order.sublist (List.take_sublist limit listed)
    rw [← shown] at sub
    exact List.pairwise_map.mp sub
  · -- A keeper that is not among the first totals is among the rest.
    have present : db.totalsOf since keeper ∈ listed :=
      whole.mem_iff.mpr (List.mem_map_of_mem known)
    rw [← List.take_append_drop limit listed, List.mem_append] at present
    rw [← List.take_append_drop limit listed, List.pairwise_append] at order
    rcases present with early | late
    · rw [← shown] at early
      obtain ⟨other, among', same⟩ := List.mem_map.mp early
      exact absurd (congrArg Totals.keeper same) (unlisted other among')
    · exact order.2.2 _ (among entry member) _ late
  · have all : listed.take limit = listed :=
      List.take_of_length_le (by rw [whole.length_eq, List.length_map]; exact room)
    rw [all] at shown
    have counted := congrArg (fun shown => (shown.map Totals.executions).sum) shown
    rw [List.map_map, (whole.map _).sum_eq, List.map_map] at counted
    exact counted.trans (sum_workOf db since)

/-- The order of totals is strict, and total on those of different keepers. -/
structure StrictTotal (before : Totals → Totals → Prop) : Prop where
  irreflexive : ∀ a, ¬ before a a
  transitive : ∀ a b c, before a b → before b c → before a c
  total : ∀ a b, a.keeper ≠ b.keeper → before a b ∨ before b a

/--
A leaderboard is the true top of the keepers in its window, in a strict total order.

It is the same in whichever order the rows are returned, and is returned unless a total overflows.
-/
theorem leaderboard_true_top (db : Db) (rankBy : RankBy) (since : Option Int) (limit : Nat) :
    StrictTotal (Precedes rankBy) ∧
    (∀ rows, rows.Perm (db.executionsSince since) → ∀ board,
      leaderboard db rows rankBy since limit = some board →
      TrueTop db rankBy since limit board ∧
        ∀ rows', rows'.Perm (db.executionsSince since) → ∀ board',
          leaderboard db rows' rankBy since limit = some board' → board' = board) ∧
    (db.NoOverflow since → ∀ rows, rows.Perm (db.executionsSince since) →
      ∃ board, leaderboard db rows rankBy since limit = some board) := by
  -- Whatever is built is the ranking of the same totals.
  refine ⟨⟨?_, ?_, fun a b => precedes_of_ne⟩, ?_, ?_⟩
  · intro a before
    exact lt_irrefl _ (precedes_iff.mp before)
  · intro a b c first second
    exact precedes_iff.mpr ((precedes_iff.mp first).trans (precedes_iff.mp second))
  · intro rows listed board built
    obtain rfl := leaderboard_eq listed built
    exact ⟨trueTop_rank db rankBy since limit,
      fun rows' listed' board' built' => leaderboard_eq listed' built'⟩
  · intro fits rows listed
    exact Option.isSome_iff_exists.mp (leaderboard_isSome listed fits)

/-- An execution of a task, for scripted stores. -/
def executedBy (keeper txHash : String) (netReward closed : Int) : Emission :=
  ⟨1, closed, txHash, 0, .taskExecuted 1 keeper netReward ""⟩

/-- A store in which one keeper executed before the window and two within it. -/
def fourExecutions : Db :=
  ((((Db.blank.insertEvent (executedBy "GA" "a" 50 1)).1.insertEvent
    (executedBy "GB" "b" 7 10)).1.insertEvent (executedBy "GA" "c" 5 11)).1.insertEvent
    (executedBy "GA" "d" 2 12)).1

/-- Two keepers that earned the same are ranked by their executions, whatever the order of rows. -/
theorem leaderboard_true_top_tied :
    leaderboard fourExecutions (fourExecutions.executionsSince (some 10)).reverse .reward
        (some 10) 5 = some ⟨.reward, some 10, [⟨1, "GA", 2, 7, 0⟩, ⟨2, "GB", 1, 7, 0⟩]⟩ ∧
      TrueTop fourExecutions .reward (some 10) 5
        ⟨.reward, some 10, [⟨1, "GA", 2, 7, 0⟩, ⟨2, "GB", 1, 7, 0⟩]⟩ := by
  have built : leaderboard fourExecutions (fourExecutions.executionsSince (some 10)).reverse .reward
      (some 10) 5 = some ⟨.reward, some 10, [⟨1, "GA", 2, 7, 0⟩, ⟨2, "GB", 1, 7, 0⟩]⟩ := by decide
  -- The rows were returned newest first.
  exact ⟨built, ((leaderboard_true_top fourExecutions .reward (some 10) 5).2.1 _
    (List.reverse_perm _) _ built).1⟩

end KeeperNetwork.Indexer
