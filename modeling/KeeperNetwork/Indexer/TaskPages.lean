import KeeperNetwork.Indexer.EventPages
import KeeperNetwork.Lib.PageWalk
import Mathlib.Data.List.Dedup

/-! Every row of the feed and every task id is on exactly one of the pages that a client walks. -/

namespace KeeperNetwork.Indexer

open Soroban

/-- The task column of a row, which stores an id as a signed number. -/
def IndexedEvent.taskColumn (event : IndexedEvent) : Option Int :=
  event.payload.taskId.map asI64

def distinctDescending (column : List Int) : List Int := column.dedup.insertionSort (· ≥ ·)

namespace Db

def taskColumn (db : Db) (named : IndexedEvent → Bool) : List Int :=
  (db.events.filter named).filterMap IndexedEvent.taskColumn

def taskIds (db : Db) (named : IndexedEvent → Bool) : List Nat :=
  (distinctDescending (db.taskColumn named)).map asU64

def taskIdsPaged (db : Db) (named : IndexedEvent → Bool) (after : Option Nat) (limit : Nat) :
    List Nat × Option Nat :=
  -- One extra row is fetched to learn whether there is a further page.
  let rows := (distinctDescending ((db.taskColumn named).filter fun id =>
    after.all fun mark => id < asI64 mark)).take (limit + 1)
  let ids := (rows.take limit).map asU64
  (ids, if limit < rows.length then ids.getLast? else none)

section Queries

variable {Key : Type} (db : Db) (strkey : Strkey Key)

def ownedBy (owner : String) (event : IndexedEvent) : Bool :=
  event.payload.owner = some (strkey.normalizedOrAsGiven owner)

def keptBy (keeper : String) (event : IndexedEvent) : Bool :=
  event.payload.keeper = some (strkey.normalizedOrAsGiven keeper)

def taskIdsByOwner (owner : String) : List Nat := db.taskIds (ownedBy strkey owner)

def taskIdsByKeeper (keeper : String) : List Nat := db.taskIds (keptBy strkey keeper)

def taskIdsByOwnerPaged (owner : String) (after : Option Nat) (limit : Nat) :
    List Nat × Option Nat :=
  db.taskIdsPaged (ownedBy strkey owner) after limit

def taskIdsByKeeperPaged (keeper : String) (after : Option Nat) (limit : Nat) :
    List Nat × Option Nat :=
  db.taskIdsPaged (keptBy strkey keeper) after limit

end Queries

/-- An event was stored, or ignored since it is known. -/
def Inserts (allowed : Emission → Prop) (db db' : Db) : Prop :=
  ∃ emission, allowed emission ∧ db' = (db.insertEvent emission).1

theorem Inserts.events {allowed : Emission → Prop} {db db' : Db}
    (inserts : Inserts allowed db db') :
    db'.events = db.events ∨ ∃ event : IndexedEvent,
      allowed event.toEmission ∧ db'.events = db.events ++ [event] := by
  obtain ⟨emission, fine, rfl⟩ := inserts
  unfold insertEvent
  split
  · exact .inl rfl
  · exact .inr ⟨_, fine, rfl⟩

end Db

section Column

variable {column : List Int}

/-- Nothing is added or lost by sorting a column. -/
@[simp] theorem mem_distinctDescending {value : Int} :
    value ∈ distinctDescending column ↔ value ∈ column := by
  rw [distinctDescending, List.mem_insertionSort, List.mem_dedup]

theorem distinctDescending_pairwise (column : List Int) :
    (distinctDescending column).Pairwise (· > ·) := by
  have sorted : (distinctDescending column).Pairwise (· ≥ ·) := List.pairwise_insertionSort _ _
  have once : (distinctDescending column).Nodup :=
    (List.perm_insertionSort _ _).nodup_iff.mpr (List.nodup_dedup column)
  -- Numbers that do not increase and are not the same decrease.
  refine List.Pairwise.imp₂ (fun _ _ atMost distinct => ?_) sorted once
  omega

/-- The numbers of a column that are the same with and without a sign. -/
def Unsigned (column : List Int) : Prop := ∀ value ∈ column, 0 ≤ value ∧ value.toNat < 2 ^ 63

theorem Unsigned.asU64_eq (unsigned : Unsigned column) {value : Int} (member : value ∈ column) :
    (asU64 value : Int) = value := by
  obtain ⟨nonneg, small⟩ := unsigned value member
  have fits : value.toNat ≤ u64Max := Nat.le_trans small.le (by decide)
  rw [← Int.toNat_of_nonneg nonneg, Soroban.asU64_eq fits]

theorem Unsigned.mem_ids (unsigned : Unsigned column) {id : Nat} :
    id ∈ (distinctDescending column).map asU64 ↔ (id : Int) ∈ column := by
  simp only [List.mem_map, mem_distinctDescending]
  constructor
  · rintro ⟨value, member, rfl⟩
    rwa [unsigned.asU64_eq member]
  · intro member
    exact ⟨id, member, Int.ofNat_inj.mp (unsigned.asU64_eq member)⟩

theorem Unsigned.ids_ascending (unsigned : Unsigned column) :
    Log.Ascending (OrderDual.toDual ∘ id) ((distinctDescending column).map asU64) := by
  refine List.pairwise_map.mpr ?_
  refine (distinctDescending_pairwise column).imp_of_mem ?_
  intro earlier later first second above
  have left := unsigned.asU64_eq (mem_distinctDescending.mp first)
  have right := unsigned.asU64_eq (mem_distinctDescending.mp second)
  refine OrderDual.toDual_lt_toDual.mpr ?_
  simp only [id]
  omega

theorem Unsigned.ids_left (unsigned : Unsigned column) {after : Option Nat}
    (small : ∀ mark, after = some mark → mark < 2 ^ 63) :
    (distinctDescending (column.filter fun value => after.all fun mark => value < asI64 mark)).map
        asU64 =
      Log.left id OrderDual.toDual after ((distinctDescending column).map asU64) := by
  have fewer : Unsigned (column.filter fun value => after.all fun mark => value < asI64 mark) :=
    fun value member => unsigned value (List.mem_of_mem_filter member)
  refine fewer.ids_ascending.eq_of_mem_iff (unsigned.ids_ascending.left after) fun entry => ?_
  rw [fewer.mem_ids, List.mem_filter]
  cases after with
  | none => simp [Log.left, unsigned.mem_ids]
  | some mark =>
    rw [Log.left, Log.mem_beyond, unsigned.mem_ids, Function.comp, OrderDual.toDual_lt_toDual]
    rw [Option.all_some, asI64_eq (small mark rfl), decide_eq_true_iff, Int.ofNat_lt]
    rfl

end Column

namespace Db

/-- Every task id of the emission can be stored as a signed number. -/
def Storable (emission : Emission) : Prop :=
  ∀ taskId, emission.payload.taskId = some taskId → taskId < 2 ^ 63

/-- Every stored task id can be stored as a signed number. -/
def AllStorable (db : Db) : Prop := ∀ event ∈ db.events, Storable event.toEmission

section Tasks

variable {db db' : Db} {named : IndexedEvent → Bool}

theorem mem_taskColumn (storable : db.AllStorable) {value : Int} :
    value ∈ db.taskColumn named ↔ ∃ event ∈ db.events, named event = true ∧
      ∃ taskId, event.payload.taskId = some taskId ∧ taskId < 2 ^ 63 ∧ (taskId : Int) = value := by
  simp only [taskColumn, IndexedEvent.taskColumn, List.mem_filterMap, List.mem_filter,
    Option.map_eq_some_iff]
  constructor
  · rintro ⟨event, ⟨stored, selected⟩, taskId, known, rfl⟩
    have small := storable event stored taskId known
    exact ⟨event, stored, selected, taskId, known, small, (asI64_eq small).symm⟩
  · rintro ⟨event, stored, selected, taskId, known, small, rfl⟩
    exact ⟨event, ⟨stored, selected⟩, taskId, known, asI64_eq small⟩

theorem taskColumn_unsigned (storable : db.AllStorable) : Unsigned
    (db.taskColumn named) := by
  intro value member
  obtain ⟨_, -, -, taskId, -, small, rfl⟩ := (mem_taskColumn storable).mp member
  omega

theorem mem_taskIds (storable : db.AllStorable) {taskId : Nat} :
    taskId ∈ db.taskIds named ↔
      ∃ event ∈ db.events, named event = true ∧ event.payload.taskId = some taskId := by
  rw [taskIds, (taskColumn_unsigned storable).mem_ids, mem_taskColumn storable]
  constructor
  · rintro ⟨event, stored, selected, other, known, -, same⟩
    exact ⟨event, stored, selected, Int.ofNat_inj.mp same ▸ known⟩
  · rintro ⟨event, stored, selected, known⟩
    exact ⟨event, stored, selected, taskId, known, storable event stored taskId known, rfl⟩

theorem taskIdsPaged_eq (storable : db.AllStorable) {after : Option Nat} (limit : Nat)
    (small : ∀ mark, after = some mark → mark < 2 ^ 63) :
    db.taskIdsPaged named after limit =
      Log.page id OrderDual.toDual limit (db.taskIds named) after := by
  have rest := (@taskColumn_unsigned db named storable).ids_left small
  unfold taskIdsPaged Log.page taskIds
  rw [← rest]
  simp only [List.map_take, List.length_take, List.length_map, Option.map_id]
  rfl

theorem Inserts.allStorable (inserts : Inserts Storable db db') (storable : db.AllStorable) :
    db'.AllStorable := by
  rcases inserts.events with same | ⟨event, small, added⟩
  · unfold AllStorable
    rwa [same]
  · intro other stored
    rw [added, List.mem_append, List.mem_singleton] at stored
    rcases stored with old | rfl
    · exact storable other old
    · exact small

theorem Inserts.taskIds (inserts : Inserts Storable db db') (storable : db.AllStorable) :
    db.taskIds named ⊆ db'.taskIds named ∧
      (db'.taskIds named).length ≤ (db.taskIds named).length + 1 := by
  have later := inserts.allStorable storable
  have once : (db'.taskIds named).Nodup := (taskColumn_unsigned later).ids_ascending.nodup
  rcases inserts.events with same | ⟨event, -, added⟩
  · have unchanged : db'.taskIds named = db.taskIds named := by
      simp only [Db.taskIds, taskColumn, same]
    rw [unchanged]
    exact ⟨fun _ member => member, Nat.le_succ _⟩
  · constructor
    · intro taskId member
      obtain ⟨old, stored, rest⟩ := (mem_taskIds storable).mp member
      refine (mem_taskIds later).mpr ⟨old, ?_, rest⟩
      rw [added]
      exact List.mem_append_left _ stored
    · -- Every id is an old one or that of the new row.
      have among : db'.taskIds named ⊆ event.payload.taskId.toList ++ db.taskIds named := by
        intro taskId member
        obtain ⟨other, stored, selected, known⟩ := (mem_taskIds later).mp member
        rw [added, List.mem_append, List.mem_singleton] at stored
        rcases stored with old | rfl
        · exact List.mem_append_right _ ((mem_taskIds storable).mpr ⟨other, old, selected, known⟩)
        · exact List.mem_append_left _ (Option.mem_toList.mpr known)
      have count := (List.subperm_of_subset once among).length_le
      have single : event.payload.taskId.toList.length ≤ 1 := by
        cases event.payload.taskId <;> simp
      rw [List.length_append] at count
      omega

theorem taskIds_paged (named : IndexedEvent → Bool) (limit : Nat) :
    PageWalk.Paged id OrderDual.toDual limit (fun db => db.taskIds named) AllStorable
      (fun db after => db.taskIdsPaged named after limit) (Inserts Storable) where
  ascending db storable := (taskColumn_unsigned storable).ids_ascending
  kept _ _ inserts storable := inserts.allStorable storable
  grows _ _ inserts storable := inserts.taskIds storable
  asks db after storable marked := by
    refine taskIdsPaged_eq storable limit fun mark given => ?_
    -- The mark is an id that a query has returned.
    obtain ⟨taskId, member, rfl⟩ := marked mark given
    obtain ⟨event, stored, -, known⟩ := (mem_taskIds storable).mp member
    exact storable event stored taskId known

end Tasks

section Feed

variable {Key : Type} {db db' : Db}

/-- The rows of the feed that a client asks for. -/
def feed (strkey : Strkey Key) (eventType : Option EventType) (address : Option String) (db : Db) :
    List IndexedEvent :=
  db.events.filter (selects eventType (address.map strkey.normalizedOrAsGiven))

def feedPage (strkey : Strkey Key) (eventType : Option EventType) (address : Option String)
    (limit : Nat) (db : Db) (after : Option Int) : List IndexedEvent × Option Int :=
  let page := db.eventsAfter strkey after limit eventType address
  (page.events, page.nextCursor)

theorem feed_paged (strkey : Strkey Key) (eventType : Option EventType)
    (address : Option String) (limit : Nat) :
    PageWalk.Paged IndexedEvent.mark id limit (feed strkey eventType address) (fun _ => True)
      (feedPage strkey eventType address limit) (Inserts fun _ => True) where
  ascending db _ := db.marks_ascending.filter _
  kept _ _ _ _ := trivial
  grows db db' inserts _ := by
    -- A new row comes last, and is asked for or not.
    unfold feed
    rcases inserts.events with same | ⟨event, -, added⟩
    · rw [same]
      exact ⟨fun _ member => member, Nat.le_succ _⟩
    · rw [added, List.filter_append, List.length_append]
      refine ⟨List.subset_append_left _ _, Nat.add_le_add_left ?_ _⟩
      exact List.length_filter_le _ [event]
  asks db after _ _ := by
    cases after with
    | some mark => rfl
    | none =>
      -- Every cursor is beyond zero, where a walk without a mark begins.
      have whole : Log.beyond IndexedEvent.mark 0 (feed strkey eventType address db) =
          feed strkey eventType address db :=
        List.filter_eq_self.mpr fun event member =>
          decide_eq_true (mark_pos (List.mem_of_mem_filter member))
      rw [← whole]
      rfl

end Feed

end Db

/--
A walk over pages has met every row once.

What was there at the start is met in order when the walk ends, no row is met twice, and the walk
ends when it has read more pages than there were rows and insertions. Without insertions the pages
make up the rows.
-/
structure MetOnce {α μ : Type} (order : α → α → Prop) (rows : Db → List α) (first : Db)
    (labels : List PageWalk.Label) (walk : PageWalk.State Db α μ) : Prop where
  ordered : walk.seen.Pairwise order
  once : walk.seen.Nodup
  known : ∀ item ∈ walk.seen, item ∈ rows walk.table
  complete : walk.finished = true → (rows first).Sublist walk.seen
  ends : (rows first).length + labels.count .wrote < labels.count .read → walk.finished = true
  unpaged : labels.count .wrote = 0 → walk.finished = true → walk.seen = rows first

theorem metOnce_of_paged {α μ κ : Type} [LinearOrder κ] {mark : α → μ} {place : μ → κ} {limit : Nat}
    {rows : Db → List α} {holds : Db → Prop} {query : Db → Option μ → List α × Option μ}
    {writes : Db → Db → Prop} (paged : PageWalk.Paged mark place limit rows holds query writes)
    (positive : 1 ≤ limit) {order : α → α → Prop}
    (implied : ∀ earlier later, place (mark earlier) < place (mark later) → order earlier later)
    {first : Db} (sound : holds first) {labels : List PageWalk.Label} {walk : PageWalk.State Db α μ}
    (run : Trace (PageWalk.Step query writes) (PageWalk.start first) labels walk) :
    MetOnce order rows first labels walk := by
  obtain ⟨-, exact⟩ := paged.exact positive sound run
  have ascending := paged.ascending first sound
  exact ⟨exact.ordered.imp (implied _ _), exact.ordered.nodup, fun _ seen => exact.known seen,
    exact.sublist ascending, exact.finishes positive,
    fun quiet finished => exact.unpaged ascending finished (PageWalk.table_eq run quiet)⟩

/--
Paging returns every row exactly once.

In every interleaving of page reads with insertions a walk over the feed meets the asked events
once in the order of their cursors, and a walk over the tasks of an owner or of a keeper meets the
task ids once from the newest to the oldest.
-/
theorem pages_exactly_once {Key : Type} (strkey : Strkey Key) {first : Db} {limit : Nat}
    (positive : 1 ≤ limit) :
    (∀ eventType address labels walk,
      Trace (PageWalk.Step (Db.feedPage strkey eventType address limit)
        (Db.Inserts fun _ => True)) (PageWalk.start first) labels walk →
      MetOnce (fun earlier later => earlier.cursor < later.cursor)
        (Db.feed strkey eventType address) first labels walk) ∧
    (first.AllStorable →
      (∀ owner labels walk,
        Trace (PageWalk.Step (fun db after => db.taskIdsByOwnerPaged strkey owner after limit)
          (Db.Inserts Db.Storable)) (PageWalk.start first) labels walk →
        MetOnce (· > ·) (fun db => db.taskIdsByOwner strkey owner) first labels walk) ∧
      (∀ keeper labels walk,
        Trace (PageWalk.Step (fun db after => db.taskIdsByKeeperPaged strkey keeper after limit)
          (Db.Inserts Db.Storable)) (PageWalk.start first) labels walk →
        MetOnce (· > ·) (fun db => db.taskIdsByKeeper strkey keeper) first labels walk)) := by
  have newer (earlier later : Nat)
      (below : OrderDual.toDual (id earlier) < OrderDual.toDual (id later)) : earlier > later :=
    OrderDual.toDual_lt_toDual.mp below
  refine ⟨?_, fun storable => ⟨?_, ?_⟩⟩
  · intro eventType address labels walk run
    exact metOnce_of_paged (Db.feed_paged strkey eventType address limit) positive
      (fun _ _ below => Int.ofNat_lt.mp below) trivial run
  · intro owner labels walk run
    exact metOnce_of_paged (Db.taskIds_paged (Db.ownedBy strkey owner) limit) positive newer
      storable run
  · intro keeper labels walk run
    exact metOnce_of_paged (Db.taskIds_paged (Db.keptBy strkey keeper) limit) positive newer
      storable run

def registeredIn (txHash owner : String) (taskId : Nat) : Emission :=
  ⟨1, 0, txHash, 0, .taskRegistered taskId owner 5 100 none⟩

/-- The first event was read twice, so the second cursor is that of no row. -/
def twoTasks : Db :=
  (((Db.blank.insertEvent (registeredIn "first" "GA" 4)).1.insertEvent
    (registeredIn "first" "GA" 4)).1.insertEvent (registeredIn "second" "GA" 6)).1

/-- A third task is registered after the first page, and is met last or passed by. -/
theorem pages_exactly_once_growing :
    (∃ labels walk, Trace (PageWalk.Step (Db.feedPage letterStrkey none (some "MA") 1)
        (Db.Inserts fun _ => True)) (PageWalk.start twoTasks) labels walk ∧
      walk.finished = true ∧ (Db.feed letterStrkey none (some "MA") twoTasks).Sublist walk.seen ∧
      walk.seen.map IndexedEvent.cursor = [1, 3, 4]) ∧
    ∃ labels walk, Trace (PageWalk.Step
        (fun db after => db.taskIdsByOwnerPaged letterStrkey "GA" after 1)
        (Db.Inserts Db.Storable)) (PageWalk.start twoTasks) labels walk ∧
      walk.finished = true ∧ (twoTasks.taskIdsByOwner letterStrkey "GA").Sublist walk.seen ∧
      walk.seen = [6, 4] := by
  have storable : twoTasks.AllStorable := by
    have small : ∀ event ∈ twoTasks.events, event.payload.taskId.all (· < 2 ^ 63) = true := by
      decide
    intro event stored taskId known
    have fits := small event stored
    rw [known, Option.all_some] at fits
    exact of_decide_eq_true fits
  obtain ⟨feed, tasks⟩ := pages_exactly_once letterStrkey (Nat.le_refl 1)
  -- The new event comes after the first page, behind the two that are there.
  have events : Trace (PageWalk.Step (Db.feedPage letterStrkey none (some "MA") 1)
      (Db.Inserts fun _ => True)) (PageWalk.start twoTasks) [.read, .read, .wrote, .read] _ :=
    (((Trace.nil.snoc (.read (by decide))).snoc
      (.wrote ⟨registeredIn "third" "GA" 9, trivial, rfl⟩)).snoc (.read (by decide))).snoc
      (.read (by decide))
  -- The new id is above the mark of the first page, where the walk does not return.
  have ids : Trace (PageWalk.Step
      (fun db after => db.taskIdsByOwnerPaged letterStrkey "GA" after 1)
      (Db.Inserts Db.Storable)) (PageWalk.start twoTasks) [.read, .wrote, .read] _ :=
    ((Trace.nil.snoc (.read (by decide))).snoc
      (.wrote ⟨registeredIn "third" "GA" 9, fun taskId known => Option.some.inj known ▸ by decide,
        rfl⟩)).snoc (.read (by decide))
  refine ⟨⟨_, _, events, by decide, (feed none (some "MA") _ _ events).complete (by decide),
    by decide⟩, _, _, ids, by decide, ((tasks storable).1 "GA" _ _ ids).complete (by decide),
    by decide⟩

end KeeperNetwork.Indexer
