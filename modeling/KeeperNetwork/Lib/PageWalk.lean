import KeeperNetwork.Lib.Pages
import KeeperNetwork.Lib.Trace
import Mathlib.Data.List.Sort

/-! Walks over the pages of a table that others write to between the reads. -/

namespace Log

variable {α κ : Type*} [LinearOrder κ] {key : α → κ} {log other : List α}

theorem Ascending.nodup (ascending : Ascending key log) : log.Nodup :=
  List.Pairwise.imp (fun below same => (same ▸ below).false) ascending

theorem Ascending.sublist (ascending : Ascending key log) (above : Ascending key other)
    (among : log ⊆ other) : log.Sublist other := by
  exact List.sublist_of_subperm_of_pairwise (List.subperm_of_subset ascending.nodup among)
    ascending above

theorem Ascending.eq_of_mem_iff (ascending : Ascending key log) (above : Ascending key other)
    (same : ∀ entry, entry ∈ log ↔ entry ∈ other) : log = other := by
  exact List.Pairwise.eq_of_mem_iff ascending above same

section Page

variable {μ : Type*} {mark : α → μ} {place : μ → κ} {limit : Nat}

/-- The entries that are left to read behind the place of a mark, or from the start. -/
def left (mark : α → μ) (place : μ → κ) (after : Option μ) (log : List α) : List α :=
  match after with
  | none => log
  | some given => beyond (place ∘ mark) (place given) log

private theorem left_subset (after : Option μ) (log : List α) :
    left mark place after log ⊆ log := by
  cases after with
  | none => exact fun _ member => member
  | some given => exact fun _ member => (mem_beyond.mp member).1

theorem Ascending.left (ascending : Ascending (place ∘ mark) log) (after : Option μ) :
    Ascending (place ∘ mark) (left mark place after log) := by
  cases after with
  | none => exact ascending
  | some given => exact ascending.filter _

/-- A page of what is left, with the mark of its last entry when more is left. -/
def page (mark : α → μ) (place : μ → κ) (limit : Nat) (log : List α) (after : Option μ) :
    List α × Option μ :=
  -- One extra entry is fetched to learn whether there is a further page.
  let rows := (left mark place after log).take (limit + 1)
  (rows.take limit, if limit < rows.length then (rows.take limit).getLast?.map mark else none)

private theorem page_cases (mark : α → μ) (place : μ → κ) (positive : 0 < limit) (log : List α)
    (after : Option μ) :
    page mark place limit log after = (left mark place after log, none) ∨
      ∃ front last back, left mark place after log = front ++ last :: back ∧
        page mark place limit log after = (front ++ [last], some (mark last)) ∧
        front.length + 1 = limit := by
  unfold page
  generalize left mark place after log = rows
  simp only [List.take_take, Nat.min_eq_left (Nat.le_succ limit), List.length_take]
  by_cases more : limit < rows.length
  · -- The page is full, so it has a last entry, and at least one entry follows it.
    right
    obtain ⟨smaller, rfl⟩ : ∃ smaller, limit = smaller + 1 := ⟨limit - 1, by omega⟩
    have full : smaller < rows.length := by omega
    have split : rows.take (smaller + 1) = rows.take smaller ++ [rows[smaller]] :=
      (List.take_append_getElem full).symm
    refine ⟨rows.take smaller, rows[smaller], rows.drop (smaller + 1), ?_, ?_, ?_⟩
    · have whole := List.take_append_drop (smaller + 1) rows
      rw [split, List.append_assoc, List.singleton_append] at whole
      exact whole.symm
    · rw [if_pos (by omega), split, List.getLast?_append]
      rfl
    · rw [List.length_take]
      omega
  · left
    rw [if_neg (by omega), List.take_of_length_le (by omega)]

end Page

end Log

namespace PageWalk

variable {σ α μ : Type*}

/-- A reader of pages next to the table it reads. -/
structure State (σ α μ : Type*) where
  table : σ
  after : Option μ
  finished : Bool
  seen : List α

/-- A walk that has read nothing yet. -/
def start (table : σ) : State σ α μ := ⟨table, none, false, []⟩

/-- Read the next page. -/
def State.read (query : σ → Option μ → List α × Option μ) (walk : State σ α μ) : State σ α μ :=
  let page := query walk.table walk.after
  { walk with after := page.2, finished := page.2.isNone, seen := walk.seen ++ page.1 }

/-- What happens during a walk. -/
inductive Label where
  | wrote
  | read
  deriving DecidableEq, Repr

/-- The table is written to, or the next page is read. -/
inductive Step (query : σ → Option μ → List α × Option μ) (writes : σ → σ → Prop) :
    State σ α μ → Label → State σ α μ → Prop
  | wrote {walk : State σ α μ} {table : σ} (write : writes walk.table table) :
      Step query writes walk .wrote { walk with table }
  | read {walk : State σ α μ} (unfinished : walk.finished = false) :
      Step query writes walk .read (walk.read query)

variable {query : σ → Option μ → List α × Option μ} {writes : σ → σ → Prop}

/-- A walk during which nothing is written stays at its table. -/
theorem table_eq {first : σ} {labels : List Label} {walk : State σ α μ}
    (run : Trace (Step query writes) (start first) labels walk)
    (quiet : labels.count .wrote = 0) : walk.table = first := by
  induction run with
  | nil => rfl
  | snoc _ last ih =>
    cases last with
    | wrote => simp at quiet
    | read =>
      exact ih quiet

variable {κ : Type*} [LinearOrder κ] {mark : α → μ} {place : μ → κ} {limit : Nat}
  {rows : σ → List α} {holds : σ → Prop}

/-- The query pages through rows that ascend by a key, and a write adds at most one row. -/
structure Paged (mark : α → μ) (place : μ → κ) (limit : Nat) (rows : σ → List α) (holds : σ → Prop)
    (query : σ → Option μ → List α × Option μ) (writes : σ → σ → Prop) : Prop where
  ascending : ∀ table, holds table → Log.Ascending (place ∘ mark) (rows table)
  kept : ∀ table table', writes table table' → holds table → holds table'
  grows : ∀ table table', writes table table' → holds table →
    rows table ⊆ rows table' ∧ (rows table').length ≤ (rows table).length + 1
  asks : ∀ table after, holds table →
    (∀ given, after = some given → ∃ item ∈ rows table, mark item = given) →
    query table after = Log.page mark place limit (rows table) after

/-- What is true at every moment of a walk from a table. -/
structure Exact (mark : α → μ) (place : μ → κ) (limit : Nat) (rows : σ → List α) (first : σ)
    (labels : List Label) (walk : State σ α μ) : Prop where
  grown : rows first ⊆ rows walk.table
  bounded : (rows walk.table).length ≤ (rows first).length + labels.count .wrote
  ordered : Log.Ascending (place ∘ mark) walk.seen
  known : walk.seen ⊆ rows walk.table
  marked : ∀ given, walk.after = some given → ∃ item ∈ walk.seen, mark item = given
  passed : walk.finished = false → ∀ item ∈ walk.seen, ∃ given, walk.after = some given ∧
    place (mark item) ≤ place given
  covered : walk.finished = false → ∀ given, walk.after = some given → ∀ item ∈ rows first,
    place (mark item) ≤ place given → item ∈ walk.seen
  complete : walk.finished = true → rows first ⊆ walk.seen
  progress : walk.finished = false → labels.count .read * limit ≤ walk.seen.length

namespace Exact

variable {first : σ} {labels : List Label} {walk : State σ α μ}

private theorem start (mark : α → μ) (place : μ → κ) (limit : Nat) (rows : σ → List α) (first : σ) :
    Exact mark place limit rows first [] (PageWalk.start first) where
  grown _ member := member
  bounded := Nat.le_refl _
  ordered := List.Pairwise.nil
  known _ none := absurd none List.not_mem_nil
  marked _ none := nomatch none
  passed _ _ none := absurd none List.not_mem_nil
  covered _ _ none := nomatch none
  complete none := nomatch none
  progress _ := by simp [PageWalk.start]

variable (exact : Exact mark place limit rows first labels walk)
include exact

private theorem wrote {table : σ} (more : rows walk.table ⊆ rows table)
    (one : (rows table).length ≤ (rows walk.table).length + 1) :
    Exact mark place limit rows first (.wrote :: labels) { walk with table } where
  grown := List.Subset.trans exact.grown more
  bounded := by
    have before := exact.bounded
    rw [List.count_cons_self]
    dsimp only
    omega
  ordered := exact.ordered
  known := List.Subset.trans exact.known more
  marked := exact.marked
  passed := exact.passed
  covered := exact.covered
  complete := exact.complete
  progress := by
    exact exact.progress

private theorem seen_lt (unfinished : walk.finished = false) {item entry : α}
    (seen : item ∈ walk.seen) (member : entry ∈ Log.left mark place walk.after (rows walk.table)) :
    place (mark item) < place (mark entry) := by
  obtain ⟨given, here, below⟩ := exact.passed unfinished item seen
  rw [here] at member
  exact lt_of_le_of_lt below (Log.mem_beyond.mp member).2

private theorem mem_left (unfinished : walk.finished = false) {item : α}
    (member : item ∈ rows first) (unseen : item ∉ walk.seen) :
    item ∈ Log.left mark place walk.after (rows walk.table) := by
  cases here : walk.after with
  | none => exact exact.grown member
  | some value =>
    refine Log.mem_beyond.mpr ⟨exact.grown member, not_le.mp fun below => unseen ?_⟩
    exact exact.covered unfinished value here item member below

private theorem read (ascending : Log.Ascending (place ∘ mark) (rows walk.table))
    (positive : 0 < limit)
    (asks : query walk.table walk.after = Log.page mark place limit (rows walk.table) walk.after)
    (unfinished : walk.finished = false) :
    Exact mark place limit rows first (.read :: labels) (walk.read query) := by
  -- Whatever part of the rest the page holds, it comes after everything seen before.
  have joined {items : List α}
      (part : items.Sublist (Log.left mark place walk.after (rows walk.table))) :
      Log.Ascending (place ∘ mark) (walk.seen ++ items) ∧ walk.seen ++ items ⊆ rows walk.table := by
    constructor
    · refine List.pairwise_append.mpr
        ⟨exact.ordered, List.Pairwise.sublist part (ascending.left _), ?_⟩
      intro item seen entry member
      exact exact.seen_lt unfinished seen (part.subset member)
    · refine List.append_subset.mpr ⟨exact.known, ?_⟩
      exact List.Subset.trans part.subset (Log.left_subset _ _)
  have written : (Label.read :: labels).count .wrote = labels.count .wrote :=
    List.count_cons_of_ne (by decide)
  rcases Log.page_cases mark place positive (rows walk.table) walk.after with
    last | ⟨front, final, back, split, full, size⟩
  · -- Everything that is left is on the page, and the walk ends.
    obtain ⟨ordered, known⟩ := joined (List.Sublist.refl _)
    have read : walk.read query = { walk with
        after := none, finished := true
        seen := walk.seen ++ Log.left mark place walk.after (rows walk.table) } := by
      rw [State.read, asks, last]
      rfl
    rw [read]
    refine ⟨exact.grown, written ▸ exact.bounded, ordered, known, nofun, nofun, nofun, ?_, nofun⟩
    intro _ item member
    by_cases seen : item ∈ walk.seen
    · exact List.mem_append_left _ seen
    · exact List.mem_append_right _ (exact.mem_left unfinished member seen)
  · -- The page is full, and the walk goes on behind its last row.
    have part : (front ++ [final]).Sublist (Log.left mark place walk.after (rows walk.table)) := by
      rw [split]
      exact List.Sublist.append_left (List.singleton_sublist.mpr List.mem_cons_self) front
    obtain ⟨ordered, known⟩ := joined part
    have read : walk.read query = { walk with
        after := some (mark final), finished := false
        seen := walk.seen ++ (front ++ [final]) } := by
      rw [State.read, asks, full]
      rfl
    have above := (List.pairwise_append.mp (split ▸ ascending.left walk.after)).2
    rw [read]
    refine ⟨exact.grown, written ▸ exact.bounded, ordered, known, ?_, ?_, ?_, nofun, ?_⟩
    · intro given here
      refine ⟨final, ?_, Option.some.inj here⟩
      exact List.mem_append_right _ (List.mem_append_right _ (List.mem_singleton.mpr rfl))
    · intro _ item member
      refine ⟨mark final, rfl, ?_⟩
      rcases List.mem_append.mp member with seen | page
      · refine (exact.seen_lt unfinished seen (split ▸ ?_)).le
        exact List.mem_append_right _ List.mem_cons_self
      · rcases List.mem_append.mp page with early | same
        · exact (above.2 item early final List.mem_cons_self).le
        · rw [List.mem_singleton.mp same]
    · intro _ given here item member below
      obtain rfl : mark final = given := Option.some.inj here
      by_cases seen : item ∈ walk.seen
      · exact List.mem_append_left _ seen
      · -- A row that is left and not behind the page is on it.
        have rest := exact.mem_left unfinished member seen
        rw [split] at rest
        refine List.mem_append_right _ ?_
        rcases List.mem_append.mp rest with early | late
        · exact List.mem_append_left _ early
        · rcases List.mem_cons.mp late with same | behind
          · exact List.mem_append_right _ (List.mem_singleton.mpr same)
          · have beyond := (List.pairwise_cons.mp above.1).1 item behind
            exact absurd below beyond.not_ge
    · intro _
      have before := exact.progress unfinished
      rw [List.count_cons_self, Nat.add_mul, Nat.one_mul]
      simp only [List.length_append, List.length_singleton]
      omega

/-- A finished walk has read the first rows in their order, among others. -/
theorem sublist (ascending : Log.Ascending (place ∘ mark) (rows first))
    (finished : walk.finished = true) : (rows first).Sublist walk.seen :=
  ascending.sublist exact.ordered (exact.complete finished)

/-- A walk ends when it has read more pages than there can be rows. -/
theorem finishes (positive : 0 < limit)
    (enough : (rows first).length + labels.count .wrote < labels.count .read) :
    walk.finished = true := by
  by_contra unfinished
  -- Every page but the last was full, and no row was read twice.
  have read := exact.progress (Bool.eq_false_iff.mpr unfinished)
  have most : walk.seen.length ≤ (rows walk.table).length :=
    (List.subperm_of_subset exact.ordered.nodup exact.known).length_le
  have stored := exact.bounded
  have pages : labels.count .read * 1 ≤ labels.count .read * limit := Nat.mul_le_mul_left _ positive
  omega

/-- A finished walk over a table that did not change has read exactly its rows. -/
theorem unpaged (ascending : Log.Ascending (place ∘ mark) (rows first))
    (finished : walk.finished = true) (same : walk.table = first) : walk.seen = rows first := by
  refine exact.ordered.eq_of_mem_iff ascending fun item => ⟨fun seen => ?_, fun member => ?_⟩
  · exact same ▸ exact.known seen
  · exact exact.complete finished member

end Exact

theorem Paged.exact (paged : Paged mark place limit rows holds query writes) (positive : 0 < limit)
    {first : σ} (sound : holds first) {labels : List Label} {walk : State σ α μ}
    (run : Trace (Step query writes) (start first) labels walk) :
    holds walk.table ∧ Exact mark place limit rows first labels walk := by
  induction run with
  | nil => exact ⟨sound, .start mark place limit rows first⟩
  | snoc _ last ih =>
    obtain ⟨held, exact⟩ := ih
    cases last with
    | wrote write =>
      obtain ⟨more, one⟩ := paged.grows _ _ write held
      exact ⟨paged.kept _ _ write held, exact.wrote more one⟩
    | read unfinished =>
      refine ⟨held, exact.read (paged.ascending _ held) positive ?_ unfinished⟩
      -- The mark to go on from is that of a row that was read, and is still there.
      refine paged.asks _ _ held fun given here => ?_
      obtain ⟨item, seen, same⟩ := exact.marked given here
      exact ⟨item, exact.known seen, same⟩

end PageWalk
