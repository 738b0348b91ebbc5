import KeeperNetwork.Indexer.BackfillLaws

/-! The on-chain event history, and what it means that a source serves it. -/

namespace KeeperNetwork.Indexer

open Soroban

section Between

variable {Item : Type}

def between (items : Nat → List Item) (first upTo : Nat) : List Item :=
  (List.range' first (upTo - first)).flatMap items

variable {items : Nat → List Item} {first middle upTo : Nat} {item : Item}

/-- A range of ledgers is a shorter one and the rest. -/
theorem between_append (low : first ≤ middle) (high : middle ≤ upTo) :
    between items first middle ++ between items middle upTo = between items first upTo := by
  -- Two ranges of ledgers in a row are one range.
  unfold between
  rw [← List.flatMap_append]
  congr 1
  obtain ⟨left, rfl⟩ := Nat.exists_eq_add_of_le low
  obtain ⟨right, rfl⟩ := Nat.exists_eq_add_of_le high
  rw [Nat.add_sub_cancel_left, Nat.add_sub_cancel_left, Nat.add_assoc, Nat.add_sub_cancel_left,
    List.range'_append_1]

/-- An item of a range happened in one of its ledgers. -/
theorem mem_between :
    item ∈ between items first upTo ↔
      ∃ ledger, first ≤ ledger ∧ ledger < upTo ∧ item ∈ items ledger := by
  unfold between
  simp only [List.mem_flatMap, List.mem_range'_1]
  constructor
  · rintro ⟨ledger, ⟨low, high⟩, member⟩
    exact ⟨ledger, low, by omega, member⟩
  · rintro ⟨ledger, low, high, member⟩
    exact ⟨ledger, ⟨low, by omega⟩, member⟩

/-- Ranges that start together are beginnings of one another. -/
theorem between_isPrefix (high : middle ≤ upTo) :
    between items first middle <+: between items first upTo := by
  -- A range that ends before it starts is empty.
  rcases Nat.le_total first middle with low | short
  · exact ⟨_, between_append low high⟩
  · have none : between items first middle = [] := by simp [between, Nat.sub_eq_zero_of_le short]
    rw [none]
    exact List.nil_prefix

/-- Keys that are distinct from the beginning on are distinct in every range. -/
theorem nodup_between {Key : Type} {key : Item → Key}
    (distinct : ∀ upTo, ((between items 0 upTo).map key).Nodup) (first upTo : Nat) :
    ((between items first upTo).map key).Nodup := by
  -- The range is the back of the one that starts at zero.
  rcases Nat.le_total first upTo with ordered | none
  · have all := distinct upTo
    rw [← between_append (Nat.zero_le first) ordered, List.map_append] at all
    exact (List.nodup_append.mp all).2.1
  · simp [between, Nat.sub_eq_zero_of_le none]

theorem filterMap_keys {Target Key : Type} {translate : Item → Option Target} {key : Item → Key}
    {key' : Target → Key} (listed : List Item)
    (kept : ∀ item target, translate item = some target → key' target = key item) :
    ((listed.filterMap translate).map key').Sublist (listed.map key) := by
  -- A translated item keeps its key, and any other is left out.
  induction listed with
  | nil => exact .slnil
  | cons item rest ih =>
    rw [List.filterMap_cons, List.map_cons]
    cases found : translate item with
    | none => exact ih.cons _
    | some target =>
      rw [List.map_cons, kept item target found]
      exact ih.cons_cons _

theorem nodup_between_filter {Key : Type} (ledger : Item → Nat) (key : Item → Key)
    (listed : List Item) (distinct : (listed.map key).Nodup) (upTo : Nat) :
    ((between (fun number => listed.filter fun item => ledger item = number) 0 upTo).map
      key).Nodup := by
  -- Equal keys belong to one item, and that lies in one ledger only.
  have alike : ∀ left ∈ listed, ∀ right ∈ listed, key left = key right → left = right :=
    fun left member right member' => List.inj_on_of_nodup_map distinct member member'
  rw [between, List.map_flatMap, List.nodup_flatMap]
  refine ⟨fun number _ => distinct.sublist (List.filter_sublist.map _), ?_⟩
  refine List.Pairwise.imp_of_mem ?_ (List.nodup_range' (s := 0) (n := upTo - 0))
  intro one other _ _ apart shared left right
  obtain ⟨item, member, rfl⟩ := List.mem_map.mp left
  obtain ⟨item', member', same⟩ := List.mem_map.mp right
  simp only [List.mem_filter, decide_eq_true_eq] at member member'
  have := alike item' member'.1 item member.1 same
  subst this
  exact apart (member.2.symm.trans member'.2)

end Between

/-- An event history, ledger by ledger in chain order. -/
structure History where
  events : Nat → List RawEvent
  /-- Events name the ledger they happened in. -/
  placed : ∀ ledger, ∀ event ∈ events ledger, event.ledger = ledger
  /-- Transaction hash and event index identify an emission. -/
  distinct : ∀ upTo, ((between events 0 upTo).map RawEvent.key).Nodup

namespace History

variable (history : History) {first upTo ledger : Nat} {event : RawEvent}

abbrev range (first upTo : Nat) : List RawEvent := between history.events first upTo

variable {history}

theorem range_append {middle : Nat} (low : first ≤ middle) (high : middle ≤ upTo) :
    history.range first middle ++ history.range middle upTo = history.range first upTo :=
  between_append low high

theorem range_single : history.range ledger (ledger + 1) = history.events ledger := by
  simp [between]

theorem distinct_range : ((history.range first upTo).map RawEvent.key).Nodup :=
  nodup_between history.distinct first upTo

theorem mem_range :
    event ∈ history.range first upTo ↔
      first ≤ event.ledger ∧ event.ledger < upTo ∧ event ∈ history.events event.ledger := by
  -- An event is in the ledger that it names.
  rw [mem_between]
  constructor
  · rintro ⟨ledger, low, high, member⟩
    have placed := history.placed ledger event member
    subst placed
    exact ⟨low, high, member⟩
  · rintro ⟨low, high, member⟩
    exact ⟨_, low, high, member⟩

theorem filter_range (low : first ≤ ledger) (high : ledger < upTo) :
    (history.range first upTo).filter (fun event => event.ledger = ledger) =
      history.events ledger := by
  -- The range is what comes before the ledger, the ledger itself, and what comes after it.
  have before : (history.range first ledger).filter (fun event => event.ledger = ledger) = [] := by
    rw [List.filter_eq_nil_iff]
    intro event member
    have := (mem_range.mp member).2.1
    simp only [decide_eq_true_eq]
    omega
  have later : (history.range (ledger + 1) upTo).filter
      (fun event => event.ledger = ledger) = [] := by
    rw [List.filter_eq_nil_iff]
    intro event member
    have := (mem_range.mp member).1
    simp only [decide_eq_true_eq]
    omega
  have whole : (history.events ledger).filter (fun event => event.ledger = ledger) =
      history.events ledger := by
    rw [List.filter_eq_self]
    intro event member
    simpa using history.placed ledger event member
  rw [← range_append low high.le, ← range_append (Nat.le_succ ledger) high, List.filter_append,
    List.filter_append, before, later, range_single, whole, List.nil_append, List.append_nil]

theorem fingerprint_range (json : Serializer) (low : first ≤ ledger) (high : ledger < upTo) :
    fingerprint json ledger (history.range first upTo) =
      fingerprint json ledger (history.events ledger) := by
  -- The fingerprint looks only at the events of its own ledger.
  have whole := @filter_range history ledger (ledger + 1) ledger le_rfl (Nat.lt_succ_self ledger)
  rw [range_single] at whole
  unfold fingerprint inLedger
  rw [filter_range low high, whole]

theorem mem_ledgersOf_range :
    ledger ∈ ledgersOf (history.range first upTo) ↔
      first ≤ ledger ∧ ledger < upTo ∧ history.events ledger ≠ [] := by
  -- A ledger is listed when the range has an event of it.
  rw [mem_ledgersOf]
  constructor
  · rintro ⟨event, member, rfl⟩
    obtain ⟨low, high, here⟩ := mem_range.mp member
    exact ⟨low, high, List.ne_nil_of_mem here⟩
  · rintro ⟨low, high, some⟩
    obtain ⟨event, member⟩ := List.exists_mem_of_ne_nil _ some
    have placed := history.placed ledger event member
    subst placed
    exact ⟨event, mem_range.mpr ⟨low, high, member⟩, rfl⟩

end History

theorem RawEvent.of_recognised {event : RawEvent} {emission : Emission}
    (found : event.recognised = some emission) :
    emission.key = event.key ∧ emission.ledger = event.ledger := by
  unfold RawEvent.recognised at found
  split at found
  · cases found
    exact ⟨rfl, rfl⟩
  · cases found

theorem recognised_keys (events : List RawEvent) :
    ((recognised events).map Emission.key).Sublist (events.map RawEvent.key) :=
  filterMap_keys _ fun _ _ found => (RawEvent.of_recognised found).1

/-- The emissions of a range of ledgers have keys of their own. -/
theorem History.distinct_recognised {history : History} {first upTo : Nat} :
    ((recognised (history.range first upTo)).map Emission.key).Nodup :=
  (recognised_keys _).nodup history.distinct_range

/-- One answer of a source covers whole ledgers of the history, as many as were asked for. -/
structure Covers (history : History) (first limit tip : Nat) (page : EventPage) (top : Nat) :
    Prop where
  events : page.events = history.range first (top + 1)
  wide : min (first + limit - 1) tip ≤ top
  closed : top ≤ tip
  /-- The source never claims to have scanned more than it returned. -/
  scanned : page.latestLedgerScanned ≤ top

/-- A source that reports a growing tip, when it answers. -/
structure Tracks (source : EventSource) (tip : Nat → Nat) : Prop where
  growing : Monotone tip
  fits : ∀ time, tip time ≤ u32Max
  latest : ∀ time answer, source.latestLedger time = some answer → answer = tip time

/--
A source that serves a fixed history up to a growing tip.

It may fail to answer at any time.
-/
structure Conforming (history : History) (source : EventSource) (tip : Nat → Nat) : Prop
    extends Tracks source tip where
  pages : ∀ time first limit page, 1 ≤ limit → source.getEvents time first limit = some page →
    ∃ top, Covers history first limit (tip time) page top

def History.ofList (events : List RawEvent) (distinct : (events.map RawEvent.key).Nodup) :
    History where
  events ledger := events.filter fun event => event.ledger = ledger
  placed ledger event member := by simpa using (List.mem_filter.mp member).2
  distinct := nodup_between_filter RawEvent.ledger RawEvent.key events distinct

def History.fixture (history : History) (tip : Nat) : EventSource where
  getEvents _ first limit :=
    some ⟨history.range first (min (first + limit - 1) tip + 1), min (first + limit - 1) tip⟩
  latestLedger _ := some tip

theorem History.fixture_conforming (history : History) {tip : Nat} (fits : tip ≤ u32Max) :
    Conforming history (history.fixture tip) fun _ => tip where
  growing := monotone_const
  fits _ := fits
  latest _ _ answered := (Option.some.inj answered).symm
  pages _ first limit page _ answered := by
    cases answered
    exact ⟨_, rfl, le_rfl, Nat.min_le_right _ _, le_rfl⟩

end KeeperNetwork.Indexer
