import KeeperNetwork.Lib.MapSize
import KeeperNetwork.Lib.Trace
import Mathlib.Data.Finset.Max

/-! The cache of expensive queries, under any interleaving of the calls that use it. -/

namespace KeeperNetwork.Indexer

/-- Hit and miss counters. -/
structure CacheStats where
  hits : Nat
  misses : Nat
  /-- Entries dropped because they were too old when read. -/
  expirations : Nat
  /-- Entries dropped to make room. -/
  evictions : Nat
  deriving DecidableEq, Repr

/-- A time-to-live cache, as it is configured. -/
structure TtlCache where
  /-- How long an entry may be served. -/
  ttl : Nat
  maxEntries : Nat
  /-- There is room for one entry at least. -/
  roomy : 1 ≤ maxEntries

namespace TtlCache

theorem room_pos (maxEntries : Nat) : 1 ≤ max maxEntries 1 :=
  Nat.le_max_right maxEntries 1

def withCapacity (ttl maxEntries : Nat) : TtlCache where
  ttl
  maxEntries := max maxEntries 1
  roomy := room_pos maxEntries

/-- A value and the instant at which it was stored. -/
structure Entry (V : Type) where
  value : V
  storedAt : Nat
  deriving DecidableEq, Repr

/-- What the lock of a cache guards. -/
structure Inner (K V : Type) where
  entries : Finmap fun _ : K => Entry V
  stats : CacheStats

def Inner.empty {K V : Type} : Inner K V := ⟨∅, ⟨0, 0, 0, 0⟩⟩

section Operations

variable {K V : Type} [DecidableEq K] (cache : TtlCache)

/-- A cache without a time to live is a no-op. -/
def isDisabled : Bool := cache.ttl = 0

/-- The entry may still be served. -/
def alive (now : Nat) (entry : Entry V) : Bool := now - entry.storedAt < cache.ttl

def lookup (now : Nat) (key : K) (inner : Inner K V) : Option V × Inner K V :=
  match inner.entries.lookup key with
  | some entry =>
    if cache.alive now entry then
      (some entry.value, { inner with stats := { inner.stats with hits := inner.stats.hits + 1 } })
    else
      -- An entry that is too old is dropped.
      (none, {
        entries := inner.entries.erase key
        stats := { inner.stats with
          expirations := inner.stats.expirations + 1
          misses := inner.stats.misses + 1 } })
  | none =>
    (none, { inner with stats := { inner.stats with misses := inner.stats.misses + 1 } })

def clear (inner : Inner K V) : Inner K V := { inner with entries := ∅ }

/-- The entries that may still be served. -/
def retained (now : Nat) (inner : Inner K V) : Finmap fun _ : K => Entry V :=
  inner.entries.keep fun _ entry => cache.alive now entry

/-- Make room in a full cache: drop what is too old, or else the entry that was found oldest. -/
def evict (now : Nat) (oldest : Option K) (inner : Inner K V) : Inner K V :=
  let kept := cache.retained now inner
  let stats := { inner.stats with
    evictions := inner.stats.evictions + (inner.entries.size - kept.size) }
  if cache.maxEntries ≤ kept.size then
    match oldest with
    | some victim => ⟨kept.erase victim, { stats with evictions := stats.evictions + 1 }⟩
    | none => ⟨kept, stats⟩
  else ⟨kept, stats⟩

def store (now : Nat) (oldest : Option K) (key : K) (value : V) (inner : Inner K V) : Inner K V :=
  let inner :=
    if cache.maxEntries ≤ inner.entries.size ∧ key ∉ inner.entries then cache.evict now oldest inner
    else inner
  { inner with entries := inner.entries.insert key ⟨value, now⟩ }

end Operations

/-- The key is one of those that were stored first, or there is none. -/
def IsOldest {K V : Type} [DecidableEq K] (entries : Finmap fun _ : K => Entry V) :
    Option K → Prop
  | some key => ∃ entry, entries.lookup key = some entry ∧
      ∀ other stored, entries.lookup other = some stored → entry.storedAt ≤ stored.storedAt
  | none => entries = ∅

/-- A call that has missed the cache and has not returned. -/
inductive Pending (K V : Type) where
  | computing (key : K)
  | holding (key : K) (readAt : Nat) (value : V)

/-- A process with a cache and any number of calls under way. -/
structure Service (K V : Type) where
  now : Nat
  inner : Inner K V
  /-- The calls under way, by a number that tells them apart. -/
  calls : Nat → Option (Pending K V)

def Service.started {K V : Type} : Service K V := ⟨0, .empty, fun _ => none⟩

/-- What can happen. -/
inductive Event (K V : Type) where
  | ticked
  | cleared
  | hit (call : Nat) (key : K) (value : V)
  | missed (call : Nat) (key : K)
  | bypassed (call : Nat) (key : K)
  | read (call : Nat) (key : K)
  | failed (call : Nat)
  | finished (call : Nat) (key : K) (readAt : Nat) (value : V)
  /-- A computation finishes, and its call returns the value without storing it. -/
  | returned (call : Nat) (key : K) (readAt : Nat) (value : V)

/-- An event and the instant at which it happened. -/
structure Label (K V : Type) where
  time : Nat
  event : Event K V

variable {K V : Type} [DecidableEq K]

def Service.setCall (s : Service K V) (call : Nat) (pending : Option (Pending K V)) :
    Service K V :=
  { s with calls := Function.update s.calls call pending }

/--
One step of any number of calls to `get_or_insert_with`, each of which takes its own steps in order.

A computation reads the store at one instant, and its answer to a key may change over time.
-/
inductive Step (cache : TtlCache) (answer : K → Nat → V) (s : Service K V) :
    Label K V → Service K V → Prop where
  | ticked (later : Nat) (forward : s.now ≤ later) :
      Step cache answer s ⟨s.now, .ticked⟩ { s with now := later }
  | cleared : Step cache answer s ⟨s.now, .cleared⟩ { s with inner := clear s.inner }
  | hit {call : Nat} {key : K} {value : V} {inner : Inner K V} (idle : s.calls call = none)
      (enabled : cache.isDisabled = false)
      (looked : cache.lookup s.now key s.inner = (some value, inner)) :
      Step cache answer s ⟨s.now, .hit call key value⟩ { s with inner }
  | missed {call : Nat} {key : K} {inner : Inner K V} (idle : s.calls call = none)
      (enabled : cache.isDisabled = false)
      (looked : cache.lookup s.now key s.inner = (none, inner)) :
      Step cache answer s ⟨s.now, .missed call key⟩
        ({ s with inner }.setCall call (some (.computing key)))
  | bypassed {call : Nat} {key : K} (idle : s.calls call = none)
      (disabled : cache.isDisabled = true) :
      Step cache answer s ⟨s.now, .bypassed call key⟩ (s.setCall call (some (.computing key)))
  | read {call : Nat} {key : K} (waiting : s.calls call = some (.computing key)) :
      Step cache answer s ⟨s.now, .read call key⟩
        (s.setCall call (some (.holding key s.now (answer key s.now))))
  | failed {call : Nat} {pending : Pending K V} (waiting : s.calls call = some pending) :
      Step cache answer s ⟨s.now, .failed call⟩ (s.setCall call none)
  | finished {call : Nat} {key : K} {readAt : Nat} {value : V} {oldest : Option K}
      (holding : s.calls call = some (.holding key readAt value))
      (enabled : cache.isDisabled = false)
      (chosen : IsOldest (cache.retained s.now s.inner) oldest) :
      Step cache answer s ⟨s.now, .finished call key readAt value⟩
        ({ s with inner := cache.store s.now oldest key value s.inner }.setCall call none)
  | returned {call : Nat} {key : K} {readAt : Nat} {value : V}
      (holding : s.calls call = some (.holding key readAt value))
      (disabled : cache.isDisabled = true) :
      Step cache answer s ⟨s.now, .returned call key readAt value⟩ (s.setCall call none)

section Laws

variable {cache : TtlCache} {now : Nat} {key other : K} {value : V} {inner left : Inner K V}
  {entry : Entry V} {oldest : Option K} {result : Option V}

theorem lookup_hit (looked : cache.lookup now key inner = (some value, left)) :
    ∃ entry, inner.entries.lookup key = some entry ∧ entry.value = value ∧
      now < entry.storedAt + cache.ttl := by
  unfold lookup at looked
  split at looked
  next entry stored =>
    split at looked
    next young =>
      have young : now - entry.storedAt < cache.ttl := by simpa [alive] using young
      cases looked
      exact ⟨entry, stored, rfl, by omega⟩
    next => cases looked
  next => cases looked

theorem lookup_entries (looked : cache.lookup now key inner = (result, left)) :
    left.entries = inner.entries ∨
      key ∈ inner.entries ∧ left.entries = inner.entries.erase key := by
  unfold lookup at looked
  split at looked
  next entry stored =>
    split at looked
    · cases looked
      exact .inl rfl
    · cases looked
      exact .inr ⟨Finmap.mem_iff.mpr ⟨entry, stored⟩, rfl⟩
  next =>
    cases looked
    exact .inl rfl

theorem cached_of_lookup (looked : cache.lookup now key inner = (result, left))
    (cached : left.entries.lookup other = some entry) :
    inner.entries.lookup other = some entry := by
  rcases lookup_entries looked with same | ⟨-, erased⟩
  · rwa [same] at cached
  · exact Finmap.lookup_of_erase (erased ▸ cached)

theorem size_lookup_le (looked : cache.lookup now key inner = (result, left)) :
    left.entries.size ≤ inner.entries.size := by
  rcases lookup_entries looked with same | ⟨present, erased⟩
  · rw [same]
  · rw [erased, ← Finmap.size_erase_of_mem present]
    exact Nat.le_succ _

theorem evict_entries :
    (cache.evict now oldest inner).entries = cache.retained now inner ∧
        (oldest = none ∨ (cache.retained now inner).size < cache.maxEntries) ∨
      ∃ victim, oldest = some victim ∧
        (cache.evict now oldest inner).entries = (cache.retained now inner).erase victim := by
  unfold evict
  by_cases full : cache.maxEntries ≤ (cache.retained now inner).size
  · rcases oldest with _ | victim
    · exact .inl ⟨by rw [if_pos full], .inl rfl⟩
    · exact .inr ⟨victim, rfl, by rw [if_pos full]⟩
  · exact .inl ⟨by rw [if_neg full], .inr (Nat.lt_of_not_le full)⟩

theorem cached_of_evict
    (cached : (cache.evict now oldest inner).entries.lookup other = some entry) :
    inner.entries.lookup other = some entry := by
  have kept : (cache.retained now inner).lookup other = some entry := by
    rcases @evict_entries _ _ _ cache now inner oldest with ⟨same, -⟩ | ⟨victim, -, erased⟩
    · rwa [same] at cached
    · exact Finmap.lookup_of_erase (erased ▸ cached)
  exact (Finmap.lookup_keep.mp kept).1

theorem cached_of_store
    (cached : (cache.store now oldest key value inner).entries.lookup other = some entry) :
    (other = key ∧ entry = ⟨value, now⟩) ∨ inner.entries.lookup other = some entry := by
  unfold store at cached
  rw [Finmap.lookup_insert_eq] at cached
  split at cached
  next equal => exact .inl ⟨equal, (Option.some.inj cached).symm⟩
  next =>
    right
    split at cached
    · exact cached_of_evict cached
    · exact cached

theorem size_evict_lt (chosen : IsOldest (cache.retained now inner) oldest)
    (within : inner.entries.size ≤ cache.maxEntries) :
    (cache.evict now oldest inner).entries.size < cache.maxEntries := by
  have fewer : (cache.retained now inner).size ≤ inner.entries.size := Finmap.size_keep_le
  have parts := @evict_entries _ _ _ cache now inner oldest
  rcases parts with ⟨same, rfl | free⟩ | ⟨victim, rfl, erased⟩
  · -- Without an oldest entry there is none at all.
    have empty : cache.retained now inner = ∅ := chosen
    rw [same, empty, Finmap.size_empty]
    exact cache.roomy
  · rwa [same]
  · -- The oldest entry is one of those that are counted.
    obtain ⟨entry, stored, -⟩ := chosen
    have one := Finmap.size_erase_of_mem (Finmap.mem_iff.mpr ⟨entry, stored⟩)
    rw [erased]
    omega

theorem size_store_le (chosen : IsOldest (cache.retained now inner) oldest)
    (within : inner.entries.size ≤ cache.maxEntries) :
    (cache.store now oldest key value inner).entries.size ≤ cache.maxEntries := by
  -- Writing a key adds at most one, and a key that would be one too many is written after an
  -- eviction.
  have grows (m : Finmap fun _ : K => Entry V) (room : m.size < cache.maxEntries) :
      (m.insert key ⟨value, now⟩).size ≤ cache.maxEntries := by
    by_cases present : key ∈ m
    · rw [Finmap.size_insert_of_mem present]
      exact room.le
    · rw [Finmap.size_insert_of_notMem present]
      exact room
  unfold store
  split
  next => exact grows _ (size_evict_lt chosen within)
  next free =>
    by_cases present : key ∈ inner.entries
    · rw [Finmap.size_insert_of_mem present]
      exact within
    · exact grows _ (Nat.lt_of_not_le fun full => free ⟨full, present⟩)

theorem exists_oldest (entries : Finmap fun _ : K => Entry V) :
    ∃ oldest, IsOldest entries oldest := by
  rcases entries.keys.eq_empty_or_nonempty with empty | stored
  · refine ⟨none, Finmap.ext_lookup fun key => ?_⟩
    rw [Finmap.lookup_empty, Finmap.lookup_eq_none, ← Finmap.mem_keys, empty]
    exact Finset.notMem_empty key
  · -- The keys are finitely many, so that one of them has the least instant.
    let instant (key : K) : Nat := (entries.lookup key).elim 0 Entry.storedAt
    obtain ⟨key, member, least⟩ := Finset.exists_min_image entries.keys instant stored
    obtain ⟨entry, found⟩ := Finmap.mem_iff.mp (Finmap.mem_keys.mp member)
    refine ⟨some key, entry, found, fun other stored there => ?_⟩
    have before := least other (Finmap.mem_keys.mpr (Finmap.mem_iff.mpr ⟨stored, there⟩))
    simpa only [instant, found, there, Option.elim_some] using before

theorem store_of_room (room : inner.entries.size < cache.maxEntries) :
    cache.store now oldest key value inner =
      { inner with entries := inner.entries.insert key ⟨value, now⟩ } := by
  unfold store
  rw [if_neg fun full => absurd full.1 (Nat.not_le_of_lt room)]

end Laws

section Steps

variable {cache : TtlCache} {answer : K → Nat → V} {s after : Service K V} {label : Label K V}
  {call readAt : Nat} {key : K} {value : V} {entry : Entry V}

theorem Step.clock (step : Step cache answer s label after) :
    label.time = s.now ∧ s.now ≤ after.now := by
  cases step with
  | ticked later forward => exact ⟨rfl, forward⟩
  | _ => exact ⟨rfl, le_rfl⟩

theorem Step.cached (step : Step cache answer s label after)
    (found : after.inner.entries.lookup key = some entry) :
    s.inner.entries.lookup key = some entry ∨
      ∃ call readAt, label = ⟨entry.storedAt, .finished call key readAt entry.value⟩ := by
  cases step with
  | cleared => cases found
  | hit _ _ looked | missed _ _ looked => exact .inl (cached_of_lookup looked found)
  | finished holding enabled chosen =>
    rcases cached_of_store found with ⟨rfl, rfl⟩ | before
    · exact .inr ⟨_, _, rfl⟩
    · exact .inl before
  | _ => exact .inl found

omit [DecidableEq K] in
theorem Service.setCall_calls {pending : Option (Pending K V)} {other : Nat} :
    (s.setCall call pending).calls other = if other = call then pending else s.calls other :=
  Function.update_apply _ _ _ _

theorem Step.held (step : Step cache answer s label after)
    (holding : after.calls call = some (.holding key readAt value)) :
    s.calls call = some (.holding key readAt value) ∨
      label = ⟨readAt, .read call key⟩ ∧ value = answer key readAt := by
  -- A call that was set holds a value only if it has just read one.
  have unset {s : Service K V} {other : Nat} {pending : Option (Pending K V)}
      (holding : (s.setCall other pending).calls call = some (.holding key readAt value))
      (empty : pending ≠ some (.holding key readAt value)) :
      s.calls call = some (.holding key readAt value) := by
    rw [Service.setCall_calls] at holding
    split at holding
    · exact absurd holding empty
    · exact holding
  cases step with
  | ticked | cleared | hit => exact .inl holding
  | missed | bypassed | failed | finished | returned => exact .inl (unset holding nofun)
  | read waiting =>
    rw [Service.setCall_calls] at holding
    split at holding
    next same =>
      cases holding
      exact .inr ⟨by rw [same], rfl⟩
    next => exact .inl holding

theorem Step.of_finished {time : Nat}
    (step : Step cache answer s ⟨time, .finished call key readAt value⟩ after) :
    s.calls call = some (.holding key readAt value) := by
  cases step with
  | finished holding enabled chosen => exact holding

theorem Step.of_hit {time : Nat} (step : Step cache answer s ⟨time, .hit call key value⟩ after) :
    ∃ entry, s.inner.entries.lookup key = some entry ∧ entry.value = value ∧
      time < entry.storedAt + cache.ttl := by
  cases step with
  | hit idle enabled looked => exact lookup_hit looked

theorem Step.size_le (step : Step cache answer s label after)
    (within : s.inner.entries.size ≤ cache.maxEntries) :
    after.inner.entries.size ≤ cache.maxEntries := by
  cases step with
  | cleared => exact Nat.zero_le _
  | hit _ _ looked | missed _ _ looked => exact (size_lookup_le looked).trans within
  | finished holding enabled chosen => exact size_store_le chosen within
  | _ => exact within

theorem Step.stored (holding : s.calls call = some (.holding key readAt value))
    (enabled : cache.isDisabled = false) (room : s.inner.entries.size < cache.maxEntries) :
    Step cache answer s ⟨s.now, .finished call key readAt value⟩
      (Service.setCall { s with inner := { s.inner with
        entries := s.inner.entries.insert key ⟨value, s.now⟩ } } call none) := by
  obtain ⟨oldest, chosen⟩ := exists_oldest (cache.retained s.now s.inner)
  have step := @Step.finished _ _ _ cache answer s call key readAt value oldest holding enabled
    chosen
  rwa [store_of_room room] at step

end Steps

section Runs

variable {cache : TtlCache} {answer : K → Nat → V} {labels : List (Label K V)} {s : Service K V}

theorem Run.past (run : Trace (Step cache answer) .started labels s) :
    ∀ label ∈ labels, label.time ≤ s.now := by
  induction run with
  | nil => exact fun _ member => absurd member List.not_mem_nil
  | snoc _ last ih =>
    intro label member
    obtain ⟨now, forward⟩ := last.clock
    rcases List.mem_cons.mp member with rfl | earlier
    · exact now.trans_le forward
    · exact (ih label earlier).trans forward

theorem Run.ordered (run : Trace (Step cache answer) .started labels s) :
    labels.Pairwise fun later earlier => earlier.time ≤ later.time := by
  induction run with
  | nil => exact .nil
  | snoc run last ih =>
    refine .cons (fun label earlier => ?_) ih
    exact (Run.past run label earlier).trans_eq last.clock.1.symm

theorem Run.held (run : Trace (Step cache answer) .started labels s) :
    ∀ call key readAt value, s.calls call = some (.holding key readAt value) →
      ⟨readAt, .read call key⟩ ∈ labels ∧ value = answer key readAt := by
  induction run with
  | nil => nofun
  | snoc _ last ih =>
    intro call key readAt value holding
    rcases last.held holding with before | ⟨rfl, answered⟩
    · obtain ⟨read, answered⟩ := ih _ _ _ _ before
      exact ⟨List.mem_cons_of_mem _ read, answered⟩
    · exact ⟨List.mem_cons_self, answered⟩

theorem Run.finished (run : Trace (Step cache answer) .started labels s) :
    ∀ time call key readAt value, ⟨time, .finished call key readAt value⟩ ∈ labels →
      ⟨readAt, .read call key⟩ ∈ labels ∧ readAt ≤ time ∧ value = answer key readAt := by
  induction run with
  | nil => exact fun _ _ _ _ _ member => absurd member List.not_mem_nil
  | snoc run last ih =>
    intro time call key readAt value member
    rcases List.mem_cons.mp member with rfl | earlier
    · obtain ⟨read, answered⟩ := Run.held run _ _ _ _ last.of_finished
      have before := (Run.past run _ read).trans_eq last.clock.1.symm
      exact ⟨List.mem_cons_of_mem _ read, before, answered⟩
    · obtain ⟨read, before, answered⟩ := ih _ _ _ _ _ earlier
      exact ⟨List.mem_cons_of_mem _ read, before, answered⟩

theorem Run.cached (run : Trace (Step cache answer) .started labels s) :
    ∀ key entry, s.inner.entries.lookup key = some entry →
      ∃ call readAt, ⟨entry.storedAt, .finished call key readAt entry.value⟩ ∈ labels := by
  induction run with
  | nil => nofun
  | snoc _ last ih =>
    intro key entry found
    rcases last.cached found with before | ⟨call, readAt, rfl⟩
    · obtain ⟨call, readAt, finished⟩ := ih key entry before
      exact ⟨call, readAt, List.mem_cons_of_mem _ finished⟩
    · exact ⟨call, readAt, List.mem_cons_self⟩

theorem Run.hit (run : Trace (Step cache answer) .started labels s) :
    ∀ time call key value, ⟨time, .hit call key value⟩ ∈ labels →
      ∃ stored computed readAt, ⟨stored, .finished computed key readAt value⟩ ∈ labels ∧
        stored ≤ time ∧ time < stored + cache.ttl := by
  induction run with
  | nil => exact fun _ _ _ _ member => absurd member List.not_mem_nil
  | snoc run last ih =>
    intro time call key value member
    rcases List.mem_cons.mp member with rfl | earlier
    · obtain ⟨entry, found, rfl, young⟩ := last.of_hit
      obtain ⟨computed, readAt, finished⟩ := Run.cached run key entry found
      have before := (Run.past run _ finished).trans_eq last.clock.1.symm
      exact ⟨_, computed, readAt, List.mem_cons_of_mem _ finished, before, young⟩
    · obtain ⟨stored, computed, readAt, finished, bounds⟩ := ih _ _ _ _ earlier
      exact ⟨stored, computed, readAt, List.mem_cons_of_mem _ finished, bounds⟩

theorem Run.size_le (run : Trace (Step cache answer) .started labels s) :
    s.inner.entries.size ≤ cache.maxEntries := by
  induction run with
  | nil => exact Nat.zero_le _
  | snoc _ last within => exact last.size_le within

def readsClock (_ : Unit) (time : Nat) : Nat := time

/-- One call stores what it reads, and another one is served that. -/
def promptLabels : List (Label Unit Nat) :=
  [⟨5, .hit 2 () 0⟩, ⟨0, .ticked⟩, ⟨0, .finished 1 () 0 0⟩, ⟨0, .read 1 ()⟩, ⟨0, .missed 1 ()⟩]

/-- One call overtakes another between its read and its end. -/
def overtakenLabels : List (Label Unit Nat) :=
  [⟨100, .hit 4 () 0⟩, ⟨100, .finished 1 () 0 0⟩, ⟨99, .ticked⟩, ⟨99, .hit 3 () 99⟩,
    ⟨99, .finished 2 () 99 99⟩, ⟨99, .read 2 ()⟩, ⟨99, .missed 2 ()⟩, ⟨0, .ticked⟩,
    ⟨0, .read 1 ()⟩, ⟨0, .missed 1 ()⟩]

theorem exists_prompt : ∃ s, Trace (Step (withCapacity 10 4) readsClock) .started promptLabels s :=
  ⟨_, .snoc (.snoc (.snoc (.snoc (.snoc .nil
    (.missed rfl rfl rfl))
    (.read rfl))
    (.stored rfl rfl (by decide)))
    (.ticked 5 (Nat.zero_le _)))
    (.hit rfl rfl rfl)⟩

theorem exists_overtaken :
    ∃ s, Trace (Step (withCapacity 10 4) readsClock) .started overtakenLabels s :=
  ⟨_, .snoc (.snoc (.snoc (.snoc (.snoc (.snoc (.snoc (.snoc (.snoc (.snoc .nil
    (.missed rfl rfl rfl))
    (.read rfl))
    (.ticked 99 (Nat.zero_le _)))
    -- The first call is still under way when the second one finishes.
    (.missed rfl rfl rfl))
    (.read rfl))
    (.stored rfl rfl (by decide)))
    (.hit rfl rfl rfl))
    (.ticked 100 (Nat.le_succ _)))
    (.stored rfl rfl (by decide)))
    (.hit rfl rfl rfl)⟩

/--
What a cache serves is as fresh as its time to live and the slowest of its computations together.

An entry is stamped when it is stored, and not when its computation read the store. So a hit may
be older than the time to live, and the value of an older read may replace that of a newer one.
Both are ruled out exactly as far as computations store their value soon after they read it: with
a `lag` of zero, every hit is younger than the time to live and values are replaced in the order
of their reads.
-/
theorem hits_fresh_up_to_lag (run : Trace (Step cache answer) .started labels s) (lag : Nat)
    (prompt : ∀ time call key readAt value,
      ⟨time, .finished call key readAt value⟩ ∈ labels → time ≤ readAt + lag) :
    (∀ time call key value, ⟨time, .hit call key value⟩ ∈ labels →
      ∃ instant, instant ≤ time ∧ time < instant + cache.ttl + lag ∧
        value = answer key instant) ∧
    (∀ time call key readAt value, ⟨time, .finished call key readAt value⟩ ∈ labels →
      ⟨readAt, .read call key⟩ ∈ labels ∧ readAt ≤ time ∧ value = answer key readAt) ∧
    (labels.Pairwise fun later earlier => ∀ key newCall newRead newValue oldCall oldRead oldValue,
      later.event = .finished newCall key newRead newValue →
      earlier.event = .finished oldCall key oldRead oldValue → oldRead ≤ newRead + lag) ∧
    (∀ key entry, s.inner.entries.lookup key = some entry →
      ∃ call readAt, ⟨entry.storedAt, .finished call key readAt entry.value⟩ ∈ labels) ∧
    s.inner.entries.size ≤ cache.maxEntries := by
  refine ⟨?_, Run.finished run, ?_, Run.cached run, Run.size_le run⟩
  · intro time call key value hit
    obtain ⟨stored, computed, readAt, finished, before, young⟩ := Run.hit run _ _ _ _ hit
    obtain ⟨-, read, answered⟩ := Run.finished run _ _ _ _ _ finished
    have soon := prompt _ _ _ _ _ finished
    exact ⟨readAt, read.trans before, by omega, answered⟩
  · -- A value is read before it is stored, and the newer one is stored last and soon.
    refine (Run.ordered run).imp_of_mem ?_
    rintro ⟨_, _⟩ ⟨_, _⟩ newer older order key _ _ _ _ _ _ rfl rfl
    obtain ⟨-, read, -⟩ := Run.finished run _ _ _ _ _ older
    have soon := prompt _ _ _ _ _ newer
    exact (read.trans order).trans soon

/-- A call stores at once what it has read, and five ticks later another one is served that. -/
theorem hits_fresh_up_to_lag_prompt : ∃ s : Service Unit Nat,
    Trace (Step (withCapacity 10 4) readsClock) .started promptLabels s ∧
      ∀ time call key value, ⟨time, .hit call key value⟩ ∈ promptLabels →
        ∃ instant, instant ≤ time ∧ time < instant + 10 + 0 ∧ value = readsClock key instant := by
  have ⟨s, run⟩ := exists_prompt
  refine ⟨s, run, (hits_fresh_up_to_lag run 0 ?_).1⟩
  intro time call key readAt value member
  have atOnce : time = 0 ∧ call = 1 ∧ readAt = 0 ∧ value = 0 := by
    simpa [promptLabels] using member
  omega

/--
A slow computation replaces a newer value by an older one, which is served long after its time.

The store was read at 0 and at 99. A call is served the newer answer, and one tick later another
call is served the older one, although the time to live is 10.
-/
theorem hit_of_outdated_value : ∃ s : Service Unit Nat,
    Trace (Step (withCapacity 10 4) readsClock) .started overtakenLabels s ∧
      ⟨99, .hit 3 () 99⟩ ∈ overtakenLabels ∧ ⟨100, .hit 4 () 0⟩ ∈ overtakenLabels ∧
      ¬ ∃ instant, 100 ≤ instant + 10 ∧ instant ≤ 100 ∧ 0 = readsClock () instant := by
  obtain ⟨s, run⟩ := exists_overtaken
  refine ⟨s, run, by simp [overtakenLabels], by simp [overtakenLabels], ?_⟩
  rintro ⟨instant, young, -, answered⟩
  change 0 = instant at answered
  omega

end Runs

end TtlCache

end KeeperNetwork.Indexer
