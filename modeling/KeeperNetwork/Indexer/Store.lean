import KeeperNetwork.Indexer.Events
import KeeperNetwork.Lib.FiniteMap
import KeeperNetwork.Lib.Replay

/-! The event store: what was ingested, how far, and what each ledger looked like. -/

namespace KeeperNetwork.Indexer

/-- Where ingestion has reached. -/
structure Checkpoint where
  lastLedger : Nat
  backfillComplete : Bool
  deriving DecidableEq, Repr

/-- A ledger's observed event content, reduced to something comparable. -/
structure LedgerFingerprint where
  ledger : Nat
  eventCount : Nat
  digest : Nat
  deriving DecidableEq, Repr

/-- Rows with ascending cursors, counted from one, none beyond the largest that was handed out. -/
structure Numbered (events : List IndexedEvent) (sequence : Nat) : Prop where
  ascending : events.Pairwise fun earlier later => earlier.cursor < later.cursor
  positive : ∀ event ∈ events, 1 ≤ event.cursor
  handedOut : ∀ event ∈ events, event.cursor ≤ sequence

/-- The tables of the store that ingestion reads and writes. -/
structure Db where
  /-- The append-only table of events, in the order of their cursors. -/
  events : List IndexedEvent
  /-- The largest cursor handed out so far, be it to a row that is there or to an ignored one. -/
  sequence : Nat
  numbered : Numbered events sequence
  fingerprints : Finmap fun _ : Nat => LedgerFingerprint
  checkpoint : Option Checkpoint

section Numbered

variable {events : List IndexedEvent} {sequence : Nat}

/-- An empty table is numbered. -/
theorem Numbered.nil : Numbered [] 0 := by
  constructor <;> simp

/-- A number that is handed out to no row leaves a gap. -/
theorem Numbered.skip (numbered : Numbered events sequence) : Numbered events (sequence + 1) where
  ascending := numbered.ascending
  positive := numbered.positive
  handedOut event stored := Nat.le_succ_of_le (numbered.handedOut event stored)

/-- A new row at the end of the table gets the next number. -/
theorem Numbered.snoc (numbered : Numbered events sequence) {event : IndexedEvent}
    (next : event.cursor = sequence + 1) : Numbered (events ++ [event]) (sequence + 1) := by
  -- The new number is above all that were handed out before.
  refine ⟨List.pairwise_append.mpr ⟨numbered.ascending, List.pairwise_singleton .., ?_⟩, ?_, ?_⟩
  · intro earlier stored later new
    have := numbered.handedOut earlier stored
    rw [List.mem_singleton.mp new]
    omega
  · refine List.forall_mem_append.mpr ⟨numbered.positive, ?_⟩
    simp [next]
  · refine List.forall_mem_append.mpr ⟨numbered.skip.handedOut, ?_⟩
    simp [next]

end Numbered

/-- A database right after its migrations. -/
def Db.blank : Db := ⟨[], 0, .nil, ∅, none⟩

namespace Db

/-- The stored events without their cursors. -/
def emissions (db : Db) : List Emission := db.events.map IndexedEvent.toEmission

/--
Store one event, ignoring it if it has already been ingested.

The new row gets the next cursor, and a row is never renumbered or removed.
-/
def insertEvent (db : Db) (emission : Emission) : Db × Option IndexedEvent :=
  if emission.key ∈ db.emissions.map Emission.key then
    -- The row is numbered before the conflict is noticed, so its number is used up.
    ({ db with sequence := db.sequence + 1, numbered := db.numbered.skip }, none)
  else
    let indexed : IndexedEvent := { emission with cursor := db.sequence + 1 }
    ({ db with
        events := db.events ++ [indexed]
        sequence := db.sequence + 1
        numbered := db.numbered.snoc rfl },
      some indexed)

/-- The database after the emissions among some events were stored, in their order. -/
def ingest (db : Db) (events : List RawEvent) : Db :=
  (recognised events).foldl (fun db emission => (db.insertEvent emission).1) db

def insertFingerprint (db : Db) (ledger : Nat) (observed : LedgerFingerprint) : Db :=
  if ledger ∈ db.fingerprints then db
  else { db with fingerprints := db.fingerprints.insert ledger observed }

def taskHistory (db : Db) (taskId : Nat) : List IndexedEvent :=
  db.events.filter fun event => event.payload.taskId = some taskId

def keeperEvents (db : Db) (keeper : String) : List IndexedEvent :=
  db.events.filter fun event => event.payload.keeper = some keeper

def adminTypes : List EventType :=
  [.initialized, .paused, .feeUpdated, .adminTransferred, .minRewardUpdated, .feesSwept, .upgraded]

/-- Every event that the admin configuration is read from, oldest first. -/
def adminEvents (db : Db) : List IndexedEvent :=
  db.events.filter fun event => event.payload.eventType ∈ adminTypes

/-- Record ingestion progress. -/
def saveCheckpoint (db : Db) (checkpoint : Checkpoint) : Db :=
  { db with checkpoint := some checkpoint }

variable (db : Db) (emission : Emission)

@[simp] theorem insertEvent_emissions : (db.insertEvent emission).1.emissions =
    Replay.record Emission.key db.emissions emission := by
  unfold insertEvent Replay.record
  split
  · rfl
  · simp [emissions]

@[simp] theorem insertEvent_fingerprints :
    (db.insertEvent emission).1.fingerprints = db.fingerprints := by
  unfold insertEvent
  split <;> rfl

@[simp] theorem insertEvent_checkpoint :
    (db.insertEvent emission).1.checkpoint = db.checkpoint := by
  unfold insertEvent
  split <;> rfl

variable {db emission}

theorem ingest_append (first rest : List RawEvent) :
    db.ingest (first ++ rest) = (db.ingest first).ingest rest := by
  simp [ingest, recognised]

theorem ingest_emissions (events : List RawEvent) : (db.ingest events).emissions =
    (recognised events).foldl (Replay.record Emission.key) db.emissions := by
  unfold ingest
  -- Each emission is recorded after those before it.
  induction recognised events generalizing db with
  | nil => rfl
  | cons emission rest ih => rw [List.foldl_cons, ih, insertEvent_emissions, List.foldl_cons]

/-- Ingestion only adds rows. -/
theorem ingest_frame (events : List RawEvent) :
    (db.ingest events).fingerprints = db.fingerprints ∧
      (db.ingest events).checkpoint = db.checkpoint := by
  unfold ingest
  -- One emission at a time.
  induction recognised events generalizing db with
  | nil => exact ⟨rfl, rfl⟩
  | cons emission rest ih =>
    obtain ⟨fingerprints, checkpoint⟩ := @ih (db.insertEvent emission).1
    exact ⟨fingerprints.trans (insertEvent_fingerprints _ _),
      checkpoint.trans (insertEvent_checkpoint _ _)⟩

theorem ingest_of_known {events : List RawEvent}
    (known : ∀ emission ∈ recognised events, emission.key ∈ db.emissions.map Emission.key) :
    (db.ingest events).events = db.events := by
  unfold ingest
  generalize recognised events = emissions at known ⊢
  -- No emission of the list is new, so every insertion only uses up a number.
  induction emissions generalizing db with
  | nil => rfl
  | cons emission rest ih =>
    obtain ⟨here, later⟩ := List.forall_mem_cons.mp known
    rw [List.foldl_cons, insertEvent, if_pos here]
    exact ih later

theorem lookup_insertFingerprint (ledger other : Nat) (observed : LedgerFingerprint) :
    (db.insertFingerprint ledger observed).fingerprints.lookup other =
      if other = ledger ∧ db.fingerprints.lookup ledger = none then some observed
      else db.fingerprints.lookup other := by
  unfold insertFingerprint
  -- A recorded fingerprint is never overwritten.
  by_cases known : ledger ∈ db.fingerprints
  · obtain ⟨recorded, found⟩ := Finmap.mem_iff.mp known
    simp [known, found]
  · have absent := Finmap.lookup_eq_none.mpr known
    simp [known, absent, Finmap.lookup_insert_eq]

end Db

end KeeperNetwork.Indexer
