import KeeperNetwork.Indexer.Reorg
import KeeperNetwork.Lib.Outcome
import KeeperNetwork.Soroban.Integer

/-! Walking a ledger range: fetch a page, check it, ingest it, checkpoint, repeat. -/

namespace KeeperNetwork.Indexer

open Soroban

/-- One page of events from a ledger range. -/
structure EventPage where
  events : List RawEvent
  latestLedgerScanned : Nat
  deriving DecidableEq, Repr

/-- A source of contract events, whose answers depend on when it is asked and may be missing. -/
structure EventSource where
  getEvents : (time startLedger limit : Nat) → Option EventPage
  latestLedger : (time : Nat) → Option Nat

/-- Why a pass ended early. -/
inductive Stop where
  | killed
  | tipUnread
  | pageUnread (ledger : Nat)
  | malformed (error : ParseError)
  | discrepancy (found : Discrepancy)
  deriving DecidableEq, Repr

/-- An indexer process: its database, and what the world still allows it to do. -/
structure Process where
  db : Db
  /-- Requests made to the event source so far, which serves as its clock. -/
  clock : Nat
  /-- Database operations left until the process is killed, absent when nothing kills it. -/
  budget : Option Nat

/-- A program of the indexer, which keeps what it wrote before it stopped. -/
abbrev Walk := EStateM Stop Process

/-- Get ready for one database operation, where the process may be killed instead. -/
def spend : Walk Unit := do
  match (← get).budget with
  | none => return
  | some 0 => throw .killed
  | some (left + 1) => modify fun process => { process with budget := some left }

/-- Change the database, and answer from it, in one atomic operation. -/
def transact {α : Type} (operation : Db → Db × α) : Walk α := do
  spend
  let process ← get
  modify fun process => { process with db := (operation process.db).1 }
  return (operation process.db).2

/-- Ask the event source, which takes time. -/
def request {α : Type} (ask : Nat → Option α) (unanswered : Stop) : Walk α := do
  let process ← get
  modify fun process => { process with clock := process.clock + 1 }
  match ask process.clock with
  | some answer => return answer
  | none => throw unanswered

/--
Compare the events of a ledger against what was recorded for it.

The fingerprint is recorded on first sight, and never changed afterwards.
-/
def observe (json : Serializer) (ledger : Nat) (events : List RawEvent) : Walk Observation := do
  let observed := fingerprint json ledger events
  match ← transact fun db => (db, db.fingerprints.lookup ledger) with
  | none =>
    transact fun db => (db.insertFingerprint ledger observed, ())
    return .firstSight observed
  | some recorded => return compareWith recorded observed

def ledgersOf (events : List RawEvent) : List Nat :=
  ((events.map RawEvent.ledger).insertionSort (· ≤ ·)).dedup

/-- Fingerprint every ledger in a page, and stop at one that reads differently than before. -/
def checkPage (json : Serializer) (events : List RawEvent) : Walk Unit :=
  (ledgersOf events).foldlM (fun _ ledger => do
    match ← observe json ledger events with
    | .discrepant found => throw (.discrepancy found)
    | _ => return) ()

/-- What one batch did. -/
structure IngestOutcome where
  stored : Nat
  duplicates : Nat
  unrecognised : Nat
  deriving DecidableEq, Repr

def ingestEvent (outcome : IngestOutcome) (event : RawEvent) : Walk IngestOutcome := do
  match parseEvent event with
  | .error error => throw (.malformed error)
  | .ok none => return { outcome with unrecognised := outcome.unrecognised + 1 }
  | .ok (some payload) =>
    match ← transact (·.insertEvent (event.emission payload)) with
    | some _ => return { outcome with stored := outcome.stored + 1 }
    | none => return { outcome with duplicates := outcome.duplicates + 1 }

def ingestBatch (events : List RawEvent) : Walk IngestOutcome :=
  events.foldlM ingestEvent ⟨0, 0, 0⟩

/-- What a completed backfill did. -/
structure BackfillReport where
  stored : Nat
  duplicates : Nat
  unrecognised : Nat
  pages : Nat
  lastLedger : Nat
  deriving DecidableEq, Repr

def BackfillReport.absorb (report : BackfillReport) (outcome : IngestOutcome) : BackfillReport :=
  { report with
    stored := report.stored + outcome.stored
    duplicates := report.duplicates + outcome.duplicates
    unrecognised := report.unrecognised + outcome.unrecognised
    pages := report.pages + 1 }

/-- What drives ingestion over a ledger range. -/
structure Backfiller where
  source : EventSource
  json : Serializer
  pageSize : Nat
  wide : 1 ≤ pageSize

def Backfiller.new (source : EventSource) (json : Serializer) (pageSize : Nat) : Backfiller :=
  ⟨source, json, max pageSize 1, Nat.le_max_right _ _⟩

namespace Backfiller

variable (filler : Backfiller)

def resumeLedger (configuredStart : Nat) (checkpoint : Option Checkpoint) : Nat :=
  match checkpoint with
  | some checkpoint => saturatingAdd u32Max checkpoint.lastLedger 1
  | none => configuredStart

/-- Fetch, check, ingest and checkpoint one page, and tell how far that got. -/
def walkPage (tip next : Nat) (report : BackfillReport) : Walk BackfillReport := do
  let page ← request (filler.source.getEvents · next filler.pageSize) (.pageUnread next)
  checkPage filler.json page.events
  let outcome ← ingestBatch page.events
  -- A range without events is scanned as well, or the walk would never end.
  let scannedThrough := max page.latestLedgerScanned
    (min (saturatingAdd u32Max next (filler.pageSize - 1)) tip)
  transact fun db => (db.saveCheckpoint ⟨scannedThrough, decide (tip ≤ scannedThrough)⟩, ())
  return { report.absorb outcome with lastLedger := scannedThrough }

def walkPages (tip : Nat) : (turns next : Nat) → BackfillReport → Walk BackfillReport
  | 0, _, _ => throw .killed
  | turns + 1, next, report =>
    if next ≤ tip then do
      let report ← filler.walkPage tip next report
      walkPages tip turns (saturatingAdd u32Max report.lastLedger 1) report
    else return report

def runToTip (turns configuredStart : Nat) : Walk BackfillReport := do
  let checkpoint ← transact fun db => (db, db.checkpoint)
  let next := resumeLedger configuredStart checkpoint
  let tip ← request filler.source.latestLedger .tipUnread
  let report ← filler.walkPages tip turns next ⟨0, 0, 0, 0, next - 1⟩
  -- Nothing was behind the tip, but a restart must not take the database for a fresh one.
  if report.pages = 0 then
    transact fun db => (db.saveCheckpoint ⟨report.lastLedger, true⟩, ())
  return report

end Backfiller

end KeeperNetwork.Indexer
