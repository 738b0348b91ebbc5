import KeeperNetwork.Indexer.Backfill

/-! What each part of a pass does to the database, wherever it is interrupted. -/

namespace KeeperNetwork.Indexer

open Soroban EStateM

variable {α : Type} {json : Serializer} {w : Process} {failed : Stop → Process → Prop}

/-- A later point of a process that did not ask its source in between. -/
structure Process.Follows (w w' : Process) : Prop where
  clock : w'.clock = w.clock
  /-- What nothing kills, nothing kills later. -/
  immortal : w.budget = none → w'.budget = none

theorem Process.Follows.trans {w w' w'' : Process} (first : w.Follows w')
    (second : w'.Follows w'') : w.Follows w'' :=
  ⟨second.clock.trans first.clock, second.immortal ∘ first.immortal⟩

/-- Nothing killed a process in the meantime that something kills later. -/
theorem Process.Follows.mortal {w w' : Process} (follows : w.Follows w') (dies : w'.budget ≠ none) :
    w.budget ≠ none := dies ∘ follows.immortal

theorem ends_transact {operation : Db → Db × α} {returned : α → Process → Prop}
    (killed : w.budget ≠ none → failed .killed w)
    (happened : ∀ budget, (w.budget = none → budget = none) →
      returned (operation w.db).2 { w with db := (operation w.db).1, budget }) :
    (transact operation).Ends w returned failed := by
  unfold transact spend
  simp only [ends_bind, ends_get]
  -- Without a budget nothing is killed, and with one the last unit kills.
  cases budget : w.budget with
  | none =>
    have done := happened none fun _ => rfl
    rw [← budget] at done
    simpa using done
  | some left =>
    cases left with
    | zero => simpa using killed (by simp [budget])
    | succ left => simpa using happened (some left) (by simp [budget])

theorem ends_request {ask : Nat → Option α} {unanswered : Stop} {returned : α → Process → Prop}
    (silent : ask w.clock = none → failed unanswered { w with clock := w.clock + 1 })
    (answered : ∀ answer, ask w.clock = some answer →
      returned answer { w with clock := w.clock + 1 }) :
    (request ask unanswered).Ends w returned failed := by
  unfold request
  simp only [ends_bind, ends_get, ends_modify]
  cases asked : ask w.clock with
  | none => simpa using silent asked
  | some answer => simpa using answered answer asked

/-- Some ledgers of a page were checked: they are recorded now, as the page has them. -/
structure Checked (json : Serializer) (page : List RawEvent) (seen : List Nat) (db db' : Db) :
    Prop where
  events : db'.events = db.events
  checkpoint : db'.checkpoint = db.checkpoint
  looked : ∀ ledger, db'.fingerprints.lookup ledger =
    if ledger ∈ seen then some (fingerprint json ledger page) else db.fingerprints.lookup ledger
  /-- What was recorded before is what the page has. -/
  consistent : ∀ ledger ∈ seen, ∀ recorded, db.fingerprints.lookup ledger = some recorded →
    recorded = fingerprint json ledger page

theorem Checked.next {page : List RawEvent} {seen : List Nat} {ledger : Nat} {db db' db'' : Db}
    (checked : Checked json page seen db db') (unseen : ledger ∉ seen)
    (events : db''.events = db'.events) (checkpoint : db''.checkpoint = db'.checkpoint)
    (looked : ∀ other, db''.fingerprints.lookup other =
      if other = ledger then some (fingerprint json ledger page)
      else db'.fingerprints.lookup other)
    (consistent : ∀ recorded, db'.fingerprints.lookup ledger = some recorded →
      recorded = fingerprint json ledger page) :
    Checked json page (seen ++ [ledger]) db db'' where
  events := events.trans checked.events
  checkpoint := checkpoint.trans checked.checkpoint
  -- The last ledger is looked up where it was written, and the others as before.
  looked other := by
    rw [looked, checked.looked]
    by_cases same : other = ledger
    · subst same
      simp
    · simp [same]
  consistent other member recorded found := by
    rcases List.mem_append.mp member with earlier | last
    · exact checked.consistent other earlier recorded found
    · obtain rfl := List.mem_singleton.mp last
      exact consistent recorded (by rw [checked.looked, if_neg unseen, found])

theorem ledgersOf_nodup (events : List RawEvent) : (ledgersOf events).Nodup := List.nodup_dedup _

theorem ledgersOf_ascending (events : List RawEvent) : (ledgersOf events).Pairwise (· < ·) := by
  -- The ledgers are sorted, and none is listed twice.
  have sorted : (ledgersOf events).Pairwise (· ≤ ·) :=
    (List.pairwise_insertionSort _ _).sublist (List.dedup_sublist _)
  exact (sorted.and (ledgersOf_nodup events)).imp fun ordered =>
    lt_of_le_of_ne ordered.1 ordered.2

theorem mem_ledgersOf {events : List RawEvent} {ledger : Nat} :
    ledger ∈ ledgersOf events ↔ ∃ event ∈ events, event.ledger = ledger := by
  simp [ledgersOf, List.mem_dedup, List.mem_insertionSort]

/-- Some ledgers of a page were checked, and some of its events stored. -/
structure Partly (json : Serializer) (page : List RawEvent) (seen : List Nat)
    (done : List RawEvent) (w w' : Process) : Prop where
  follows : w.Follows w'
  ledgers : seen <+: ledgersOf page
  events : done <+: page
  stored : ∃ db, Checked json page seen w.db db ∧ w'.db = db.ingest done

/-- What ends a page early. -/
inductive PageStop (json : Serializer) (page : List RawEvent) (w w' : Process) : Stop → Prop
  | killed {seen : List Nat} {done : List RawEvent} (partly : Partly json page seen done w w')
      (mortal : w.budget ≠ none) : PageStop json page w w' .killed
  /-- Its ledgers are all checked by then. -/
  | malformed {done : List RawEvent} {event : RawEvent} {error : ParseError}
      (partly : Partly json page (ledgersOf page) done w w') (member : event ∈ page)
      (malformed : parseEvent event = .error error) : PageStop json page w w' (.malformed error)
  /-- The first ledger that contradicts its record, with nothing stored. -/
  | discrepant {seen later : List Nat} {recorded : LedgerFingerprint} {found : Discrepancy}
      (partly : Partly json page seen [] w w')
      (split : ledgersOf page = seen ++ found.ledger :: later)
      (kept : w.db.fingerprints.lookup found.ledger = some recorded)
      (differs : recorded ≠ fingerprint json found.ledger page) :
      PageStop json page w w' (.discrepancy found)

theorem PageStop.partly {page : List RawEvent} {w' : Process} {stop : Stop}
    (stopped : PageStop json page w w' stop) : ∃ seen done, Partly json page seen done w w' := by
  cases stopped with
  | killed partly | malformed partly | discrepant partly => exact ⟨_, _, partly⟩

/-- A page is checked ledger by ledger, or stops the walk. -/
theorem checkPage_ends (json : Serializer) (page : List RawEvent) (w : Process) :
    (checkPage json page).Ends w
      (fun _ w' => w.Follows w' ∧ Checked json page (ledgersOf page) w.db w'.db)
      (fun stop w' => PageStop json page w w' stop) := by
  refine ends_foldlM (fun seen _ w' => w.Follows w' ∧ Checked json page seen w.db w'.db)
    ?_ () ⟨⟨rfl, id⟩, rfl, rfl, fun ledger => by simp, fun ledger member => by simp at member⟩
  intro seen ledger rest split _ middle ⟨follows, checked⟩
  have unseen : ledger ∉ seen := by
    have distinct := ledgersOf_nodup page
    rw [split, List.nodup_append] at distinct
    exact fun member => distinct.2.2 _ member _ List.mem_cons_self rfl
  have partly (budget : Option Nat) (lives : middle.budget = none → budget = none) :
      Partly json page seen [] w { middle with budget } :=
    ⟨follows.trans ⟨rfl, lives⟩, ⟨_, split.symm⟩, List.nil_prefix, _, checked, rfl⟩
  -- The lookup is one transaction, and recording a first sight is another.
  unfold observe
  rw [ends_bind, ends_bind]
  refine ends_transact (fun mortal => .killed (partly _ id) (follows.mortal mortal))
    fun budget immortal => ?_
  cases found : middle.db.fingerprints.lookup ledger with
  | none =>
    rw [ends_bind]
    refine ends_transact (fun mortal => ?_) fun budget' immortal' => ?_
    · exact .killed (partly _ immortal) (follows.mortal (mortal ∘ immortal))
    · refine ⟨follows.trans ⟨rfl, immortal' ∘ immortal⟩, checked.next unseen ?_ ?_ ?_ ?_⟩
      · unfold Db.insertFingerprint; split <;> rfl
      · unfold Db.insertFingerprint; split <;> rfl
      · intro other
        rw [Db.lookup_insertFingerprint]
        simp [found]
      · simp [found]
  | some recorded =>
    rw [ends_pure]
    unfold compareWith
    by_cases same : recorded = fingerprint json ledger page
    · -- The ledger reads as it did before.
      rw [if_pos same]
      refine ⟨follows.trans ⟨rfl, immortal⟩, checked.next unseen rfl rfl ?_ ?_⟩
      · intro other
        split
        · next here => rw [here, found, same]
        · rfl
      · rintro other known
        exact (Option.some.inj (known.symm.trans found)).trans same
    · rw [if_neg same]
      rw [checked.looked, if_neg unseen] at found
      exact .discrepant (partly _ immortal) split found same

def RawEvent.skipped (event : RawEvent) : Bool :=
  match parseEvent event with
  | .ok none => true
  | _ => false

theorem ingestEvent_ends (outcome : IngestOutcome) (event : RawEvent) (w : Process) :
    (ingestEvent outcome event).Ends w
      (fun outcome' w' => w.Follows w' ∧ w'.db = w.db.ingest [event] ∧
        (∃ payload, parseEvent event = .ok payload) ∧
        outcome'.unrecognised = outcome.unrecognised + [event].countP RawEvent.skipped)
      (fun stop w' => w.Follows w' ∧ w'.db = w.db ∧ ((stop = .killed ∧ w.budget ≠ none) ∨
        ∃ error, parseEvent event = .error error ∧ stop = .malformed error)) := by
  unfold ingestEvent
  -- A malformed event stops the batch, an unknown one is passed over, and any other is stored.
  cases parsed : parseEvent event with
  | error error => exact ⟨⟨rfl, id⟩, rfl, .inr ⟨error, rfl, rfl⟩⟩
  | ok decoded =>
    cases decoded with
    | none =>
      refine ⟨⟨rfl, id⟩, ?_, ⟨none, rfl⟩, ?_⟩
      · simp [Db.ingest, recognised, RawEvent.recognised, parsed]
      · simp [RawEvent.skipped, parsed]
    | some payload =>
      simp only [ends_bind]
      apply ends_transact
      · exact fun mortal => ⟨⟨rfl, id⟩, rfl, .inl ⟨rfl, mortal⟩⟩
      · intro budget immortal
        have stored : (w.db.insertEvent (event.emission payload)).1 = w.db.ingest [event] := by
          simp [Db.ingest, recognised, RawEvent.recognised, parsed]
        have known : [event].countP RawEvent.skipped = 0 := by simp [RawEvent.skipped, parsed]
        rw [known]
        cases (w.db.insertEvent (event.emission payload)).2 <;>
          exact ⟨⟨rfl, immortal⟩, stored, ⟨_, rfl⟩, rfl⟩

/--
Ingesting a batch stores its events in order, up to where it is interrupted.

One that is not has counted the events that the parser skips.
-/
theorem ingestBatch_ends (page : List RawEvent) (w : Process) :
    (ingestBatch page).Ends w
      (fun outcome w' => w.Follows w' ∧ w'.db = w.db.ingest page ∧
        (∀ event ∈ page, ∃ payload, parseEvent event = .ok payload) ∧
        outcome.unrecognised = page.countP RawEvent.skipped)
      (fun stop w' => ∃ seen rest, page = seen ++ rest ∧ w.Follows w' ∧
        w'.db = w.db.ingest seen ∧ ((stop = .killed ∧ w.budget ≠ none) ∨
          ∃ event ∈ page, ∃ error, parseEvent event = .error error ∧ stop = .malformed error)) := by
  -- Between two events, exactly those seen so far are stored or counted.
  refine ends_foldlM (fun seen (outcome : IngestOutcome) w' =>
      w.Follows w' ∧ w'.db = w.db.ingest seen ∧
        (∀ event ∈ seen, ∃ payload, parseEvent event = .ok payload) ∧
        outcome.unrecognised = seen.countP RawEvent.skipped)
    ?_ _ ⟨⟨rfl, id⟩, rfl, by simp, rfl⟩
  rintro seen event rest split outcome middle ⟨follows, stored, parsed, counted⟩
  refine (ingestEvent_ends outcome event middle).mono ?_ ?_
  · rintro _ w' ⟨further, after, decoded, more⟩
    refine ⟨follows.trans further, by rw [after, stored, Db.ingest_append], ?_, ?_⟩
    · intro other member
      rcases List.mem_append.mp member with earlier | last
      · exact parsed other earlier
      · obtain rfl := List.mem_singleton.mp last
        exact decoded
    · rw [more, counted, List.countP_append]
  · rintro stop w' ⟨further, after, ended⟩
    refine ⟨seen, _, split, follows.trans further, after.trans stored, ?_⟩
    rcases ended with ⟨killed, mortal⟩ | ⟨error, malformed, stopped⟩
    · exact .inl ⟨killed, follows.mortal mortal⟩
    · exact .inr ⟨event, by rw [split]; simp, error, malformed, stopped⟩

/-- How far a page lets a walk go on that knows some tip. -/
def Backfiller.scannedThrough (filler : Backfiller) (tip next latest : Nat) : Nat :=
  max latest (min (saturatingAdd u32Max next (filler.pageSize - 1)) tip)

/-- A page is walked if reading, checking and ingesting it all end well. -/
theorem Backfiller.ends_walkPage {filler : Backfiller} {tip next : Nat} {report : BackfillReport}
    {returned : BackfillReport → Process → Prop}
    (silent : filler.source.getEvents w.clock next filler.pageSize = none →
      failed (.pageUnread next) { w with clock := w.clock + 1 })
    (stopped : ∀ page stop w', filler.source.getEvents w.clock next filler.pageSize = some page →
      PageStop filler.json page.events { w with clock := w.clock + 1 } w' stop → failed stop w')
    (walked : ∀ page db outcome budget,
      filler.source.getEvents w.clock next filler.pageSize = some page →
      Checked filler.json page.events (ledgersOf page.events) w.db db →
      (∀ event ∈ page.events, ∃ payload, parseEvent event = .ok payload) →
      outcome.unrecognised = page.events.countP RawEvent.skipped →
      (w.budget = none → budget = none) →
      returned { report.absorb outcome with
          lastLedger := filler.scannedThrough tip next page.latestLedgerScanned }
        ⟨(db.ingest page.events).saveCheckpoint
          ⟨filler.scannedThrough tip next page.latestLedgerScanned,
            decide (tip ≤ filler.scannedThrough tip next page.latestLedgerScanned)⟩,
          w.clock + 1, budget⟩) : (filler.walkPage tip next report).Ends w returned failed := by
  unfold walkPage
  rw [ends_bind]
  refine ends_request silent fun page answered => ?_
  rw [ends_bind]
  refine (checkPage_ends filler.json page.events _).mono ?_ fun stop w' ended =>
    stopped page stop w' answered ended
  rintro - checked ⟨follows, verdict⟩
  rw [ends_bind]
  refine (ingestBatch_ends page.events checked).mono ?_ ?_
  · rintro outcome ⟨_, _, left⟩ ⟨follows', rfl, parsed, counted⟩
    have whole := follows.trans follows'
    obtain rfl := whole.clock
    rw [ends_bind]
    refine ends_transact (fun mortal => ?_) fun budget immortal => ?_
    · exact stopped page _ _ answered (.killed ⟨whole, List.prefix_rfl, List.prefix_rfl, _, verdict,
        rfl⟩ (whole.mortal mortal))
    · exact walked page _ outcome budget answered verdict parsed counted
        (immortal ∘ whole.immortal)
  · rintro stop w' ⟨seen, rest, split, follows', stored, ended⟩
    have partly : Partly filler.json page.events (ledgersOf page.events) seen
        { w with clock := w.clock + 1 } w' :=
      ⟨follows.trans follows', List.prefix_rfl, ⟨rest, split.symm⟩, _, verdict, stored⟩
    refine stopped page stop w' answered ?_
    rcases ended with ⟨rfl, mortal⟩ | ⟨event, member, error, malformed, rfl⟩
    · exact .killed partly (follows.mortal mortal)
    · exact .malformed partly member malformed

end KeeperNetwork.Indexer
