import KeeperNetwork.Indexer.Ingestion

/-! Reading ledgers again from a source that contradicts what it reported before. -/

namespace KeeperNetwork.Indexer

open Soroban EStateM

/-- A source that always answers. -/
structure Answers (source : EventSource) : Prop where
  tip : ∀ time, ∃ tip, source.latestLedger time = some tip
  page : ∀ time first limit, ∃ page, source.getEvents time first limit = some page

/-- A range of ledgers was ingested, and whatever is recorded of ledgers is true. -/
structure Ingested (history : History) (json : Serializer) (start upTo : Nat) (db : Db) : Prop
    extends Reached history start upTo db where
  marks : ∀ ledger recorded, db.fingerprints.lookup ledger = some recorded →
    recorded = fingerprint json ledger (history.events ledger) ∧ history.events ledger ≠ []

/-- Neither the table of events nor a fingerprint has changed. -/
structure Untouched (db db' : Db) : Prop where
  events : db'.events = db.events
  fingerprints : db'.fingerprints = db.fingerprints

/-- The lowest ledger that reads differently has events in both views, and its digest tells. -/
structure Contradicted (before now : History) (json : Serializer) (first lowest : Nat) : Prop where
  same : ∀ ledger, first ≤ ledger → ledger < lowest →
    (before.events ledger).Perm (now.events ledger)
  eventful : before.events lowest ≠ []
  stillEventful : now.events lowest ≠ []
  differs : fingerprint json lowest (before.events lowest) ≠
    fingerprint json lowest (now.events lowest)

/-- A pass has stopped at a contradicted ledger, and changed no event and no fingerprint. -/
def Halted (lowest : Nat) (db : Db) (stop : Stop) (w' : Process) : Prop :=
  ∃ found, stop = .discrepancy found ∧ found.ledger = lowest ∧ Untouched db w'.db

variable {before now : History} {json : Serializer} {tip : Nat → Nat}
  {start upTo next high ledger lowest : Nat} {db db' : Db} {w : Process}

theorem Untouched.trans {middle : Db} (first : Untouched db middle)
    (second : Untouched middle db') : Untouched db db' :=
  ⟨second.events.trans first.events, second.fingerprints.trans first.fingerprints⟩

theorem Contradicted.later (contradicted : Contradicted before now json next lowest)
    (further : next ≤ high) : Contradicted before now json high lowest :=
  { contradicted with
    same := fun ledger low => contradicted.same ledger (further.trans low) }

theorem Ingested.untouched (ingested : Ingested before json start upTo db)
    (same : Untouched db db') : Ingested before json start upTo db' where
  -- Everything is read from the events and the fingerprints.
  stored := by
    have rows : db'.emissions = db.emissions := by rw [Db.emissions, same.events, Db.emissions]
    rw [rows]
    exact ingested.stored
  parsed := ingested.parsed
  marked := by
    rw [same.fingerprints]
    exact ingested.marked
  marks := by
    rw [same.fingerprints]
    exact ingested.marks

theorem History.distinct_events (history : History) (ledger : Nat) :
    ((history.events ledger).map RawEvent.key).Nodup := by
  rw [← History.range_single]
  exact history.distinct_range

theorem Ingested.recorded_agrees (ingested : Ingested before json start upTo db)
    (same : (before.events ledger).Perm (now.events ledger)) (low : next ≤ ledger)
    (inside : ledger < high) {recorded : LedgerFingerprint}
    (found : db.fingerprints.lookup ledger = some recorded) :
    recorded = fingerprint json ledger (now.range next high) := by
  rw [(ingested.marks ledger recorded found).1, History.fingerprint_range json low inside]
  exact fingerprint_perm same (before.distinct_events ledger)

theorem Reached.recorded (reached : Reached before start upTo db)
    (same : (before.events ledger).Perm (now.events ledger)) (low : start ≤ ledger)
    (inside : ledger < upTo) (eventful : now.events ledger ≠ []) :
    ∃ recorded, db.fingerprints.lookup ledger = some recorded := by
  refine reached.marked ledger low inside fun none => eventful ?_
  rw [none] at same
  exact same.nil_eq.symm

theorem Reached.known (reached : Reached before start upTo db) (low : start ≤ next)
    (inside : high ≤ upTo)
    (same : ∀ ledger, next ≤ ledger → ledger < high →
      (before.events ledger).Perm (now.events ledger)) :
    (∀ event ∈ now.range next high, ∃ payload, parseEvent event = .ok payload) ∧
      ∀ emission ∈ recognised (now.range next high),
        emission.key ∈ db.emissions.map Emission.key := by
  -- Every event read now is an event of the range that was ingested.
  have old : ∀ event ∈ now.range next high, event ∈ before.range start upTo := by
    intro event member
    obtain ⟨above, below, listed⟩ := History.mem_range.mp member
    exact History.mem_range.mpr ⟨by omega, by omega, (same _ above below).mem_iff.mpr listed⟩
  refine ⟨fun event member => reached.parsed event (old event member), ?_⟩
  intro emission member
  obtain ⟨event, listed, found⟩ := List.mem_filterMap.mp member
  exact List.mem_map_of_mem (reached.stored.subset
    (List.mem_filterMap.mpr ⟨event, old event listed, found⟩))

theorem Checked.untouched {page : List RawEvent} {seen : List Nat}
    (checked : Checked json page seen db db')
    (known : ∀ ledger ∈ seen, ∃ recorded, db.fingerprints.lookup ledger = some recorded) :
    Untouched db db' := by
  -- Every ledger that was checked had its fingerprint already.
  refine ⟨checked.events, Finmap.ext_lookup fun ledger => ?_⟩
  rw [checked.looked]
  split
  · next member =>
    obtain ⟨recorded, found⟩ := known ledger member
    rw [found, checked.consistent ledger member recorded found]
  · rfl

theorem Ingested.unchecked {seen : List Nat}
    (ingested : Ingested before json start upTo db) (low : start ≤ lowest) (inside : lowest < upTo)
    (contradicted : Contradicted before now json next lowest) (above : next ≤ lowest)
    (below : lowest < high) (checked : Checked json (now.range next high) seen db db') :
    lowest ∉ seen := by
  -- The record of the contradicted ledger is not what the page has for it.
  intro member
  obtain ⟨recorded, found⟩ := ingested.marked lowest low inside contradicted.eventful
  have same := checked.consistent lowest member recorded found
  rw [(ingested.marks lowest recorded found).1, History.fingerprint_range json above below] at same
  exact contradicted.differs same

variable {filler : Backfiller} {report : BackfillReport}

/-- A page before the lowest contradicted ledger changes nothing, or stops at it. -/
theorem walkPage_rereads {last : Nat} (conforming : Conforming now filler.source tip)
    (answers : Answers filler.source) (ingested : Ingested before filler.json start upTo w.db)
    (immortal : w.budget = none) (low : start ≤ next) (above : next ≤ lowest)
    (inside : lowest < upTo) (known : lowest ≤ last) (tipped : last ≤ tip w.clock)
    (contradicted : Contradicted before now filler.json next lowest) :
    (filler.walkPage last next report).Ends w
      (fun report' w' => Untouched w.db w'.db ∧ w'.budget = none ∧ w'.clock = w.clock + 1 ∧
        next ≤ report'.lastLedger ∧ report'.lastLedger < lowest)
      (Halted lowest w.db) := by
  have start_le : start ≤ lowest := low.trans above
  refine Backfiller.ends_walkPage (fun silent => ?_) ?_ ?_
  · obtain ⟨page, answered⟩ := answers.page w.clock next filler.pageSize
    cases silent.symm.trans answered
  · rintro ⟨events, latest⟩ stop w' answered stopped
    obtain ⟨top, rfl, -⟩ := conforming.pages _ _ _ _ filler.wide answered
    cases stopped with
    | killed _ mortal => exact absurd immortal mortal
    | malformed partly member malformed =>
      -- A page that was checked is below the contradicted ledger, and was parsed before.
      obtain ⟨db, checked, -⟩ := partly.stored
      have behind : ¬ lowest < top + 1 := fun ahead => ingested.unchecked start_le inside
        contradicted above ahead checked
        (History.mem_ledgersOf_range.mpr ⟨above, ahead, contradicted.stillEventful⟩)
      obtain ⟨payload, fine⟩ := (ingested.known low (by omega) fun ledger low' high =>
        contradicted.same ledger low' (by omega)).1 _ member
      cases malformed.symm.trans fine
    | @discrepant seen later recorded found partly split kept differs =>
      have listed (ledger : Nat) : ledger ∈ seen ++ found.ledger :: later ↔
          next ≤ ledger ∧ ledger < top + 1 ∧ now.events ledger ≠ [] := by
        rw [← split]
        exact History.mem_ledgersOf_range
      obtain ⟨above', below', -⟩ := (listed found.ledger).mp (by simp)
      -- A ledger below the contradicted one reads as its record says.
      have reached : lowest ≤ found.ledger := by
        by_contra smaller
        exact differs (ingested.recorded_agrees (contradicted.same _ above' (by omega)) above'
          below' kept)
      -- Ledgers are checked in ascending order, so none behind the contradicted one was seen.
      have ascending := ledgersOf_ascending (now.range next (top + 1))
      rw [split, List.pairwise_append] at ascending
      obtain ⟨-, tail, across⟩ := ascending
      obtain ⟨db, checked, stored⟩ := partly.stored
      have first : found.ledger = lowest := by
        have member := (listed lowest).mpr ⟨above, by omega, contradicted.stillEventful⟩
        rcases List.mem_cons.mp ((List.mem_append.mp member).resolve_left
          (ingested.unchecked start_le inside contradicted above (by omega) checked)) with
          same | further
        · exact same.symm
        · have smaller := (List.pairwise_cons.mp tail).1 lowest further
          omega
      refine ⟨found, rfl, first, ?_⟩
      rw [stored]
      refine checked.untouched fun other member => ?_
      have smaller := across other member _ List.mem_cons_self
      obtain ⟨above', -, eventful⟩ := (listed other).mp (List.mem_append_left _ member)
      exact ingested.recorded (contradicted.same other above' (by omega)) (by omega) (by omega)
        eventful
  · rintro ⟨events, latest⟩ db outcome budget answered checked - - lives
    obtain ⟨top, rfl, wide, closed, scanned⟩ := conforming.pages _ _ _ _ filler.wide answered
    have behind : ¬ lowest < top + 1 := fun ahead => ingested.unchecked start_le inside
      contradicted above ahead checked
      (History.mem_ledgersOf_range.mpr ⟨above, ahead, contradicted.stillEventful⟩)
    have same : ∀ ledger, next ≤ ledger → ledger < top + 1 →
        (before.events ledger).Perm (now.events ledger) :=
      fun ledger low' high => contradicted.same ledger low' (by omega)
    have untouched : Untouched w.db db := checked.untouched fun ledger member => by
      obtain ⟨above', below', eventful⟩ := History.mem_ledgersOf_range.mp member
      exact ingested.recorded (same ledger above' below') (by omega) (by omega) eventful
    have kept := Db.ingest_of_known ((ingested.untouched untouched).known low (by omega) same).2
    have prints := (@Db.ingest_frame db (now.range next (top + 1))).1
    have positive := filler.wide
    have fits := conforming.fits w.clock
    refine ⟨⟨kept.trans untouched.events, prints.trans untouched.fingerprints⟩, lives immortal,
      rfl, ?_⟩
    dsimp only at closed scanned ⊢
    unfold Backfiller.scannedThrough saturatingAdd
    omega

theorem walkPages_rereads {last turns : Nat} (conforming : Conforming now filler.source tip)
    (answers : Answers filler.source) (ingested : Ingested before filler.json start upTo w.db)
    (immortal : w.budget = none) (low : start ≤ next) (above : next ≤ lowest)
    (inside : lowest < upTo) (known : lowest ≤ last) (tipped : last ≤ tip w.clock)
    (enough : lowest < next + turns)
    (contradicted : Contradicted before now filler.json next lowest) :
    (filler.walkPages last turns next report).Ends w (fun _ _ => False) (Halted lowest w.db) := by
  -- Each turn that does not stop gets closer to the contradicted ledger.
  induction turns generalizing w next report with
  | zero => omega
  | succ turns ih =>
    unfold Backfiller.walkPages
    rw [if_pos (above.trans known), ends_bind]
    refine (walkPage_rereads conforming answers ingested immortal low above inside known tipped
      contradicted).mono ?_ fun _ _ halted => halted
    rintro report' w' ⟨untouched, alive, clock, further, below⟩
    have fits := conforming.fits w.clock
    have following : saturatingAdd u32Max report'.lastLedger 1 = report'.lastLedger + 1 :=
      saturatingAdd_eq (by omega)
    have later := conforming.growing (Nat.le_add_right w.clock 1)
    refine (ih (ingested.untouched untouched) alive (by omega) (by omega)
      (by rw [clock]; omega) (by omega) (contradicted.later (by omega))).mono
      (fun _ _ impossible => impossible) ?_
    rintro stop w'' ⟨found, stopped, named, untouched'⟩
    exact ⟨found, stopped, named, untouched.trans untouched'⟩

/-- Whatever is recorded of a ledger that has events now is what those events give. -/
def Agreeing (now : History) (json : Serializer) (first : Nat) (db : Db) : Prop :=
  ∀ ledger recorded, first ≤ ledger → db.fingerprints.lookup ledger = some recorded →
    now.events ledger ≠ [] → recorded = fingerprint json ledger (now.events ledger)

theorem walkPage_agreeing {first last : Nat} (conforming : Conforming now filler.source tip)
    (agreeing : Agreeing now filler.json first w.db) (low : first ≤ next) :
    (filler.walkPage last next report).Ends w
      (fun report' w' => Agreeing now filler.json first w'.db ∧
        (next ≤ last → last ≤ u32Max → next ≤ report'.lastLedger))
      fun stop _ => ∀ found, stop ≠ .discrepancy found := by
  refine Backfiller.ends_walkPage (fun _ => by simp) ?_ ?_
  · rintro ⟨events, latest⟩ stop w' answered stopped found rfl
    obtain ⟨top, rfl, -⟩ := conforming.pages _ _ _ _ filler.wide answered
    cases stopped with
    | discrepant _ split kept differs =>
      have member : found.ledger ∈ ledgersOf (now.range next (top + 1)) := by
        rw [split]
        simp
      obtain ⟨above, below, eventful⟩ := History.mem_ledgersOf_range.mp member
      refine differs ?_
      rw [agreeing _ _ (low.trans above) kept eventful,
        History.fingerprint_range filler.json above below]
  · rintro ⟨events, latest⟩ db outcome budget answered checked - - -
    obtain ⟨top, rfl, -⟩ := conforming.pages _ _ _ _ filler.wide answered
    refine ⟨?_, fun _ _ => ?_⟩
    · -- A fingerprint that is new was taken from this very history.
      intro ledger recorded low' (found : (db.ingest _).fingerprints.lookup ledger = _) eventful
      rw [(Db.ingest_frame _).1, checked.looked] at found
      split at found
      · next member =>
        obtain ⟨above, below, -⟩ := History.mem_ledgersOf_range.mp member
        rw [← Option.some.inj found, History.fingerprint_range filler.json above below]
      · exact agreeing ledger recorded low' found eventful
    · dsimp only
      unfold Backfiller.scannedThrough saturatingAdd
      omega

theorem walkPages_agreeing {first last turns : Nat}
    (conforming : Conforming now filler.source tip) (bounded : last ≤ u32Max)
    (agreeing : Agreeing now filler.json first w.db) (low : first ≤ next) :
    (filler.walkPages last turns next report).Ends w (fun _ _ => True)
      fun stop _ => ∀ found, stop ≠ .discrepancy found := by
  -- Each page leaves records that agree, and the walk above where it started.
  induction turns generalizing w next report with
  | zero => exact fun _ => by simp
  | succ turns ih =>
    unfold Backfiller.walkPages
    by_cases inside : next ≤ last
    · rw [if_pos inside, ends_bind]
      refine (walkPage_agreeing conforming agreeing low).mono ?_ fun _ _ ended => ended
      rintro report' w' ⟨agreeing', further⟩
      exact ih agreeing' (le_min (by omega) (by omega))
    · rw [if_neg inside]
      trivial

theorem Sound.agreeing {first : Nat} (sound : Sound before json start db)
    (same : ∀ ledger, first ≤ ledger → ledger ≠ lowest →
      (before.events ledger).Perm (now.events ledger))
    (empty : before.events lowest = [] ∨ now.events lowest = []) : Agreeing now json first db := by
  intro ledger recorded low found eventful
  obtain ⟨marked, eventful'⟩ := sound.marks ledger recorded found
  by_cases here : ledger = lowest
  · -- An empty ledger is never recorded, and never checked.
    subst here
    exact absurd empty (not_or.mpr ⟨eventful', eventful⟩)
  · rw [marked]
    exact fingerprint_perm (same ledger low here) (before.distinct_events ledger)

/--
A contradicted ledger halts ingestion, and leaves the store untouched, when it has events in both
views; when it is the only contradicted one, it halts ingestion only then.

Ledgers up to `upTo` were ingested by any passes, and the checkpoint was rewound behind the lowest
ledger that reads differently now.
-/
theorem contradiction_halts_iff {source source' : EventSource} {tip' : Nat → Nat}
    (conforming : Conforming before source tip) (fits : start ≤ u32Max)
    (passes : Passes source json start Process.blank w) (reached : Reached before start upTo w.db)
    (conforming' : Conforming now source' tip') (answers : Answers source')
    (rewound : Option Checkpoint) (again clock pageSize turns : Nat)
    (low : start ≤ Backfiller.resumeLedger again rewound)
    (above : Backfiller.resumeLedger again rewound ≤ lowest) (inside : lowest < upTo)
    (known : lowest ≤ tip' clock) (enough : lowest < Backfiller.resumeLedger again rewound + turns)
    (same : ∀ ledger, Backfiller.resumeLedger again rewound ≤ ledger → ledger < lowest →
      (before.events ledger).Perm (now.events ledger))
    (contradicted : ¬ (before.events lowest).Perm (now.events lowest))
    (collisionFree : fingerprint json lowest (before.events lowest) =
        fingerprint json lowest (now.events lowest) →
      (before.events lowest).Perm (now.events lowest)) :
    (before.events lowest ≠ [] → now.events lowest ≠ [] →
      ∃ found after, ((Backfiller.new source' json pageSize).runToTip turns again).run
          ⟨{ w.db with checkpoint := rewound }, clock, none⟩ = .error (.discrepancy found) after ∧
        found.ledger = lowest ∧ after.db.events = w.db.events ∧
        after.db.fingerprints = w.db.fingerprints) ∧
    ((∀ ledger, Backfiller.resumeLedger again rewound ≤ ledger → ledger ≠ lowest →
        (before.events ledger).Perm (now.events ledger)) →
      ((∃ found after, ((Backfiller.new source' json pageSize).runToTip turns again).run
          ⟨{ w.db with checkpoint := rewound }, clock, none⟩ = .error (.discrepancy found) after) ↔
        before.events lowest ≠ [] ∧ now.events lowest ≠ [])) := by
  have sound := Passes.sound conforming fits passes
  have ingested : Ingested before json start upTo { w.db with checkpoint := rewound } :=
    Ingested.untouched ⟨reached, sound.marks⟩ ⟨rfl, rfl⟩
  -- The pass walks on without a change until it reads the contradicted ledger.
  have halts : before.events lowest ≠ [] → now.events lowest ≠ [] →
      ∃ found after, ((Backfiller.new source' json pageSize).runToTip turns again).run
          ⟨{ w.db with checkpoint := rewound }, clock, none⟩ = .error (.discrepancy found) after ∧
        found.ledger = lowest ∧ after.db.events = w.db.events ∧
        after.db.fingerprints = w.db.fingerprints := by
    intro eventful stillEventful
    have ends : ((Backfiller.new source' json pageSize).runToTip turns again).Ends
        ⟨{ w.db with checkpoint := rewound }, clock, none⟩ (fun _ _ => False)
        (Halted lowest { w.db with checkpoint := rewound }) := by
      unfold Backfiller.runToTip
      rw [ends_bind]
      -- The pass reads its checkpoint, asks for the tip and walks the pages.
      refine ends_transact (fun mortal => absurd rfl mortal) fun budget alive => ?_
      rw [ends_bind]
      obtain ⟨reply, replied⟩ := answers.tip clock
      refine ends_request (fun silent => by cases silent.symm.trans replied) fun last answered => ?_
      obtain rfl := conforming'.latest _ _ answered
      rw [ends_bind]
      exact (walkPages_rereads (w := ⟨{ w.db with checkpoint := rewound }, clock + 1, budget⟩)
        conforming' answers ingested (alive rfl) low above inside known
        (conforming'.growing (Nat.le_add_right _ 1)) enough
        ⟨same, eventful, stillEventful, contradicted ∘ collisionFree⟩).mono
        (fun _ _ impossible => impossible.elim) fun _ _ halted => halted
    obtain ⟨_, after, ran, found, rfl, named, untouched⟩ := ends.fails
    exact ⟨found, after, ran, named, untouched.events, untouched.fingerprints⟩
  refine ⟨halts, fun others => ⟨?_, ?_⟩⟩
  · -- Without events on both sides there is no fingerprint to compare with.
    rintro ⟨found, after, ran⟩
    by_contra quiet
    have empty : before.events lowest = [] ∨ now.events lowest = [] := by
      by_contra neither
      exact quiet (not_or.mp neither)
    have ends : ((Backfiller.new source' json pageSize).runToTip turns again).Ends
        ⟨{ w.db with checkpoint := rewound }, clock, none⟩ (fun _ _ => True)
        fun stop _ => ∀ found, stop ≠ .discrepancy found := by
      unfold Backfiller.runToTip
      rw [ends_bind]
      -- Reading the checkpoint, asking and saving can fail, but find no contradiction.
      refine ends_transact (fun _ => by simp) fun budget _ => ?_
      rw [ends_bind]
      refine ends_request (fun _ => by simp) fun last answered => ?_
      obtain rfl := conforming'.latest _ _ answered
      rw [ends_bind]
      refine (walkPages_agreeing conforming' (conforming'.fits _) (sound.agreeing others empty)
        le_rfl).mono ?_ fun _ _ ended => ended
      intro report' w' _
      by_cases empty : report'.pages = 0
      · rw [if_pos empty, ends_bind]
        exact ends_transact (fun _ => by simp) fun _ _ => trivial
      · rw [if_neg empty]
        trivial
    exact ends.of_error ran found rfl
  · rintro ⟨eventful, stillEventful⟩
    obtain ⟨found, after, ran, -⟩ := halts eventful stillEventful
    exact ⟨found, after, ran⟩

/-- The registry is paused in the first ledger. -/
def pausedOnce : History := .ofList [⟨1, 5, "a", 0, ["paused", "admin"], [.bool true]⟩] (by decide)

/-- The registry is paused in the first ledger, and a transaction resumes it in the second one. -/
def pausedThenResumed (transaction : String) : History :=
  .ofList [⟨1, 5, "a", 0, ["paused", "admin"], [.bool true]⟩,
    ⟨2, 10, transaction, 1, ["paused", "admin"], [.bool false]⟩] (by simp [RawEvent.key])

/-- A pass over two ledgers of a history, on what an earlier pass left of the tables. -/
def passOver (history : History) (earlier : Process) : Result Stop Process BackfillReport :=
  ((Backfiller.new (history.fixture 2) (fun _ => none) 10).runToTip 4 1).run
    ⟨{ earlier.db with checkpoint := none }, earlier.clock, none⟩

def indexedTwo (history : History) : Process :=
  ((Backfiller.new (history.fixture 2) (fun _ => none) 10).runToTip 4 1).after Process.blank

/-- A ledger that differs in both its views halts the second pass. -/
theorem contradiction_halts_second :
    ∃ found after, passOver (pausedThenResumed "c") (indexedTwo (pausedThenResumed "b")) =
        .error (.discrepancy found) after ∧ found.ledger = 2 ∧
      after.db.events = (indexedTwo (pausedThenResumed "b")).db.events := by
  have conforming : ∀ transaction, Conforming (pausedThenResumed transaction)
      ((pausedThenResumed transaction).fixture 2) fun _ => 2 :=
    fun transaction => History.fixture_conforming _ (by decide)
  have passes : Passes ((pausedThenResumed "b").fixture 2) (fun _ => none) 1 Process.blank
      (indexedTwo (pausedThenResumed "b")) := .single ⟨10, 4, none, rfl⟩
  have reached := ((Passes.sound (conforming "b") (by decide) passes).resumable ⟨2, true⟩ rfl).2.2
  obtain ⟨found, after, ran, named, rows, -⟩ := (contradiction_halts_iff (conforming "b")
    (by decide) passes reached (conforming "c") ⟨fun _ => ⟨_, rfl⟩, fun _ _ _ => ⟨_, rfl⟩⟩ none 1
    (indexedTwo (pausedThenResumed "b")).clock 10 4 (by decide) (by decide : 1 ≤ 2) (by decide)
    (by decide) (by decide) (by decide) (by decide) (by decide)).1 (by decide) (by decide)
  exact ⟨found, after, ran, named, rows⟩

/-- An event that appears in a ledger read before is stored, and one that vanishes is kept. -/
theorem contradiction_unnoticed :
    ¬ (pausedOnce.events 2).Perm ((pausedThenResumed "b").events 2) ∧
    (∃ report after, passOver (pausedThenResumed "b") (indexedTwo pausedOnce) =
        .ok report after ∧ report.stored = 1 ∧ (indexedTwo pausedOnce).db.events.length = 1 ∧
        after.db.events.length = 2) ∧
    ∃ report after, passOver pausedOnce (indexedTwo (pausedThenResumed "b")) =
        .ok report after ∧ report.duplicates = 1 ∧ after.db.events.length = 2 := by
  exact ⟨by decide, ⟨_, _, rfl, rfl, rfl, rfl⟩, _, _, rfl, rfl, rfl⟩

end KeeperNetwork.Indexer
