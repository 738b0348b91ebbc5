import KeeperNetwork.Indexer.History
import Mathlib.Logic.Relation

/-! Ingestion loses nothing and stores nothing twice, wherever its passes are interrupted. -/

namespace KeeperNetwork.Indexer

open Soroban EStateM

/-- The history was ingested from the configured start up to, and without, a ledger. -/
structure Reached (history : History) (start upTo : Nat) (db : Db) : Prop where
  stored : recognised (history.range start upTo) <+: db.emissions
  /-- None of it was malformed. -/
  parsed : ∀ event ∈ history.range start upTo, ∃ payload, parseEvent event = .ok payload
  /-- Every ledger with events was fingerprinted. -/
  marked : ∀ ledger, start ≤ ledger → ledger < upTo → history.events ledger ≠ [] →
    ∃ recorded, db.fingerprints.lookup ledger = some recorded

/-- What holds of the database at every moment of every pass. -/
structure Sound (history : History) (json : Serializer) (start : Nat) (db : Db) : Prop where
  /-- The table is a beginning of the recognised events in chain order. -/
  along : ∃ upTo, db.emissions <+: recognised (history.range start upTo)
  /-- Every fingerprint is that of a ledger with events. -/
  marks : ∀ ledger recorded, db.fingerprints.lookup ledger = some recorded →
    recorded = fingerprint json ledger (history.events ledger) ∧ history.events ledger ≠ []
  /-- Everything up to the checkpoint was ingested. -/
  resumable : ∀ checkpoint, db.checkpoint = some checkpoint →
    start ≤ checkpoint.lastLedger + 1 ∧ checkpoint.lastLedger ≤ u32Max ∧
      Reached history start (checkpoint.lastLedger + 1) db

variable {history : History} {json : Serializer} {source : EventSource} {tip : Nat → Nat}
  {start next upTo : Nat} {db db' : Db} {w w' : Process}

/-- The emissions of two ranges in a row. -/
theorem recognised_append (first rest : List RawEvent) :
    recognised (first ++ rest) = recognised first ++ recognised rest := by
  simp [recognised]

theorem Reached.lower {lower : Nat} (reached : Reached history start upTo db)
    (below : lower ≤ upTo) : Reached history start lower db where
  stored := ((between_isPrefix below).filterMap _).trans reached.stored
  parsed event member := reached.parsed event ((between_isPrefix below).subset member)
  marked ledger low high := reached.marked ledger low (by omega)

theorem Reached.grow (reached : Reached history start upTo db)
    (rows : db.emissions <+: db'.emissions)
    (prints : ∀ ledger recorded, db.fingerprints.lookup ledger = some recorded →
      ∃ recorded', db'.fingerprints.lookup ledger = some recorded') :
    Reached history start upTo db' where
  -- Rows are only appended, and a fingerprint that is there stays.
  stored := reached.stored.trans rows
  parsed := reached.parsed
  marked ledger low high some := by
    obtain ⟨recorded, found⟩ := reached.marked ledger low high some
    exact prints ledger recorded found

theorem Sound.checked {seen : List Nat} (sound : Sound history json start db)
    (checked : Checked json (history.range next upTo) seen db db')
    (listed : ∀ ledger ∈ seen, ledger ∈ ledgersOf (history.range next upTo)) :
    Sound history json start db' ∧
      ∀ limit, Reached history start limit db → Reached history start limit db' := by
  have rows : db'.emissions = db.emissions := by simp only [Db.emissions, checked.events]
  have grow : ∀ limit, Reached history start limit db → Reached history start limit db' := by
    intro limit reached
    refine reached.grow (by rw [rows]) fun ledger recorded found => ?_
    rw [checked.looked]
    split
    · exact ⟨_, rfl⟩
    · exact ⟨_, found⟩
  refine ⟨⟨by rw [rows]; exact sound.along, ?_, ?_⟩, grow⟩
  · -- A ledger of the page is recorded as the page has it, which is as the history has it.
    intro ledger recorded found
    rw [checked.looked] at found
    split at found
    · next here =>
      obtain ⟨low, high, some⟩ := History.mem_ledgersOf_range.mp (listed ledger here)
      rw [← Option.some.inj found, History.fingerprint_range json low high]
      exact ⟨rfl, some⟩
    · exact sound.marks ledger recorded found
  · rw [checked.checkpoint]
    intro checkpoint saved
    obtain ⟨low, high, reached⟩ := sound.resumable checkpoint saved
    exact ⟨low, high, grow _ reached⟩

/-- Ingesting the next events keeps the database sound. -/
theorem Sound.ingested {seen rest : List RawEvent} (sound : Sound history json start db)
    (reached : Reached history start next db) (low : start ≤ next) (high : next ≤ upTo)
    (split : history.range next upTo = seen ++ rest) :
    Sound history json start (db.ingest seen) ∧
      recognised (history.range start next ++ seen) <+: (db.ingest seen).emissions ∧
      ∀ limit, Reached history start limit db → Reached history start limit (db.ingest seen) := by
  obtain ⟨prints, saved⟩ := @Db.ingest_frame db seen
  obtain ⟨known, along⟩ := sound.along
  -- Look at the chain far enough to hold both the table and the events at hand.
  have whole : recognised (history.range start (max known upTo)) =
      recognised (history.range start next) ++ (recognised seen ++
        (recognised rest ++ recognised (history.range upTo (max known upTo)))) := by
    rw [← History.range_append low (high.trans (Nat.le_max_right known upTo)),
      ← History.range_append high (Nat.le_max_right known upTo), split]
    simp only [recognised_append, List.append_assoc]
  obtain ⟨along', stored⟩ := Replay.foldl_record_next whole History.distinct_recognised
    (along.trans ((between_isPrefix (Nat.le_max_left known upTo)).filterMap _)) reached.stored
  rw [← Db.ingest_emissions] at along' stored
  have rows : db.emissions <+: (db.ingest seen).emissions := by
    rw [Db.ingest_emissions]
    exact Replay.prefix_foldl_record
  have grow : ∀ limit, Reached history start limit db →
      Reached history start limit (db.ingest seen) := by
    intro limit reached
    refine reached.grow rows fun ledger recorded found => ⟨recorded, ?_⟩
    rw [prints, found]
  refine ⟨⟨⟨_, along'⟩, ?_, ?_⟩, ?_, grow⟩
  · rw [prints]
    exact sound.marks
  · rw [saved]
    intro checkpoint set
    obtain ⟨low, high, reached⟩ := sound.resumable checkpoint set
    exact ⟨low, high, grow _ reached⟩
  · rw [recognised_append]
    exact stored

theorem Sound.page (sound : Sound history json start db) (reached : Reached history start next db)
    (low : start ≤ next) (high : next ≤ upTo)
    (checked : Checked json (history.range next upTo) (ledgersOf (history.range next upTo)) db db')
    (parsed : ∀ event ∈ history.range next upTo, ∃ payload, parseEvent event = .ok payload) :
    Sound history json start (db'.ingest (history.range next upTo)) ∧
      Reached history start upTo (db'.ingest (history.range next upTo)) := by
  -- The fingerprints are checked first, and the events are stored then.
  obtain ⟨sound, grown⟩ := sound.checked checked fun ledger member => member
  obtain ⟨sound, stored, grown'⟩ := sound.ingested (grown next reached) low high
    (List.append_nil (history.range next upTo)).symm
  rw [History.range_append low high] at stored
  refine ⟨sound, stored, ?_, ?_⟩
  · intro event member
    rw [← History.range_append low high, List.mem_append] at member
    rcases member with earlier | new
    · exact reached.parsed event earlier
    · exact parsed event new
  · -- A ledger below was marked before, and one of the page was marked by its check.
    intro ledger above below some
    rcases Nat.lt_or_ge ledger next with earlier | new
    · exact (grown' next (grown next reached)).marked ledger above earlier some
    · have listed := History.mem_ledgersOf_range.mpr ⟨new, below, some⟩
      refine ⟨fingerprint json ledger (history.range next upTo), ?_⟩
      rw [(Db.ingest_frame _).1, checked.looked, if_pos listed]

theorem Sound.saved {checkpoint : Checkpoint} (sound : Sound history json start db)
    (low : start ≤ checkpoint.lastLedger + 1) (fits : checkpoint.lastLedger ≤ u32Max)
    (reached : Reached history start (checkpoint.lastLedger + 1) db) :
    Sound history json start (db.saveCheckpoint checkpoint) := by
  refine ⟨sound.along, sound.marks, fun saved same => ?_⟩
  obtain rfl := Option.some.inj same
  exact ⟨low, fits, reached.stored, reached.parsed, reached.marked⟩

variable {filler : Backfiller} {now last : Nat} {report : BackfillReport}

/--
One page of a source that covers it keeps the database sound, wherever the page is interrupted.

A page that completes is ingested up to where the walk goes on.
-/
theorem walkPage_ends (sound : Sound history filler.json start w.db)
    (reached : Reached history start next w.db) (low : start ≤ next) (inside : next ≤ last)
    (known : last ≤ now) (fits : now ≤ u32Max)
    (covers : ∀ page, filler.source.getEvents w.clock next filler.pageSize = some page →
      ∃ top, Covers history next filler.pageSize now page top) :
    (filler.walkPage last next report).Ends w
      (fun report' w' => Sound history filler.json start w'.db ∧
        Reached history start (report'.lastLedger + 1) w'.db ∧ next ≤ report'.lastLedger ∧
        report'.lastLedger ≤ u32Max ∧ w'.clock = w.clock + 1 ∧ report'.pages = report.pages + 1 ∧
        ∃ page, filler.source.getEvents w.clock next filler.pageSize = some page ∧
          page.latestLedgerScanned ≤ report'.lastLedger)
      (fun stop w' => Sound history filler.json start w'.db ∧
        ∀ found, stop ≠ .discrepancy found) := by
  refine Backfiller.ends_walkPage (fun _ => ⟨sound, by simp⟩) ?_ ?_
  · rintro ⟨events, latest⟩ stop w' answered stopped
    obtain ⟨top, rfl, wide, closed, scanned⟩ := covers _ answered
    refine ⟨?_, ?_⟩
    · obtain ⟨seen, done, -, ledgers, ⟨rest, split⟩, db, verdict, stored⟩ := stopped.partly
      obtain ⟨sound, grown⟩ := sound.checked verdict fun ledger member => ledgers.subset member
      rw [stored]
      exact (sound.ingested (grown next reached) low (by omega) split.symm).1
    · rintro found rfl
      cases stopped with
      | discrepant _ split kept differs =>
        -- What was recorded for a ledger is what the history has, and so is what the page has.
        have member : found.ledger ∈ ledgersOf (history.range next (top + 1)) := by
          rw [split]
          simp
        obtain ⟨above, below, -⟩ := History.mem_ledgersOf_range.mp member
        refine differs ?_
        rw [(sound.marks _ _ kept).1, History.fingerprint_range filler.json above below]
  · rintro ⟨events, latest⟩ db outcome budget answered checked parsed - -
    obtain ⟨top, rfl, wide, closed, scanned⟩ := covers _ answered
    have positive := filler.wide
    obtain ⟨sound, through⟩ := sound.page reached low (by omega) checked parsed
    dsimp only at closed scanned ⊢
    have ahead : next ≤ filler.scannedThrough last next latest ∧
        filler.scannedThrough last next latest ≤ top ∧
        latest ≤ filler.scannedThrough last next latest := by
      unfold Backfiller.scannedThrough saturatingAdd
      omega
    have saved := through.lower (by omega : filler.scannedThrough last next latest + 1 ≤ top + 1)
    exact ⟨sound.saved (by dsimp only; omega) (by dsimp only; omega) saved,
      ⟨saved.stored, saved.parsed, saved.marked⟩, ahead.1, by omega, rfl, rfl, _, answered,
      ahead.2.2⟩

/--
Requests of which a walk makes no others, and each of whose answers covers the history.

They are told apart by the time they are made at and the ledger they start from.
-/
structure Answerable (history : History) (filler : Backfiller) (tip : Nat → Nat) (last : Nat)
    (asks : Nat → Nat → Prop) : Prop where
  covers : ∀ time first page, asks time first →
    filler.source.getEvents time first filler.pageSize = some page →
    ∃ top, Covers history first filler.pageSize (tip time) page top
  /-- A walk that goes on after a page asks such a request again. -/
  onward : ∀ time first page scanned, asks time first →
    filler.source.getEvents time first filler.pageSize = some page →
    page.latestLedgerScanned ≤ scanned → saturatingAdd u32Max scanned 1 ≤ last →
    asks (time + 1) (saturatingAdd u32Max scanned 1)

theorem Conforming.answerable (conforming : Conforming history filler.source tip) (last : Nat) :
    Answerable history filler tip last fun _ _ => True where
  covers time first page _ := conforming.pages time first filler.pageSize page filler.wide
  onward _ _ _ _ _ _ _ _ := trivial

/-- The walk ends soundly at the last ledger, or stops soundly before. -/
theorem walkPages_ends {asks : Nat → Nat → Prop} {turns : Nat}
    (tracks : Tracks filler.source tip) (answerable : Answerable history filler tip last asks)
    (sound : Sound history filler.json start w.db) (reached : Reached history start next w.db)
    (low : start ≤ next) (counted : next ≤ u32Max) (known : last ≤ tip w.clock)
    (asked : next ≤ last → asks w.clock next) :
    (filler.walkPages last turns next report).Ends w
      (fun report' w' => Sound history filler.json start w'.db ∧
        Reached history start (last + 1) w'.db ∧
        (report'.pages = 0 → report' = report ∧ last < next ∧ w'.db = w.db))
      (fun stop w' => Sound history filler.json start w'.db ∧
        ∀ found, stop ≠ .discrepancy found) := by
  -- Each turn reaches one page further, and leaves a request that is answerable.
  induction turns generalizing w next report with
  | zero => exact ⟨sound, by simp⟩
  | succ turns ih =>
    unfold Backfiller.walkPages
    by_cases inside : next ≤ last
    · rw [if_pos inside, ends_bind]
      refine (walkPage_ends sound reached low inside known (tracks.fits w.clock)
        (fun page => answerable.covers _ _ page (asked inside))).mono ?_ fun _ _ ended => ended
      rintro report' w' ⟨sound, reached, further, fits, clock, paged, page, answered, scanned⟩
      have later := tracks.growing (Nat.le_succ w.clock)
      have ahead : next ≤ saturatingAdd u32Max report'.lastLedger 1 :=
        le_min (by omega) counted
      refine (ih sound (reached.lower (saturatingAdd_le _ _ _)) (low.trans ahead)
        (saturatingAdd_le_limit _ _ _) (by rw [clock]; exact known.trans later) ?_).mono ?_
        fun _ _ ended => ended
      · intro onward
        rw [clock]
        exact answerable.onward _ _ page _ (asked inside) answered scanned onward
      · rintro final w'' ⟨sound, reached, none⟩
        refine ⟨sound, reached, fun empty => ?_⟩
        have same := (none empty).1
        rw [same] at empty
        omega
    · rw [if_neg inside]
      exact ⟨sound, reached.lower (by omega), fun _ => ⟨rfl, by omega, rfl⟩⟩

theorem Sound.resume (sound : Sound history json start db) (fits : start ≤ u32Max) :
    start ≤ Backfiller.resumeLedger start db.checkpoint ∧
      Backfiller.resumeLedger start db.checkpoint ≤ u32Max ∧
      Reached history start (Backfiller.resumeLedger start db.checkpoint) db := by
  unfold Backfiller.resumeLedger
  cases saved : db.checkpoint with
  | none =>
    -- Nothing lies between the start and itself.
    have none : history.range start start = [] := by simp [between]
    refine ⟨le_rfl, fits, ?_, ?_, ?_⟩
    · rw [none]
      exact List.nil_prefix
    · simp [none]
    · intro ledger low (high : ledger < start)
      omega
  | some checkpoint =>
    obtain ⟨low, -, reached⟩ := sound.resumable checkpoint saved
    exact ⟨le_min low fits, saturatingAdd_le_limit _ _ _, reached.lower (saturatingAdd_le _ _ _)⟩

/-- A run reaches the tip soundly, or stops soundly before it. -/
theorem runToTip_ends (filler : Backfiller) (w : Process) {asks : Nat → Nat → Prop}
    (tracks : Tracks filler.source tip)
    (answerable : Answerable history filler tip (tip w.clock) asks)
    (asked : asks (w.clock + 1) (Backfiller.resumeLedger start w.db.checkpoint))
    (sound : Sound history filler.json start w.db) (fits : start ≤ u32Max) (turns : Nat) :
    (filler.runToTip turns start).Ends w
      (fun _ w' => Sound history filler.json start w'.db ∧
        Reached history start (tip w.clock + 1) w'.db)
      (fun stop w' => Sound history filler.json start w'.db ∧
        ∀ found, stop ≠ .discrepancy found) := by
  obtain ⟨low, counted, reached⟩ := sound.resume fits
  unfold Backfiller.runToTip
  rw [ends_bind]
  refine ends_transact (fun _ => ⟨sound, by simp⟩) fun budget _ => ?_
  rw [ends_bind]
  refine ends_request (fun _ => ⟨sound, by simp⟩) fun last answered => ?_
  obtain rfl := tracks.latest _ _ answered
  rw [ends_bind]
  have later : tip w.clock ≤ tip (w.clock + 1) := tracks.growing (Nat.le_succ _)
  refine (walkPages_ends (w := ⟨w.db, w.clock + 1, budget⟩) tracks answerable sound reached low
    counted later fun _ => asked).mono ?_ fun _ _ ended => ended
  rintro report' w' ⟨sound', reached', none⟩
  by_cases empty : report'.pages = 0
  · -- The tip is behind the resume point, up to which everything was ingested before.
    obtain ⟨rfl, behind, same⟩ := none empty
    rw [if_pos empty, ends_bind]
    refine ends_transact (fun _ => ⟨sound', by simp⟩) fun budget' _ => ?_
    have exact : Backfiller.resumeLedger start w.db.checkpoint - 1 + 1 =
        Backfiller.resumeLedger start w.db.checkpoint := by omega
    refine ⟨sound'.saved ?_ ?_ ?_, reached'.stored, reached'.parsed, reached'.marked⟩
    · exact exact ▸ low
    · dsimp only
      omega
    · rw [same]
      exact exact ▸ reached
  · rw [if_neg empty]
    exact ⟨sound', reached'⟩

/-- A pass of the indexer, killed after some operations or turns, or left to end by itself. -/
def Pass (source : EventSource) (json : Serializer) (start : Nat) (w w' : Process) : Prop :=
  ∃ pageSize turns budget,
    w' = ((Backfiller.new source json pageSize).runToTip turns start).after { w with budget }

/-- A sequence of passes of the backfiller. -/
abbrev Passes (source : EventSource) (json : Serializer) (start : Nat) :=
  Relation.ReflTransGen (Pass source json start)

def Process.blank : Process := ⟨Db.blank, 0, none⟩

theorem Sound.blank (history : History) (json : Serializer) (start : Nat) :
    Sound history json start Db.blank where
  along := ⟨start, List.nil_prefix⟩
  marks ledger recorded found := by simp [Db.blank] at found
  resumable checkpoint saved := by simp [Db.blank] at saved

theorem Passes.sound (conforming : Conforming history source tip) (fits : start ≤ u32Max)
    (passes : Passes source json start Process.blank w) : Sound history json start w.db := by
  -- Whether a pass ended well or was killed, it left the store sound.
  induction passes with
  | refl => exact .blank history json start
  | @tail middle _ _ last ih =>
    obtain ⟨pageSize, turns, budget, rfl⟩ := last
    have ends := runToTip_ends (Backfiller.new source json pageSize) { middle with budget }
      conforming.toTracks (conforming.answerable _) trivial ih fits turns
    exact (ends.mono (fun _ _ ended => ended.1) fun _ _ ended => ended.1).after

theorem mem_recognised_range {emission : Emission}
    (member : emission ∈ recognised (history.range next upTo)) :
    next ≤ emission.ledger ∧ emission.ledger < upTo := by
  obtain ⟨event, listed, found⟩ := List.mem_filterMap.mp member
  obtain ⟨low, high, -⟩ := History.mem_range.mp listed
  rw [(RawEvent.of_recognised found).2]
  exact ⟨low, high⟩

theorem Sound.emissions_upTo (sound : Sound history json start db)
    (reached : Reached history start upTo db) :
    db.emissions.filter (fun emission => emission.ledger < upTo) =
      recognised (history.range start upTo) := by
  obtain ⟨known, along⟩ := sound.along
  obtain ⟨more, whole⟩ := reached.stored
  have within : (recognised (history.range start upTo)).filter
      (fun emission => emission.ledger < upTo) = recognised (history.range start upTo) := by
    rw [List.filter_eq_self]
    intro emission member
    simpa using (mem_recognised_range member).2
  -- What the table holds beyond the range belongs to later ledgers.
  have beyond : ∀ emission ∈ more, ¬ emission.ledger < upTo := by
    intro emission member
    rcases Nat.le_total start upTo with ordered | short
    · have far := along.trans
        ((between_isPrefix (Nat.le_max_left known upTo)).filterMap RawEvent.recognised)
      change _ <+: recognised (history.range start (max known upTo)) at far
      rw [← History.range_append ordered (Nat.le_max_right known upTo), recognised_append, ← whole,
        List.prefix_append_right_inj] at far
      have := (mem_recognised_range (far.subset member)).1
      omega
    · have listed : emission ∈ db.emissions := by
        rw [← whole]
        exact List.mem_append_right _ member
      have := (mem_recognised_range (along.subset listed)).1
      omega
  rw [← whole, List.filter_append, within, List.filter_eq_nil_iff.mpr (by simpa using beyond),
    List.append_nil]

/-- What was reached is stored exactly once, in the order of the cursors. -/
theorem Sound.complete (sound : Sound history json start db)
    (reached : Reached history start (upTo + 1) db) :
    db.emissions.filter (fun emission => emission.ledger ≤ upTo) =
        recognised (history.range start (upTo + 1)) ∧
      (db.emissions.map Emission.key).Nodup ∧
      (db.events.map IndexedEvent.cursor).Pairwise (· < ·) := by
  -- The three parts are read off the invariant.
  refine ⟨?_, ?_, ?_⟩
  · simpa only [Nat.lt_succ_iff] using sound.emissions_upTo reached
  · obtain ⟨known, along⟩ := sound.along
    exact (along.sublist.map Emission.key).nodup History.distinct_recognised
  · exact List.pairwise_map.mpr db.numbered.ascending

/--
Ingestion loses and duplicates nothing.

At every moment the table is a beginning of the recognised events in chain order, and everything
up to the checkpoint is in it. No pass reports a discrepancy, and one that returns has stored every
recognised event up to the tip exactly once, in the order of the cursors.
-/
theorem ingestion_exact (conforming : Conforming history source tip) (fits : start ≤ u32Max)
    (passes : Passes source json start Process.blank w) :
    (∃ known, w.db.emissions <+: recognised (history.range start known)) ∧
    (∀ checkpoint, w.db.checkpoint = some checkpoint →
      ∀ emission ∈ recognised (history.range start (checkpoint.lastLedger + 1)),
        emission ∈ w.db.emissions) ∧
    ∀ pageSize turns budget,
      (∀ found after, ((Backfiller.new source json pageSize).runToTip turns start).run
        { w with budget } ≠ .error (.discrepancy found) after) ∧
      ∀ report after, ((Backfiller.new source json pageSize).runToTip turns start).run
          { w with budget } = .ok report after →
        after.db.emissions.filter (fun emission => emission.ledger ≤ tip w.clock) =
          recognised (history.range start (tip w.clock + 1)) ∧
        (after.db.emissions.map Emission.key).Nodup ∧
        (after.db.events.map IndexedEvent.cursor).Pairwise (· < ·) := by
  have sound := Passes.sound conforming fits passes
  refine ⟨sound.along, ?_, ?_⟩
  · -- A checkpoint is saved only after everything below it was stored.
    intro checkpoint saved emission member
    obtain ⟨-, -, reached⟩ := sound.resumable checkpoint saved
    exact reached.stored.subset member
  · -- One more pass, however it ends.
    intro pageSize turns budget
    have ends := runToTip_ends (Backfiller.new source json pageSize) { w with budget }
      conforming.toTracks (conforming.answerable _) trivial sound fits turns
    constructor
    · intro found after ran
      exact (ends.of_error ran).2 found rfl
    · intro report after ran
      obtain ⟨stillSound, reached⟩ := ends.of_returns ran
      exact stillSound.complete reached

/-- Two events the indexer knows, and between them one it does not. -/
def sampleEvents : List RawEvent :=
  [⟨1, 5, "a", 0, ["paused", "admin"], [.bool true]⟩, ⟨2, 10, "b", 0, ["future", "event"], []⟩,
    ⟨3, 15, "c", 0, ["paused", "admin"], [.bool false]⟩]

def sampleHistory : History := .ofList sampleEvents (by decide)

/-- The indexer is killed after it stored the first event, before the checkpoint. -/
def interrupted : Process :=
  ((Backfiller.new (sampleHistory.fixture 3) (fun _ => none) 2).runToTip 4 1).after
    { Process.blank with budget := some 6 }

/-- The restarted indexer stores the second event, and the first one not again. -/
theorem ingestion_exact_restarted :
    interrupted.db.events.length = 1 ∧ interrupted.db.checkpoint = none ∧
      ∃ report after, ((Backfiller.new (sampleHistory.fixture 3) (fun _ => none) 1).runToTip 4
          1).run { interrupted with budget := none } = .ok report after ∧
        report.stored = 1 ∧ report.duplicates = 1 ∧
        after.db.emissions.filter (fun emission => emission.ledger ≤ 3) =
          recognised (sampleHistory.range 1 4) := by
  have passes : Passes (sampleHistory.fixture 3) (fun _ => none) 1 Process.blank interrupted :=
    .single ⟨2, 4, some 6, rfl⟩
  have done := (ingestion_exact (sampleHistory.fixture_conforming (by decide)) (by decide)
    passes).2.2 1 4 none
  exact ⟨rfl, rfl, _, _, rfl, rfl, rfl, (done.2 _ _ rfl).1⟩

end KeeperNetwork.Indexer
