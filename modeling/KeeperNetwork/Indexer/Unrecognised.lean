import KeeperNetwork.Indexer.Decoding

/-! What a pass does with events the indexer does not know, and what can stop it. -/

namespace KeeperNetwork.Indexer

open Soroban EStateM

theorem RawEvent.skipped_iff {event : RawEvent} :
    parseEvent event = .ok none ↔ event.skipped = true := by
  unfold RawEvent.skipped
  cases parseEvent event with
  | error => simp
  | ok parsed => cases parsed <;> simp

/-- The pages a walk fetches one after the other, until it is past the tip. -/
inductive Fetches {Page : Type} (fetch : (time next : Nat) → Option Page)
    (through : (next : Nat) → Page → Nat) (tip : Nat) : (time next : Nat) → List Page → Prop
  | done {time next : Nat} (past : tip < next) : Fetches fetch through tip time next []
  | page {time next : Nat} {page : Page} {pages : List Page} (inside : next ≤ tip)
      (answered : fetch time next = some page)
      (rest : Fetches fetch through tip (time + 1) (saturatingAdd u32Max (through next page) 1)
        pages) :
      Fetches fetch through tip time next (page :: pages)

/--
What stopped a pass.

The process may have been killed, an answer was missing, a page had a known event that could not be
parsed, or one that contradicts a record.
-/
def Backfiller.Accounts (filler : Backfiller) (mortal : Prop) (w : Process) : Stop → Prop
  | .killed => mortal
  | .tipUnread => filler.source.latestLedger (w.clock - 1) = none
  | .pageUnread ledger => filler.source.getEvents (w.clock - 1) ledger filler.pageSize = none
  | .malformed error => ∃ time first page, filler.source.getEvents time first filler.pageSize =
      some page ∧ ∃ event ∈ page.events, parseEvent event = .error error
  | .discrepancy found => ∃ time first page recorded,
      filler.source.getEvents time first filler.pageSize = some page ∧
      w.db.fingerprints.lookup found.ledger = some recorded ∧
      recorded ≠ fingerprint filler.json found.ledger page.events

/-- Everything stored meanwhile was on a page. -/
def Backfiller.Grows (filler : Backfiller) (w w' : Process) : Prop :=
  ∀ emission ∈ w'.db.emissions, emission ∈ w.db.emissions ∨ ∃ time first page,
    filler.source.getEvents time first filler.pageSize = some page ∧
      emission ∈ recognised page.events

/-- Some pages were ingested as a whole. -/
structure PagesIngested (pages : List EventPage) (report report' : BackfillReport)
    (w w' : Process) : Prop where
  stored : w'.db.emissions = (recognised (pages.flatMap EventPage.events)).foldl
    (Replay.record Emission.key) w.db.emissions
  parsed : ∀ page ∈ pages, ∀ event ∈ page.events, ∃ payload, parseEvent event = .ok payload
  skipped : report'.unrecognised = report.unrecognised +
    (pages.flatMap EventPage.events).countP RawEvent.skipped
  pages : report'.pages = report.pages + pages.length

section Walk

variable {filler : Backfiller} {w w' : Process} {tip next : Nat} {report : BackfillReport}

theorem Backfiller.Accounts.mono {mortal mortal' : Prop} {stop : Stop}
    (accounts : filler.Accounts mortal w stop) (weaker : mortal → mortal') :
    filler.Accounts mortal' w stop := by
  cases stop with
  | killed => exact weaker accounts
  | _ => exact accounts

theorem Backfiller.Grows.trans {w'' : Process} (first : filler.Grows w w')
    (second : filler.Grows w' w'') : filler.Grows w w'' := by
  intro emission member
  rcases second emission member with earlier | listed
  · exact first emission earlier
  · exact .inr listed

theorem Backfiller.Grows.of_eq (same : w'.db.emissions = w.db.emissions) : filler.Grows w w' :=
  fun _ member => .inl (same ▸ member)

theorem Backfiller.Grows.ingest {time first : Nat} {page : EventPage} {seen : List Nat}
    {done : List RawEvent} {db : Db}
    (answered : filler.source.getEvents time first filler.pageSize = some page)
    (checked : Checked filler.json page.events seen w.db db) (part : done <+: page.events)
    (same : w'.db.emissions = (db.ingest done).emissions) : filler.Grows w w' := by
  intro emission member
  rw [same, Db.ingest_emissions, Db.emissions, checked.events] at member
  -- A stored emission was there before, or is one of those on the page.
  refine (Replay.mem_foldl_record member).imp id fun listed => ⟨time, first, page, answered, ?_⟩
  exact (part.filterMap _).subset listed

/-- A walked page is ingested, or the walk stops for a reason. -/
theorem walkPage_walked (filler : Backfiller) (tip next : Nat) (report : BackfillReport)
    (w : Process) :
    (filler.walkPage tip next report).Ends w
      (fun report' w' => ∃ page,
        filler.source.getEvents w.clock next filler.pageSize = some page ∧
        PagesIngested [page] report report' w w' ∧ filler.Grows w w' ∧
        report'.lastLedger = filler.scannedThrough tip next page.latestLedgerScanned ∧
        w'.clock = w.clock + 1 ∧ (w.budget = none → w'.budget = none))
      (fun stop w' => filler.Accounts (w.budget ≠ none) w' stop ∧ filler.Grows w w') := by
  refine Backfiller.ends_walkPage (fun silent => ⟨silent, .of_eq rfl⟩) ?_ ?_
  · intro page stop w' answered stopped
    obtain ⟨_, _, -, -, part, _, checked, stored⟩ := stopped.partly
    refine ⟨?_, .ingest answered checked part (congrArg _ stored)⟩
    cases stopped with
    | killed _ mortal => exact mortal
    | malformed _ member malformed => exact ⟨_, _, page, answered, _, member, malformed⟩
    | @discrepant seen later recorded found partly split kept differs =>
      -- The contradicted record is still there, since the ledger was not checked.
      obtain ⟨db, checked, stored⟩ := partly.stored
      have distinct := ledgersOf_nodup page.events
      rw [split, List.nodup_append] at distinct
      have unseen : found.ledger ∉ seen :=
        fun member => distinct.2.2 _ member _ List.mem_cons_self rfl
      refine ⟨_, _, page, recorded, answered, ?_, differs⟩
      rw [show w'.db = db from stored, checked.looked, if_neg unseen]
      exact kept
  · intro page db outcome budget answered checked parsed counted immortal
    refine ⟨page, answered, ⟨?_, by simpa using parsed, ?_, rfl⟩,
      .ingest answered checked List.prefix_rfl rfl, rfl, rfl, immortal⟩
    · rw [List.flatMap_singleton]
      change (db.ingest page.events).emissions = _
      rw [Db.ingest_emissions, Db.emissions, checked.events, Db.emissions]
    · simp [BackfillReport.absorb, counted]

theorem PagesIngested.cons {page : EventPage} {pages : List EventPage}
    {report' report'' : BackfillReport} {w'' : Process}
    (first : PagesIngested [page] report report' w w')
    (rest : PagesIngested pages report' report'' w' w'') :
    PagesIngested (page :: pages) report report'' w w'' where
  -- The first page is recorded first, and the other pages after it.
  stored := by
    rw [rest.stored, first.stored, List.flatMap_singleton, List.flatMap_cons, recognised_append,
      List.foldl_append]
  parsed := List.forall_mem_cons.mpr ⟨first.parsed page List.mem_cons_self, rest.parsed⟩
  skipped := by
    rw [rest.skipped, first.skipped, List.flatMap_cons, List.countP_append]
    simp
    omega
  pages := by
    rw [rest.pages, first.pages]
    simp
    omega

/--
The pages up to the tip are ingested, or the walk stops for a reason.

It only runs out of turns when there are fewer of them than ledgers, or ledger numbers end.
-/
theorem walkPages_walked (turns : Nat) :
    (filler.walkPages tip turns next report).Ends w
      (fun report' w' => ∃ pages,
        Fetches (filler.source.getEvents · · filler.pageSize)
          (fun next page => filler.scannedThrough tip next page.latestLedgerScanned) tip w.clock
          next pages ∧
        PagesIngested pages report report' w w' ∧ filler.Grows w w' ∧
        (w.budget = none → w'.budget = none))
      (fun stop w' => filler.Accounts
        (w.budget ≠ none ∨ turns ≤ tip + 1 - next ∨ u32Max ≤ tip) w' stop ∧
        filler.Grows w w') := by
  -- Each turn ingests one page and leaves at least one ledger fewer.
  induction turns generalizing w next report with
  | zero => exact ⟨.inr (.inl (Nat.zero_le _)), .of_eq rfl⟩
  | succ turns ih =>
    unfold Backfiller.walkPages
    by_cases inside : next ≤ tip
    · rw [if_pos inside, ends_bind]
      refine (walkPage_walked filler tip next report w).mono ?_ ?_
      · rintro report' w' ⟨page, answered, ingested, grown, last, clock, immortal⟩
        rw [last]
        refine ih.mono ?_ ?_
        · rintro report'' w'' ⟨pages, fetched, later, grown', immortal'⟩
          rw [clock] at fetched
          exact ⟨page :: pages, .page inside answered fetched, ingested.cons later,
            grown.trans grown', immortal' ∘ immortal⟩
        · rintro stop w'' ⟨accounts, grown'⟩
          refine ⟨accounts.mono ?_, grown.trans grown'⟩
          rintro (mortal | short | far)
          · exact .inl (mortal ∘ immortal)
          · -- The next ledger is a later one, unless ledger numbers end.
            refine .inr ?_
            have ahead : min next u32Max ≤
                filler.scannedThrough tip next page.latestLedgerScanned := by
              unfold Backfiller.scannedThrough saturatingAdd
              omega
            unfold saturatingAdd at short
            generalize u32Max = limit at *
            omega
          · exact .inr (.inr far)
      · rintro stop w' ⟨accounts, grown⟩
        exact ⟨accounts.mono .inl, grown⟩
    · rw [if_neg inside]
      refine ⟨[], .done (by omega), ⟨rfl, by simp, rfl, rfl⟩, .of_eq rfl, id⟩

/-- A run ingests the pages up to the tip, or stops for a reason. -/
theorem runToTip_walked (filler : Backfiller) (turns start : Nat) (w : Process) :
    (filler.runToTip turns start).Ends w
      (fun report w' => ∃ tip pages, filler.source.latestLedger w.clock = some tip ∧
        Fetches (filler.source.getEvents · · filler.pageSize)
          (fun next page => filler.scannedThrough tip next page.latestLedgerScanned) tip
          (w.clock + 1) (Backfiller.resumeLedger start w.db.checkpoint) pages ∧
        PagesIngested pages ⟨0, 0, 0, 0, Backfiller.resumeLedger start w.db.checkpoint - 1⟩
          report w w' ∧
        filler.Grows w w')
      (fun stop w' => filler.Accounts (w.budget ≠ none ∨ ∃ tip,
        filler.source.latestLedger w.clock = some tip ∧
          (turns ≤ tip + 1 - Backfiller.resumeLedger start w.db.checkpoint ∨ u32Max ≤ tip))
        w' stop ∧ filler.Grows w w') := by
  unfold Backfiller.runToTip
  rw [ends_bind]
  refine ends_transact (fun mortal => ⟨.inl mortal, .of_eq rfl⟩) fun budget immortal => ?_
  rw [ends_bind]
  refine ends_request (fun silent => ⟨silent, .of_eq rfl⟩) fun tip answered => ?_
  rw [ends_bind]
  refine (walkPages_walked turns).mono ?_ ?_
  · rintro report w' ⟨pages, fetched, ingested, grown, immortal'⟩
    have whole : PagesIngested pages ⟨0, 0, 0, 0, Backfiller.resumeLedger start w.db.checkpoint - 1⟩
        report w w' := ⟨ingested.stored, ingested.parsed, ingested.skipped, ingested.pages⟩
    by_cases empty : report.pages = 0
    · -- Saving the checkpoint of a walk without pages changes no rows.
      rw [if_pos empty, ends_bind]
      refine ends_transact (fun mortal => ⟨.inl ?_, grown⟩) fun budget' _ => ?_
      · exact mortal ∘ immortal' ∘ immortal
      · exact ⟨tip, pages, answered, fetched,
          ⟨whole.stored, whole.parsed, whole.skipped, whole.pages⟩, grown⟩
    · rw [if_neg empty]
      exact ⟨tip, pages, answered, fetched, whole, grown⟩
  · rintro stop w' ⟨accounts, grown⟩
    refine ⟨accounts.mono ?_, grown⟩
    rintro (mortal | short)
    · exact .inl (mortal ∘ immortal)
    · exact .inr ⟨tip, answered, short⟩

end Walk

section Client

variable {lib : Libraries} {chain : Chain} {latest : Nat → Nat} {rpc : Rpc} {json : Serializer}
  {start time first limit : Nat} {w w' : Process}

def Chain.Timed (chain : Chain) (lib : Libraries) : Prop :=
  ∀ ledger, ∀ event ∈ chain.events ledger, ∃ seconds,
    lib.parseTime event.ledgerClosedAt = some seconds

theorem Serves.source {page : RawEventsPage} {event : RawRpcEvent}
    (serves : Serves chain latest rpc) (answered : rpc.getEvents time first limit = some page)
    (member : event ∈ page.events) :
    ∃ ledger, ∃ source ∈ chain.events ledger, event = source.serve := by
  -- The node serves a part of the chain, in the node's own encoding.
  rw [(serves.pages _ _ _ _ answered).1] at member
  obtain ⟨source, listed, rfl⟩ := List.mem_map.mp member
  obtain ⟨ledger, -, -, here⟩ := mem_between.mp (List.mem_of_mem_take listed)
  exact ⟨ledger, source, here, rfl⟩

theorem httpClient_answers {served : RawEventsPage}
    (answered : rpc.getEvents time first limit = some served) :
    (∃ page, (httpClient lib.decoders rpc).getEvents time first limit = some page) ↔
      ∀ event ∈ served.events, ∃ decoded, decodeEvent lib.decoders event = some decoded := by
  -- The client answers when it can decode the page, event by event.
  rw [← exists_mapM]
  simp only [httpClient, answered, Option.bind_eq_bind, Option.bind_some, Option.bind_eq_some_iff,
    Option.pure_def, Option.some.injEq]
  constructor
  · rintro ⟨_, decoded, done, -⟩
    exact ⟨decoded, done⟩
  · rintro ⟨decoded, done⟩
    exact ⟨_, decoded, done, rfl⟩

/-- Everything stored was decoded from an event of the chain. -/
def Drawn (lib : Libraries) (chain : Chain) (db : Db) : Prop :=
  ∀ emission ∈ db.emissions, ∃ ledger, ∃ source ∈ chain.events ledger, ∃ decoded,
    decodeEvent lib.decoders source.serve = some decoded ∧ decoded.recognised = some emission

theorem Drawn.grows {pageSize : Nat} (serves : Serves chain latest rpc)
    (drawn : Drawn lib chain w.db)
    (grows : (Backfiller.new (httpClient lib.decoders rpc) json pageSize).Grows w w') :
    Drawn lib chain w'.db := by
  intro emission member
  rcases grows emission member with earlier | ⟨time, first, page, answered, listed⟩
  · exact drawn emission earlier
  · -- What is on a page of the client was served by the node from the chain.
    obtain ⟨decoded, onPage, recognised⟩ := List.mem_filterMap.mp listed
    rw [(httpClient_page serves answered).2.1] at onPage
    obtain ⟨source, taken, done⟩ := List.mem_filterMap.mp onPage
    obtain ⟨ledger, -, -, here⟩ := mem_between.mp (List.mem_of_mem_take taken)
    exact ⟨ledger, source, here, decoded, done, recognised⟩

theorem Passes.drawn (serves : Serves chain latest rpc)
    (passes : Passes (httpClient lib.decoders rpc) json start Process.blank w) :
    Drawn lib chain w.db := by
  induction passes with
  | refl =>
    intro emission member
    simp [Process.blank, Db.blank, Db.emissions] at member
  | @tail middle _ _ last ih =>
    obtain ⟨pageSize, turns, budget, rfl⟩ := last
    have ends := runToTip_walked (Backfiller.new (httpClient lib.decoders rpc) json pageSize) turns
      start { middle with budget }
    -- Whether the pass ends well or not, what it stored came from the pages it read.
    refine (ends.mono ?_ fun _ _ ended => Drawn.grows serves ih ended.2).after
    rintro _ _ ⟨_, _, _, _, _, grown⟩
    exact Drawn.grows serves ih grown

theorem Drawn.stored {db : Db} {ledger : Nat} {source : ChainEvent} {decoded : RawEvent}
    {emission : Emission} (drawn : Drawn lib chain db) (here : source ∈ chain.events ledger)
    (done : decodeEvent lib.decoders source.serve = some decoded)
    (recognised : decoded.recognised = some emission)
    (known : emission.key ∈ db.emissions.map Emission.key) : emission ∈ db.emissions := by
  obtain ⟨other, member, same⟩ := List.mem_map.mp known
  obtain ⟨ledger', source', there, decoded', done', recognised'⟩ := drawn other member
  -- The keys lead back to one event, which is decoded in one way only.
  have keys : (source'.txHash, source'.position.value) =
      (source.txHash, source.position.value) := by
    rw [← (decodeEvent_serve done').2, ← (decodeEvent_serve done).2,
      ← (RawEvent.of_recognised recognised').1, ← (RawEvent.of_recognised recognised).1, same]
  obtain rfl : source' = source := by
    -- Both lie in a range of the chain that is long enough.
    refine List.inj_on_of_nodup_map (chain.distinct (max ledger ledger' + 1)) ?_ ?_ keys
    · exact mem_between.mpr ⟨ledger', Nat.zero_le _, by omega, there⟩
    · exact mem_between.mpr ⟨ledger, Nat.zero_le _, by omega, here⟩
  cases done'.symm.trans done
  cases recognised'.symm.trans recognised
  exact member

def Decodes (lib : Libraries) (served : RawEventsPage) (page : EventPage) : Prop :=
  served.events.mapM (decodeEvent lib.decoders) = some page.events

theorem Fetches.served {filler : Backfiller} {tip next : Nat} {pages : List EventPage}
    (fetched : Fetches ((httpClient lib.decoders rpc).getEvents · · filler.pageSize)
      (fun next page => filler.scannedThrough tip next page.latestLedgerScanned) tip time next
      pages) :
    ∃ served, Fetches (rpc.getEvents · · filler.pageSize)
        (fun next page => filler.scannedThrough tip next page.latestLedger) tip time next served ∧
      List.Forall₂ (Decodes lib) served pages := by
  -- Each page of the client is a decoded page of the node.
  induction fetched with
  | done past => exact ⟨[], .done past, .nil⟩
  | page inside answered _ ih =>
    obtain ⟨served, rest, decoded⟩ := ih
    simp only [httpClient, Option.bind_eq_bind, Option.bind_eq_some_iff, Option.pure_def,
      Option.some.injEq] at answered
    obtain ⟨page, found, events, done, rfl⟩ := answered
    exact ⟨page :: served, .page inside found rest, .cons done decoded⟩

theorem Fetches.answered {Page : Type} {fetch : Nat → Nat → Option Page}
    {through : Nat → Page → Nat}
    {tip next : Nat} {pages : List Page} (fetched : Fetches fetch through tip time next pages) :
    ∀ page ∈ pages, ∃ time next, fetch time next = some page := by
  induction fetched with
  | done => simp
  | page _ answered _ ih => exact List.forall_mem_cons.mpr ⟨⟨_, _, answered⟩, ih⟩

theorem countP_skipped {events : List RawRpcEvent} {decoded : List RawEvent}
    (done : events.mapM (decodeEvent lib.decoders) = some decoded) :
    decoded.countP RawEvent.skipped = events.countP (RawRpcEvent.unknown lib) := by
  -- The two lists are walked side by side.
  induction events generalizing decoded with
  | nil =>
    cases done
    rfl
  | cons event rest ih =>
    simp only [List.mapM_cons, Option.bind_eq_bind, Option.bind_eq_some_iff, Option.pure_def,
      Option.some.injEq] at done
    obtain ⟨first, here, others, later, rfl⟩ := done
    -- The parser skips exactly the kinds that the indexer does not know.
    have same : first.skipped = event.unknown lib := by
      rw [Bool.eq_iff_iff, ← parseEvent_eq_none here]
      exact RawEvent.skipped_iff.symm
    rw [List.countP_cons, List.countP_cons, ih later, same]

theorem countP_skipped_pages {served : List RawEventsPage} {pages : List EventPage}
    (decoded : List.Forall₂ (Decodes lib) served pages) :
    (pages.flatMap EventPage.events).countP RawEvent.skipped =
      (served.flatMap RawEventsPage.events).countP (RawRpcEvent.unknown lib) := by
  induction decoded with
  | nil => rfl
  | cons here _ ih =>
    rw [List.flatMap_cons, List.flatMap_cons, List.countP_append, List.countP_append,
      countP_skipped here, ih]

/-- What became of the events on some pages. -/
structure Handled (lib : Libraries) (served : List RawEventsPage) (report : BackfillReport)
    (db : Db) : Prop where
  pages : report.pages = served.length
  /-- Those the indexer does not know are counted. -/
  counted : report.unrecognised =
    (served.flatMap RawEventsPage.events).countP (RawRpcEvent.unknown lib)
  /-- The others are stored. -/
  stored : ∀ page ∈ served, ∀ event ∈ page.events, event.unknown lib = false →
    ∃ decoded payload, decodeEvent lib.decoders event = some decoded ∧
      parseEvent decoded = .ok (some payload) ∧ decoded.emission payload ∈ db.emissions

/--
What stopped a pass is not an event that the indexer does not know.

The process may have been killed, the endpoint did not answer, a known event could not be decoded
or parsed, or a ledger contradicts its record.
-/
def Excused (lib : Libraries) (rpc : Rpc) (json : Serializer) (limit : Nat) (mortal : Prop)
    (w : Process) : Stop → Prop
  | .killed => mortal
  | .tipUnread => rpc.getLatestLedger (w.clock - 1) = none
  | .pageUnread ledger => rpc.getEvents (w.clock - 1) ledger limit = none ∨
      ∃ page, rpc.getEvents (w.clock - 1) ledger limit = some page ∧
        ∃ event ∈ page.events, event.unknown lib = false ∧
          decodeEvent lib.decoders event = none
  | .malformed error => ∃ time first page, rpc.getEvents time first limit = some page ∧
      ∃ event ∈ page.events, event.unknown lib = false ∧
        ∃ decoded, decodeEvent lib.decoders event = some decoded ∧
          parseEvent decoded = .error error
  | .discrepancy found => ∃ time first page recorded,
      (httpClient lib.decoders rpc).getEvents time first limit = some page ∧
      w.db.fingerprints.lookup found.ledger = some recorded ∧
      recorded ≠ fingerprint json found.ledger page.events

/-- What is known of the ingested pages is stored, and the rest is counted. -/
theorem PagesIngested.handled {served : List RawEventsPage} {pages : List EventPage}
    {report : BackfillReport} {last time next tip : Nat} {through : Nat → RawEventsPage → Nat}
    (serves : Serves chain latest rpc)
    (fetched : Fetches (rpc.getEvents · · limit) through tip time next served)
    (decoded : List.Forall₂ (Decodes lib) served pages)
    (ingested : PagesIngested pages ⟨0, 0, 0, 0, last⟩ report w w')
    (drawn : Drawn lib chain w'.db) :
    Handled lib served report w'.db where
  pages := by
    rw [ingested.pages, decoded.length_eq]
    exact Nat.zero_add _
  counted := by
    rw [ingested.skipped, countP_skipped_pages decoded]
    exact Nat.zero_add _
  stored page member event listed known := by
    obtain ⟨time, next, answered⟩ := fetched.answered page member
    obtain ⟨ledger, source, here, rfl⟩ := serves.source answered listed
    -- The page was decoded as a whole, and with it the event.
    obtain ⟨result, onPages, done⟩ : ∃ result ∈ pages, Decodes lib page result := by
      obtain ⟨index, inside, rfl⟩ := List.getElem_of_mem member
      exact ⟨_, List.getElem_mem (decoded.length_eq ▸ inside), decoded.get inside _⟩
    obtain ⟨raw, decodedHere⟩ := exists_mapM.mp ⟨_, done⟩ _ listed
    have onPage : raw ∈ result.events := by
      rw [(mapM_eq_filterMap done).1]
      exact List.mem_filterMap.mpr ⟨_, listed, decodedHere⟩
    -- It was parsed, and the parser did not skip it.
    obtain ⟨payload, parsed⟩ := ingested.parsed result onPages raw onPage
    cases payload with
    | none =>
      rw [(parseEvent_eq_none decodedHere).mp parsed] at known
      cases known
    | some payload =>
      have recognised : raw.recognised = some (raw.emission payload) := by
        simp [RawEvent.recognised, parsed]
      refine ⟨raw, payload, decodedHere, parsed, drawn.stored here decodedHere recognised ?_⟩
      rw [ingested.stored]
      refine Replay.key_mem_foldl_record (List.mem_filterMap.mpr ⟨raw, ?_, recognised⟩)
      exact List.mem_flatMap.mpr ⟨result, onPages, onPage⟩

/--
An unknown event stops ingestion exactly when it is not plain.

The client returns a page whose known events it can decode if and only if every other event on it
is announced by symbols and carries a vector of fields of the kinds the registry publishes. If all
unknown events of a history are like that, then in every run no pass is stopped by one of them: a
pass that returns has counted each of them and has stored every other event of each page it was
served, and one that stops was killed, was not answered, or met a known event it cannot read or a
ledger that contradicts its record.
-/
theorem unrecognised_harmless_iff (serves : Serves chain latest rpc) (timed : chain.Timed lib)
    (json : Serializer) :
    (∀ time first limit served, rpc.getEvents time first limit = some served →
      (∀ event ∈ served.events, event.unknown lib = false →
        ∃ decoded, decodeEvent lib.decoders event = some decoded) →
      ((∃ page, (httpClient lib.decoders rpc).getEvents time first limit = some page) ↔
        ∀ event ∈ served.events, event.unknown lib = true → event.Plain lib)) ∧
    ((∀ ledger, ∀ event ∈ chain.events ledger,
        event.serve.unknown lib = true → event.serve.Plain lib) →
      ∀ start w, Passes (httpClient lib.decoders rpc) json start Process.blank w →
      ∀ pageSize turns budget,
        ((Backfiller.new (httpClient lib.decoders rpc) json pageSize).runToTip turns start).Ends
          { w with budget }
          (fun report w' => ∃ served, Fetches (rpc.getEvents · · (max pageSize 1))
              (fun next page => max page.latestLedger
                (min (saturatingAdd u32Max next (max pageSize 1 - 1)) (latest w.clock)))
              (latest w.clock) (w.clock + 1) (Backfiller.resumeLedger start w.db.checkpoint)
              served ∧
            Handled lib served report w'.db)
          (fun stop w' => Excused lib rpc json (max pageSize 1) (budget ≠ none ∨
            turns ≤ latest w.clock + 1 - Backfiller.resumeLedger start w.db.checkpoint ∨
            u32Max ≤ latest w.clock) w' stop)) := by
  refine ⟨?_, ?_⟩
  · -- The page is refused because of one event whose shape cannot be decoded.
    intro time first limit served answered known
    -- The times of the chain can be read, so only the shape of an event is in question.
    have plain (event : RawRpcEvent) (member : event ∈ served.events) :
        (∃ decoded, decodeEvent lib.decoders event = some decoded) ↔ event.Plain lib := by
      obtain ⟨ledger, source, here, rfl⟩ := serves.source answered member
      obtain ⟨seconds, read⟩ := timed ledger source here
      exact decodeEvent_isSome read
    rw [httpClient_answers answered]
    constructor
    · intro all event member _
      exact (plain event member).mp (all event member)
    · intro others event member
      cases unknown : event.unknown lib with
      | true => exact (plain event member).mpr (others event member unknown)
      | false => exact known event member unknown
  · -- On a chain without such events, every pass gets through to the tip.
    intro plain start w passes pageSize turns budget
    have drawn := Passes.drawn serves passes
    have tracks : Tracks (httpClient lib.decoders rpc) latest := httpClient_tracks serves
    refine (runToTip_walked (Backfiller.new (httpClient lib.decoders rpc) json pageSize) turns start
      { w with budget }).mono ?_ ?_
    · rintro report w' ⟨tip, pages, answered, fetched, ingested, grown⟩
      obtain rfl := tracks.latest _ _ answered
      obtain ⟨served, fetched', decoded⟩ := fetched.served
      exact ⟨served, fetched', ingested.handled serves fetched' decoded (drawn.grows serves grown)⟩
    · rintro stop w' ⟨accounts, -⟩
      cases stop with
      | killed =>
        rcases accounts with mortal | ⟨tip, answered, short⟩
        · exact .inl mortal
        · obtain rfl := tracks.latest _ _ answered
          exact .inr short
      | tipUnread => exact Option.map_eq_none_iff.mp accounts
      | pageUnread ledger =>
        cases answered : rpc.getEvents (w'.clock - 1) ledger (max pageSize 1) with
        | none => exact .inl answered
        | some page =>
          -- Some event could not be decoded, and it is none of those that are unknown.
          refine .inr ⟨page, answered, ?_⟩
          have refused : ¬ ∃ decoded, (httpClient lib.decoders rpc).getEvents (w'.clock - 1) ledger
              (max pageSize 1) = some decoded := by
            rintro ⟨decoded, found⟩
            cases found.symm.trans accounts
          rw [httpClient_answers answered] at refused
          push Not at refused
          obtain ⟨event, member, undecoded⟩ := refused
          have none : decodeEvent lib.decoders event = none :=
            Option.eq_none_iff_forall_ne_some.mpr undecoded
          refine ⟨event, member, ?_, none⟩
          obtain ⟨place, source, here, rfl⟩ := serves.source answered member
          obtain ⟨seconds, read⟩ := timed place source here
          cases unknown : source.serve.unknown lib with
          | false => rfl
          | true =>
            obtain ⟨decoded, done⟩ :=
              (decodeEvent_isSome read).mpr (plain place source here unknown)
            exact absurd done (undecoded decoded)
      | malformed error =>
        -- An event that the parser refuses is not one that it skips.
        obtain ⟨time, first, page, answered, raw, member, malformed⟩ := accounts
        simp only [Backfiller.new, httpClient, Option.bind_eq_bind, Option.bind_eq_some_iff,
          Option.pure_def, Option.some.injEq] at answered
        obtain ⟨served, found, events, done, rfl⟩ := answered
        obtain rfl := (mapM_eq_filterMap done).1
        obtain ⟨event, listed, decoded⟩ := List.mem_filterMap.mp member
        refine ⟨time, first, served, found, event, listed, ?_, raw, decoded, malformed⟩
        rw [Bool.eq_false_iff, Ne, ← parseEvent_eq_none decoded, malformed]
        simp
      | discrepancy found => exact accounts

end Client

/-- Libraries that read three payloads, and take everything else for a symbol. -/
def sampleLibraries : Libraries where
  fromXdrBase64 b64 :=
    if b64 = "flag" then some (.vec (some [.bool true]))
    else if b64 = "slash 1" then
      some (.vec (some [.u64 1, .address (.account []), .i128 0 40, .symbol "downtime"]))
    else if b64 = "map" then some .map
    else some (.symbol b64)
  strkey _ := "G"
  hexEncode _ := "00"
  parseTime _ := some 0

theorem zero_isDigit : '0'.isDigit = true := by decide

theorem zero_fits : decimalValue ['0'] ≤ u32Max := by decide

def lone (txHash verb noun value : String) : ChainEvent :=
  ⟨"7", digitNumeral '0' zero_isDigit zero_fits, 1, "", txHash, [verb, noun], value⟩

theorem lone_distinct (verb noun value : String) :
    (([lone "a" verb noun value, lone "b" "paused" "admin" "flag"]).map fun event =>
      (event.txHash, event.position.value)).Nodup := by
  simp [lone]

/-- A ledger with an event that the indexer may not know, and a pause. -/
def besidesPause (verb noun value : String) : Chain :=
  .ofList [lone "a" verb noun value, lone "b" "paused" "admin" "flag"]
    (lone_distinct verb noun value)

theorem besidesPause_timed (verb noun value : String) :
    (besidesPause verb noun value).Timed sampleLibraries := by
  intro ledger event member
  exact ⟨0, rfl⟩

/-- A slash is counted, and the pause next to it is stored. -/
theorem unrecognised_harmless_slash : ∃ report after served,
    ((Backfiller.new (httpClient sampleLibraries.decoders
      ((besidesPause "slash" "stake" "slash 1").node 1)) (fun _ => none) 5).runToTip 3 1).run
        Process.blank = .ok report after ∧
      report.unrecognised = 1 ∧ after.db.events.length = 1 ∧
      Handled sampleLibraries served report after.db := by
  -- The slash has plain fields, although nothing here knows what a slash is.
  have plain : ∀ ledger, ∀ event ∈ (besidesPause "slash" "stake" "slash 1").events ledger,
      event.serve.unknown sampleLibraries = true → event.serve.Plain sampleLibraries := by
    intro ledger event member _
    simp only [besidesPause, Chain.ofList, List.mem_filter, List.mem_cons, List.not_mem_nil,
      or_false] at member
    rcases member.1 with rfl | rfl
    · exact ⟨by simp [lone, ChainEvent.serve, sampleLibraries], _, rfl, by decide⟩
    · exact ⟨by simp [lone, ChainEvent.serve, sampleLibraries], _, rfl, by decide⟩
  have ends := (unrecognised_harmless_iff ((besidesPause "slash" "stake" "slash 1").node_serves
    (by decide : 1 ≤ u32Max)) (besidesPause_timed _ _ _) fun _ => none).2 plain 1 Process.blank
    .refl 5 3 none
  obtain ⟨served, -, handled⟩ := ends.of_returns rfl
  exact ⟨_, _, served, rfl, rfl, rfl, handled⟩

/-- An unknown event that carries a map stops the pass, and the pause next to it is lost. -/
theorem unrecognised_stops : ∃ served after,
    ((besidesPause "future" "event" "map").node 1).getEvents 1 1 5 = some served ∧
      (served.events.map (RawRpcEvent.unknown sampleLibraries)) = [true, false] ∧
      ((Backfiller.new (httpClient sampleLibraries.decoders
        ((besidesPause "future" "event" "map").node 1)) (fun _ => none) 5).runToTip 3 1).run
          Process.blank = .error (.pageUnread 1) after ∧
      after.db.events = [] :=
  ⟨_, _, rfl, rfl, rfl, rfl⟩

end KeeperNetwork.Indexer
