import KeeperNetwork.Indexer.Ingestion

/-! The client of the RPC endpoint as an event source, and when it serves the chain it reads. -/

namespace KeeperNetwork.Indexer

open Soroban EStateM

/-- One event exactly as the endpoint serves it, with topics and value still encoded. -/
structure RawRpcEvent where
  /-- An order number, a dash, and the event's position within its ledger. -/
  id : String
  ledger : Nat
  ledgerClosedAt : String
  txHash : String
  topic : List String
  value : String
  deriving DecidableEq, Repr

/-- An answer of the endpoint to a request for events. -/
structure RawEventsPage where
  events : List RawRpcEvent
  latestLedger : Nat
  deriving DecidableEq, Repr

/-- The endpoint, whose answers depend on when it is asked and may be missing. -/
structure Rpc where
  getEvents : (time startLedger limit : Nat) → Option RawEventsPage
  getLatestLedger : (time : Nat) → Option Nat

/-- The decoders of the libraries the client uses. -/
structure Decoders where
  decodeSymbol : String → Option String
  decodeValues : String → Option (List RawValue)
  parseTime : String → Option Int

/-- A number with one more digit at its end. -/
def withDigit (value : Nat) (digit : Char) : Nat := value * 10 + (digit.toNat - '0'.toNat)

/-- The number a text of digits stands for. -/
def decimalValue (digits : List Char) : Nat := digits.foldl withDigit 0

/-- Append a digit to a 32-bit number, unless it is none or the number gets too large. -/
def appendDigit (value : Nat) (digit : Char) : Option Nat :=
  if digit.isDigit = true ∧ withDigit value digit ≤ u32Max then some (withDigit value digit)
  else none

/-- Parse a 32-bit number, which may start with a plus sign. -/
def parseU32 (text : List Char) : Option Nat :=
  match text with
  | [] | ['+'] => none
  | '+' :: digits | digits => digits.foldlM appendDigit 0

def lastSegment (text : List Char) : List Char := (text.reverse.takeWhile (· ≠ '-')).reverse

/-- The position that an event's id ends in, or zero when it ends in something else. -/
def eventIndexFromId (id : String) : Nat := (parseU32 (lastSegment id.toList)).getD 0

def decodeEvent (decoders : Decoders) (raw : RawRpcEvent) : Option RawEvent := do
  let topics ← raw.topic.mapM decoders.decodeSymbol
  let values ← decoders.decodeValues raw.value
  let ledgerCloseTime ← decoders.parseTime raw.ledgerClosedAt
  return {
    ledger := raw.ledger
    ledgerCloseTime
    txHash := raw.txHash
    eventIndex := eventIndexFromId raw.id
    topics
    values }

/-- The client as an event source, which passes the width of a page on as a number of events. -/
def httpClient (decoders : Decoders) (rpc : Rpc) : EventSource where
  getEvents time startLedger limit := do
    let page ← rpc.getEvents time startLedger limit
    let events ← page.events.mapM (decodeEvent decoders)
    return ⟨events, page.latestLedger⟩
  latestLedger time := (rpc.getLatestLedger time).map (· % 2 ^ 32)

/-- A decimal numeral of a 32-bit number, with or without leading zeros. -/
structure Numeral where
  digits : List Char
  nonempty : digits ≠ []
  decimal : ∀ digit ∈ digits, digit.isDigit = true
  fits : decimalValue digits ≤ u32Max

def Numeral.value (numeral : Numeral) : Nat := decimalValue numeral.digits

/-- A contract event as it stands on the chain. -/
structure ChainEvent where
  toid : String
  /-- Its position, as the endpoint writes it. -/
  position : Numeral
  ledger : Nat
  ledgerClosedAt : String
  txHash : String
  topic : List String
  value : String

def ChainEvent.serve (event : ChainEvent) : RawRpcEvent where
  id := event.toid ++ "-" ++ String.ofList event.position.digits
  ledger := event.ledger
  ledgerClosedAt := event.ledgerClosedAt
  txHash := event.txHash
  topic := event.topic
  value := event.value

/-- The contract's events on the chain, ledger by ledger. -/
structure Chain where
  events : Nat → List ChainEvent
  placed : ∀ ledger, ∀ event ∈ events ledger, event.ledger = ledger
  distinct : ∀ upTo, ((between events 0 upTo).map fun event =>
    (event.txHash, event.position.value)).Nodup

/--
The endpoint serves the chain.

It returns the first events from the requested ledger on, at most as many as the limit, together
with the node's latest ledger.
-/
structure Serves (chain : Chain) (latest : Nat → Nat) (rpc : Rpc) : Prop where
  growing : Monotone latest
  fits : ∀ time, latest time ≤ u32Max
  tip : ∀ time answer, rpc.getLatestLedger time = some answer → answer = latest time
  pages : ∀ time first limit page, rpc.getEvents time first limit = some page →
    page.events =
        ((between chain.events first (latest time + 1)).take limit).map ChainEvent.serve ∧
      page.latestLedger = latest time

variable {decoders : Decoders} {chain : Chain} {latest : Nat → Nat} {rpc : Rpc}
  {json : Serializer} {start first limit time : Nat} {w : Process}

theorem le_foldl_withDigit (digits : List Char) (value : Nat) :
    value ≤ digits.foldl withDigit value := by
  -- Another digit makes a number no smaller.
  induction digits generalizing value with
  | nil => exact le_rfl
  | cons digit rest ih =>
    have longer : value ≤ withDigit value digit := by
      unfold withDigit
      omega
    exact longer.trans (ih _)

theorem foldlM_appendDigit {digits : List Char} (value : Nat)
    (decimal : ∀ digit ∈ digits, digit.isDigit = true)
    (fits : digits.foldl withDigit value ≤ u32Max) :
    digits.foldlM appendDigit value = some (digits.foldl withDigit value) := by
  induction digits generalizing value with
  | nil => rfl
  | cons digit rest ih =>
    -- The number so far is no larger than the whole number, so it fits as well.
    have small := (le_foldl_withDigit rest _).trans fits
    rw [List.foldlM_cons, appendDigit, if_pos ⟨decimal digit List.mem_cons_self, small⟩]
    exact ih _ (fun digit member => decimal digit (List.mem_cons_of_mem _ member)) fits

theorem Numeral.parseU32 (numeral : Numeral) :
    Indexer.parseU32 numeral.digits = some numeral.value := by
  obtain ⟨digits, nonempty, decimal, fits⟩ := numeral
  cases digits with
  | nil => exact absurd rfl nonempty
  | cons digit rest =>
    -- A digit is not a sign.
    have unsigned : digit ≠ '+' := by
      rintro rfl
      exact absurd (decimal '+' List.mem_cons_self) (by decide)
    unfold Indexer.parseU32
    split
    · contradiction
    · next same => exact absurd (List.cons.inj same).1 unsigned
    · next same => exact absurd (List.cons.inj same).1 unsigned
    · exact foldlM_appendDigit 0 decimal fits

theorem eventIndexFromId_serve (event : ChainEvent) :
    eventIndexFromId event.serve.id = event.position.value := by
  -- A decimal digit is not a dash, so the last segment of the identifier is the position.
  have dashless : ∀ digit ∈ event.position.digits.reverse, (digit ≠ '-') = true := by
    intro digit member
    have decimal := event.position.decimal digit (List.mem_reverse.mp member)
    simp only [eq_iff_iff, iff_true]
    rintro rfl
    exact absurd decimal (by decide)
  have segment : lastSegment event.serve.id.toList = event.position.digits := by
    simp only [lastSegment, ChainEvent.serve, String.toList_append, String.toList_ofList,
      List.reverse_append]
    rw [List.takeWhile_append_of_pos (by simpa using dashless)]
    simp
  rw [eventIndexFromId, segment, event.position.parseU32, Option.getD_some]

theorem decodeEvent_serve {event : ChainEvent} {decoded : RawEvent}
    (done : decodeEvent decoders event.serve = some decoded) :
    decoded.ledger = event.ledger ∧ decoded.key = (event.txHash, event.position.value) := by
  -- The ledger and the key are copied, whatever the decoders make of the rest.
  simp only [decodeEvent, Option.bind_eq_bind, Option.bind_eq_some_iff, Option.pure_def,
    Option.some.injEq] at done
  obtain ⟨topics, -, values, -, closed, -, rfl⟩ := done
  exact ⟨rfl, Prod.ext rfl (eventIndexFromId_serve event)⟩

def Chain.decoded (chain : Chain) (decoders : Decoders) : History where
  events ledger := (chain.events ledger).filterMap fun event => decodeEvent decoders event.serve
  placed ledger event member := by
    obtain ⟨source, listed, done⟩ := List.mem_filterMap.mp member
    exact (decodeEvent_serve done).1.trans (chain.placed ledger source listed)
  distinct upTo := by
    rw [between, ← List.filterMap_flatMap]
    exact (filterMap_keys _ fun _ _ done => (decodeEvent_serve done).2).nodup (chain.distinct upTo)

theorem Chain.decoded_range (chain : Chain) (decoders : Decoders) (first upTo : Nat) :
    (chain.decoded decoders).range first upTo =
      (between chain.events first upTo).filterMap fun event =>
        decodeEvent decoders event.serve := by
  simp [between, Chain.decoded, List.filterMap_flatMap]

theorem mapM_eq_filterMap {α β : Type} {decode : α → Option β} {items : List α}
    {results : List β} (done : items.mapM decode = some results) :
    results = items.filterMap decode ∧ ∀ item ∈ items, ∃ result, decode item = some result := by
  -- Where everything is decoded, nothing is left out.
  induction items generalizing results with
  | nil =>
    cases done
    exact ⟨rfl, by simp⟩
  | cons item rest ih =>
    simp only [List.mapM_cons, Option.bind_eq_bind, Option.bind_eq_some_iff, Option.pure_def,
      Option.some.injEq] at done
    obtain ⟨head, here, tail, later, rfl⟩ := done
    obtain ⟨same, all⟩ := ih later
    rw [List.filterMap_cons, here, ← same]
    exact ⟨rfl, List.forall_mem_cons.mpr ⟨⟨head, here⟩, all⟩⟩

theorem httpClient_page {page : EventPage} (serves : Serves chain latest rpc)
    (answered : (httpClient decoders rpc).getEvents time first limit = some page) :
    page.latestLedgerScanned = latest time ∧
      (page.events = ((between chain.events first (latest time + 1)).take limit).filterMap
        fun event => decodeEvent decoders event.serve) ∧
      ∀ event ∈ (between chain.events first (latest time + 1)).take limit,
        ∃ result, decodeEvent decoders event.serve = some result := by
  simp only [httpClient, Option.bind_eq_bind, Option.bind_eq_some_iff, Option.pure_def,
    Option.some.injEq] at answered
  obtain ⟨served, found, decoded, done, rfl⟩ := answered
  -- The node's page is a part of the chain, and decoding keeps its order.
  obtain ⟨events, scanned⟩ := serves.pages _ _ _ _ found
  rw [events] at done
  obtain ⟨rfl, all⟩ := mapM_eq_filterMap done
  rw [List.filterMap_map]
  exact ⟨scanned, rfl, fun event member => all _ (List.mem_map_of_mem member)⟩

theorem httpClient_page_iff {page : EventPage} (serves : Serves chain latest rpc)
    (answered : (httpClient decoders rpc).getEvents time first limit = some page) :
    (∀ event ∈ between chain.events first (page.latestLedgerScanned + 1),
      ∃ decoded ∈ page.events, decodeEvent decoders event.serve = some decoded) ↔
    (between chain.events first (latest time + 1)).length ≤ limit := by
  obtain ⟨scanned, events, all⟩ := httpClient_page serves answered
  rw [scanned, events]
  have distinct := nodup_between chain.distinct first (latest time + 1)
  generalize between chain.events first (latest time + 1) = claimed at *
  constructor
  · -- The first event the limit cuts off has a key that no event of the page has.
    intro complete
    by_contra short
    obtain ⟨cut, rest, beyond⟩ := List.exists_cons_of_ne_nil
      (show claimed.drop limit ≠ [] by simpa using short)
    have whole : claimed = claimed.take limit ++ cut :: rest := by
      rw [← beyond, List.take_append_drop]
    obtain ⟨decoded, member, done⟩ := complete cut (by rw [whole]; simp)
    obtain ⟨other, listed, done'⟩ := List.mem_filterMap.mp member
    have same := (decodeEvent_serve done').2.symm.trans (decodeEvent_serve done).2
    rw [whole, List.map_append, List.map_cons, List.nodup_append] at distinct
    exact distinct.2.2 _ (List.mem_map_of_mem listed) _ List.mem_cons_self same
  · intro room event member
    rw [List.take_of_length_le room] at all ⊢
    obtain ⟨decoded, done⟩ := all event member
    exact ⟨decoded, List.mem_filterMap.mpr ⟨event, member, done⟩, done⟩

/-- The events from the resume point to the node's latest ledger fit into one page. -/
def FitsPage (chain : Chain) (latest : Nat → Nat) (start pageSize : Nat) (w : Process) : Prop :=
  (between chain.events (Backfiller.resumeLedger start w.db.checkpoint)
    (latest (w.clock + 1) + 1)).length ≤ max pageSize 1

/-- Passes in a row over the client, each of whose requests fits into one page. -/
abbrev HttpPasses (chain : Chain) (latest : Nat → Nat) (source : EventSource) (json : Serializer)
    (start : Nat) :=
  Relation.ReflTransGen fun w w' => ∃ pageSize turns budget,
    FitsPage chain latest start pageSize w ∧
    w' = ((Backfiller.new source json pageSize).runToTip turns start).after { w with budget }

theorem httpClient_tracks (serves : Serves chain latest rpc) :
    Tracks (httpClient decoders rpc) latest where
  growing := serves.growing
  fits := serves.fits
  latest time answer answered := by
    obtain ⟨reported, found, rfl⟩ := Option.map_eq_some_iff.mp answered
    rw [serves.tip time reported found]
    -- The client narrows the reported tip, which fits already.
    have fits := serves.fits time
    unfold u32Max at fits
    omega

theorem httpClient_answerable (serves : Serves chain latest rpc) (pageSize since : Nat) :
    Answerable (chain.decoded decoders) (Backfiller.new (httpClient decoders rpc) json pageSize)
      latest (latest since) fun time first => since ≤ time ∧ first ≤ u32Max ∧
        (between chain.events first (latest time + 1)).length ≤ max pageSize 1 where
  covers time first page asked answered := by
    obtain ⟨-, -, room⟩ := asked
    obtain ⟨scanned, events, -⟩ := httpClient_page serves answered
    refine ⟨latest time, ?_, Nat.min_le_right _ _, le_rfl, scanned.le⟩
    rw [events, Chain.decoded_range]
    change ((between chain.events first (latest time + 1)).take (max pageSize 1)).filterMap _ = _
    rw [List.take_of_length_le room]
  onward time first page scanned asked answered further onward := by
    obtain ⟨later, counted, room⟩ := asked
    obtain ⟨reported, -⟩ := httpClient_page serves answered
    -- The page claims everything, so the walk only goes on where ledger numbers end.
    have grown := serves.growing later
    have next := serves.growing (Nat.le_add_right time 1)
    have fits := serves.fits (time + 1)
    have full : saturatingAdd u32Max scanned 1 = u32Max ∧ latest time = u32Max := by
      rcases Nat.le_total (scanned + 1) u32Max with small | large
      · rw [saturatingAdd_eq small] at onward
        omega
      · have capped : saturatingAdd u32Max scanned 1 = u32Max := Nat.min_eq_right large
        rw [capped] at onward ⊢
        exact ⟨rfl, by omega⟩
    have same : latest (time + 1) = latest time := by omega
    refine ⟨by omega, saturatingAdd_le_limit _ _ _, ?_⟩
    rw [full.1, same, full.2]
    rw [full.2, ← between_append counted (Nat.le_add_right u32Max 1), List.length_append] at room
    omega

theorem httpClient_ends (serves : Serves chain latest rpc) (fits : start ≤ u32Max)
    (sound : Sound (chain.decoded decoders) json start w.db) {pageSize : Nat}
    (room : FitsPage chain latest start pageSize w) (turns : Nat) (budget : Option Nat) :
    ((Backfiller.new (httpClient decoders rpc) json pageSize).runToTip turns start).Ends
      { w with budget }
      (fun _ w' => Sound (chain.decoded decoders) json start w'.db ∧
        Reached (chain.decoded decoders) start (latest w.clock + 1) w'.db)
      (fun _ w' => Sound (chain.decoded decoders) json start w'.db) := by
  -- Each request fits into a page, so the general walk applies to this client.
  obtain ⟨-, counted, -⟩ := sound.resume fits
  refine (runToTip_ends (Backfiller.new (httpClient decoders rpc) json pageSize) { w with budget }
    (httpClient_tracks serves) (httpClient_answerable serves pageSize w.clock)
    ⟨Nat.le_succ _, counted, room⟩ sound fits turns).mono (fun _ _ ended => ended) ?_
  exact fun _ _ ended => ended.1

theorem HttpPasses.sound (serves : Serves chain latest rpc) (fits : start ≤ u32Max)
    (passes : HttpPasses chain latest (httpClient decoders rpc) json start Process.blank w) :
    Sound (chain.decoded decoders) json start w.db := by
  -- Every pass starts from what the passes before it have left.
  induction passes with
  | refl => exact .blank _ json start
  | tail _ last ih =>
    obtain ⟨pageSize, turns, budget, room, rfl⟩ := last
    exact ((httpClient_ends serves fits ih room turns budget).mono (fun _ _ ended => ended.1)
      fun _ _ ended => ended).after

/--
A page of the client holds every event of the ledgers it claims to have scanned exactly when there
are at most as many events left as the limit allows.

In every run of passes whose requests all meet this, a pass that returns has stored everything up to
the tip. Events of one transaction always have keys of their own.
-/
theorem httpClient_complete_iff (serves : Serves chain latest rpc) (decoders : Decoders)
    (json : Serializer) :
    (∀ time first limit page,
      (httpClient decoders rpc).getEvents time first limit = some page →
      ((∀ event ∈ between chain.events first (page.latestLedgerScanned + 1),
          ∃ decoded ∈ page.events, decodeEvent decoders event.serve = some decoded) ↔
        (between chain.events first (latest time + 1)).length ≤ limit)) ∧
    (∀ start w, start ≤ u32Max →
      HttpPasses chain latest (httpClient decoders rpc) json start Process.blank w →
      ∀ pageSize turns budget report after, FitsPage chain latest start pageSize w →
        ((Backfiller.new (httpClient decoders rpc) json pageSize).runToTip turns start).run
          { w with budget } = .ok report after →
        after.db.emissions.filter (fun emission => emission.ledger ≤ latest w.clock) =
          recognised ((chain.decoded decoders).range start (latest w.clock + 1))) ∧
    ∀ upTo, ((between chain.events 0 upTo).map fun event =>
      (event.serve.txHash, eventIndexFromId event.serve.id)).Nodup := by
  refine ⟨fun time first limit page answered => httpClient_page_iff serves answered, ?_, ?_⟩
  · -- A pass that returns has reached the tip, where everything below it is stored.
    intro start w fits passes pageSize turns budget report after room ran
    have ends := httpClient_ends serves fits (HttpPasses.sound serves fits passes) room turns budget
    obtain ⟨sound, reached⟩ := ends.of_returns ran
    exact (sound.complete reached).1
  · intro upTo
    simp only [eventIndexFromId_serve]
    exact chain.distinct upTo

def Chain.ofList (events : List ChainEvent)
    (distinct : (events.map fun event => (event.txHash, event.position.value)).Nodup) : Chain where
  events ledger := events.filter fun event => event.ledger = ledger
  placed ledger event member := by simpa using (List.mem_filter.mp member).2
  distinct := nodup_between_filter ChainEvent.ledger _ events distinct

/-- An endpoint that always answers, for a chain that has stopped growing. -/
def Chain.node (chain : Chain) (latest : Nat) : Rpc where
  getEvents _ first limit :=
    some ⟨((between chain.events first (latest + 1)).take limit).map ChainEvent.serve, latest⟩
  getLatestLedger _ := some latest

theorem Chain.node_serves (chain : Chain) {latest : Nat} (fits : latest ≤ u32Max) :
    Serves chain (fun _ => latest) (chain.node latest) where
  growing := monotone_const
  fits _ := fits
  tip _ _ answered := (Option.some.inj answered).symm
  pages _ _ _ _ answered := by
    cases answered
    exact ⟨rfl, rfl⟩

def pauseDecoders : Decoders where
  decodeSymbol := some
  decodeValues _ := some [.bool true]
  parseTime _ := some 0

def digitNumeral (digit : Char) (decimal : digit.isDigit = true)
    (fits : decimalValue [digit] ≤ u32Max) : Numeral :=
  ⟨[digit], by simp, by simpa using decimal, fits⟩

/-- A ledger in which one transaction pauses the contract twice. -/
def twoEvents : Chain :=
  .ofList
    [⟨"7", digitNumeral '0' (by decide) (by decide), 1, "", "a", ["paused", "admin"], ""⟩,
      ⟨"7", digitNumeral '1' (by decide) (by decide), 1, "", "a", ["paused", "admin"], ""⟩]
    (by decide)

/-- With pages of one event, the second event of the ledger is skipped and never read again. -/
theorem httpClient_skips : ∃ report after,
    ((Backfiller.new (httpClient pauseDecoders (twoEvents.node 1)) (fun _ => none) 1).runToTip 3
        1).run Process.blank = .ok report after ∧
      (recognised ((twoEvents.decoded pauseDecoders).range 1 2)).length = 2 ∧
      after.db.emissions.length = 1 ∧ after.db.checkpoint = some ⟨1, true⟩ :=
  ⟨_, _, rfl, rfl, rfl, rfl⟩

/-- With pages of two events, both events of the ledger are stored. -/
theorem httpClient_complete_two : ∃ report after,
    ((Backfiller.new (httpClient pauseDecoders (twoEvents.node 1)) (fun _ => none) 2).runToTip 3
        1).run Process.blank = .ok report after ∧
      after.db.emissions.filter (fun emission => emission.ledger ≤ 1) =
        recognised ((twoEvents.decoded pauseDecoders).range 1 2) := by
  have complete := (httpClient_complete_iff (twoEvents.node_serves (by decide : 1 ≤ u32Max))
    pauseDecoders fun _ => none).2.1 1 Process.blank (by decide) .refl 2 3 none
  exact ⟨_, _, rfl, complete _ _ (by unfold FitsPage; decide) rfl⟩

end KeeperNetwork.Indexer
