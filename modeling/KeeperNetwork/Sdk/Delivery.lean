import KeeperNetwork.Sdk.Stream
import Mathlib.Data.List.Infix

/-! Every event of the contract is delivered once and in order, across failures and restarts. -/

namespace KeeperNetwork.Sdk

open EStateM

variable {Cursor Value Event DecodeError : Type}

/--
The events of a contract over time, and what ledgers and cursors mean for them.

A ledger or a cursor lies between two events. It is known by the number of events before it, of all
those that the contract ever emits.
-/
structure EventLog (Cursor Value : Type) where
  /-- What was emitted up to a time, in order. -/
  emitted : (time : Nat) → List (RawContractEvent Cursor Value)
  beforeLedger : Nat → Nat
  beforeCursor : Cursor → Nat
  /-- Nothing that was emitted is taken back. -/
  growing : ∀ {time later}, time ≤ later → emitted time <+: emitted later
  /-- The cursor of an event lies right behind it. -/
  behind : ∀ {time index event}, (emitted time)[index]? = some event →
    beforeCursor event.cursor = index + 1

namespace EventLog

variable (log : EventLog Cursor Value)

def beforeStart : EventStart Cursor → Nat
  | .ledger sequence => log.beforeLedger sequence
  | .cursor saved => log.beforeCursor saved

/-- A request starts behind a number of events. -/
inductive Asks (log : EventLog Cursor Value) : EventPageRequest Cursor → Nat → Prop where
  | ledger {contractId : String} {sequence limit : Nat} :
      Asks log ⟨contractId, some sequence, none, limit⟩ (log.beforeLedger sequence)
  | cursor {contractId : String} {saved : Cursor} {limit : Nat} :
      Asks log ⟨contractId, none, some saved, limit⟩ (log.beforeCursor saved)

/--
Whatever page the node returns continues the events of the contract from where it was asked.

A page with events has the first of those that follow, and its cursor lies right behind the last of
them. An empty page has a cursor before which no other event appears. Any request may fail.
-/
structure Serves (contractId : String) (transport : EventTransport Cursor Value) : Prop where
  page : ∀ {time request position page}, request.contractId = contractId →
    log.Asks request position → transport.getEvents time request = .ok page →
    page.events <+: (log.emitted time).drop position ∧
      log.beforeCursor page.cursor = position + page.events.length

end EventLog

def yielded (labels : List (Label Cursor Event DecodeError)) :
    List (Except (EventStreamError Cursor DecodeError) (StreamEvent Cursor Event)) :=
  (labels.filterMap fun
    | .yielded item => some item
    | _ => none).reverse

/--
A session has yielded the items of some events since its start.

What is buffered comes next, the next request continues behind that, and the cursor of the consumer
lies behind what was yielded.
-/
structure Synced (log : EventLog Cursor Value) (contractId : String) (start : EventStart Cursor)
    (seen : List (RawContractEvent Cursor Value)) (s : Session Cursor Value) : Prop where
  contract : s.stream.contractId = contractId
  /-- What was seen and what is buffered was emitted in this order. -/
  ordered : seen ++ s.stream.buffered <+: (log.emitted s.clock).drop (log.beforeStart start)
  asks : log.Asks s.stream.request
    (log.beforeStart start + (seen ++ s.stream.buffered).length)
  current : ∀ cursor, s.stream.currentCursor = some cursor →
    log.beforeCursor cursor = log.beforeStart start + seen.length
  /-- A consumer without a cursor has seen nothing. -/
  fresh : s.stream.currentCursor = none → seen = []

variable {log : EventLog Cursor Value} {contractId : String} {start : EventStart Cursor}
  {transport : EventTransport Cursor Value}
  {decodeEvent : (topics : List Value) → (value : Value) → Except DecodeError Event}
  {seen rest : List (RawContractEvent Cursor Value)} {raw : RawContractEvent Cursor Value}
  {s after : Session Cursor Value} {page : EventPage Cursor Value}

theorem Synced.opened (retry : RetryPolicy) (pageLimit clock : Nat) :
    Synced log contractId start [] (.opened contractId start retry pageLimit clock) where
  contract := rfl
  ordered := List.nil_prefix
  asks := by
    cases start with
    | ledger sequence => exact .ledger
    | cursor saved => exact .cursor
  current cursor found := by
    cases start with
    | ledger sequence => cases found
    | cursor saved =>
      obtain rfl := Option.some.inj found
      rfl
  fresh _ := rfl

theorem Synced.resumed (synced : Synced log contractId start seen s) (retry : RetryPolicy)
    (pageLimit : Nat) :
    Synced log contractId start seen
      (.opened contractId (resume start s.stream) retry pageLimit s.clock) := by
  unfold resume
  cases current : s.stream.currentCursor with
  | none =>
    -- Nothing was seen, and the start is the original one.
    obtain rfl := synced.fresh current
    exact .opened retry pageLimit s.clock
  | some saved =>
    have position := synced.current saved current
    refine ⟨rfl, ?_, ?_, ?_, nofun⟩
    · -- What was buffered is dropped, and fetched again later.
      refine List.IsPrefix.trans ?_ synced.ordered
      exact (List.append_nil seen).symm ▸ List.prefix_append _ _
    · change log.Asks _ (log.beforeStart start + (seen ++ []).length)
      rw [List.append_nil, ← position]
      exact .cursor
    · intro cursor found
      obtain rfl := Option.some.inj found
      exact position

theorem Synced.popFront (synced : Synced log contractId start seen s)
    (buffered : s.stream.buffered = raw :: rest) :
    Synced log contractId start (seen ++ [raw])
      { s with stream := s.stream.popFront raw rest } := by
  have same : (seen ++ [raw]) ++ rest = seen ++ s.stream.buffered := by
    rw [buffered, List.append_assoc, List.singleton_append]
  refine ⟨synced.contract, ?_, ?_, ?_, nofun⟩
  · exact same ▸ synced.ordered
  · exact same ▸ synced.asks
  · intro cursor found
    obtain rfl := Option.some.inj found
    -- The event stands behind those that were seen.
    have here : (log.emitted s.clock)[log.beforeStart start + seen.length]? = some raw := by
      obtain ⟨later, whole⟩ := synced.ordered
      rw [← List.getElem?_drop, ← whole, buffered]
      simp
    rw [log.behind here, List.length_append]
    rfl

theorem Synced.later (synced : Synced log contractId start seen s) {clock : Nat}
    (since : s.clock ≤ clock) : Synced log contractId start seen { s with clock } :=
  { synced with ordered := synced.ordered.trans (List.IsPrefix.drop (log.growing since) _) }

theorem Synced.accept (synced : Synced log contractId start seen s)
    (serves : log.Serves contractId transport) (empty : s.stream.buffered = []) {time clock : Nat}
    (since : s.clock ≤ time) (before : time < clock)
    (answered : transport.getEvents time s.stream.request = .ok page) :
    Synced log contractId start seen ⟨s.stream.accept page, clock⟩ := by
  obtain ⟨contract, ordered, asks, current, fresh⟩ := synced.later since
  rw [empty, List.append_nil] at ordered asks
  obtain ⟨continues, position⟩ := serves.page contract asks answered
  -- The page goes on where the seen events end.
  have joined : seen ++ page.events <+: (log.emitted clock).drop (log.beforeStart start) := by
    refine List.IsPrefix.trans ?_ (List.IsPrefix.drop (log.growing before.le) _)
    obtain ⟨later, whole⟩ := ordered
    rw [← List.drop_drop, ← whole, List.drop_left] at continues
    rw [← whole]
    exact (List.prefix_append_right_inj seen).mpr continues
  have onward (limit : Nat) : log.Asks ⟨s.stream.contractId, none, some page.cursor, limit⟩
      (log.beforeStart start + (seen ++ page.events).length) := by
    rw [List.length_append, ← Nat.add_assoc, ← position]
    exact .cursor
  unfold RegistryEventStream.accept
  split
  next none =>
    -- The consumer may go on from the cursor of a page without events.
    rw [List.isEmpty_iff.mp none] at joined onward position
    refine ⟨contract, ?_, ?_, ?_, nofun⟩
    · rwa [empty]
    · rw [empty]
      exact onward _
    · intro cursor found
      obtain rfl := Option.some.inj found
      exact position
  next =>
    refine ⟨contract, ?_, ?_, current, fresh⟩
    · rwa [empty]
    · rw [empty]
      exact onward _

theorem retrying_ends (transport : EventTransport Cursor Value) (request : EventPageRequest Cursor)
    (classify : RpcCallError Unit → ErrorClass) (retries : Nat) (s : Session Cursor Value) :
    (retrying (@fetch _ _ DecodeError transport request) classify retries).Ends s
      (fun result after => after.stream = s.stream ∧ s.clock < after.clock ∧
        ∀ page, result = .ok page → ∃ time, s.clock ≤ time ∧ time < after.clock ∧
          transport.getEvents time request = .ok page)
      fun _ _ => False := by
  induction retries generalizing s with
  | zero =>
    refine ⟨rfl, Nat.lt_succ_self _, fun page answered => ?_⟩
    exact ⟨s.clock, le_rfl, Nat.lt_succ_self _, answered⟩
  | succ retries ih =>
    change Ends _ (⟨s.stream, s.clock + 1⟩ : Session Cursor Value) _ _
    cases answered : transport.getEvents s.clock request with
    | ok page =>
      refine ⟨rfl, Nat.lt_succ_self _, fun other same => ?_⟩
      exact ⟨s.clock, le_rfl, Nat.lt_succ_self _, answered.trans same⟩
    | error error =>
      dsimp only
      split
      · exact ⟨rfl, Nat.lt_succ_self _, nofun⟩
      · -- Whatever the later attempts return was answered later.
        refine (ih _).mono ?_ fun _ _ never => never
        rintro result after ⟨same, since, found⟩
        refine ⟨same, Nat.lt_of_succ_lt since, fun page returned => ?_⟩
        obtain ⟨time, later, before, answered⟩ := found page returned
        exact ⟨time, Nat.le_of_succ_le later, before, answered⟩

theorem RawContractEvent.item_cases (raw : RawContractEvent Cursor Value)
    (decodeEvent : (topics : List Value) → (value : Value) → Except DecodeError Event) :
    (∃ event, raw.item decodeEvent = .ok event) ∨
      ∃ cursor source, raw.item decodeEvent = .error (.decode cursor source) := by
  unfold item
  split
  · exact .inl ⟨_, rfl⟩
  · exact .inr ⟨_, _, rfl⟩

/-- What a call to `next` tells the consumer. -/
def Halt.label : Halt Cursor DecodeError → Label Cursor Event DecodeError
  | .error (.rpc failure) => .failed failure
  | .error (.decode cursor source) => .yielded (.error (.decode cursor source))
  | .polling => .abandoned

/-- The consumer was given the item of one more event, or nothing. -/
def Told (log : EventLog Cursor Value) (contractId : String) (start : EventStart Cursor)
    (decodeEvent : (topics : List Value) → (value : Value) → Except DecodeError Event)
    (seen : List (RawContractEvent Cursor Value)) (label : Label Cursor Event DecodeError)
    (after : Session Cursor Value) : Prop :=
  ∃ more : List (RawContractEvent Cursor Value),
    yielded [label] = more.map (RawContractEvent.item decodeEvent) ∧
      Synced log contractId start (seen ++ more) after

theorem next_ends (serves : log.Serves contractId transport) (turns : Nat)
    (synced : Synced log contractId start seen s) :
    (next transport decodeEvent turns).Ends s
      (fun event => Told log contractId start decodeEvent seen (.yielded (.ok event)))
      (fun halt => Told log contractId start decodeEvent seen halt.label) := by
  induction turns generalizing s with
  | zero => exact ⟨[], rfl, by rwa [List.append_nil]⟩
  | succ turns ih =>
    unfold next
    rw [ends_bind, ends_get]
    dsimp only
    split
    next raw rest buffered =>
      have popped := synced.popFront buffered
      -- The item is an event or an error, and is told in either case.
      rcases raw.item_cases decodeEvent with ⟨event, decoded⟩ | ⟨cursor, source, decoded⟩
      · rw [decoded]
        exact ⟨[raw], by rw [List.map_singleton, decoded]; rfl, popped⟩
      · rw [decoded]
        exact ⟨[raw], by rw [List.map_singleton, decoded]; rfl, popped⟩
    next empty =>
      rw [ends_bind]
      refine (retrying_ends transport s.stream.request defaultClassify _ s).mono ?_
        fun _ _ never => never.elim
      rintro result after ⟨same, since, found⟩
      cases result with
      | error error =>
        refine ⟨[], rfl, ?_⟩
        rw [List.append_nil]
        have later := synced.later since.le
        rw [← same] at later
        exact later
      | ok page =>
        obtain ⟨time, later, before, answered⟩ := found page rfl
        exact ih (synced.accept serves empty later before answered)

theorem Step.told {label : Label Cursor Event DecodeError}
    (serves : log.Serves contractId transport) (synced : Synced log contractId start seen s)
    (step : Step transport decodeEvent contractId start s label after) :
    Told log contractId start decodeEvent seen label after := by
  -- All but a restart are ways in which a call ends.
  have ends (turns : Nat) := @next_ends _ _ _ _ _ _ _ transport decodeEvent _ _ serves turns synced
  cases step with
  | received ran => exact (ends _).of_returns ran
  | undecodable ran | failed ran | abandoned ran => exact (ends _).of_error ran
  | restarted retry pageLimit =>
    refine ⟨[], rfl, ?_⟩
    rw [List.append_nil]
    exact synced.resumed retry pageLimit

theorem retrying_answered (classify : RpcCallError Unit → ErrorClass) (retries : Nat)
    {request : EventPageRequest Cursor}
    (answered : transport.getEvents s.clock request = .ok page) :
    (retrying (@fetch _ _ DecodeError transport request) classify retries).run s =
      .ok (.ok page) { s with clock := s.clock + 1 } := by
  -- Neither the last attempt nor an earlier one looks further.
  have fetched : (@fetch _ _ DecodeError transport request).run s =
      .ok (.ok page) { s with clock := s.clock + 1 } := by
    rw [← answered]
    rfl
  cases retries with
  | zero => exact fetched
  | succ retries =>
    unfold retrying
    rw [run_bind, fetched]
    rfl

theorem next_answered (turns : Nat) (empty : s.stream.buffered = [])
    (answered : transport.getEvents s.clock s.stream.request = .ok page) :
    (next transport decodeEvent (turns + 1)).run s =
      (next transport decodeEvent turns).run ⟨s.stream.accept page, s.clock + 1⟩ := by
  -- The call on the left makes one turn, and the other one is what is left of it.
  conv_lhs => unfold next
  rw [run_bind, run_get]
  dsimp only
  rw [empty]
  rw [run_bind, RetryPolicy.run, retrying_answered _ _ answered]
  dsimp only
  rw [run_bind, run_modify]

theorem step_of_ready (ready : s.stream.buffered ≠ [] ∨
      ∃ page, transport.getEvents s.clock s.stream.request = .ok page ∧ page.events ≠ []) :
    ∃ item after, Step transport decodeEvent contractId start s (.yielded item) after := by
  -- After one turn at most there is something in the buffer.
  obtain ⟨turns, s', raw, rest, buffered, same⟩ : ∃ turns s' raw rest,
      (s'.stream.buffered = raw :: rest) ∧ (next transport decodeEvent turns).run s =
        (next transport decodeEvent 1).run s' := by
    cases buffered : s.stream.buffered with
    | cons raw rest => exact ⟨1, s, raw, rest, buffered, rfl⟩
    | nil =>
      obtain ⟨page, answered, some⟩ := ready.resolve_left fun full => full buffered
      obtain ⟨raw, rest, events⟩ := List.exists_cons_of_ne_nil some
      refine ⟨2, _, raw, rest, ?_, next_answered 1 buffered answered⟩
      unfold RegistryEventStream.accept
      rw [if_neg fun none => some (List.isEmpty_iff.mp none), ← events]
      exact buffered.symm ▸ List.nil_append _
  conv_rhs at same => unfold next
  rw [run_bind, run_get] at same
  dsimp only at same
  rw [buffered] at same
  dsimp only at same
  -- What is left of the call returns the item, or throws it.
  rcases raw.item_cases decodeEvent with ⟨event, decoded⟩ | ⟨cursor, source, decoded⟩
  · rw [decoded] at same
    exact ⟨_, _, .received same⟩
  · rw [decoded] at same
    exact ⟨_, _, .undecodable same⟩

/--
A consumer is given every event since its start once and in order, and its cursor keeps up.

Calls may fail and be given up, and streams may be replaced at any time by new ones that start from
the cursor of the old. The cursor lies behind exactly those events of which the consumer was given
the items, and a call that can be answered with an event yields one.
-/
theorem stream_exactly_once {labels : List (Label Cursor Event DecodeError)}
    {retry : RetryPolicy} {pageLimit clock : Nat} (serves : log.Serves contractId transport)
    (run : Trace (Step transport decodeEvent contractId start)
      (.opened contractId start retry pageLimit clock) labels s) :
    yielded labels <+: ((log.emitted s.clock).drop (log.beforeStart start)).map
      (RawContractEvent.item decodeEvent) ∧
    (∀ cursor, s.stream.currentCursor = some cursor →
      log.beforeCursor cursor = log.beforeStart start + (yielded labels).length) ∧
    (s.stream.currentCursor = none → yielded labels = []) ∧
    ((s.stream.buffered ≠ [] ∨
        ∃ page, transport.getEvents s.clock s.stream.request = .ok page ∧ page.events ≠ []) →
      ∃ item after, Step transport decodeEvent contractId start s (.yielded item) after) := by
  -- Each step adds what it tells to what was told before.
  obtain ⟨seen, told, synced⟩ : ∃ seen, yielded labels =
      seen.map (RawContractEvent.item decodeEvent) ∧ Synced log contractId start seen s := by
    induction run with
    | nil => exact ⟨[], rfl, .opened retry pageLimit clock⟩
    | @snoc _ _ _ labels _ last ih =>
      obtain ⟨seen, told, synced⟩ := ih
      obtain ⟨more, last, synced⟩ := last.told serves synced
      refine ⟨seen ++ more, ?_, synced⟩
      rw [List.map_append, ← told, ← last]
      unfold yielded
      rw [← List.reverse_append, ← List.filterMap_append, List.singleton_append]
  rw [told]
  refine ⟨?_, ?_, ?_, step_of_ready⟩
  · -- What is buffered was emitted after what was seen.
    exact ((List.prefix_append _ _).trans synced.ordered).map _
  · rw [List.length_map]
    exact synced.current
  · intro none
    rw [synced.fresh none, List.map_nil]

/-- Two events, the first of which cannot be decoded. -/
def sampleEvents : List (RawContractEvent Nat Nat) := [⟨1, [], 7⟩, ⟨2, [], 8⟩]

/-- Everything was emitted in the beginning, and a cursor is the number of events before it. -/
def sampleLog : EventLog Nat Nat where
  emitted _ := sampleEvents
  beforeLedger _ := 0
  beforeCursor cursor := cursor
  growing _ := List.prefix_rfl
  behind {_ index event} found := by
    rcases index with _ | _ | index
    · cases found
      rfl
    · cases found
      rfl
    · cases found

/-- A node that does not answer its first request. -/
def sampleTransport : EventTransport Nat Nat where
  getEvents time request :=
    let position := request.cursor.getD 0
    if time = 0 then .error (.transport .timeout)
    else .ok ⟨sampleEvents.drop position, max position 2⟩

def sampleDecode (_ : List Nat) (value : Nat) : Except Unit Nat :=
  if value = 7 then .error () else .ok value

theorem sampleTransport_serves : sampleLog.Serves "contract" sampleTransport where
  page {time request position page} _ asks answered := by
    -- Both kinds of request start where the node reads them.
    have here : request.cursor.getD 0 = position := by cases asks <;> rfl
    dsimp only [sampleTransport] at answered
    split at answered
    · cases answered
    · rw [here] at answered
      cases answered
      refine ⟨List.prefix_rfl, ?_⟩
      change max position 2 = position + (sampleEvents.drop position).length
      rw [List.length_drop, sampleEvents, List.length_cons, List.length_singleton]
      omega

/-- What a consumer of the two events may see. -/
def sampleLabels : List (Label Nat Nat Unit) :=
  [.yielded (.ok ⟨2, 8⟩), .restarted, .yielded (.error (.decode 1 ())),
    .failed (.transport .timeout)]

theorem sampleLabels_run :
    ∃ s : Session Nat Nat, Trace (Step sampleTransport sampleDecode "contract" (.ledger 1))
      (.opened "contract" (.ledger 1) ⟨1⟩ 10 0) sampleLabels s :=
  ⟨_, .snoc (.snoc (.snoc (.snoc .nil
    (.failed (show (next sampleTransport sampleDecode 1).run _ = _ from rfl)))
    (.undecodable (show (next sampleTransport sampleDecode 2).run _ = _ from rfl)))
    (.restarted ⟨1⟩ 10))
    (.received (show (next sampleTransport sampleDecode 2).run _ = _ from rfl))⟩

/-- The second event is yielded once, although the first stream had fetched it as well. -/
theorem stream_exactly_once_restarted :
    ∃ s : Session Nat Nat, Trace (Step sampleTransport sampleDecode "contract" (.ledger 1))
      (.opened "contract" (.ledger 1) ⟨1⟩ 10 0) sampleLabels s ∧
      yielded sampleLabels <+: sampleEvents.map (RawContractEvent.item sampleDecode) := by
  obtain ⟨s, run⟩ := sampleLabels_run
  exact ⟨s, run, (stream_exactly_once sampleTransport_serves run).1⟩

end KeeperNetwork.Sdk
