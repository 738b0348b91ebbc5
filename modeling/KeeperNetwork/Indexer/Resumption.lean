import KeeperNetwork.Indexer.Subscription

/-! A resumed subscription delivers every event once, unless its replay fails or is empty. -/

namespace KeeperNetwork.Indexer

variable {event : IndexedEvent} {rest : List IndexedEvent}

section Filter

variable {Key : Type} (strkey : Strkey Key) (filter : Filter) (mark : Int)
  {front back : List IndexedEvent}

theorem Filter.matches_eq_selects :
    filter.matches = Db.selects filter.eventType filter.address := by
  funext event
  unfold Filter.matches Db.selects
  rcases filter with ⟨eventType | eventType, address | address⟩ <;> simp

theorem Filter.past_eq (events : List IndexedEvent) :
    (events.filter fun event => filter.matches event && mark < event.cursor) =
      filter.past mark events := by
  -- The query tests both conditions at once, and the log is cut first and filtered then.
  unfold Filter.past Log.beyond
  rw [List.filter_filter]
  refine List.filter_congr fun event _ => ?_
  rw [Bool.and_comm]
  rfl

theorem Filter.past_append :
    filter.past mark (front ++ back) = filter.past mark front ++ filter.past mark back := by
  unfold Filter.past
  rw [List.filter_append, Log.beyond_append]

theorem Filter.past_cons (event : IndexedEvent) (rest : List IndexedEvent) :
    filter.past mark (event :: rest) =
      (if filter.matches event ∧ mark < event.mark then [event] else []) ++
        filter.past mark rest := by
  rw [← List.singleton_append, filter.past_append]
  -- What is left is a log of one event, decided by the two tests.
  congr 1
  unfold Filter.past Log.beyond
  by_cases matched : filter.matches event <;> by_cases beyond : mark < event.mark <;>
    simp [matched, beyond]

theorem SubscribeQuery.filter_address (query : SubscribeQuery) :
    (query.filter strkey).address.map strkey.normalizedOrAsGiven =
      (query.filter strkey).address := by
  cases address : query.address <;> simp [SubscribeQuery.filter, address]

theorem SubscribeQuery.page_events (query : SubscribeQuery) (db : Db) (size : Nat) :
    (db.eventsAfter strkey (some mark) size (query.filter strkey).eventType
      (query.filter strkey).address).events =
        ((query.filter strkey).past mark db.events).take size := by
  rw [Db.eventsAfter_events, query.filter_address, ← Filter.matches_eq_selects]
  rfl

theorem SubscribeQuery.page_last (query : SubscribeQuery) (db : Db) (size : Nat)
    (positive : 0 < size)
    (last : (db.eventsAfter strkey (some mark) size (query.filter strkey).eventType
      (query.filter strkey).address).nextCursor = none) :
    ((query.filter strkey).past mark db.events).length ≤ size := by
  have bounded := Db.eventsAfter_last strkey mark size positive last
  rw [query.filter_address, ← Filter.matches_eq_selects] at bounded
  exact bounded

variable {filter mark} {db : Db}

theorem Db.past_ascending (db : Db) :
    Log.Ascending IndexedEvent.mark (filter.past mark db.events) :=
  (db.marks_ascending.filter _).filter _

/-- A page is the first of what was asked for, and the rest lies beyond its last event. -/
theorem Db.past_page {size : Nat} (page : (filter.past mark db.events).take size = event :: rest) :
    filter.past mark db.events =
        event :: rest ++ filter.past (rest.getLastD event).mark db.events ∧
      mark < (rest.getLastD event).mark ∧ (rest.getLastD event).mark ≤ db.sequence := by
  -- The last event of the page is one of those asked for.
  have asked : rest.getLastD event ∈ filter.past mark db.events := by
    refine List.mem_of_mem_take (i := size) ?_
    rw [page]
    exact List.getLastD_mem_cons
  obtain ⟨kept, beyond⟩ := Log.mem_beyond.mp asked
  refine ⟨?_, beyond, Db.mark_le (List.mem_of_mem_filter kept)⟩
  have split := db.past_ascending.take_append_beyond page
  unfold Filter.past at split ⊢
  rwa [Log.beyond_beyond beyond.le] at split

end Filter

/--
What was sent to the client, what is about to be, and what will be found beyond a mark are what
the client asked for.
-/
structure Fed (filter : Filter) (db : Db) (after mark : Int)
    (delivered unsent source : List IndexedEvent) : Prop where
  split : filter.past after db.events = delivered ++ unsent ++ filter.past mark source
  resumed : after ≤ mark
  /-- The mark is where the client resumed, or no more than was handed out as a cursor. -/
  reached : mark = after ∨ mark ≤ db.sequence

section Model

variable {Key : Type} (strkey : Strkey Key)

/-- A client that resumed has got, and will get, exactly what it asked for. -/
def Socket.Exact (s : Service) (after : Int) (socket : Socket) : Prop :=
  let filter := socket.query.filter strkey
  match socket.phase with
  -- The rest is still to be read from the store.
  | .replaying cursor => Fed filter s.db after cursor socket.delivered [] s.db.events ∧
      socket.replayedThrough.getD after = cursor
  -- After the last page, what the store has beyond it has not been received yet.
  | .sending event rest nextCursor =>
    let mark := (rest.getLastD event).mark
    Fed filter s.db after mark socket.delivered (event :: rest) s.db.events ∧
      (nextCursor = none → filter.past mark s.db.events = filter.past mark (s.awaiting socket))
  -- The rest is still to be received.
  | .attaching | .live =>
    Fed filter s.db after (socket.replayedThrough.getD after) socket.delivered []
      (s.awaiting socket)
  | .closed => socket.delivered <+: filter.past after s.db.events

/-- The store, the channel and the client fit together. -/
structure Service.Consistent (s : Service) : Prop where
  /-- What was broadcast or is about to be are the latest rows. -/
  queued : s.channel ++ s.pending.toList <:+ s.db.events
  behind : ∀ socket ∈ s.socket, socket.position ≤ s.channel.length
  exact : ∀ socket ∈ s.socket, ∀ after ∈ socket.query.after, socket.Exact strkey s after

/--
No page of the replay fails to be read, and while nothing was replayed, no wanted event at or
before the cursor that the client resumed from is received.
-/
def Service.Orderly (s : Service) : Action → Prop
  | .turn .failRead => False
  | .turn .receive =>
    ∀ socket ∈ s.socket, ∀ after ∈ socket.query.after, ∀ event ∈ s.channel[socket.position]?,
      socket.replayedThrough = none → (socket.query.filter strkey).matches event →
        after < event.mark
  | _ => True

/-- One thing happens, in order. -/
def Service.OrderlyStep (s : Service) (action : Action) (s' : Service) : Prop :=
  s.Step strkey action s' ∧ s.Orderly strkey action

end Model

variable {Key : Type} {strkey : Strkey Key} {s s' : Service} {socket next : Socket} {after : Int}
  {filter : Filter} {db : Db} {mark : Int} {delivered unsent source : List IndexedEvent}

theorem Fed.leads (fed : Fed filter db after mark delivered unsent source) :
    delivered <+: filter.past after db.events := by
  rw [fed.split, List.append_assoc]
  exact List.prefix_append ..

theorem Fed.grow (fed : Fed filter db after mark delivered unsent source) {db' : Db}
    (stored : db'.events = db.events ++ [event]) (latest : event.mark = db'.sequence)
    (counted : db'.sequence = db.sequence + 1) :
    Fed filter db' after mark delivered unsent (source ++ [event]) := by
  have reached := fed.reached
  have resumed := fed.resumed
  -- The new row is beyond the mark exactly when it is beyond where the client resumed.
  have same : filter.past after [event] = filter.past mark [event] := by
    have both : after < event.mark ↔ mark < event.mark := by omega
    simp only [filter.past_cons, both]
    rfl
  refine ⟨?_, resumed, ?_⟩
  · rw [stored, filter.past_append, filter.past_append, fed.split, same]
    simp only [List.append_assoc]
  · omega

theorem Fed.skip (fed : Fed filter db after mark delivered unsent source) {db' : Db}
    (kept : db'.events = db.events) (counted : db'.sequence = db.sequence + 1) :
    Fed filter db' after mark delivered unsent source := by
  have reached := fed.reached
  refine ⟨?_, fed.resumed, ?_⟩
  · rw [kept, fed.split]
  · omega

theorem Service.Consistent.awaiting_suffix (consistent : s.Consistent strkey) (socket : Socket) :
    s.awaiting socket <:+ s.db.events := by
  refine List.IsSuffix.trans ⟨s.channel.take socket.position, ?_⟩ consistent.queued
  rw [Service.awaiting, ← List.append_assoc, List.take_append_drop]

theorem Service.Consistent.quiet (consistent : s.Consistent strkey) (socket : Socket)
    (nothing : filter.past mark s.db.events = []) : filter.past mark (s.awaiting socket) = [] := by
  obtain ⟨old, latest⟩ := consistent.awaiting_suffix socket
  rw [← latest, Filter.past_append] at nothing
  exact (List.append_eq_nil_iff.mp nothing).2

theorem Socket.Exact.leads (exact : socket.Exact strkey s after) :
    socket.delivered <+: (socket.query.filter strkey).past after s.db.events := by
  -- Every phase says in its own way that the delivered events come first.
  unfold Socket.Exact at exact
  cases phase : socket.phase with
  | replaying | sending => rw [phase] at exact; exact exact.1.leads
  | attaching | live => rw [phase] at exact; exact exact.leads
  | closed => rw [phase] at exact; exact exact

theorem Socket.exact_live (phase : socket.phase = .live) :
    socket.Exact strkey s after ↔ Fed (socket.query.filter strkey) s.db after
      (socket.replayedThrough.getD after) socket.delivered [] (s.awaiting socket) := by
  unfold Socket.Exact
  rw [phase]

section Turns

variable (strkey s)

/-- What a turn of the handler does to the connection. -/
inductive Socket.Move (socket : Socket) : Turn → Socket → Prop
  | replayed {cursor : Int} (phase : socket.phase = .replaying cursor)
      (nothing : (socket.query.filter strkey).past cursor s.db.events = []) :
      Move socket .readPage { socket with phase := .attaching }
  | page {cursor : Int} {event : IndexedEvent} {rest : List IndexedEvent}
      {nextCursor : Option Int} (phase : socket.phase = .replaying cursor)
      (page : ((socket.query.filter strkey).past cursor s.db.events).take replayPageSize =
        event :: rest)
      (last : nextCursor = none →
        ((socket.query.filter strkey).past cursor s.db.events).length ≤ replayPageSize) :
      Move socket .readPage { socket with phase := .sending event rest nextCursor }
  | failed {cursor : Int} (phase : socket.phase = .replaying cursor) :
      Move socket .failRead { socket with phase := .attaching }
  | sent {event following : IndexedEvent} {rest : List IndexedEvent} {nextCursor : Option Int}
      (phase : socket.phase = .sending event (following :: rest) nextCursor) :
      Move socket .sendReplayed
        { socket.send (.event event) with phase := .sending following rest nextCursor }
  | sentPage {event : IndexedEvent} {nextCursor : Option Int}
      (phase : socket.phase = .sending event [] nextCursor) :
      Move socket .sendReplayed { socket.send (.event event) with
        replayedThrough := some event.mark
        phase := if nextCursor.isNone then .attaching else .replaying event.mark }
  | attached (phase : socket.phase = .attaching) {message : ServerMessage}
      (plain : message.event? = none) :
      Move socket .sendSubscribed { socket.send message with phase := .live }
  | lagged (phase : socket.phase = .live) {message : ServerMessage}
      (plain : message.event? = none)
      (behind : broadcastCapacity < s.channel.length - socket.position) :
      Move socket .receive { socket.send message with phase := .closed }
  | received {event : IndexedEvent} (phase : socket.phase = .live)
      (found : s.channel[socket.position]? = some event)
      (fresh : ∀ through ∈ socket.replayedThrough, through < event.mark)
      (wanted : (socket.query.filter strkey).matches event = true) :
      Move socket .receive
        (({ socket with position := socket.position + 1 } : Socket).send (.event event))
  | skipped {event : IndexedEvent} (phase : socket.phase = .live)
      (found : s.channel[socket.position]? = some event)
      (dropped : (∃ through ∈ socket.replayedThrough, event.mark ≤ through) ∨
        (socket.query.filter strkey).matches event = false) :
      Move socket .receive { socket with position := socket.position + 1 }
  | hungUp : Move socket .hangUp { socket with phase := .closed }

variable {strkey s}

theorem Socket.move_of_readPage (ran : socket.next strkey s .readPage = some next) :
    socket.Move strkey s .readPage next := by
  cases phase : socket.phase with
  | replaying cursor =>
    -- What the page holds is said by the laws of the query, not read off the rows.
    have page := socket.query.page_events strkey cursor s.db replayPageSize
    have last := socket.query.page_last strkey cursor s.db replayPageSize (by decide)
    simp only [Socket.next, phase] at ran
    generalize s.db.eventsAfter strkey (some cursor) replayPageSize
      (socket.query.filter strkey).eventType (socket.query.filter strkey).address = read at *
    rcases read with ⟨events, nextCursor⟩
    cases events with
    | nil =>
      cases ran
      -- An empty page means that nothing was left, since a page has room for events.
      exact .replayed phase ((List.take_eq_nil_iff.mp page.symm).resolve_left (by decide))
    | cons event rest =>
      cases ran
      exact .page phase page.symm last
  | _ => simp [Socket.next, phase] at ran

theorem Socket.move_of_receive (ran : socket.next strkey s .receive = some next) :
    socket.Move strkey s .receive next := by
  cases phase : socket.phase with
  | live =>
    simp only [Socket.next, phase] at ran
    unfold Socket.receive at ran
    dsimp only at ran
    -- A receiver that is too far behind is told so before it gets anything.
    split at ran
    · rename_i behind
      cases ran
      exact .lagged phase rfl behind
    · obtain ⟨event, found, rfl⟩ := Option.map_eq_some_iff.mp ran
      -- The handler passes over what it replayed, and what the filter does not match.
      split
      · rename_i known
        exact .skipped phase found (.inl (by simpa [Option.any_eq_true] using known))
      · rename_i unknown
        have fresh : ∀ through ∈ socket.replayedThrough, through < event.mark := by
          simpa [Option.any_eq_true] using unknown
        split
        · rename_i wanted
          exact .received phase found fresh wanted
        · rename_i unwanted
          exact .skipped phase found (.inr (by simpa using unwanted))
  | _ => simp [Socket.next, phase] at ran

theorem Socket.move {turn : Turn} (ran : socket.next strkey s turn = some next) :
    socket.Move strkey s turn next := by
  -- In each phase only its own turns are possible.
  cases turn with
  | readPage => exact Socket.move_of_readPage ran
  | receive => exact Socket.move_of_receive ran
  | hangUp => cases ran; exact .hungUp
  | failRead =>
    cases phase : socket.phase with
    | replaying cursor => simp only [Socket.next, phase] at ran; cases ran; exact .failed phase
    | _ => simp [Socket.next, phase] at ran
  | sendReplayed =>
    cases phase : socket.phase with
    | sending event rest nextCursor =>
      simp only [Socket.next, phase] at ran
      cases rest with
      | nil => cases ran; exact .sentPage phase
      | cons following rest => cases ran; exact .sent phase
    | _ => simp [Socket.next, phase] at ran
  | sendSubscribed =>
    cases phase : socket.phase with
    | attaching => simp only [Socket.next, phase] at ran; cases ran; exact .attached phase rfl
    | _ => simp [Socket.next, phase] at ran

theorem Socket.delivered_send (socket : Socket) (message : ServerMessage) :
    (socket.send message).delivered = socket.delivered ++ message.event?.toList := by
  unfold Socket.delivered Socket.send
  rw [List.filterMap_append]
  cases message <;> rfl

theorem Service.awaiting_cons (found : s.channel[socket.position]? = some event) :
    s.awaiting socket =
      event :: (s.channel.drop (socket.position + 1) ++ s.pending.toList) := by
  obtain ⟨within, same⟩ := List.getElem?_eq_some_iff.mp found
  rw [Service.awaiting, List.drop_eq_getElem_cons within, same, List.cons_append]

theorem Socket.Move.frame {turn : Turn} (moved : socket.Move strkey s turn next) :
    next.query = socket.query ∧
      (socket.position ≤ s.channel.length → next.position ≤ s.channel.length) := by
  -- Only a receipt moves the position, and it takes an event that is there.
  cases moved with
  | received phase found | skipped phase found =>
    obtain ⟨within, -⟩ := List.getElem?_eq_some_iff.mp found
    exact ⟨rfl, fun _ => within⟩
  | _ => exact ⟨rfl, id⟩

theorem Fed.send (fed : Fed filter db after mark socket.delivered (event :: rest) source) :
    Fed filter db after mark (socket.send (.event event)).delivered rest source := by
  refine ⟨?_, fed.resumed, fed.reached⟩
  rw [fed.split, socket.delivered_send]
  simp [ServerMessage.event?]

theorem Fed.tell {message : ServerMessage} (plain : message.event? = none)
    (fed : Fed filter db after mark socket.delivered unsent source) :
    Fed filter db after mark (socket.send message).delivered unsent source := by
  rw [socket.delivered_send, plain, Option.toList_none, List.append_nil]
  exact fed

theorem Fed.receive (fed : Fed filter db after mark delivered [] (event :: rest)) :
    Fed filter db after mark
      (delivered ++ if filter.matches event ∧ mark < event.mark then [event] else []) [] rest := by
  refine ⟨?_, fed.resumed, fed.reached⟩
  rw [fed.split, filter.past_cons]
  simp only [List.append_nil, List.append_assoc]

/-- A turn in order leaves the client with exactly what it asked for. -/
theorem Socket.Exact.move {turn : Turn} (consistent : s.Consistent strkey)
    (member : socket ∈ s.socket) (resumed : after ∈ socket.query.after)
    (exact : socket.Exact strkey s after) (moved : socket.Move strkey s turn next)
    (orderly : s.Orderly strkey (.turn turn)) : next.Exact strkey s after := by
  have leads := exact.leads
  cases moved with
  | replayed phase nothing =>
    -- Nothing is left in the store, so nothing is left in the channel either.
    unfold Socket.Exact at exact
    rw [phase] at exact
    obtain ⟨fed, rfl⟩ := exact
    have quiet := consistent.quiet socket nothing
    exact ⟨fed.split.trans (by rw [nothing, ← quiet]; rfl), fed.resumed, fed.reached⟩
  | page phase page last =>
    unfold Socket.Exact at exact
    rw [phase] at exact
    obtain ⟨fed, -⟩ := exact
    obtain ⟨split, beyond, known⟩ := Db.past_page page
    refine ⟨⟨?_, fed.resumed.trans beyond.le, .inr known⟩, fun final => ?_⟩
    · rw [fed.split, split, List.append_nil, ← List.append_assoc]
      rfl
    · -- The last page is all there is, so beyond it there is nothing.
      rw [List.take_of_length_le (last final)] at page
      have nothing := List.self_eq_append_right.mp (page.symm.trans split)
      rw [nothing]
      exact (consistent.quiet socket nothing).symm
  | failed phase => exact orderly.elim
  | sent phase =>
    unfold Socket.Exact at exact
    rw [phase] at exact
    obtain ⟨fed, final⟩ := exact
    rw [List.getLastD_cons] at fed final
    exact ⟨fed.send, final⟩
  | @sentPage event nextCursor phase =>
    unfold Socket.Exact at exact
    rw [phase] at exact
    obtain ⟨fed, final⟩ := exact
    have sent := fed.send
    cases nextCursor with
    | none =>
      -- From here on, what the store has beyond the page comes through the channel.
      exact ⟨sent.split.trans (by rw [final rfl]; rfl), sent.resumed, sent.reached⟩
    | some cursor => exact ⟨sent, rfl⟩
  | attached phase plain =>
    unfold Socket.Exact at exact
    rw [phase] at exact
    exact exact.tell plain
  | lagged phase plain behind =>
    show (socket.send _).delivered <+: _
    rw [socket.delivered_send, plain, Option.toList_none, List.append_nil]
    exact leads
  | @received event phase found fresh wanted =>
    have fed := (Socket.exact_live phase).mp exact
    rw [Service.awaiting_cons found] at fed
    -- What was not replayed is beyond the mark, be it the replayed cursor or the resumed one.
    have beyond : socket.replayedThrough.getD after < event.mark := by
      cases through : socket.replayedThrough with
      | none => exact orderly socket member after resumed event found through wanted
      | some last => exact fresh last through
    have sent := fed.receive
    rw [if_pos ⟨wanted, beyond⟩] at sent
    refine (Socket.exact_live ?_).mpr ?_
    · exact phase
    · rw [Socket.delivered_send]
      exact sent
  | @skipped event phase found dropped =>
    have fed := (Socket.exact_live phase).mp exact
    rw [Service.awaiting_cons found] at fed
    have unwanted : ¬ ((socket.query.filter strkey).matches event ∧
        socket.replayedThrough.getD after < event.mark) := by
      rintro ⟨matched, beyond⟩
      rcases dropped with ⟨through, replayed, known⟩ | unmatched
      · rw [Option.mem_def.mp replayed, Option.getD_some] at beyond
        omega
      · rw [unmatched] at matched
        cases matched
    have left := fed.receive
    rw [if_neg unwanted, List.append_nil] at left
    refine (Socket.exact_live ?_).mpr ?_
    · exact phase
    · exact left
  | hungUp => exact leads

end Turns

theorem Socket.Exact.grow (exact : socket.Exact strkey s after)
    (stored : s'.db.events = s.db.events ++ [event]) (latest : event.mark = s'.db.sequence)
    (counted : s'.db.sequence = s.db.sequence + 1)
    (awaited : s'.awaiting socket = s.awaiting socket ++ [event]) :
    socket.Exact strkey s' after := by
  -- Everything the client may still get has the new row at its end.
  unfold Socket.Exact at exact ⊢
  rw [stored, awaited]
  cases phase : socket.phase with
  | replaying cursor =>
    rw [phase] at exact
    exact ⟨exact.1.grow stored latest counted, exact.2⟩
  | sending event rest nextCursor =>
    rw [phase] at exact
    refine ⟨exact.1.grow stored latest counted, fun final => ?_⟩
    rw [Filter.past_append, Filter.past_append, exact.2 final]
  | attaching | live =>
    rw [phase] at exact
    exact exact.grow stored latest counted
  | closed =>
    rw [phase] at exact
    have longer : (socket.query.filter strkey).past after s.db.events <+:
        (socket.query.filter strkey).past after (s.db.events ++ [event]) := by
      rw [Filter.past_append]
      exact List.prefix_append ..
    exact List.IsPrefix.trans exact longer

theorem Socket.Exact.skip (exact : socket.Exact strkey s after)
    (kept : s'.db.events = s.db.events) (counted : s'.db.sequence = s.db.sequence + 1)
    (awaited : s'.awaiting socket = s.awaiting socket) : socket.Exact strkey s' after := by
  unfold Socket.Exact at exact ⊢
  rw [kept, awaited]
  -- The rows are the same, so the client is owed the same events.
  cases phase : socket.phase with
  | replaying | sending => rw [phase] at exact; exact ⟨exact.1.skip kept counted, exact.2⟩
  | attaching | live => rw [phase] at exact; exact exact.skip kept counted
  | closed => rw [phase] at exact; exact exact

theorem Socket.Exact.congr (exact : socket.Exact strkey s after) (rows : s'.db = s.db)
    (awaited : s'.awaiting socket = s.awaiting socket) : socket.Exact strkey s' after := by
  unfold Socket.Exact at exact ⊢
  rw [rows, awaited]
  exact exact

theorem SubscribeQuery.connect_exact (query : SubscribeQuery) (resumed : after ∈ query.after)
    (position : Nat) : (query.connect position).Exact strkey s after := by
  unfold SubscribeQuery.connect
  -- A bad query closes the socket, and a good one starts before the first row after the mark.
  split
  · exact ⟨_, rfl⟩
  · rw [Option.mem_def.mp resumed]
    exact ⟨⟨rfl, le_rfl, .inl rfl⟩, rfl⟩

theorem SubscribeQuery.connect_frame (query : SubscribeQuery) (position : Nat) :
    (query.connect position).query = query ∧ (query.connect position).position = position := by
  unfold SubscribeQuery.connect
  split
  · exact ⟨rfl, rfl⟩
  · split <;> exact ⟨rfl, rfl⟩

theorem Db.insertEvent_cases (db : Db) (emission : Emission) :
    (db.insertEvent emission).1.sequence = db.sequence + 1 ∧
    ((db.insertEvent emission).2 = none ∧ (db.insertEvent emission).1.events = db.events ∨
      ∃ event, (db.insertEvent emission).2 = some event ∧
        (db.insertEvent emission).1.events = db.events ++ [event] ∧
        event.mark = (db.insertEvent emission).1.sequence) := by
  -- An event with a known key is ignored, and any other gets the next number.
  unfold Db.insertEvent
  split
  · exact ⟨rfl, .inl ⟨rfl, rfl⟩⟩
  · exact ⟨rfl, .inr ⟨_, rfl, rfl, rfl⟩⟩

theorem Service.Consistent.booted (db : Db) : (Service.booted db).Consistent strkey := by
  -- Nobody is connected yet.
  refine ⟨List.nil_suffix, ?_, ?_⟩
  · intro socket member
    cases member
  · intro socket member
    cases member

theorem Service.Consistent.insert (consistent : s.Consistent strkey) (emission : Emission)
    (idle : s.pending = none) :
    Service.Consistent strkey { s with
      db := (s.db.insertEvent emission).1
      pending := (s.db.insertEvent emission).2 } := by
  have queued := consistent.queued
  simp only [idle, Option.toList_none, List.append_nil] at queued
  obtain ⟨counted, ⟨pending, kept⟩ | ⟨event, pending, stored, latest⟩⟩ :=
    s.db.insertEvent_cases emission
  · -- A known event uses up a number and changes nothing else.
    refine ⟨?_, consistent.behind, ?_⟩
    · simpa [pending, kept] using queued
    · intro socket member after resumed
      refine (consistent.exact socket member after resumed).skip kept counted ?_
      simp [Service.awaiting, pending, idle]
  · refine ⟨?_, consistent.behind, ?_⟩
    · obtain ⟨old, same⟩ := queued
      refine ⟨old, ?_⟩
      simp [pending, stored, ← same]
    · intro socket member after resumed
      refine (consistent.exact socket member after resumed).grow stored latest counted ?_
      simp [Service.awaiting, pending, idle]

theorem Service.Consistent.broadcast (consistent : s.Consistent strkey)
    (pending : s.pending = some event) :
    Service.Consistent strkey { s with pending := none, channel := s.channel ++ [event] } := by
  have queued := consistent.queued
  rw [pending] at queued
  refine ⟨?_, ?_, ?_⟩
  · simpa using queued
  · intro socket member
    have behind := consistent.behind socket member
    simp only [List.length_append]
    omega
  · intro socket member after resumed
    refine (consistent.exact socket member after resumed).congr rfl ?_
    -- The event goes from the ingestor's hands to the end of the channel.
    simp only [Service.awaiting, pending]
    rw [List.drop_append_of_le_length (consistent.behind socket member)]
    simp

theorem Service.Consistent.connect (consistent : s.Consistent strkey) (query : SubscribeQuery) :
    Service.Consistent strkey { s with socket := some (query.connect s.channel.length) } := by
  obtain ⟨asked, position⟩ := query.connect_frame s.channel.length
  -- The new socket sees the channel from now on, and has delivered nothing.
  refine ⟨consistent.queued, ?_, ?_⟩
  · rintro socket ⟨rfl⟩
    exact position.le
  · rintro socket ⟨rfl⟩ after resumed
    rw [asked] at resumed
    exact query.connect_exact resumed s.channel.length

theorem Service.Consistent.turn (consistent : s.Consistent strkey) {turn : Socket.Turn}
    (member : socket ∈ s.socket) (ran : socket.next strkey s turn = some next)
    (orderly : s.Orderly strkey (.turn turn)) :
    Service.Consistent strkey { s with socket := some next } := by
  have moved := Socket.move ran
  obtain ⟨asked, ahead⟩ := moved.frame
  -- The socket's turn touches neither the rows nor the channel.
  refine ⟨consistent.queued, ?_, ?_⟩
  · rintro after ⟨rfl⟩
    exact ahead (consistent.behind socket member)
  · rintro moved' ⟨rfl⟩ after resumed
    rw [asked] at resumed
    have exact := consistent.exact socket member after resumed
    exact (exact.move consistent member resumed moved orderly).congr rfl rfl

theorem Service.Consistent.step (consistent : s.Consistent strkey) {action : Action}
    (step : s.OrderlyStep strkey action s') : s'.Consistent strkey := by
  obtain ⟨ran, orderly⟩ := step
  unfold Service.Step Service.act at ran
  -- One lemma for each kind of action.
  cases action with
  | insert emission =>
    dsimp only at ran
    split at ran
    · cases ran
    · rename_i idle
      cases ran
      exact consistent.insert emission (by simpa using idle)
  | broadcast =>
    obtain ⟨event, pending, rfl⟩ := Option.map_eq_some_iff.mp ran
    exact consistent.broadcast pending
  | connect query =>
    dsimp only at ran
    split at ran
    · cases ran
    · cases ran
      exact consistent.connect query
  | turn turn =>
    obtain ⟨socket, member, rest⟩ := Option.bind_eq_some_iff.mp ran
    obtain ⟨next, moved, done⟩ := Option.bind_eq_some_iff.mp rest
    cases done
    exact consistent.turn member moved orderly

section Settling

variable (strkey s)

/-- The handler takes a turn in which nothing goes wrong. -/
def Socket.Handles (socket next : Socket) : Prop :=
  ∃ turn, turn ≠ .failRead ∧ turn ≠ .hangUp ∧ socket.next strkey s turn = some next

/--
Left alone, the handler comes to where it has received everything that was broadcast, or closes
the connection.
-/
def Socket.Settles (socket : Socket) : Prop :=
  ∃ settled, Relation.ReflTransGen (Socket.Handles strkey s) socket settled ∧
    (settled.phase = .closed ∨ settled.phase = .live ∧ settled.position = s.channel.length)

variable {strkey s}

theorem Socket.Settles.handled (settles : next.Settles strkey s)
    (handled : Relation.ReflTransGen (Socket.Handles strkey s) socket next) :
    socket.Settles strkey s := by
  obtain ⟨settled, more, done⟩ := settles
  exact ⟨settled, handled.trans more, done⟩

theorem Socket.settles_live (phase : socket.phase = .live)
    (behind : socket.position ≤ s.channel.length) : socket.Settles strkey s := by
  -- Every event that is received leaves one less.
  induction left : s.channel.length - socket.position generalizing socket with
  | zero => exact ⟨socket, .refl, .inr ⟨phase, by omega⟩⟩
  | succ rest ih =>
    have within : socket.position + 1 ≤ s.channel.length := by omega
    have fewer : s.channel.length - (socket.position + 1) = rest := by omega
    have found := List.getElem?_eq_getElem within
    obtain ⟨next, ran⟩ : ∃ next, socket.next strkey s .receive = some next := by
      simp only [Socket.next, phase, Socket.receive, found, Option.map_some]
      split <;> exact ⟨_, rfl⟩
    have handled : Relation.ReflTransGen (Socket.Handles strkey s) socket next :=
      .single ⟨.receive, by decide, by decide, ran⟩
    cases Socket.move ran with
    | lagged => exact ⟨_, handled, .inl rfl⟩
    | received | skipped =>
      refine (ih ?_ ?_ ?_).handled handled
      · exact phase
      · exact within
      · exact fewer

theorem Socket.settles_attaching (phase : socket.phase = .attaching)
    (behind : socket.position ≤ s.channel.length) : socket.Settles strkey s := by
  -- The one turn left makes the socket live, from where the live case goes on.
  obtain ⟨next, ran⟩ : ∃ next, socket.next strkey s .sendSubscribed = some next := by
    simp [Socket.next, phase]
  have handled : Relation.ReflTransGen (Socket.Handles strkey s) socket next :=
    .single ⟨.sendSubscribed, by decide, by decide, ran⟩
  cases Socket.move ran with
  | attached =>
    refine (Socket.settles_live ?_ ?_).handled handled
    · rfl
    · exact behind

theorem Socket.page_sent {nextCursor : Option Int}
    (phase : socket.phase = .sending event rest nextCursor) :
    ∃ sent : Socket, Relation.ReflTransGen (Socket.Handles strkey s) socket sent ∧
      sent.query = socket.query ∧ sent.position = socket.position ∧
      (sent.phase = .attaching ∨ sent.phase = .replaying (rest.getLastD event).mark) := by
  -- Every event that is sent makes the rest of the page shorter.
  induction rest generalizing socket event with
  | nil =>
    have ran : socket.next strkey s .sendReplayed =
        some (socket.sendReplayed event [] nextCursor) := by
      simp only [Socket.next, phase]
    refine ⟨_, .single ⟨.sendReplayed, by decide, by decide, ran⟩, rfl, rfl, ?_⟩
    cases nextCursor with
    | none => exact .inl rfl
    | some cursor => exact .inr rfl
  | cons following rest ih =>
    have ran : socket.next strkey s .sendReplayed =
        some (socket.sendReplayed event (following :: rest) nextCursor) := by
      simp only [Socket.next, phase]
    have onward : (socket.sendReplayed event (following :: rest) nextCursor).phase =
        .sending following rest nextCursor := rfl
    obtain ⟨sent, more, query, position, after⟩ := ih onward
    refine ⟨sent, .head ⟨.sendReplayed, by decide, by decide, ran⟩ more, query, position, ?_⟩
    rwa [List.getLastD_cons]

theorem Socket.settles_replaying {cursor : Int} (phase : socket.phase = .replaying cursor)
    (behind : socket.position ≤ s.channel.length) : socket.Settles strkey s := by
  -- Every page leaves fewer rows to replay.
  induction left : ((socket.query.filter strkey).past cursor s.db.events).length
    using Nat.strong_induction_on generalizing socket cursor with
  | _ count ih =>
    obtain ⟨next, ran⟩ : ∃ next, socket.next strkey s .readPage = some next := by
      simp only [Socket.next, phase]
      split <;> exact ⟨_, rfl⟩
    have read : Relation.ReflTransGen (Socket.Handles strkey s) socket next :=
      .single ⟨.readPage, by decide, by decide, ran⟩
    cases Socket.move ran with
    | replayed =>
      refine (Socket.settles_attaching ?_ ?_).handled read
      · rfl
      · exact behind
    | @page _ event rest nextCursor replaying page =>
      cases replaying.symm.trans phase
      have sending : Socket.phase { socket with phase := .sending event rest nextCursor } =
          .sending event rest nextCursor := rfl
      obtain ⟨sent, pageSent, query, position, onward⟩ := Socket.page_sent sending
      have still : sent.position ≤ s.channel.length := position.trans_le behind
      refine Socket.Settles.handled ?_ (read.trans pageSent)
      rcases onward with attaching | replaying
      · exact Socket.settles_attaching attaching still
      · refine ih _ ?_ replaying still rfl
        have split := congrArg List.length (Db.past_page page).1
        simp only [List.length_append, List.length_cons] at split
        rw [query]
        dsimp only
        omega

theorem Socket.settles (behind : socket.position ≤ s.channel.length) : socket.Settles strkey s := by
  -- Each phase is settled from the ones that follow it.
  cases phase : socket.phase with
  | replaying cursor => exact Socket.settles_replaying phase behind
  | sending event rest nextCursor =>
    obtain ⟨sent, pageSent, -, position, onward⟩ := Socket.page_sent phase
    have still : sent.position ≤ s.channel.length := position.trans_le behind
    refine Socket.Settles.handled ?_ pageSent
    -- The page was the last one, or the replay goes on.
    rcases onward with attaching | replaying
    · exact Socket.settles_attaching attaching still
    · exact Socket.settles_replaying replaying still
  | attaching => exact Socket.settles_attaching phase behind
  | live => exact Socket.settles_live phase behind
  | closed => exact ⟨socket, .refl, .inl phase⟩

end Settling

theorem Service.Consistent.run {actions : List Action}
    (run : Trace (Service.OrderlyStep strkey) (Service.booted db) actions s) :
    s.Consistent strkey :=
  @Trace.preserves _ _ _ _ _ _ (Service.Consistent strkey)
    (fun _ _ _ step consistent => consistent.step step) run (.booted db)

/--
In every run in order, a client that resumed has got the events it asked for from the first one
on, once each and in the order of their cursors. On the live feed, what it has not got yet is
still to be received, so when all is received it has got everything. A client that lags is
disconnected, and any other handler comes to where everything broadcast is received.
-/
theorem resumption_exact {actions : List Action}
    (run : Trace (Service.OrderlyStep strkey) (Service.booted db) actions s)
    (connected : s.socket = some socket) (resumed : socket.query.after = some after) :
    let asked := s.db.events.filter fun event =>
      (socket.query.filter strkey).matches event && after < event.cursor
    socket.delivered <+: asked ∧
    asked.Pairwise (fun earlier later => earlier.cursor < later.cursor) ∧
    (socket.phase = .live →
      (∃ later, later.Sublist (s.awaiting socket) ∧ asked = socket.delivered ++ later) ∧
      (broadcastCapacity < s.channel.length - socket.position →
        ∃ next, socket.next strkey s .receive = some next ∧ next.phase = .closed)) ∧
    socket.Settles strkey s := by
  -- The invariant of orderly runs says what the socket has delivered so far.
  have consistent := Service.Consistent.run run
  have exact := consistent.exact socket connected after resumed
  rw [Filter.past_eq]
  refine ⟨exact.leads, ?_, fun phase => ⟨?_, fun lagging => ?_⟩,
    Socket.settles (consistent.behind socket connected)⟩
  · -- The rows are numbered in order, so what is asked for ascends.
    refine List.Pairwise.imp ?_ s.db.past_ascending
    intro earlier later below
    exact Int.ofNat_lt.mp below
  · -- What is not delivered yet is still in the channel.
    have fed := (Socket.exact_live phase).mp exact
    refine ⟨_, ?_, by simpa using fed.split⟩
    exact List.filter_sublist.trans List.filter_sublist
  · -- A socket that lags too far is closed by its next receipt.
    simp only [Socket.next, phase, Socket.receive, if_pos lagging]
    exact ⟨_, rfl, rfl⟩

section Scripts

/-- Whether an action is in order is decided by looking at the client. -/
instance orderlyDecidable (s : Service) (action : Action) : Decidable (s.Orderly strkey action) :=
  match action with
  | .turn .failRead => inferInstanceAs (Decidable False)
  | .turn .receive =>
    inferInstanceAs (Decidable (∀ socket ∈ s.socket, ∀ after ∈ socket.query.after,
      ∀ event ∈ s.channel[socket.position]?, socket.replayedThrough = none →
        (socket.query.filter strkey).matches event → after < event.mark))
  | .insert _ | .broadcast | .connect _ | .turn .readPage | .turn .sendReplayed
  | .turn .sendSubscribed | .turn .hangUp => inferInstanceAs (Decidable True)

variable (strkey)

def Service.play (s : Service) (action : Action) : Service := (s.act strkey action).getD s

variable {strkey} {script : List Action}

theorem Service.scripted (playable : Trace.Playable (Service.play strkey)
      (fun s action => (s.act strkey action).isSome) s script) :
    Trace (Service.Step strkey) s script.reverse (script.foldl (Service.play strkey) s) :=
  Trace.of_advance (fun _ _ possible => possible) (fun _ _ _ _ ran => ran) script playable

theorem Service.orderlyScripted (playable : Trace.Playable (Service.play strkey)
      (fun s action => (s.act strkey action).isSome ∧ s.Orderly strkey action) s script) :
    Trace (Service.OrderlyStep strkey) s script.reverse
      (script.foldl (Service.play strkey) s) :=
  Trace.of_advance (fun _ _ legal => legal.1) (fun _ _ _ legal ran => ⟨ran, legal.2⟩) script
    playable

end Scripts

def pausedIn (txHash : String) : Emission := ⟨1, 0, txHash, 0, .paused true⟩

def resumeFrom (cursor : Int) : SubscribeQuery := ⟨none, none, some cursor⟩

/-- One event is stored. -/
def oneEvent : Db := (Db.blank.insertEvent (pausedIn "first")).1

/--
The second event is stored before the replay and broadcast after it, and the third is live.

In between the second event is read again and ignored.
-/
def replayThenLive : List Action :=
  [.connect (resumeFrom 0), .insert (pausedIn "second"), .turn .readPage, .turn .sendReplayed,
    .turn .sendReplayed, .broadcast, .turn .sendSubscribed, .turn .receive,
    .insert (pausedIn "second"), .insert (pausedIn "third"), .broadcast, .turn .receive]

/-- The client gets the three events once each. -/
theorem resumption_exact_replayed : ∃ s socket,
    Trace (Service.OrderlyStep letterStrkey) (Service.booted oneEvent) replayThenLive.reverse s ∧
    s.socket = some socket ∧ socket.phase = .live ∧ s.awaiting socket = [] ∧
    socket.delivered.map IndexedEvent.cursor = [1, 2, 4] ∧ socket.delivered = s.db.events ∧
    socket.Settles letterStrkey s := by
  have run := Service.orderlyScripted (show Trace.Playable (Service.play letterStrkey) _
    (Service.booted oneEvent) replayThenLive by decide)
  refine ⟨_, _, run, rfl, by decide, by decide, by decide, by decide, ?_⟩
  exact (resumption_exact run rfl rfl).2.2.2

/-- The page of the replay cannot be read, and the client goes on with the live feed. -/
def failThenLive : List Action :=
  [.connect (resumeFrom 0), .turn .failRead, .turn .sendSubscribed, .insert (pausedIn "second"),
    .broadcast, .turn .receive]

/-- The client resumes from an event that is broadcast after it has connected. -/
def resumeEarly : List Action :=
  [.insert (pausedIn "second"), .connect (resumeFrom 2), .turn .readPage, .turn .sendSubscribed,
    .broadcast, .turn .receive]

/--
After a failed read, a client that stays connected and has received everything misses an event.

After an empty replay, a client gets an event that it said it has.
-/
theorem resumption_inexact :
    (∃ s socket, Trace (Service.Step letterStrkey) (Service.booted oneEvent)
        failThenLive.reverse s ∧
      s.socket = some socket ∧ socket.query.after = some 0 ∧ socket.phase = .live ∧
      s.awaiting socket = [] ∧ s.db.events.map IndexedEvent.cursor = [1, 2] ∧
      socket.delivered.map IndexedEvent.cursor = [2]) ∧
    ∃ s socket, Trace (Service.Step letterStrkey) (Service.booted oneEvent)
        resumeEarly.reverse s ∧
      s.socket = some socket ∧ socket.query.after = some 2 ∧ socket.phase = .live ∧
      s.db.events.map IndexedEvent.cursor = [1, 2] ∧
      socket.delivered.map IndexedEvent.cursor = [2] := by
  -- A failed page read ends the replay early, and the first event is never sent.
  have failed := Service.scripted (show Trace.Playable (Service.play letterStrkey) _
    (Service.booted oneEvent) failThenLive by decide)
  -- A mark that is ahead of the rows delivers an event that it should have skipped.
  have early := Service.scripted (show Trace.Playable (Service.play letterStrkey) _
    (Service.booted oneEvent) resumeEarly by decide)
  exact ⟨⟨_, _, failed, rfl, rfl, by decide, by decide, by decide, by decide⟩,
    _, _, early, rfl, rfl, by decide, by decide, by decide⟩

end KeeperNetwork.Indexer
