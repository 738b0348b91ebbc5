import KeeperNetwork.Indexer.EventPages
import KeeperNetwork.Lib.Trace

/-! Live subscriptions: a client that resumes from a cursor while events are ingested. -/

namespace KeeperNetwork.Indexer

/-- Events replayed per batch when catching a reconnecting client up. -/
def replayPageSize : Nat := 200

/-- Events that the channel keeps for a subscriber that has not received them yet. -/
def broadcastCapacity : Nat := 1024

/-- What a client asks for when it connects. -/
structure SubscribeQuery where
  /-- Only events of this type, by its wire name. -/
  eventType : Option String
  address : Option String
  /-- Resume from this cursor, replaying anything missed first. -/
  after : Option Int
  deriving DecidableEq, Repr

/-- What the server sends to the client. -/
inductive ServerMessage where
  /-- Sent once after any replay, when the live feed is attached. -/
  | subscribed (eventType address : Option String) (replayedThrough : Option Int)
  | event (indexed : IndexedEvent)
  | closed (reason : String)
  deriving DecidableEq, Repr

def ServerMessage.event? : ServerMessage → Option IndexedEvent
  | .event indexed => some indexed
  | _ => none

/-- The filters that one subscriber applied. -/
structure Filter where
  eventType : Option EventType
  address : Option String
  deriving DecidableEq, Repr

/-- Whether the subscriber wants the event. -/
def Filter.matches (filter : Filter) (event : IndexedEvent) : Bool :=
  (filter.eventType.all fun wanted => event.payload.eventType = wanted) &&
    filter.address.all fun address =>
      event.payload.owner = some address || event.payload.keeper = some address

/-- What the handler of a subscription does next. -/
inductive Phase where
  | replaying (cursor : Int)
  /-- Send the rest of a page, which says where the next one starts. -/
  | sending (event : IndexedEvent) (rest : List IndexedEvent) (nextCursor : Option Int)
  | attaching
  | live
  | closed
  deriving DecidableEq, Repr

/-- A connection, with everything that was sent over it. -/
structure Socket where
  query : SubscribeQuery
  /-- How many messages of the channel are behind this receiver. -/
  position : Nat
  phase : Phase
  replayedThrough : Option Int
  outbox : List ServerMessage
  deriving DecidableEq, Repr

/-- The ingestor with its store and its channel, and a client. -/
structure Service where
  db : Db
  /-- The event that was stored but not broadcast yet. -/
  pending : Option IndexedEvent
  channel : List IndexedEvent
  socket : Option Socket

/-- The process right after it was started over a store. -/
def Service.booted (db : Db) : Service := ⟨db, none, [], none⟩

/-- What the handler of a subscription can do or meet. -/
inductive Socket.Turn where
  | readPage
  | failRead
  | sendReplayed
  | sendSubscribed
  | receive
  | hangUp
  deriving DecidableEq, Repr

/-- What can happen while the process runs. -/
inductive Action where
  /-- The ingestor stores an event, unless it is known. -/
  | insert (emission : Emission)
  | broadcast
  | connect (query : SubscribeQuery)
  | turn (turn : Socket.Turn)

section Model

variable {Key : Type} (strkey : Strkey Key)

def SubscribeQuery.filter (query : SubscribeQuery) : Filter where
  eventType := query.eventType.bind EventType.parse
  address := query.address.map strkey.normalizedOrAsGiven

/-- A new connection, which is subscribed to the channel before anything else. -/
def SubscribeQuery.connect (query : SubscribeQuery) (position : Nat) : Socket :=
  match query.eventType, query.eventType.bind EventType.parse with
  | some name, none =>
    ⟨query, position, .closed, none, [.closed s!"unknown event type: {name}"]⟩
  | _, _ =>
    match query.after with
    | some after => ⟨query, position, .replaying after, none, []⟩
    | none => ⟨query, position, .attaching, none, []⟩

/-- The connection after one more message was sent. -/
def Socket.send (socket : Socket) (message : ServerMessage) : Socket :=
  { socket with outbox := socket.outbox ++ [message] }

def Socket.sendReplayed (socket : Socket) (event : IndexedEvent) (rest : List IndexedEvent)
    (nextCursor : Option Int) : Socket :=
  let sent := socket.send (.event event)
  match rest with
  | following :: rest => { sent with phase := .sending following rest nextCursor }
  -- The page is through, and the replay goes on only if there is another one.
  | [] => { sent with
      replayedThrough := some event.mark
      phase := if nextCursor.isNone then .attaching else .replaying event.mark }

def Socket.receive (socket : Socket) (channel : List IndexedEvent) : Option Socket :=
  let behind := channel.length - socket.position
  if broadcastCapacity < behind then
    let missed := behind - broadcastCapacity
    let reason :=
      s!"subscriber fell {missed} events behind; reconnect with ?after=<last cursor>"
    some { socket.send (.closed reason) with phase := .closed }
  else
    channel[socket.position]?.map fun event =>
      let received := { socket with position := socket.position + 1 }
      -- An event that was replayed already is not sent twice.
      if socket.replayedThrough.any fun through => event.mark ≤ through then received
      else if (socket.query.filter strkey).matches event then received.send (.event event)
      else received

/-- The connection after a turn of its handler, if the handler can take it. -/
def Socket.next (socket : Socket) (s : Service) : Turn → Option Socket
  | .readPage =>
    match socket.phase with
    | .replaying cursor =>
      let filter := socket.query.filter strkey
      let page := s.db.eventsAfter strkey (some cursor) replayPageSize filter.eventType
        filter.address
      match page.events with
      | [] => some { socket with phase := .attaching }
      | event :: rest => some { socket with phase := .sending event rest page.nextCursor }
    | _ => none
  | .failRead =>
    match socket.phase with
    -- The replay ends here, and the subscription goes on with the live feed.
    | .replaying _ => some { socket with phase := .attaching }
    | _ => none
  | .sendReplayed =>
    match socket.phase with
    | .sending event rest nextCursor => some (socket.sendReplayed event rest nextCursor)
    | _ => none
  | .sendSubscribed =>
    match socket.phase with
    | .attaching =>
      let message := .subscribed socket.query.eventType (socket.query.filter strkey).address
        socket.replayedThrough
      some { socket.send message with phase := .live }
    | _ => none
  | .receive =>
    match socket.phase with
    | .live => socket.receive strkey s.channel
    | _ => none
  | .hangUp => some { socket with phase := .closed }

def Service.act (s : Service) : Action → Option Service
  | .insert emission =>
    -- One event after the other is stored and broadcast.
    if s.pending.isSome then none
    else some { s with
      db := (s.db.insertEvent emission).1
      pending := (s.db.insertEvent emission).2 }
  | .broadcast =>
    s.pending.map fun event => { s with pending := none, channel := s.channel ++ [event] }
  | .connect query =>
    if s.socket.isSome then none
    else some { s with socket := some (query.connect s.channel.length) }
  | .turn turn => do
    let socket ← s.socket
    let next ← socket.next strkey s turn
    return { s with socket := some next }

/-- One thing happens. -/
def Service.Step (s : Service) (action : Action) (s' : Service) : Prop :=
  s.act strkey action = some s'

end Model

def Socket.delivered (socket : Socket) : List IndexedEvent :=
  socket.outbox.filterMap ServerMessage.event?

/-- What is stored or broadcast, but not received over a connection. -/
def Service.awaiting (s : Service) (socket : Socket) : List IndexedEvent :=
  s.channel.drop socket.position ++ s.pending.toList

def Filter.past (filter : Filter) (mark : Int) (events : List IndexedEvent) : List IndexedEvent :=
  Log.beyond IndexedEvent.mark mark (events.filter filter.matches)

end KeeperNetwork.Indexer
