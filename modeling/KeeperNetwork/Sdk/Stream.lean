import KeeperNetwork.Lib.Outcome
import KeeperNetwork.Lib.Trace

/-! The polling event stream of the Rust SDK, with its retries and its restarts. -/

namespace KeeperNetwork.Sdk

/-- The RPC call itself did not complete. -/
inductive TransportError where
  | timeout
  | connectionReset
  | simulationUnavailable
  | other (message : String)
  deriving DecidableEq, Repr

/-- Why a call to the network failed. -/
inductive RpcCallError (C : Type) where
  | transport (error : TransportError)
  | contract (error : C)
  deriving DecidableEq, Repr

/-- Whether a failure is worth retrying. -/
inductive ErrorClass where
  | transient
  | permanent
  deriving DecidableEq, Repr

/-- A failure of the transport is transient, and a contract error is permanent. -/
def defaultClassify {C : Type} : RpcCallError C → ErrorClass
  | .transport _ => .transient
  | .contract _ => .permanent

/-- A retry policy, apart from the delays between two attempts. -/
structure RetryPolicy where
  /-- Attempts made before giving up, the first one included. -/
  maxAttempts : Nat
  deriving DecidableEq, Repr

/-- Run an operation, and again after a transient failure, for a number of retries at most. -/
def retrying {m : Type → Type} [Monad m] {T C : Type} (op : m (Except (RpcCallError C) T))
    (classify : RpcCallError C → ErrorClass) : (retries : Nat) → m (Except (RpcCallError C) T)
  | 0 => op
  | retries + 1 => do
    match ← op with
    | .ok value => return .ok value
    | .error error =>
      if classify error = .permanent then return .error error
      else retrying op classify retries

/-- Run an operation under a policy, which makes one attempt at least. -/
def RetryPolicy.run {m : Type → Type} [Monad m] {T C : Type} (policy : RetryPolicy)
    (op : m (Except (RpcCallError C) T)) (classify : RpcCallError C → ErrorClass) :
    m (Except (RpcCallError C) T) :=
  retrying op classify (policy.maxAttempts - 1)

/-- Where the first request begins. -/
inductive EventStart (Cursor : Type) where
  /-- With the events at or after this ledger. -/
  | ledger (sequence : Nat)
  /-- Immediately after a cursor that an earlier stream saved. -/
  | cursor (saved : Cursor)

/-- The parameters of a request for one page. -/
structure EventPageRequest (Cursor : Type) where
  contractId : String
  /-- The starting ledger, present only until the first page is there. -/
  startLedger : Option Nat
  cursor : Option Cursor
  limit : Nat

/-- One raw event, and the cursor that follows it. -/
structure RawContractEvent (Cursor Value : Type) where
  cursor : Cursor
  topics : List Value
  value : Value

/-- A page of events. -/
structure EventPage (Cursor Value : Type) where
  events : List (RawContractEvent Cursor Value)
  /-- The cursor for the next request, also when the page is empty. -/
  cursor : Cursor

/-- The RPC node, whose answers depend on when it is asked. -/
structure EventTransport (Cursor Value : Type) where
  getEvents : (time : Nat) → EventPageRequest Cursor →
    Except (RpcCallError Unit) (EventPage Cursor Value)

/-- A decoded event with its cursor. -/
structure StreamEvent (Cursor Event : Type) where
  cursor : Cursor
  event : Event

/-- A failure that a stream yields. -/
inductive EventStreamError (Cursor DecodeError : Type) where
  | rpc (error : RpcCallError Unit)
  | decode (cursor : Cursor) (source : DecodeError)

/-- A polling stream of the events of one contract. -/
structure RegistryEventStream (Cursor Value : Type) where
  contractId : String
  startLedger : Option Nat
  requestCursor : Option Cursor
  currentCursor : Option Cursor
  buffered : List (RawContractEvent Cursor Value)
  retry : RetryPolicy
  pageLimit : Nat

namespace RegistryEventStream

variable {Cursor Value : Type}

def new (contractId : String) (start : EventStart Cursor) : RegistryEventStream Cursor Value where
  contractId
  startLedger := match start with
    | .ledger sequence => some sequence
    | .cursor _ => none
  requestCursor := match start with
    | .ledger _ => none
    | .cursor saved => some saved
  currentCursor := match start with
    | .ledger _ => none
    | .cursor saved => some saved
  buffered := []
  retry := ⟨4⟩
  pageLimit := 100

def withRetryPolicy (stream : RegistryEventStream Cursor Value) (retry : RetryPolicy) :
    RegistryEventStream Cursor Value := { stream with retry }

def withPageLimit (stream : RegistryEventStream Cursor Value) (pageLimit : Nat) :
    RegistryEventStream Cursor Value := { stream with pageLimit := max pageLimit 1 }

def request (stream : RegistryEventStream Cursor Value) : EventPageRequest Cursor where
  contractId := stream.contractId
  startLedger := stream.startLedger
  cursor := stream.requestCursor
  limit := stream.pageLimit

def popFront (stream : RegistryEventStream Cursor Value) (raw : RawContractEvent Cursor Value)
    (rest : List (RawContractEvent Cursor Value)) : RegistryEventStream Cursor Value :=
  { stream with buffered := rest, currentCursor := some raw.cursor }

/-- The stream with one more page, whose cursor the consumer may use if the page is empty. -/
def accept (stream : RegistryEventStream Cursor Value) (page : EventPage Cursor Value) :
    RegistryEventStream Cursor Value :=
  let stream := { stream with startLedger := none, requestCursor := some page.cursor }
  if page.events.isEmpty then { stream with currentCursor := some page.cursor }
  else { stream with buffered := stream.buffered ++ page.events }

end RegistryEventStream

/-- A consumer's process: its stream, and the number of requests made so far. -/
structure Session (Cursor Value : Type) where
  stream : RegistryEventStream Cursor Value
  clock : Nat

/-- Why a call to `next` did not return an event. -/
inductive Halt (Cursor DecodeError : Type) where
  | error (error : EventStreamError Cursor DecodeError)
  | polling

section Next

variable {Cursor Value Event DecodeError : Type} (transport : EventTransport Cursor Value)
  (decodeEvent : (topics : List Value) → (value : Value) → Except DecodeError Event)

def RawContractEvent.item (raw : RawContractEvent Cursor Value) :
    Except (EventStreamError Cursor DecodeError) (StreamEvent Cursor Event) :=
  match decodeEvent raw.topics raw.value with
  | .ok event => .ok ⟨raw.cursor, event⟩
  | .error source => .error (.decode raw.cursor source)

def fetch (request : EventPageRequest Cursor) :
    EStateM (Halt Cursor DecodeError) (Session Cursor Value)
      (Except (RpcCallError Unit) (EventPage Cursor Value)) := do
  let session ← get
  set { session with clock := session.clock + 1 }
  return transport.getEvents session.clock request

/-- Wait for the next event, and decode it, for a number of turns at most. -/
def next : (turns : Nat) →
    EStateM (Halt Cursor DecodeError) (Session Cursor Value) (StreamEvent Cursor Event)
  | 0 => throw .polling
  | turns + 1 => do
    let stream := (← get).stream
    match stream.buffered with
    | raw :: rest =>
      -- An event that cannot be decoded moves the cursor as well.
      modify fun session => { session with stream := stream.popFront raw rest }
      match raw.item decodeEvent with
      | .ok event => return event
      | .error error => throw (.error error)
    | [] =>
      match ← stream.retry.run (fetch transport stream.request) defaultClassify with
      | .error error => throw (.error (.rpc error))
      | .ok page =>
        modify fun session => { session with stream := stream.accept page }
        next turns

/-- What a consumer sees. -/
inductive Label (Cursor Event DecodeError : Type) where
  | yielded (item : Except (EventStreamError Cursor DecodeError) (StreamEvent Cursor Event))
  | failed (error : RpcCallError Unit)
  | abandoned
  | restarted

/-- Where a consumer starts again: after what it has seen, or from the start if that is nothing. -/
def resume (start : EventStart Cursor) (stream : RegistryEventStream Cursor Value) :
    EventStart Cursor :=
  match stream.currentCursor with
  | some saved => .cursor saved
  | none => start

def Session.opened (contractId : String) (start : EventStart Cursor) (retry : RetryPolicy)
    (pageLimit clock : Nat) : Session Cursor Value where
  stream := ((RegistryEventStream.new contractId start).withRetryPolicy retry).withPageLimit
    pageLimit
  clock

/-- One step of a consumer: a call to `next`, or a restart. -/
inductive Step (contractId : String) (start : EventStart Cursor) (s : Session Cursor Value) :
    Label Cursor Event DecodeError → Session Cursor Value → Prop where
  | received {turns : Nat} {event : StreamEvent Cursor Event} {after : Session Cursor Value}
      (ran : (next transport decodeEvent turns).run s = .ok event after) :
      Step contractId start s (.yielded (.ok event)) after
  | undecodable {turns : Nat} {cursor : Cursor} {source : DecodeError}
      {after : Session Cursor Value}
      (ran : (next transport decodeEvent turns).run s =
        .error (.error (.decode cursor source)) after) :
      Step contractId start s (.yielded (.error (.decode cursor source))) after
  | failed {turns : Nat} {error : RpcCallError Unit} {after : Session Cursor Value}
      (ran : (next transport decodeEvent turns).run s = .error (.error (.rpc error)) after) :
      Step contractId start s (.failed error) after
  | abandoned {turns : Nat} {after : Session Cursor Value}
      (ran : (next transport decodeEvent turns).run s = .error .polling after) :
      Step contractId start s .abandoned after
  | restarted (retry : RetryPolicy) (pageLimit : Nat) :
      Step contractId start s .restarted
        (.opened contractId (resume start s.stream) retry pageLimit s.clock)

end Next

end KeeperNetwork.Sdk
