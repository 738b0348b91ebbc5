import KeeperNetwork.Soroban.Ledger

/-! Registry events as the indexer reads them, and the one parser that decodes them. -/

namespace KeeperNetwork.Indexer

/-- A scalar in an event payload, in the shapes the registry emits. -/
inductive RawValue where
  | void
  | u32 (value : Nat)
  | u64 (value : Nat)
  | i128 (value : Int)
  | bool (value : Bool)
  /-- An address in its text form. -/
  | address (text : String)
  /-- Hex-encoded bytes. -/
  | bytes (hex : String)
  | symbol (text : String)
  deriving DecidableEq, Repr

/-- One event as the event source returns it, before typed parsing. -/
structure RawEvent where
  ledger : Nat
  ledgerCloseTime : Int
  txHash : String
  eventIndex : Nat
  /-- The pair of verb and noun, as symbols. -/
  topics : List String
  /-- Payload fields, in the order the contract published them. -/
  values : List RawValue
  deriving DecidableEq, Repr

/-- The pair by which the store tells one emission from another. -/
def RawEvent.key (event : RawEvent) : String × Nat := (event.txHash, event.eventIndex)

/-- The kinds of events the indexer knows. -/
inductive EventType where
  | taskRegistered
  | conditionNotMet
  | taskClaimed
  | taskExecuted
  | taskExpired
  | taskCancelled
  | rewardIncreased
  | deadlineExtended
  | rewardsWithdrawn
  | paused
  | feeUpdated
  | adminTransferred
  | minRewardUpdated
  | feesSwept
  | initialized
  | upgraded
  | reputationUpdated
  | oraclePriceConditionSet
  deriving DecidableEq, Repr

namespace EventType

/-- The contract's pair of verb and noun for an event. -/
def topics : EventType → String × String
  | taskRegistered => ("reg", "task")
  | conditionNotMet => ("condfail", "task")
  | taskClaimed => ("claim", "task")
  | taskExecuted => ("exec", "task")
  | taskExpired => ("exp", "task")
  | taskCancelled => ("cancel", "task")
  | rewardIncreased => ("topup", "task")
  | deadlineExtended => ("extend", "task")
  | rewardsWithdrawn => ("wdraw", "reward")
  | paused => ("paused", "admin")
  | feeUpdated => ("fee", "admin")
  | adminTransferred => ("admin", "xfer")
  | minRewardUpdated => ("minrwd", "admin")
  | feesSwept => ("sweep", "admin")
  | initialized => ("init", "admin")
  | upgraded => ("upgrade", "admin")
  | reputationUpdated => ("update", "reputation")
  | oraclePriceConditionSet => ("oracond", "task")

/-- Every kind of event, in the order in which topics are looked up. -/
def all : List EventType :=
  [taskRegistered, conditionNotMet, taskClaimed, taskExecuted, taskExpired, taskCancelled,
    rewardIncreased, deadlineExtended, rewardsWithdrawn, paused, feeUpdated, adminTransferred,
    minRewardUpdated, feesSwept, initialized, upgraded, reputationUpdated,
    oraclePriceConditionSet]

/-- The stable name used on the wire and in the database. -/
def asStr : EventType → String
  | taskRegistered => "task_registered"
  | conditionNotMet => "condition_not_met"
  | taskClaimed => "task_claimed"
  | taskExecuted => "task_executed"
  | taskExpired => "task_expired"
  | taskCancelled => "task_cancelled"
  | rewardIncreased => "reward_increased"
  | deadlineExtended => "deadline_extended"
  | rewardsWithdrawn => "rewards_withdrawn"
  | paused => "paused"
  | feeUpdated => "fee_updated"
  | adminTransferred => "admin_transferred"
  | minRewardUpdated => "min_reward_updated"
  | feesSwept => "fees_swept"
  | initialized => "initialized"
  | upgraded => "upgraded"
  | reputationUpdated => "reputation_updated"
  | oraclePriceConditionSet => "oracle_price_condition_set"

def parse (name : String) : Option EventType := all.find? fun kind => kind.asStr = name

/-- The kind of event that a pair of topics announces, if the indexer knows it. -/
def fromTopics (verb noun : String) : Option EventType :=
  all.find? fun kind => kind.topics = (verb, noun)

end EventType

/-- The decoded payload of one event. -/
inductive EventPayload where
  | taskRegistered (taskId : Nat) (owner : String) (reward : Int) (deadline : Nat)
      (condition : Option String)
  | conditionNotMet (taskId : Nat) (condition : String)
  | taskClaimed (taskId : Nat) (keeper : String) (claimLedger : Nat)
  | taskExecuted (taskId : Nat) (keeper : String) (netReward : Int) (proof : String)
  | taskExpired (taskId : Nat)
  | taskCancelled (taskId : Nat) (owner : String)
  | rewardIncreased (taskId : Nat) (newReward : Int)
  | deadlineExtended (taskId : Nat) (newDeadline : Nat)
  | rewardsWithdrawn (keeper : String) (amount : Int)
  | paused (paused : Bool)
  | feeUpdated (oldBps newBps : Nat)
  | adminTransferred (oldAdmin newAdmin : String)
  | minRewardUpdated (oldMin newMin : Int)
  | feesSwept (treasury : String) (amount remaining : Int)
  | initialized (admin rewardToken : String) (feeBps : Nat)
  | upgraded (admin : String) (newWasmHash : String)
  | reputationUpdated (keeper action : String) (score : Int)
  | oraclePriceConditionSet (taskId : Nat) (oracle asset : String) (threshold : Int)
  deriving DecidableEq, Repr

namespace EventPayload

def eventType : EventPayload → EventType
  | taskRegistered .. => .taskRegistered
  | conditionNotMet .. => .conditionNotMet
  | taskClaimed .. => .taskClaimed
  | taskExecuted .. => .taskExecuted
  | taskExpired .. => .taskExpired
  | taskCancelled .. => .taskCancelled
  | rewardIncreased .. => .rewardIncreased
  | deadlineExtended .. => .deadlineExtended
  | rewardsWithdrawn .. => .rewardsWithdrawn
  | paused .. => .paused
  | feeUpdated .. => .feeUpdated
  | adminTransferred .. => .adminTransferred
  | minRewardUpdated .. => .minRewardUpdated
  | feesSwept .. => .feesSwept
  | initialized .. => .initialized
  | upgraded .. => .upgraded
  | reputationUpdated .. => .reputationUpdated
  | oraclePriceConditionSet .. => .oraclePriceConditionSet

def taskId : EventPayload → Option Nat
  | taskRegistered taskId .. | conditionNotMet taskId _ | taskClaimed taskId ..
  | taskExecuted taskId .. | taskExpired taskId | taskCancelled taskId _
  | rewardIncreased taskId _ | deadlineExtended taskId _ | oraclePriceConditionSet taskId .. =>
    some taskId
  | _ => none

def owner : EventPayload → Option String
  | taskRegistered _ owner .. | taskCancelled _ owner => some owner
  | _ => none

def keeper : EventPayload → Option String
  | taskClaimed _ keeper _ | taskExecuted _ keeper .. | rewardsWithdrawn keeper _ => some keeper
  | _ => none

end EventPayload

/-- Why a payload of a known event could not be decoded. -/
inductive ParseError where
  /-- The payload has too few fields. -/
  | missingField (event : EventType) (fields expected : Nat)
  /-- A field has another shape than the contract publishes. -/
  | wrongType (event : EventType) (index : Nat) (expected : String) (got : RawValue)
  deriving DecidableEq, Repr

section Fields

variable {α : Type} (values : List RawValue) (index : Nat) (event : EventType)

def fieldAt : Except ParseError RawValue :=
  match values[index]? with
  | some value => .ok value
  | none => .error (.missingField event values.length (index + 1))

def readAt (expected : String) (read : RawValue → Option α) : Except ParseError α := do
  let value ← fieldAt values index event
  match read value with
  | some found => .ok found
  | none => .error (.wrongType event index expected value)

/-- A 64-bit field. -/
def u64At : Except ParseError Nat :=
  readAt values index event "u64" fun | .u64 value => some value | _ => none

/-- A 32-bit field. -/
def u32At : Except ParseError Nat :=
  readAt values index event "u32" fun | .u32 value => some value | _ => none

/-- A signed 128-bit field. -/
def i128At : Except ParseError Int :=
  readAt values index event "i128" fun | .i128 value => some value | _ => none

/-- A flag. -/
def boolAt : Except ParseError Bool :=
  readAt values index event "bool" fun | .bool value => some value | _ => none

def addressAt : Except ParseError String :=
  readAt values index event "address" fun | .address text => some text | _ => none

def bytesAt : Except ParseError String :=
  readAt values index event "bytes" fun | .bytes hex => some hex | _ => none

def symbolAt : Except ParseError String :=
  readAt values index event "symbol" fun | .symbol text => some text | _ => none

/-- An address that may be absent, also in payloads that end before it. -/
def optionalAddressAt : Except ParseError (Option String) :=
  match values[index]? with
  | none | some .void => .ok none
  | some (.address text) => .ok (some text)
  | some other => .error (.wrongType event index "address or void" other)

end Fields

/--
Decode one raw event.

An event the contract does not emit is skipped, but a known event with a malformed payload is an
error.
-/
def parseEvent (raw : RawEvent) : Except ParseError (Option EventPayload) :=
  match raw.topics with
  | verb :: noun :: _ =>
    match EventType.fromTopics verb noun with
    | none => .ok none
    | some event => do
      let v := raw.values
      match event with
      | .taskRegistered =>
        return some (.taskRegistered (← u64At v 0 event) (← addressAt v 1 event)
          (← i128At v 2 event) (← u64At v 3 event) (← optionalAddressAt v 4 event))
      | .conditionNotMet =>
        return some (.conditionNotMet (← u64At v 0 event) (← addressAt v 1 event))
      | .taskClaimed =>
        return some (.taskClaimed (← u64At v 0 event) (← addressAt v 1 event)
          (← u32At v 2 event))
      | .taskExecuted =>
        return some (.taskExecuted (← u64At v 0 event) (← addressAt v 1 event)
          (← i128At v 2 event) (← bytesAt v 3 event))
      | .taskExpired => return some (.taskExpired (← u64At v 0 event))
      | .taskCancelled =>
        return some (.taskCancelled (← u64At v 0 event) (← addressAt v 1 event))
      | .rewardIncreased =>
        return some (.rewardIncreased (← u64At v 0 event) (← i128At v 1 event))
      | .deadlineExtended =>
        return some (.deadlineExtended (← u64At v 0 event) (← u64At v 1 event))
      | .rewardsWithdrawn =>
        return some (.rewardsWithdrawn (← addressAt v 0 event) (← i128At v 1 event))
      | .paused => return some (.paused (← boolAt v 0 event))
      | .feeUpdated => return some (.feeUpdated (← u32At v 0 event) (← u32At v 1 event))
      | .adminTransferred =>
        return some (.adminTransferred (← addressAt v 0 event) (← addressAt v 1 event))
      | .minRewardUpdated =>
        return some (.minRewardUpdated (← i128At v 0 event) (← i128At v 1 event))
      | .feesSwept =>
        return some (.feesSwept (← addressAt v 0 event) (← i128At v 1 event)
          (← i128At v 2 event))
      | .initialized =>
        return some (.initialized (← addressAt v 0 event) (← addressAt v 1 event)
          (← u32At v 2 event))
      | .upgraded => return some (.upgraded (← addressAt v 0 event) (← bytesAt v 1 event))
      | .oraclePriceConditionSet =>
        return some (.oraclePriceConditionSet (← u64At v 0 event) (← addressAt v 1 event)
          (← symbolAt v 2 event) (← i128At v 3 event))
      -- The contract does not emit this event yet, so it is treated like an unknown one.
      | .reputationUpdated => return none
  | _ => .ok none

/-- A recognised event with its payload, as the store keeps it. -/
structure Emission where
  ledger : Nat
  ledgerCloseTime : Int
  txHash : String
  eventIndex : Nat
  payload : EventPayload
  deriving DecidableEq, Repr

/-- The pair by which the store tells one emission from another. -/
def Emission.key (emission : Emission) : String × Nat := (emission.txHash, emission.eventIndex)

def RawEvent.emission (raw : RawEvent) (payload : EventPayload) : Emission :=
  ⟨raw.ledger, raw.ledgerCloseTime, raw.txHash, raw.eventIndex, payload⟩

def RawEvent.recognised (raw : RawEvent) : Option Emission :=
  match parseEvent raw with
  | .ok (some payload) => some (raw.emission payload)
  | _ => none

def recognised (events : List RawEvent) : List Emission := events.filterMap RawEvent.recognised

/-- One ingested event, with the cursor the store gave it. -/
structure IndexedEvent extends Emission where
  cursor : Nat
  deriving DecidableEq, Repr

end KeeperNetwork.Indexer
