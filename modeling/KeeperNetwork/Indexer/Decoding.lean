import KeeperNetwork.Indexer.HttpClient
import KeeperNetwork.Indexer.Wire

/-! How the client decodes topics and payloads, and which events it can decode. -/

namespace KeeperNetwork.Indexer

open Soroban

/-- An address in a contract value. -/
inductive ScAddress where
  | account (key : Bytes)
  | contract (hash : Bytes)
  deriving DecidableEq, Repr

/-- A contract value, with what is inside the kinds that the client reads. -/
inductive ScVal where
  | bool (value : Bool)
  | void
  | error
  | u32 (value : Nat)
  | i32 (value : Int)
  | u64 (value : Nat)
  | i64 (value : Int)
  | timepoint (value : Nat)
  | duration (value : Nat)
  | u128 (value : Nat)
  /-- The signed upper and the unsigned lower half. -/
  | i128 (hi : Int) (lo : Nat)
  | u256 (value : Nat)
  | i256 (value : Int)
  | bytes (bytes : Bytes)
  | string (text : String)
  | symbol (text : String)
  | vec (items : Option (List ScVal))
  | map
  | address (address : ScAddress)
  | ledgerKeyContractInstance
  | ledgerKeyNonce
  | contractInstance

/-- What the client takes from other libraries. -/
structure Libraries where
  /-- Read a value from its serialized form in base 64. -/
  fromXdrBase64 : String → Option ScVal
  /-- The text form of an address, normalized. -/
  strkey : ScAddress → String
  hexEncode : Bytes → String
  /-- The seconds of a date and time. -/
  parseTime : String → Option Int

variable (lib : Libraries)

def decodeSymbol (b64 : String) : Option String := do
  match ← lib.fromXdrBase64 b64 with
  | .symbol text => some text
  | _ => none

/-- Decode a field of a payload, which has to be of one of the kinds the registry publishes. -/
def decodeScval : ScVal → Option RawValue
  | .void => some .void
  | .u32 value => some (.u32 value)
  | .u64 value => some (.u64 value)
  -- The halves do not overlap, so combining their bits is adding them.
  | .i128 hi lo => some (.i128 (hi * 2 ^ 64 + lo))
  | .bool value => some (.bool value)
  | .address address => some (.address (lib.strkey address))
  | .bytes bytes => some (.bytes (lib.hexEncode bytes))
  | .symbol text => some (.symbol text)
  | _ => none

/-- Decode a payload, which has to be a vector of fields. -/
def decodeValues (b64 : String) : Option (List RawValue) := do
  match ← lib.fromXdrBase64 b64 with
  | .vec (some items) => items.mapM (decodeScval lib)
  | _ => none

def Libraries.decoders : Decoders where
  decodeSymbol := decodeSymbol lib
  decodeValues := decodeValues lib
  parseTime := lib.parseTime

/-- The value is of a kind that the registry publishes in its payloads. -/
def ScVal.plain : ScVal → Bool
  | .void | .u32 _ | .u64 _ | .i128 _ _ | .bool _ | .address _ | .bytes _ | .symbol _ => true
  | _ => false

/-- The event is announced by symbols and carries a vector of plain fields. -/
structure RawRpcEvent.Plain (event : RawRpcEvent) : Prop where
  topics : ∀ topic ∈ event.topic, ∃ text, lib.fromXdrBase64 topic = some (.symbol text)
  fields : ∃ items, lib.fromXdrBase64 event.value = some (.vec (some items)) ∧
    ∀ item ∈ items, item.plain = true

def RawRpcEvent.kind (event : RawRpcEvent) : Option EventType :=
  match event.topic with
  | verb :: noun :: _ =>
    match lib.fromXdrBase64 verb, lib.fromXdrBase64 noun with
    | some (.symbol verb), some (.symbol noun) => EventType.fromTopics verb noun
    | _, _ => none
  | _ => none

/-- The indexer knows no payload for what the topics announce. -/
def RawRpcEvent.unknown (event : RawRpcEvent) : Bool :=
  -- The pair of reputation updates is reserved, but the contract does not emit it.
  event.kind lib = none ∨ event.kind lib = some .reputationUpdated

variable {lib} {event : RawRpcEvent} {decoded : RawEvent}

theorem decodeSymbol_eq_some {b64 text : String} :
    decodeSymbol lib b64 = some text ↔ lib.fromXdrBase64 b64 = some (.symbol text) := by
  unfold decodeSymbol
  cases lib.fromXdrBase64 b64 with
  | none => simp
  | some value => cases value <;> simp

theorem decodeScval_isSome (value : ScVal) : (decodeScval lib value).isSome = value.plain := by
  cases value <;> rfl

theorem exists_mapM {α β : Type} {decode : α → Option β} {items : List α} :
    (∃ results, items.mapM decode = some results) ↔
      ∀ item ∈ items, ∃ result, decode item = some result := by
  refine ⟨fun ⟨results, done⟩ => (mapM_eq_filterMap done).2, fun all => ?_⟩
  -- The head is decoded, and the tail by induction.
  induction items with
  | nil => exact ⟨[], rfl⟩
  | cons item rest ih =>
    obtain ⟨⟨first, here⟩, later⟩ := List.forall_mem_cons.mp all
    obtain ⟨others, done⟩ := ih later
    exact ⟨first :: others, by simp [here, done]⟩

theorem decodeValues_isSome {b64 : String} :
    (∃ values, decodeValues lib b64 = some values) ↔
    ∃ items, lib.fromXdrBase64 b64 = some (.vec (some items)) ∧
      ∀ item ∈ items, item.plain = true := by
  -- The payload must be a vector, and each of its items plain.
  simp only [← @decodeScval_isSome lib, Option.isSome_iff_exists, ← exists_mapM]
  unfold decodeValues
  cases lib.fromXdrBase64 b64 with
  | none => simp
  | some value =>
    cases value with
    | vec items => cases items <;> simp
    | _ => simp

theorem decodeEvent_isSome {seconds : Int}
    (timed : lib.parseTime event.ledgerClosedAt = some seconds) :
    (∃ decoded, decodeEvent lib.decoders event = some decoded) ↔ event.Plain lib := by
  -- Each topic must be a symbol.
  have topics : (∃ texts, event.topic.mapM (decodeSymbol lib) = some texts) ↔
      ∀ topic ∈ event.topic, ∃ text, lib.fromXdrBase64 topic = some (.symbol text) := by
    simp only [exists_mapM, decodeSymbol_eq_some]
  simp only [decodeEvent, Option.bind_eq_bind, Option.bind_eq_some_iff, Option.pure_def,
    Option.some.injEq]
  constructor
  · rintro ⟨_, texts, read, values, payload, _, _, rfl⟩
    exact ⟨topics.mp ⟨texts, read⟩, decodeValues_isSome.mp ⟨values, payload⟩⟩
  · rintro ⟨symbols, fields⟩
    obtain ⟨texts, read⟩ := topics.mpr symbols
    obtain ⟨values, payload⟩ := decodeValues_isSome.mpr fields
    exact ⟨_, texts, read, values, payload, seconds, timed, rfl⟩

theorem except_bind_ok {ε α β : Type} {first : Except ε α} {rest : α → Except ε β}
    {result : β} (done : first >>= rest = .ok result) : ∃ middle, rest middle = .ok result := by
  cases first with
  | error => cases done
  | ok middle => exact ⟨middle, done⟩

theorem kind_of_decoded (done : decodeEvent lib.decoders event = some decoded) :
    event.kind lib = match decoded.topics with
      | verb :: noun :: _ => EventType.fromTopics verb noun
      | _ => none := by
  simp only [decodeEvent, Option.bind_eq_bind, Option.bind_eq_some_iff, Option.pure_def,
    Option.some.injEq] at done
  obtain ⟨texts, read, values, -, seconds, -, rfl⟩ := done
  change event.topic.mapM (decodeSymbol lib) = some texts at read
  unfold RawRpcEvent.kind
  generalize event.topic = topics at read
  -- Only the first two topics matter, and each was decoded from a symbol.
  rcases topics with _ | ⟨verb, _ | ⟨noun, rest⟩⟩
  · cases read
    rfl
  · simp only [List.mapM_cons, List.mapM_nil, Option.bind_eq_bind, Option.bind_eq_some_iff,
      Option.pure_def, Option.some.injEq] at read
    obtain ⟨_, -, _, rfl, rfl⟩ := read
    rfl
  · simp only [List.mapM_cons, Option.bind_eq_bind, Option.bind_eq_some_iff, Option.pure_def,
      Option.some.injEq, decodeSymbol_eq_some] at read
    obtain ⟨_, first, _, ⟨_, second, _, -, rfl⟩, rfl⟩ := read
    simp only [first, second]

theorem parseEvent_eq_none (done : decodeEvent lib.decoders event = some decoded) :
    parseEvent decoded = .ok none ↔ event.unknown lib = true := by
  simp only [RawRpcEvent.unknown, kind_of_decoded done, decide_eq_true_eq]
  unfold parseEvent
  generalize decoded.topics = topics
  match topics with
  -- Without a pair of topics the event is unknown, and the parser skips it.
  | [] => exact iff_of_true rfl (.inl rfl)
  | [only] => exact iff_of_true rfl (.inl rfl)
  | verb :: noun :: rest =>
    show _ ↔ EventType.fromTopics verb noun = none ∨ _
    dsimp only
    cases EventType.fromTopics verb noun with
    | none => exact iff_of_true rfl (.inl rfl)
    | some kind =>
      constructor
      · -- Every kind but one returns a payload when it returns.
        intro skipped
        cases kind
        case reputationUpdated => exact .inr rfl
        all_goals
          repeat obtain ⟨_, skipped⟩ := except_bind_ok skipped
          cases skipped
      · rintro (never | same)
        · cases never
        · cases same
          rfl

end KeeperNetwork.Indexer
