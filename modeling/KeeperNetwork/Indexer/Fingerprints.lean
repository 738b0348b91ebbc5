import KeeperNetwork.Indexer.Reorg

/-! What a fingerprint tells about the events of its ledger. -/

namespace KeeperNetwork.Indexer

open Soroban

/-- The fields of an event as byte strings, in the order in which the digest takes them in. -/
def fields (json : Serializer) (event : RawEvent) : List Bytes :=
  textBytes event.txHash :: bigEndian 4 event.eventIndex ::
    bigEndian 8 (event.ledgerCloseTime % 2 ^ 64).toNat ::
    (event.topics.map textBytes ++ [(json event.values).getD []])

/-- The bytes that the digest of a ledger is folded from. -/
def ledgerBytes (json : Serializer) (ledger : Nat) (events : List RawEvent) : Bytes :=
  ((inLedger ledger events).flatMap (fields json)).flatten

/-- Numbers in the range of their types, and values that the serializer does not mix up. -/
structure Encodable (json : Serializer) (events : List RawEvent) : Prop where
  index : ∀ event ∈ events, event.eventIndex < 2 ^ 32
  time : ∀ event ∈ events, -2 ^ 63 ≤ event.ledgerCloseTime ∧ event.ledgerCloseTime < 2 ^ 63
  values : ∀ event ∈ events, ∀ other ∈ events,
    (json event.values).getD [] = (json other.values).getD [] → event.values = other.values

/--
Two ways of cutting one string of bytes into the fields of equally many events.

The events are those of the ledger, in canonical order.
-/
structure Recut (json : Serializer) (ledger : Nat) (left right : List RawEvent) : Prop where
  count : (inLedger ledger left).length % 2 ^ 32 = (inLedger ledger right).length % 2 ^ 32
  joined : ((inLedger ledger left).flatMap (fields json)).flatten =
    ((inLedger ledger right).flatMap (fields json)).flatten
  /-- Some field ends elsewhere, or some event has more fields. -/
  widths : ((inLedger ledger left).map fun event => (fields json event).map List.length) ≠
    (inLedger ledger right).map fun event => (fields json event).map List.length

section Decoding

variable {json : Serializer} {left right : List RawEvent}

theorem foldBytes_append (digest : Nat) (bytes more : Bytes) :
    foldBytes digest (bytes ++ more) = foldBytes (foldBytes digest bytes) more := by
  simp [foldBytes]

/-- Folding strings one after the other is folding what they make up. -/
theorem foldBytes_flatten (digest : Nat) (parts : List Bytes) :
    foldBytes digest parts.flatten = parts.foldl foldBytes digest := by
  induction parts generalizing digest with
  | nil => rfl
  | cons part parts ih => rw [List.flatten_cons, foldBytes_append, ih, List.foldl_cons]

/-- An event is folded field by field. -/
theorem foldEvent_eq : foldEvent json = fun digest event =>
    (fields json event).foldl foldBytes digest := by
  funext digest event
  simp only [fields, List.foldl_cons, List.foldl_append, List.foldl_map, foldEvent]
  cases json event.values <;> rfl

theorem textBytes_injective : textBytes.Injective := by
  intro text other same
  have encoded : text.toList.utf8Encode = other.toList.utf8Encode :=
    congrArg List.toByteArray same
  rwa [String.utf8Encode_toList, String.utf8Encode_toList, String.toByteArray_inj] at encoded

/-- Events of one ledger that have the same fields are the same. -/
theorem Encodable.eq_of_fields {events : List RawEvent} (encodable : Encodable json events)
    {event other : RawEvent} (listed : event ∈ events) (listed' : other ∈ events)
    (together : event.ledger = other.ledger) (same : fields json event = fields json other) :
    event = other := by
  simp only [fields, List.cons.injEq] at same
  obtain ⟨hash, index, time, rest⟩ := same
  -- The values come last, so that the topics are all that is before them.
  obtain ⟨topics, values⟩ := List.append_inj' rest rfl
  have topics := List.map_injective_iff.mpr textBytes_injective topics
  have values := encodable.values event listed other listed' (List.singleton_inj.mp values)
  have times := encodable.time event listed
  have times' := encodable.time other listed'
  have small := encodable.index event listed
  have small' := encodable.index other listed'
  have index := mod_of_bigEndian index
  have time := mod_of_bigEndian time
  cases event
  cases other
  simp only [RawEvent.mk.injEq]
  simp only at *
  exact ⟨together, by omega, textBytes_injective hash, by omega, topics, values⟩

/-- Bytes that are cut at the same places are the same fields of the same events. -/
theorem fields_eq_of_widths
    (joined : (left.flatMap (fields json)).flatten = (right.flatMap (fields json)).flatten)
    (widths : (left.map fun event => (fields json event).map List.length) =
      right.map fun event => (fields json event).map List.length) :
    left.map (fields json) = right.map (fields json) := by
  -- First the bytes are cut into fields, and then the fields are grouped into events.
  have flat := congrArg List.flatten widths
  have counts := congrArg (List.map List.length) widths
  simp only [← List.map_map, ← Function.comp_def (List.map List.length), ← List.map_flatten] at flat
  refine List.eq_iff_flatten_eq.mpr ⟨?_, ?_⟩
  · exact List.eq_iff_flatten_eq.mpr ⟨joined, flat⟩
  · simpa [Function.comp_def] using counts

/-- Two lists are equal when their images are, under a function that keeps their items apart. -/
theorem eq_of_map_eq {α β : Type} {change : α → β} {left right : List α}
    (apart : ∀ item ∈ left, ∀ other ∈ right, change item = change other → item = other)
    (same : left.map change = right.map change) : left = right := by
  induction left generalizing right with
  | nil => simpa [eq_comm] using same
  | cons item left ih =>
    cases right with
    | nil => simp at same
    | cons other right =>
      obtain ⟨first, later⟩ := List.cons.inj same
      have rest := ih (fun item listed other listed' =>
        apart item (List.mem_cons_of_mem _ listed) other (List.mem_cons_of_mem _ listed')) later
      rw [apart item List.mem_cons_self other List.mem_cons_self first, rest]

end Decoding

section Telling

variable {json : Serializer} {ledger : Nat} {left right : List RawEvent}

theorem inLedger_reported (events : List RawEvent) :
    (inLedger ledger events).Perm (events.filter fun event => event.ledger = ledger) :=
  List.perm_insertionSort _ _

/-- Events that fold the same bytes, cut at the same places, are the same in some order. -/
theorem perm_of_widths
    (encodable : Encodable json ((left.filter fun event => event.ledger = ledger) ++
      right.filter fun event => event.ledger = ledger))
    (joined : ledgerBytes json ledger left = ledgerBytes json ledger right)
    (widths : ((inLedger ledger left).map fun event => (fields json event).map List.length) =
      (inLedger ledger right).map fun event => (fields json event).map List.length) :
    (left.filter fun event => event.ledger = ledger).Perm
      (right.filter fun event => event.ledger = ledger) := by
  have equal : inLedger ledger left = inLedger ledger right := by
    refine eq_of_map_eq (fun event member other member' same => ?_)
      (fields_eq_of_widths joined widths)
    have listed := (inLedger_reported left).mem_iff.mp member
    have listed' := (inLedger_reported right).mem_iff.mp member'
    have here := of_decide_eq_true (List.mem_filter.mp listed).2
    have here' := of_decide_eq_true (List.mem_filter.mp listed').2
    exact encodable.eq_of_fields (List.mem_append_left _ listed) (List.mem_append_right _ listed')
      (here.trans here'.symm) same
  exact (inLedger_reported left).symm.trans (equal ▸ inLedger_reported right)

end Telling

def topical (topics : List String) : RawEvent where
  ledger := 5
  ledgerCloseTime := 0
  txHash := "aa"
  eventIndex := 0
  topics
  values := []

end KeeperNetwork.Indexer
