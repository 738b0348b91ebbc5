import KeeperNetwork.Indexer.Store
import KeeperNetwork.Lib.Pages

/-! Pages of the event feed: the rows that a reader asks for, oldest first, from a cursor on. -/

namespace KeeperNetwork.Indexer

/-- The text forms of addresses, as their library reads and writes them. -/
structure Strkey (Key : Type) where
  account : String → Option Key
  contract : String → Option Key
  muxed : String → Option Key
  ofAccount : Key → String
  ofContract : Key → String
  account_ofAccount : ∀ key, account (ofAccount key) = some key
  account_ofContract : ∀ key, account (ofContract key) = none
  contract_ofContract : ∀ key, contract (ofContract key) = some key

namespace Strkey

variable {Key : Type} (strkey : Strkey Key)

/-- The one form of an address that is stored and compared. -/
def normalizeAddress (input : String) : Option String :=
  match strkey.account input with
  | some key => some (strkey.ofAccount key)
  | none =>
    match strkey.contract input with
    | some key => some (strkey.ofContract key)
    -- A muxed address stands for its account.
    | none => (strkey.muxed input).map strkey.ofAccount

def normalizedOrAsGiven (address : String) : String :=
  (strkey.normalizeAddress address).getD address

theorem normalizeAddress_of_eq {input form : String}
    (normalized : strkey.normalizeAddress input = some form) :
    strkey.normalizeAddress form = some form := by
  -- The form is that of an account or that of a contract.
  have shape : (∃ key, form = strkey.ofAccount key) ∨ ∃ key, form = strkey.ofContract key := by
    unfold normalizeAddress at normalized
    split at normalized
    · exact .inl ⟨_, (Option.some.inj normalized).symm⟩
    · split at normalized
      · exact .inr ⟨_, (Option.some.inj normalized).symm⟩
      · obtain ⟨key, -, same⟩ := Option.map_eq_some_iff.mp normalized
        exact .inl ⟨key, same.symm⟩
  rcases shape with ⟨key, rfl⟩ | ⟨key, rfl⟩
  · simp [normalizeAddress, strkey.account_ofAccount]
  · simp [normalizeAddress, strkey.account_ofContract, strkey.contract_ofContract]

@[simp] theorem normalizedOrAsGiven_idem (address : String) :
    strkey.normalizedOrAsGiven (strkey.normalizedOrAsGiven address) =
      strkey.normalizedOrAsGiven address := by
  -- A normal form is its own normal form.
  unfold normalizedOrAsGiven
  cases normalized : strkey.normalizeAddress address with
  | none => simp [normalized]
  | some form => simp [strkey.normalizeAddress_of_eq normalized]

end Strkey

/-- Text forms that put a letter in front of the key. -/
def letterStrkey : Strkey (List Char) where
  account input := match input.toList with | 'G' :: key => some key | _ => none
  contract input := match input.toList with | 'C' :: key => some key | _ => none
  muxed input := match input.toList with | 'M' :: key => some key | _ => none
  ofAccount key := String.ofList ('G' :: key)
  ofContract key := String.ofList ('C' :: key)
  account_ofAccount key := by simp
  account_ofContract key := by simp
  contract_ofContract key := by simp

/-- The cursor of a row, as clients and queries pass it around. -/
def IndexedEvent.mark (event : IndexedEvent) : Int := event.cursor

namespace Db

/-- A page of the feed. -/
structure EventPage where
  events : List IndexedEvent
  /-- Where the next page starts, unless this is the last one. -/
  nextCursor : Option Int
  deriving DecidableEq, Repr

/-- The row is of the asked kind and names the asked address as owner or keeper. -/
def selects (eventType : Option EventType) (address : Option String) (event : IndexedEvent) :
    Bool :=
  (eventType.isNone || some event.payload.eventType = eventType) &&
    (address.isNone || event.payload.owner = address || event.payload.keeper = address)

/-- Read a page of events after a cursor, oldest first. -/
def eventsAfter {Key : Type} (db : Db) (strkey : Strkey Key) (after : Option Int) (limit : Nat)
    (eventType : Option EventType) (address : Option String) : EventPage :=
  -- The table lists its rows in the order of their cursors, and one extra row is fetched.
  let rows := (Log.beyond IndexedEvent.mark (after.getD 0) (db.events.filter
    (selects eventType (address.map strkey.normalizedOrAsGiven)))).take (limit + 1)
  let events := rows.take limit
  ⟨events, if limit < rows.length then events.getLast?.map IndexedEvent.mark else none⟩

variable {db : Db} {eventType : Option EventType} {address : Option String}

/-- The table lists its rows in the order of their marks. -/
theorem marks_ascending (db : Db) : Log.Ascending IndexedEvent.mark db.events := by
  refine db.numbered.ascending.imp ?_
  intro earlier later below
  exact Int.ofNat_lt.mpr below

/-- No row has a mark beyond the largest cursor handed out. -/
theorem mark_le {event : IndexedEvent} (stored : event ∈ db.events) : event.mark ≤ db.sequence :=
  Int.ofNat_le.mpr (db.numbered.handedOut event stored)

/-- No row has a mark below one. -/
theorem mark_pos {event : IndexedEvent} (stored : event ∈ db.events) : 0 < event.mark :=
  Int.natCast_pos.mpr (db.numbered.positive event stored)

section Page

variable {Key : Type} (strkey : Strkey Key) (mark : Int) (limit : Nat)

/-- A page holds the first of the asked rows. -/
theorem eventsAfter_events :
    (db.eventsAfter strkey (some mark) limit eventType address).events =
      (Log.beyond IndexedEvent.mark mark (db.events.filter
        (selects eventType (address.map strkey.normalizedOrAsGiven)))).take limit := by
  unfold eventsAfter
  simp [List.take_take]

/-- A page without a next one holds all the asked rows. -/
theorem eventsAfter_last (positive : 0 < limit)
    (last : (db.eventsAfter strkey (some mark) limit eventType address).nextCursor = none) :
    (Log.beyond IndexedEvent.mark mark (db.events.filter
      (selects eventType (address.map strkey.normalizedOrAsGiven)))).length ≤ limit := by
  unfold eventsAfter at last
  simp only [Option.getD_some] at last
  generalize Log.beyond IndexedEvent.mark mark (db.events.filter
    (selects eventType (address.map strkey.normalizedOrAsGiven))) = rows at last ⊢
  by_contra more
  -- The extra row was fetched, so the page has a last event to go on from.
  have fetched : limit < (rows.take (limit + 1)).length := by
    rw [List.length_take]
    omega
  rw [if_pos fetched, Option.map_eq_none_iff, List.getLast?_eq_none_iff] at last
  have nonempty : ((rows.take (limit + 1)).take limit).length = limit := by
    simp only [List.length_take]
    omega
  rw [last, List.length_nil] at nonempty
  omega

end Page

end Db

end KeeperNetwork.Indexer
