import KeeperNetwork.Indexer.TaskPages

/-! The activity feed of one address: which stored events it lists, on pages by offset. -/

namespace KeeperNetwork.Indexer

/-- The part in which an address takes part in an event. -/
inductive ActivityRole where
  | owner
  | keeper
  deriving DecidableEq, Repr

/-- One entry of the feed, with its amount as a number where the response prints it in decimal. -/
structure ActivityItem where
  cursor : Int
  ledger : Nat
  ledgerCloseTime : Int
  role : ActivityRole
  /-- The kind of event, which the response names as the store does. -/
  eventType : EventType
  taskId : Option Nat
  amount : Option Int
  deriving DecidableEq, Repr

/-- One page of the feed. -/
structure AddressActivityFeed where
  address : String
  items : List ActivityItem
  /-- The number of entries on all pages. -/
  totalCount : Nat
  deriving DecidableEq, Repr

def IndexedEvent.activityItem (event : IndexedEvent) (role : ActivityRole) (eventType : EventType)
    (taskId : Option Nat) (amount : Option Int) : ActivityItem where
  cursor := event.mark
  ledger := event.ledger
  ledgerCloseTime := event.ledgerCloseTime
  role
  eventType
  taskId
  amount

/-- The entry that an event makes in the feed of an address, which is compared as given. -/
def IndexedEvent.activityFor (address : String) (event : IndexedEvent) : Option ActivityItem :=
  match event.payload with
  | .taskRegistered taskId owner reward _ _ =>
    if owner = address then
      some (event.activityItem .owner .taskRegistered (some taskId) (some reward))
    else none
  | .taskClaimed taskId keeper _ =>
    if keeper = address then
      some (event.activityItem .keeper .taskClaimed (some taskId) none)
    else none
  | .taskExecuted taskId keeper netReward _ =>
    if keeper = address then
      some (event.activityItem .keeper .taskExecuted (some taskId) (some netReward))
    else none
  | .taskCancelled taskId owner =>
    if owner = address then
      some (event.activityItem .owner .taskCancelled (some taskId) none)
    else none
  | .rewardsWithdrawn keeper amount =>
    if keeper = address then
      some (event.activityItem .keeper .rewardsWithdrawn none (some amount))
    else none
  | _ => none

/-- The number of events that are fetched for a feed. -/
def activityPage : Nat := 10000

section Feed

variable {Key : Type} (db : Db) (strkey : Strkey Key)

/-- A page of the activity of an address across all roles, oldest first. -/
def getAddressActivity (address : String) (limit offset : Nat) : AddressActivityFeed :=
  let page := db.eventsAfter strkey none activityPage none (some address)
  let feedItems := page.events.filterMap (IndexedEvent.activityFor address)
  ⟨address, (feedItems.drop offset).take limit, feedItems.length⟩

/-- The entries of successive pages, each of which starts where the one before it ends. -/
def walkActivity (address : String) (offset : Nat) : List Nat → List ActivityItem
  | [] => []
  | limit :: rest =>
    (getAddressActivity db strkey address limit offset).items ++
      walkActivity address (offset + limit) rest

end Feed

namespace EventPayload

/-- The amount that the activity of an address is about, if any. -/
def amount : EventPayload → Option Int
  | .taskRegistered _ _ reward _ _ => some reward
  | .taskExecuted _ _ netReward _ => some netReward
  | .rewardsWithdrawn _ amount => some amount
  | _ => none

def roleOf (address : String) : EventPayload → Option ActivityRole
  | .taskRegistered _ owner .. | .taskCancelled _ owner =>
    if owner = address then some .owner else none
  | .taskClaimed _ keeper _ | .taskExecuted _ keeper .. | .rewardsWithdrawn keeper _ =>
    if keeper = address then some .keeper else none
  | _ => none

end EventPayload

/-- The stored events that are activity of an address, in the order of their cursors. -/
def Db.activity (db : Db) (address : String) : List IndexedEvent :=
  db.events.filter fun event => (event.payload.roleOf address).isSome

/-- The entry tells of the event, in the role of the address. -/
structure Tells (address : String) (item : ActivityItem) (event : IndexedEvent) : Prop where
  cursor : item.cursor = event.mark
  ledger : item.ledger = event.ledger
  ledgerCloseTime : item.ledgerCloseTime = event.ledgerCloseTime
  role : some item.role = event.payload.roleOf address
  eventType : item.eventType = event.payload.eventType
  taskId : item.taskId = event.payload.taskId
  amount : item.amount = event.payload.amount

/-- The feed of an address is complete. -/
structure CompleteFeed {Key : Type} (db : Db) (strkey : Strkey Key) (address : String) : Prop where
  /-- Successive pages of any sizes tell of the activity, each event once and in order. -/
  pages : ∀ limits : List Nat, List.Forall₂ (Tells address)
    (walkActivity db strkey address 0 limits) ((db.activity address).take limits.sum)
  /-- Every page reports how much activity there is. -/
  total : ∀ limit offset,
    (getAddressActivity db strkey address limit offset).totalCount = (db.activity address).length
  /-- Another form of the same address has the same feed. -/
  muxed : ∀ form, strkey.normalizeAddress form = some address → ∀ limit offset,
    (getAddressActivity db strkey form limit offset).items =
        (getAddressActivity db strkey address limit offset).items ∧
      (getAddressActivity db strkey form limit offset).totalCount =
        (getAddressActivity db strkey address limit offset).totalCount

variable {Key : Type} {db : Db} {strkey : Strkey Key} {address form : String} {limit offset : Nat}
  {event : IndexedEvent}

theorem selects_activity : Db.selects none (some address) event =
    (event.payload.roleOf address).isSome := by
  unfold Db.selects EventPayload.roleOf
  -- No payload names both an owner and a keeper.
  cases event.payload with
  | taskRegistered _ name | taskCancelled _ name | taskClaimed _ name | taskExecuted _ name
  | rewardsWithdrawn name =>
    by_cases same : name = address <;> simp [EventPayload.owner, EventPayload.keeper, same]
  | _ => rfl

theorem getAddressActivity_eq :
    getAddressActivity db strkey address limit offset =
      let entries := ((db.activity (strkey.normalizedOrAsGiven address)).take
        activityPage).filterMap (IndexedEvent.activityFor address)
      ⟨address, (entries.drop offset).take limit, entries.length⟩ := by
  -- Every cursor is positive, so only the address is asked for.
  have rows : Log.beyond IndexedEvent.mark 0 (db.events.filter
      (Db.selects none (some (strkey.normalizedOrAsGiven address)))) =
        db.activity (strkey.normalizedOrAsGiven address) := by
    rw [Log.beyond, List.filter_eq_self.mpr]
    · congr 1
      funext event
      exact selects_activity
    · intro event selected
      exact decide_eq_true (Db.mark_pos (List.mem_of_mem_filter selected))
  unfold getAddressActivity Db.eventsAfter
  simp only [Option.getD_none, Option.map_some, rows, List.take_take]
  rw [Nat.min_eq_left (Nat.le_succ activityPage)]

theorem activityFor_tells (active : (event.payload.roleOf address).isSome = true) :
    ∃ item, event.activityFor address = some item ∧ Tells address item event := by
  obtain ⟨⟨ledger, closed, hash, index, payload⟩, cursor⟩ := event
  -- Each kind of activity fills in an entry of its own.
  cases payload with
  | taskRegistered _ name | taskCancelled _ name | taskClaimed _ name | taskExecuted _ name
  | rewardsWithdrawn name =>
    by_cases same : name = address
    · exact ⟨_, if_pos same, rfl, rfl, rfl, (if_pos same).symm, rfl, rfl, rfl⟩
    · simp [EventPayload.roleOf, same] at active
  | _ => cases active

theorem activityFor_other (active : (event.payload.roleOf address).isSome = true)
    (other : form ≠ address) : event.activityFor form = none := by
  obtain ⟨⟨ledger, closed, hash, index, payload⟩, cursor⟩ := event
  -- The name in the row is the address, and not the other text.
  cases payload with
  | taskRegistered _ name | taskCancelled _ name | taskClaimed _ name | taskExecuted _ name
  | rewardsWithdrawn name =>
    by_cases same : name = address
    · exact if_neg fun given => other (given.symm.trans same)
    · simp [EventPayload.roleOf, same] at active
  | _ => cases active

theorem forall₂_activityFor {events : List IndexedEvent}
    (active : ∀ event ∈ events, (event.payload.roleOf address).isSome = true) :
    List.Forall₂ (Tells address) (events.filterMap (IndexedEvent.activityFor address)) events := by
  -- Every event makes one entry, so both lists advance together.
  induction events with
  | nil => exact .nil
  | cons event rest ih =>
    obtain ⟨here, later⟩ := List.forall_mem_cons.mp active
    obtain ⟨item, made, tells⟩ := activityFor_tells here
    rw [List.filterMap_cons_some made]
    exact .cons tells (ih later)

theorem walkActivity_eq {entries : List ActivityItem}
    (cut : ∀ limit offset, (getAddressActivity db strkey address limit offset).items =
      (entries.drop offset).take limit) (limits : List Nat) :
    walkActivity db strkey address offset limits = (entries.drop offset).take limits.sum := by
  -- Each page takes up where the one before it stopped.
  induction limits generalizing offset with
  | nil => simp [walkActivity]
  | cons limit rest ih =>
    rw [walkActivity, cut, ih, List.sum_cons, List.take_add, List.drop_drop]

theorem activity_active : ∀ event ∈ (db.activity address).take activityPage,
    (event.payload.roleOf address).isSome = true := by
  intro event member
  exact (List.mem_filter.mp (List.mem_of_mem_take member)).2

theorem feed_canonical (canonical : strkey.normalizeAddress address = some address) :
    ∃ entries, List.Forall₂ (Tells address) entries
      ((db.activity address).take activityPage) ∧
    ∀ limit offset, getAddressActivity db strkey address limit offset =
      ⟨address, (entries.drop offset).take limit, entries.length⟩ := by
  -- A normalized address is compared with itself.
  have same : strkey.normalizedOrAsGiven address = address := by
    rw [Strkey.normalizedOrAsGiven, canonical, Option.getD_some]
  refine ⟨_, forall₂_activityFor activity_active, fun limit offset => ?_⟩
  rw [getAddressActivity_eq, same]

theorem feed_other (normalized : strkey.normalizeAddress form = some address)
    (other : form ≠ address) (limit offset : Nat) :
    getAddressActivity db strkey form limit offset = ⟨form, [], 0⟩ := by
  have same : strkey.normalizedOrAsGiven form = address := by
    rw [Strkey.normalizedOrAsGiven, normalized, Option.getD_some]
  -- The rows name the normalized address, and are compared with the given text.
  have none : ((db.activity address).take activityPage).filterMap
      (IndexedEvent.activityFor form) = [] :=
    List.filterMap_eq_nil_iff.mpr fun event member =>
      activityFor_other (activity_active event member) other
  rw [getAddressActivity_eq, same, none]
  simp

/--
The feed of an address is complete exactly when its activity fits the page that is fetched and it
has no other form, or no activity.
-/
theorem activity_complete_iff (canonical : strkey.normalizeAddress address = some address) :
    CompleteFeed db strkey address ↔
    (db.activity address).length ≤ activityPage ∧
      (db.activity address = [] ∨
        ∀ form, strkey.normalizeAddress form = some address → form = address) := by
  obtain ⟨entries, tell, cut⟩ := feed_canonical canonical
  have counted := tell.length_eq
  rw [List.length_take] at counted
  constructor
  · intro complete
    have total := complete.total 0 0
    rw [cut] at total
    refine ⟨by dsimp only at total; omega, ?_⟩
    rw [or_iff_not_imp_left]
    intro busy form normalized
    -- The feed of another form would report no activity at all.
    by_contra other
    have same := (complete.muxed form normalized 0 0).2
    rw [feed_other normalized other, cut] at same
    refine busy (List.eq_nil_of_length_eq_zero ?_)
    dsimp only at total same
    omega
  · rintro ⟨short, alone⟩
    rw [List.take_of_length_le short] at tell
    refine ⟨fun limits => ?_, fun limit offset => ?_, fun form normalized limit offset => ?_⟩
    · rw [walkActivity_eq (fun limit offset => by rw [cut]), List.drop_zero]
      exact List.forall₂_take limits.sum tell
    · rw [cut]
      dsimp only
      omega
    · by_cases same : form = address
      · rw [same]
        exact ⟨rfl, rfl⟩
      · rcases alone with idle | only
        · -- Without activity, every feed is empty.
          rw [idle] at tell
          rw [feed_other normalized same, cut, List.forall₂_nil_right_iff.mp tell]
          simp
        · exact absurd (only form normalized) same

/-- A claim by a contract was stored, and then read again. -/
def oneClaim : Db :=
  let claimed : Emission := ⟨7, 35, "tx", 0, .taskClaimed 1 "CA" 7⟩
  ((Db.blank.insertEvent claimed).1.insertEvent claimed).1

theorem letterStrkey_contract {form : String}
    (normalized : letterStrkey.normalizeAddress form = some "CA") : form = "CA" := by
  -- What is normalized to an account starts with another letter.
  have apart (key : List Char) : letterStrkey.ofAccount key ≠ "CA" := by
    intro same
    have letters := congrArg String.toList same
    simp [letterStrkey] at letters
  unfold Strkey.normalizeAddress at normalized
  split at normalized
  · exact absurd (Option.some.inj normalized) (apart _)
  · split at normalized
    · next key found =>
      have same : String.ofList ('C' :: key) = "CA" := Option.some.inj normalized
      simp only [letterStrkey] at found
      split at found
      · next letters =>
        obtain rfl := Option.some.inj found
        rw [← same, ← letters, String.ofList_toList]
      · cases found
    · obtain ⟨key, -, same⟩ := Option.map_eq_some_iff.mp normalized
      exact absurd same (apart key)

/-- The feed of a contract is complete. -/
theorem activity_complete_contract :
    (oneClaim.activity "CA").length = 1 ∧ CompleteFeed oneClaim letterStrkey "CA" := by
  refine ⟨by decide, (activity_complete_iff (by decide)).mpr ⟨by decide, .inr ?_⟩⟩
  exact fun _ => letterStrkey_contract

def oneRegistration : Db :=
  (Db.blank.insertEvent ⟨7, 35, "tx", 0, .taskRegistered 1 "GA" 40 100 none⟩).1

/-- The muxed form of an account with activity is reported to have none. -/
theorem activity_lost_muxed :
    letterStrkey.normalizeAddress "MA" = some "GA" ∧
      (getAddressActivity oneRegistration letterStrkey "GA" 10 0).totalCount = 1 ∧
      (getAddressActivity oneRegistration letterStrkey "MA" 10 0).totalCount = 0 :=
  ⟨by decide, by decide, by decide⟩

end KeeperNetwork.Indexer
