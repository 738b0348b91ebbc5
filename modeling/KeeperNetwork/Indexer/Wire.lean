import KeeperNetwork.Indexer.Ingestion
import KeeperNetwork.Registry.Types

/-! The registry's events as they are published, and what the indexer's store makes of them. -/

namespace KeeperNetwork

open Soroban Indexer

/-- The text forms of addresses and of bytes, as their libraries write them. -/
structure TextForms where
  strkey : Address → String
  hex : Bytes → String

instance : CoeFun TextForms fun _ => Address → String := ⟨TextForms.strkey⟩

namespace Event

/-- The pair of verb and noun that an event is published under. -/
def topics : Event → String × String
  | taskRegistered .. => ("reg", "task")
  | conditionNotMet .. => ("condfail", "task")
  | taskClaimed .. => ("claim", "task")
  | taskExecuted .. => ("exec", "task")
  | taskExpired .. => ("exp", "task")
  | taskCancelled .. => ("cancel", "task")
  | rewardsWithdrawn .. => ("wdraw", "reward")
  | rewardIncreased .. => ("topup", "task")
  | deadlineExtended .. => ("extend", "task")
  | paused .. => ("paused", "admin")
  | feeUpdated .. => ("fee", "admin")
  | adminTransferred .. => ("admin", "xfer")
  | minRewardUpdated .. => ("minrwd", "admin")
  | feesSwept .. => ("sweep", "admin")
  | initialized .. => ("init", "admin")
  | upgraded .. => ("upgrade", "admin")
  | verificationFailed .. => ("verfail", "task")
  | verifierUpdated .. => ("vupdate", "task")
  | stakeDeposited .. => ("stkdep", "stake")
  | unbondInitiated .. => ("unbond", "stake")
  | stakeWithdrawn .. => ("stkwd", "stake")
  | slashed .. => ("slash", "stake")
  | minStakeUpdated .. => ("minstk", "admin")
  | slashAppealRaised .. => ("appeal", "stake")
  | slashAppealResolved .. => ("resolve", "stake")
  | disputeWindowUpdated .. => ("disptwin", "admin")
  | executionDisputed .. => ("exdisp", "task")
  | executionDisputeResolved .. => ("exresolv", "task")
  | rewardsFinalized .. => ("finalize", "reward")
  | reputationFloorUpdated .. => ("repfloor", "admin")

variable (texts : TextForms)

def optionalAddress : Option Address → RawValue
  | some address => .address (texts address)
  | none => .void

/-- The payload of an event, in the order in which its fields are published. -/
def values : Event → List RawValue
  | taskRegistered taskId owner reward deadline condition =>
    [.u64 taskId, .address (texts owner), .i128 reward, .u64 deadline,
      optionalAddress texts condition]
  | conditionNotMet taskId condition => [.u64 taskId, .address (texts condition)]
  | taskClaimed taskId keeper sequence =>
    [.u64 taskId, .address (texts keeper), .u32 sequence]
  | taskExecuted taskId keeper netReward proof =>
    [.u64 taskId, .address (texts keeper), .i128 netReward, .bytes (texts.hex proof)]
  | taskExpired taskId => [.u64 taskId]
  | taskCancelled taskId owner => [.u64 taskId, .address (texts owner)]
  | rewardsWithdrawn keeper amount => [.address (texts keeper), .i128 amount]
  | rewardIncreased taskId newReward => [.u64 taskId, .i128 newReward]
  | deadlineExtended taskId newDeadline => [.u64 taskId, .u64 newDeadline]
  | paused flag => [.bool flag]
  | feeUpdated oldBps newBps => [.u32 oldBps, .u32 newBps]
  | adminTransferred oldAdmin newAdmin => [.address (texts oldAdmin), .address (texts newAdmin)]
  | minRewardUpdated oldMin newMin => [.i128 oldMin, .i128 newMin]
  | feesSwept treasury amount remaining =>
    [.address (texts treasury), .i128 amount, .i128 remaining]
  | initialized admin rewardToken feeBps =>
    [.address (texts admin), .address (texts rewardToken), .u32 feeBps]
  | upgraded admin newWasmHash => [.address (texts admin), .bytes (texts.hex newWasmHash)]
  | verificationFailed taskId keeper => [.u64 taskId, .address (texts keeper)]
  | verifierUpdated taskId oldVerifier newVerifier =>
    [.u64 taskId, optionalAddress texts oldVerifier, optionalAddress texts newVerifier]
  | stakeDeposited keeper amount newTotal =>
    [.address (texts keeper), .i128 amount, .i128 newTotal]
  | unbondInitiated keeper amount unlockLedger =>
    [.address (texts keeper), .i128 amount, .u32 unlockLedger]
  | stakeWithdrawn keeper amount => [.address (texts keeper), .i128 amount]
  | slashed slashId keeper amount reason =>
    [.u64 slashId, .address (texts keeper), .i128 amount, .symbol reason]
  | minStakeUpdated oldMin newMin => [.i128 oldMin, .i128 newMin]
  | slashAppealRaised slashId keeper => [.u64 slashId, .address (texts keeper)]
  | slashAppealResolved slashId upheld => [.u64 slashId, .bool upheld]
  | disputeWindowUpdated oldLedgers newLedgers => [.u32 oldLedgers, .u32 newLedgers]
  | executionDisputed taskId keeper => [.u64 taskId, .address (texts keeper)]
  | executionDisputeResolved taskId upheld => [.u64 taskId, .bool upheld]
  | rewardsFinalized keeper taskId amount => [.address (texts keeper), .u64 taskId, .i128 amount]
  | reputationFloorUpdated oldFloorBps newFloorBps => [.u32 oldFloorBps, .u32 newFloorBps]

/-- What the indexer knows of an event: the same fields, or nothing when its topics are unknown. -/
def payload : Event → Option EventPayload
  | taskRegistered taskId owner reward deadline condition =>
    some (.taskRegistered taskId (texts owner) reward deadline (condition.map texts))
  | conditionNotMet taskId condition => some (.conditionNotMet taskId (texts condition))
  | taskClaimed taskId keeper sequence => some (.taskClaimed taskId (texts keeper) sequence)
  | taskExecuted taskId keeper netReward proof =>
    some (.taskExecuted taskId (texts keeper) netReward (texts.hex proof))
  | taskExpired taskId => some (.taskExpired taskId)
  | taskCancelled taskId owner => some (.taskCancelled taskId (texts owner))
  | rewardsWithdrawn keeper amount => some (.rewardsWithdrawn (texts keeper) amount)
  | rewardIncreased taskId newReward => some (.rewardIncreased taskId newReward)
  | deadlineExtended taskId newDeadline => some (.deadlineExtended taskId newDeadline)
  | paused flag => some (.paused flag)
  | feeUpdated oldBps newBps => some (.feeUpdated oldBps newBps)
  | adminTransferred oldAdmin newAdmin =>
    some (.adminTransferred (texts oldAdmin) (texts newAdmin))
  | minRewardUpdated oldMin newMin => some (.minRewardUpdated oldMin newMin)
  | feesSwept treasury amount remaining => some (.feesSwept (texts treasury) amount remaining)
  | initialized admin rewardToken feeBps =>
    some (.initialized (texts admin) (texts rewardToken) feeBps)
  | upgraded admin newWasmHash => some (.upgraded (texts admin) (texts.hex newWasmHash))
  -- Verifiers, stakes, disputes and reputation are not indexed.
  | _ => none

end Event

namespace Indexer

/-- Where the network placed an event. -/
structure Stamp where
  ledger : Nat
  ledgerCloseTime : Int
  txHash : String
  eventIndex : Nat

/-- The pair by which the store tells one emission from another. -/
def Stamp.key (stamp : Stamp) : String × Nat := (stamp.txHash, stamp.eventIndex)

def Stamp.publish (texts : TextForms) (stamp : Stamp) (event : Event) : RawEvent where
  ledger := stamp.ledger
  ledgerCloseTime := stamp.ledgerCloseTime
  txHash := stamp.txHash
  eventIndex := stamp.eventIndex
  topics := [event.topics.1, event.topics.2]
  values := event.values texts

def published (texts : TextForms) (stamps : List Stamp) (events : List Event) :
    List RawEvent :=
  List.zipWith (Stamp.publish texts) stamps events

variable {texts : TextForms} {stamps : List Stamp} {events : List Event}

theorem parseEvent_publish (stamp : Stamp) (event : Event) :
    parseEvent (stamp.publish texts event) = .ok (event.payload texts) := by
  -- Only the optional condition of a registration is published in two shapes.
  cases event with
  | taskRegistered taskId owner reward deadline condition => cases condition <;> rfl
  | _ => rfl

theorem recognised_published (complete : stamps.length = events.length) :
    (recognised (published texts stamps events)).map Emission.payload =
      events.filterMap (Event.payload texts) := by
  induction stamps generalizing events with
  | nil =>
    obtain rfl : events = [] := List.eq_nil_of_length_eq_zero complete.symm
    rfl
  | cons stamp stamps ih =>
    cases events with
    | nil => simp at complete
    | cons event events =>
      have shorter : stamps.length = events.length := by simpa using complete
      have rest := ih shorter
      unfold recognised published at rest ⊢
      rw [List.zipWith_cons_cons, List.filterMap_cons, List.filterMap_cons]
      unfold RawEvent.recognised
      rw [parseEvent_publish]
      -- A known event adds its payload in front, and an unknown one adds nothing.
      cases event.payload texts with
      | none => exact rest
      | some payload => exact congrArg (payload :: ·) rest

theorem published_keys (complete : stamps.length = events.length) :
    (published texts stamps events).map RawEvent.key = stamps.map Stamp.key := by
  unfold published
  -- Each event takes the key of its stamp.
  induction stamps generalizing events with
  | nil => rfl
  | cons stamp stamps ih =>
    cases events with
    | nil => simp at complete
    | cons event events =>
      rw [List.zipWith_cons_cons, List.map_cons, ih (by simpa using complete), List.map_cons]
      rfl

theorem ingest_blank {raw : List RawEvent} (distinct : (raw.map RawEvent.key).Nodup) :
    (Db.blank.ingest raw).emissions = recognised raw := by
  -- Recording a log from its start reproduces it.
  have whole : recognised raw = [] ++ (recognised raw ++ []) := by simp
  have recorded := Replay.foldl_record_next whole ((recognised_keys raw).nodup distinct)
    List.nil_prefix List.prefix_rfl
  rw [Db.ingest_emissions]
  exact (recorded.2.eq_of_length_le recorded.1.length_le).symm

/--
Feeding a published log to the indexer succeeds.

The table then holds what the indexer knows of the events, in the order of the log.
-/
theorem ingestBatch_published (texts : TextForms)
    (complete : stamps.length = events.length) (distinct : (stamps.map Stamp.key).Nodup) :
    ∃ outcome after,
      (ingestBatch (published texts stamps events)).run Process.blank = .ok outcome after ∧
      after.db.events.map (·.payload) = events.filterMap (Event.payload texts) := by
  have ends := ingestBatch_ends (published texts stamps events) Process.blank
  unfold EStateM.Ends at ends
  cases ran : (ingestBatch (published texts stamps events)).run Process.blank with
  | ok outcome after =>
    rw [ran] at ends
    refine ⟨outcome, after, rfl, ?_⟩
    have stored : after.db.emissions = recognised (published texts stamps events) := by
      rw [ends.2.1]
      exact ingest_blank (by rwa [published_keys complete])
    rw [← recognised_published complete, ← stored, Db.emissions, List.map_map]
    rfl
  | error stop after =>
    rw [ran] at ends
    obtain ⟨seen, rest, -, -, -, killed | ⟨raw, member, error, malformed, -⟩⟩ := ends
    · exact (killed.2 rfl).elim
    · -- No event of the registry is malformed.
      obtain ⟨index, within, rfl⟩ := List.getElem_of_mem member
      simp only [published, List.getElem_zipWith, parseEvent_publish] at malformed
      cases malformed

end Indexer

end KeeperNetwork
