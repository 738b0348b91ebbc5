import KeeperNetwork.Proofs.Ledgers
import KeeperNetwork.Proofs.TaskWrites

/-! The log of events says what every successful call did, in the order of the calls. -/

namespace KeeperNetwork

open Soroban

/-- The events that a successful call publishes, from the ledger it found and what it returned. -/
def Call.announces (w : World) (value : Value) : Call → List Event
  | .initializeRegistry admin rewardToken feeBps => [.initialized admin rewardToken feeBps]
  | .pause _ => [.paused true]
  | .unpause _ => [.paused false]
  | .setFeeBps _ newBps => [.feeUpdated (feeBps w) newBps]
  | .setMinReward _ minReward => [.minRewardUpdated (minRewardFloor w) minReward]
  | .setReputationFloor _ floorBps => [.reputationFloorUpdated (reputationFloorBps w) floorBps]
  | .transferAdmin admin newAdmin => [.adminTransferred admin newAdmin]
  | .upgrade admin newWasmHash => [.upgraded admin newWasmHash]
  | .sweepFees _ treasury amount => [.feesSwept treasury amount (feesAccrued w - amount)]
  | .registerTask owner params => ((registerTask owner params).filings value).map Filing.event
  | .batchRegisterTasks owner tasks maxTotalReward =>
    ((batchRegisterTasks owner tasks maxTotalReward).filings value).map Filing.event
  | .increaseReward _ taskId additional =>
    (w.tasks.lookup taskId).toList.map fun task =>
      .rewardIncreased taskId (task.reward + additional)
  | .extendDeadline _ taskId newDeadline => [.deadlineExtended taskId newDeadline]
  | .updateVerifier _ taskId newVerifier =>
    (w.tasks.lookup taskId).toList.map fun task =>
      .verifierUpdated taskId task.verifier newVerifier
  | .claimTask keeper taskId => [.taskClaimed taskId keeper w.sequence]
  | .executeTask keeper taskId proof =>
    [.taskExecuted taskId keeper ((executeTask keeper taskId proof).executionNet w keeper) proof]
  | .cancelTask owner taskId => [.taskCancelled taskId owner]
  | .expireTask taskId => [.taskExpired taskId]
  | .withdrawRewards keeper =>
    -- Every credit that became ready is announced before the payout.
    (readyCredits (pendingCreditsOf w keeper) w.sequence).map
        (fun credit => .rewardsFinalized keeper credit.taskId credit.netReward) ++
      match value with
      | .amount balance => [.rewardsWithdrawn keeper balance]
      | _ => []
  | .stakeDeposit keeper amount => [.stakeDeposited keeper amount (keeperStakeOf w keeper + amount)]
  | .initiateUnbond keeper amount =>
    [.unbondInitiated keeper amount (saturatingAdd u32Max w.sequence unbondDelayLedgers)]
  | .withdrawStake keeper =>
    match value with
    | .amount amount => [.stakeWithdrawn keeper amount]
    | _ => []
  | .slash _ keeper amount reason _ =>
    match value with
    | .id slashId => [.slashed slashId keeper amount reason]
    | _ => []
  | .setMinStake _ minStake => [.minStakeUpdated (minStakeFloor w) minStake]
  | .raiseSlashAppeal keeper slashId => [.slashAppealRaised slashId keeper]
  | .resolveSlashAppeal _ slashId upholdAppeal => [.slashAppealResolved slashId upholdAppeal]
  | .setDisputeWindow _ ledgers => [.disputeWindowUpdated (disputeWindowLedgers w) ledgers]
  | .disputeExecution _ taskId =>
    ((w.tasks.lookup taskId).bind Task.claimer).toList.map (.executionDisputed taskId)
  | .resolveExecutionDispute _ taskId upholdDispute =>
    [.executionDisputeResolved taskId upholdDispute]

def Entry.announces : Entry → List Event
  | .call receipt => receipt.call.announces receipt.before receipt.value
  | .outside _ => []

/-- The events that a history announces, oldest first. -/
def announced (history : List Entry) : List Event :=
  history.foldr (fun entry earlier => earlier ++ entry.announces) []

variable {token : Token} {inv : Invocation} {start e e' : Env} {call : Call} {value : Value}

/-- Every successful call appends what it announces to the log, and nothing else. -/
theorem Effect.announces (detached : Detached token) (formed : WellFormed e)
    (effect : Effect token inv e call value e') :
    e'.events = e.events ++ call.announces e value := by
  cases effect with
  | @registerTask owner params paid _ _ _ escrowed =>
    obtain ⟨balances, rfl⟩ := detached escrowed
    simp [Call.announces, Call.filings, Filing.event]
  | batchRegisterTasks _ _ _ _ _ _ _ _ registered =>
    obtain ⟨-, -, same⟩ := registered.outcome detached
    rw [same]
    simp [Call.announces, Call.filings]
  | increaseReward _ _ found _ _ _ escrowed =>
    obtain ⟨balances, rfl⟩ := detached escrowed
    simp [Call.announces, found]
  | updateVerifier _ found => simp [Call.announces, found]
  | @executeTaskHeld keeper taskId proof task keeperNet fee _ _ found _ _ _ _ split
  | @executeTaskPaid keeper taskId proof task keeperNet fee _ _ found _ _ _ _ split =>
    -- The announced share is the one that the split of the reward leaves.
    obtain ⟨-, net⟩ := execution_of_split keeper keeper proof formed found split
    simp [Call.announces, net]
  | withdrawRewards _ readied kept _ _ _ _ payout =>
    obtain ⟨balances, rfl⟩ := detached payout
    subst readied kept
    simp [Call.announces]
  | disputeExecution _ found _ claimer => simp [Call.announces, found, claimer]
  | _ =>
    try obtain ⟨balances, rfl⟩ := detached ‹_›
    simp [Call.announces]

theorem DetachedRun.log (fresh : Fresh start) (run : DetachedRun start e) :
    e.events = start.events ++ announced e.history := by
  refine DetachedRun.invariant (fun e => e.events = start.events ++ announced e.history) ?_
    (fun _ _ _ held => held) (fun e _ _ held => by simpa [announced, Entry.announces] using held)
    fresh (by simp [fresh.history, announced]) run
  intro token inv e e' call value detached formed effect history held
  change e'.events = _
  rw [effect.announces detached formed, held, Env.record_history, history, List.append_assoc]
  rfl

theorem DetachedRun.log_all {holds : Event → Prop}
    (first : ∀ admin rewardToken bps, holds (.initialized admin rewardToken bps))
    (announced : ∀ {token : Token} {inv : Invocation} {e e' : Env} {call : Call} {value : Value},
      WellFormed e → Effect token inv e call value e' →
      ∀ event ∈ call.announces e value, holds event)
    (fresh : Fresh start) (run : DetachedRun start e) : ∀ event ∈ e.events, holds event := by
  refine DetachedRun.invariant (fun e => ∀ event ∈ e.events, holds event) ?_
    (fun _ _ _ held => held) (fun _ _ _ held => held) fresh ?_ run
  · intro token inv e e' call value detached formed effect _ held event member
    change event ∈ e'.events at member
    rw [effect.announces detached formed, List.mem_append] at member
    rcases member with old | new
    · exact held event old
    · exact announced formed effect event new
  · obtain ⟨admin, rewardToken, bps, initialized⟩ := fresh.initialized
    simpa [initialized.events] using first admin rewardToken bps

def eventTotal (weight : Event → Int) (events : List Event) : Int := (events.map weight).sum

/-- Two logs in a row count for the sum of both. -/
@[simp] theorem eventTotal_append (weight : Event → Int) (first rest : List Event) :
    eventTotal weight (first ++ rest) = eventTotal weight first + eventTotal weight rest := by
  simp [eventTotal]

/-- The log counts for what the recorded calls count for. -/
theorem eventTotal_announced (weight : Event → Int) (history : List Entry) :
    eventTotal weight (announced history) =
      receiptTotal (fun receipt =>
        eventTotal weight (receipt.call.announces receipt.before receipt.value)) history := by
  induction history with
  | nil => rfl
  | cons entry earlier ih =>
    rw [announced, List.foldr_cons, eventTotal_append]
    change eventTotal weight (announced earlier) + _ = _
    cases entry with
    | call receipt =>
      rw [ih, receiptTotal_call, add_comm]
      rfl
    | outside amount =>
      rw [ih, receiptTotal_outside]
      simp [Entry.announces, eventTotal]

end KeeperNetwork
