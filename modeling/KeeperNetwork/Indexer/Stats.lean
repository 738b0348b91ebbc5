import KeeperNetwork.Indexer.Balances
import KeeperNetwork.Indexer.TaskPages
import KeeperNetwork.Proofs.EscrowFlow

/-! Protocol-wide statistics in one pass over the events, against the folded state. -/

namespace KeeperNetwork.Indexer

open Soroban

/-- Protocol-wide figures, with amounts as numbers where the response prints them in decimal. -/
structure ProtocolStats where
  totalTasksRegistered : Nat
  totalValueEscrowed : Int
  /-- The value still escrowed in pending and claimed tasks. -/
  currentOpenEscrow : Int
  totalFeesSwept : Int
  currentFeeBps : Nat
  isPaused : Bool
  deriving DecidableEq, Repr

namespace EventPayload

@[simp] def registered : EventPayload → Int
  | .taskRegistered _ _ reward _ _ => reward
  | _ => 0

@[simp] def registers (payload : EventPayload) : Bool := payload.eventType = .taskRegistered

@[simp] def feeAfter (feeBps : Nat) : EventPayload → Nat
  | .feeUpdated _ newBps => newBps
  | _ => feeBps

@[simp] def pausedAfter (isPaused : Bool) : EventPayload → Bool
  | .paused flag => flag
  | _ => isPaused

end EventPayload

namespace ProtocolStats

/-- The figures before any event. -/
def blank : ProtocolStats := ⟨0, 0, 0, 0, 300, false⟩

/-- The figures after one more event, which panics when a sum leaves the range of its type. -/
def next (stats : ProtocolStats) : EventPayload → Option ProtocolStats
  | .taskRegistered _ _ reward _ _ => do
    let totalValueEscrowed ← checkedAdd stats.totalValueEscrowed reward
    let currentOpenEscrow ← checkedAdd stats.currentOpenEscrow reward
    -- One page of events is too short for the count to overflow.
    return { stats with
      totalTasksRegistered := stats.totalTasksRegistered + 1
      totalValueEscrowed
      currentOpenEscrow }
  | .taskExecuted _ _ netReward _ =>
    if netReward ≤ stats.currentOpenEscrow then do
      let currentOpenEscrow ← checkedSub stats.currentOpenEscrow netReward
      return { stats with currentOpenEscrow }
    else some { stats with currentOpenEscrow := 0 }
  -- Cancelled and expired tasks return their escrow, but nothing is subtracted.
  | .taskCancelled .. | .taskExpired .. => some stats
  | .feesSwept _ amount _ => do
    let totalFeesSwept ← checkedAdd stats.totalFeesSwept amount
    return { stats with totalFeesSwept }
  | .feeUpdated _ newBps => some { stats with currentFeeBps := newBps }
  | .paused paused => some { stats with isPaused := paused }
  | _ => some stats

end ProtocolStats

/-- The number of events that the statistics read. -/
def statsPage : Nat := 10000

/-- Compute protocol-wide statistics from one page of events, absent when a sum overflows. -/
def getProtocolStats {Key : Type} (db : Db) (keys : Strkey Key) : Option ProtocolStats :=
  ((db.eventsAfter keys none statsPage none none).events.map fun event => event.payload).foldlM
    ProtocolStats.next .blank

namespace ProtocolStats

/-- The figures after one more event, with sums that neither overflow nor stop at zero. -/
@[local simp] def advance (stats : ProtocolStats) (payload : EventPayload) : ProtocolStats where
  totalTasksRegistered := stats.totalTasksRegistered + if payload.registers then 1 else 0
  totalValueEscrowed := stats.totalValueEscrowed + payload.registered
  currentOpenEscrow := stats.currentOpenEscrow + payload.registered - payload.earned
  totalFeesSwept := stats.totalFeesSwept + payload.swept
  currentFeeBps := payload.feeAfter stats.currentFeeBps
  isPaused := payload.pausedAfter stats.isPaused

variable {stats stats' : ProtocolStats} {payload : EventPayload} {payloads : List EventPayload}

theorem foldl_advance (payloads : List EventPayload) (stats : ProtocolStats) :
    payloads.foldl advance stats =
      ⟨stats.totalTasksRegistered + payloads.countP EventPayload.registers,
        stats.totalValueEscrowed + (payloads.map EventPayload.registered).sum,
        stats.currentOpenEscrow + (payloads.map EventPayload.registered).sum -
          (payloads.map EventPayload.earned).sum,
        stats.totalFeesSwept + (payloads.map EventPayload.swept).sum,
        payloads.foldl EventPayload.feeAfter stats.currentFeeBps,
        payloads.foldl EventPayload.pausedAfter stats.isPaused⟩ := by
  -- Each figure is a sum or a fold of its own over the events.
  induction payloads generalizing stats with
  | nil => simp
  | cons payload rest ih =>
    rw [List.foldl_cons, ih]
    simp only [advance, List.map_cons, List.sum_cons, List.countP_cons, List.foldl_cons,
      ProtocolStats.mk.injEq, and_true]
    omega

theorem next_eq_some (told : stats.next payload = some stats') :
    stats' = { stats.advance payload with currentOpenEscrow := stats'.currentOpenEscrow } ∧
      (stats.totalValueEscrowed ≤ i128Max → stats'.totalValueEscrowed ≤ i128Max) ∧
      (stats.totalFeesSwept ≤ i128Max → stats'.totalFeesSwept ≤ i128Max) := by
  cases payload with
  | taskRegistered =>
    simp only [next, Option.bind_eq_bind, Option.bind_eq_some_iff, checkedAdd_eq_some,
      Option.pure_def, Option.some.injEq] at told
    obtain ⟨escrowed, ⟨rfl, -, fits⟩, opened, -, rfl⟩ := told
    exact ⟨by simp [EventPayload.eventType, EventPayload.swept], fun _ => fits, id⟩
  | taskExecuted =>
    -- An execution only moves the open escrow, whether it stops at zero or not.
    simp only [next] at told
    split at told
    · simp only [Option.bind_eq_bind, Option.bind_eq_some_iff, Option.pure_def,
        Option.some.injEq] at told
      obtain ⟨opened, -, rfl⟩ := told
      exact ⟨by simp [EventPayload.eventType, EventPayload.swept], id, id⟩
    · obtain rfl := Option.some.inj told
      exact ⟨by simp [EventPayload.eventType, EventPayload.swept], id, id⟩
  | feesSwept =>
    simp only [next, Option.bind_eq_bind, Option.bind_eq_some_iff, checkedAdd_eq_some,
      Option.pure_def, Option.some.injEq] at told
    obtain ⟨swept, ⟨rfl, -, fits⟩, rfl⟩ := told
    exact ⟨by simp [EventPayload.eventType, EventPayload.swept], id, fun _ => fits⟩
  | _ =>
    obtain rfl := Option.some.inj told
    exact ⟨by simp [EventPayload.eventType, EventPayload.swept], id, id⟩

theorem foldlM_eq_some (told : payloads.foldlM next stats = some stats') :
    stats' = { payloads.foldl advance stats with
        currentOpenEscrow := stats'.currentOpenEscrow } ∧
      (stats.totalValueEscrowed ≤ i128Max → stats'.totalValueEscrowed ≤ i128Max) ∧
      (stats.totalFeesSwept ≤ i128Max → stats'.totalFeesSwept ≤ i128Max) := by
  induction payloads generalizing stats with
  | nil =>
    obtain rfl := Option.some.inj told
    exact ⟨rfl, id, id⟩
  | cons payload rest ih =>
    rw [List.foldlM_cons, Option.bind_eq_bind, Option.bind_eq_some_iff] at told
    obtain ⟨middle, first, later⟩ := told
    obtain ⟨same, escrowed, swept⟩ := next_eq_some first
    obtain ⟨whole, escrowed', swept'⟩ := ih later
    refine ⟨?_, fun fits => escrowed' (escrowed fits), fun fits => swept' (swept fits)⟩
    -- The open escrow feeds into no other figure.
    rw [whole, List.foldl_cons, same]
    simp only [foldl_advance]

/-- While nothing overflows, the next figures are the exact ones. -/
theorem next_eq_advance (registered : 0 ≤ payload.registered) (earned : 0 ≤ payload.earned)
    (swept : 0 ≤ payload.swept) (opened : 0 ≤ stats.currentOpenEscrow)
    (below : stats.currentOpenEscrow ≤ stats.totalValueEscrowed)
    (before : 0 ≤ stats.totalFeesSwept) (covered : payload.earned ≤ stats.currentOpenEscrow)
    (escrowFits : stats.totalValueEscrowed + payload.registered ≤ i128Max)
    (sweptFits : stats.totalFeesSwept + payload.swept ≤ i128Max) :
    stats.next payload = some (stats.advance payload) := by
  have signs := i128_signs
  have adds : ∀ left right : Int, 0 ≤ left → 0 ≤ right → left + right ≤ i128Max →
      checkedAdd left right = some (left + right) := fun left right first second fits =>
    checkedAdd_eq_some.mpr ⟨rfl, by omega, fits⟩
  -- Only three kinds of events touch a sum.
  cases payload with
  | taskRegistered taskId owner reward deadline condition =>
    simp only [EventPayload.registered] at registered escrowFits
    simp [next, adds _ _ (opened.trans below) registered escrowFits,
      adds _ _ opened registered (by omega), EventPayload.eventType, EventPayload.swept,
      EventPayload.earned]
  | taskExecuted taskId keeper netReward proof =>
    simp only [EventPayload.earned, EventPayload.registered] at earned covered escrowFits
    have left : checkedSub stats.currentOpenEscrow netReward =
        some (stats.currentOpenEscrow - netReward) :=
      checkedSub_eq_some.mpr ⟨rfl, by omega, by omega⟩
    simp [next, covered, left, EventPayload.eventType, EventPayload.swept, EventPayload.earned]
  | feesSwept treasury amount remaining =>
    simp only [EventPayload.swept] at swept sweptFits
    simp [next, adds _ _ before swept sweptFits, EventPayload.eventType, EventPayload.swept,
      EventPayload.earned]
  | _ => simp [next, EventPayload.eventType, EventPayload.swept, EventPayload.earned]

/--
Events whose amounts fit and whose executions are covered from the start advance the figures
exactly.
-/
theorem foldlM_eq_advance
    (amounts : ∀ payload ∈ payloads,
      0 ≤ payload.registered ∧ 0 ≤ payload.earned ∧ 0 ≤ payload.swept)
    (opened : 0 ≤ stats.currentOpenEscrow)
    (below : stats.currentOpenEscrow ≤ stats.totalValueEscrowed) (before : 0 ≤ stats.totalFeesSwept)
    (covered : (payloads.map EventPayload.earned).sum ≤ stats.currentOpenEscrow)
    (escrowFits : stats.totalValueEscrowed + (payloads.map EventPayload.registered).sum ≤ i128Max)
    (sweptFits : stats.totalFeesSwept + (payloads.map EventPayload.swept).sum ≤ i128Max) :
    payloads.foldlM next stats = some (payloads.foldl advance stats) := by
  induction payloads generalizing stats with
  | nil => rfl
  | cons payload rest ih =>
    obtain ⟨⟨registered, earned, swept⟩, later⟩ := List.forall_mem_cons.mp amounts
    simp only [List.map_cons, List.sum_cons] at covered escrowFits sweptFits
    -- What the rest counts for is not negative either.
    have registeredRest : 0 ≤ (rest.map EventPayload.registered).sum :=
      List.sum_nonneg (List.forall_mem_map.mpr fun payload member => (later payload member).1)
    have earnedRest : 0 ≤ (rest.map EventPayload.earned).sum :=
      List.sum_nonneg (List.forall_mem_map.mpr fun payload member => (later payload member).2.1)
    have sweptRest : 0 ≤ (rest.map EventPayload.swept).sum :=
      List.sum_nonneg (List.forall_mem_map.mpr fun payload member => (later payload member).2.2)
    have first := next_eq_advance registered earned swept opened below before (by omega)
      (by omega) (by omega)
    rw [List.foldlM_cons, first, List.foldl_cons]
    refine ih later ?_ ?_ ?_ ?_ ?_ ?_ <;> simp only [advance] <;> omega

end ProtocolStats

def TaskState.escrow (state : TaskState) : Int :=
  if state.status = .pending ∨ state.status = .claimed then state.reward else 0

namespace Db

/-- The tasks that the stored events speak of. -/
def knownTasks (db : Db) : List Nat :=
  (db.events.filterMap fun event => event.payload.taskId).dedup

/-- The rewards of the tasks whose folded state is pending or claimed. -/
def foldedEscrow (db : Db) : Int :=
  (db.knownTasks.map fun taskId =>
    (TaskState.fold taskId (db.taskHistory taskId)).elim 0 TaskState.escrow).sum

end Db

variable {texts : TextForms} {start e e' : Env} {call : Call} {value : Value}

attribute [local simp] Event.payload Call.announces eventTotal Call.registered

theorem registered_announces (call : Call) (w : World) (value : Value) :
    eventTotal (fun event => (event.payload texts).elim 0 EventPayload.registered)
      (call.announces w value) = call.registered value := by
  -- Only the filings of a call announce a registration.
  cases call with
  | registerTask | batchRegisterTasks =>
    simp [Filing.event, Function.comp_def]
  | withdrawRewards =>
    cases value <;> simp [Call.filings, Function.comp_def]
  | withdrawStake | slash => cases value <;> rfl
  | increaseReward | updateVerifier | disputeExecution =>
    simp [Call.filings, Function.comp_def]
  | _ => rfl

theorem share_announces (call : Call) (w : World) (value : Value) :
    eventTotal (fun event => (event.payload texts).elim 0 EventPayload.earned)
      (call.announces w value) = call.keeperShare w := by
  -- Only an execution announces earnings.
  cases call with
  | executeTask => simp [Call.keeperShare, EventPayload.earned]
  | withdrawRewards =>
    cases value <;> simp [Call.keeperShare, EventPayload.earned, Function.comp_def]
  | withdrawStake | slash => cases value <;> rfl
  | registerTask | batchRegisterTasks | increaseReward | updateVerifier | disputeExecution =>
    simp [Call.keeperShare, Filing.event, EventPayload.earned, Function.comp_def]
  | _ => rfl

theorem DetachedRun.registered_nonneg (fresh : Fresh start) (run : DetachedRun start e) :
    ∀ payload ∈ e.events.filterMap (Event.payload texts), 0 ≤ payload.registered := by
  refine DetachedRun.payloads_all (fun _ _ _ => le_rfl) ?_ fresh run
  rintro token inv e e' call value - effect event listed payload told
  cases event <;> cases told <;> try exact le_rfl
  -- Only registrations announce a reward, and they refuse one that is not positive.
  cases effect with
  | registerTask _ valid =>
    simp only [Call.announces, Call.filings, Filing.event, List.map_cons, List.map_nil,
      List.mem_singleton, Event.taskRegistered.injEq] at listed
    exact listed.2.2.1 ▸ valid.positive.le
  | batchRegisterTasks _ _ _ _ valid =>
    simp only [Call.announces, Call.filings, batchFilings, List.map_map, List.mem_map,
      Function.comp_apply, Filing.event, Event.taskRegistered.injEq] at listed
    obtain ⟨entry, zipped, -, -, same, -⟩ := listed
    exact same ▸ (valid entry.2 (List.of_mem_zip zipped).2).positive.le
  | _ => simp at listed

theorem DetachedRun.told (fresh : Fresh start) (run : DetachedRun start e) :
    ((e.events.filterMap (Event.payload texts)).map EventPayload.registered).sum =
        rewardsRegistered e.history ∧
      ((e.events.filterMap (Event.payload texts)).map EventPayload.earned).sum =
        keeperShares e.history :=
  ⟨DetachedRun.payloads (fun _ _ _ => rfl) registered_announces fresh run,
    DetachedRun.payloads (fun _ _ _ => rfl) share_announces fresh run⟩

theorem DetachedRun.shares_le (fresh : Fresh start) (run : DetachedRun start e)
    (kept : rewardsAdded e.history = 0) :
    0 ≤ keeperShares e.history ∧ keeperShares e.history ≤ rewardsRegistered e.history := by
  -- What is neither shared out nor charged nor refunded is still open.
  have flow := DetachedRun.openEscrow fresh run
  have flows := DetachedRun.flows fresh run
  have remaining : 0 ≤ openEscrow e :=
    Finmap.total_nonneg (DetachedRun.wellFormed fresh run).escrow_nonneg
  have charged : 0 ≤ feesCharged e.history :=
    receiptTotal_nonneg fun receipt member => (flows receipt member).fee
  have refunded : 0 ≤ rewardsRefunded e.history :=
    receiptTotal_nonneg fun receipt member => (flows receipt member).refund
  exact ⟨receiptTotal_nonneg fun receipt member => (flows receipt member).share, by omega⟩

/-- The one pass over the log is exact, unless a reward was added to or a sum does not fit. -/
def Tallied (texts : TextForms) (e : Env) : Prop :=
  rewardsAdded e.history = 0 → rewardsRegistered e.history ≤ i128Max →
    feesSwept e.history ≤ i128Max →
    (e.events.filterMap (Event.payload texts)).foldlM ProtocolStats.next .blank =
      some ((e.events.filterMap (Event.payload texts)).foldl ProtocolStats.advance .blank)

/-- A call adds to the announced totals what it adds to the history. -/
theorem Tallied.called {token : Token} {inv : Invocation} (tallied : Tallied texts e)
    (fresh : Fresh start) (ran : DetachedRun start e)
    (run : DetachedRun start (e'.record e call value)) (detached : Detached token)
    (effect : Effect token inv e call value e') : Tallied texts (e'.record e call value) := by
  intro kept escrowFits sweptFits
  have formed := DetachedRun.wellFormed fresh ran
  have flow := effect.flows detached formed
  have swept := DetachedRun.feesSwept_nonneg fresh ran
  have sweeps : 0 ≤ call.swept := by
    cases effect with
    | sweepFees _ positive => exact positive.le
    | _ => exact le_rfl
  -- The totals only grow, so nothing was added and all of them fitted before the call.
  have grown (amount : Receipt → Int) :
      receiptTotal amount (e'.record e call value).history =
        amount ⟨e, call, value, e'⟩ + receiptTotal amount e.history := by
    rw [Env.record_history, detached.history effect, receiptTotal_call]
  have added : 0 ≤ rewardsAdded e.history := receiptTotal_nonneg fun receipt member =>
    (DetachedRun.flows fresh ran receipt member).added
  have after := (DetachedRun.shares_le fresh run kept).2
  rw [rewardsAdded, grown] at kept
  rw [rewardsRegistered, grown] at escrowFits
  rw [feesSwept, grown] at sweptFits
  rw [keeperShares, rewardsRegistered, grown, grown] at after
  change call.added + rewardsAdded e.history = 0 at kept
  change call.registered value + rewardsRegistered e.history ≤ i128Max at escrowFits
  change call.swept + feesSwept e.history ≤ i128Max at sweptFits
  change call.keeperShare e + keeperShares e.history ≤
    call.registered value + rewardsRegistered e.history at after
  obtain ⟨registers, adds, -, -, -, either⟩ := flow
  have untouched : rewardsAdded e.history = 0 := by omega
  obtain ⟨shared, before⟩ := DetachedRun.shares_le fresh ran untouched
  -- The call's own events are covered by what was open when it began.
  obtain ⟨registered, shares⟩ := @DetachedRun.told texts _ _ fresh ran
  have swept' := @DetachedRun.swept texts _ _ fresh ran
  have logged : (e'.record e call value).events =
      e.events ++ call.announces e value := by
    change e'.events = _
    exact effect.announces detached formed
  have amounts : ∀ payload ∈ (call.announces e value).filterMap (Event.payload texts),
      0 ≤ payload.registered ∧ 0 ≤ payload.earned ∧ 0 ≤ payload.swept := by
    intro payload member
    have listed : payload ∈ (e'.record e call value).events.filterMap
        (Event.payload texts) := by
      rw [logged, List.filterMap_append]
      exact List.mem_append_right _ member
    exact ⟨DetachedRun.registered_nonneg fresh run payload listed,
      (DetachedRun.amounts_nonneg fresh run payload listed).1,
      DetachedRun.swept_nonneg fresh run payload listed⟩
  rw [logged, List.filterMap_append, List.foldlM_append,
    tallied untouched (by omega) (by omega), List.foldl_append]
  refine ProtocolStats.foldlM_eq_advance amounts ?_ ?_ ?_ ?_ ?_ ?_ <;>
    simp only [ProtocolStats.foldl_advance, ProtocolStats.blank, registered, shares, swept',
      sum_payloads, registered_announces, share_announces, swept_announces] <;> omega

theorem DetachedRun.tallied (fresh : Fresh start) (run : DetachedRun start e) :
    Tallied texts e := by
  induction run with
  | refl =>
    obtain ⟨admin, rewardToken, bps, initialized⟩ := fresh.initialized
    intro _ _ _
    simp [initialized.events, ProtocolStats.next, ProtocolStats.advance, EventPayload.eventType,
      EventPayload.earned, EventPayload.swept]
  | tail ran last ih =>
    have run := ran.tail last
    cases Step.happens last with
    | failed => exact ih
    | closed => exact ih
    | received =>
      -- Tokens from outside are no call, so no total counts them.
      intro kept escrowFits sweptFits
      rw [rewardsAdded, receiptTotal_outside] at kept
      rw [rewardsRegistered, receiptTotal_outside] at escrowFits
      rw [feesSwept, receiptTotal_outside] at sweptFits
      exact ih kept escrowFits sweptFits
    | called detached _ _ effect => exact ih.called fresh ran run detached effect

/-- The escrow that the indexer folds is the one that is open. -/
theorem DetachedRun.foldedEscrow (fresh : Fresh start) (run : DetachedRun start e) {db : Db}
    (stored : db.events.map (·.payload) = e.events.filterMap (Event.payload texts)) :
    db.foldedEscrow = openEscrow e := by
  have view := DetachedRun.view fresh run stored
  -- Every task is folded to what is stored under its id.
  have same : ∀ taskId, (TaskState.fold taskId (db.taskHistory taskId)).elim 0 TaskState.escrow =
      e.tasks.weightAt Task.escrow taskId := by
    intro taskId
    have here := view taskId
    unfold Finmap.weightAt
    cases found : e.tasks.lookup taskId with
    | none =>
      rw [found, Option.map_none, Option.map_eq_none_iff] at here
      rw [here]
      rfl
    | some task =>
      rw [found, Option.map_some, Option.map_eq_some_iff] at here
      obtain ⟨state, folded, told⟩ := here
      have mirror := TaskMirror.of_view told
      rw [folded]
      change state.escrow = task.escrow
      rw [TaskState.escrow, Task.escrow, mirror.status, mirror.reward]
      cases task.status <;> simp [TaskStatus.of]
  -- A stored task has a history, so it is one of those that are summed.
  have covers : ∀ taskId ∈ e.tasks, taskId ∈ db.knownTasks := by
    intro taskId member
    obtain ⟨task, found⟩ := Finmap.mem_iff.mp member
    have here := view taskId
    rw [found, Option.map_some, Option.map_eq_some_iff] at here
    obtain ⟨state, folded, -⟩ := here
    have nonempty : db.taskHistory taskId ≠ [] := by
      intro empty
      rw [empty] at folded
      cases folded
    obtain ⟨row, listed⟩ := List.exists_mem_of_ne_nil _ nonempty
    obtain ⟨row_stored, about⟩ := List.mem_filter.mp listed
    exact List.mem_dedup.mpr (List.mem_filterMap.mpr ⟨row, row_stored, of_decide_eq_true about⟩)
  unfold Db.foldedEscrow openEscrow
  rw [List.map_congr_left fun taskId _ => same taskId]
  exact Finmap.sum_weightAt Task.escrow e.tasks (List.nodup_dedup _) covers

theorem foldl_feeAfter_eq (payloads : List EventPayload) (left right : Nat) :
    payloads.foldl EventPayload.feeAfter left = payloads.foldl EventPayload.feeAfter right ↔
      left = right ∨ ∃ payload ∈ payloads, payload.eventType = .feeUpdated := by
  -- An update forgets the rate before it, and nothing else touches the rate.
  induction payloads generalizing left right with
  | nil => simp
  | cons payload rest ih =>
    rw [List.foldl_cons, List.foldl_cons, ih]
    cases payload <;> simp [EventPayload.eventType]

theorem foldl_feeAfter_silent {payloads : List EventPayload}
    (silent : ∀ payload ∈ payloads, payload.eventType ≠ .feeUpdated) (bps : Nat) :
    payloads.foldl EventPayload.feeAfter bps = bps := by
  induction payloads with
  | nil => rfl
  | cons payload rest ih =>
    obtain ⟨other, later⟩ := List.forall_mem_cons.mp silent
    have here : EventPayload.feeAfter bps payload = bps := by
      cases payload <;> first | rfl | exact absurd rfl other
    rw [List.foldl_cons, here, ih later]

theorem foldl_pausedAfter (payloads : List EventPayload) (config : AdminConfig) :
    payloads.foldl EventPayload.pausedAfter (config.paused.getD false) =
      (payloads.foldl AdminConfig.configure config).paused.getD false := by
  -- Both folds read the switch from the same events.
  induction payloads generalizing config with
  | nil => rfl
  | cons payload rest ih =>
    rw [List.foldl_cons, List.foldl_cons, ← ih]
    cases payload <;> rfl

/-- The stored fee rate is the one the registry started with, unless an update is told. -/
def FeeTold (texts : TextForms) (bps : Nat) (e : Env) : Prop :=
  e.feeBps = some ((e.events.filterMap (Event.payload texts)).foldl EventPayload.feeAfter bps)

theorem announces_feeUpdated (w : World) (value : Value)
    (other : ∀ admin newBps, call ≠ .setFeeBps admin newBps) :
    ∀ payload ∈ (call.announces w value).filterMap (Event.payload texts),
      payload.eventType ≠ .feeUpdated := by
  -- A look at what every call announces.
  cases call with
  | setFeeBps => exact absurd rfl (other _ _)
  | withdrawRewards =>
    cases value <;> simp [EventPayload.eventType]
  | withdrawStake | slash => cases value <;> exact List.forall_mem_nil _
  | _ => simp [Filing.event, EventPayload.eventType]

theorem DetachedRun.feeTold (fresh : Fresh start) (run : DetachedRun start e) :
    FeeTold texts (feeBps start) e := by
  refine DetachedRun.invariant (FeeTold texts (feeBps start)) ?_
    (fun _ _ _ held => held) (fun _ _ _ held => held) fresh ?_ run
  · intro token inv e e' call value detached formed effect _ held
    change e'.feeBps = some ((e'.events.filterMap _).foldl _ _)
    rw [effect.announces detached formed, List.filterMap_append, List.foldl_append]
    by_cases sets : ∃ admin newBps, call = .setFeeBps admin newBps
    · obtain ⟨admin, newBps, rfl⟩ := sets
      cases effect
      simp
    · push Not at sets
      -- Without an update in the news, the rate before the call is the rate after it.
      rw [foldl_feeAfter_silent (announces_feeUpdated e value sets), ← held]
      cases quiet : configures call with
      | false =>
        -- The text forms play no part in the rate.
        let texts : TextForms := ⟨fun _ => "", fun _ => ""⟩
        have same : configOf texts e' = configOf texts e :=
          Effect.configOf_quiet detached effect quiet
        exact congrArg AdminConfig.feeBps same
      | true =>
        cases effect with
        | initializeRegistry absent => exact absurd absent formed.ready
        | setFeeBps => exact absurd rfl (sets _ _)
        | pause | unpause | setMinReward | transferAdmin | upgrade => simp
        | _ => cases quiet
  · obtain ⟨admin, rewardToken, bps, initialized⟩ := fresh.initialized
    simp [FeeTold, initialized.events, initialized.feeBps, feeBps]

section Page

variable {Key : Type} (keys : Strkey Key)

theorem getProtocolStats_whole {db : Db} (short : db.events.length ≤ statsPage) :
    getProtocolStats db keys =
      (db.events.map fun event => event.payload).foldlM ProtocolStats.next .blank := by
  -- Every cursor is positive, and nothing is asked of the kind or the address.
  have whole : Log.beyond IndexedEvent.mark 0
      (db.events.filter (Db.selects none (none : Option String))) = db.events := by
    rw [Log.beyond, List.filter_filter, List.filter_eq_self]
    intro event stored
    simpa [Db.selects] using Db.mark_pos stored
  unfold getProtocolStats Db.eventsAfter
  simp only [Option.getD_none, Option.map_none, whole, List.take_take]
  rw [List.take_of_length_le (by omega)]

end Page

/-- The figures are what the folded state and the history of the registry say. -/
structure Reported (db : Db) (history : List Entry) (stats : ProtocolStats) : Prop where
  /-- The number of registrations. -/
  tasks : stats.totalTasksRegistered =
    (db.events.filter fun event => event.payload.eventType = .taskRegistered).length
  /-- All registered rewards and everything added to them. -/
  escrowed : stats.totalValueEscrowed = rewardsRegistered history + rewardsAdded history
  /-- The rewards of the tasks that are pending or claimed. -/
  unsettled : stats.currentOpenEscrow = db.foldedEscrow
  /-- The three figures of the configuration. -/
  config : ∃ config, AdminConfig.fold db.adminEvents = some config ∧
    config.totalFeesSwept = stats.totalFeesSwept ∧ config.feeBps = some stats.currentFeeBps ∧
      config.paused = some stats.isPaused

/-- What the one pass over the events leaves out did not happen. -/
structure Plain (start e : Env) : Prop where
  /-- No reward was ever increased. -/
  kept : rewardsAdded e.history = 0
  /-- No execution was ever charged a fee. -/
  free : feesCharged e.history = 0
  /-- No escrow ever went back to an owner. -/
  settled : rewardsRefunded e.history = 0
  /-- The rate is the assumed one, or was updated since. -/
  fee : feeBps start = 300 ∨ ∃ oldBps newBps, Event.feeUpdated oldBps newBps ∈ e.events
  escrowFits : rewardsRegistered e.history ≤ i128Max
  sweptFits : feesSwept e.history ≤ i128Max

theorem DetachedRun.advanced (fresh : Fresh start) (run : DetachedRun start e) :
    (e.events.filterMap (Event.payload texts)).foldl ProtocolStats.advance .blank =
      ⟨(e.events.filterMap (Event.payload texts)).countP EventPayload.registers,
        rewardsRegistered e.history, rewardsRegistered e.history - keeperShares e.history,
        feesSwept e.history,
        (e.events.filterMap (Event.payload texts)).foldl EventPayload.feeAfter 300,
        isPaused e⟩ := by
  obtain ⟨registered, shares⟩ := @DetachedRun.told texts _ _ fresh run
  have swept := @DetachedRun.swept texts _ _ fresh run
  have configured : Configured texts e := DetachedRun.configured fresh run
  -- The switch starts unpaused, in the registry as in the statistics.
  have switch := foldl_pausedAfter (e.events.filterMap (Event.payload texts)) .blank
  rw [configured.told] at switch
  change _ = isPaused e at switch
  rw [ProtocolStats.foldl_advance, registered, shares, swept, ← switch]
  simp [ProtocolStats.blank, AdminConfig.blank]

theorem exists_feeUpdated (events : List Event) :
    (∃ payload ∈ events.filterMap (Event.payload texts), payload.eventType = .feeUpdated) ↔
      ∃ oldBps newBps, Event.feeUpdated oldBps newBps ∈ events := by
  -- The kind of a payload determines the event it is the payload of.
  constructor
  · rintro ⟨payload, member, kind⟩
    obtain ⟨event, listed, told⟩ := List.mem_filterMap.mp member
    cases event <;> cases told <;> cases kind
    exact ⟨_, _, listed⟩
  · rintro ⟨oldBps, newBps, listed⟩
    exact ⟨.feeUpdated oldBps newBps, List.mem_filterMap.mpr ⟨_, listed, rfl⟩, rfl⟩

theorem DetachedRun.config_agrees_iff (fresh : Fresh start) (run : DetachedRun start e) {db : Db}
    (stored : db.events.map (·.payload) = e.events.filterMap (Event.payload texts))
    (fits : feesSwept e.history ≤ i128Max) :
    (∃ config, AdminConfig.fold db.adminEvents = some config ∧
      config.totalFeesSwept = feesSwept e.history ∧
      config.feeBps =
        some ((e.events.filterMap (Event.payload texts)).foldl EventPayload.feeAfter 300) ∧
      config.paused = some (isPaused e)) ↔
      feeBps start = 300 ∨ ∃ oldBps newBps, Event.feeUpdated oldBps newBps ∈ e.events := by
  have configured : Configured texts e := DetachedRun.configured fresh run
  obtain ⟨stopped, flag⟩ := Option.ne_none_iff_exists'.mp configured.flag
  have told : FeeTold texts (feeBps start) e := DetachedRun.feeTold fresh run
  have whole : narrow (feesSwept e.history) = some (feesSwept e.history) := by
    have positive := DetachedRun.feesSwept_nonneg fresh run
    have signs := i128_signs
    exact if_pos ⟨by omega, fits⟩
  -- Only the rate can differ, by where the two folds start from.
  rw [DetachedRun.config fresh run stored, whole, ← @exists_feeUpdated texts,
    ← foldl_feeAfter_eq]
  constructor
  · rintro ⟨config, folded, -, fee, -⟩
    obtain rfl := Option.some.inj folded
    exact Option.some.inj (told.symm.trans fee)
  · intro same
    refine ⟨_, rfl, rfl, ?_, ?_⟩
    · rw [← same]
      exact told
    · simp [configOf, isPaused, flag]

/-- The fee rate is confirmed, and a task is registered, claimed and executed. -/
def executedPlainly : List Turn := .call [⟨1⟩] (.setFeeBps ⟨1⟩ 0) :: executed 40 1

def increasedAndCancelled : List Turn :=
  [.call [⟨3⟩] (.registerTask ⟨3⟩ { sampleParams with reward := 40 }),
    .call [⟨3⟩] (.increaseReward ⟨3⟩ 1 10), .call [⟨3⟩] (.cancelTask ⟨3⟩ 1)]

end KeeperNetwork.Indexer
