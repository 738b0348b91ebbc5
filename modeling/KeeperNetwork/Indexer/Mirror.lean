import KeeperNetwork.Indexer.State
import KeeperNetwork.Indexer.Wire
import KeeperNetwork.Proofs.Announcements
import KeeperNetwork.Registry.Views

/-! What the indexer folds from the log of events is what the registry has stored. -/

namespace KeeperNetwork

open Soroban

/-- What its keeper gained in withdrawable and pending rewards when an entry executed a task. -/
def Entry.share (taskId : Nat) : Entry → Option Int
  | .call receipt =>
    match receipt.call with
    | .executeTask keeper about _ =>
      if about = taskId then
        some (entitlement receipt.after keeper - entitlement receipt.before keeper)
      else none
    | _ => none
  | .outside _ => none

def shareCredited (taskId : Nat) (history : List Entry) : Option Int :=
  history.findSome? (Entry.share taskId)

namespace Indexer

@[local simp] def TaskStatus.of : KeeperNetwork.TaskStatus → TaskStatus
  | .pending => .pending
  | .claimed => .claimed
  | .executed => .executed
  | .cancelled => .cancelled
  | .expired => .expired

/-- The part of a task that its events tell. -/
structure TaskView where
  owner : String
  status : TaskStatus
  reward : Int
  deadline : Nat
  condition : Option String
  keeper : Option String
  claimLedger : Option Nat
  netReward : Option Int

namespace TaskView

def ofState (state : TaskState) : TaskView where
  owner := state.owner
  status := state.status
  reward := state.reward
  deadline := state.deadline
  condition := state.condition
  keeper := state.keeper
  claimLedger := state.claimLedger
  netReward := state.netReward

/-- What the registry's record of a task tells, with what was credited when it was executed. -/
def ofTask (texts : TextForms) (share : Option Int) (task : Task) : TaskView where
  owner := texts task.owner
  status := .of task.status
  reward := task.reward
  deadline := task.deadline
  condition := task.condition.map texts
  keeper := task.claimer.map texts
  claimLedger := task.claimLedger
  -- A task that was not executed has no net reward.
  netReward := if task.status = .executed then share else none

def hear (view : Option TaskView) : EventPayload → Option TaskView
  | .taskRegistered _ owner reward deadline condition =>
    some ⟨owner, .pending, reward, deadline, condition, none, none, none⟩
  | .taskClaimed _ keeper claimLedger => view.map fun view =>
    { view with status := .claimed, keeper := some keeper, claimLedger := some claimLedger }
  | .taskExecuted _ keeper netReward _ => view.map fun view =>
    { view with status := .executed, keeper := some keeper, netReward := some netReward }
  | .taskExpired _ => view.map fun view => { view with status := .expired }
  | .taskCancelled .. => view.map fun view => { view with status := .cancelled }
  | .rewardIncreased _ newReward => view.map fun view => { view with reward := newReward }
  | .deadlineExtended _ newDeadline => view.map fun view => { view with deadline := newDeadline }
  | _ => view

end TaskView

open TaskView

@[local simp]
def about (texts : TextForms) (taskId : Nat) (events : List Event) : List EventPayload :=
  (events.filterMap (Event.payload texts)).filter fun payload => payload.taskId = some taskId

variable {texts : TextForms} {token : Token} {inv : Invocation} {start e e' : Env}
  {call : Call} {value : Value} {taskId other : Nat} {task task' : Task} {rows : List IndexedEvent}

theorem about_append (first rest : List Event) :
    about texts taskId (first ++ rest) =
      about texts taskId first ++ about texts taskId rest := by
  simp

theorem ofState_next (state : Option TaskState) (event : IndexedEvent) :
    (TaskState.next taskId state event).map ofState = hear (state.map ofState) event.payload := by
  obtain ⟨⟨ledger, closed, hash, index, payload⟩, cursor⟩ := event
  cases payload <;> cases state <;> rfl

theorem ofState_fold :
    (TaskState.fold taskId rows).map ofState =
      (rows.map fun row => row.payload).foldl hear none := by
  -- The fold and the hearing go over the rows in step, from any state.
  suffices step : ∀ state : Option TaskState,
      (rows.foldl (TaskState.next taskId) state).map ofState =
        (rows.map fun row => row.payload).foldl hear (state.map ofState) from step none
  induction rows with
  | nil => exact fun _ => rfl
  | cons row rows ih =>
    intro state
    rw [List.foldl_cons, ih, ofState_next, List.map_cons, List.foldl_cons]

/-- The record that the log tells of a task is the one that is stored. -/
def Mirrored (texts : TextForms) (taskId : Nat) (e : Env) : Prop :=
  (about texts taskId e.events).foldl hear none =
    (e.tasks.lookup taskId).map (ofTask texts (shareCredited taskId e.history))

theorem share_of_subject {receipt : Receipt} (apart : receipt.call.subject ≠ some taskId) :
    (Entry.call receipt).share taskId = none := by
  unfold Entry.share
  dsimp only
  -- Only an execution has a share, and its task is its subject.
  split
  · next keeper named proof called =>
    rw [called] at apart
    exact if_neg fun same => apart (congrArg some same)
  · rfl

attribute [local simp] Event.payload Call.announces EventPayload.taskId

theorem about_of_subject (w : World) (value : Value) (subject : call.subject = some other)
    (apart : taskId ≠ other) : about texts taskId (call.announces w value) = [] := by
  cases call <;> cases subject <;>
    simp [Ne.symm apart]

theorem about_of_none (w : World) (value : Value) (subject : call.subject = none) :
    about texts taskId (call.announces w value) =
      about texts taskId ((call.filings value).map Filing.event) := by
  -- What such a call announces about tasks are its filings.
  cases call with
  | registerTask | batchRegisterTasks => rfl
  | withdrawRewards =>
    cases value <;> simp [Call.filings]
  | withdrawStake | slash => cases value <;> rfl
  | increaseReward | extendDeadline | updateVerifier | claimTask | executeTask | cancelTask
  | expireTask => cases subject
  | disputeExecution => simp [Call.filings]
  | _ => rfl

attribute [local simp] Filing.event ofTask

theorem hear_filings (share : Option Int) (tasks : Finmap fun _ : Nat => Task)
    (filings : List Filing) :
    (about texts taskId (filings.map Filing.event)).foldl hear
        ((tasks.lookup taskId).map (ofTask texts share)) =
      ((fileAll tasks filings).lookup taskId).map (ofTask texts share) := by
  -- One filing at a time, about this task or about another.
  induction filings generalizing tasks with
  | nil => rfl
  | cons first rest ih =>
    have later := ih (tasks.insert first.taskId (newTask first.owner first.params))
    rw [List.map_cons, ← List.singleton_append, about_append, List.foldl_append]
    refine Eq.trans ?_ later
    congr 1
    by_cases here : first.taskId = taskId
    · simp [here, hear, newTask]
    · simp [here, Finmap.lookup_insert_of_ne _ (Ne.symm here)]

theorem Effect.executed_share {keeper : Address} {proof : Bytes} (formed : WellFormed e)
    (effect : Effect token inv e (.executeTask keeper taskId proof) value e') :
    entitlement e' keeper - entitlement e keeper =
      (Call.executeTask keeper taskId proof).executionNet e keeper := by
  -- An execution moves no tokens, so any token stands for the one of the call.
  have alone : Effect skipTransfer inv e (.executeTask keeper taskId proof) value e' := by
    cases effect with
    | executeTaskHeld permitted short found claimed claimer ahead approved split window fits =>
      exact .executeTaskHeld permitted short found claimed claimer ahead approved split window fits
    | executeTaskPaid permitted short found claimed claimer ahead approved split window stored
        fits =>
      exact .executeTaskPaid permitted short found claimed claimer ahead approved split window
        stored fits
  have written := (rewardsFund_sound keeper).writes formed rfl alone
  simp only [rewardsFund, Call.rewardsWithdrawn, Call.forfeitedFrom, Call.forfeit,
    Option.elim_none] at written
  omega

theorem hear_rewrite (formed : WellFormed e) (effect : Effect token inv e call value e')
    (found : e.tasks.lookup taskId = some task) (rewrite : Rewrite e taskId task call task') :
    (about texts taskId (call.announces e value)).foldl hear
        (some (ofTask texts (shareCredited taskId e.history) task)) =
      some (ofTask texts (shareCredited taskId
        (.call ⟨e, call, value, e'⟩ :: e.history)) task') := by
  cases rewrite with
  | toppedUp _ unsettled | extended _ unsettled =>
    have unfinished : task.status ≠ .executed := by
      intro done
      simp [done] at unsettled
    simp [found, hear, unfinished]
  | reverified _ unclaimed =>
    -- A verifier is nothing the indexer hears of.
    simp [found, List.filterMap_cons, unclaimed]
  | @claimed keeper _ _ claimable =>
    have unfinished : task.status ≠ .executed := by
      rcases claimable with ⟨status, -⟩ | ⟨status, -⟩ <;> simp [status]
    simp [hear, unfinished]
  | @executed keeper proof claimed claimer =>
    have share := Effect.executed_share formed effect
    simp [hear, shareCredited, Entry.share, share, claimer]
  | cancelled _ unsettled | expired unsettled =>
    have unfinished : task.status ≠ .executed := by
      intro done
      simp [done] at unsettled
    simp [hear, unfinished]

/-- A call keeps the mirrored task in step with the stored one. -/
theorem Effect.mirrored (detached : Detached token) (formed : WellFormed e)
    (effect : Effect token inv e call value e') (history : e'.history = e.history)
    (mirrored : Mirrored texts taskId e) : Mirrored texts taskId (e'.record e call value) := by
  unfold Mirrored at mirrored ⊢
  have logged : (e'.record e call value).events =
      e.events ++ call.announces e value := by
    change e'.events = _
    exact effect.announces detached formed
  rw [logged, about_append, List.foldl_append, mirrored, Env.record_history, history,
    Env.record_toWorld]
  by_cases subject : call.subject = some taskId
  · cases effect.taskWrite detached formed with
    | untouched _ none | filed none => simp [none] at subject
    | rewritten _ named found rewrite tasks =>
      obtain rfl := Option.some.inj (named.symm.trans subject)
      rw [found, tasks, Finmap.lookup_insert]
      exact hear_rewrite formed effect found rewrite
  · -- The call leaves the share of this task alone.
    have silent : (Entry.call ⟨e, call, value, e'⟩).share taskId = none :=
      share_of_subject subject
    have share : shareCredited taskId (.call ⟨e, call, value, e'⟩ :: e.history) =
        shareCredited taskId e.history := by
      rw [shareCredited, List.findSome?_cons, silent]
      rfl
    rw [share]
    cases effect.taskWrite detached formed with
    | untouched unrequested none tasks =>
      rw [about_of_none _ _ none, (Call.taskIds_of_unrequested effect unrequested).2, tasks]
      rfl
    | @rewritten named _ _ _ about _ _ tasks =>
      have apart : taskId ≠ named := fun same => subject (about.trans (congrArg some same.symm))
      rw [about_of_subject _ _ about apart, tasks, Finmap.lookup_insert_of_ne _ apart]
      rfl
    | filed none _ _ _ tasks =>
      rw [about_of_none _ _ none, tasks]
      exact hear_filings _ _ _

theorem DetachedRun.mirrored (fresh : Fresh start) (run : DetachedRun start e) (taskId : Nat) :
    Mirrored texts taskId e := by
  refine DetachedRun.invariant (Mirrored texts taskId) Effect.mirrored (fun _ _ _ held => held)
    (fun _ _ _ held => held) fresh ?_ run
  -- Only the initialization was published, which concerns no task.
  obtain ⟨admin, rewardToken, bps, initialized⟩ := fresh.initialized
  unfold Mirrored
  rw [initialized.events, fresh.unused.1.tasks]
  rfl

@[local simp] def configOf (texts : TextForms) (e : Env) : AdminConfig where
  admin := e.admin.map texts
  rewardToken := e.rewardToken.map texts
  feeBps := e.feeBps
  paused := e.paused
  minReward := e.minReward
  -- The registry does not count what was swept.
  totalFeesSwept := 0
  currentWasmHash := e.wasm.map texts.hex

/-- The configuration that the log tells is the one that is stored. -/
structure Configured (texts : TextForms) (e : Env) : Prop where
  told : (e.events.filterMap (Event.payload texts)).foldl AdminConfig.configure .blank =
    configOf texts e
  fee : e.feeBps ≠ none
  flag : e.paused ≠ none

theorem Configured.next (configured : Configured texts e) {news : List Event}
    (events : e'.events = e.events ++ news)
    (told : (news.filterMap (Event.payload texts)).foldl AdminConfig.configure
      (configOf texts e) = configOf texts e') (fee : e'.feeBps ≠ none) (flag : e'.paused ≠ none) :
    Configured texts e' := by
  refine ⟨?_, fee, flag⟩
  rw [events, List.filterMap_append, List.foldl_append, configured.told, told]

def configures : Call → Bool
  | .initializeRegistry .. | .pause _ | .unpause _ | .setFeeBps .. | .setMinReward ..
  | .transferAdmin .. | .upgrade .. => true
  | _ => false

attribute [local simp] AdminConfig.configure

theorem configure_announces (w : World) (value : Value) (quiet : configures call = false)
    (config : AdminConfig) :
    ((call.announces w value).filterMap (Event.payload texts)).foldl AdminConfig.configure
      config = config := by
  -- None of the payloads is of a kind that the configuration is read from.
  have silent : ∀ payload ∈ (call.announces w value).filterMap (Event.payload texts),
      ∀ config, AdminConfig.configure config payload = config := by
    cases call with
    | initializeRegistry | pause | unpause | setFeeBps | setMinReward | transferAdmin
    | upgrade => cases quiet
    | withdrawRewards =>
      cases value <;> simp
    | withdrawStake | slash => cases value <;> exact List.forall_mem_nil _
    | registerTask | batchRegisterTasks | increaseReward | updateVerifier | disputeExecution =>
      simp
    | sweepFees | extendDeadline | claimTask | executeTask | cancelTask | expireTask =>
      exact List.forall_mem_singleton.mpr fun _ => rfl
    | _ => exact List.forall_mem_nil _
  generalize (call.announces w value).filterMap (Event.payload texts) = payloads at silent
  induction payloads with
  | nil => rfl
  | cons payload rest ih =>
    obtain ⟨here, later⟩ := List.forall_mem_cons.mp silent
    rw [List.foldl_cons, here]
    exact ih later

/-- Any other call leaves the stored configuration alone. -/
theorem Effect.configOf_quiet (detached : Detached token)
    (effect : Effect token inv e call value e') (quiet : configures call = false) :
    configOf texts e' = configOf texts e := by
  -- The configuration is read from fields that only the listed calls write.
  cases effect with
  | initializeRegistry | pause | unpause | setFeeBps | setMinReward | transferAdmin | upgrade =>
    cases quiet
  | batchRegisterTasks _ _ _ _ _ _ _ _ registered =>
    obtain ⟨-, -, same⟩ := registered.outcome detached
    rw [same]
    rfl
  | _ =>
    try obtain ⟨balances, rfl⟩ := detached ‹_›
    simp

theorem Effect.configured (detached : Detached token) (formed : WellFormed e)
    (effect : Effect token inv e call value e') (configured : Configured texts e) :
    Configured texts e' := by
  have events := effect.announces detached formed
  -- A call that does not configure announces nothing the fold reads.
  cases quiet : configures call with
  | false =>
    have same : configOf texts e' = configOf texts e :=
      Effect.configOf_quiet detached effect quiet
    have fee : e'.feeBps = e.feeBps := congrArg AdminConfig.feeBps same
    have flag : e'.paused = e.paused := congrArg AdminConfig.paused same
    refine configured.next events ?_ (fee ▸ configured.fee) (flag ▸ configured.flag)
    rw [configure_announces _ _ quiet, same]
  | true =>
    -- A call that configures announces the very value it stores.
    have fee := configured.fee
    have flag := configured.flag
    cases effect with
    | initializeRegistry absent => exact absurd absent formed.ready
    | pause | unpause | setFeeBps | setMinReward | transferAdmin | upgrade =>
      refine configured.next events ?_ (by simp [fee]) (by simp [flag])
      simp
    | _ => cases quiet

theorem Fresh.wasm (fresh : Fresh e) : e.wasm = none := by
  obtain ⟨blank, inv, admin, rewardToken, bps, empty, -, ran⟩ := fresh
  simp [initializeRegistry] at ran
  obtain ⟨-, -, -, rfl⟩ := ran
  simpa using empty.wasm

theorem DetachedRun.configured (fresh : Fresh start) (run : DetachedRun start e) :
    Configured texts e := by
  refine DetachedRun.invariant (Configured texts) ?_ (fun _ _ _ held => ⟨held.1, held.2, held.3⟩)
    (fun _ _ _ held => ⟨held.1, held.2, held.3⟩) fresh ?_ run
  · intro token inv e e' call value detached formed effect _ held
    obtain ⟨told, fee, flag⟩ := Effect.configured detached formed effect held
    exact ⟨told, fee, flag⟩
  · -- The first announcement is that of the initialization.
    obtain ⟨admin, rewardToken, bps, initialized⟩ := fresh.initialized
    have code := Fresh.wasm fresh
    refine ⟨?_, by simp [initialized.feeBps], by simp [initialized.paused]⟩
    simp [initialized.events, AdminConfig.blank, initialized.admin, initialized.rewardToken,
      initialized.feeBps, initialized.paused, initialized.minReward, code]

def EventPayload.swept : EventPayload → Int
  | .feesSwept _ amount _ => amount
  | _ => 0

def feesSwept (history : List Entry) : Int :=
  receiptTotal (fun receipt => receipt.call.swept) history

/-- What the indexer knows of a log counts for what its events count for. -/
theorem sum_payloads (weight : EventPayload → Int) (events : List Event) :
    ((events.filterMap (Event.payload texts)).map weight).sum =
      eventTotal (fun event => (event.payload texts).elim 0 weight) events := by
  -- An event without a payload weighs nothing.
  induction events with
  | nil => rfl
  | cons event rest ih =>
    rw [List.filterMap_cons, eventTotal, List.map_cons, List.sum_cons]
    cases event.payload texts with
    | none | some payload => simpa [eventTotal] using ih

theorem swept_announces (call : Call) (w : World) (value : Value) :
    eventTotal (fun event => (event.payload texts).elim 0 EventPayload.swept)
      (call.announces w value) = call.swept := by
  -- Only a sweep announces fees, once and in full.
  cases call with
  | withdrawRewards =>
    cases value <;>
      simp [eventTotal, EventPayload.swept, Function.comp_def]
  | withdrawStake | slash => cases value <;> rfl
  | registerTask | batchRegisterTasks | increaseReward | updateVerifier | disputeExecution =>
    simp [eventTotal, EventPayload.swept, Function.comp_def]
  | sweepFees admin treasury amount => exact Int.add_zero amount
  | _ => rfl

theorem DetachedRun.payloads {weight : EventPayload → Int} {amount : World → Call → Value → Int}
    (first : ∀ admin rewardToken bps, weight (.initialized admin rewardToken bps) = 0)
    (announces : ∀ (call : Call) (w : World) (value : Value),
      eventTotal (fun event => (event.payload texts).elim 0 weight) (call.announces w value) =
        amount w call value) (fresh : Fresh start) (run : DetachedRun start e) :
    ((e.events.filterMap (Event.payload texts)).map weight).sum =
      receiptTotal (fun receipt => amount receipt.before receipt.call receipt.value)
        e.history := by
  obtain ⟨admin, rewardToken, bps, initialized⟩ := fresh.initialized
  -- The initialization announces nothing of weight.
  have silent :
      eventTotal (fun event => (event.payload texts).elim 0 weight) start.events = 0 := by
    rw [initialized.events]
    simp [eventTotal, first]
  rw [sum_payloads, DetachedRun.log fresh run, eventTotal_append, eventTotal_announced, silent,
    zero_add]
  simp only [announces]

theorem DetachedRun.swept (fresh : Fresh start) (run : DetachedRun start e) :
    ((e.events.filterMap (Event.payload texts)).map EventPayload.swept).sum =
      feesSwept e.history :=
  DetachedRun.payloads (fun _ _ _ => rfl) swept_announces fresh run

theorem DetachedRun.feesSwept_nonneg (fresh : Fresh start) (run : DetachedRun start e) :
    0 ≤ feesSwept e.history := by
  refine receiptTotal_nonneg (DetachedRun.receipts ?_ fresh run)
  intro token inv e e' call value _ _ effect
  -- Only a sweep counts, and it takes a positive amount.
  cases effect with
  | sweepFees _ positive => exact positive.le
  | _ => exact le_rfl

/-- What every call makes true of the payloads it announces is true of all that the log tells. -/
theorem DetachedRun.payloads_all {holds : EventPayload → Prop}
    (first : ∀ admin rewardToken bps, holds (.initialized admin rewardToken bps))
    (announced : ∀ {token : Token} {inv : Invocation} {e e' : Env} {call : Call} {value : Value},
      WellFormed e → Effect token inv e call value e' →
      ∀ event ∈ call.announces e value, ∀ payload, event.payload texts = some payload →
        holds payload) (fresh : Fresh start) (run : DetachedRun start e) :
    ∀ payload ∈ e.events.filterMap (Event.payload texts), holds payload := by
  have all : ∀ event ∈ e.events, ∀ payload, event.payload texts = some payload →
      holds payload := by
    refine DetachedRun.log_all ?_ announced fresh run
    rintro admin rewardToken bps _ ⟨⟩
    exact first _ _ _
  intro payload member
  obtain ⟨event, listed, told⟩ := List.mem_filterMap.mp member
  exact all event listed payload told

theorem DetachedRun.swept_nonneg (fresh : Fresh start) (run : DetachedRun start e) :
    ∀ payload ∈ e.events.filterMap (Event.payload texts), 0 ≤ payload.swept := by
  -- It suffices to look at what one call adds to the log.
  refine DetachedRun.payloads_all (fun _ _ _ => le_rfl) ?_ fresh run
  rintro token inv e e' call value - effect event listed payload told
  cases event <;> cases told <;> try exact le_rfl
  cases effect with
  | sweepFees _ positive =>
    simp only [Call.announces, List.mem_singleton, Event.feesSwept.injEq] at listed
    exact listed.2.1 ▸ positive.le
  | _ => simp at listed

theorem AdminConfig.fold_payloads (rows : List IndexedEvent) :
    AdminConfig.fold rows = ((rows.map fun row => row.payload).foldlM AdminConfig.sweep 0).map
      fun swept => { (rows.map fun row => row.payload).foldl AdminConfig.configure .blank with
        totalFeesSwept := swept } := by
  -- The settings and the running sum are folded side by side, and do not meet.
  suffices step : ∀ config swept, rows.foldlM AdminConfig.next (config, swept) =
      ((rows.map fun row => row.payload).foldlM AdminConfig.sweep swept).map fun swept =>
        ((rows.map fun row => row.payload).foldl AdminConfig.configure config, swept) by
    unfold AdminConfig.fold
    rw [step]
    cases (rows.map fun row => row.payload).foldlM AdminConfig.sweep 0 <;> rfl
  induction rows with
  | nil => exact fun _ _ => rfl
  | cons row rows ih =>
    intro config swept
    rw [List.foldlM_cons, List.map_cons, List.foldlM_cons, List.foldl_cons, AdminConfig.next]
    cases AdminConfig.sweep swept row.payload with
    | none => rfl
    | some swept' => exact ih _ swept'

theorem AdminConfig.foldlM_sweep {payloads : List EventPayload}
    (nonneg : ∀ payload ∈ payloads, 0 ≤ payload.swept) :
    payloads.foldlM AdminConfig.sweep 0 = narrow (payloads.map EventPayload.swept).sum := by
  -- Adding nothing to a sum that fits cannot overflow.
  have adds : ∀ (total : Int) (payload : EventPayload), 0 ≤ total → total ≤ i128Max →
      AdminConfig.sweep total payload = narrow (total + payload.swept) := by
    intro total payload started fits
    have signs := i128_signs
    cases payload with
    | feesSwept => rfl
    | _ =>
      simp only [AdminConfig.sweep, EventPayload.swept, add_zero]
      exact (if_pos ⟨by omega, fits⟩).symm
  have summed := foldlM_narrow adds nonneg le_rfl i128_signs.2.le
  rwa [zero_add] at summed

theorem AdminConfig.foldl_filter (payloads : List EventPayload) (config : AdminConfig) :
    (payloads.filter fun payload => payload.eventType ∈ Db.adminTypes).foldl
        AdminConfig.configure config = payloads.foldl AdminConfig.configure config ∧
      ((payloads.filter fun payload => payload.eventType ∈ Db.adminTypes).map
        EventPayload.swept).sum = (payloads.map EventPayload.swept).sum := by
  induction payloads generalizing config with
  | nil => exact ⟨rfl, rfl⟩
  | cons payload rest ih =>
    rw [List.filter_cons]
    split
    · obtain ⟨same, total⟩ := ih (config.configure payload)
      exact ⟨same, by rw [List.map_cons, List.sum_cons, total, List.map_cons, List.sum_cons]⟩
    · next other =>
      obtain ⟨same, total⟩ := ih config
      -- What the query leaves out neither configures nor sweeps.
      have silent : config.configure payload = config ∧ payload.swept = 0 := by
        cases payload <;> first | exact ⟨rfl, rfl⟩ | exact absurd rfl other
      rw [List.foldl_cons, List.map_cons, List.sum_cons, silent.1, silent.2, zero_add]
      exact ⟨same, total⟩

/-- What the indexer's state of a task has in common with the registry's record. -/
structure TaskMirror (texts : TextForms) (history : List Entry) (taskId : Nat)
    (state : TaskState) (task : Task) : Prop where
  owner : state.owner = texts task.owner
  status : state.status = .of task.status
  reward : state.reward = task.reward
  deadline : state.deadline = task.deadline
  condition : state.condition = task.condition.map texts
  keeper : state.keeper = task.claimer.map texts
  claimLedger : state.claimLedger = task.claimLedger
  /-- The net reward is what was credited to the keeper at the execution. -/
  netReward : state.netReward =
    if task.status = .executed then shareCredited taskId history else none

/-- What the indexer's configuration has in common with the registry's. -/
structure AdminMirror (texts : TextForms) (config : AdminConfig) (e : Env) : Prop where
  admin : config.admin = e.admin.map texts
  rewardToken : config.rewardToken = e.rewardToken.map texts
  feeBps : config.feeBps = some (feeBps e)
  paused : config.paused = some (isPaused e)
  /-- A minimal reward is known once it was ever set. -/
  minReward : config.minReward = e.minReward
  swept : config.totalFeesSwept = feesSwept e.history

/-- The state folded from a store with the log tells what the registry has stored. -/
theorem DetachedRun.view (fresh : Fresh start) (run : DetachedRun start e) {db : Db}
    (stored : db.events.map (·.payload) = e.events.filterMap (Event.payload texts)) (taskId : Nat) :
    (TaskState.fold taskId (db.taskHistory taskId)).map ofState =
      (e.tasks.lookup taskId).map (ofTask texts (shareCredited taskId e.history)) := by
  -- The task's history holds the payloads about it, in order.
  have told : (db.taskHistory taskId).map (fun row => row.payload) =
      about texts taskId e.events := by
    rw [about, ← stored, List.filter_map]
    rfl
  rw [ofState_fold, told]
  exact DetachedRun.mirrored fresh run taskId

/-- A state and a record that tell the same have everything in common. -/
theorem TaskMirror.of_view {history : List Entry} {state : TaskState}
    (same : ofState state = ofTask texts (shareCredited taskId history) task) :
    TaskMirror texts history taskId state task where
  owner := congrArg TaskView.owner same
  status := congrArg TaskView.status same
  reward := congrArg TaskView.reward same
  deadline := congrArg TaskView.deadline same
  condition := congrArg TaskView.condition same
  keeper := congrArg TaskView.keeper same
  claimLedger := congrArg TaskView.claimLedger same
  netReward := congrArg TaskView.netReward same

/-- The configuration folded from a store with the log, while the sum of fees fits. -/
theorem DetachedRun.config (fresh : Fresh start) (run : DetachedRun start e) {db : Db}
    (stored : db.events.map (·.payload) = e.events.filterMap (Event.payload texts)) :
    AdminConfig.fold db.adminEvents = (narrow (feesSwept e.history)).map
      fun swept => { configOf texts e with totalFeesSwept := swept } := by
  -- The query for the configuration reads the payloads of its kinds, in order.
  have told : db.adminEvents.map (fun row => row.payload) =
      (e.events.filterMap (Event.payload texts)).filter
        fun payload => payload.eventType ∈ Db.adminTypes := by
    rw [← stored, List.filter_map]
    rfl
  have nonneg : ∀ payload ∈ e.events.filterMap (Event.payload texts), 0 ≤ payload.swept :=
    DetachedRun.swept_nonneg fresh run
  obtain ⟨configured, total⟩ := AdminConfig.foldl_filter
    (e.events.filterMap (Event.payload texts)) .blank
  rw [AdminConfig.fold_payloads, told, AdminConfig.foldlM_sweep fun payload member =>
    nonneg payload (List.mem_of_mem_filter member), total, configured,
    DetachedRun.swept fresh run, (DetachedRun.configured fresh run).told]

/--
The indexer mirrors the registry: every task always, and the configuration exactly while the fees
ever swept fit the type they are summed in.

The log of any run is fed through the parser into a fresh store, wherever the network placed its
events.
-/
theorem indexer_mirrors_iff (fresh : Fresh start) (run : DetachedRun start e)
    (stamps : List Stamp) (complete : stamps.length = e.events.length)
    (distinct : (stamps.map Stamp.key).Nodup) :
    ∃ outcome after,
      (ingestBatch (published texts stamps e.events)).run Process.blank = .ok outcome after ∧
      (∀ taskId,
        ((∃ state, TaskState.fold taskId (after.db.taskHistory taskId) = some state) ↔
          ∃ task, getTask e taskId = .ok task) ∧
        ∀ state task, TaskState.fold taskId (after.db.taskHistory taskId) = some state →
          getTask e taskId = .ok task → TaskMirror texts e.history taskId state task) ∧
      ((∃ config, AdminConfig.fold after.db.adminEvents = some config ∧
          AdminMirror texts config e) ↔ feesSwept e.history ≤ i128Max) := by
  obtain ⟨outcome, after, ran, stored⟩ := ingestBatch_published texts complete distinct
  refine ⟨outcome, after, ran, fun taskId => ?_, ?_⟩
  · -- The fold of a task's history and the stored task show the same view.
    have view := DetachedRun.view fresh run stored taskId
    unfold getTask
    cases found : e.tasks.lookup taskId with
    | none =>
      rw [found, Option.map_none, Option.map_eq_none_iff] at view
      simp [view]
    | some task =>
      rw [found, Option.map_some, Option.map_eq_some_iff] at view
      obtain ⟨state, folded, same⟩ := view
      refine ⟨⟨fun _ => ⟨task, rfl⟩, fun _ => ⟨state, folded⟩⟩, ?_⟩
      rintro _ _ again ⟨⟩
      obtain rfl := Option.some.inj (folded.symm.trans again)
      exact .of_view same
  · rw [DetachedRun.config fresh run stored]
    have configured : Configured texts e := DetachedRun.configured fresh run
    obtain ⟨bps, fee⟩ := Option.ne_none_iff_exists'.mp configured.fee
    obtain ⟨stopped, flag⟩ := Option.ne_none_iff_exists'.mp configured.flag
    -- The running sum is the only part of the fold that can fail.
    constructor
    · rintro ⟨config, folded, -⟩
      obtain ⟨swept, fits, -⟩ := Option.map_eq_some_iff.mp folded
      exact (narrow_eq_some.mp fits).2.2
    · intro fits
      have whole : narrow (feesSwept e.history) = some (feesSwept e.history) := by
        have positive := DetachedRun.feesSwept_nonneg fresh run
        have signs := i128_signs
        exact if_pos ⟨by omega, fits⟩
      rw [whole]
      refine ⟨_, rfl, rfl, rfl, ?_, ?_, rfl, rfl⟩
      · simp [feeBps, fee]
      · simp [isPaused, flag]

/-- A text form of addresses, for scripted runs. -/
def sampleTexts : TextForms where
  strkey address := String.ofList (List.replicate address.id 'G')
  hex bytes := String.ofList (bytes.flatMap fun byte =>
    [Nat.digitChar (byte.toNat / 16), Nat.digitChar (byte.toNat % 16)])

/-- Events of one transaction, for scripted runs. -/
def sampleStamps (events : List Event) : List Stamp :=
  (List.range events.length).map fun index => ⟨7, 35, "tx", index⟩

/-- A registry without fees whose task owner holds most of what a balance can hold. -/
def feeless : Env :=
  genesis ⟨0⟩ ⟨1⟩ ⟨2⟩ 0 (heldBy ⟨3⟩ (10 ^ 38) (by decide) (by decide)) 7 30

def executed (reward : Int) (taskId : Nat) : List Turn :=
  [.call [⟨3⟩] (.registerTask ⟨3⟩ { sampleParams with reward }),
    .call [⟨4⟩] (.claimTask ⟨4⟩ taskId), .call [⟨4⟩] (.executeTask ⟨4⟩ taskId [])]

/-- The execution of a task is disputed, the dispute upheld, and the forfeit swept. -/
def forfeitedAndSwept (reward : Int) (taskId : Nat) : List Turn :=
  [.call [⟨3⟩] (.disputeExecution ⟨3⟩ taskId),
    .call [⟨1⟩] (.resolveExecutionDispute ⟨1⟩ taskId true),
    .call [⟨1⟩] (.sweepFees ⟨1⟩ ⟨3⟩ reward)]

/-- After a task was executed, the indexer has its share and the configuration. -/
theorem indexer_mirrors_executed :
    ∃ outcome after, (ingestBatch (published sampleTexts
        (sampleStamps (play feeless (executed 40 1)).events)
        (play feeless (executed 40 1)).events)).run Process.blank = .ok outcome after ∧
      (∃ state, TaskState.fold 1 (after.db.taskHistory 1) = some state ∧
        state.status = .executed ∧ state.netReward = some 40) ∧
      ∃ config, AdminConfig.fold after.db.adminEvents = some config ∧
        AdminMirror sampleTexts config (play feeless (executed 40 1)) := by
  have run : ExactRun feeless (play feeless (executed 40 1)) := Playable.run (by decide)
  obtain ⟨outcome, after, ran, tasks, config⟩ := indexer_mirrors_iff (genesis_fresh (by decide))
    (ExactRun.detached run) (sampleStamps (play feeless (executed 40 1)).events)
    (by decide) (by decide)
  obtain ⟨state, folded⟩ := (tasks 1).1.mpr ⟨_, rfl⟩
  have mirror := (tasks 1).2 state _ folded rfl
  exact ⟨outcome, after, ran, ⟨state, folded, mirror.status, mirror.netReward⟩,
    config.mpr (by decide)⟩

/-- The same tokens are registered as a reward, forfeited and swept back twice. -/
def sweptTwice : List Turn :=
  .call [⟨1⟩] (.setDisputeWindow ⟨1⟩ 10) ::
    (executed (10 ^ 38) 1 ++ forfeitedAndSwept (10 ^ 38) 1 ++
      executed (10 ^ 38) 2 ++ forfeitedAndSwept (10 ^ 38) 2)

/-- Sweeping more than a balance can hold, over time, makes the fold of the configuration panic. -/
theorem indexer_overflows_swept :
    Playable feeless sweptTwice ∧ feesSwept (play feeless sweptTwice).history = 2 * 10 ^ 38 ∧
      ∃ outcome after, (ingestBatch (published sampleTexts
          (sampleStamps (play feeless sweptTwice).events)
          (play feeless sweptTwice).events)).run Process.blank = .ok outcome after ∧
        AdminConfig.fold after.db.adminEvents = none := by
  have playable : Playable feeless sweptTwice := by decide
  have swept : feesSwept (play feeless sweptTwice).history = 2 * 10 ^ 38 := by decide
  have complete : (sampleStamps (play feeless sweptTwice).events).length =
      (play feeless sweptTwice).events.length := by
    unfold sampleStamps
    rw [List.length_map, List.length_range]
  obtain ⟨outcome, after, ran, stored⟩ :=
    ingestBatch_published sampleTexts complete (by decide)
  refine ⟨playable, swept, outcome, after, ran, ?_⟩
  -- What the fold would have to report does not fit its type.
  rw [DetachedRun.config (genesis_fresh (by decide))
    (ExactRun.detached playable.run) stored, swept]
  rfl

end Indexer

end KeeperNetwork
