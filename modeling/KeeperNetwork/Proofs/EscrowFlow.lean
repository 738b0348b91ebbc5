import KeeperNetwork.Proofs.Announcements

/-! Where the escrow of open tasks comes from and where it goes, over whole runs. -/

namespace KeeperNetwork

open Soroban

namespace Call

/-- The rewards that a call registers. -/
def registered (call : Call) (value : Value) : Int :=
  ((call.filings value).map fun filing => filing.params.reward).sum

def added : Call → Int
  | .increaseReward _ _ additional => additional
  | _ => 0

/-- What an execution leaves for the keeper that made it. -/
def keeperShare (w : World) : Call → Int
  | .executeTask keeper taskId proof => (executeTask keeper taskId proof).executionNet w keeper
  | _ => 0

/-- The reward of a cancelled or expired task, which goes back to its owner. -/
def refunded (w : World) : Call → Int
  | .cancelTask _ taskId | .expireTask taskId => (w.tasks.lookup taskId).elim 0 Task.reward
  | _ => 0

end Call

def rewardsRegistered (history : List Entry) : Int :=
  receiptTotal (fun receipt => receipt.call.registered receipt.value) history

def rewardsAdded (history : List Entry) : Int :=
  receiptTotal (fun receipt => receipt.call.added) history

/-- What executions ever left for their keepers. -/
def keeperShares (history : List Entry) : Int :=
  receiptTotal (fun receipt => receipt.call.keeperShare receipt.before) history

/-- The protocol's cuts of all executions. -/
def feesCharged (history : List Entry) : Int :=
  receiptTotal (fun receipt => receipt.call.executionFee receipt.before) history

/-- The rewards that ever went back to owners. -/
def rewardsRefunded (history : List Entry) : Int :=
  receiptTotal (fun receipt => receipt.call.refunded receipt.before) history

variable {token : Token} {inv : Invocation} {start e e' : Env} {call : Call} {value : Value}
  {taskId : Nat} {task task' : Task}

theorem total_fileAll_add (weight : Task → Int) (tasks : Finmap fun _ : Nat => Task)
    (filings : List Filing) (distinct : (filings.map Filing.taskId).Nodup)
    (free : ∀ filing ∈ filings, tasks.lookup filing.taskId = none) :
    (fileAll tasks filings).total weight = tasks.total weight +
      (filings.map fun filing => weight (newTask filing.owner filing.params)).sum := by
  induction filings generalizing tasks with
  | nil => simp [fileAll]
  | cons first rest ih =>
    obtain ⟨absent, others⟩ := List.nodup_cons.mp distinct
    obtain ⟨here, later⟩ := List.forall_mem_cons.mp free
    -- The ids of the rest stay free, since none of them is that of the first.
    have still : ∀ filing ∈ rest, (tasks.insert first.taskId
        (newTask first.owner first.params)).lookup filing.taskId = none := by
      intro filing member
      have apart : filing.taskId ≠ first.taskId := fun same =>
        absent (same ▸ List.mem_map_of_mem member)
      rw [Finmap.lookup_insert_of_ne _ apart]
      exact later filing member
    refine (ih _ others still).trans ?_
    rw [Finmap.total_insert, Finmap.weightAt_of_lookup_none _ here, List.map_cons, List.sum_cons]
    omega

attribute [local simp] Call.keeperShare Call.executionFee Call.refunded Task.escrow Call.added

theorem Rewrite.escrow (rewrite : Rewrite e taskId task call task')
    (found : e.tasks.lookup taskId = some task) :
    task'.escrow = task.escrow + call.added - call.keeperShare e -
      call.executionFee e - call.refunded e := by
  cases rewrite with
  | toppedUp _ unfinished | extended _ unfinished =>
    simp [unfinished]
  | reverified _ unclaimed =>
    simp [unclaimed]
  | claimed _ claimable =>
    have unfinished : task.status.isOpen = true := by
      rcases claimable with ⟨status, -⟩ | ⟨status, -⟩ <;> simp [status]
    simp [unfinished]
  | executed claimed =>
    -- The whole reward is split into the keeper's share and the fee.
    simp [claimed, found, Call.executionNet]
  | cancelled _ unfinished | expired unfinished =>
    simp [unfinished, found]

theorem Call.idle_of_subject (about : call.subject = none) (w : World) :
    call.added = 0 ∧ call.keeperShare w = 0 ∧ call.executionFee w = 0 ∧ call.refunded w = 0 := by
  cases call <;> first | exact ⟨rfl, rfl, rfl, rfl⟩ | cases about

theorem Effect.openEscrow (detached : Detached token) (formed : WellFormed e)
    (effect : Effect token inv e call value e') :
    KeeperNetwork.openEscrow e' = KeeperNetwork.openEscrow e +
      call.registered value + call.added - call.keeperShare e -
        call.executionFee e - call.refunded e := by
  unfold KeeperNetwork.openEscrow
  cases effect.taskWrite detached formed with
  | untouched unrequested about tasks =>
    obtain ⟨added, share, fee, refund⟩ := Call.idle_of_subject about e
    obtain ⟨-, none⟩ := Call.taskIds_of_unrequested effect unrequested
    rw [tasks, added, share, fee, refund, Call.registered, none]
    simp
  | rewritten unrequested about found rewrite tasks =>
    obtain ⟨-, none⟩ := Call.taskIds_of_unrequested effect unrequested
    have moved := rewrite.escrow found
    rw [tasks, Finmap.total_insert, Finmap.weightAt_of_lookup _ found, moved, Call.registered, none]
    simp only [List.map_nil, List.sum_nil]
    omega
  | filed about _ numbered consecutive tasks =>
    obtain ⟨added, share, fee, refund⟩ := Call.idle_of_subject about e
    -- The new ids count up from the first that was never given out.
    have distinct : ((call.filings value).map Filing.taskId).Nodup := by
      rw [numbered, consecutive]
      exact List.nodup_range'
    have free : ∀ filing ∈ call.filings value, e.tasks.lookup filing.taskId = none := by
      intro filing member
      have listed : filing.taskId ∈ (call.filings value).map Filing.taskId :=
        List.mem_map_of_mem member
      rw [numbered, consecutive] at listed
      obtain ⟨offset, -, same⟩ := List.mem_range'.mp listed
      exact formed.absent (by omega)
    rw [tasks, total_fileAll_add _ _ _ distinct free, added, share, fee, refund]
    simp [Call.registered, newTask]

theorem DetachedRun.openEscrow (fresh : Fresh start) (run : DetachedRun start e) :
    KeeperNetwork.openEscrow e = rewardsRegistered e.history + rewardsAdded e.history -
      keeperShares e.history - feesCharged e.history - rewardsRefunded e.history := by
  -- Every call books in each total what it moves of the escrow.
  refine DetachedRun.invariant (fun e => KeeperNetwork.openEscrow e =
    rewardsRegistered e.history + rewardsAdded e.history - keeperShares e.history -
      feesCharged e.history - rewardsRefunded e.history) ?_ (fun _ _ _ held => held) ?_ fresh ?_ run
  · intro token inv e e' call value detached formed effect history held
    have moved := effect.openEscrow detached formed
    simp only [Env.record_history, history, Env.record_toWorld, rewardsRegistered, rewardsAdded,
      keeperShares, feesCharged, rewardsRefunded, receiptTotal_call] at held ⊢
    omega
  · intro e balances amount held
    simp only [rewardsRegistered, rewardsAdded, keeperShares, feesCharged, rewardsRefunded,
      receiptTotal_outside] at held ⊢
    exact held
  · simp [KeeperNetwork.openEscrow, fresh.unused.1.tasks, fresh.history, rewardsRegistered,
      rewardsAdded, keeperShares, feesCharged, rewardsRefunded]

/-- What a call moves of the escrow is never negative. -/
structure Call.Flows (call : Call) (value : Value) (w : World) : Prop where
  registered : 0 ≤ call.registered value
  added : 0 ≤ call.added
  share : 0 ≤ call.keeperShare w
  fee : 0 ≤ call.executionFee w
  refund : 0 ≤ call.refunded w
  /-- A call that registers tasks executes none. -/
  either : call.registered value = 0 ∨ call.keeperShare w = 0

/-- No successful call moves a negative amount. -/
theorem Effect.flows (detached : Detached token) (formed : WellFormed e)
    (effect : Effect token inv e call value e') : call.Flows value e := by
  have registered : 0 ≤ call.registered value := by
    cases effect.taskWrite detached formed with
    | untouched unrequested | rewritten unrequested =>
      rw [Call.registered, (Call.taskIds_of_unrequested effect unrequested).2]
      exact le_rfl
    | filed _ valid =>
      refine List.sum_nonneg fun reward member => ?_
      obtain ⟨filing, listed, rfl⟩ := List.mem_map.mp member
      exact (valid filing listed).positive.le
  -- Rewards are positive, and a legal fee leaves both shares of one at least nothing.
  cases effect with
  | increaseReward _ positive => exact ⟨registered, positive.le, le_rfl, le_rfl, le_rfl, .inl rfl⟩
  | @executeTaskHeld keeper _ proof _ _ _ _ _ found _ _ _ _ split
  | @executeTaskPaid keeper _ proof _ _ _ _ _ found _ _ _ _ split =>
    obtain ⟨fee, share⟩ := execution_of_split keeper keeper proof formed found split
    obtain ⟨left, cut⟩ := splitReward_nonneg (formed.tasks _ _ found).positive formed.fee split
    refine ⟨registered, le_rfl, ?_, fee ▸ cut, le_rfl, .inl rfl⟩
    simpa [share] using left
  | cancelTask _ found | expireTask found =>
    refine ⟨registered, le_rfl, le_rfl, le_rfl, ?_, .inl rfl⟩
    simpa [found] using (formed.tasks _ _ found).positive.le
  | _ => exact ⟨registered, le_rfl, le_rfl, le_rfl, le_rfl, .inr rfl⟩

/-- In every run, no call moved a negative amount. -/
theorem DetachedRun.flows (fresh : Fresh start) (run : DetachedRun start e) :
    ∀ receipt, .call receipt ∈ e.history → receipt.call.Flows receipt.value receipt.before :=
  DetachedRun.receipts (fun detached formed effect => effect.flows detached formed) fresh run

end KeeperNetwork
