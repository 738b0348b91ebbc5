import KeeperNetwork.Indexer.Mirror

/-! What the indexer says a keeper earned and has left, against what the registry owes it. -/

namespace KeeperNetwork

open Soroban

@[local simp] def Call.credited (w : World) (keeper : Address) : Call → Int
  | .executeTask executor taskId proof =>
    -- While a dispute window is configured, the share is held back instead.
    if disputeWindowLedgers w = 0 then (executeTask executor taskId proof).executionNet w keeper
    else 0
  | .withdrawRewards withdrawer =>
    if withdrawer = keeper then creditsTotal (readyCredits (pendingCreditsOf w keeper) w.sequence)
    else 0
  | _ => 0

@[local simp] def balanceFund (keeper : Address) : Fund where
  stock w := keeperBalance w keeper
  flow w call value := call.credited w keeper - call.rewardsWithdrawn keeper value

attribute [local simp] keeperRewardOf keeperBalance

theorem balanceFund_sound (keeper : Address) : (balanceFund keeper).Sound where
  reads same := by simp only [balanceFund, keeperBalance, keeperRewardOf, same.rewards]
  quiet w call value quiet := by
    cases call <;> first | rfl | cases quiet
  writes {inv e e' call value} formed loud effect := by
    -- A balance grows by what is paid at once or becomes ready, and is emptied by a withdrawal.
    cases effect with
    | executeTaskHeld _ _ _ _ _ _ _ _ window =>
      simp [window.ne']
    | @executeTaskPaid executor taskId proof _ keeperNet _ _ _ found _ _ _ _ split window =>
      obtain ⟨-, net⟩ := execution_of_split executor keeper proof formed found split
      by_cases same : keeper = executor
      · subst same
        simp [window, net]
      · simp [window, net, same]
    | @withdrawRewards withdrawer _ _ balance _ _ readied waiting _ owed _ _ moved =>
      obtain rfl := skipTransfer_returns.mp moved
      subst readied waiting
      by_cases same : keeper = withdrawer
      · subst same
        simp [creditsTotal] at owed ⊢
        omega
      · by_cases empty : readyCredits (pendingCreditsOf e withdrawer) e.sequence = []
        · simp [same, Ne.symm same, empty]
        · simp [same, Ne.symm same, empty]
    | sweepFees | stakeDeposit | initiateUnbond | withdrawStake | slashStake | slashUnbond
    | rejectSlashAppeal | upholdSlashAppeal | disputeExecution | upholdDispute | releaseDispute =>
      try obtain rfl := skipTransfer_returns.mp ‹_›
      simp
    | _ => simp [Call.quiet] at loud

theorem WellFormed.entitlement_nonneg {w : World} (formed : WellFormed w) (keeper : Address) :
    0 ≤ entitlement w keeper := by
  -- Neither the balance nor any pending credit is negative.
  have balance := formed.rewardOf_nonneg keeper
  have pending : 0 ≤ creditsTotal (pendingCreditsOf w keeper) :=
    List.sum_nonneg (List.forall_mem_map.mpr fun credit listed => formed.credit_nonneg listed)
  exact add_nonneg balance pending

theorem Call.forfeitedFrom_nonneg {w : World} (formed : WellFormed w) (keeper : Address)
    (call : Call) : 0 ≤ call.forfeitedFrom w keeper := by
  unfold Call.forfeitedFrom
  cases taken : call.forfeit w with
  | none => exact le_rfl
  | some pair =>
    obtain ⟨owner, credit⟩ := pair
    -- What is taken away was one of the keeper's pending credits.
    have listed : credit ∈ pendingCreditsOf w owner := by
      unfold Call.forfeit at taken
      split at taken
      · simp only [Option.bind_eq_bind, Option.bind_eq_some_iff, Option.pure_def,
          Option.some.injEq, Prod.mk.injEq] at taken
        obtain ⟨task, -, _, -, _, found, rfl, rfl⟩ := taken
        exact List.mem_of_find?_eq_some found
      · cases taken
    simp only [Option.elim_some]
    split
    · exact formed.credit_nonneg listed
    · exact le_rfl

namespace Indexer

@[local simp] def EventPayload.earned : EventPayload → Int
  | .taskExecuted _ _ netReward _ => netReward
  | _ => 0

def EventPayload.withdrawn : EventPayload → Int
  | .rewardsWithdrawn _ amount => amount
  | _ => 0

@[local simp]
def EventPayload.naming (keeper : String) (weight : EventPayload → Int) (payload : EventPayload) :
    Int :=
  if payload.keeper = some keeper then weight payload else 0

def earnedBy (keeper : Address) (history : List Entry) : Int :=
  receiptTotal (fun receipt => receipt.call.executionNet receipt.before keeper) history

def withdrawnBy (keeper : Address) (history : List Entry) : Int :=
  receiptTotal (fun receipt => receipt.call.rewardsWithdrawn keeper receipt.value) history

/-- What upheld disputes ever took away from a keeper. -/
def forfeitedBy (keeper : Address) (history : List Entry) : Int :=
  receiptTotal (fun receipt => receipt.call.forfeitedFrom receipt.before keeper) history

def creditedTo (keeper : Address) (history : List Entry) : Int :=
  receiptTotal (fun receipt => receipt.call.credited receipt.before keeper) history

variable {texts : TextForms} {start e : Env} {keeper : Address}

theorem DetachedRun.owed (fresh : Fresh start) (run : DetachedRun start e) (keeper : Address) :
    entitlement e keeper =
      earnedBy keeper e.history - withdrawnBy keeper e.history - forfeitedBy keeper e.history := by
  -- The books of the rewards, read from an empty registry on.
  have unused := fresh.unused.1
  have explained := (rewardsFund_sound keeper).explained fresh run
  have nothing : entitlement start keeper = 0 := by
    simp [entitlement, pendingCreditsOf, unused.rewards, unused.credits, creditsTotal]
  simp only [rewardsFund, receiptTotal_sub, nothing, zero_add] at explained
  exact explained

theorem DetachedRun.balance (fresh : Fresh start) (run : DetachedRun start e) (keeper : Address) :
    keeperBalance e keeper =
      creditedTo keeper e.history - withdrawnBy keeper e.history := by
  -- The books of the balance, read from an empty registry on.
  have unused := fresh.unused.1
  have explained := (balanceFund_sound keeper).explained fresh run
  have nothing : keeperBalance start keeper = 0 := by
    simp [unused.rewards]
  simp only [balanceFund, receiptTotal_sub, nothing, zero_add] at explained
  exact explained

theorem DetachedRun.forfeited_nonneg (fresh : Fresh start) (run : DetachedRun start e)
    (keeper : Address) : 0 ≤ forfeitedBy keeper e.history := by
  apply receiptTotal_nonneg
  refine DetachedRun.receipts ?_ fresh run
  intro token inv e e' call value _ formed _
  exact Call.forfeitedFrom_nonneg formed keeper call

theorem DetachedRun.withdrawn_nonneg (fresh : Fresh start) (run : DetachedRun start e)
    (keeper : Address) : 0 ≤ withdrawnBy keeper e.history := by
  apply receiptTotal_nonneg
  refine DetachedRun.receipts ?_ fresh run
  intro token inv e e' call value _ _ effect
  -- A withdrawal of nothing is refused.
  cases effect with
  | @withdrawRewards withdrawer _ _ _ _ _ _ _ _ _ positive =>
    simp only [Call.rewardsWithdrawn]
    split <;> omega
  | _ => exact le_rfl

section Totals

variable (injective : Function.Injective texts)

include injective

attribute [local simp] Event.payload EventPayload.keeper eventTotal Call.executionNet

theorem earned_announces (keeper : Address) (call : Call) (w : World) (value : Value) :
    eventTotal (fun event =>
        (event.payload texts).elim 0 (EventPayload.naming (texts keeper) EventPayload.earned))
      (call.announces w value) = call.executionNet w keeper := by
  -- Only an execution announces earnings, under the name of its keeper.
  cases call with
  | withdrawRewards =>
    cases value <;> simp [Call.announces, Function.comp_def]
  | withdrawStake | slash => cases value <;> rfl
  | registerTask | batchRegisterTasks | increaseReward | updateVerifier | disputeExecution =>
    simp [Call.announces, Filing.event, Function.comp_def]
  | executeTask executor taskId proof =>
    by_cases same : executor = keeper
    · simp [Call.announces, same]
    · simp [Call.announces, injective.ne same, same]
  | claimTask => simp [Call.announces]
  | _ => rfl

theorem withdrawn_announces (keeper : Address) (call : Call) (w : World) (value : Value) :
    eventTotal (fun event =>
        (event.payload texts).elim 0 (EventPayload.naming (texts keeper) EventPayload.withdrawn))
      (call.announces w value) = call.rewardsWithdrawn keeper value := by
  -- Only a withdrawal announces a payment, under the name of its keeper.
  cases call with
  | withdrawRewards withdrawer =>
    by_cases same : withdrawer = keeper
    · cases value <;> simp [Call.announces, EventPayload.withdrawn, same, Function.comp_def]
    · cases value <;> simp [Call.announces, injective.ne same, same, Function.comp_def]
  | withdrawStake | slash => cases value <;> rfl
  | registerTask | batchRegisterTasks | increaseReward | updateVerifier | disputeExecution
  | executeTask | claimTask =>
    simp [Call.announces, Filing.event, EventPayload.withdrawn, Function.comp_def]
  | _ => rfl

end Totals

/-- Nothing negative was ever earned or withdrawn. -/
theorem DetachedRun.amounts_nonneg (fresh : Fresh start) (run : DetachedRun start e) :
    ∀ payload ∈ e.events.filterMap (Event.payload texts),
      0 ≤ payload.earned ∧ 0 ≤ payload.withdrawn := by
  refine DetachedRun.payloads_all (fun _ _ _ => ⟨le_rfl, le_rfl⟩) ?_ fresh run
  rintro token inv e e' call value formed effect event listed payload told
  cases event <;> cases told <;> try exact ⟨le_rfl, le_rfl⟩
  · -- Both shares of a reward are at least nothing.
    cases effect with
    | @executeTaskHeld executor taskId proof task keeperNet fee _ _ found _ _ _ _ split
    | @executeTaskPaid executor taskId proof task keeperNet fee _ _ found _ _ _ _ split =>
      obtain ⟨-, net⟩ := execution_of_split executor executor proof formed found split
      have share := (splitReward_nonneg (formed.tasks _ _ found).positive formed.fee split).1
      simp only [Call.announces, List.mem_singleton, Event.taskExecuted.injEq, net,
        ↓reduceIte] at listed
      exact ⟨listed.2.2.1 ▸ share, le_rfl⟩
    | _ => simp [Call.announces, Filing.event] at listed
  · cases effect with
    | withdrawRewards _ _ _ _ _ positive =>
      simp only [Call.announces, List.mem_append, List.mem_map, reduceCtorEq, and_false,
        exists_false, List.mem_singleton, Event.rewardsWithdrawn.injEq, false_or] at listed
      exact ⟨le_rfl, listed.2 ▸ positive.le⟩
    | _ => simp [Call.announces, Filing.event] at listed

namespace KeeperSummary

def earn (total : Int) (event : IndexedEvent) : Option Int :=
  match event.payload with
  | .taskExecuted _ _ netReward _ => checkedAdd total netReward
  | _ => some total

def withdraw (total : Int) (event : IndexedEvent) : Option Int :=
  match event.payload with
  | .rewardsWithdrawn _ amount => checkedAdd total amount
  | _ => some total

theorem gather_totals (rows : List IndexedEvent) (gathered : Gathered) :
    (rows.foldlM gather gathered).map (fun done => (done.totalEarned, done.totalWithdrawn)) =
      (rows.foldlM earn gathered.totalEarned).bind fun earned =>
        (rows.foldlM withdraw gathered.totalWithdrawn).map fun withdrawn =>
          (earned, withdrawn) := by
  -- The two sums do not meet, so each can be folded alone.
  induction rows generalizing gathered with
  | nil => rfl
  | cons row rows ih =>
    obtain ⟨⟨ledger, closed, hash, index, payload⟩, cursor⟩ := row
    rw [List.foldlM_cons, List.foldlM_cons, List.foldlM_cons]
    cases payload with
    | taskExecuted taskId keeper netReward proof =>
      simp only [gather, earn, withdraw]
      cases checkedAdd gathered.totalEarned netReward with
      | none => rfl
      | some total => exact ih _
    | rewardsWithdrawn keeper amount =>
      simp only [gather, earn, withdraw]
      cases checkedAdd gathered.totalWithdrawn amount with
      | none =>
        -- The whole fold fails with this sum, whatever becomes of the other.
        change none = (rows.foldlM earn gathered.totalEarned).bind fun _ => none
        cases rows.foldlM earn gathered.totalEarned <;> rfl
      | some total => exact ih _
    | _ => exact ih _

theorem foldlM_totals {rows : List IndexedEvent}
    (nonneg : ∀ row ∈ rows, 0 ≤ row.payload.earned ∧ 0 ≤ row.payload.withdrawn) :
    rows.foldlM earn 0 = narrow (rows.map fun row => row.payload.earned).sum ∧
      rows.foldlM withdraw 0 = narrow (rows.map fun row => row.payload.withdrawn).sum := by
  have signs := i128_signs
  -- Adding nothing to a total that fits leaves it as it is.
  have idle : ∀ total, 0 ≤ total → total ≤ i128Max → narrow (total + 0) = some total := by
    intro total started fits
    rw [add_zero]
    exact if_pos ⟨by omega, fits⟩
  have earns : ∀ (total : Int) (row : IndexedEvent), 0 ≤ total → total ≤ i128Max →
      earn total row = narrow (total + row.payload.earned) := by
    intro total row started fits
    unfold earn EventPayload.earned
    cases row.payload with
    | taskExecuted => rfl
    | _ => exact (idle total started fits).symm
  have withdraws : ∀ (total : Int) (row : IndexedEvent), 0 ≤ total → total ≤ i128Max →
      withdraw total row = narrow (total + row.payload.withdrawn) := by
    intro total row started fits
    unfold withdraw EventPayload.withdrawn
    cases row.payload with
    | rewardsWithdrawn => rfl
    | _ => exact (idle total started fits).symm
  have earned := foldlM_narrow earns (fun row member => (nonneg row member).1) le_rfl signs.2.le
  have withdrawn := foldlM_narrow withdraws (fun row member => (nonneg row member).2) le_rfl
    signs.2.le
  rw [zero_add] at earned withdrawn
  exact ⟨earned, withdrawn⟩

theorem fold_totals (keeper : String) (rows : List IndexedEvent) :
    (fold keeper rows).map (fun summary => (summary.totalEarned, summary.creditedBalance)) =
      (rows.foldlM earn 0).bind fun earned =>
        (rows.foldlM withdraw 0).bind fun withdrawn =>
          (checkedSub earned withdrawn).map fun left => (earned, left) := by
  have totals := gather_totals rows ⟨[], [], 0, 0⟩
  unfold fold
  cases gathered : rows.foldlM gather ⟨[], [], 0, 0⟩ with
  | none =>
    -- One of the two sums has overflowed.
    rw [gathered] at totals
    cases earned : rows.foldlM earn 0 with
    | none => rfl
    | some earned =>
      cases withdrawn : rows.foldlM withdraw 0 with
      | none => rfl
      | some withdrawn => simp [earned, withdrawn] at totals
  | some done =>
    rw [gathered] at totals
    obtain ⟨earned, sum, rest⟩ := Option.bind_eq_some_iff.mp totals.symm
    obtain ⟨withdrawn, taken, pair⟩ := Option.map_eq_some_iff.mp rest
    obtain ⟨rfl, rfl⟩ := Prod.mk.inj pair
    rw [sum, taken]
    simp only [Option.bind_eq_bind, Option.bind_some]
    cases checkedSub done.totalEarned done.totalWithdrawn <;> rfl

end KeeperSummary

theorem sum_naming (name : String) (weight : EventPayload → Int) (payloads : List EventPayload) :
    ((payloads.filter fun payload => payload.keeper = some name).map weight).sum =
      (payloads.map (EventPayload.naming name weight)).sum := by
  -- Leaving a payload out is weighing it as nothing.
  induction payloads with
  | nil => rfl
  | cons payload rest ih =>
    by_cases named : payload.keeper = some name
    · simp [named, ih]
    · simp [named, ih]

/-- The summary of a keeper is folded from what the history says of it. -/
theorem DetachedRun.summary (injective : Function.Injective texts) (fresh : Fresh start)
    (run : DetachedRun start e) {db : Db}
    (stored : db.events.map (·.payload) = e.events.filterMap (Event.payload texts))
    (keeper : Address) :
    (KeeperSummary.fold (texts keeper) (db.keeperEvents (texts keeper))).map
        (fun summary => (summary.totalEarned, summary.creditedBalance)) =
      (narrow (earnedBy keeper e.history)).map fun earned =>
        (earned, earned - withdrawnBy keeper e.history) := by
  have told : (db.keeperEvents (texts keeper)).map (fun row => row.payload) =
      (e.events.filterMap (Event.payload texts)).filter
        fun payload => payload.keeper = some (texts keeper) := by
    rw [← stored, List.filter_map]
    rfl
  have signed : ∀ row ∈ db.keeperEvents (texts keeper),
      0 ≤ row.payload.earned ∧ 0 ≤ row.payload.withdrawn := by
    intro row member
    have listed : row.payload ∈ (db.keeperEvents (texts keeper)).map fun row => row.payload :=
      List.mem_map_of_mem member
    rw [told] at listed
    exact DetachedRun.amounts_nonneg fresh run _ (List.mem_of_mem_filter listed)
  -- Each sum over the keeper's rows is one over the receipts of the run.
  have sums : ∀ weight : EventPayload → Int,
      ((db.keeperEvents (texts keeper)).map fun row => weight row.payload).sum =
        ((e.events.filterMap (Event.payload texts)).map
          (EventPayload.naming (texts keeper) weight)).sum := by
    intro weight
    rw [← sum_naming, ← told, List.map_map]
    rfl
  have earned := DetachedRun.payloads (fun _ _ _ => rfl) (earned_announces injective keeper)
    fresh run
  have withdrawn := DetachedRun.payloads (fun _ _ _ => rfl) (withdrawn_announces injective keeper)
    fresh run
  obtain ⟨earning, withdrawing⟩ := KeeperSummary.foldlM_totals signed
  rw [sums, earned] at earning
  rw [sums, withdrawn] at withdrawing
  -- A keeper never withdraws more than it earned, so only the first sum can overflow.
  have owed := DetachedRun.owed fresh run keeper
  have entitled := (DetachedRun.wellFormed fresh run).entitlement_nonneg keeper
  have forfeited := DetachedRun.forfeited_nonneg fresh run keeper
  have taken := DetachedRun.withdrawn_nonneg fresh run keeper
  rw [KeeperSummary.fold_totals, earning, withdrawing]
  change (narrow (earnedBy keeper e.history)).bind _ = _
  cases fits : narrow (earnedBy keeper e.history) with
  | none => rfl
  | some total =>
    obtain ⟨rfl, low, high⟩ := narrow_eq_some.mp fits
    have signs := i128_signs
    have whole : narrow (withdrawnBy keeper e.history) = some (withdrawnBy keeper e.history) :=
      if_pos ⟨by omega, by omega⟩
    have left : checkedSub (earnedBy keeper e.history) (withdrawnBy keeper e.history) =
        some (earnedBy keeper e.history - withdrawnBy keeper e.history) :=
      if_pos ⟨by omega, by omega⟩
    change (narrow (withdrawnBy keeper e.history)).bind _ = _
    rw [whole, Option.bind_some, left]
    rfl

/--
The indexed balance and earnings of a keeper agree with the registry exactly while the keeper
forfeited nothing and all it ever earned fits the type it is summed in.

The log of any run is fed through the parser into a fresh store, wherever the network placed its
events. What a keeper is still owed are its pending credits.
-/
theorem keeper_balance_agrees_iff (injective : Function.Injective texts) (fresh : Fresh start)
    (run : DetachedRun start e) (stamps : List Stamp)
    (complete : stamps.length = e.events.length) (distinct : (stamps.map Stamp.key).Nodup)
    (keeper : Address) :
    ∃ outcome after,
      (ingestBatch (published texts stamps e.events)).run Process.blank = .ok outcome after ∧
      ((∃ summary, KeeperSummary.fold (texts keeper) (after.db.keeperEvents (texts keeper)) =
            some summary ∧
          summary.creditedBalance = keeperBalance e keeper +
            creditsTotal (pendingCreditsOf e keeper) ∧
          summary.totalEarned = creditedTo keeper e.history +
            creditsTotal (pendingCreditsOf e keeper)) ↔
        earnedBy keeper e.history ≤ i128Max ∧ forfeitedBy keeper e.history = 0) := by
  obtain ⟨outcome, after, ran, stored⟩ := ingestBatch_published texts complete distinct
  refine ⟨outcome, after, ran, ?_⟩
  -- What the indexer sums up is what was earned, in full.
  have summary := DetachedRun.summary injective fresh run stored keeper
  have owed := DetachedRun.owed fresh run keeper
  have balance := DetachedRun.balance fresh run keeper
  have entitled : entitlement e keeper = keeperBalance e keeper +
      creditsTotal (pendingCreditsOf e keeper) := rfl
  constructor
  · -- If the figures agree, what was forfeited must be nothing.
    rintro ⟨told, folded, left, -⟩
    rw [folded, Option.map_some] at summary
    obtain ⟨earned, fits, same⟩ := Option.map_eq_some_iff.mp summary.symm
    obtain ⟨rfl, -, high⟩ := narrow_eq_some.mp fits
    obtain ⟨-, rest⟩ := Prod.mk.inj same
    exact ⟨high, by omega⟩
  · -- If nothing was forfeited, the sums differ only by what was withdrawn.
    rintro ⟨high, nothing⟩
    have nonneg := (DetachedRun.wellFormed fresh run).entitlement_nonneg keeper
    have taken := DetachedRun.withdrawn_nonneg fresh run keeper
    have signs := i128_signs
    have fits : narrow (earnedBy keeper e.history) = some (earnedBy keeper e.history) :=
      if_pos ⟨by omega, high⟩
    rw [fits, Option.map_some] at summary
    obtain ⟨told, folded, same⟩ := Option.map_eq_some_iff.mp summary
    obtain ⟨earned, left⟩ := Prod.mk.inj same
    exact ⟨told, folded, by omega, by omega⟩

theorem sampleTexts_injective : Function.Injective sampleTexts := by
  rintro ⟨left⟩ ⟨right⟩ same
  -- A text form is as long as its address is large.
  have long : (sampleTexts ⟨left⟩).length = (sampleTexts ⟨right⟩).length :=
    congrArg String.length same
  simp only [sampleTexts, String.length_ofList, List.length_replicate] at long
  rw [long]

def heldBack : List Turn := .call [⟨1⟩] (.setDisputeWindow ⟨1⟩ 10) :: executed 40 1

/-- A share that is held back is indexed as credited. -/
theorem keeper_balance_agrees_held :
    keeperBalance (play feeless heldBack) ⟨4⟩ = 0 ∧
      creditsTotal (pendingCreditsOf (play feeless heldBack) ⟨4⟩) = 40 ∧
      ∃ outcome after, (ingestBatch (published sampleTexts
          (sampleStamps (play feeless heldBack).events)
          (play feeless heldBack).events)).run Process.blank = .ok outcome after ∧
        ∃ summary, KeeperSummary.fold (sampleTexts ⟨4⟩)
            (after.db.keeperEvents (sampleTexts ⟨4⟩)) = some summary ∧
          summary.creditedBalance = 40 ∧ summary.totalEarned = 40 := by
  have playable : Playable feeless heldBack := by decide
  obtain ⟨outcome, after, ran, agrees⟩ := keeper_balance_agrees_iff sampleTexts_injective
    (genesis_fresh (by decide))
    (ExactRun.detached playable.run) (sampleStamps (play feeless heldBack).events)
    (by decide) (by decide) ⟨4⟩
  obtain ⟨summary, folded, balance, earned⟩ := agrees.mpr (by decide)
  exact ⟨by decide, by decide, outcome, after, ran, summary, folded, balance, earned⟩

/-- The execution is disputed, and the dispute upheld. -/
def forfeitedAfterwards : List Turn := heldBack ++ (forfeitedAndSwept 40 1).take 2

/-- A forfeited share stays in the indexed balance, though the registry owes the keeper nothing. -/
theorem keeper_balance_forfeited :
    Playable feeless forfeitedAfterwards ∧
      keeperBalance (play feeless forfeitedAfterwards) ⟨4⟩ = 0 ∧
      pendingCreditsOf (play feeless forfeitedAfterwards) ⟨4⟩ = [] ∧
      ∃ outcome after, (ingestBatch (published sampleTexts
          (sampleStamps (play feeless forfeitedAfterwards).events)
          (play feeless forfeitedAfterwards).events)).run Process.blank = .ok outcome after ∧
        ∃ summary, KeeperSummary.fold (sampleTexts ⟨4⟩)
            (after.db.keeperEvents (sampleTexts ⟨4⟩)) = some summary ∧
          summary.creditedBalance = 40 ∧ summary.totalEarned = 40 := by
  have playable : Playable feeless forfeitedAfterwards := by decide
  have complete : (sampleStamps (play feeless forfeitedAfterwards).events).length =
      (play feeless forfeitedAfterwards).events.length := by decide
  obtain ⟨outcome, after, ran, stored⟩ :=
    ingestBatch_published sampleTexts complete (by decide)
  have summary := DetachedRun.summary sampleTexts_injective (genesis_fresh (by decide))
    (ExactRun.detached playable.run) stored ⟨4⟩
  -- Executions earned the keeper forty, of which it withdrew nothing.
  obtain ⟨told, folded, same⟩ := Option.map_eq_some_iff.mp (summary.trans (b := some (40, 40)) rfl)
  obtain ⟨earned, left⟩ := Prod.mk.inj same
  exact ⟨playable, by decide, by decide, outcome, after, ran, told, folded, left, earned⟩

end Indexer

end KeeperNetwork
