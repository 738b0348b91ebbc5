import KeeperNetwork.Proofs.Ledgers
import KeeperNetwork.Proofs.Settlement

/-! What one call can do to the pending credits of one keeper, and where every credit came from. -/

namespace KeeperNetwork

open Soroban

/-- The ways a successful call can treat the pending credits of one keeper. -/
inductive CreditMove (e e' : Env) (call : Call) (value : Value) (keeper : Address) : Prop where
  /-- The call is about something else. -/
  | untouched (same : pendingCreditsOf e' keeper = pendingCreditsOf e keeper)
  /-- The keeper executes a task while a dispute window is configured. -/
  | held {taskId : Nat} {proof : Bytes} {task : Task} {keeperNet fee : Int}
      (called : call = .executeTask keeper taskId proof)
      (found : e.tasks.lookup taskId = some task) (claimed : task.status = .claimed)
      (claimer : task.claimer = some keeper)
      (split : splitReward task.reward (feeBps e) = .ok (keeperNet, fee))
      (stored : e'.tasks.lookup taskId = some { task with status := .executed })
      (credits : pendingCreditsOf e' keeper =
        pendingCreditsOf e keeper ++ [heldCredit e taskId keeperNet])
  /-- The keeper withdraws, which finalizes every credit that is ready. -/
  | finalized (called : call = .withdrawRewards keeper)
      (credits : pendingCreditsOf e' keeper =
        heldCredits (pendingCreditsOf e keeper) e.sequence)
      (paid : value = .amount (keeperRewardOf e keeper +
        creditsTotal (readyCredits (pendingCreditsOf e keeper) e.sequence)))
  /-- The owner of a task disputes a credit that is not ready yet. -/
  | disputed {taskId index : Nat} {task : Task} {credit : PendingCredit}
      (called : call = .disputeExecution task.owner taskId)
      (found : e.tasks.lookup taskId = some task)
      (read : (pendingCreditsOf e keeper)[index]? = some credit)
      (named : credit.taskId = taskId) (undisputed : credit.disputed = false)
      (within : e.sequence < credit.unlockLedger)
      (credits : pendingCreditsOf e' keeper =
        (pendingCreditsOf e keeper).set index { credit with disputed := true })
  /-- The administrator upholds a dispute, which takes the credit away. -/
  | forfeited {admin : Address} {taskId index : Nat} {credit : PendingCredit}
      (called : call = .resolveExecutionDispute admin taskId true)
      (read : (pendingCreditsOf e keeper)[index]? = some credit)
      (named : credit.taskId = taskId) (pending : credit.disputed = true)
      (accrued : feesAccrued e' = feesAccrued e + credit.netReward)
      (credits : pendingCreditsOf e' keeper =
        (pendingCreditsOf e keeper).eraseIdx index)
  | released {admin : Address} {taskId index : Nat} {credit : PendingCredit}
      (called : call = .resolveExecutionDispute admin taskId false)
      (read : (pendingCreditsOf e keeper)[index]? = some credit)
      (named : credit.taskId = taskId) (pending : credit.disputed = true)
      (credits : pendingCreditsOf e' keeper =
        (pendingCreditsOf e keeper).set index { credit with disputed := false })

variable {token : Token} {inv : Invocation} {start e e' : Env} {call : Call} {value : Value}
  {keeper : Address} {credit : PendingCredit}

theorem pendingCreditsOf_savePending (e : Env) (inv : Invocation) (saver keeper : Address)
    (credits : List PendingCredit) :
    pendingCreditsOf (e.savePending inv saver credits) keeper =
      if keeper = saver then credits else pendingCreditsOf e keeper := by
  -- An empty list is not stored, and reading a missing one gives the empty list back.
  by_cases same : keeper = saver
  · subst same
    by_cases empty : credits = []
    · simp [pendingCreditsOf, empty]
    · simp [pendingCreditsOf, empty]
  · by_cases empty : credits = []
    · simp [pendingCreditsOf, same, empty]
    · simp [pendingCreditsOf, same, empty]

theorem pendingCreditsOf_congr {w w' : World} (same : w'.pendingReward = w.pendingReward)
    (keeper : Address) : pendingCreditsOf w' keeper = pendingCreditsOf w keeper := by
  simp only [pendingCreditsOf, same]

theorem pendingCreditsOf_finalized (e : Env) (inv : Invocation) (withdrawer keeper : Address) :
    pendingCreditsOf (e.finalized inv withdrawer
        (readyCredits (pendingCreditsOf e withdrawer) e.sequence)
        (heldCredits (pendingCreditsOf e withdrawer) e.sequence)) keeper =
      if keeper = withdrawer then heldCredits (pendingCreditsOf e keeper) e.sequence
      else pendingCreditsOf e keeper := by
  by_cases none : readyCredits (pendingCreditsOf e withdrawer) e.sequence = []
  · -- Nothing is ready, so the list is left as it is, and all of it has to wait.
    have waits : heldCredits (pendingCreditsOf e withdrawer) e.sequence =
        pendingCreditsOf e withdrawer := by
      simpa [heldCredits, readyCredits, List.filter_eq_self, List.filter_eq_nil_iff] using none
    rw [pendingCreditsOf_congr (by simp [none] : _ = e.pendingReward)]
    split
    · next same => rw [same, waits]
    · rfl
  · have saved := pendingCreditsOf_savePending e inv withdrawer keeper
      (heldCredits (pendingCreditsOf e withdrawer) e.sequence)
    refine (pendingCreditsOf_congr ?_ keeper).trans (saved.trans ?_)
    · simp only [Env.finalized_pendingReward, none, ↓reduceIte]
    split
    · next same => rw [same]
    · rfl

/-- A credit that a search found is at its place and has what the search asked for. -/
theorem located_spec {credits : List PendingCredit} {wanted : PendingCredit → Bool} {index : Nat}
    (located : credits.findIdx? wanted = some index) (read : credits[index]? = some credit) :
    wanted credit = true := by
  obtain ⟨_, matched, -⟩ := List.findIdx?_eq_some_iff_getElem.mp located
  obtain ⟨_, rfl⟩ := List.getElem?_eq_some_iff.mp read
  exact matched

theorem CreditMove.of_save (inv : Invocation) (saver : Address) (credits : List PendingCredit)
    (written : e'.pendingReward = (e.bump.savePending inv saver credits).pendingReward)
    (here : keeper = saver → pendingCreditsOf e' keeper = credits →
      CreditMove e e' call value keeper) : CreditMove e e' call value keeper := by
  have saved := (pendingCreditsOf_congr written keeper).trans
    (pendingCreditsOf_savePending e.bump inv saver keeper credits)
  by_cases same : keeper = saver
  · exact here same (saved.trans (if_pos same))
  · exact .untouched (saved.trans (if_neg same))

/-- Every call treats the credits of every keeper in one of the listed ways. -/
theorem Effect.creditMove (exact : ExactToken token) (formed : WellFormed e)
    (effect : Effect token inv e call value e') (keeper : Address) :
    CreditMove e e' call value keeper := by
  cases effect with
  | batchRegisterTasks _ _ _ _ _ _ _ _ registered =>
    rw [registered.frame exact.detached]
    exact .untouched (pendingCreditsOf_congr rfl keeper)
  | @executeTaskHeld executor taskId _ _ keeperNet _ _ _ found claimed claimer _ _ split =>
    refine .of_save inv executor (pendingCreditsOf e executor ++
      [heldCredit e taskId keeperNet]) (by simp) ?_
    rintro rfl credits
    exact .held rfl found claimed claimer split (by simp) credits
  | @withdrawRewards withdrawer _ _ _ _ _ readied kept _ owed _ _ payout =>
    obtain ⟨balances, -, rfl⟩ := exact.moves payout
    subst readied kept
    have finalized := pendingCreditsOf_finalized e inv withdrawer keeper
    by_cases same : keeper = withdrawer
    · subst same
      rw [if_pos rfl] at finalized
      exact .finalized rfl ((pendingCreditsOf_congr (by simp) keeper).trans finalized)
        (congrArg Value.amount owed)
    · rw [if_neg same] at finalized
      exact .untouched ((pendingCreditsOf_congr (by simp) keeper).trans finalized)
  | @disputeExecution owner accused taskId index task credit _ found owned _ located read undisputed
      within =>
    refine .of_save inv accused ((pendingCreditsOf e accused).set index
      { credit with disputed := true }) (by simp) ?_
    rintro rfl credits
    exact .disputed (by rw [owned]) found read (by simpa using located_spec located read)
      undisputed within credits
  | @upholdDispute admin accused taskId index task credit _ _ _ located read =>
    obtain ⟨named, disputed⟩ : credit.taskId = taskId ∧ credit.disputed = true := by
      simpa using located_spec located read
    refine .of_save inv accused ((pendingCreditsOf e accused).eraseIdx index) (by simp) ?_
    rintro rfl credits
    have amount := formed.credit_nonneg (List.mem_of_getElem? read)
    exact .forfeited rfl read named disputed (by simp [max_eq_left amount]) credits
  | @releaseDispute admin accused taskId index task credit _ _ _ located read =>
    obtain ⟨named, disputed⟩ : credit.taskId = taskId ∧ credit.disputed = true := by
      simpa using located_spec located read
    refine .of_save inv accused ((pendingCreditsOf e accused).set index
      { credit with disputed := false }) (by simp) ?_
    rintro rfl credits
    exact .released rfl read named disputed credits
  | _ =>
    try obtain ⟨balances, -, rfl⟩ := exact.moves ‹_›
    exact .untouched (pendingCreditsOf_congr (by simp) keeper)

/-- The owner of its task disputed a credit before its window had elapsed. -/
def DisputedInTime (history : List Entry) (credit : PendingCredit) : Prop :=
  ∃ receipt task, .call receipt ∈ history ∧
    receipt.before.tasks.lookup credit.taskId = some task ∧
    receipt.call = .disputeExecution task.owner credit.taskId ∧
    receipt.before.sequence < credit.unlockLedger

/-- Where a pending credit came from. -/
structure Earned (e : Env) (keeper : Address) (credit : PendingCredit) : Prop where
  /-- The keeper executed its task. -/
  executed : ∃ task, e.tasks.lookup credit.taskId = some task ∧ task.status = .executed ∧
    task.claimer = some keeper
  /-- It is what that execution left for the keeper. -/
  share : ∃ receipt proof, .call receipt ∈ e.history ∧
    receipt.call = .executeTask keeper credit.taskId proof ∧
    receipt.call.executionNet receipt.before keeper = credit.netReward
  /-- It is only disputed because the owner of the task asked for it in time. -/
  disputed : credit.disputed = true → DisputedInTime e.history credit

/-- Every pending credit is the only one of its task, and was earned. -/
structure Credited (e : Env) : Prop where
  distinct : ∀ keeper, ((pendingCreditsOf e keeper).map PendingCredit.taskId).Nodup
  earned : ∀ keeper, ∀ credit ∈ pendingCreditsOf e keeper, Earned e keeper credit

theorem Earned.keeps (earned : Earned e keeper credit)
    (settled : ∀ task, e.tasks.lookup credit.taskId = some task → task.status.isOpen = false →
      e'.tasks.lookup credit.taskId = some task)
    (kept : ∀ entry ∈ e.history, entry ∈ e'.history) : Earned e' keeper credit := by
  obtain ⟨task, found, status, claimer⟩ := earned.executed
  obtain ⟨receipt, proof, member, called, net⟩ := earned.share
  refine ⟨⟨task, settled task found (by simp [status]), status, claimer⟩,
    ⟨receipt, proof, kept _ member, called, net⟩, fun flag => ?_⟩
  obtain ⟨receipt, task, member, rest⟩ := earned.disputed flag
  exact ⟨receipt, task, kept _ member, rest⟩

theorem map_set_flag {β : Type} {credits : List PendingCredit} {index : Nat}
    (read : credits[index]? = some credit) {flag : Bool} (column : PendingCredit → β)
    (same : ∀ flag, column { credit with disputed := flag } = column credit) :
    (credits.set index { credit with disputed := flag }).map column = credits.map column := by
  obtain ⟨within, rfl⟩ := List.getElem?_eq_some_iff.mp read
  have there : (credits.map column)[index]? = some (column credits[index]) := by simp [within]
  obtain ⟨bound, value⟩ := List.getElem?_eq_some_iff.mp there
  rw [List.map_set, same, ← value]
  exact List.set_getElem_self bound

theorem CreditMove.distinct (move : CreditMove e e' call value keeper) (credited : Credited e) :
    ((pendingCreditsOf e' keeper).map PendingCredit.taskId).Nodup := by
  have before := credited.distinct keeper
  cases move with
  | untouched same => rwa [same]
  | @held taskId _ task keeperNet _ _ found claimed _ _ _ credits =>
    -- The task is only now executed, so there cannot be a credit of it yet.
    have new : taskId ∉ (pendingCreditsOf e keeper).map PendingCredit.taskId := by
      intro old
      obtain ⟨prior, member, rfl⟩ := List.mem_map.mp old
      obtain ⟨earlier, stored, executed, -⟩ := (credited.earned keeper prior member).executed
      cases found.symm.trans stored
      simp [claimed] at executed
    rw [credits, List.map_append, List.nodup_append]
    refine ⟨before, by simp, ?_⟩
    rintro old member _ last rfl
    obtain rfl : old = taskId := by simpa [heldCredit] using last
    exact new member
  | finalized _ credits _ =>
    rw [credits]
    exact before.sublist (List.filter_sublist.map _)
  | disputed _ _ read _ _ _ credits | released _ read _ _ credits =>
    rw [credits, map_set_flag read PendingCredit.taskId fun _ => rfl]
    exact before
  | forfeited _ _ _ _ _ credits =>
    rw [credits]
    exact before.sublist ((List.eraseIdx_sublist _ _).map _)

/-- Every credit that is pending after a call was earned by an execution. -/
theorem CreditMove.earned (move : CreditMove e e' call value keeper) (formed : WellFormed e)
    (task : ∀ taskId, TaskMove e e' call value taskId) (history : e'.history = e.history)
    (credited : Credited e) (member : credit ∈ pendingCreditsOf e' keeper) :
    Earned (e'.record e call value) keeper credit := by
  -- A credit that was there before keeps what it was earned with, whatever its flag says now.
  have keeps : ∀ prior ∈ pendingCreditsOf e keeper,
      Earned (e'.record e call value) keeper prior := fun prior old =>
    (credited.earned keeper prior old).keeps
      (fun _ found finished => ((task prior.taskId).settled found finished).1)
      (Env.record_keeps history)
  cases move with
  | untouched same => exact keeps credit (same ▸ member)
  | @held taskId proof _ _ _ called here _ claimer split stored credits =>
    rw [credits, List.mem_append, List.mem_singleton] at member
    rcases member with old | rfl
    · exact keeps credit old
    · refine ⟨⟨_, stored, rfl, claimer⟩, ⟨_, proof, Env.mem_record, called, ?_⟩, fun flag => ?_⟩
      · simpa [called, heldCredit] using
          (execution_of_split keeper keeper proof formed here split).2
      · simp [heldCredit] at flag
  | finalized _ credits _ =>
    rw [credits] at member
    exact keeps credit (List.mem_of_mem_filter member)
  | disputed called here read named _ within credits =>
    subst named
    rw [credits] at member
    rcases List.mem_or_eq_of_mem_set member with old | rfl
    · exact keeps credit old
    · exact { keeps _ (List.mem_of_getElem? read) with disputed := fun _ =>
        ⟨_, _, Env.mem_record, here, called, within⟩ }
  | forfeited _ _ _ _ _ credits =>
    rw [credits] at member
    exact keeps credit (List.mem_of_mem_eraseIdx member)
  | released _ read _ _ credits =>
    rw [credits] at member
    rcases List.mem_or_eq_of_mem_set member with old | rfl
    · exact keeps credit old
    · exact { keeps _ (List.mem_of_getElem? read) with disputed := fun flag => by simp at flag }

theorem ExactStep.credited (formed : WellFormed e) (step : ExactStep e e')
    (credited : Credited e) : Credited e' := by
  cases Step.happens step with
  | called exact _ _ effect =>
    exact ⟨fun keeper => (effect.creditMove exact formed keeper).distinct credited,
      fun keeper credit member => (effect.creditMove exact formed keeper).earned formed
        (effect.taskMove exact formed) (effect.history exact) credited member⟩
  | failed => exact credited
  | closed =>
    exact ⟨credited.distinct, fun keeper credit member =>
      (credited.earned keeper credit member).keeps (fun _ found _ => found) fun _ old => old⟩
  | received =>
    exact ⟨credited.distinct, fun keeper credit member =>
      (credited.earned keeper credit member).keeps (fun _ found _ => found)
        fun _ old => List.mem_cons_of_mem _ old⟩

theorem ExactRun.credited (fresh : Fresh start) (run : ExactRun start e) : Credited e := by
  induction run with
  | refl =>
    have none : ∀ keeper, pendingCreditsOf start keeper = [] := by
      simp [pendingCreditsOf, fresh.unused.1.credits]
    exact ⟨fun keeper => by simp [none], fun keeper credit member => by simp [none] at member⟩
  | tail ran last ih => exact ExactStep.credited (ExactRun.wellFormed fresh ran) last ih

end KeeperNetwork
