import KeeperNetwork.Registry.Transfers

/-! The registry's records stay well formed, whatever is called and however the token behaves. -/

namespace KeeperNetwork

open Soroban

/-- What holds of every stored task. -/
structure FormedTask (registry : Address) (counter taskId : Nat) (task : Task) : Prop where
  numbered : taskId ≤ counter
  foreign : task.owner ≠ registry
  positive : 0 < task.reward

/-- What holds of the records of an initialized registry. -/
structure WellFormed (w : World) : Prop where
  ready : w.admin ≠ none
  configured : w.rewardToken ≠ none
  fee : feeBps w ≤ 10000
  fees : 0 ≤ feesAccrued w
  tasks : w.tasks.All (FormedTask w.self (w.taskCounter.getD 0))
  rewards : w.keeperReward.All fun _ amount => 0 ≤ amount
  stakes : w.keeperStake.All fun _ amount => 0 ≤ amount
  unbonds : w.unbondRequest.All fun _ request => 0 < request.amount
  credits : w.pendingReward.All fun _ credits => ∀ credit ∈ credits, 0 ≤ credit.netReward
  slashes : w.slashes.All fun _ record => 0 < record.amount

namespace WellFormed

variable {w : World} {e e' : Env} {inv : Invocation} {keeper : Address}

/-- Nothing is stored under an id that was not allocated yet. -/
theorem absent (formed : WellFormed w) {taskId : Nat} (above : w.taskCounter.getD 0 < taskId) :
    w.tasks.lookup taskId = none := by
  by_contra present
  obtain ⟨task, found⟩ := Option.ne_none_iff_exists'.mp present
  have numbered := (formed.tasks taskId task found).numbered
  omega

theorem rewardOf_nonneg (formed : WellFormed w) (keeper : Address) :
    0 ≤ keeperRewardOf w keeper := by
  unfold keeperRewardOf
  cases found : w.keeperReward.lookup keeper with
  | none => exact le_rfl
  | some amount => exact formed.rewards keeper amount found

theorem stakeOf_nonneg (formed : WellFormed w) (keeper : Address) : 0 ≤ keeperStakeOf w keeper := by
  unfold keeperStakeOf
  cases found : w.keeperStake.lookup keeper with
  | none => exact le_rfl
  | some amount => exact formed.stakes keeper amount found

theorem credit_nonneg (formed : WellFormed w) {credit : PendingCredit}
    (member : credit ∈ pendingCreditsOf w keeper) : 0 ≤ credit.netReward := by
  unfold pendingCreditsOf at member
  cases found : w.pendingReward.lookup keeper with
  | none => simp [found] at member
  | some credits => exact formed.credits keeper credits found credit (by simpa [found] using member)

theorem escrow_nonneg (formed : WellFormed w) (taskId : Nat) (task : Task)
    (found : w.tasks.lookup taskId = some task) : 0 ≤ task.escrow := by
  have positive := (formed.tasks taskId task found).positive
  unfold Task.escrow
  split <;> omega

variable (formed : WellFormed e)
include formed

/-- Records are well formed whenever nothing that matters to it has changed. -/
theorem frame
    (same : e'.self = e.self ∧ e'.admin = e.admin ∧ e'.rewardToken = e.rewardToken ∧
      e'.feeBps = e.feeBps ∧ e'.feesAccrued = e.feesAccrued ∧ e'.taskCounter = e.taskCounter ∧
      e'.tasks = e.tasks ∧ e'.keeperReward = e.keeperReward ∧ e'.keeperStake = e.keeperStake ∧
      e'.unbondRequest = e.unbondRequest ∧ e'.pendingReward = e.pendingReward ∧
      e'.slashes = e.slashes) : WellFormed e' := by
  obtain ⟨self, admin, token, bps, fees, counter, tasks, rewards, stakes, unbonds, credits,
    slashes⟩ := same
  exact
    { ready := admin ▸ formed.ready
      configured := token ▸ formed.configured
      fee := by simpa [feeBps, bps] using formed.fee
      fees := by simpa [feesAccrued, fees] using formed.fees
      tasks := by simpa [self, counter, tasks] using formed.tasks
      rewards := rewards ▸ formed.rewards
      stakes := stakes ▸ formed.stakes
      unbonds := unbonds ▸ formed.unbonds
      credits := credits ▸ formed.credits
      slashes := slashes ▸ formed.slashes }

theorem bump : WellFormed e.bump :=
  formed.frame (by simp)

theorem emit (event : Event) : WellFormed (e.emit event) :=
  formed.frame (by simp)

theorem emitFinalized (ready : List PendingCredit) : WellFormed (e.emitFinalized keeper ready) :=
  formed.frame (by simp)

theorem trackAction (success : Bool) : WellFormed (e.trackAction inv keeper success) :=
  formed.frame (by simp)

theorem noteMissed (missed : Option Address) : WellFormed (e.noteMissed inv missed) :=
  formed.frame (by simp)

/-- Writing a well formed task keeps records well formed. -/
theorem saveTask {taskId : Nat} {task : Task}
    (here : FormedTask e.self (e.taskCounter.getD 0) taskId task) :
    WellFormed (e.saveTask inv taskId task) :=
  { formed with
    tasks := by simpa using formed.tasks.insert here }

theorem rewrite {taskId : Nat} {task replacement : Task} (found : e.tasks.lookup taskId = some task)
    (owner : replacement.owner = task.owner) (reward : replacement.reward = task.reward) :
    WellFormed (e.saveTask inv taskId replacement) := by
  obtain ⟨numbered, foreign, held⟩ := formed.tasks taskId task found
  exact formed.saveTask ⟨numbered, owner ▸ foreign, reward ▸ held⟩

theorem countTask : WellFormed e.countTask :=
  { formed with
    tasks := by
      simpa using formed.tasks.imp fun _ _ task =>
        ⟨task.numbered.trans (Nat.le_succ _), task.foreign, task.positive⟩ }

variable {amount : Int}

/-- Writing a balance that is not negative keeps records well formed. -/
theorem setKeeperReward (nonneg : 0 ≤ amount) : WellFormed (e.setKeeperReward inv keeper amount) :=
  { formed with
    rewards := formed.rewards.insert nonneg }

theorem credit (nonneg : 0 ≤ amount) : WellFormed (e.credit inv keeper amount) := by
  have held := formed.rewardOf_nonneg keeper
  have written : WellFormed (e.setKeeperReward inv keeper
      (keeperRewardOf e keeper + amount)) := formed.setKeeperReward (by omega)
  exact written.frame (by simp [Env.credit])

theorem accrue (nonneg : 0 ≤ amount) : WellFormed (e.accrue amount) :=
  { formed with
    fees := by
      have held := formed.fees
      rw [feesAccrued_accrue]
      omega }

theorem savePending {credits : List PendingCredit}
    (nonneg : ∀ credit ∈ credits, 0 ≤ credit.netReward) :
    WellFormed (e.savePending inv keeper credits) :=
  { formed with
    credits := by
      rw [Env.savePending_pendingReward]
      split
      · exact formed.credits.erase keeper
      · exact formed.credits.insert nonneg }

theorem replaceCredit {index : Nat} {credit replacement : PendingCredit}
    (read : (pendingCreditsOf e keeper)[index]? = some credit)
    (same : replacement.netReward = credit.netReward) : WellFormed (e.savePending inv keeper
      ((pendingCreditsOf e keeper).set index replacement)) := by
  refine formed.savePending fun other member => ?_
  rcases List.mem_or_eq_of_mem_set member with old | rfl
  · exact formed.credit_nonneg old
  · exact same ▸ formed.credit_nonneg (List.mem_of_getElem? read)

/-- Writing a stake that is not negative keeps records well formed. -/
theorem saveStake (nonneg : 0 ≤ amount) : WellFormed (e.saveStake inv keeper amount) :=
  { formed with
    stakes := by simpa using formed.stakes.insert nonneg }

theorem saveUnbondRequest {request : UnbondRequest} (positive : 0 < request.amount) :
    WellFormed (e.saveUnbondRequest inv keeper request) :=
  { formed with
    unbonds := by simpa using formed.unbonds.insert positive }

theorem removeUnbondRequest : WellFormed (e.removeUnbondRequest keeper) :=
  { formed with
    unbonds := formed.unbonds.erase keeper }

theorem drawUnbond {request : UnbondRequest} (within : amount ≤ request.amount) :
    WellFormed (e.drawUnbond inv keeper request amount) :=
  { formed with
    unbonds := by
      rw [Env.drawUnbond_unbondRequest]
      split
      · exact formed.unbonds.erase keeper
      · exact formed.unbonds.insert (show 0 < request.amount - amount by omega) }

theorem saveSlash {slashId : Nat} {record : SlashRecord} (positive : 0 < record.amount) :
    WellFormed (e.saveSlash inv slashId record) :=
  { formed with
    slashes := by simpa using formed.slashes.insert positive }

theorem removeSlash (slashId : Nat) : WellFormed (e.removeSlash slashId) :=
  { formed with
    slashes := formed.slashes.erase slashId }

theorem bookSlash (positive : 0 < amount) (reason : Symbol) :
    WellFormed (e.bookSlash inv keeper amount reason) :=
  { formed with
    slashes := formed.slashes.insert positive }

theorem finalized {ready held : List PendingCredit}
    (readied : ∀ credit ∈ ready, credit ∈ pendingCreditsOf e keeper)
    (waiting : ∀ credit ∈ held, credit ∈ pendingCreditsOf e keeper) :
    WellFormed (e.finalized inv keeper ready held) :=
  { formed with
    rewards := by
      rw [Env.finalized_keeperReward, Env.credited_keeperReward]
      split
      · exact formed.rewards
      · have owed := formed.rewardOf_nonneg keeper
        have moved : 0 ≤ (ready.map PendingCredit.netReward).sum :=
          List.sum_nonneg (List.forall_mem_map.mpr fun credit listed =>
            formed.credit_nonneg (readied credit listed))
        exact formed.rewards.insert (show 0 ≤ _ by omega)
    credits := by
      have saved : WellFormed (e.savePending inv keeper held) :=
        formed.savePending fun credit listed => formed.credit_nonneg (waiting credit listed)
      rw [Env.finalized_pendingReward]
      split
      · exact formed.credits
      · exact saved.credits }

end WellFormed

end KeeperNetwork
