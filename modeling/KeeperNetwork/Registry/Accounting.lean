import KeeperNetwork.Registry.EffectLaws

/-! What the registry owes, bucket by bucket, and how each write changes it. -/

namespace KeeperNetwork

open Soroban

/-- Exactly pending and claimed tasks are unsettled. -/
@[simp] theorem isOpen_eq :
    TaskStatus.isOpen .pending = true ∧ TaskStatus.isOpen .claimed = true ∧
      TaskStatus.isOpen .executed = false ∧ TaskStatus.isOpen .cancelled = false ∧
      TaskStatus.isOpen .expired = false := ⟨rfl, rfl, rfl, rfl, rfl⟩

/-- The escrow a task still holds, which is its reward until it is settled. -/
def Task.escrow (task : Task) : Int :=
  if task.status.isOpen then task.reward else 0

theorem splitReward_ok {reward keeperNet fee : Int} {bps : Nat}
    (split : splitReward reward bps = .ok (keeperNet, fee)) :
    fee = (reward * bps).tdiv 10000 ∧ keeperNet = reward - fee := by
  unfold splitReward at split
  split at split
  · simp at split
  · rename_i product multiplied
    dsimp only at split
    split at split
    · simp at split
    · rename_i net subtracted
      obtain ⟨rfl, -⟩ := checkedMul_eq_some.mp multiplied
      obtain ⟨rfl, -⟩ := checkedSub_eq_some.mp subtracted
      simp only [Except.ok.injEq, Prod.mk.injEq] at split
      exact ⟨split.2.symm, by rw [← split.1, ← split.2]⟩

theorem splitReward_eq {reward : Int} {bps : Nat} (positive : 0 < reward)
    (stored : reward ≤ i128Max) (legal : bps ≤ 10000) :
    splitReward reward bps = if reward * bps ≤ i128Max then
      .ok (reward - reward * bps / 10000, reward * bps / 10000) else
      .error .arithmeticOverflow := by
  have signs := i128_signs
  have product : 0 ≤ reward * bps := Int.mul_nonneg positive.le (Int.natCast_nonneg bps)
  unfold splitReward
  by_cases fits : reward * bps ≤ i128Max
  · -- The fee is no more than the reward, so the subtraction fits as well.
    have multiplied : checkedMul reward bps = some (reward * bps) :=
      checkedMul_eq_some.mpr ⟨rfl, by omega, fits⟩
    have bound : reward * bps ≤ reward * 10000 :=
      Int.mul_le_mul_of_nonneg_left (by exact_mod_cast legal) positive.le
    have subtracted : checkedSub reward (reward * bps / 10000) =
        some (reward - reward * bps / 10000) :=
      checkedSub_eq_some.mpr ⟨rfl, by omega, by omega⟩
    simp only [multiplied, Int.tdiv_eq_ediv_of_nonneg product, subtracted, if_pos fits]
  · have overflow : checkedMul reward bps = none := by simp [checkedMul, narrow, fits]
    simp only [overflow, if_neg fits]

theorem splitReward_nonneg {reward keeperNet fee : Int} {bps : Nat} (positive : 0 < reward)
    (legal : bps ≤ 10000) (split : splitReward reward bps = .ok (keeperNet, fee)) :
    0 ≤ keeperNet ∧ 0 ≤ fee := by
  obtain ⟨cut, rest⟩ := splitReward_ok split
  have product : 0 ≤ reward * bps := Int.mul_nonneg positive.le (Int.natCast_nonneg bps)
  rw [Int.tdiv_eq_ediv_of_nonneg product] at cut
  have bound : reward * bps ≤ reward * 10000 :=
    Int.mul_le_mul_of_nonneg_left (by exact_mod_cast legal) positive.le
  omega

@[local simp] def creditsTotal (credits : List PendingCredit) : Int :=
  (credits.map PendingCredit.netReward).sum

def openEscrow (w : World) : Int := w.tasks.total Task.escrow

/-- Withdrawable balances of every keeper. -/
def rewardsOwed (w : World) : Int := w.keeperReward.total id

def stakesBonded (w : World) : Int := w.keeperStake.total id

/-- Stakes of every keeper that wait to be withdrawn. -/
def stakesUnbonding (w : World) : Int := w.unbondRequest.total UnbondRequest.amount

/-- Credits of every keeper that wait for their dispute window. -/
def creditsPending (w : World) : Int := w.pendingReward.total creditsTotal

/-- Everything the registry owes. -/
def buckets (w : World) : Int :=
  openEscrow w + rewardsOwed w + feesAccrued w + stakesBonded w + stakesUnbonding w +
    creditsPending w

/-- The tokens the registry holds beyond what it owes. -/
def surplus (w : World) : Int := w.balances.of w.self - buckets w

variable {inv : Invocation} {e : Env}

/-- A keeper's balance is what the map of balances holds for it. -/
theorem keeperRewardOf_eq (w : World) (keeper : Address) :
    keeperRewardOf w keeper = w.keeperReward.weightAt id keeper := by
  unfold keeperRewardOf Finmap.weightAt
  cases w.keeperReward.lookup keeper <;> rfl

theorem keeperStakeOf_eq (w : World) (keeper : Address) :
    keeperStakeOf w keeper = w.keeperStake.weightAt id keeper := by
  unfold keeperStakeOf Finmap.weightAt
  cases w.keeperStake.lookup keeper <;> rfl

theorem creditsTotal_pendingCreditsOf (w : World) (keeper : Address) :
    creditsTotal (pendingCreditsOf w keeper) = w.pendingReward.weightAt creditsTotal keeper := by
  unfold pendingCreditsOf Finmap.weightAt
  cases w.pendingReward.lookup keeper <;> rfl

theorem creditsTotal_set {credits : List PendingCredit} {index : Nat}
    {credit replacement : PendingCredit} (read : credits[index]? = some credit) :
    creditsTotal (credits.set index replacement) =
      creditsTotal credits - credit.netReward + replacement.netReward := by
  obtain ⟨inside, rfl⟩ := List.getElem?_eq_some_iff.mp read
  unfold creditsTotal
  rw [List.map_set, List.sum_set', dif_pos (by rwa [List.length_map]), List.getElem_map]
  omega

theorem creditsTotal_eraseIdx {credits : List PendingCredit} {index : Nat}
    {credit : PendingCredit} (read : credits[index]? = some credit) :
    creditsTotal (credits.eraseIdx index) = creditsTotal credits - credit.netReward := by
  obtain ⟨inside, rfl⟩ := List.getElem?_eq_some_iff.mp read
  have split := @List.CommMonoid.add_sum_eraseIdx _ _ (credits.map PendingCredit.netReward) index
    (by rwa [List.length_map])
  rw [List.getElem_map, List.eraseIdx_map] at split
  unfold creditsTotal
  omega

theorem creditsTotal_ready_held (credits : List PendingCredit) (now : Nat) :
    creditsTotal (readyCredits credits now) + creditsTotal (heldCredits credits now) =
      creditsTotal credits := by
  induction credits with
  | nil => rfl
  | cons credit rest ih =>
    simp only [creditsTotal, readyCredits, heldCredits, List.filter_cons, List.map_cons,
      List.sum_cons] at ih ⊢
    cases credit.finalizable now <;>
      simp only [↓reduceIte, Bool.not_true, Bool.not_false, Bool.false_eq_true, List.map_cons,
        List.sum_cons] <;> omega

@[simp] theorem feesAccrued_accrue (amount : Int) :
    feesAccrued (e.accrue amount) = feesAccrued e + amount := by
  by_cases zero : amount = 0 <;> simp [feesAccrued, zero]

@[simp] theorem feesAccrued_emit (event : Event) : feesAccrued (e.emit event) = feesAccrued e := by
  simp [feesAccrued]

@[simp] theorem feesAccrued_saveTask (taskId : Nat) (task : Task) :
    feesAccrued (e.saveTask inv taskId task) = feesAccrued e := by
  simp [feesAccrued]

@[simp] theorem feesAccrued_trackAction (keeper : Address) (success : Bool) :
    feesAccrued (e.trackAction inv keeper success) = feesAccrued e := by
  simp [feesAccrued]

@[simp] theorem total_savePending (e : Env) (inv : Invocation) (keeper : Address)
    (credits : List PendingCredit) :
    (e.savePending inv keeper credits).pendingReward.total creditsTotal =
      e.pendingReward.total creditsTotal - creditsTotal (pendingCreditsOf e keeper) +
        creditsTotal credits := by
  rw [creditsTotal_pendingCreditsOf]
  by_cases empty : credits = []
  · simp [empty, Finmap.total_erase]
  · simp [empty, Finmap.total_insert]

theorem total_drawUnbond {keeper : Address} {request : UnbondRequest} {amount : Int}
    (found : e.unbondRequest.lookup keeper = some request) :
    (e.drawUnbond inv keeper request amount).unbondRequest.total UnbondRequest.amount =
      e.unbondRequest.total UnbondRequest.amount - amount := by
  have held := Finmap.weightAt_of_lookup UnbondRequest.amount found
  by_cases used : request.amount - amount = 0
  · simp only [Env.drawUnbond_unbondRequest, used, ↓reduceIte, Finmap.total_erase, held]
    omega
  · simp only [Env.drawUnbond_unbondRequest, used, ↓reduceIte, Finmap.total_insert, held]
    omega

theorem total_finalized (e : Env) (inv : Invocation) (keeper : Address) :
    let credits := pendingCreditsOf e keeper
    let ready := readyCredits credits e.sequence
    let after := e.finalized inv keeper ready (heldCredits credits e.sequence)
    after.keeperReward.total id = e.keeperReward.total id + creditsTotal ready ∧
    after.pendingReward.total creditsTotal =
      e.pendingReward.total creditsTotal - creditsTotal ready := by
  intro credits ready after
  have whole := creditsTotal_ready_held credits e.sequence
  by_cases empty : ready = []
  · simp [after, empty]
  · have saved := total_savePending e inv keeper (heldCredits credits e.sequence)
    refine ⟨?_, ?_⟩
    · simp [after, empty, Finmap.total_insert, keeperRewardOf_eq]
      omega
    · simp only [after, Env.finalized_pendingReward, empty, ↓reduceIte, saved]
      change _ - creditsTotal credits + _ = _ - creditsTotal (readyCredits credits e.sequence)
      omega

/-- What a keeper can withdraw now or once its dispute windows have elapsed. -/
@[local simp] def entitlement (w : World) (keeper : Address) : Int :=
  keeperRewardOf w keeper + creditsTotal (pendingCreditsOf w keeper)

theorem entitlement_congr {w w' : World} (rewards : w'.keeperReward = w.keeperReward)
    (credits : w'.pendingReward = w.pendingReward) (keeper : Address) :
    entitlement w' keeper = entitlement w keeper := by
  simp only [entitlement, keeperRewardOf, pendingCreditsOf, rewards, credits]

attribute [local simp] pendingCreditsOf keeperRewardOf

theorem entitlement_credit (e : Env) (inv : Invocation) (keeper other : Address) (amount : Int) :
    entitlement (e.credit inv keeper amount) other =
      entitlement e other + if other = keeper then amount else 0 := by
  by_cases same : other = keeper
  · subst same
    simp [add_right_comm]
  · simp [same]

theorem entitlement_savePending (e : Env) (inv : Invocation) (keeper other : Address)
    (credits : List PendingCredit) :
    entitlement (e.savePending inv keeper credits) other =
      if other = keeper then keeperRewardOf e keeper + creditsTotal credits
      else entitlement e other := by
  by_cases same : other = keeper
  · subst same
    by_cases empty : credits = []
    · simp [empty]
    · simp [empty]
  · by_cases empty : credits = []
    · simp [empty, same]
    · simp [empty, same]

theorem entitlement_hold (e : Env) (inv : Invocation) (keeper other : Address)
    (credit : PendingCredit) :
    entitlement (e.savePending inv keeper
        (pendingCreditsOf e keeper ++ [credit])) other =
      entitlement e other + if other = keeper then credit.netReward else 0 := by
  by_cases same : other = keeper
  · subst same
    simp [add_assoc]
  · simp [same]

end KeeperNetwork
