import KeeperNetwork.Lib.ProRata
import KeeperNetwork.Registry.Accounting

/-! Splitting a reward between its keeper and the protocol, exactly and without gain by division. -/

namespace KeeperNetwork

open Soroban

section Splits

variable {reward more net fee : Int} {bps higher : Nat}

theorem splitReward_cut (positive : 0 < reward) (legal : bps ≤ 10000)
    (split : splitReward reward bps = .ok (net, fee)) :
    fee = reward * bps / 10000 ∧ net = reward - fee ∧ 0 ≤ net ∧ 0 ≤ fee := by
  obtain ⟨cut, rest⟩ := splitReward_ok split
  rw [Int.tdiv_eq_ediv_of_nonneg (Int.mul_nonneg positive.le (Int.natCast_nonneg bps))] at cut
  exact ⟨cut, rest, splitReward_nonneg positive legal split⟩

theorem fee_mono (le : reward ≤ more) (legal : bps ≤ 10000) :
    reward * bps / 10000 ≤ more * bps / 10000 ∧
      reward - reward * bps / 10000 ≤ more - more * bps / 10000 := by
  -- The product grows by no more than ten thousand times what the reward grows by.
  have least : reward * bps ≤ more * bps :=
    Int.mul_le_mul_of_nonneg_right le (Int.natCast_nonneg bps)
  have most : (more - reward) * bps ≤ (more - reward) * 10000 :=
    Int.mul_le_mul_of_nonneg_left (by exact_mod_cast legal) (by omega)
  rw [Int.sub_mul] at most
  omega

theorem fee_rate_mono (positive : 0 < reward) (le : bps ≤ higher) :
    reward * bps / 10000 ≤ reward * higher / 10000 :=
  Int.ediv_le_ediv (by decide)
    (Int.mul_le_mul_of_nonneg_left (by exact_mod_cast le) positive.le)

theorem mapM_splitReward {rewards : List Int} (legal : bps ≤ 10000)
    (fit : ∀ reward ∈ rewards, 0 < reward ∧ reward ≤ i128Max ∧ reward * bps ≤ i128Max) :
    rewards.mapM (splitReward · bps) = .ok (rewards.map fun reward =>
      (reward - ProRata.part 10000 reward bps, ProRata.part 10000 reward bps)) := by
  induction rewards with
  | nil => rfl
  | cons reward rest ih =>
    obtain ⟨⟨positive, stored, fits⟩, later⟩ := List.forall_mem_cons.mp fit
    rw [List.mapM_cons, splitReward_eq positive stored legal, if_pos fits, ih later]
    rfl

theorem split_divided {rewards : List Int} (legal : bps ≤ 10000) (nonempty : rewards ≠ [])
    (positive : ∀ reward ∈ rewards, 0 < reward) (stored : rewards.sum ≤ i128Max)
    (split : splitReward rewards.sum bps = .ok (net, fee)) :
    ∃ shares, rewards.mapM (splitReward · bps) = .ok shares ∧
      (shares.map Prod.snd).sum ≤ fee ∧ fee - rewards.length < (shares.map Prod.snd).sum ∧
      (shares.map Prod.fst).sum < net + rewards.length := by
  have total : 0 < rewards.sum := List.sum_pos rewards positive nonempty
  have fits : rewards.sum * bps ≤ i128Max := by
    by_contra large
    rw [splitReward_eq total stored legal, if_neg large] at split
    cases split
  obtain ⟨rfl, rfl, -, -⟩ := splitReward_cut total legal split
  -- No single reward is more than the total, so its product fits as well.
  have parts := mapM_splitReward legal fun reward member => by
    have le := List.single_le_sum (fun other listed => (positive other listed).le) reward member
    have scaled := Int.mul_le_mul_of_nonneg_right le (Int.natCast_nonneg bps)
    exact ⟨positive reward member, le.trans stored, scaled.trans fits⟩
  refine ⟨_, parts, ?_⟩
  obtain ⟨least, most⟩ := ProRata.part_sum (by decide : 0 < 10000) bps nonempty
  have whole : ProRata.part 10000 rewards.sum bps = rewards.sum * bps / 10000 := rfl
  have nets : (rewards.map fun reward => reward - ProRata.part 10000 reward bps).sum +
      (rewards.map fun reward => ProRata.part 10000 reward bps).sum = rewards.sum := by
    rw [← List.sum_map_add]
    simp
  simp only [List.map_map, Function.comp_def]
  omega

end Splits

/--
A reward is split exactly, and dividing it up does not pay.

The split fails exactly when the product of reward and rate does not fit. Otherwise nothing is lost,
the fee is the floored one, both shares grow with the reward, and only the fee grows with the rate.
Several tasks in place of one save their keeper less than one unit each.
-/
theorem reward_split_exact {bps : Nat} (legal : bps ≤ 10000) :
    (∀ reward, 0 < reward → reward ≤ i128Max →
      ((∃ reason, splitReward reward bps = .error reason) ↔ i128Max < reward * bps)) ∧
    (∀ reward net fee, 0 < reward → splitReward reward bps = .ok (net, fee) →
      net + fee = reward ∧ 0 ≤ fee ∧ fee = reward * bps / 10000 ∧ fee ≤ reward ∧
      (∀ more net' fee', reward ≤ more → splitReward more bps = .ok (net', fee') →
        fee ≤ fee' ∧ net ≤ net') ∧
      ∀ higher net' fee', bps ≤ higher → higher ≤ 10000 →
        splitReward reward higher = .ok (net', fee') → fee ≤ fee' ∧ net' ≤ net) ∧
    ∀ rewards net fee, rewards ≠ [] → (∀ reward ∈ rewards, 0 < reward) →
      rewards.sum ≤ i128Max → splitReward rewards.sum bps = .ok (net, fee) →
      ∃ shares, rewards.mapM (splitReward · bps) = .ok shares ∧
        (shares.map Prod.snd).sum ≤ fee ∧ fee - rewards.length < (shares.map Prod.snd).sum ∧
        (shares.map Prod.fst).sum < net + rewards.length := by
  refine ⟨fun reward positive stored => ?_, fun reward net fee positive split => ?_,
    fun rewards net fee nonempty => split_divided legal nonempty⟩
  · rw [splitReward_eq positive stored legal]
    by_cases fits : reward * bps ≤ i128Max
    · simp [fits]
    · simp [if_neg fits, not_le.mp fits]
  · obtain ⟨rfl, rfl, least, most⟩ := splitReward_cut positive legal split
    refine ⟨by omega, most, rfl, by omega, ?_, ?_⟩
    · intro more net' fee' le split'
      obtain ⟨rfl, rfl, -⟩ := splitReward_cut (positive.trans_le le) legal split'
      exact fee_mono le legal
    · intro higher net' fee' le legal' split'
      obtain ⟨rfl, rfl, -⟩ := splitReward_cut positive legal' split'
      have grown := fee_rate_mono positive le
      exact ⟨grown, by omega⟩

/-- At the default rate a reward of 67 costs two units, and in two parts one. -/
theorem reward_split_exact_halves :
    splitReward 67 300 = .ok (65, 2) ∧ splitReward 33 300 = .ok (33, 0) ∧
      splitReward 34 300 = .ok (33, 1) ∧
      ∃ shares, [33, 34].mapM (splitReward · 300) = .ok shares ∧
        2 - 2 < (shares.map Prod.snd).sum := by
  refine ⟨rfl, rfl, rfl, ?_⟩
  obtain ⟨shares, divided, -, loss, -⟩ := (@reward_split_exact 300 (by decide)).2.2 [33, 34] 65 2
    (by decide) (by decide) (by decide) rfl
  exact ⟨shares, divided, loss⟩

end KeeperNetwork
