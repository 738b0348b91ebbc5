import KeeperNetwork.Proofs.Ledgers
import KeeperNetwork.Proofs.Solvency

/-! Payouts to a treasury leave the registry, unless the treasury is the registry itself. -/

namespace KeeperNetwork

open Soroban Bookkeeping

namespace Call

/-- Whom a call of the admin pays out to. -/
def treasury : Call → Option Address
  | .sweepFees _ treasury _ => some treasury
  | .slash _ _ _ _ treasury => some treasury
  | _ => none

/-- What a payout to a treasury takes off the books it is paid from. -/
def debited (call : Call) (before after : World) : Int :=
  match call with
  | .sweepFees .. => feesAccrued before - feesAccrued after
  -- A slash draws on the bonded stake first and on the pending unbond next.
  | .slash _ keeper .. => exposure before keeper - exposure after keeper
  | _ => 0

end Call

/-- The registry holds exactly what it owes and what was sent to it without a call. -/
def Backed (start e : Env) : Prop :=
  e.balances.of e.self =
    buckets e + (start.balances.of start.self + outsideTotal e.history)

variable {token : Token} {inv : Invocation} {start e e' : Env} {call : Call} {value : Value}
  {treasury : Address}

theorem surplus_of_effect (exact : ExactToken token) (formed : WellFormed e)
    (unsigned : e.self ∉ inv.auths) (effect : Effect token inv e call value e') :
    surplus e' =
      surplus e + Receipt.retained ⟨e, call, value, e'⟩ := by
  have same := solvency_conserved.call exact formed unsigned effect
  rw [Env.unexplained_record] at same
  simp only [Env.unexplained, Account.unexplained, effect.history exact] at same
  simp only [solvency] at same
  omega

theorem surplus_le_of_step (formed : WellFormed e) (step : ExactStep e e') :
    surplus e ≤ surplus e' := by
  cases Step.happens step with
  | called exact unsigned _ effect =>
    have changed := surplus_of_effect exact formed unsigned effect
    have retained := effect.retained_nonneg
    rw [Env.record_toWorld]
    omega
  | failed => exact le_rfl
  | closed => exact le_rfl
  | received balances gained =>
    -- What is owed stays, so the surplus grows by what arrives.
    have owed : buckets { e with balances }.toWorld = buckets e := rfl
    simp only [surplus, owed]
    omega

theorem surplus_le_of_run (formed : WellFormed e) (run : ExactRun e e') :
    surplus e ≤ surplus e' := by
  induction run with
  | refl => exact le_rfl
  | tail ran last ih =>
    exact ih.trans (surplus_le_of_step ((ExactRun.steady ran).wellFormed formed) last)

theorem Effect.pays_treasury (exact : ExactToken token) (formed : WellFormed e)
    (unsigned : e.self ∉ inv.auths) (pays : call.treasury = some treasury)
    (effect : Effect token inv e call value e') :
    ∃ amount, 0 < amount ∧ call.debited e e' = amount ∧
      e.balances.move e.self treasury amount = some e'.balances ∧
      Receipt.retained ⟨e, call, value, e'⟩ =
        if e.self = treasury then amount else 0 := by
  -- The books of the fees and of the stakes say by how much each of them changes.
  have fees := feesFund_sound.flows exact.detached formed unsigned effect
  have stakes := fun keeper => (stakeFund_sound keeper).flows exact.detached formed unsigned effect
  cases effect with
  | @sweepFees _ _ amount _ _ positive _ _ payout =>
    cases pays
    obtain ⟨balances, moved, rfl⟩ := exact.moves payout
    refine ⟨amount, positive, ?_, by simpa using moved, rfl⟩
    simp only [feesFund, Call.executionFee, Call.forfeited, Call.forfeit, Call.swept,
      Option.elim_none] at fees
    simp only [Call.debited, fees]
    omega
  | @slashStake _ keeper _ amount _ _ _ positive _ _ _ _ _ _ payout
  | @slashUnbond _ keeper _ amount _ _ _ _ positive _ _ _ _ _ _ _ payout =>
    cases pays
    obtain ⟨balances, moved, rfl⟩ := exact.moves payout
    refine ⟨amount, positive, ?_, by simpa using moved, rfl⟩
    have stake := stakes keeper
    simp only [stakeFund, Call.staked, Call.stakeWithdrawn, Call.slashed, Call.slashWeight,
      Call.stakeRefunded, if_true, id] at stake
    simp only [Call.debited, stake]
    omega
  | _ => cases pays

/--
A payout takes as many tokens out of the registry as it takes off the books.

It does so exactly when the treasury is somebody else; then nothing is left behind that no bucket
accounts for.
-/
theorem payout_leaves_registry_iff (fresh : Fresh start) (run : ExactRun start e)
    (exact : ExactToken token) (unsigned : e.self ∉ inv.auths)
    (pays : call.treasury = some treasury) (called : invoke token inv call e = (.ok value, e')) :
    (call.debited e e' = e.balances.of e.self - e'.balances.of e'.self ∧
      surplus e' = surplus e ∧ (Backed start e → Backed start e')) ↔
    treasury ≠ e.self := by
  have formed := ExactRun.wellFormed fresh run
  obtain ⟨finish, effect, rfl⟩ := invoke_ok called
  obtain ⟨amount, positive, debit, moved, retained⟩ :=
    effect.pays_treasury exact formed unsigned pays
  have changed := surplus_of_effect exact formed unsigned effect
  have self : finish.self = e.self := (effect.steady exact.steady unsigned).self
  have history : outsideTotal (finish.record e call value).history =
      outsideTotal e.history := by
    simp [outsideTotal, effect.history exact]
  rw [Env.record_toWorld, self, debit, changed, retained]
  constructor
  · -- A payout to itself leaves the balance where it was, although the books went down.
    rintro ⟨left, -, -⟩ rfl
    have kept : finish.balances.of e.self = e.balances.of e.self := by
      rw [(Balances.move_eq_some moved).2.2]
      simp [Balances.moved]
    omega
  · intro apart
    have left := Balances.move_out moved apart.symm
    refine ⟨by omega, by simp [apart.symm], fun backed => ?_⟩
    -- The surplus is what came from outside, before the payout and after it.
    rw [retained, if_neg apart.symm, add_zero] at changed
    unfold Backed at backed ⊢
    rw [history, Env.record_toWorld]
    simp only [surplus] at changed
    omega

/-- The registry nobody has staked at, after the keeper staked everything. -/
def stakedAll : Env :=
  (invoke exactTransfer (signedBy [⟨3⟩] 1000) (.stakeDeposit ⟨3⟩ 100) beforeStaking).2

theorem stakedAll_run : ExactRun beforeStaking stakedAll :=
  .tail .refl (.call _ _ _ _ exactTransfer_exact (by decide) rfl)

/-- A slash in favour of somebody else takes the slashed tokens out of the registry. -/
theorem payout_leaves_registry_slash :
    invoke exactTransfer (signedBy [⟨1⟩] 1000) (.slash ⟨1⟩ ⟨3⟩ 40 "late" ⟨4⟩) stakedAll =
        (.ok (.id 1), slashedTo ⟨4⟩) ∧
      (Call.slash ⟨1⟩ ⟨3⟩ 40 "late" ⟨4⟩).debited stakedAll (slashedTo ⟨4⟩) =
        stakedAll.balances.of stakedAll.self -
          (slashedTo ⟨4⟩).balances.of (slashedTo ⟨4⟩).self := by
  have called : invoke exactTransfer (signedBy [⟨1⟩] 1000) (.slash ⟨1⟩ ⟨3⟩ 40 "late" ⟨4⟩)
      stakedAll = (.ok (.id 1), slashedTo ⟨4⟩) := rfl
  have leaves := (payout_leaves_registry_iff beforeStaking_fresh stakedAll_run exactTransfer_exact
    (by decide) rfl called).mpr (by decide)
  exact ⟨called, leaves.1⟩

/-- A slash in favour of the registry itself leaves 40 tokens behind that nobody ever gets out. -/
theorem payout_stranded_slash :
    Fresh beforeStaking ∧ ExactRun beforeStaking stakedAll ∧ Backed beforeStaking stakedAll ∧
      invoke exactTransfer (signedBy [⟨1⟩] 1000) (.slash ⟨1⟩ ⟨3⟩ 40 "late" ⟨0⟩) stakedAll =
        (.ok (.id 1), slashedTo ⟨0⟩) ∧
      (Call.slash ⟨1⟩ ⟨3⟩ 40 "late" ⟨0⟩).debited stakedAll (slashedTo ⟨0⟩) = 40 ∧
      stakedAll.balances.of stakedAll.self =
        (slashedTo ⟨0⟩).balances.of (slashedTo ⟨0⟩).self ∧
      ¬ Backed beforeStaking (slashedTo ⟨0⟩) ∧
      ∀ later, ExactRun (slashedTo ⟨0⟩) later →
        buckets later + 40 ≤ later.balances.of later.self := by
  refine ⟨beforeStaking_fresh, stakedAll_run, by unfold Backed; decide, rfl, by decide, by decide,
    by unfold Backed; decide, fun later run => ?_⟩
  -- The surplus of the slashed registry is never spent.
  have formed := ExactRun.wellFormed beforeStaking_fresh (slashedTo_run ⟨0⟩)
  have kept := surplus_le_of_run formed run
  have stranded : surplus (slashedTo ⟨0⟩) = 40 := by decide
  rw [stranded] at kept
  unfold surplus at kept
  omega

end KeeperNetwork
