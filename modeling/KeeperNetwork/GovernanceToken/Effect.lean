import KeeperNetwork.GovernanceToken.Token

/-! What a returning call of the governance token has done. -/

namespace KeeperNetwork.GovernanceToken

open Soroban

/-- Everything but balances and checkpoints is the same in two states. -/
structure SameTerms (e e' : Env) : Prop where
  sequence : e'.sequence = e.sequence
  timestamp : e'.timestamp = e.timestamp
  admin : e'.admin = e.admin
  initialized : e'.initialized = e.initialized
  allowances : e'.allowances = e.allowances
  vesting : e'.vesting = e.vesting
  events : e'.events = e.events

/-- A balance was written and checkpointed. -/
inductive Wrote (e : Env) (id : Address) (amount : Int) : Env → Prop
  /-- The last checkpoint is of the same ledger and is overwritten. -/
  | overwrite {last : Nat} {cp : Checkpoint} (counted : e.countOf id = last + 1)
      (found : e.checkpoints.lookup (id, last) = some cp) (same : cp.ledger = e.sequence) :
      Wrote e id amount
        (Env.writeCheckpoint { e with balances := e.balances.insert id amount } id last amount)
  /-- No checkpoint of this ledger exists and one is added. -/
  | behind (room : e.countOf id < u32Max)
      (fresh : ∀ last cp, e.countOf id = last + 1 → e.checkpoints.lookup (id, last) = some cp →
        cp.ledger ≠ e.sequence) :
      Wrote e id amount
        { Env.writeCheckpoint { e with balances := e.balances.insert id amount } id
            (e.countOf id) amount with
          checkpointCount := e.checkpointCount.insert id (e.countOf id + 1) }

/-- Writing the balances map does not touch the number of checkpoints. -/
@[simp] theorem countOf_balances (e : Env) (id : Address)
    (balances : Finmap fun _ : Address => Int) :
    ({ e with balances } : Env).countOf id = e.countOf id := rfl

theorem setBalance_wrote {e e' : Env} {id : Address} {amount : Int} {u : Unit}
    (ran : (setBalance id amount).Returns e u e') : Wrote e id amount e' := by
  unfold setBalance at ran
  simp only [EStateM.returns_bind, EStateM.returns_modify, EStateM.returns_get] at ran
  obtain ⟨_, _, rfl, _, _, ⟨rfl, rfl⟩, ran⟩ := ran
  rw [countOf_balances] at ran
  -- An account without checkpoints, or with one of an earlier ledger, gets a new one.
  have added (fresh : ∀ last cp, e.countOf id = last + 1 →
        e.checkpoints.lookup (id, last) = some cp → cp.ledger ≠ e.sequence)
      (appended : (appendCheckpoint id amount).Returns
        { e with balances := e.balances.insert id amount } u e') : Wrote e id amount e' := by
    unfold appendCheckpoint at appended
    simp only [EStateM.returns_bind, EStateM.returns_modify, EStateM.returns_get,
      expect_returns, checkedSucc_eq_some] at appended
    obtain ⟨_, _, ⟨rfl, rfl⟩, _, _, ⟨⟨rfl, room⟩, rfl⟩, rfl⟩ := appended
    exact .behind room fresh
  split at ran
  · rename_i none
    exact added (fun last cp counted => absurd (none.symm.trans counted) (by omega)) ran
  · rename_i last counted
    simp only [EStateM.returns_bind, expect_returns, EStateM.returns_ite,
      EStateM.returns_modify] at ran
    obtain ⟨cp, _, ⟨found, rfl⟩, ran⟩ := ran
    split at ran
    · rename_i same
      exact ran ▸ .overwrite counted found same
    · rename_i earlier
      refine added (fun other cp' counted' found' => ?_) ran
      obtain rfl : other = last := by omega
      obtain rfl : cp' = cp := Option.some.inj (found'.symm.trans found)
      exact earlier

namespace Wrote

variable {e e' : Env} {id : Address} {amount : Int}

theorem balances (wrote : Wrote e id amount e') : e'.balances = e.balances.insert id amount := by
  cases wrote <;> rfl

/-- Writing a balance changes balances and checkpoints only. -/
theorem sameTerms (wrote : Wrote e id amount e') : SameTerms e e' := by
  cases wrote <;> constructor <;> rfl

theorem balance (wrote : Wrote e id amount e') (other : Address) :
    e'.balance other = if other = id then amount else e.balance other := by
  unfold Env.balance
  rw [wrote.balances, Finmap.lookup_insert_eq]
  split <;> rfl

end Wrote

/-- The funds a debit was checked against. -/
structure Funded (e : Env) (src : Address) (amount : Int) : Prop where
  positive : 0 < amount
  spendable : ∃ spendable, e.spendableBalance src = some spendable ∧ amount ≤ spendable
  held : amount ≤ e.balance src

/-- An allowance was lowered by an amount it covered. -/
structure Spent (e : Env) (src spender : Address) (amount : Int) (value : AllowanceValue) :
    Prop where
  found : e.allowances.lookup (src, spender) = some value
  covered : amount ≤ e.allowance src spender

def Env.lowerAllowance (e : Env) (src spender : Address) (rest : Int) (value : AllowanceValue) :
    Env :=
  { e with allowances := e.allowances.insert (src, spender) ⟨rest, value.expirationLedger⟩ }

/-- Everything a returning call can have done. -/
inductive Effect (e : Env) (auths : List Address) : Call → Env → Prop
  | minted {admin earlyKeepers treasury coreTeam publicDistribution : Address}
      {first second third fourth : Env} (fresh : e.initialized = false) (auth : admin ∈ auths)
      (early : Wrote { e with admin := some admin, initialized := true } earlyKeepers
        allocEarlyKeepers first)
      (dao : Wrote (first.emit (.mint admin earlyKeepers allocEarlyKeepers)) treasury
        allocTreasury second)
      (team : Wrote (second.emit (.mint admin treasury allocTreasury)) coreTeam
        allocCoreTeam third)
      (rest : Wrote (Env.emit { third with
        vesting := third.vesting.insert coreTeam
          ⟨allocCoreTeam, third.timestamp, teamCliffSeconds, teamVestingSeconds⟩ }
        (.mint admin coreTeam allocCoreTeam)) publicDistribution allocPublic fourth) :
      Effect e auths (.initializeToken admin earlyKeepers treasury coreTeam publicDistribution)
        (fourth.emit (.mint admin publicDistribution allocPublic))
  | approved {src spender : Address} {amount : Int} {expirationLedger : Nat} (auth : src ∈ auths)
      (nonneg : 0 ≤ amount) (ahead : e.sequence ≤ expirationLedger) :
      Effect e auths (.approve src spender amount expirationLedger)
        (Env.emit { e with
          allowances :=
            if amount = 0 then e.allowances.erase (src, spender)
            else e.allowances.insert (src, spender) ⟨amount, expirationLedger⟩ }
          (.approve src spender amount))
  | transferredNothing {src dst : Address} (auth : src ∈ auths) :
      Effect e auths (.transfer src dst 0) e
  | transferred {src dst : Address} {amount : Int} {debited credited : Env} (auth : src ∈ auths)
      (funded : Funded e src amount)
      (debit : Wrote e src (e.balance src - amount) debited)
      (credit : Wrote debited dst (e.balance dst + amount) credited)
      (fits : e.balance dst + amount ≤ i128Max) :
      Effect e auths (.transfer src dst amount) (credited.emit (.transfer src dst amount))
  | transferredFromNothing {spender src dst : Address} (auth : spender ∈ auths) :
      Effect e auths (.transferFrom spender src dst 0) e
  | transferredFrom {spender src dst : Address} {amount : Int} {debited credited : Env}
      {value : AllowanceValue} (auth : spender ∈ auths) (funded : Funded e src amount)
      (spent : Spent e src spender amount value)
      (debit : Wrote e src (e.balance src - amount) debited)
      (credit : Wrote debited dst (e.balance dst + amount) credited)
      (fits : e.balance dst + amount ≤ i128Max) :
      Effect e auths (.transferFrom spender src dst amount)
        ((credited.lowerAllowance src spender (e.allowance src spender - amount) value).emit
          (.transfer src dst amount))
  | burnedNothing {src : Address} (auth : src ∈ auths) : Effect e auths (.burn src 0) e
  | burned {src : Address} {amount : Int} {debited : Env} (auth : src ∈ auths)
      (funded : Funded e src amount) (debit : Wrote e src (e.balance src - amount) debited) :
      Effect e auths (.burn src amount) (debited.emit (.burn src amount))
  | burnedFromNothing {spender src : Address} (auth : spender ∈ auths) :
      Effect e auths (.burnFrom spender src 0) e
  | burnedFrom {spender src : Address} {amount : Int} {debited : Env} {value : AllowanceValue}
      (auth : spender ∈ auths) (funded : Funded e src amount)
      (spent : Spent e src spender amount value)
      (debit : Wrote e src (e.balance src - amount) debited) :
      Effect e auths (.burnFrom spender src amount)
        ((debited.lowerAllowance src spender (e.allowance src spender - amount) value).emit
          (.burn src amount))

section Inversion

variable {e e' : Env} {auths : List Address} {src dst spender : Address} {amount : Int}

theorem requireFunds_returns {held : Int} :
    (requireFunds src amount).Returns e held e' ↔
      (∃ spendable, e.spendableBalance src = some spendable ∧ amount ≤ spendable) ∧
        amount ≤ e.balance src ∧ held = e.balance src ∧ e' = e := by
  -- The spendable part is asked for before the whole balance.
  simp [requireFunds, ← exists_and_right, and_assoc, @and_comm (held = _)]

theorem moveTokens_effect {u : Unit} (positive : 0 < amount)
    (ran : (moveTokens src dst amount).Returns e u e') :
    Funded e src amount ∧ e.balance dst + amount ≤ i128Max ∧
      ∃ debited, Wrote e src (e.balance src - amount) debited ∧
        Wrote debited dst (e.balance dst + amount) e' := by
  -- The credit is computed from the balance before the debit.
  simp only [moveTokens, EStateM.returns_bind, EStateM.returns_get, requireFunds_returns,
    expect_returns, checkedAdd_eq_some, checkedSub_eq_some] at ran
  obtain ⟨_, _, ⟨spendable, held, rfl, rfl⟩, _, _, ⟨rfl, rfl⟩, _, _, ⟨⟨rfl, -⟩, rfl⟩, _, debited,
    debit, _, _, ⟨⟨rfl, -, fits⟩, rfl⟩, credit⟩ := ran
  exact ⟨⟨positive, spendable, held⟩, fits, _, setBalance_wrote debit, setBalance_wrote credit⟩

theorem burnTokens_effect {u : Unit} (positive : 0 < amount)
    (ran : (burnTokens src amount).Returns e u e') :
    Funded e src amount ∧ Wrote e src (e.balance src - amount) e' := by
  simp only [burnTokens, EStateM.returns_bind, requireFunds_returns, expect_returns,
    checkedSub_eq_some] at ran
  obtain ⟨_, _, ⟨spendable, held, rfl, rfl⟩, _, _, ⟨⟨rfl, -⟩, rfl⟩, debit⟩ := ran
  exact ⟨⟨positive, spendable, held⟩, setBalance_wrote debit⟩

theorem spendAllowance_effect {current : Int} {u : Unit}
    (ran : (spendAllowance src spender current amount).Returns e u e') :
    ∃ value, e.allowances.lookup (src, spender) = some value ∧
      e' = e.lowerAllowance src spender (current - amount) value := by
  -- The stored allowance is lowered, with its expiration kept.
  simp only [spendAllowance, EStateM.returns_bind, EStateM.returns_get, EStateM.returns_modify,
    expect_returns, checkedSub_eq_some] at ran
  obtain ⟨_, _, ⟨rfl, rfl⟩, value, _, ⟨found, rfl⟩, _, _, ⟨⟨rfl, -⟩, rfl⟩, rfl⟩ := ran
  exact ⟨value, found, rfl⟩

theorem initializeToken_effect {admin earlyKeepers treasury coreTeam publicDistribution : Address}
    {u : Unit}
    (ran : (initializeToken auths admin earlyKeepers treasury coreTeam publicDistribution).Returns
      e u e') :
    Effect e auths (.initializeToken admin earlyKeepers treasury coreTeam publicDistribution)
      e' := by
  -- The four shares are written one after the other, with the schedule in between.
  simp only [initializeToken, EStateM.returns_bind, EStateM.returns_get, EStateM.returns_modify,
    rejectIf_returns, requireAuth_returns, Bool.not_eq_true] at ran
  obtain ⟨_, _, ⟨rfl, rfl⟩, _, _, ⟨fresh, rfl⟩, _, _, ⟨auth, rfl⟩, _, _, rfl, _, first, early, _, _,
    rfl, _, second, dao, _, _, rfl, _, third, team, _, _, rfl, _, _, rfl, _, fourth, rest, rfl⟩ :=
    ran
  exact .minted fresh auth (setBalance_wrote early) (setBalance_wrote dao) (setBalance_wrote team)
    (setBalance_wrote rest)

theorem positive_returns {holder : Address} {act : Contract Unit} {u : Unit} :
    (do requireAuth auths holder
        rejectIf (amount < 0) .negativeAmount
        if amount = 0 then pure () else act : Contract Unit).Returns e u e' ↔
      holder ∈ auths ∧ (amount = 0 ∧ e' = e ∨ 0 < amount ∧ act.Returns e u e') := by
  rcases lt_trichotomy amount 0 with negative | zero | positive
  · simp [negative, negative.ne, not_lt.mpr negative.le]
  · simp [zero]
  · simp [positive, positive.ne', not_lt.mpr positive.le]

/-- A call that returns has the effect of its entry point. -/
theorem perform_effect {call : Call} {u : Unit} (ran : (perform auths call).Returns e u e') :
    Effect e auths call e' := by
  cases call with
  | initializeToken admin earlyKeepers treasury coreTeam publicDistribution =>
    exact initializeToken_effect ran
  | approve src spender amount expirationLedger =>
    simp only [perform, approve, EStateM.returns_bind, EStateM.returns_get, EStateM.returns_modify,
      rejectIf_returns, requireAuth_returns, not_lt] at ran
    obtain ⟨_, _, ⟨auth, rfl⟩, _, _, ⟨nonneg, rfl⟩, _, _, ⟨rfl, rfl⟩, _, _, ⟨ahead, rfl⟩, _, _, rfl,
      rfl⟩ := ran
    exact .approved auth nonneg ahead
  | transfer src dst amount =>
    obtain ⟨auth, ⟨rfl, rfl⟩ | ⟨positive, ran⟩⟩ := positive_returns.mp ran
    · exact .transferredNothing auth
    · simp only [EStateM.returns_bind, EStateM.returns_modify] at ran
      obtain ⟨_, _, moved, rfl⟩ := ran
      obtain ⟨funded, fits, debited, debit, credit⟩ := moveTokens_effect positive moved
      exact .transferred auth funded debit credit fits
  | transferFrom spender src dst amount =>
    obtain ⟨auth, ⟨rfl, rfl⟩ | ⟨positive, ran⟩⟩ := positive_returns.mp ran
    · exact .transferredFromNothing auth
    · simp only [EStateM.returns_bind, EStateM.returns_modify, EStateM.returns_get,
        rejectIf_returns, not_lt] at ran
      obtain ⟨_, _, ⟨rfl, rfl⟩, _, _, ⟨covered, rfl⟩, _, _, moved, _, _, lowered, rfl⟩ := ran
      obtain ⟨funded, fits, debited, debit, credit⟩ := moveTokens_effect positive moved
      obtain ⟨value, found, rfl⟩ := spendAllowance_effect lowered
      -- Moving tokens leaves every allowance as it was.
      rw [credit.sameTerms.allowances, debit.sameTerms.allowances] at found
      exact .transferredFrom auth funded ⟨found, covered⟩ debit credit fits
  | burn src amount =>
    obtain ⟨auth, ⟨rfl, rfl⟩ | ⟨positive, ran⟩⟩ := positive_returns.mp ran
    · exact .burnedNothing auth
    · simp only [EStateM.returns_bind, EStateM.returns_modify] at ran
      obtain ⟨_, _, taken, rfl⟩ := ran
      obtain ⟨funded, debit⟩ := burnTokens_effect positive taken
      exact .burned auth funded debit
  | burnFrom spender src amount =>
    obtain ⟨auth, ⟨rfl, rfl⟩ | ⟨positive, ran⟩⟩ := positive_returns.mp ran
    · exact .burnedFromNothing auth
    · -- The allowance is checked first, and lowered only after the burn.
      simp only [EStateM.returns_bind, EStateM.returns_modify, EStateM.returns_get,
        rejectIf_returns, not_lt] at ran
      obtain ⟨_, _, ⟨rfl, rfl⟩, _, _, ⟨covered, rfl⟩, _, _, taken, _, _, lowered, rfl⟩ := ran
      obtain ⟨funded, debit⟩ := burnTokens_effect positive taken
      obtain ⟨value, found, rfl⟩ := spendAllowance_effect lowered
      rw [debit.sameTerms.allowances] at found
      exact .burnedFrom auth funded ⟨found, covered⟩ debit

/-- The initialization sets its flag, which none of its writes clears. -/
theorem Effect.minted_initialized
    {admin earlyKeepers treasury coreTeam publicDistribution : Address} (effect : Effect e auths
      (.initializeToken admin earlyKeepers treasury coreTeam publicDistribution) e') :
    e'.initialized = true := by
  cases effect with
  | minted fresh auth early dao team rest =>
    simp only [Env.emit, rest.sameTerms.initialized, team.sameTerms.initialized,
      dao.sameTerms.initialized, early.sameTerms.initialized]

/-- A call takes no time, and only the initialization writes its flag and the schedules. -/
theorem Effect.frame {call : Call} (effect : Effect e auths call e') :
    e'.sequence = e.sequence ∧ e'.timestamp = e.timestamp ∧
      (e.initialized = false ∧ e'.initialized = true ∨
        e'.initialized = e.initialized ∧ e'.vesting = e.vesting) := by
  cases shape : effect with
  | minted fresh auth early dao team rest =>
    refine ⟨?_, ?_, .inl ⟨fresh, effect.minted_initialized⟩⟩
    · simp only [Env.emit, rest.sameTerms.sequence, team.sameTerms.sequence,
        dao.sameTerms.sequence, early.sameTerms.sequence]
    · simp only [Env.emit, rest.sameTerms.timestamp, team.sameTerms.timestamp,
        dao.sameTerms.timestamp, early.sameTerms.timestamp]
  | approved | transferredNothing | transferredFromNothing | burnedNothing | burnedFromNothing =>
    exact ⟨rfl, rfl, .inr ⟨rfl, rfl⟩⟩
  | transferred _ _ debit credit | transferredFrom _ _ _ debit credit =>
    have first := debit.sameTerms
    have second := credit.sameTerms
    exact ⟨second.sequence.trans first.sequence, second.timestamp.trans first.timestamp,
      .inr ⟨second.initialized.trans first.initialized, second.vesting.trans first.vesting⟩⟩
  | burned _ _ debit | burnedFrom _ _ _ debit =>
    have same := debit.sameTerms
    exact ⟨same.sequence, same.timestamp, .inr ⟨same.initialized, same.vesting⟩⟩

end Inversion

end KeeperNetwork.GovernanceToken
