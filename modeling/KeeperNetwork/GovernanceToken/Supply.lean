import KeeperNetwork.GovernanceToken.Effect

/-! The governance token's supply: no balance is negative, and only burning changes their sum. -/

namespace KeeperNetwork.GovernanceToken

open Soroban

def Env.total (e : Env) : Int := e.balances.total fun amount => amount

theorem balance_eq_weightAt (e : Env) (id : Address) :
    e.balance id = e.balances.weightAt (fun amount => amount) id := by
  unfold Env.balance Finmap.weightAt
  cases e.balances.lookup id <;> rfl

variable {amount : Int}

theorem Wrote.total {e e' : Env} {id : Address} (wrote : Wrote e id amount e') :
    e'.total = e.total - e.balance id + amount := by
  unfold Env.total
  rw [wrote.balances, Finmap.total_insert, balance_eq_weightAt]

@[simp] theorem emit_total (e : Env) (event : Event) : (e.emit event).total = e.total := rfl

@[simp] theorem lowerAllowance_total (e : Env) (src spender : Address) (rest : Int)
    (value : AllowanceValue) : (e.lowerAllowance src spender rest value).total = e.total := rfl

/-- No balance is negative, and before its initialization the token has no holders. -/
structure Held (e : Env) : Prop where
  nonneg : ∀ id, 0 ≤ e.balance id
  blank : e.initialized = false → e.balances = ∅

theorem Held.initialized {e : Env} {src : Address} (held : Held e) (funded : Funded e src amount) :
    e.initialized = true := by
  -- Without any balances nothing positive can be held.
  by_contra not
  have empty := held.blank (Bool.eq_false_iff.mpr not)
  have none : e.balance src = 0 := by simp [Env.balance, empty]
  have := funded.positive
  have := funded.held
  omega

theorem total_move {e debited credited : Env} {src dst : Address} (apart : src ≠ dst)
    (debit : Wrote e src (e.balance src - amount) debited)
    (credit : Wrote debited dst (e.balance dst + amount) credited) : credited.total = e.total := by
  -- The debit leaves the receiver's balance as it was read.
  have unread : debited.balance dst = e.balance dst := by
    rw [debit.balance, if_neg apart.symm]
  rw [credit.total, unread, debit.total]
  omega

theorem Wrote.all {e e' : Env} {id : Address} (wrote : Wrote e id amount e') (holds : Int → Prop)
    (before : ∀ id, holds (e.balance id)) (new : holds amount) : ∀ id, holds (e'.balance id) := by
  -- One balance is the new one, and the others are as they were.
  intro other
  rw [wrote.balance]
  split
  · exact new
  · exact before other

section Effects

variable {e e' : Env} {auths : List Address} {call : Call}

theorem Effect.all (effect : Effect e auths call e') (holds : Int → Prop)
    (before : ∀ id, holds (e.balance id))
    (allocated : ∀ amount ∈ [allocEarlyKeepers, allocTreasury, allocCoreTeam, allocPublic],
      holds amount) (debited : ∀ src amount, Funded e src amount → holds (e.balance src - amount))
    (credited : ∀ dst amount, 0 < amount → e.balance dst + amount ≤ i128Max →
      holds (e.balance dst + amount)) : ∀ id, holds (e'.balance id) := by
  cases effect with
  | minted fresh auth early dao team rest =>
    -- The four shares are written one after the other.
    have one := early.all holds before (allocated _ (by simp))
    have two := dao.all holds one (allocated _ (by simp))
    have three := team.all holds two (allocated _ (by simp))
    exact rest.all holds three (allocated _ (by simp))
  | approved | transferredNothing | transferredFromNothing | burnedNothing | burnedFromNothing =>
    exact before
  | transferred _ funded debit credit fits | transferredFrom _ funded _ debit credit fits =>
    have middle := debit.all holds before (debited _ _ funded)
    exact credit.all holds middle (credited _ _ funded.positive fits)
  | burned _ funded debit | burnedFrom _ funded _ debit =>
    exact debit.all holds before (debited _ _ funded)

theorem Effect.stays_initialized (effect : Effect e auths call e')
    (done : e.initialized = true) : e'.initialized = true :=
  effect.frame.2.2.elim (fun set => set.2) fun same => same.1.trans done

theorem Effect.held (effect : Effect e auths call e') (held : Held e) : Held e' := by
  refine ⟨effect.all (0 ≤ ·) held.nonneg (by decide) ?_ ?_, fun fresh => ?_⟩
  · intro src amount funded
    have := funded.held
    omega
  · intro dst amount positive _
    have := held.nonneg dst
    omega
  · cases shape : effect with
    | minted => exact Bool.noConfusion (fresh.symm.trans effect.minted_initialized)
    | approved | transferredNothing | transferredFromNothing | burnedNothing | burnedFromNothing =>
      exact held.blank fresh
    | transferred _ funded | transferredFrom _ funded | burned _ funded | burnedFrom _ funded =>
      -- Every movement is funded, so the token was initialized before it.
      rw [effect.stays_initialized (held.initialized funded)] at fresh
      cases fresh

end Effects

variable {label : Label}

theorem Step.held {e e' : Env} (step : Step e label e') (held : Held e) : Held e' := by
  cases step with
  | called ran => exact (perform_effect ran).held held
  | refused => exact held
  | closed => exact ⟨held.nonneg, held.blank⟩

theorem deployed_held (sequence timestamp : Nat) : Held (deployed sequence timestamp) :=
  ⟨fun id => by simp [Env.balance, deployed], fun _ => rfl⟩

theorem Trace.held {sequence timestamp : Nat} {labels : List Label} {e : Env}
    (run : Trace Step (deployed sequence timestamp) labels e) : Held e :=
  run.preserves (fun _ _ _ step => step.held) (deployed_held sequence timestamp)

/-- Every balance fits a signed 128-bit value. -/
def Narrow (e : Env) : Prop := ∀ id, e.balance id ≤ i128Max

/-- Every call keeps the balances within their type. -/
theorem Effect.narrow {e e' : Env} {auths : List Address} {call : Call}
    (effect : Effect e auths call e') (narrow : Narrow e) : Narrow e' := by
  refine effect.all (· ≤ i128Max) narrow (by decide) ?_ fun _ _ _ fits => fits
  intro src amount funded
  have := funded.positive
  have := narrow src
  omega

/-- Every step keeps the balances within their type. -/
theorem Step.narrow {e e' : Env} (step : Step e label e') (narrow : Narrow e) : Narrow e' := by
  cases step with
  | called ran => exact (perform_effect ran).narrow narrow
  | refused | closed => exact narrow

theorem deployed_narrow (sequence timestamp : Nat) : Narrow (deployed sequence timestamp) :=
  fun id => by simpa [Env.balance, deployed] using Int.le_of_lt i128_signs.2

theorem Held.balance_le_total {e : Env} (held : Held e) (id : Address) :
    e.balance id ≤ e.total := by
  -- No stored balance is negative, so one of them is at most the sum.
  have stored (key : Address) (value : Int) (found : e.balances.lookup key = some value) :
      0 ≤ value := by
    have nonneg := held.nonneg key
    simpa [Env.balance, found] using nonneg
  rw [balance_eq_weightAt]
  exact Finmap.weightAt_le_total stored id

/-- No positive amount is sent by a holder to itself. -/
def Label.Apart : Label → Prop
  | .call (.transfer src dst amount) => 0 < amount → src ≠ dst
  | .call (.transferFrom _ src dst amount) => 0 < amount → src ≠ dst
  | _ => True

def Label.burned : Label → Int
  | .call (.burn _ amount) => amount
  | .call (.burnFrom _ _ amount) => amount
  | _ => 0

/-- Whether a call is to be followed only on condition that its parties differ is decidable. -/
instance (label : Label) : Decidable label.Apart := by
  unfold Label.Apart
  split <;> infer_instance

def Call.Burns (amount : Int) : Call → Prop
  | .burn _ burned => burned = amount
  | .burnFrom _ _ burned => burned = amount
  | _ => False

theorem Effect.total_cases {e e' : Env} {auths : List Address} {call : Call}
    (effect : Effect e auths call e') (held : Held e) :
    e.initialized = false ∧ e'.initialized = true ∧ allocPublic ≤ e'.total ∨
      e'.initialized = e.initialized ∧ (e.total ≤ e'.total ∨
        ∃ amount, 0 < amount ∧ call.Burns amount ∧ e'.total = e.total - amount) := by
  -- The mint creates, a transfer moves and a burn destroys.
  cases shape : effect with
  | @minted _ _ _ _ publicDistribution _ _ _ fourth fresh auth early dao team rest =>
    -- No later write replaces the last one.
    have last : fourth.balance publicDistribution = allocPublic :=
      (rest.balance _).trans (if_pos rfl)
    have share := (effect.held held).balance_le_total publicDistribution
    exact .inl ⟨fresh, effect.minted_initialized, last.symm.trans_le share⟩
  | approved | transferredNothing | transferredFromNothing | burnedNothing | burnedFromNothing =>
    exact .inr ⟨rfl, .inl le_rfl⟩
  | @transferred src dst amount debited credited auth funded debit credit
  | @transferredFrom _ src dst amount debited credited _ auth funded spent debit credit =>
    have grows : e.total ≤ credited.total := by
      by_cases apart : src = dst
      · -- A transfer to oneself only credits.
        have := funded.positive
        subst apart
        rw [credit.total, debit.total, debit.balance, if_pos rfl]
        omega
      · exact (total_move apart debit credit).ge
    exact .inr ⟨credit.sameTerms.initialized.trans debit.sameTerms.initialized, .inl grows⟩
  | burned auth funded debit | burnedFrom auth funded spent debit =>
    refine .inr ⟨debit.sameTerms.initialized, .inr ⟨_, funded.positive, rfl, ?_⟩⟩
    have sum := debit.total
    simp only [emit_total, lowerAllowance_total]
    omega

theorem Step.stays_initialized {e e' : Env} (step : Step e label e') (done : e.initialized = true) :
    e'.initialized = true := by
  cases step with
  | refused | closed => exact done
  | called ran => exact (perform_effect ran).stays_initialized done

theorem Step.total {e e' : Env} (step : Step e label e') (apart : label.Apart)
    (done : e.initialized = true) : e'.total = e.total - label.burned := by
  cases step with
  | refused | closed => exact (Int.sub_zero _).symm
  | called ran =>
    -- Within one initialization only burns change the sum.
    cases perform_effect ran with
    | minted fresh => rw [done] at fresh; cases fresh
    | approved | transferredNothing | transferredFromNothing | burnedNothing
    | burnedFromNothing => exact (Int.sub_zero _).symm
    | transferred auth funded debit credit | transferredFrom auth funded spent debit credit =>
      simp only [emit_total, lowerAllowance_total,
        total_move (apart funded.positive) debit credit]
      exact (Int.sub_zero _).symm
    | burned auth funded debit | burnedFrom auth funded spent debit =>
      simp only [emit_total, lowerAllowance_total, debit.total, Label.burned]
      omega

/-- The initialization mints the total supply. -/
theorem total_minted {e e' : Env} {auths : List Address}
    {admin earlyKeepers treasury coreTeam publicDistribution : Address} (held : Held e)
    (distinct : [earlyKeepers, treasury, coreTeam, publicDistribution].Nodup)
    (effect : Effect e auths
      (.initializeToken admin earlyKeepers treasury coreTeam publicDistribution) e') :
    e'.total = totalSupply := by
  cases effect with
  | minted fresh auth early dao team rest =>
    rename_i first second third fourth
    have empty := held.blank fresh
    have nobody : ∀ id, e.balance id = 0 := fun id => by simp [Env.balance, empty]
    have zero : e.total = 0 := by simp [Env.total, empty]
    simp only [List.nodup_cons, List.mem_cons, List.not_mem_nil, or_false, not_or,
      not_false_eq_true, List.nodup_nil, and_true] at distinct
    obtain ⟨⟨ab, ac, ad⟩, ⟨bc, bd⟩, cd⟩ := distinct
    -- Each allocation is written at an address that holds nothing yet.
    have one : first.total = e.total - e.balance earlyKeepers + allocEarlyKeepers := early.total
    have two : second.total = first.total - first.balance treasury + allocTreasury := dao.total
    have three : third.total = second.total - second.balance coreTeam + allocCoreTeam := team.total
    have four : fourth.total = third.total - third.balance publicDistribution + allocPublic :=
      rest.total
    have atFirst (id : Address) : first.balance id =
        if id = earlyKeepers then allocEarlyKeepers else e.balance id := early.balance id
    have atSecond (id : Address) : second.balance id =
        if id = treasury then allocTreasury else first.balance id := dao.balance id
    have atThird (id : Address) : third.balance id =
        if id = coreTeam then allocCoreTeam else second.balance id := team.balance id
    rw [atFirst, if_neg (Ne.symm ab), nobody] at two
    rw [atSecond, if_neg (Ne.symm bc), atFirst, if_neg (Ne.symm ac), nobody] at three
    rw [atThird, if_neg (Ne.symm cd), atSecond, if_neg (Ne.symm bd), atFirst, if_neg (Ne.symm ad),
      nobody] at four
    rw [nobody] at one
    have sum := allocations_total
    rw [emit_total]
    omega

/--
The supply is conserved in every run in which no positive amount is sent by a holder to itself.

No balance is negative, and the balances sum to the fixed supply without what was burned. A step
changes the sum by what it burns and by nothing else.
-/
theorem supply_conserved {sequence timestamp : Nat} {prior labels : List Label}
    {before first e : Env} {auths : List Address}
    {admin earlyKeepers treasury coreTeam publicDistribution : Address}
    (deploy : Trace Step (deployed sequence timestamp) prior before)
    (ran : (initializeToken auths admin earlyKeepers treasury coreTeam publicDistribution).Returns
      before () first)
    (distinct : [earlyKeepers, treasury, coreTeam, publicDistribution].Nodup)
    (run : Trace Step first labels e) (apart : ∀ label ∈ labels, label.Apart) :
    (∀ id, 0 ≤ e.balance id) ∧ e.total = totalSupply - (labels.map Label.burned).sum ∧
      ∀ label e', Step e label e' → label.Apart → e'.total = e.total - label.burned := by
  have effect := initializeToken_effect ran
  have minted := total_minted (Trace.held deploy) distinct effect
  have held : Held first := effect.held (Trace.held deploy)
  have done : first.initialized = true := effect.minted_initialized
  -- What is missing from the supply grows by exactly what each step burns.
  have booked (before : Env) (label : Label) (after : Env) (step : Step before label after)
      (apart : label.Apart) (holds : Held before ∧ before.initialized = true) :
      (Held after ∧ after.initialized = true) ∧
        totalSupply - after.total = totalSupply - before.total + label.burned := by
    refine ⟨⟨step.held holds.1, step.stays_initialized holds.2⟩, ?_⟩
    rw [step.total apart holds.2]
    omega
  obtain ⟨⟨sound, stays⟩, sum⟩ := run.books booked apart ⟨held, done⟩
  refine ⟨sound.nonneg, by omega, fun label e' step apart => step.total apart stays⟩

/-- A token whose supply was minted to four addresses. -/
def minted : Env :=
  Turn.next (deployed 1 0) (.call [⟨0⟩] (.initializeToken ⟨0⟩ ⟨1⟩ ⟨2⟩ ⟨3⟩ ⟨4⟩))

theorem minted_returns :
    (initializeToken [⟨0⟩] ⟨0⟩ ⟨1⟩ ⟨2⟩ ⟨3⟩ ⟨4⟩).Returns (deployed 1 0) () minted := by
  obtain ⟨_, ran⟩ := EStateM.returns_of_succeeds (show EStateM.succeeds
    (initializeToken [⟨0⟩] ⟨0⟩ ⟨1⟩ ⟨2⟩ ⟨3⟩ ⟨4⟩) (deployed 1 0) = true by decide)
  exact ran

/-- A transfer and a burn leave the supply without what was burned. -/
theorem supply_conserved_burning :
    (List.foldl Turn.next minted [.call [⟨1⟩] (.transfer ⟨1⟩ ⟨2⟩ 5), .close 7 9,
      .call [⟨2⟩] (.burn ⟨2⟩ 3)]).total = totalSupply - 3 :=
  (supply_conserved .nil minted_returns (by decide) (scripted (by decide)) (by decide)).2.1

/-- A transfer to oneself creates tokens, since both balances are read before either is written. -/
theorem self_transfer_mints :
    (initializeToken [⟨0⟩] ⟨0⟩ ⟨1⟩ ⟨2⟩ ⟨3⟩ ⟨4⟩).Returns (deployed 1 0) () minted ∧
      minted.total = totalSupply ∧
      ∃ e, Trace Step minted [.call (.transfer ⟨1⟩ ⟨1⟩ 5)] e ∧ e.total = totalSupply + 5 := by
  have run : Trace Step minted _ _ := scripted
    (show Trace.Playable Turn.next Turn.Legal minted [.call [⟨1⟩] (.transfer ⟨1⟩ ⟨1⟩ 5)] by decide)
  exact ⟨minted_returns, by decide, _, run, by decide⟩

end KeeperNetwork.GovernanceToken
