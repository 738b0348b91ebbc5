import KeeperNetwork.GovernanceToken.Supply

/-! The core team's tokens leave no faster than they vest. -/

namespace KeeperNetwork.GovernanceToken

open Soroban

def VestingSchedule.vested (schedule : VestingSchedule) (now : Nat) : Int :=
  if now < schedule.startTime + schedule.cliffDuration then 0
  else if schedule.startTime + schedule.totalDuration ≤ now then schedule.totalAmount
  else schedule.totalAmount * ((now - schedule.startTime : Nat) : Int) / schedule.totalDuration

/-- A schedule whose cliff is within its duration and whose arithmetic never overflows. -/
structure VestingSchedule.Sound (schedule : VestingSchedule) : Prop where
  nonneg : 0 ≤ schedule.totalAmount
  lasts : 0 < schedule.totalDuration
  within : schedule.cliffDuration ≤ schedule.totalDuration
  stops : schedule.startTime + schedule.totalDuration ≤ u64Max
  fits : schedule.totalAmount * schedule.totalDuration ≤ i128Max

namespace VestingSchedule

variable {schedule : VestingSchedule} {now later : Nat}

theorem Sound.vested_nonneg (sound : schedule.Sound) (now : Nat) : 0 ≤ schedule.vested now := by
  -- Before the cliff, after the end and in between, nothing negative is vested.
  unfold vested
  split
  · exact Int.le_refl _
  · split
    · exact sound.nonneg
    · apply Int.ediv_nonneg
      · exact Int.mul_nonneg sound.nonneg (Int.natCast_nonneg _)
      · exact Int.natCast_nonneg _

theorem Sound.vested_le (sound : schedule.Sound) (now : Nat) :
    schedule.vested now ≤ schedule.totalAmount := by
  unfold vested
  split
  · exact sound.nonneg
  · split
    · exact Int.le_refl _
    · -- Before the end less than the whole duration has elapsed.
      have lasts : (0 : Int) < schedule.totalDuration := Int.natCast_pos.mpr sound.lasts
      have elapsed : ((now - schedule.startTime : Nat) : Int) ≤ schedule.totalDuration := by omega
      apply Int.ediv_le_of_le_mul lasts
      exact Int.mul_le_mul_of_nonneg_left elapsed sound.nonneg

theorem Sound.vested_ended (sound : schedule.Sound)
    (ended : schedule.startTime + schedule.totalDuration ≤ now) :
    schedule.vested now = schedule.totalAmount := by
  have := sound.within
  rw [vested, if_neg (by omega), if_pos ended]

theorem Sound.vested_mono (sound : schedule.Sound) (passed : now ≤ later) :
    schedule.vested now ≤ schedule.vested later := by
  by_cases ended : schedule.startTime + schedule.totalDuration ≤ later
  · -- At the end everything has vested.
    rw [sound.vested_ended ended]
    exact sound.vested_le now
  · by_cases early : now < schedule.startTime + schedule.cliffDuration
    · -- Before the cliff nothing has vested.
      have nothing : schedule.vested now = 0 := if_pos early
      rw [nothing]
      exact sound.vested_nonneg later
    · -- In between the time that has elapsed only grows.
      have elapsed : ((now - schedule.startTime : Nat) : Int) ≤
          ((later - schedule.startTime : Nat) : Int) := by omega
      rw [vested, vested, if_neg early, if_neg (by omega), if_neg (by omega), if_neg ended]
      apply Int.ediv_le_ediv (Int.natCast_pos.mpr sound.lasts)
      exact Int.mul_le_mul_of_nonneg_left elapsed sound.nonneg

end VestingSchedule

section Reports

variable {e : Env} {id : Address} {schedule : VestingSchedule}

theorem vestedBalance_eq (found : e.vesting.lookup id = some schedule)
    (sound : schedule.Sound) : e.vestedBalance id = some (schedule.vested e.timestamp) := by
  have cliff : checkedAddNat u64Max schedule.startTime schedule.cliffDuration =
      some (schedule.startTime + schedule.cliffDuration) := by
    have := sound.within
    have := sound.stops
    exact checkedAddNat_eq_some.mpr ⟨rfl, by omega⟩
  have stop : checkedAddNat u64Max schedule.startTime schedule.totalDuration =
      some (schedule.startTime + schedule.totalDuration) :=
    checkedAddNat_eq_some.mpr ⟨rfl, sound.stops⟩
  simp only [Env.vestedBalance, found, cliff, stop, Option.bind_eq_bind, Option.bind_some,
    VestingSchedule.vested]
  split
  · rfl
  · split
    · rfl
    · -- Less than the whole duration has elapsed, so the product fits.
      have elapsed : ((e.timestamp - schedule.startTime : Nat) : Int) ≤ schedule.totalDuration := by
        omega
      have least : 0 ≤ schedule.totalAmount * ((e.timestamp - schedule.startTime : Nat) : Int) :=
        Int.mul_nonneg sound.nonneg (Int.natCast_nonneg _)
      have most := Int.mul_le_mul_of_nonneg_left elapsed sound.nonneg
      have product : checkedMul schedule.totalAmount
          ((e.timestamp - schedule.startTime : Nat) : Int) =
          some (schedule.totalAmount * ((e.timestamp - schedule.startTime : Nat) : Int)) := by
        have := i128_signs
        have := sound.fits
        exact checkedMul_eq_some.mpr ⟨rfl, by omega, by omega⟩
      rw [product, Option.bind_some, Int.tdiv_eq_ediv_of_nonneg least]

theorem unvestedBalance_eq (found : e.vesting.lookup id = some schedule) (sound : schedule.Sound) :
    e.unvestedBalance id = some (schedule.totalAmount - schedule.vested e.timestamp) := by
  have signs := i128_signs
  have least := sound.vested_nonneg e.timestamp
  have most := sound.vested_le e.timestamp
  -- One second of the amount is no more than all of its duration, which fits.
  have fits : schedule.totalAmount ≤ i128Max := by
    have once : (1 : Int) ≤ schedule.totalDuration := by
      have := sound.lasts
      omega
    have := Int.mul_le_mul_of_nonneg_left once sound.nonneg
    have := sound.fits
    omega
  simp only [Env.unvestedBalance, found, vestedBalance_eq found sound, Option.bind_eq_bind,
    Option.bind_some]
  exact checkedSub_eq_some.mpr ⟨rfl, by omega, by omega⟩

theorem spendableBalance_eq (found : e.vesting.lookup id = some schedule) (sound : schedule.Sound)
    (covered : schedule.totalAmount - schedule.vested e.timestamp ≤ e.balance id)
    (narrow : e.balance id ≤ i128Max) :
    e.spendableBalance id =
      some (e.balance id - (schedule.totalAmount - schedule.vested e.timestamp)) := by
  have signs := i128_signs
  -- What is locked is covered by the balance, so the subtraction neither wraps nor clamps.
  have most := sound.vested_le e.timestamp
  have difference : checkedSub (e.balance id)
      (schedule.totalAmount - schedule.vested e.timestamp) =
      some (e.balance id - (schedule.totalAmount - schedule.vested e.timestamp)) :=
    checkedSub_eq_some.mpr ⟨rfl, by omega, by omega⟩
  simp only [Env.spendableBalance, unvestedBalance_eq found sound, difference,
    Option.bind_eq_bind, Option.bind_some]
  exact if_neg (by omega)

end Reports

def Call.debit (id : Address) : Call → Option Int
  | .initializeToken .. => none
  | .approve .. => none
  | .transfer src _ amount => if src = id then some amount else none
  | .transferFrom _ src _ amount => if src = id then some amount else none
  | .burn src amount => if src = id then some amount else none
  | .burnFrom _ src amount => if src = id then some amount else none

section Calls

variable {e e' : Env} {auths : List Address} {call : Call} {id : Address} {amount : Int}

theorem Effect.funded (effect : Effect e auths call e') (debits : call.debit id = some amount) :
    amount = 0 ∨ Funded e id amount := by
  -- A movement of nothing is let through unchecked, and any other is checked.
  cases effect with
  | minted | approved => cases debits
  | transferredNothing | transferredFromNothing | burnedNothing | burnedFromNothing =>
    obtain ⟨-, same⟩ := Option.ite_none_right_eq_some.mp debits
    exact .inl (Option.some.inj same).symm
  | transferred auth funded | transferredFrom auth funded | burned auth funded
  | burnedFrom auth funded =>
    obtain ⟨rfl, same⟩ := Option.ite_none_right_eq_some.mp debits
    exact .inr (Option.some.inj same ▸ funded)

theorem Effect.balance_ge (effect : Effect e auths call e') (done : e.initialized = true)
    (id : Address) : e.balance id - (call.debit id).getD 0 ≤ e'.balance id := by
  -- Only what a call debits leaves an account, and whatever it credits adds to one.
  cases effect with
  | minted fresh => rw [done] at fresh; cases fresh
  | approved => exact Int.le_of_eq (Int.sub_zero _)
  | transferredNothing | transferredFromNothing | burnedNothing | burnedFromNothing =>
    simp only [Call.debit]
    split <;> exact Int.le_of_eq (Int.sub_zero _)
  | @transferred src dst amount debited credited _ funded debit credit
  | @transferredFrom _ src dst amount debited credited _ _ funded _ debit credit =>
    have positive := funded.positive
    change e.balance id - (if src = id then some amount else none).getD 0 ≤ credited.balance id
    rw [credit.balance, debit.balance]
    -- The credit is written last, so an account that pays itself does not lose.
    by_cases pays : src = id <;> by_cases receives : id = dst <;> grind
  | @burned src amount debited _ _ debit | @burnedFrom _ src amount debited _ _ _ _ debit =>
    change e.balance id - (if src = id then some amount else none).getD 0 ≤ debited.balance id
    rw [debit.balance]
    by_cases pays : src = id <;> grind

end Calls

/-- An account holds at least what its schedule still locks. -/
structure Locked (id : Address) (schedule : VestingSchedule) (e : Env) : Prop where
  done : e.initialized = true
  found : e.vesting.lookup id = some schedule
  covered : schedule.totalAmount - schedule.vested e.timestamp ≤ e.balance id
  narrow : Narrow e

section Locked

variable {e e' : Env} {id : Address} {schedule : VestingSchedule} {amount : Int}

theorem Locked.debit_le (locked : Locked id schedule e) (sound : schedule.Sound)
    {auths : List Address} {call : Call} (effect : Effect e auths call e')
    (debits : call.debit id = some amount) :
    amount ≤ e.balance id - (schedule.totalAmount - schedule.vested e.timestamp) := by
  have covered := locked.covered
  rcases effect.funded debits with rfl | funded
  · -- A debit of nothing needs the balance to cover what is locked.
    omega
  · obtain ⟨spendable, reported, enough⟩ := funded.spendable
    rw [spendableBalance_eq locked.found sound covered (locked.narrow id)] at reported
    obtain rfl := Option.some.inj reported
    exact enough

theorem Locked.step (locked : Locked id schedule e) (sound : schedule.Sound) {label : Label}
    (step : Step e label e') : Locked id schedule e' := by
  have done := step.stays_initialized locked.done
  have narrow := step.narrow locked.narrow
  cases step with
  | @called _ auths call ran =>
    have effect := perform_effect ran
    have schedules : e'.vesting = e.vesting := by
      rcases effect.frame.2.2 with ⟨fresh, -⟩ | ⟨-, same⟩
      · rw [locked.done] at fresh
        cases fresh
      · exact same
    refine ⟨done, schedules ▸ locked.found, ?_, narrow⟩
    have left := effect.balance_ge locked.done id
    rw [effect.frame.2.1]
    -- A call that debits the account leaves what is locked, and any other leaves it all.
    cases debits : call.debit id with
    | none =>
      have covered := locked.covered
      rw [debits, Option.getD_none] at left
      omega
    | some amount =>
      have enough := locked.debit_le sound effect debits
      rw [debits, Option.getD_some] at left
      omega
  | refused => exact locked
  | @closed sequence timestamp _ _ later _ =>
    -- As time passes less is locked.
    have vests : schedule.vested e.timestamp ≤ schedule.vested timestamp :=
      sound.vested_mono later
    have covered := locked.covered
    refine ⟨done, locked.found, ?_, narrow⟩
    change schedule.totalAmount - schedule.vested timestamp ≤ e.balance id
    omega

end Locked

def teamSchedule (start : Nat) : VestingSchedule :=
  ⟨allocCoreTeam, start, teamCliffSeconds, teamVestingSeconds⟩

theorem teamSchedule_sound {start : Nat} (stops : start + teamVestingSeconds ≤ u64Max) :
    (teamSchedule start).Sound where
  nonneg := show 0 ≤ allocCoreTeam by decide
  lasts := show 0 < teamVestingSeconds by decide
  within := show teamCliffSeconds ≤ teamVestingSeconds by decide
  stops := stops
  fits := show allocCoreTeam * teamVestingSeconds ≤ i128Max by decide

theorem Effect.minted_locked {e e' : Env} {auths : List Address}
    {admin earlyKeepers treasury coreTeam publicDistribution : Address}
    (effect : Effect e auths
      (.initializeToken admin earlyKeepers treasury coreTeam publicDistribution) e')
    (distinct : [earlyKeepers, treasury, coreTeam, publicDistribution].Nodup) (narrow : Narrow e)
    (stops : e.timestamp + teamVestingSeconds ≤ u64Max) :
    Locked coreTeam (teamSchedule e.timestamp) e' := by
  have done := effect.minted_initialized
  have bounded := effect.narrow narrow
  cases effect with
  | @minted _ _ _ _ _ first second third fourth fresh auth early dao team rest =>
    have apart : coreTeam ≠ publicDistribution := by
      simp only [List.nodup_cons, List.mem_cons, List.not_mem_nil, or_false] at distinct
      exact distinct.2.2.1
    -- Only the last allocation is written after the team's, and to another address.
    have balance : fourth.balance coreTeam = allocCoreTeam := by
      rw [rest.balance, if_neg apart]
      exact (team.balance coreTeam).trans (if_pos rfl)
    have now : third.timestamp = e.timestamp :=
      team.sameTerms.timestamp.trans (dao.sameTerms.timestamp.trans early.sameTerms.timestamp)
    refine ⟨done, ?_, ?_, bounded⟩
    · change fourth.vesting.lookup coreTeam = _
      rw [rest.sameTerms.vesting, ← now]
      exact Finmap.lookup_insert _
    · change allocCoreTeam - _ ≤ fourth.balance coreTeam
      have := (teamSchedule_sound stops).vested_nonneg fourth.timestamp
      rw [balance]
      change allocCoreTeam - (teamSchedule e.timestamp).vested fourth.timestamp ≤ allocCoreTeam
      omega

/--
Unvested team tokens cannot leave.

After an initialization with four distinct addresses, every run keeps in the team's account at
least what has not vested. What has vested is what the contract reports, lies between zero and the
allocation and never decreases. A debit of the account takes no more than what is free, and once
the schedule has ended everything is.
-/
theorem unvested_stays {sequence timestamp : Nat} {prior labels : List Label}
    {before first e : Env} {auths : List Address}
    {admin earlyKeepers treasury coreTeam publicDistribution : Address}
    (deploy : Trace Step (deployed sequence timestamp) prior before)
    (ran : (initializeToken auths admin earlyKeepers treasury coreTeam publicDistribution).Returns
      before () first)
    (distinct : [earlyKeepers, treasury, coreTeam, publicDistribution].Nodup)
    (stops : before.timestamp + teamVestingSeconds ≤ u64Max) (run : Trace Step first labels e) :
    allocCoreTeam - (teamSchedule before.timestamp).vested e.timestamp ≤ e.balance coreTeam ∧
      e.vestedBalance coreTeam = some ((teamSchedule before.timestamp).vested e.timestamp) ∧
      (∀ now, 0 ≤ (teamSchedule before.timestamp).vested now ∧
        (teamSchedule before.timestamp).vested now ≤ allocCoreTeam) ∧
      (∀ now later, now ≤ later →
        (teamSchedule before.timestamp).vested now ≤
          (teamSchedule before.timestamp).vested later) ∧
      (∀ auths call e' amount, (perform auths call).Returns e () e' →
        call.debit coreTeam = some amount →
        amount ≤ e.balance coreTeam -
          (allocCoreTeam - (teamSchedule before.timestamp).vested e.timestamp)) ∧
      (before.timestamp + teamVestingSeconds ≤ e.timestamp →
        e.spendableBalance coreTeam = some (e.balance coreTeam) ∧
        ∀ amount ≤ e.balance coreTeam,
          (requireFunds coreTeam amount).Returns e (e.balance coreTeam) e) := by
  have sound := teamSchedule_sound stops
  -- The mint is the step that locks the team's share, and every later one keeps it locked.
  have narrow : Narrow before :=
    deploy.preserves (fun _ _ _ step => step.narrow) (deployed_narrow sequence timestamp)
  have locked : Locked coreTeam (teamSchedule before.timestamp) e :=
    run.preserves (fun _ _ _ step held => held.step sound step)
      ((initializeToken_effect ran).minted_locked distinct narrow stops)
  refine ⟨locked.covered, vestedBalance_eq locked.found sound,
    fun now => ⟨sound.vested_nonneg now, sound.vested_le now⟩,
    fun now later passed => sound.vested_mono passed, ?_, ?_⟩
  · -- A debit is checked against what is vested at that moment.
    intro auths call e' amount returned debits
    exact locked.debit_le sound (perform_effect returned) debits
  · intro ended
    -- After the end everything is vested.
    have spendable : e.spendableBalance coreTeam = some (e.balance coreTeam) := by
      rw [spendableBalance_eq locked.found sound locked.covered (locked.narrow _),
        sound.vested_ended ended]
      simp
    refine ⟨spendable, fun amount enough => ?_⟩
    exact requireFunds_returns.mpr ⟨⟨_, spendable, enough⟩, enough, rfl, rfl⟩

/-- A year after the initialization half of the team's tokens can be spent, and no more. -/
theorem unvested_stays_halfway :
    (Turn.next minted (.close 9 31536000)).vestedBalance ⟨3⟩ = some (allocCoreTeam / 2) ∧
      ∃ e, Trace Step minted [.close 9 31536000] e ∧ allocCoreTeam / 2 ≤ e.balance ⟨3⟩ := by
  have run : Trace Step minted _ _ := scripted
    (show Trace.Playable Turn.next Turn.Legal minted [.close 9 31536000] by decide)
  obtain ⟨covered, vested, -⟩ :=
    unvested_stays .nil minted_returns (by decide) (by decide) run
  have half : (teamSchedule 0).vested 31536000 = allocCoreTeam / 2 := by decide
  refine ⟨vested.trans (congrArg some half), _, run, ?_⟩
  exact covered

end KeeperNetwork.GovernanceToken
