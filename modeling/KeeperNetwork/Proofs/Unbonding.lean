import KeeperNetwork.Proofs.Exits
import KeeperNetwork.Proofs.StakeLedger

/-! Unbonding is no way around a slash: stake leaves only after the whole delay. -/

namespace KeeperNetwork

open Soroban Bookkeeping

/-- The call asks for the keeper's stake back, or takes it. -/
def Call.Unbonds (keeper : Address) : Call → Prop
  | .initiateUnbond asker _ => asker = keeper
  | .withdrawStake withdrawer => withdrawer = keeper
  | _ => False

/-- The ways a successful call can treat the unbond request of one keeper. -/
inductive UnbondMove (e e' : Env) (call : Call) (value : Value) (keeper : Address) : Prop where
  /-- The call is about something else. -/
  | untouched (same : e'.unbondRequest.lookup keeper = e.unbondRequest.lookup keeper)
      (other : ¬ call.Unbonds keeper)
  | requested {amount : Int} (called : call = .initiateUnbond keeper amount)
      (stored : e'.unbondRequest.lookup keeper = some
        { amount, unlockLedger := saturatingAdd u32Max e.sequence unbondDelayLedgers })
  | withdrawn {request : UnbondRequest} (called : call = .withdrawStake keeper)
      (found : e.unbondRequest.lookup keeper = some request)
      (elapsed : request.unlockLedger ≤ e.sequence)
      (gone : e'.unbondRequest.lookup keeper = none)
      (bonded : keeperStakeOf e' keeper = keeperStakeOf e keeper)
  /-- A slash draws on the request, which keeps its unlock ledger. -/
  | drawn {request : UnbondRequest} (found : e.unbondRequest.lookup keeper = some request)
      (other : ¬ call.Unbonds keeper)
      (left : ∀ rest, e'.unbondRequest.lookup keeper = some rest →
        rest.unlockLedger = request.unlockLedger ∧ rest.amount ≤ request.amount)

variable {token : Token} {inv : Invocation} {start e e' : Env} {call : Call} {value : Value}
  {keeper : Address}

theorem Effect.unbondMove (exact : ExactToken token) (effect : Effect token inv e call value e')
    (keeper : Address) : UnbondMove e e' call value keeper := by
  cases effect with
  | batchRegisterTasks _ _ _ _ _ _ _ _ registered =>
    rw [registered.frame exact.detached]
    exact .untouched rfl id
  | @initiateUnbond asker amount =>
    by_cases same : keeper = asker
    · subst same
      exact .requested rfl (by simp)
    · exact .untouched (by simp [same]) (Ne.symm same)
  | @withdrawStake withdrawer request _ _ _ found elapsed _ moved =>
    obtain ⟨balances, -, rfl⟩ := exact.moves moved
    by_cases same : keeper = withdrawer
    · subst same
      exact .withdrawn rfl found elapsed (by simp) (by simp [keeperStakeOf])
    · exact .untouched (by simp [Finmap.lookup_erase_ne same]) (Ne.symm same)
  | @slashUnbond _ offender _ amount _ request _ _ _ exceeds found _ _ _ _ _ moved =>
    obtain ⟨balances, -, rfl⟩ := exact.moves moved
    by_cases same : keeper = offender
    · subst same
      refine .drawn found id fun rest left => ?_
      by_cases used : request.amount - (amount - keeperStakeOf e keeper) = 0
      · simp [used] at left
      · simp only [Env.emit_unbondRequest, Env.bookSlash_unbondRequest,
          Env.drawUnbond_unbondRequest,
          used, ↓reduceIte, Finmap.lookup_insert, Option.some.injEq] at left
        rw [← left]
        exact ⟨rfl, by dsimp only; omega⟩
    · refine .untouched ?_ id
      by_cases used : request.amount - (amount - keeperStakeOf e offender) = 0
      · simp [used, Finmap.lookup_erase_ne same]
      · simp [used, same]
  | _ =>
    try obtain ⟨balances, -, rfl⟩ := exact.moves ‹_›
    exact .untouched (by simp) id

/-- The pending request is what slashes have left of the one that the keeper made last. -/
structure RequestedBy (history : List Entry) (keeper : Address) (request : UnbondRequest)
    (receipt : Receipt) : Prop where
  /-- Since then the keeper has neither asked nor withdrawn. -/
  latest : ∃ newer older, history = newer ++ .call receipt :: older ∧
    ∀ later, .call later ∈ newer → ¬ later.call.Unbonds keeper
  asked : ∃ amount, receipt.call = .initiateUnbond keeper amount ∧ request.amount ≤ amount
  unlock : request.unlockLedger = saturatingAdd u32Max receipt.before.sequence unbondDelayLedgers

/-- Whatever happens next is newer than the call that made the request. -/
theorem RequestedBy.cons {history : List Entry} {request rest : UnbondRequest}
    {receipt : Receipt} {entry : Entry} (requested : RequestedBy history keeper request receipt)
    (other : ∀ later, entry = .call later → ¬ later.call.Unbonds keeper)
    (kept : rest.unlockLedger = request.unlockLedger) (drawn : rest.amount ≤ request.amount) :
    RequestedBy (entry :: history) keeper rest receipt where
  latest := by
    obtain ⟨newer, older, rfl, since⟩ := requested.latest
    refine ⟨entry :: newer, older, rfl, fun later member => ?_⟩
    rcases List.mem_cons.mp member with new | old
    · exact other later new.symm
    · exact since later old
  asked := requested.asked.imp fun _ asked => ⟨asked.1, drawn.trans asked.2⟩
  unlock := kept.trans requested.unlock

/-- Every pending request was made by a call of the keeper, and is no larger than it was then. -/
theorem ExactRun.requested (fresh : Fresh start) (run : ExactRun start e)
    {request : UnbondRequest} (found : e.unbondRequest.lookup keeper = some request) :
    ∃ receipt, RequestedBy e.history keeper request receipt := by
  -- A call either makes the request, or leaves it to the call that made it.
  induction run generalizing request with
  | refl => simp [fresh.unused.1.unbonds] at found
  | @tail e e' ran last ih =>
    cases Step.happens last with
    | @called _ _ call _ finish exact _ _ effect =>
      rw [Env.record_history, effect.history exact]
      cases effect.unbondMove exact keeper with
      | untouched same other =>
        obtain ⟨receipt, requested⟩ := ih (same ▸ found)
        exact ⟨receipt, requested.cons (by rintro _ ⟨⟩; exact other) rfl le_rfl⟩
      | requested called stored =>
        cases found.symm.trans stored
        exact ⟨_, ⟨[], _, rfl, by simp⟩, ⟨_, called, le_rfl⟩, rfl⟩
      | withdrawn _ _ _ gone => simp [gone] at found
      | drawn before other left =>
        obtain ⟨receipt, requested⟩ := ih before
        obtain ⟨kept, drawn⟩ := left _ found
        exact ⟨receipt, requested.cons (by rintro _ ⟨⟩; exact other) kept drawn⟩
    | failed | closed => exact ih found
    | received =>
      obtain ⟨receipt, requested⟩ := ih found
      exact ⟨receipt, requested.cons (by rintro _ ⟨⟩) rfl le_rfl⟩

theorem Effect.stake_inflow (formed : WellFormed e) (effect : Effect token inv e call value e')
    (keeper : Address) : 0 ≤ call.staked keeper + call.stakeRefunded e keeper := by
  cases effect with
  | stakeDeposit _ _ positive =>
    simp only [Call.staked, Call.stakeRefunded, add_zero]
    split <;> omega
  | upholdSlashAppeal _ found =>
    have positive := formed.slashes _ _ found
    simp only [Call.staked, Call.stakeRefunded, found, Option.elim_some, zero_add]
    split <;> omega
  | _ => simp

theorem Effect.exposure_kept (exact : ExactToken token) (formed : WellFormed e)
    (unsigned : e.self ∉ inv.auths) (effect : Effect token inv e call value e') (keeper : Address)
    (other : call ≠ .withdrawStake keeper) :
    exposure e keeper ≤ exposure e' keeper + call.slashed keeper := by
  have flows := (stakeFund_sound keeper).flows exact.detached formed unsigned effect
  have inflow := effect.stake_inflow formed keeper
  have kept : call.stakeWithdrawn keeper value = 0 := by
    unfold Call.stakeWithdrawn
    split
    · next withdrawer =>
      have stranger : withdrawer ≠ keeper := fun same => other (by rw [same])
      split <;> simp [stranger]
    · rfl
  simp only [stakeFund] at flows
  omega

/-- Within the delay the exposure only falls by what is slashed. -/
theorem ExactStep.exposure_window {ledger : Nat} (formed : WellFormed e) (step : ExactStep e e')
    (begun : ledger ≤ e.sequence) (fits : ledger + unbondDelayLedgers ≤ u32Max)
    (within : e'.sequence < ledger + unbondDelayLedgers)
    (pending : ∀ request, e.unbondRequest.lookup keeper = some request →
      ledger + unbondDelayLedgers ≤ request.unlockLedger) :
    (∀ request, e'.unbondRequest.lookup keeper = some request →
      ledger + unbondDelayLedgers ≤ request.unlockLedger) ∧
    exposure e keeper +
        receiptTotal (fun receipt => receipt.call.slashed keeper) e.history ≤
      exposure e' keeper +
        receiptTotal (fun receipt => receipt.call.slashed keeper) e'.history := by
  have passed := (ExactStep.clock step).1
  cases Step.happens step with
  | @called token inv call value finish exact unsigned _ effect =>
    have grown := effect.exposure_kept exact formed unsigned keeper
    have total : receiptTotal (fun receipt => receipt.call.slashed keeper)
        (finish.record e call value).history = call.slashed keeper +
          receiptTotal (fun receipt => receipt.call.slashed keeper) e.history := by
      simp [effect.history exact]
    simp only [Env.record_toWorld, total] at within passed ⊢
    cases effect.unbondMove exact keeper with
    | untouched same other =>
      have kept := grown fun called => other (called ▸ rfl)
      exact ⟨by rwa [same], by omega⟩
    | requested called stored =>
      -- A new request is counted from a ledger that is not before the window began.
      have kept := grown (by simp [called])
      refine ⟨fun request found => ?_, by omega⟩
      cases found.symm.trans stored
      exact Nat.le_min.mpr ⟨Nat.add_le_add_right begun _, fits⟩
    | withdrawn called found elapsed gone =>
      have unlock := pending _ found
      omega
    | drawn found other left =>
      have kept := grown fun called => other (called ▸ rfl)
      exact ⟨fun rest remains => (left rest remains).1.symm ▸ pending _ found, by omega⟩
  | failed | closed => exact ⟨pending, le_rfl⟩
  | received => exact ⟨pending, by simp [exposure, keeperStakeOf]⟩

theorem ExactRun.exposure_window (formed : WellFormed e) (later : ExactRun e e')
    (none : e.unbondRequest.lookup keeper = none) (fits : e.sequence + unbondDelayLedgers ≤ u32Max)
    (within : e'.sequence < e.sequence + unbondDelayLedgers) :
    exposure e keeper +
        receiptTotal (fun receipt => receipt.call.slashed keeper) e.history ≤
      exposure e' keeper +
        receiptTotal (fun receipt => receipt.call.slashed keeper) e'.history := by
  -- No request can be withdrawn before the window ends, which is the invariant of the induction.
  suffices kept : e.sequence ≤ e'.sequence ∧ (∀ request,
      e'.unbondRequest.lookup keeper = some request →
        e.sequence + unbondDelayLedgers ≤ request.unlockLedger) ∧ _ from kept.2.2
  induction later with
  | refl => exact ⟨le_rfl, by simp [none], le_rfl⟩
  | tail ran last ih =>
    have passed := (ExactStep.clock last).1
    obtain ⟨begun, pending, grown⟩ := ih (by omega)
    obtain ⟨still, more⟩ := ExactStep.exposure_window
      ((ExactRun.steady ran).wellFormed formed) last begun fits within pending
    exact ⟨begun.trans passed, still, grown.trans more⟩

/-- The registry has room to number one more slash, and to add it to the keeper's history. -/
def SlashRoom (w : World) (keeper : Address) (amount : Int) : Prop :=
  w.slashCounter.getD 0 < u64Max ∧ (readSlashHistory w keeper).count < u32Max ∧
    (readSlashHistory w keeper).totalSlashed + amount ≤ i128Max

theorem WellFormed.exposure_le_buckets {w : World} (formed : WellFormed w) (keeper : Address) :
    exposure w keeper ≤ buckets w := by
  have bonded : w.keeperStake.weightAt id keeper ≤ w.keeperStake.total id :=
    Finmap.weightAt_le_total formed.stakes keeper
  have unbonding := Finmap.weightAt_le_total
    (fun keeper request found => (formed.unbonds keeper request found).le) keeper
  obtain ⟨escrow, rewards, -, -, credits⟩ := formed.buckets_nonneg
  have fees := formed.fees
  rw [exposure, keeperStakeOf_eq]
  simp only [buckets, stakesBonded, stakesUnbonding]
  omega

/-- The admin can slash anything up to the exposure of a keeper. -/
theorem slash_succeeds {admin treasury : Address} {amount : Int} {reason : Symbol}
    (formed : WellFormed e) (covered : buckets e ≤ e.balances.of e.self)
    (counted : 0 ≤ (readSlashHistory e keeper).totalSlashed) (affords : Affords token e)
    (admitted : e.admin = some admin) (signed : admin ∈ inv.auths) (positive : 0 < amount)
    (within : amount ≤ exposure e keeper) (room : SlashRoom e keeper amount) :
    Succeeds token inv (.slash admin keeper amount reason treasury) e := by
  obtain ⟨numbered, counts, totals⟩ := room
  have signs := i128_signs
  have bonded := formed.stakeOf_nonneg keeper
  have owed := (formed.exposure_le_buckets keeper).trans covered
  have fits := e.balances.fits e.self
  suffices returns : ∃ value finish,
      (runCall token inv (.slash admin keeper amount reason treasury)).Returns e value finish by
    obtain ⟨value, finish, ran⟩ := returns
    exact ⟨value, _, EStateM.commit_eq_ok.mpr (recordedCall_returns.mpr ⟨finish, ran, rfl⟩)⟩
  -- The token is asked to pay from the state in which the slash is booked.
  have pays : ∀ pre : Env, pre.self = e.self → pre.balances = e.balances →
      ∃ paid, (token e.self treasury amount).Returns pre () paid := fun pre self balances =>
    affords treasury amount pre self balances positive (within.trans owed)
  have exposed : keeperStakeOf e keeper +
      (e.unbondRequest.lookup keeper).elim 0 UnbondRequest.amount = exposure e keeper := rfl
  have unbonding : 0 ≤ (e.unbondRequest.lookup keeper).elim 0 UnbondRequest.amount := by
    cases found : e.unbondRequest.lookup keeper with
    | none => exact le_rfl
    | some request => exact (formed.unbonds keeper request found).le
  simp [runCall, slash, countSlash_saveSlash]
  refine ⟨⟨admitted, signed⟩, positive, ⟨by omega, by omega⟩, by omega, ⟨by omega, by omega⟩,
    ⟨by omega, by omega⟩, ?_⟩
  by_cases bondedCovers : amount ≤ keeperStakeOf e keeper
  · refine ⟨_, .inr ⟨bondedCovers, rfl⟩, by simpa using numbered,
      ⟨by simpa using counts, by simp; omega, by simpa using totals⟩,
      by simpa using formed.configured, ?_⟩
    obtain ⟨paid, moved⟩ := pays ((e.bump.saveStake inv keeper
      (keeperStakeOf e keeper - min amount (keeperStakeOf e keeper))).bookSlash inv
        keeper amount reason) (by simp) (by simp)
    exact ⟨(), paid, by simpa using moved⟩
  · -- What the stake does not cover comes out of the request, so there is one.
    cases found : e.unbondRequest.lookup keeper with
    | none =>
      simp only [found, Option.elim_none] at exposed
      omega
    | some request =>
      simp only [found, Option.elim_some] at exposed
      refine ⟨_, .inl ⟨by omega, request, rfl, ⟨by omega, by omega⟩, rfl⟩, by simpa using numbered,
        ⟨by simpa using counts, by simp; omega, by simpa using totals⟩,
        by simpa using formed.configured, ?_⟩
      obtain ⟨paid, moved⟩ := pays (((e.bump.saveStake inv keeper
        (keeperStakeOf e keeper - min amount (keeperStakeOf e keeper))).drawUnbond
          inv keeper request (amount - min amount (keeperStakeOf e keeper))).bookSlash inv
            keeper amount reason) (by simp) (by simp)
      exact ⟨(), paid, by simpa using moved⟩

theorem ExactRun.totalSlashed_nonneg (fresh : Fresh start) (run : ExactRun start e)
    (keeper : Address) : 0 ≤ (readSlashHistory e keeper).totalSlashed := by
  rw [(ExactRun.slashHistory_explained fresh run keeper).2]
  refine receiptTotal_nonneg (ExactRun.receipts (fun _ _ effect => ?_) fresh run)
  cases effect with
  | slashStake _ positive | slashUnbond _ positive =>
    simp only [Call.slashed, Call.slashWeight, id]
    split <;> omega
  | _ => simp

/--
Unbonding does not put stake out of the reach of a slash.

For a whole delay from a ledger without a pending request, a keeper only loses exposure to slashes.
A slash of what is exposed goes through exactly when there is room to book it. Exposure only falls
by slashes and by the amount of the pending request, when it is withdrawn a delay after the call
that it comes from.
-/
theorem unbonding_never_evades (fresh : Fresh start) (run : ExactRun start e) (keeper : Address) :
    (∀ e', ExactRun e e' → e.unbondRequest.lookup keeper = none →
      e.sequence + unbondDelayLedgers ≤ u32Max → e'.sequence < e.sequence + unbondDelayLedgers →
      exposure e keeper -
          (receiptTotal (fun receipt => receipt.call.slashed keeper) e'.history -
            receiptTotal (fun receipt => receipt.call.slashed keeper) e.history) ≤
        exposure e' keeper) ∧
    (∀ token inv admin amount reason treasury, Affords token e → e.admin = some admin →
      admin ∈ inv.auths → 0 < amount → amount ≤ exposure e keeper →
      (Succeeds token inv (.slash admin keeper amount reason treasury) e ↔
        SlashRoom e keeper amount)) ∧
    (∀ token inv call value e', ExactToken token → e.self ∉ inv.auths →
      invoke token inv call e = (.ok value, e') →
      exposure e' keeper < exposure e keeper →
      (∃ admin amount reason treasury, call = .slash admin keeper amount reason treasury) ∨
      call = .withdrawStake keeper ∧ ∃ request receipt,
        e.unbondRequest.lookup keeper = some request ∧
        RequestedBy e.history keeper request receipt ∧
        exposure e' keeper = exposure e keeper - request.amount ∧
        request.unlockLedger ≤ e.sequence ∧
        (receipt.before.sequence + unbondDelayLedgers ≤ u32Max →
          receipt.before.sequence + unbondDelayLedgers ≤ e.sequence)) := by
  have formed := ExactRun.wellFormed fresh run
  refine ⟨?_, ?_, ?_⟩
  · intro e' later none fits within
    have window := ExactRun.exposure_window formed later none fits within
    omega
  · intro token inv admin amount reason treasury affords admitted signed positive within
    refine ⟨fun succeeds => ?_, fun room => ?_⟩
    · obtain ⟨value, finish, effect⟩ := succeeds.effect
      cases effect with
      | slashStake _ _ _ _ numbered counted totaled
      | slashUnbond _ _ _ _ _ numbered counted totaled => exact ⟨numbered, counted, totaled⟩
    · exact slash_succeeds formed (ExactRun.covered fresh run)
        (ExactRun.totalSlashed_nonneg fresh run keeper) affords admitted signed positive within room
  · intro token inv call value e' exact unsigned called fell
    obtain ⟨finish, effect, rfl⟩ := invoke_ok called
    rw [Env.record_toWorld] at fell
    by_cases withdrawn : call = .withdrawStake keeper
    · subst withdrawn
      refine .inr ⟨rfl, ?_⟩
      -- What is withdrawn is the request that is pending, after the delay of the call it is from.
      cases effect.unbondMove exact keeper with
      | @withdrawn request _ found elapsed gone bonded =>
        obtain ⟨receipt, requested⟩ := ExactRun.requested fresh run found
        refine ⟨request, receipt, found, requested, ?_, elapsed, fun fits => ?_⟩
        · simp [exposure, Finmap.weightAt, found, gone, bonded]
        · rwa [requested.unlock, saturatingAdd_eq fits] at elapsed
      | requested called => cases called
      | untouched _ other | drawn _ other => exact absurd rfl other
    · have kept := effect.exposure_kept exact formed unsigned keeper withdrawn
      have slashed : call.slashed keeper ≠ 0 := by omega
      cases call with
      | slash admin offender amount reason treasury =>
        obtain rfl : offender = keeper := by
          by_contra other
          simp [other] at slashed
        exact .inl ⟨admin, amount, reason, treasury, rfl⟩
      | _ => simp at slashed

theorem stakeScript_affords : Affords exactTransfer
    (play beforeStakes (stakeScript.take 2)) := by
  refine exactTransfer_affords fun holder => ?_
  have held : (play beforeStakes (stakeScript.take 2)).balances.of holder =
      ((if holder = ⟨3⟩ then 100 else 0) - (if holder = ⟨3⟩ then 50 else 0) +
        if holder = ⟨0⟩ then 50 else 0) := rfl
  have own : (play beforeStakes (stakeScript.take 2)).balances.of
      (play beforeStakes (stakeScript.take 2)).self = 50 := by decide
  have large : (200 : Int) ≤ i128Max := by decide
  rw [held, own]
  split_ifs <;> omega

/-- While a request is pending, the keeper still has everything exposed, and can be slashed. -/
theorem unbonding_never_evades_pending :
    Succeeds exactTransfer (signedBy [⟨1⟩] 1000) (.slash ⟨1⟩ ⟨3⟩ 50 "late" ⟨1⟩)
      (play beforeStakes (stakeScript.take 2)) := by
  have run := Playable.run (by decide : Playable beforeStakes (stakeScript.take 2))
  obtain ⟨-, slashable, -⟩ := unbonding_never_evades beforeStakes_fresh run ⟨3⟩
  refine (slashable exactTransfer (signedBy [⟨1⟩] 1000) ⟨1⟩ 50 "late" ⟨1⟩
    stakeScript_affords (by decide) (by decide) (by decide) (by decide)).mpr ?_
  exact ⟨by decide +kernel, by decide +kernel, by decide +kernel⟩

/-- A registry with a keeper who holds every token there can be. -/
def beforeOverflow : Env :=
  genesis ⟨0⟩ ⟨1⟩ ⟨2⟩ 100 (heldBy ⟨3⟩ i128Max (by decide) (by decide)) 0 0

/-- The keeper stakes everything, is slashed in its own favour, and stakes everything again. -/
def overflowScript : List Turn :=
  [.call [⟨3⟩] (.stakeDeposit ⟨3⟩ i128Max), .call [⟨1⟩] (.slash ⟨1⟩ ⟨3⟩ i128Max "late" ⟨3⟩),
    .call [⟨3⟩] (.stakeDeposit ⟨3⟩ i128Max)]

/-- With its slash history used up, the keeper cannot be slashed for a single token. -/
theorem slash_refused_overflow :
    Fresh beforeOverflow ∧ ExactRun beforeOverflow (play beforeOverflow overflowScript) ∧
    exposure (play beforeOverflow overflowScript) ⟨3⟩ = i128Max ∧
    (play beforeOverflow overflowScript).admin = some ⟨1⟩ ∧
    (invoke exactTransfer (signedBy [⟨1⟩] 1000) (.slash ⟨1⟩ ⟨3⟩ 1 "late" ⟨1⟩)
      (play beforeOverflow overflowScript)).1 = .error (.error .arithmeticOverflow) :=
  ⟨genesis_fresh (by decide),
    Playable.run (by decide : Playable beforeOverflow overflowScript), by decide, by decide, rfl⟩

end KeeperNetwork
