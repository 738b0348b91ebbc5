import KeeperNetwork.Governance.VotingPower

/-! What a holder of every token can still decide, given the threshold and the quorum in force. -/

namespace KeeperNetwork.Governance

open Soroban

section Possible

variable {e : Env} {id : Nat} {p : Proposal}

theorem queueProposal_possible (ready : e.initialized = true)
    (found : e.proposals.lookup id = some p) (passed : p.status = .passed)
    (fits : e.sequence + e.delay ≤ u64Max) :
    (queueProposal id).Returns e (e.sequence + e.delay) (e.queue id p) := by
  have waiting : p.status ≠ .queued := by simp [passed]
  -- A proposal that is not open is not evaluated again.
  have settled : (settleOpen id p).Returns e p e := by
    unfold settleOpen
    rw [if_neg (by simp [passed])]
    exact EStateM.returns_pure.mpr ⟨rfl, rfl⟩
  simp only [queueProposal, EStateM.returns_bind, EStateM.returns_get, EStateM.returns_modify,
    EStateM.returns_pure, EStateM.returns_ite, rejectIf_returns, okOr_returns,
    checkedAddNat_eq_some, Bool.not_eq_false, not_not]
  refine ⟨_, _, ⟨rfl, rfl⟩, (), _, ⟨ready, rfl⟩, _, _, ⟨rfl, rfl⟩, p, _, ⟨found, rfl⟩, ?_⟩
  rw [if_neg waiting]
  exact ⟨p, _, settled, (), _, ⟨passed, rfl⟩, _, _, ⟨rfl, rfl⟩, _, _, ⟨⟨rfl, fits⟩, rfl⟩, (), _,
    rfl, (), _, rfl, rfl, rfl⟩

theorem executeProposal_possible (ready : e.initialized = true)
    (found : e.proposals.lookup id = some p) (queued : p.status = .queued)
    (elapsed : p.eta ≤ e.sequence) : ∃ e', (executeProposal id).Returns e () e' := by
  have waiting : p.status ≠ .executed := by simp [queued]
  simp only [executeProposal, EStateM.returns_bind, EStateM.returns_get, EStateM.returns_modify,
    rejectIf_returns, okOr_returns, Bool.not_eq_false, not_not, not_lt]
  exact ⟨_, _, _, ⟨rfl, rfl⟩, (), _, ⟨ready, rfl⟩, _, _, ⟨rfl, rfl⟩, p, _, ⟨found, rfl⟩, (), _,
    ⟨waiting, rfl⟩, (), _, ⟨queued, rfl⟩, _, _, ⟨rfl, rfl⟩, (), _, ⟨elapsed, rfl⟩, (), _, rfl, (),
    _, rfl, rfl⟩

end Possible

theorem totalVotes_alone {p : Proposal} {totalVotes : Int} (against : p.votesAgainst = 0)
    (abstain : p.votesAbstain = 0) :
    p.totalVotes = some totalVotes ↔
      totalVotes = p.votesFor ∧ i128Min ≤ p.votesFor ∧ p.votesFor ≤ i128Max := by
  -- The two sums add nothing to the votes in favour.
  unfold Proposal.totalVotes
  rw [against, abstain]
  simp only [Option.bind_eq_bind, Option.bind_eq_some_iff, checkedAdd_eq_some, Int.add_zero]
  constructor
  · rintro ⟨_, ⟨rfl, -⟩, same⟩
    exact same
  · rintro ⟨rfl, fits⟩
    exact ⟨_, ⟨rfl, fits⟩, rfl, fits⟩

/-- What only the initialization and executed proposals change. -/
structure SameRules (e e' : Env) : Prop where
  sequence : e'.sequence = e.sequence
  initialized : e'.initialized = e.initialized
  kprsToken : e'.kprsToken = e.kprsToken
  threshold : e'.threshold = e.threshold
  delay : e'.delay = e.delay
  bps : e'.bps = e.bps
  supply : e'.totalTokenSupply = e.totalTokenSupply

namespace SameRules

variable {e e' e'' : Env}

theorem trans (first : SameRules e e') (second : SameRules e' e'') : SameRules e e'' where
  sequence := second.sequence.trans first.sequence
  initialized := second.initialized.trans first.initialized
  kprsToken := second.kprsToken.trans first.kprsToken
  threshold := second.threshold.trans first.threshold
  delay := second.delay.trans first.delay
  bps := second.bps.trans first.bps
  supply := second.supply.trans first.supply

theorem quorum (same : SameRules e e') : e'.quorumThreshold = e.quorumThreshold := by
  unfold Env.quorumThreshold
  rw [same.supply, same.bps]

theorem emit (e : Env) (event : Event) : SameRules e (e.emit event) :=
  ⟨rfl, rfl, rfl, rfl, rfl, rfl, rfl⟩

theorem store (e : Env) (id : Nat) (p : Proposal) : SameRules e (e.store id p) :=
  ⟨rfl, rfl, rfl, rfl, rfl, rfl, rfl⟩

theorem settle (e : Env) (id : Nat) (p : Proposal) (totalVotes quorum : Int) :
    SameRules e (e.settle id p totalVotes quorum) := (emit _ _).trans (store _ _ _)

theorem queue (e : Env) (id : Nat) (p : Proposal) : SameRules e (e.queue id p) :=
  (store _ _ _).trans (emit _ _)

end SameRules

theorem Effect.sameRules {e e' : Env} {inv : Invocation} {call : Call}
    (effect : Effect e inv call e') (ready : e.initialized = true)
    (other : ∀ id, call ≠ .executeProposal id) : SameRules e e' := by
  -- Only an execution touches the rules, and an initialization comes before every rule.
  cases effect with
  | initialized fresh => rw [ready] at fresh; cases fresh
  | created | voted | answered | queuedBefore => exact ⟨rfl, rfl, rfl, rfl, rfl, rfl, rfl⟩
  | evaluated => exact .settle ..
  | queued => exact .queue ..
  | settledAndQueued => exact (SameRules.settle ..).trans (.queue ..)
  | executed => exact absurd rfl (other _)
  | cancelled => exact (SameRules.store ..).trans (.emit ..)

theorem applyAction_kept (e : Env) (action : GovernableAction) :
    (e.applyAction action).kprsToken = e.kprsToken ∧
      (e.applyAction action).totalTokenSupply = e.totalTokenSupply := by
  cases action <;> exact ⟨rfl, rfl⟩

/-- The threshold and the quorum in force do not exceed a supply. -/
def Env.Affordable (e : Env) (supply : Int) : Prop :=
  e.threshold ≤ supply ∧ ∃ quorum, e.quorumThreshold = some quorum ∧ quorum ≤ supply

theorem Env.Affordable.mono {e : Env} {supply larger : Int} (affordable : e.Affordable supply)
    (most : supply ≤ larger) : e.Affordable larger := by
  obtain ⟨rich, quorum, needed, enough⟩ := affordable
  exact ⟨rich.trans most, quorum, needed, enough.trans most⟩

theorem Env.Affordable.congr {e e' : Env} {supply : Int} (affordable : e.Affordable supply)
    (threshold : e'.threshold = e.threshold) (bps : e'.bps = e.bps)
    (total : e'.totalTokenSupply = e.totalTokenSupply) : e'.Affordable supply := by
  unfold Env.Affordable Env.quorumThreshold at affordable ⊢
  rw [threshold, bps, total]
  exact affordable

namespace Pair

/-- The governance contract's parameters, and the token's amounts and clock, are in their bounds. -/
structure Tuned (s : Pair) : Prop where
  wired : s.governance.initialized = true → ∃ token, s.governance.kprsToken = some token
  supply : s.governance.totalTokenSupply = GovernanceToken.totalSupply
  bps : 100 ≤ s.governance.bps ∧ s.governance.bps ≤ 2000
  narrow : GovernanceToken.Narrow s.token
  timed : s.token.timestamp ≤ u64Max

theorem Tuned.governance {s : Pair} {inv : Invocation} {call : Call} {after : Env} (tuned : Tuned s)
    (sound : Sound s) (client : inv.token.totalSupply = GovernanceToken.totalSupply)
    (effect : Effect s.governance inv call after) : Tuned { s with governance := after } := by
  by_cases ready : s.governance.initialized = true
  · by_cases executes : ∃ id, call = .executeProposal id
    · obtain ⟨id, rfl⟩ := executes
      cases effect with
      | @executed _ p ready found =>
        have valid := (sound.governed.scheduled id p found).valid
        obtain ⟨token, known⟩ := tuned.wired ready
        obtain ⟨client, supply⟩ := applyAction_kept s.governance p.action
        refine ⟨fun _ => ⟨token, client.trans known⟩, supply.trans tuned.supply, ?_, tuned.narrow,
          tuned.timed⟩
        -- A new share of the supply was checked when it was proposed.
        cases action : p.action with
        | setQuorumBps bps =>
          rw [action] at valid
          exact valid
        | _ => exact tuned.bps
    · -- Every other call leaves the parameters alone.
      have same := effect.sameRules ready fun id run => executes ⟨id, run⟩
      exact ⟨fun _ => same.kprsToken.symm ▸ tuned.wired ready, same.supply.trans tuned.supply,
        same.bps.symm ▸ tuned.bps, tuned.narrow, tuned.timed⟩
  · cases effect with
    | initialized fresh =>
      have default : 100 ≤ defaultQuorumBps ∧ defaultQuorumBps ≤ 2000 := by decide
      exact ⟨fun _ => ⟨_, rfl⟩, client, default, tuned.narrow, tuned.timed⟩
    | _ => contradiction

variable {label : Label}

theorem Step.tuned {s s' : Pair} (step : Step s label s') (sound : Sound s) (tuned : Tuned s) :
    Tuned s' := by
  -- The token keeps its sums within range, and the governance contract its own settings.
  cases step with
  | token ran =>
    have effect := GovernanceToken.perform_effect ran
    exact ⟨tuned.wired, tuned.supply, tuned.bps, effect.narrow tuned.narrow,
      effect.frame.2.1.trans_le tuned.timed⟩
  | governance ran => exact tuned.governance sound rfl (perform_effect ran)
  | refused => exact tuned
  | closed onward counted later timed =>
    exact ⟨tuned.wired, tuned.supply, tuned.bps, tuned.narrow, timed⟩

variable {sequence timestamp : Nat}

theorem deployed_tuned (timed : timestamp ≤ u64Max) : Tuned (deployed sequence timestamp) := by
  have default : 100 ≤ defaultQuorumBps ∧ defaultQuorumBps ≤ 2000 := by decide
  refine ⟨fun ready => ?_, rfl, default, GovernanceToken.deployed_narrow _ _, timed⟩
  cases ready

theorem Trace.tuned {labels : List Label} {s : Pair} (counted : sequence ≤ u32Max)
    (timed : timestamp ≤ u64Max) (run : Trace Step (deployed sequence timestamp) labels s) :
    Sound s ∧ Tuned s :=
  @Trace.preserves _ _ _ _ _ _ (fun s => Sound s ∧ Tuned s)
    (fun _ _ _ step both => ⟨step.sound both.1, step.tuned both.1 both.2⟩) run
    ⟨deployed_sound counted, deployed_tuned timed⟩

theorem Tuned.quorum {s : Pair} (tuned : Tuned s) :
    ∃ quorum, s.governance.quorumThreshold = some quorum ∧ 0 < quorum := by
  obtain ⟨least, most⟩ := tuned.bps
  -- The supply is fixed, so the product is far below the largest amount.
  have fixed : GovernanceToken.totalSupply = 1000000000000000 := by decide
  have limits : i128Min ≤ 0 ∧ 2000000000000000000 ≤ i128Max := by decide
  refine ⟨(GovernanceToken.totalSupply * s.governance.bps).tdiv 10000, ?_, ?_⟩
  · have product : checkedMul s.governance.totalTokenSupply s.governance.bps =
        some (GovernanceToken.totalSupply * s.governance.bps) := by
      rw [tuned.supply, checkedMul_eq_some, fixed]
      omega
    rw [Env.quorumThreshold, product]
    rfl
  · rw [fixed, Int.tdiv_eq_ediv_of_nonneg (by omega)]
    omega

/-- Ledgers and numbers are left for one more proposal from its creation to its execution. -/
def Room (s : Pair) : Prop :=
  s.governance.count < u64Max ∧
    s.governance.sequence + s.governance.period + 1 + s.governance.delay ≤ u32Max

/--
An address can still decide an action: it creates the next proposal, votes for it, and has it
evaluated, queued and executed.
-/
def CanGovern (s : Pair) (holder : Address) (action : GovernableAction) : Prop :=
  let id := s.governance.count + 1
  ∃ ended endedAt elapsed elapsedAt s', Trace Step s
    [.governance (.executeProposal id), .close elapsed elapsedAt, .governance (.queueProposal id),
      .governance (.evaluateProposal id), .close ended endedAt,
      .governance (.vote holder id .for_), .governance (.createProposal holder action)] s'

section Stages

variable {s s' : Pair} {holder : Address} {action : GovernableAction} {id : Nat} {p : Proposal}

theorem Step.creates (step : Step s (.governance (.createProposal holder action)) s') :
    s'.token = s.token ∧ SameRules s.governance s'.governance ∧
      s'.governance.votes = s.governance.votes ∧
      s'.governance.proposals.lookup (s.governance.count + 1) =
        some (newProposal (s.governance.count + 1) holder action s.governance.sequence
          (saturatingAdd u32Max s.governance.sequence s.governance.period)) ∧
      s.governance.threshold ≤ s.token.balance holder ∧ action.Valid ∧
      s.governance.count < u64Max := by
  cases step with
  | governance ran =>
    have effect := perform_effect ran
    -- The only effect of a creation stores the new proposal.
    cases shape : effect with
    | created auth ready rich valid room =>
      exact ⟨rfl, effect.sameRules ready (by simp), rfl,
        (store_lookup _ _ _ _).trans (if_pos rfl), rich, valid, room⟩

theorem Step.votes (step : Step s (.governance (.vote holder id .for_)) s')
    (found : s.governance.proposals.lookup id = some p) :
    s'.token = s.token ∧ SameRules s.governance s'.governance ∧
      ∃ weight, s.token.balanceAt holder p.createdAt = some weight ∧
        s'.governance.proposals.lookup id = some { p with votesFor := p.votesFor + weight } := by
  cases step with
  | governance ran =>
    have effect := perform_effect ran
    -- The vote is added to the proposal it found, which is the given one.
    cases shape : effect with
    | @voted _ _ _ q weight auth ready there active within first power positive =>
      obtain rfl : p = q := Option.some.inj (found.symm.trans there)
      exact ⟨rfl, effect.sameRules ready (by simp), weight, power,
        (store_lookup _ _ _ _).trans (if_pos rfl)⟩

theorem Step.evaluates (step : Step s (.governance (.evaluateProposal id)) s')
    (found : s.governance.proposals.lookup id = some p) (active : p.status = .active) :
    s'.token = s.token ∧ SameRules s.governance s'.governance ∧
      ∃ totalVotes quorum, Judged s.governance p totalVotes quorum ∧
        s'.governance.proposals.lookup id =
          some { p with status := (judge p id totalVotes quorum).1 } := by
  cases step with
  | governance ran =>
    have effect := perform_effect ran
    -- An active proposal is judged now, and was not settled before.
    cases shape : effect with
    | answered ready there settled =>
      obtain rfl := Option.some.inj (found.symm.trans there)
      exact absurd active settled
    | @evaluated _ q totalVotes quorum ready there judged =>
      obtain rfl : p = q := Option.some.inj (found.symm.trans there)
      exact ⟨rfl, effect.sameRules ready (by simp), totalVotes, quorum, judged,
        (settle_lookup _ _ _ _ _ _).trans (if_pos rfl)⟩

theorem Step.queues (step : Step s (.governance (.queueProposal id)) s')
    (found : s.governance.proposals.lookup id = some p)
    (settled : p.status = .passed ∨ p.status = .defeated) :
    p.status = .passed ∧ SameRules s.governance s'.governance ∧
      s'.governance.proposals.lookup id = some { p with
        status := .queued
        eta := s.governance.sequence + s.governance.delay } := by
  cases step with
  | governance ran =>
    have effect := perform_effect ran
    -- A settled proposal is neither queued already nor open.
    cases shape : effect with
    | queuedBefore ready there before =>
      obtain rfl := Option.some.inj (found.symm.trans there)
      simp [before] at settled
    | queued ready there passed =>
      obtain rfl := Option.some.inj (found.symm.trans there)
      exact ⟨passed, effect.sameRules ready (by simp), (queue_lookup _ _ _ _).trans (if_pos rfl)⟩
    | settledAndQueued ready there judged =>
      obtain rfl := Option.some.inj (found.symm.trans there)
      simp [judged.active] at settled

theorem Step.executes (step : Step s (.governance (.executeProposal id)) s')
    (found : s.governance.proposals.lookup id = some p) : p.eta ≤ s.governance.sequence := by
  cases step with
  | governance ran =>
    -- The timelock is checked against the proposal that is stored.
    cases perform_effect ran with
    | executed ready there queued elapsed =>
      obtain rfl := Option.some.inj (found.symm.trans there)
      exact elapsed

theorem Step.closes (step : Step s (.close sequence timestamp) s') :
    s' = ⟨{ s.token with sequence, timestamp }, { s.governance with sequence }⟩ ∧
      s.token.sequence < sequence ∧ sequence ≤ u32Max := by
  cases step with
  | closed onward counted => exact ⟨rfl, onward, counted⟩

/-- Governing takes a valid action, room for it and an affordable threshold. -/
theorem CanGovern.affordable (can : CanGovern s holder action) (sound : Sound s)
    (whole : s.token.balance holder = s.token.total) :
    action.Valid ∧ s.Room ∧ s.governance.Affordable s.token.total := by
  obtain ⟨ended, endedAt, elapsed, elapsedAt, _, run⟩ := can
  cases run with | snoc run executed =>
  cases run with | snoc run waited =>
  cases run with | snoc run queued =>
  cases run with | snoc run evaluated =>
  cases run with | snoc run ends =>
  cases run with | snoc run voted =>
  cases run with | snoc run created =>
  cases run
  obtain ⟨token, rules, -, found, rich, valid, room⟩ := created.creates
  obtain ⟨-, polled, weight, power, found⟩ := voted.votes found
  -- The vote weighs as much as the holder has, which is everything.
  obtain rfl : weight = s.token.total := by
    have now := sound.tracked.balance_now holder
    rw [token, newProposal, sound.clock, now, whole] at power
    exact (Option.some.inj power).symm
  obtain ⟨rfl, -, within⟩ := ends.closes
  obtain ⟨-, judging, totalVotes, quorum, judged, found⟩ := evaluated.evaluates found rfl
  obtain ⟨passed, queueing, found⟩ := queued.queues found (judge_cases _ _ _ _)
  obtain ⟨rfl, -, counted⟩ := waited.closes
  have waits := executed.executes found
  have same := rules.trans polled
  -- All votes together are the holder's, and they met the quorum in force.
  obtain ⟨rfl, -⟩ := (totalVotes_alone rfl rfl).mp judged.counted
  have needed : s.governance.quorumThreshold = some quorum := same.quorum.symm.trans judged.needed
  have enough : quorum ≤ 0 + s.token.total := (judge_passed.mp passed).1
  refine ⟨valid, ⟨room, ?_⟩, rich.trans_eq whole, quorum, needed, by omega⟩
  -- The vote and the timelock were over before the last ledger number.
  have after : saturatingAdd u32Max s.governance.sequence s.governance.period < ended :=
    judged.ended
  have eta : ended + s.governance.delay ≤ elapsed := by
    rw [← same.delay]
    have later := judging.sequence
    have delay := judging.delay
    rw [later, delay] at waits
    exact waits
  unfold saturatingAdd at after
  omega

/-- Whoever holds all tokens can propose an action and vote for it. -/
theorem polls (sound : Sound s) (tuned : Tuned s) (ready : s.governance.initialized = true)
    (whole : s.token.balance holder = s.token.total) (valid : action.Valid)
    (room : s.governance.count < u64Max) (rich : s.governance.threshold ≤ s.token.total)
    (positive : 0 < s.token.total) :
    ∃ after, Trace Step s [.governance (.vote holder (s.governance.count + 1) .for_),
        .governance (.createProposal holder action)] { s with governance := after } ∧
      SameRules s.governance after ∧
      after.proposals.lookup (s.governance.count + 1) = some
        { newProposal (s.governance.count + 1) holder action s.governance.sequence
            (saturatingAdd u32Max s.governance.sequence s.governance.period) with
          votesFor := s.token.total } := by
  obtain ⟨token, wired⟩ := tuned.wired ready
  have holds : s.governance.threshold ≤ (client s.token).balance holder := rich.trans_eq whole.symm
  -- The proposal is created: every check passes, so only the writes are left.
  obtain ⟨opened, creates⟩ : ∃ after, (createProposal ⟨[holder], client s.token⟩ holder
      action).Returns s.governance (s.governance.count + 1) after := by
    simp [createProposal, internalValidateAction, internalGetVotingPower_returns, and_assoc, ready,
      wired, holds, valid, room]
  have creation : Step s (.governance (.createProposal holder action))
      { s with governance := opened } := .governance (EStateM.returns_map.mpr ⟨_, creates, rfl⟩)
  obtain ⟨-, rules, votes, found, -⟩ := creation.creates
  -- Nobody has voted on it, since it is new.
  have first : opened.votes.lookup (s.governance.count + 1, holder) = none := by
    rw [show opened.votes = s.governance.votes from votes]
    by_contra voted
    obtain ⟨record, recorded⟩ := Option.ne_none_iff_exists'.mp voted
    obtain ⟨p, known⟩ := sound.governed.attached _ _ _ recorded
    have numbered := sound.governed.numbered _ _ known
    omega
  have power : (client s.token).balanceAt holder s.governance.sequence = some s.token.total := by
    rw [sound.clock]
    exact (sound.tracked.balance_now holder).trans (congrArg some whole)
  have within : opened.sequence ≤
      saturatingAdd u32Max s.governance.sequence s.governance.period := by
    have counted := sound.governed.counted
    rw [show opened.sequence = s.governance.sequence from rules.sequence, saturatingAdd]
    omega
  have fits : i128Min ≤ 0 + s.token.total ∧ 0 + s.token.total ≤ i128Max := by
    have most := tuned.narrow holder
    have least := i128_signs
    omega
  -- The holder votes.
  obtain ⟨after, votes⟩ : ∃ after, (vote ⟨[holder], client s.token⟩ holder
      (s.governance.count + 1) .for_).Returns opened () after := by
    simp [vote, internalGetVotingPowerAt_returns, and_assoc, found, newProposal, within, first,
      power, positive]
    exact ⟨rules.initialized.trans ready, ⟨token, rules.kprsToken.trans wired⟩, fits⟩
  have voting : Step { s with governance := opened }
      (.governance (.vote holder (s.governance.count + 1) .for_))
      { s with governance := after } := .governance (EStateM.returns_map.mpr ⟨_, votes, rfl⟩)
  obtain ⟨-, polled, weight, read, found⟩ := voting.votes found
  obtain rfl : s.token.total = weight := Option.some.inj (power.symm.trans read)
  refine ⟨after, (Trace.single creation).snoc voting, rules.trans polled, found.trans ?_⟩
  simp [newProposal]

theorem passes {quorum : Int} (ready : s.governance.initialized = true)
    (found : s.governance.proposals.lookup id = some p) (active : p.status = .active)
    (ended : p.votingEnd < s.governance.sequence) (against : p.votesAgainst = 0)
    (abstain : p.votesAbstain = 0) (votes : 0 < p.votesFor ∧ p.votesFor ≤ i128Max)
    (needed : s.governance.quorumThreshold = some quorum) (enough : quorum ≤ p.votesFor) :
    ∃ after, Step s (.governance (.evaluateProposal id)) { s with governance := after } ∧
      SameRules s.governance after ∧
      after.proposals.lookup id = some { p with status := .passed } := by
  have signs := i128_signs
  -- With no votes on the other side, the turnout is what was cast in favour.
  have judged : Judged s.governance p p.votesFor quorum :=
    ⟨active, ended, (totalVotes_alone against abstain).mpr ⟨rfl, by omega⟩, needed⟩
  have passed : (judge p id p.votesFor quorum).1 = .passed :=
    judge_passed.mpr ⟨enough, by omega⟩
  have evaluates := evaluateProposal_returns.mpr
    ⟨ready, p, found, .inr ⟨_, _, judged, rfl, rfl⟩⟩
  refine ⟨_, @Step.governance s [] _ _ _ (EStateM.returns_map.mpr ⟨_, evaluates, rfl⟩),
    .settle .., ?_⟩
  rw [settle_lookup, if_pos rfl, passed]

theorem concludes (ready : s.governance.initialized = true)
    (clock : s.governance.sequence = s.token.sequence) (timed : s.token.timestamp ≤ u64Max)
    (delayed : 0 < s.governance.delay) (found : s.governance.proposals.lookup id = some p)
    (passed : p.status = .passed) (lasts : s.governance.sequence + s.governance.delay ≤ u32Max) :
    ∃ s', Trace Step s [.governance (.executeProposal id),
      .close (s.governance.sequence + s.governance.delay) s.token.timestamp,
      .governance (.queueProposal id)] s' := by
  have limits : u32Max ≤ u64Max := by decide
  have queues := queueProposal_possible ready found passed (lasts.trans limits)
  have queueing := @Step.governance s [] (.queueProposal id) _ _
    (EStateM.returns_map.mpr ⟨_, queues, rfl⟩)
  have rules := SameRules.queue s.governance id p
  -- The timelock elapses exactly when its last ledger opens.
  have closing := @Step.closed { s with governance := s.governance.queue id p }
    (s.governance.sequence + s.governance.delay) s.token.timestamp
    (by dsimp only; omega) lasts (Nat.le_refl _) timed
  obtain ⟨done, executes⟩ := @executeProposal_possible
    { s.governance.queue id p with sequence := s.governance.sequence + s.governance.delay } id _
    (rules.initialized.trans ready) ((queue_lookup _ _ _ _).trans (if_pos rfl)) rfl
    (Nat.le_refl _)
  have execution := @Step.governance
    ⟨{ s.token with sequence := s.governance.sequence + s.governance.delay },
      { s.governance.queue id p with sequence := s.governance.sequence + s.governance.delay }⟩
    [] (.executeProposal id) _ _ (EStateM.returns_map.mpr ⟨_, executes, rfl⟩)
  exact ⟨_, ((Trace.single queueing).snoc closing).snoc execution⟩

/-- Whoever holds all tokens can govern while the threshold is affordable. -/
theorem canGovern_of_affordable (sound : Sound s) (tuned : Tuned s)
    (ready : s.governance.initialized = true) (whole : s.token.balance holder = s.token.total)
    (valid : action.Valid) (room : s.Room) (affordable : s.governance.Affordable s.token.total) :
    CanGovern s holder action := by
  obtain ⟨rich, quorum, needed, enough⟩ := affordable
  have positive : 0 < s.token.total := by
    obtain ⟨same, read, above⟩ := tuned.quorum
    obtain rfl := Option.some.inj (needed.symm.trans read)
    omega
  obtain ⟨polled, poll, rules, found⟩ := polls sound tuned ready whole valid room.1 rich positive
  obtain ⟨counts, lasts⟩ := room
  have clock := sound.clock
  have timed := tuned.timed
  have delayed := sound.governed.delay.1
  -- The vote ends, and the proposal passes.
  let ended := s.governance.sequence + s.governance.period + 1
  have ends : saturatingAdd u32Max s.governance.sequence s.governance.period < ended := by
    unfold saturatingAdd
    omega
  have closing : Step { s with governance := polled } (.close ended s.token.timestamp)
      ⟨{ s.token with sequence := ended }, { polled with sequence := ended }⟩ :=
    .closed (by dsimp only; omega) (by omega) (Nat.le_refl _) timed
  obtain ⟨settled, evaluation, settling, found⟩ := @passes
    ⟨{ s.token with sequence := ended }, { polled with sequence := ended }⟩ _ _ quorum
    (rules.initialized.trans ready) found rfl ends rfl rfl
    ⟨positive, whole.symm.trans_le (tuned.narrow holder)⟩ (rules.quorum.trans needed) enough
  -- It is queued and executed.
  have delay : settled.delay = s.governance.delay := settling.delay.trans rules.delay
  have sequence : settled.sequence = ended := settling.sequence
  obtain ⟨finish, conclusion⟩ := @concludes ⟨{ s.token with sequence := ended }, settled⟩ _ _
    (settling.initialized.trans (rules.initialized.trans ready)) sequence timed
    (by dsimp only; omega) found rfl (by dsimp only; omega)
  exact ⟨_, _, _, _, finish, ((poll.snoc closing).snoc evaluation).append conclusion⟩

end Stages

/--
The step executes no parameter that the circulating supply cannot afford, and burns nothing that
the parameters in force need.
-/
def Mindful (s : Pair) : Label → Prop
  | .governance (.executeProposal id) => ∀ p, s.governance.proposals.lookup id = some p →
      (s.governance.applyAction p.action).Affordable s.token.total
  | .token call => ∀ amount, 0 < amount → call.Burns amount →
      s.governance.Affordable (s.token.total - amount)
  | _ => True

/-- A step that leaves the rules affordable. -/
def MindfulStep (s : Pair) (label : Label) (s' : Pair) : Prop := Step s label s' ∧ Mindful s label

/-- The rules are affordable once there are tokens, and are the default ones before. -/
structure Kept (s : Pair) : Prop where
  fresh : s.token.initialized = false ∨ s.governance.initialized = false →
    s.governance.threshold = defaultProposalThreshold ∧ s.governance.bps = defaultQuorumBps
  blank : s.token.initialized = false → s.governance.proposals = ∅
  affordable : s.token.initialized = true → s.governance.Affordable s.token.total

section Kept

variable {s s' : Pair}

theorem Tuned.default_affordable (tuned : Tuned s)
    (threshold : s.governance.threshold = defaultProposalThreshold)
    (bps : s.governance.bps = defaultQuorumBps) :
    s.governance.Affordable GovernanceToken.allocPublic := by
  -- The default rules are compared with the public share once, on a fresh contract.
  have affordable : ({ Governance.deployed 0 with
      totalSupply := some GovernanceToken.totalSupply } : Env).Affordable
        GovernanceToken.allocPublic := ⟨by decide, 40000000000000, by decide, by decide⟩
  exact affordable.congr threshold bps tuned.supply

variable {auths : List Address}

theorem Kept.token {call : GovernanceToken.Call} {after : GovernanceToken.Env} (kept : Kept s)
    (sound : Sound s) (tuned : Tuned s) (mindful : Mindful s (.token call))
    (effect : GovernanceToken.Effect s.token auths call after) :
    Kept { s with token := after } := by
  rcases effect.total_cases sound.held with
    ⟨before, minted, supply⟩ | ⟨same, grows | ⟨amount, positive, burns, total⟩⟩
  · -- The supply was minted, under the default rules.
    have rules := kept.fresh (.inl before)
    have affordable := tuned.default_affordable rules.1 rules.2
    exact ⟨fun _ => rules, fun missing => (by rw [minted] at missing; cases missing),
      fun _ => affordable.mono supply⟩
  · refine ⟨fun fresh => kept.fresh (same ▸ fresh), fun missing => kept.blank (same ▸ missing),
      fun ready => (kept.affordable (same ▸ ready)).mono grows⟩
  · refine ⟨fun fresh => kept.fresh (same ▸ fresh), fun missing => kept.blank (same ▸ missing),
      fun _ => ?_⟩
    rw [show after.total = _ from total]
    exact mindful amount positive burns

theorem Kept.initializes {call : Call} {after : Env} (kept : Kept s) (sound : Sound s)
    (missing : s.token.initialized = false)
    (effect : Effect s.governance ⟨auths, client s.token⟩ call after) :
    s.governance.initialized = false := by
  have blank := kept.blank missing
  -- There is no proposal to find, and nobody who could create one.
  have nothing {id : Nat} {p : Proposal} (found : s.governance.proposals.lookup id = some p) :
      s.governance.initialized = false := by
    rw [blank] at found
    cases found
  cases effect with
  | initialized fresh => exact fresh
  | @created proposer _ _ _ rich =>
    have poor : (client s.token).balance proposer = 0 := by
      simp [client, GovernanceToken.Env.balance, sound.held.blank missing]
    rw [(kept.fresh (.inl missing)).1, poor] at rich
    exact absurd rich (by decide)
  | _ => exact nothing ‹_›

theorem Kept.governance {call : Call} {after : Env} (kept : Kept s) (sound : Sound s)
    (tuned : Tuned s) (mindful : Mindful s (.governance call))
    (effect : Effect s.governance ⟨auths, client s.token⟩ call after) :
    Kept { s with governance := after } := by
  by_cases ready : s.governance.initialized = true
  · -- There are tokens, or nothing but the initialization could have returned.
    have minted : s.token.initialized = true := by
      by_contra missing
      have first := kept.initializes sound (Bool.eq_false_iff.mpr missing) effect
      rw [ready] at first
      cases first
    have affordable : after.Affordable s.token.total := by
      by_cases executes : ∃ id, call = .executeProposal id
      · obtain ⟨id, rfl⟩ := executes
        cases effect with
        | executed _ found => exact (mindful _ found).congr rfl rfl rfl
      · have same := effect.sameRules ready fun id run => executes ⟨id, run⟩
        exact (kept.affordable minted).congr same.threshold same.bps same.supply
    refine ⟨fun fresh => ?_, fun missing => ?_, fun _ => affordable⟩
    · rw [minted, effect.ready] at fresh
      simp at fresh
    · rw [minted] at missing
      cases missing
  · cases effect with
    | initialized fresh =>
      -- The rules become what they were, only explicitly.
      have rules := kept.fresh (.inr fresh)
      refine ⟨fun _ => ⟨rfl, rfl⟩, kept.blank, fun minted => ?_⟩
      exact (kept.affordable minted).congr rules.1.symm rules.2.symm tuned.supply.symm
    | _ => contradiction

theorem MindfulStep.kept (step : MindfulStep s label s') (sound : Sound s) (tuned : Tuned s)
    (kept : Kept s) : Kept s' := by
  obtain ⟨step, mindful⟩ := step
  -- Time alone changes neither the rules nor the supply.
  cases step with
  | token ran => exact kept.token sound tuned mindful (GovernanceToken.perform_effect ran)
  | governance ran => exact kept.governance sound tuned mindful (perform_effect ran)
  | refused => exact kept
  | closed => exact ⟨kept.fresh, kept.blank, kept.affordable⟩

theorem deployed_kept (sequence timestamp : Nat) : Kept (deployed sequence timestamp) where
  fresh _ := ⟨rfl, rfl⟩
  blank _ := rfl
  affordable minted := by cases minted

theorem Trace.kept {labels : List Label} (counted : sequence ≤ u32Max) (timed : timestamp ≤ u64Max)
    (run : Trace MindfulStep (deployed sequence timestamp) labels s) : Sound s ∧ Tuned s ∧ Kept s :=
  @Trace.preserves _ _ _ _ _ _ (fun s => Sound s ∧ Tuned s ∧ Kept s)
    (fun _ _ _ step ⟨sound, tuned, kept⟩ =>
      ⟨step.1.sound sound, step.1.tuned sound tuned, step.kept sound tuned kept⟩) run
    ⟨deployed_sound counted, deployed_tuned timed, deployed_kept sequence timestamp⟩

end Kept

/--
In every state, a holder of the whole circulating supply can still decide exactly the valid
actions, exactly if ledgers and numbers are left and the supply affords the threshold and the
quorum in force. In every run that executes no parameters and burns no tokens beyond that, the
supply affords them in every state, so such a holder can decide.
-/
theorem governance_continues {sequence timestamp : Nat} {labels : List Label} {s : Pair}
    (counted : sequence ≤ u32Max) (timed : timestamp ≤ u64Max)
    (minted : s.token.initialized = true) (ready : s.governance.initialized = true) :
    (Trace Step (deployed sequence timestamp) labels s →
      ∀ holder action, s.token.balance holder = s.token.total →
        (CanGovern s holder action ↔
          action.Valid ∧ s.Room ∧ s.governance.Affordable s.token.total)) ∧
    (Trace MindfulStep (deployed sequence timestamp) labels s →
      s.governance.Affordable s.token.total ∧
      ∀ holder action, s.token.balance holder = s.token.total → action.Valid → s.Room →
        CanGovern s holder action) := by
  refine ⟨fun run holder action whole => ?_, fun run => ?_⟩
  · -- In any run, the rules decide alone what one holder of everything can do.
    obtain ⟨sound, tuned⟩ := Trace.tuned counted timed run
    exact ⟨fun can => can.affordable sound whole, fun ⟨valid, room, affordable⟩ =>
      canGovern_of_affordable sound tuned ready whole valid room affordable⟩
  · -- In a mindful run, the rules always stay within what is in circulation.
    obtain ⟨sound, tuned, kept⟩ := Trace.kept counted timed run
    have affordable := kept.affordable minted
    exact ⟨affordable, fun holder action whole valid room =>
      canGovern_of_affordable sound tuned ready whole valid room affordable⟩

section Samples

/-- The step neither executes a proposal nor burns tokens. -/
def Label.quiet : Label → Bool
  | .governance (.executeProposal _) => false
  | .token (.burn _ _) => false
  | .token (.burnFrom _ _ _) => false
  | _ => true

theorem Label.mindful (quiet : label.quiet = true) (s : Pair) : Mindful s label := by
  -- Only an execution or a burn can need mindfulness.
  cases label with
  | governance call =>
    cases call with
    | executeProposal => cases quiet
    | _ => trivial
  | token call =>
    intro amount _ burns
    cases call with
    | burn | burnFrom => cases quiet
    | _ => exact burns.elim
  | refused => trivial
  | close => trivial

/-- Once everything has vested, one address collects the whole supply. -/
def gather : List Turn :=
  [.token [⟨0⟩] (.initializeToken ⟨0⟩ ⟨1⟩ ⟨2⟩ ⟨3⟩ ⟨4⟩),
    .governance [] (.initializeGovernance ⟨0⟩ ⟨8⟩ ⟨9⟩), .close 7 63072005,
    .token [⟨2⟩] (.transfer ⟨2⟩ ⟨1⟩ GovernanceToken.allocTreasury),
    .token [⟨3⟩] (.transfer ⟨3⟩ ⟨1⟩ GovernanceToken.allocCoreTeam),
    .token [⟨4⟩] (.transfer ⟨4⟩ ⟨1⟩ GovernanceToken.allocPublic)]

/-- The state in which one address holds everything. -/
def gathered : Pair := gather.foldl Turn.next (deployed 1 5)

/-- Ledgers and numbers are left. -/
instance (s : Pair) : Decidable s.Room := inferInstanceAs (Decidable (_ ∧ _))

/-- The holder of everything can decide under the default rules. -/
theorem governance_continues_gathered :
    gathered.token.balance ⟨1⟩ = GovernanceToken.totalSupply ∧
      CanGovern gathered ⟨1⟩ .pauseRegistry := by
  have run : Trace MindfulStep (deployed 1 5) _ gathered :=
    Trace.of_playable (fun s turn (legal : turn.Legal s ∧ turn.label.quiet = true) =>
      ⟨legal.1.step, Label.mindful legal.2 s⟩) gather (by decide)
  have continues := (@governance_continues 1 5 _ gathered (by decide) (by decide) rfl rfl).2 run
  exact ⟨by decide, continues.2 ⟨1⟩ .pauseRegistry (by decide) (by decide) (by decide)⟩

def raiseThreshold : List Turn :=
  [.governance [⟨1⟩] (.createProposal ⟨1⟩
      (.setProposalThreshold (GovernanceToken.totalSupply + 1))),
    .governance [⟨1⟩] (.vote ⟨1⟩ 1 .for_), .close 50408 63072005,
    .governance [] (.queueProposal 1), .close 79208 63072005,
    .governance [] (.executeProposal 1)]

/-- The holder of everything burns all but three percent of the supply. -/
def burnMost : List Turn :=
  [.token [⟨1⟩] (.burn ⟨1⟩ (97000000 * GovernanceToken.oneToken))]

/--
After a threshold above the supply was executed, nobody can propose any more.

After a burn, nobody can meet the quorum any more, which is a part of the original supply.
-/
theorem governance_disabled :
    (∃ labels s, Trace Step (deployed 1 5) labels s ∧ s.token.initialized = true ∧
      s.governance.initialized = true ∧ s.token.balance ⟨1⟩ = s.token.total ∧
      s.token.total = GovernanceToken.totalSupply ∧ s.Room ∧
      ∀ action, ¬ CanGovern s ⟨1⟩ action) ∧
    ∃ labels s, Trace Step (deployed 1 5) labels s ∧ s.token.initialized = true ∧
      s.governance.initialized = true ∧ s.token.balance ⟨1⟩ = s.token.total ∧
      s.governance.threshold ≤ s.token.total ∧ s.Room ∧ ∀ action, ¬ CanGovern s ⟨1⟩ action := by
  -- The holder raises the threshold beyond the supply, or burns below the quorum.
  have raised := scripted (show Trace.Playable Turn.next Turn.Legal (deployed 1 5)
    (gather ++ raiseThreshold) by decide)
  have burned := scripted (show Trace.Playable Turn.next Turn.Legal (deployed 1 5)
    (gather ++ burnMost) by decide)
  refine ⟨⟨_, _, raised, rfl, rfl, by decide, by decide, by decide, fun action can => ?_⟩,
    _, _, burned, rfl, rfl, by decide, by decide, by decide, fun action can => ?_⟩
  · -- A proposal would need more tokens than there are.
    have sound := (Trace.tuned (by decide) (by decide) raised).1
    obtain ⟨-, -, rich, -⟩ := can.affordable sound (by decide)
    exact absurd rich (by decide)
  · -- A quorum would need more votes than there are tokens left.
    have sound := (Trace.tuned (by decide) (by decide) burned).1
    obtain ⟨-, -, -, quorum, needed, enough⟩ := can.affordable sound (by decide)
    obtain rfl : quorum = 4000000 * GovernanceToken.oneToken :=
      Option.some.inj (needed.symm.trans (by decide))
    exact absurd enough (by decide)

end Samples

end Pair

end KeeperNetwork.Governance
