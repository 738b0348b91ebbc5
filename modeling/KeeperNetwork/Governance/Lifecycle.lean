import KeeperNetwork.Governance.Moves

/-! The life of a proposal: its votes, its schedule and the timelock, over whole runs. -/

namespace KeeperNetwork.Governance

open Soroban

def Env.cast (e : Env) (id : Nat) (choice : VoteChoice) : Int :=
  e.votes.totalBy fun key record =>
    if key.1 = id ∧ record.choice = choice then record.weight else 0

/-- The tally of a proposal for one choice, which is zero while there is no proposal. -/
def Env.tallyOf (e : Env) (id : Nat) (choice : VoteChoice) : Int :=
  (e.proposals.lookup id).elim 0 fun p => p.tally choice

/-- What the schedule of a stored proposal looks like. -/
structure Scheduled (e : Env) (p : Proposal) : Prop where
  valid : p.action.Valid
  created : p.createdAt ≤ e.sequence
  /-- Voting lasts for a period within bounds, unless it would outlast the ledger numbers. -/
  ends : ∃ period, 14400 ≤ period ∧ period ≤ 201600 ∧
    p.votingEnd = saturatingAdd u32Max p.createdAt period
  /-- Only a cancelled proposal leaves the vote before its end. -/
  ended : p.status ≠ .active → p.status ≠ .cancelled → p.votingEnd < e.sequence
  /-- A queued proposal waits. -/
  waits : p.status = .queued ∨ p.status = .executed → p.votingEnd + 14400 < p.eta
  /-- An executed proposal has waited. -/
  waited : p.status = .executed → p.eta ≤ e.sequence

/-- The invariants of the governance contract. -/
structure Sound (e : Env) : Prop where
  counted : e.sequence ≤ u32Max
  blank : e.initialized = false → e.proposals = ∅ ∧ e.votes = ∅
  numbered : ∀ id p, e.proposals.lookup id = some p → id ≤ e.count
  attached : ∀ id voter record, e.votes.lookup (id, voter) = some record →
    ∃ p, e.proposals.lookup id = some p
  tallied : ∀ id choice, e.cast id choice = e.tallyOf id choice
  scheduled : ∀ id p, e.proposals.lookup id = some p → Scheduled e p
  period : 14400 ≤ e.period ∧ e.period ≤ 201600
  delay : 14400 ≤ e.delay ∧ e.delay ≤ 86400

section Effects

variable {e e' : Env} {inv : Invocation} {call : Call}

theorem Effect.sequence (effect : Effect e inv call e') : e'.sequence = e.sequence := by
  cases effect with
  | @executed id p => cases action : p.action <;> rfl
  | _ => rfl

theorem Effect.ready (effect : Effect e inv call e') : e'.initialized = true := by
  -- The flag is set once, and no action unsets it.
  cases effect with
  | initialized => rfl
  | @executed id p ready => cases action : p.action <;> exact ready
  | _ => assumption

theorem Effect.count_le (effect : Effect e inv call e') (ready : e.initialized = true) :
    e.count ≤ e'.count := by
  -- Only a creation counts, and only the initialization resets the count.
  cases effect with
  | initialized fresh => rw [ready] at fresh; cases fresh
  | created => exact Nat.le_succ _
  | @executed id p => cases action : p.action <;> exact Nat.le_refl _
  | _ => exact Nat.le_refl _

theorem Effect.votes_eq (effect : Effect e inv call e')
    (other : ∀ voter id choice, call ≠ .vote voter id choice) : e'.votes = e.votes := by
  cases effect with
  | voted => exact absurd rfl (other _ _ _)
  | executed => simp
  | _ => rfl

theorem Effect.parameters (effect : Effect e inv call e') (sound : Sound e) :
    (14400 ≤ e'.period ∧ e'.period ≤ 201600) ∧ 14400 ≤ e'.delay ∧ e'.delay ≤ 86400 := by
  cases effect with
  | initialized =>
    exact (by decide : (14400 ≤ defaultVotingPeriod ∧ defaultVotingPeriod ≤ 201600) ∧
      14400 ≤ defaultTimelockDelay ∧ defaultTimelockDelay ≤ 86400)
  | @executed _ p ready found =>
    -- A new value comes with an action that was valid when it was proposed.
    have valid := (sound.scheduled _ _ found).valid
    cases action : p.action with
    | setVotingPeriod => exact ⟨by rwa [action] at valid, sound.delay⟩
    | setTimelockDelay => exact ⟨sound.period, by rwa [action] at valid⟩
    | _ => exact ⟨sound.period, sound.delay⟩
  | _ => exact ⟨sound.period, sound.delay⟩

theorem Effect.old_or_new (effect : Effect e inv call e') (sound : Sound e) {id : Nat}
    {p' : Proposal} (found : e'.proposals.lookup id = some p') :
    (∃ p, e.proposals.lookup id = some p ∧ Move e id p call p') ∨
      e.proposals.lookup id = none ∧ id = e.count + 1 ∧ ∃ proposer action, action.Valid ∧
        call = .createProposal proposer action ∧ p' = newProposal id proposer action e.sequence
          (saturatingAdd u32Max e.sequence e.period) := by
  -- Either the proposal was there and moved, or this call created it.
  cases before : e.proposals.lookup id with
  | none => exact .inr ⟨rfl, effect.created_of_new before found⟩
  | some p =>
    obtain ⟨moved, there, move⟩ := effect.move sound.numbered before
    obtain rfl : p' = moved := Option.some.inj (found.symm.trans there)
    exact .inl ⟨p, rfl, move⟩

theorem Sound.ready (sound : Sound e) {id : Nat} {p : Proposal}
    (found : e.proposals.lookup id = some p) : e.initialized = true := by
  -- Before the initialization there are no proposals.
  by_contra not
  have empty := (sound.blank (Bool.eq_false_iff.mpr not)).1
  rw [empty] at found
  simp at found

theorem Effect.numbered (effect : Effect e inv call e') (sound : Sound e) {id : Nat}
    {p' : Proposal} (found : e'.proposals.lookup id = some p') : id ≤ e'.count := by
  -- An old number stays within the count, and a new one is the count itself.
  rcases effect.old_or_new sound found with
    ⟨p, before, -⟩ | ⟨-, new, proposer, action, -, rfl, -⟩
  · exact Nat.le_trans (sound.numbered id p before) (effect.count_le (sound.ready before))
  · cases effect with
    | created auth ready => exact Nat.le_of_eq new

theorem Effect.attached (effect : Effect e inv call e') (sound : Sound e) {id : Nat}
    {voter : Address} {record : VoteRecord} (cast : e'.votes.lookup (id, voter) = some record) :
    ∃ p, e'.proposals.lookup id = some p := by
  -- A proposal that is there stays there, so only a new vote has to be looked at.
  have stays {other : Nat} {p : Proposal} (found : e.proposals.lookup other = some p) :
      ∃ p', e'.proposals.lookup other = some p' :=
    (effect.move sound.numbered found).imp fun _ both => both.1
  by_cases voting : ∀ voter id choice, call ≠ .vote voter id choice
  · rw [effect.votes_eq voting] at cast
    obtain ⟨p, found⟩ := sound.attached id voter record cast
    exact stays found
  · push Not at voting
    obtain ⟨other, number, choice, rfl⟩ := voting
    cases effect with
    | voted auth ready found =>
      have now := (Finmap.lookup_insert_eq _ _ _ _).symm.trans cast
      split at now
      · rename_i same
        rw [Prod.mk.injEq] at same
        exact same.1 ▸ stays found
      · obtain ⟨p, there⟩ := sound.attached id voter record now
        exact stays there

end Effects

section Tallies

variable {e e' : Env} {inv : Invocation} {call : Call}

theorem tally_withTally (p : Proposal) (choice other : VoteChoice) (votes : Int) :
    (p.withTally choice votes).tally other = if other = choice then votes else p.tally other := by
  cases choice <;> cases other <;> rfl

theorem Move.tally {id : Nat} {p p' : Proposal} (move : Move e id p call p')
    (other : ∀ voter id choice, call ≠ .vote voter id choice) (choice : VoteChoice) :
    p'.tally choice = p.tally choice := by
  cases move with
  | voted => exact absurd rfl (other _ _ _)
  | _ => cases choice <;> rfl

/-- The votes that were cast are those that are tallied. -/
theorem Effect.tallied (effect : Effect e inv call e') (sound : Sound e) (id : Nat)
    (choice : VoteChoice) : e'.cast id choice = e'.tallyOf id choice := by
  have before := sound.tallied id choice
  by_cases voting : ∀ voter id choice, call ≠ .vote voter id choice
  · -- Neither the votes nor the tallies change.
    rw [Env.cast, effect.votes_eq voting, ← Env.cast, before]
    unfold Env.tallyOf
    cases after : e'.proposals.lookup id with
    | none =>
      cases found : e.proposals.lookup id with
      | none => rfl
      | some p =>
        obtain ⟨p', there, -⟩ := effect.move sound.numbered found
        rw [after] at there
        cases there
    | some p' =>
      rcases effect.old_or_new sound after with
        ⟨p, found, move⟩ | ⟨absent, -, proposer, action, -, -, rfl⟩
      · rw [found]
        exact (move.tally voting choice).symm
      · rw [absent]
        cases choice <;> rfl
  · push Not at voting
    obtain ⟨voter, number, picked, rfl⟩ := voting
    cases effect with
    | @voted _ _ _ p weight auth ready found active within first power positive =>
      -- The new record and the tally it is added to grow by the same weight.
      have recorded : Env.cast (Env.emit { e.store number (p.withTally picked
            (p.tally picked + weight)) with
          votes := e.votes.insert (number, voter) ⟨picked, weight⟩ }
          (.voteCast number voter picked weight)) id choice =
          (if number = id ∧ picked = choice then weight else 0) + e.cast id choice :=
        Finmap.totalBy_insert _ (Finmap.lookup_eq_none.mp first) _
      rw [recorded, before]
      unfold Env.tallyOf
      rw [emit_proposals]
      by_cases same : id = number
      · subst same
        simp only [Env.store, Finmap.lookup_insert, found, Option.elim_some, tally_withTally,
          true_and]
        by_cases chosen : choice = picked
        · subst chosen
          simp only [if_true]
          omega
        · rw [if_neg (Ne.symm chosen), if_neg chosen]
          omega
      · simp only [Env.store, Finmap.lookup_insert_of_ne _ same]
        omega

end Tallies

variable {sequence : Nat} {labels : List Label}

section Schedule

variable {e e' : Env} {inv : Invocation} {call : Call}

theorem Move.scheduled {id : Nat} {p p' : Proposal} (move : Move e id p call p')
    (delayed : 14400 ≤ e.delay) (scheduled : Scheduled e p) : Scheduled e p' := by
  obtain ⟨valid, created, ends, ended, waits, waited⟩ := scheduled
  -- Each move sets at most one mark in time, and sets it after the one before.
  cases move with
  | kept => exact ⟨valid, created, ends, ended, waits, waited⟩
  | @voted voter choice => cases choice <;> exact ⟨valid, created, ends, ended, waits, waited⟩
  | @settled totalVotes quorum judged =>
    refine ⟨valid, created, ends, fun _ _ => judged.ended, fun later => ?_, fun done => ?_⟩
    · rcases judge_cases p id totalVotes quorum with passed | defeated <;> simp_all
    · rcases judge_cases p id totalVotes quorum with passed | defeated <;> simp_all
  | queued passed =>
    -- Whether it was settled before or just now, its vote is over.
    have past : p.votingEnd < e.sequence := by
      rcases passed with passed | ⟨-, past, -⟩
      · exact ended (by rw [passed]; simp) (by rw [passed]; simp)
      · exact past
    refine ⟨valid, created, ends, fun _ _ => past, fun _ => ?_, fun done => by cases done⟩
    show p.votingEnd + 14400 < e.sequence + e.delay
    omega
  | executed queued elapsed =>
    refine ⟨valid, created, ends, fun _ _ => ?_, fun _ => waits (.inl queued), fun _ => elapsed⟩
    exact ended (by rw [queued]; simp) (by rw [queued]; simp)
  | cancelled =>
    refine ⟨valid, created, ends, fun _ alive => absurd rfl alive, fun later => ?_,
      fun done => by cases done⟩
    rcases later with later | later <;> cases later

theorem Scheduled.later {p : Proposal} (scheduled : Scheduled e p)
    (onward : e.sequence ≤ e'.sequence) : Scheduled e' p where
  -- All marks lie in the past, and stay there.
  valid := scheduled.valid
  created := Nat.le_trans scheduled.created onward
  ends := scheduled.ends
  ended left alive := Nat.lt_of_lt_of_le (scheduled.ended left alive) onward
  waits := scheduled.waits
  waited done := Nat.le_trans (scheduled.waited done) onward

theorem Effect.sound (effect : Effect e inv call e') (sound : Sound e) : Sound e' where
  counted := effect.sequence.symm ▸ sound.counted
  blank fresh := by rw [effect.ready] at fresh; cases fresh
  numbered _ _ := effect.numbered sound
  attached _ _ _ := effect.attached sound
  tallied := effect.tallied sound
  -- A proposal has moved, or it is the new one.
  scheduled id p' found := by
    refine @Scheduled.later e e' p' ?_ (Nat.le_of_eq effect.sequence.symm)
    rcases effect.old_or_new sound found with ⟨p, before, move⟩ | ⟨-, -, _, _, valid, -, rfl⟩
    · exact move.scheduled sound.delay.1 (sound.scheduled id p before)
    · -- An open proposal has neither settled nor been queued.
      refine ⟨valid, Nat.le_refl _, ⟨e.period, sound.period.1, sound.period.2, rfl⟩,
        fun left => absurd rfl left, fun later => ?_, fun done => by cases done⟩
      rcases later with later | later <;> cases later
  period := (effect.parameters sound).1
  delay := (effect.parameters sound).2

theorem Step.sound {label : Label} (step : Step e label e') (sound : Sound e) : Sound e' := by
  -- Time only passes, which every part of the invariant allows.
  cases step with
  | called ran => exact (perform_effect ran).sound sound
  | refused => exact sound
  | closed onward counted =>
    exact ⟨counted, sound.blank, sound.numbered, sound.attached, sound.tallied,
      fun id p found => (sound.scheduled id p found).later (Nat.le_of_lt onward), sound.period,
      sound.delay⟩

theorem deployed_sound (counted : sequence ≤ u32Max) :
    Sound (deployed sequence) where
  -- Nothing is stored yet, and the defaults are within their bounds.
  counted := counted
  blank _ := ⟨rfl, rfl⟩
  numbered id p found := by simp [deployed] at found
  attached id voter record found := by simp [deployed] at found
  tallied id choice := by simp [Env.cast, Env.tallyOf, deployed]
  scheduled id p found := by simp [deployed] at found
  period := (by decide : 14400 ≤ defaultVotingPeriod ∧ defaultVotingPeriod ≤ 201600)
  delay := (by decide : 14400 ≤ defaultTimelockDelay ∧ defaultTimelockDelay ≤ 86400)

/-- The invariants hold in every state of every run. -/
theorem Trace.sound (counted : sequence ≤ u32Max) (run : Trace Step (deployed sequence) labels e) :
    Sound e :=
  run.preserves (fun _ _ _ step => step.sound) (deployed_sound counted)

end Schedule

/-- What a step may change about a proposal that is there. -/
structure Advances (e : Env) (id : Nat) (label : Label) (p p' : Proposal) : Prop where
  created : p'.createdAt = p.createdAt
  ends : p'.votingEnd = p.votingEnd
  /-- Votes count until the end of the voting period only. -/
  frozen : p.votingEnd < e.sequence → ∀ choice, p'.tally choice = p.tally choice
  /-- A proposal passes after its vote, with the quorum met and a majority for it. -/
  passed : p'.status = .passed →
    p.status = .passed ∨ p.status = .active ∧ p.votingEnd < e.sequence ∧ Carries e p
  /-- A proposal is queued when it has passed, and then waits for the delay in force. -/
  queued : p'.status = .queued → p.status = .queued ∧ p'.eta = p.eta ∨
    (p.status = .passed ∨ p.status = .active ∧ p.votingEnd < e.sequence ∧ Carries e p) ∧
      p'.eta = e.sequence + e.delay
  /-- A proposal is executed when it is queued and has waited. -/
  executed : p'.status = .executed →
    p.status = .executed ∨ p.status = .queued ∧ p.eta ≤ e.sequence
  /-- An executed proposal never changes again. -/
  final : p.status = .executed → p' = p
  /-- Only queueing the proposal itself sets its waiting time. -/
  eta : label ≠ .call (.queueProposal id) → p'.eta = p.eta

section Advance

variable {e e' : Env} {label : Label} {id : Nat} {p p' : Proposal}

theorem Advances.refl (e : Env) (id : Nat) (label : Label) (p : Proposal) :
    Advances e id label p p where
  created := rfl
  ends := rfl
  frozen _ _ := rfl
  passed := .inl
  queued still := .inl ⟨still, rfl⟩
  executed := .inl
  final _ := rfl
  eta _ := rfl

/-- Every move of a proposal is an advance. -/
theorem Move.advances {call : Call} (move : Move e id p call p') :
    Advances e id (.call call) p p' := by
  cases move with
  | kept => exact .refl e id _ p
  | @voted voter choice weight active within positive =>
    -- A vote is counted while the period lasts, and touches nothing but the tally.
    have apart : ¬ p.votingEnd < e.sequence := by omega
    cases choice <;>
      exact ⟨rfl, rfl, fun ended => absurd ended apart, .inl, fun still => .inl ⟨still, rfl⟩, .inl,
        fun done => absurd (active.symm.trans done) (by simp), fun _ => rfl⟩
  | @settled totalVotes quorum judged =>
    refine ⟨rfl, rfl, fun _ choice => by cases choice <;> rfl, fun won => ?_, fun later => ?_,
      fun later => ?_, fun done => ?_, fun _ => rfl⟩
    · exact .inr ⟨judged.active, judged.ended, judged.carries won⟩
    · rcases judge_cases p id totalVotes quorum with passed | defeated <;> simp_all
    · rcases judge_cases p id totalVotes quorum with passed | defeated <;> simp_all
    · exact absurd (judged.active.symm.trans done) (by simp)
  | queued passed =>
    refine ⟨rfl, rfl, fun _ choice => by cases choice <;> rfl, fun won => (by cases won),
      fun _ => .inr ⟨passed, rfl⟩, fun later => (by cases later), fun done => ?_,
      fun other => absurd rfl other⟩
    rcases passed with passed | ⟨active, -⟩
    · exact absurd (passed.symm.trans done) (by simp)
    · exact absurd (active.symm.trans done) (by simp)
  | executed queued elapsed =>
    exact ⟨rfl, rfl, fun _ choice => by cases choice <;> rfl, fun won => (by cases won),
      fun later => (by cases later), fun _ => .inr ⟨queued, elapsed⟩,
      fun done => absurd (queued.symm.trans done) (by simp), fun _ => rfl⟩
  | cancelled unexecuted alive =>
    exact ⟨rfl, rfl, fun _ choice => by cases choice <;> rfl, fun won => (by cases won),
      fun later => (by cases later), fun later => (by cases later),
      fun done => absurd done unexecuted, fun _ => rfl⟩

theorem Step.advances (step : Step e label e') (sound : Sound e)
    (found : e.proposals.lookup id = some p) :
    ∃ p', e'.proposals.lookup id = some p' ∧ Advances e id label p p' := by
  -- A call moves the proposal, and nothing else does.
  cases step with
  | called ran =>
    obtain ⟨p', there, move⟩ := (perform_effect ran).move sound.numbered found
    exact ⟨p', there, move.advances⟩
  | refused | closed => exact ⟨p, found, .refl _ _ _ _⟩

theorem Step.executes (step : Step e (.call (.executeProposal id)) e') :
    ∃ p, e.proposals.lookup id = some p ∧ p.status = .queued ∧ p.eta ≤ e.sequence ∧
      e'.proposals.lookup id = some { p with status := .executed } := by
  cases step with
  | called ran =>
    -- The only effect of an execution names the proposal and its timelock.
    cases perform_effect ran with
    | @executed _ p ready found queued elapsed => exact ⟨p, found, queued, elapsed, by simp⟩

theorem Step.queues (step : Step e (.call (.queueProposal id)) e')
    (found : e.proposals.lookup id = some p) (before : p.status ≠ .queued) :
    ∃ p', e'.proposals.lookup id = some p' ∧ p'.status = .queued ∧
      p'.eta = e.sequence + e.delay := by
  cases step with
  | called ran =>
    -- A proposal that was not queued is queued from now on.
    cases perform_effect ran with
    | queuedBefore ready there queued =>
      obtain rfl := Option.some.inj (found.symm.trans there)
      exact absurd queued before
    | queued | settledAndQueued => exact ⟨_, (queue_lookup _ _ _ _).trans (if_pos rfl), rfl, rfl⟩

theorem executed_once (counted : sequence ≤ u32Max)
    (run : Trace Step (deployed sequence) labels e) (id : Nat) :
    labels.count (.call (.executeProposal id)) = 0 ∨
      labels.count (.call (.executeProposal id)) = 1 ∧
        ∃ p, e.proposals.lookup id = some p ∧ p.status = .executed := by
  induction run with
  | nil => exact .inl rfl
  | @snoc labels before after label first last ih =>
    by_cases this : label = .call (.executeProposal id)
    · -- An execution finds the proposal queued, so it was not executed before.
      subst this
      obtain ⟨p, found, queued, -, there⟩ := last.executes
      rw [List.count_cons_self]
      rcases ih with none | ⟨-, q, before, done⟩
      · exact .inr ⟨by omega, _, there, rfl⟩
      · obtain rfl := Option.some.inj (found.symm.trans before)
        exact absurd (queued.symm.trans done) (by simp)
    · rw [List.count_cons_of_ne this]
      rcases ih with none | ⟨one, p, found, done⟩
      · exact .inl none
      · obtain ⟨p', there, advances⟩ := last.advances (Trace.sound counted first) found
        exact .inr ⟨one, p', there, advances.final done ▸ done⟩

/-- The proposal was queued for a ledger, and may since have been executed or cancelled. -/
def Waits (id eta : Nat) (e : Env) : Prop :=
  ∃ p, e.proposals.lookup id = some p ∧ p.eta = eta ∧
    (p.status = .queued ∨ p.status = .executed ∨ p.status = .cancelled)

theorem Step.waits (step : Step e label e') (sound : Sound e) {eta : Nat}
    (waiting : Waits id eta e) : Waits id eta e' := by
  obtain ⟨p, found, set, status⟩ := waiting
  cases step with
  | refused | closed => exact ⟨p, found, set, status⟩
  | called ran =>
    obtain ⟨p', there, move⟩ := (perform_effect ran).move sound.numbered found
    refine ⟨p', there, ?_⟩
    -- A queued proposal can only be executed or cancelled, and keeps its time.
    cases move with
    | kept => exact ⟨set, status⟩
    | voted active => simp [active] at status
    | settled judged => simp [judged.active] at status
    | queued passed => rcases passed with passed | ⟨active, -⟩ <;> simp_all
    | executed => exact ⟨set, .inr (.inl rfl)⟩
    | cancelled => exact ⟨set, .inr (.inr rfl)⟩

theorem Trace.waits {start last : Env} {eta : Nat} (run : Trace Step start labels last)
    (sound : Sound start) (waiting : Waits id eta start) : Waits id eta last := by
  -- The wait relies on the invariant, so both are carried along.
  have both : Sound last ∧ Waits id eta last :=
    @Trace.preserves _ _ _ _ _ _ (fun e => Sound e ∧ Waits id eta e)
      (fun _ _ _ step held => ⟨step.sound held.1, step.waits held.1 held.2⟩) run ⟨sound, waiting⟩
  exact both.2

end Advance

/--
The life of every proposal, in every run and with any token.

Tallies are the sums of the recorded votes. A step changes a proposal only as it advances, and new
proposals are open. No proposal is executed twice. The voting period and the delay stay within
their bounds, so a proposal is at least 14400 ledgers old when its vote is settled, and its
execution comes at least 14400 ledgers after its queueing.
-/
theorem proposal_lifecycle {sequence : Nat} {labels : List Label} {e : Env}
    (counted : sequence ≤ u32Max) (run : Trace Step (deployed sequence) labels e) :
    (∀ id p, e.proposals.lookup id = some p →
      ∀ choice, p.tally choice = e.cast id choice) ∧
    (∀ label e' id p, Step e label e' → e.proposals.lookup id = some p →
      ∃ p', e'.proposals.lookup id = some p' ∧ Advances e id label p p') ∧
    (∀ label e' id p', Step e label e' → e.proposals.lookup id = none →
      e'.proposals.lookup id = some p' →
      ∃ proposer action, p' = newProposal id proposer action e.sequence
        (saturatingAdd u32Max e.sequence e.period)) ∧
    (∀ id, labels.count (.call (.executeProposal id)) ≤ 1) ∧
    (14400 ≤ e.period ∧ e.period ≤ 201600 ∧ 14400 ≤ e.delay ∧ e.delay ≤ 86400) ∧
    (∀ id p, e.proposals.lookup id = some p → p.status ≠ .active → p.status ≠ .cancelled →
      p.createdAt + 14400 < e.sequence) ∧
    (∀ id p queued later last done, e.proposals.lookup id = some p → p.status ≠ .queued →
      Step e (.call (.queueProposal id)) queued → Trace Step queued later last →
      Step last (.call (.executeProposal id)) done → e.sequence + 14400 ≤ last.sequence) := by
  -- Everything is read off the invariant, or off one step from a sound state.
  have sound := Trace.sound counted run
  refine ⟨?tallies, ?advances, ?creation, ?once, ?parameters, ?settled, ?timelock⟩
  case tallies =>
    intro id p found choice
    rw [sound.tallied, Env.tallyOf, found, Option.elim_some]
  case advances =>
    intro label e' id p step found
    exact step.advances sound found
  case creation =>
    intro label e' id p' step absent found
    -- Only a call can create a proposal.
    cases step with
    | called ran =>
      obtain ⟨-, proposer, action, -, -, new⟩ := (perform_effect ran).created_of_new absent found
      exact ⟨proposer, action, new⟩
    | refused | closed => rw [absent] at found; cases found
  case once =>
    intro id
    rcases executed_once counted run id with none | ⟨one, -⟩ <;> omega
  case parameters => exact ⟨sound.period.1, sound.period.2, sound.delay.1, sound.delay.2⟩
  case settled =>
    intro id p found left alive
    -- A period that was cut off by the last ledger number never ends.
    obtain ⟨period, long, -, ends⟩ := (sound.scheduled id p found).ends
    have ended := (sound.scheduled id p found).ended left alive
    have counted := sound.counted
    rw [ends, saturatingAdd] at ended
    omega
  case timelock =>
    intro id p queued later last done found before queue run execute
    obtain ⟨p', there, status, set⟩ := queue.queues found before
    -- Along the run the waiting time stays what the queueing set.
    obtain ⟨q, now, waits, -⟩ := Trace.waits run (queue.sound sound) ⟨p', there, set, .inl status⟩
    obtain ⟨r, executed, -, elapsed, -⟩ := execute.executes
    obtain rfl := Option.some.inj (now.symm.trans executed)
    have := sound.delay.1
    omega

def heldBy (holder : Address) : TokenClient where
  totalSupply := 100000000 * oneToken
  balance account := if account = holder then 100000000 * oneToken else 0
  balanceAt account _ := some (if account = holder then 100000000 * oneToken else 0)

def byHolder (call : Call) : Turn := .call ⟨[⟨1⟩], heldBy ⟨1⟩⟩ call

/-- A proposal from its creation over vote and timelock to its execution. -/
def wholeLife (action : GovernableAction) : List Turn :=
  [byHolder (.initializeGovernance ⟨0⟩ ⟨8⟩ ⟨9⟩), byHolder (.createProposal ⟨1⟩ action),
    byHolder (.vote ⟨1⟩ 1 .for_), .close 50402, byHolder (.queueProposal 1), .close 79202,
    byHolder (.executeProposal 1)]

/-- A proposal to change the voting period lives its whole life. -/
theorem proposal_lifecycle_executed :
    ∃ p, ((wholeLife (.setVotingPeriod 20000)).foldl Turn.next (deployed 1)).proposals.lookup 1 =
        some p ∧ p.status = .executed ∧ p.createdAt = 1 ∧
      p.tally .for_ =
        ((wholeLife (.setVotingPeriod 20000)).foldl Turn.next (deployed 1)).cast 1 .for_ := by
  have run := scripted (show Trace.Playable Turn.next Turn.Legal (deployed 1)
    (wholeLife (.setVotingPeriod 20000)) by decide)
  have lived := proposal_lifecycle (by decide) run
  exact ⟨_, rfl, by decide, by decide, lived.1 1 _ rfl .for_⟩

end KeeperNetwork.Governance
