import KeeperNetwork.Governance.Lifecycle
import KeeperNetwork.GovernanceToken.History
import KeeperNetwork.GovernanceToken.Supply

/-! Voting power at the creation of a proposal, for the governance contract and its token. -/

namespace KeeperNetwork.Governance

open Soroban

def client (token : GovernanceToken.Env) : TokenClient where
  totalSupply := GovernanceToken.totalSupply
  balance := token.balance
  balanceAt := token.balanceAt

/-- The two contracts on one ledger. -/
structure Pair where
  token : GovernanceToken.Env
  governance : Env

namespace Pair

/-- What can happen to the two contracts. -/
inductive Label where
  | token (call : GovernanceToken.Call)
  | governance (call : Call)
  | refused
  | close (sequence timestamp : Nat)

/-- One thing that happens to the two contracts, with any signatures. -/
inductive Step (s : Pair) : Label → Pair → Prop
  | token {auths : List Address} {call : GovernanceToken.Call} {after : GovernanceToken.Env}
      (ran : (GovernanceToken.perform auths call).Returns s.token () after) :
      Step s (.token call) { s with token := after }
  | governance {auths : List Address} {call : Call} {value : Value} {after : Env}
      (ran : (perform ⟨auths, client s.token⟩ call).Returns s.governance value after) :
      Step s (.governance call) { s with governance := after }
  | refused : Step s .refused s
  | closed {sequence timestamp : Nat} (onward : s.token.sequence < sequence)
      (counted : sequence ≤ u32Max) (later : s.token.timestamp ≤ timestamp)
      (timed : timestamp ≤ u64Max) :
      Step s (.close sequence timestamp)
        ⟨{ s.token with sequence, timestamp }, { s.governance with sequence }⟩

/-- Both contracts just deployed. -/
def deployed (sequence timestamp : Nat) : Pair :=
  ⟨GovernanceToken.deployed sequence timestamp, Governance.deployed sequence⟩

/-- The invariants of both contracts, on one clock. -/
structure Sound (s : Pair) : Prop where
  clock : s.governance.sequence = s.token.sequence
  tracked : GovernanceToken.Tracked s.token
  held : GovernanceToken.Held s.token
  governed : Governance.Sound s.governance

theorem Step.sound {s s' : Pair} {label : Label} (step : Step s label s') (sound : Sound s) :
    Sound s' := by
  -- Each contract keeps its own invariant, and the clocks advance together.
  cases step with
  | token ran =>
    have step := GovernanceToken.Step.called ran
    have clock := (GovernanceToken.perform_effect ran).frame.1
    exact ⟨sound.clock.trans clock.symm, step.tracked sound.tracked, step.held sound.held,
      sound.governed⟩
  | governance ran =>
    exact ⟨(perform_effect ran).sequence.trans sound.clock, sound.tracked, sound.held,
      (Governance.Step.called ran).sound sound.governed⟩
  | refused => exact sound
  | closed onward counted later timed =>
    have token := GovernanceToken.Step.closed onward counted later timed
    have governed := Governance.Step.closed (sound.clock.symm ▸ onward) counted
    exact ⟨rfl, token.tracked sound.tracked, token.held sound.held,
      governed.sound sound.governed⟩

/-- Both contracts start out with the invariants. -/
theorem deployed_sound {sequence timestamp : Nat} (counted : sequence ≤ u32Max) :
    Sound (deployed sequence timestamp) :=
  ⟨rfl, GovernanceToken.deployed_tracked _ _, GovernanceToken.deployed_held _ _,
    Governance.deployed_sound counted⟩

def MovesAfter (ledger : Nat) (s : Pair) : Label → Prop
  | .token call => call.Moves → ledger < s.token.sequence
  | _ => True

instance (ledger : Nat) (s : Pair) (label : Label) : Decidable (MovesAfter ledger s label) := by
  cases label <;> unfold MovesAfter <;> infer_instance

/-- A step that does not move tokens before a ledger has passed. -/
def LaterStep (ledger : Nat) (s : Pair) (label : Label) (s' : Pair) : Prop :=
  Step s label s' ∧ MovesAfter ledger s label

/-- The proposal of a ledger is voted on with the balances of that ledger. -/
structure Weighed (ledger id : Nat) (balance : Address → Int) (s : Pair) : Prop where
  sound : Sound s
  onward : ledger ≤ s.token.sequence
  created : ∃ p, s.governance.proposals.lookup id = some p ∧ p.createdAt = ledger
  /-- The checkpoints still give the balances of the creation. -/
  snapshot : ∀ account, s.token.balanceAt account ledger = some (balance account)
  weights : ∀ voter record, s.governance.votes.lookup (id, voter) = some record →
    record.weight = balance voter

section Weights

variable {s s' : Pair} {label : Label} {ledger id : Nat} {balance : Address → Int}

theorem Weighed.governance {auths : List Address} {call : Call} {value : Value} {after : Env}
    (weighed : Weighed ledger id balance s)
    (ran : (perform ⟨auths, client s.token⟩ call).Returns s.governance value after) :
    Weighed ledger id balance { s with governance := after } := by
  have effect := perform_effect ran
  obtain ⟨p, found, at_⟩ := weighed.created
  obtain ⟨p', there, move⟩ := effect.move weighed.sound.governed.numbered found
  refine ⟨(Step.governance ran).sound weighed.sound, weighed.onward,
    ⟨p', there, move.advances.created.trans at_⟩, weighed.snapshot, ?_⟩
  intro voter record recorded
  by_cases voting : ∀ voter id choice, call ≠ .vote voter id choice
  · rw [effect.votes_eq voting] at recorded
    exact weighed.weights voter record recorded
  · push Not at voting
    obtain ⟨other, number, choice, rfl⟩ := voting
    cases effect with
    | @voted _ _ _ q weight auth ready voted active within first power positive =>
      have now := (Finmap.lookup_insert_eq _ _ _ _).symm.trans recorded
      split at now
      · -- The new record's weight was read off the checkpoints at the creation ledger.
        rename_i same
        obtain ⟨rfl, rfl⟩ := same
        obtain rfl : p = q := Option.some.inj (found.symm.trans voted)
        obtain rfl := Option.some.inj now
        have read : s.token.balanceAt voter p.createdAt = some weight := power
        rw [at_, weighed.snapshot] at read
        exact (Option.some.inj read).symm
      · exact weighed.weights voter record now

theorem LaterStep.weighed (step : LaterStep ledger s label s')
    (weighed : Weighed ledger id balance s) : Weighed ledger id balance s' := by
  obtain ⟨step, after⟩ := step
  cases step with
  | @token auths call state ran =>
    have moved := GovernanceToken.Step.called ran
    refine ⟨(Step.token ran).sound weighed.sound,
      Nat.le_trans weighed.onward moved.sequence_le, weighed.created,
      fun account => ?_, weighed.weights⟩
    -- A call that moves tokens comes later and leaves the past.
    have settled : ledger < s.token.sequence ∨
        ∀ other, GovernanceToken.Label.call call = .call other → ¬ other.Moves := by
      by_cases moves : call.Moves
      · exact .inl (after moves)
      · refine .inr fun other same => ?_
        obtain rfl : call = other := by simpa using same
        exact moves
    rw [moved.balanceAt weighed.sound.tracked account settled]
    exact weighed.snapshot account
  | governance ran => exact weighed.governance ran
  | refused => exact weighed
  | closed onward counted later timed =>
    refine ⟨(Step.closed onward counted later timed).sound weighed.sound,
      Nat.le_trans weighed.onward (Nat.le_of_lt onward), weighed.created, fun account => ?_,
      weighed.weights⟩
    exact weighed.snapshot account

theorem weighed_of_created {auths : List Address} {proposer : Address}
    {action : GovernableAction} {after : Env} (sound : Sound s)
    (ran : (createProposal ⟨auths, client s.token⟩ proposer action).Returns s.governance id after) :
    Weighed s.token.sequence id s.token.balance { s with governance := after } := by
  obtain ⟨rfl, effect⟩ := createProposal_effect ran
  have ran' : (perform ⟨auths, client s.token⟩ (.createProposal proposer action)).Returns
      s.governance (.proposalId (s.governance.count + 1)) after :=
    EStateM.returns_map.mpr ⟨_, ran, rfl⟩
  refine ⟨(Step.governance ran').sound sound, Nat.le_refl _, ?_,
    fun account => sound.tracked.balance_now account, fun voter record recorded => ?_⟩
  · cases effect with
    | created => exact ⟨_, (store_lookup _ _ _ _).trans (if_pos rfl), sound.clock⟩
  · -- No vote can be on a proposal that does not exist yet.
    rw [effect.votes_eq (by simp)] at recorded
    obtain ⟨p, found⟩ := sound.governed.attached _ _ _ recorded
    have := sound.governed.numbered _ _ found
    omega

end Weights

theorem cast_total (e : Env) (id : Nat) :
    e.cast id .for_ + e.cast id .against + e.cast id .abstain =
      e.votes.totalBy fun key record => if key.1 = id then record.weight else 0 := by
  -- Every record is counted under exactly one of the three choices.
  unfold Env.cast
  rw [Finmap.totalBy_add, Finmap.totalBy_add]
  congr 1
  funext key record
  cases record with
  | mk choice weight => cases choice <;> by_cases same : key.1 = id <;> simp [same]

/--
Voting power is fixed at the creation of a proposal, in every run in which no tokens move between
the creation and the end of its ledger.

Every recorded vote has the weight of its voter's balance at the creation, so all votes together
never exceed the balances of that moment.
-/
theorem voting_power_fixed {sequence timestamp id : Nat} {labels later : List Label} {s e : Pair}
    {auths : List Address} {proposer : Address} {action : GovernableAction} {after : Env}
    (counted : sequence ≤ u32Max) (before : Trace Step (deployed sequence timestamp) labels s)
    (create : (createProposal ⟨auths, client s.token⟩ proposer action).Returns s.governance id
      after)
    (run : Trace (LaterStep s.token.sequence) { s with governance := after } later e) :
    (∀ voter record, e.governance.votes.lookup (id, voter) = some record →
      record.weight = s.token.balance voter) ∧
    ∀ p, e.governance.proposals.lookup id = some p →
      p.votesFor + p.votesAgainst + p.votesAbstain ≤ s.token.total := by
  have sound : Sound s :=
    before.preserves (fun _ _ _ step => step.sound) (deployed_sound counted)
  have weighed : Weighed s.token.sequence id s.token.balance e :=
    run.preserves (fun _ _ _ step => step.weighed) (weighed_of_created sound create)
  refine ⟨weighed.weights, fun p found => ?_⟩
  -- The tallies are the recorded votes, and each is paid for by its voter's balance.
  have tally (choice : VoteChoice) : p.tally choice = e.governance.cast id choice := by
    rw [weighed.sound.governed.tallied, Env.tallyOf, found, Option.elim_some]
  have sum := cast_total e.governance id
  rw [← tally, ← tally, ← tally] at sum
  have paid := @Finmap.totalBy_le_total _ _ _ _ _ _
    (fun key record => if key.1 = id then record.weight else 0) (fun amount => amount)
    Prod.snd (fun key => key.1 = id) e.governance.votes
    (fun left right here there same => Prod.ext (here.trans there.symm) same)
    s.token.balances
    (fun key value stored => by
      have := sound.held.nonneg key
      simpa [GovernanceToken.Env.balance, stored] using this)
    (fun key record _ other => if_neg other)
    (fun key record recorded here => by
      rw [if_pos here, ← GovernanceToken.balance_eq_weightAt]
      exact weighed.weights key.2 record (here ▸ recorded))
  exact Int.le_trans (Int.le_of_eq sum) paid

/-- One move of a scripted run. -/
inductive Turn where
  | token (auths : List Address) (call : GovernanceToken.Call)
  | governance (auths : List Address) (call : Call)
  | close (sequence timestamp : Nat)

def Turn.label : Turn → Label
  | .token _ entry => .token entry
  | .governance _ entry => .governance entry
  | .close sequence timestamp => .close sequence timestamp

def Turn.next (s : Pair) : Turn → Pair
  | .token auths entry =>
    { s with token := ((GovernanceToken.perform auths entry).commit s.token).2 }
  | .governance auths entry =>
    { s with governance := ((perform ⟨auths, client s.token⟩ entry).commit s.governance).2 }
  | .close sequence timestamp =>
    ⟨{ s.token with sequence, timestamp }, { s.governance with sequence }⟩

/-- The turn is a call that returns, or a ledger that may open. -/
def Turn.Legal (s : Pair) : Turn → Prop
  | .token auths entry => (GovernanceToken.perform auths entry).succeeds s.token = true
  | .governance auths entry =>
    (perform ⟨auths, client s.token⟩ entry).succeeds s.governance = true
  | .close sequence timestamp => s.token.sequence < sequence ∧ sequence ≤ u32Max ∧
    s.token.timestamp ≤ timestamp ∧ timestamp ≤ u64Max

instance (s : Pair) (turn : Turn) : Decidable (turn.Legal s) := by
  cases turn <;> unfold Turn.Legal <;> infer_instance

theorem Turn.Legal.step {s : Pair} {turn : Turn} (legal : turn.Legal s) :
    Step s turn.label (turn.next s) := by
  cases turn with
  | token auths entry =>
    obtain ⟨_, ran⟩ := EStateM.returns_of_succeeds legal
    exact .token ran
  | governance auths entry =>
    obtain ⟨_, ran⟩ := EStateM.returns_of_succeeds legal
    exact .governance ran
  | close sequence timestamp => exact .closed legal.1 legal.2.1 legal.2.2.1 legal.2.2.2

theorem scripted {s : Pair} {script : List Turn}
    (playable : Trace.Playable Turn.next Turn.Legal s script) :
    Trace Step s (script.map Turn.label).reverse (script.foldl Turn.next s) :=
  Trace.of_playable (fun _ _ legal => legal.step) script playable

/-- Both contracts initialized, the supply minted to four addresses. -/
def launch : List Turn :=
  [.token [⟨0⟩] (.initializeToken ⟨0⟩ ⟨1⟩ ⟨2⟩ ⟨3⟩ ⟨4⟩),
    .governance [] (.initializeGovernance ⟨0⟩ ⟨8⟩ ⟨9⟩), .close 7 35]

def launched : Pair := launch.foldl Turn.next (deployed 1 5)

/-- The governance contract after the first proposal was created. -/
def proposed : Env :=
  ((createProposal ⟨[⟨1⟩], client launched.token⟩ ⟨1⟩ .pauseRegistry).commit launched.governance).2

theorem proposed_returns :
    (createProposal ⟨[⟨1⟩], client launched.token⟩ ⟨1⟩ .pauseRegistry).Returns launched.governance
      1 proposed := rfl

def transferThenVote : List Turn :=
  [.close 8 40, .token [⟨1⟩] (.transfer ⟨1⟩ ⟨5⟩ 7), .governance [⟨1⟩] (.vote ⟨1⟩ 1 .for_)]

/-- A transfer in a later ledger leaves the sender its vote, with the balance of the creation. -/
theorem voting_power_fixed_later :
    ∃ record, (transferThenVote.foldl Turn.next
        { launched with governance := proposed }).governance.votes.lookup (1, ⟨1⟩) = some record ∧
      record.weight = launched.token.balance ⟨1⟩ := by
  have before := scripted (show Trace.Playable Turn.next Turn.Legal (deployed 1 5) launch by decide)
  have run : Trace (LaterStep launched.token.sequence)
      { launched with governance := proposed } _ _ :=
    Trace.of_playable (fun s turn (legal : turn.Legal s ∧ MovesAfter _ s turn.label) =>
      ⟨legal.1.step, legal.2⟩) transferThenVote (by decide)
  have fixed := (voting_power_fixed (by decide) before proposed_returns run).1
  exact ⟨_, rfl, fixed ⟨1⟩ _ rfl⟩

/-- Transfers in the ledger of the creation let three voters vote with the same tokens. -/
theorem voting_power_reused :
    ∃ labels later e p, Trace Step (deployed 1 5) labels launched ∧
      (createProposal ⟨[⟨1⟩], client launched.token⟩ ⟨1⟩ .pauseRegistry).Returns
        launched.governance 1 proposed ∧
      Trace Step { launched with governance := proposed } later e ∧
      e.governance.votes.lookup (1, ⟨5⟩) =
        some ⟨.for_, GovernanceToken.allocEarlyKeepers⟩ ∧ launched.token.balance ⟨5⟩ = 0 ∧
      e.governance.proposals.lookup 1 = some p ∧ launched.token.total < p.votesFor := by
  have before := scripted (show Trace.Playable Turn.next Turn.Legal (deployed 1 5) launch by decide)
  -- The same tokens vote three times within the ledger of the proposal.
  have run := scripted (show Trace.Playable Turn.next Turn.Legal
    { launched with governance := proposed }
    [.governance [⟨1⟩] (.vote ⟨1⟩ 1 .for_),
      .token [⟨1⟩] (.transfer ⟨1⟩ ⟨5⟩ GovernanceToken.allocEarlyKeepers),
      .governance [⟨5⟩] (.vote ⟨5⟩ 1 .for_),
      .token [⟨5⟩] (.transfer ⟨5⟩ ⟨6⟩ GovernanceToken.allocEarlyKeepers),
      .governance [⟨6⟩] (.vote ⟨6⟩ 1 .for_)] by decide)
  exact ⟨_, _, _, _, before, proposed_returns, run, rfl, by decide, rfl, by decide⟩

end Pair

end KeeperNetwork.Governance
