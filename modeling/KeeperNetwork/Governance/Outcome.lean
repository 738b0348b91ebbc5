import KeeperNetwork.Governance.Lifecycle

/-! The outcome of a vote, computed from the quorum in force when somebody asks for it. -/

namespace KeeperNetwork.Governance

open Soroban

/-- The vote is lost: the proposal was defeated, or would be if it were evaluated now. -/
def Lost (e : Env) (id : Nat) (p : Proposal) : Prop :=
  p.status = .defeated ∨
    ∃ totalVotes quorum, Judged e p totalVotes quorum ∧
      (judge p id totalVotes quorum).1 = .defeated

section Readers

variable {e e' : Env} {id : Nat} {p : Proposal}

theorem lost_of_settled (settled : p.status ≠ .active) : Lost e id p ↔ p.status = .defeated := by
  -- A settled proposal is not judged again.
  constructor
  · rintro (defeated | ⟨totalVotes, quorum, judged, -⟩)
    · exact defeated
    · exact absurd judged.active settled
  · exact .inl

theorem Judged.lost_iff {totalVotes quorum : Int} (judged : Judged e p totalVotes quorum) :
    Lost e id p ↔ (judge p id totalVotes quorum).1 = .defeated := by
  constructor
  · rintro (defeated | ⟨otherVotes, otherQuorum, again, lost⟩)
    · exact absurd (judged.active.symm.trans defeated) (by simp)
    · -- Both judgements count the same votes against the same quorum.
      obtain rfl := Option.some.inj (judged.counted.symm.trans again.counted)
      obtain rfl := Option.some.inj (judged.needed.symm.trans again.needed)
      exact lost
  · exact fun lost => .inr ⟨totalVotes, quorum, judged, lost⟩

theorem reports_defeat (found : e.proposals.lookup id = some p) (ended : p.votingEnd < e.sequence) :
    (getProposalStatus id).Returns e .defeated e ↔ Lost e id p := by
  -- The view counts as an evaluation would, against the quorum in force.
  have judged (totalVotes quorum : Int) : (judge p id totalVotes quorum).1 = .defeated ↔
      totalVotes < quorum ∨ p.votesFor ≤ p.votesAgainst := by
    unfold judge
    split_ifs <;> simp [*]
  by_cases active : p.status = .active
  · simp [getProposalStatus, Lost, found, active, ended, judged_iff, judged,
      and_assoc]
  · rw [lost_of_settled active]
    simp [getProposalStatus, found, active, @eq_comm _ ProposalStatus.defeated]

theorem evaluation_stores (found : e.proposals.lookup id = some p)
    (ended : p.votingEnd < e.sequence) {status : ProposalStatus}
    (ran : (evaluateProposal id).Returns e status e') :
    (status = .defeated ↔ (getProposalStatus id).Returns e .defeated e) ∧
      ∃ p', e'.proposals.lookup id = some p' ∧ p'.status = status := by
  rw [reports_defeat found ended]
  obtain ⟨-, q, there, outcome⟩ := evaluateProposal_returns.mp ran
  obtain rfl : p = q := Option.some.inj (found.symm.trans there)
  rcases outcome with ⟨settled, rfl, rfl⟩ | ⟨totalVotes, quorum, judged, rfl, rfl⟩
  · exact ⟨(lost_of_settled settled).symm, p, found, rfl⟩
  · exact ⟨judged.lost_iff.symm, _, (settle_lookup _ _ _ _ _ _).trans (if_pos rfl), rfl⟩

end Readers

/-- The quorum is not changed by the step while the proposal waits for its evaluation. -/
def QuorumKept (id : Nat) (e : Env) (label : Label) : Prop :=
  ∀ other q bps p, label = .call (.executeProposal other) → e.proposals.lookup other = some q →
    q.action = .setQuorumBps bps → e.proposals.lookup id = some p → p.status = .active →
    bps = e.bps

/-- A step that does not change the quorum while the proposal waits for its evaluation. -/
def SteadyStep (id : Nat) (e : Env) (label : Label) (e' : Env) : Prop :=
  Step e label e' ∧ QuorumKept id e label

theorem Effect.quorum {e e' : Env} {inv : Invocation} {call : Call} (effect : Effect e inv call e')
    (ready : e.initialized = true)
    (kept : ∀ other q bps, call = .executeProposal other → e.proposals.lookup other = some q →
      q.action = .setQuorumBps bps → bps = e.bps) : e'.quorumThreshold = e.quorumThreshold := by
  -- The quorum changes only by an execution, since the supply is fixed at the start.
  cases effect with
  | initialized fresh => rw [ready] at fresh; cases fresh
  | @executed _ q _ found =>
    cases action : q.action with
    | setQuorumBps bps =>
      obtain rfl := kept _ q bps rfl found action
      rfl
    | _ => rfl
  | _ => rfl

section Steady

variable {e e' : Env} {id : Nat} {label : Label} {p : Proposal}

theorem Lost.congr (onward : e.sequence ≤ e'.sequence) (ended : p.votingEnd < e.sequence)
    (quorum : p.status = .active → e'.quorumThreshold = e.quorumThreshold) :
    Lost e' id p ↔ Lost e id p := by
  -- Votes are closed, so only the quorum could make a difference.
  refine or_congr_right ⟨?_, ?_⟩
  · rintro ⟨totalVotes, needed, judged, lost⟩
    exact ⟨totalVotes, needed, ⟨judged.active, ended, judged.counted,
      (quorum judged.active).symm.trans judged.needed⟩, lost⟩
  · rintro ⟨totalVotes, needed, judged, lost⟩
    exact ⟨totalVotes, needed, ⟨judged.active, Nat.lt_of_lt_of_le ended onward, judged.counted,
      (quorum judged.active).trans judged.needed⟩, lost⟩

theorem Move.lost {call : Call} {p' : Proposal} (move : Move e id p call p')
    (ended : p.votingEnd < e.sequence) :
    p'.status = .cancelled ∨ p' = p ∨ p'.status ≠ .active ∧ (Lost e' id p' ↔ Lost e id p) := by
  -- Only a settlement or a queueing decides anything, and both decide by the same count.
  cases move with
  | kept => exact .inr (.inl rfl)
  | voted active within => omega
  | @settled totalVotes quorum judged =>
    have closed : (judge p id totalVotes quorum).1 ≠ .active := by
      rcases judge_cases p id totalVotes quorum with passed | defeated <;> simp_all
    refine .inr (.inr ⟨closed, ?_⟩)
    rw [judged.lost_iff]
    exact lost_of_settled closed
  | queued passed =>
    have kept : ¬ Lost e id p := by
      rcases passed with passed | ⟨active, ended, totalVotes, quorum, counted, needed, won⟩
      · simp [lost_of_settled, passed]
      · have judged : Judged e p totalVotes quorum := ⟨active, ended, counted, needed⟩
        simp [judged.lost_iff, judge_passed.mpr won]
    refine .inr (.inr ⟨by simp, ?_⟩)
    rw [lost_of_settled (by simp)]
    simp [kept]
  | executed queued =>
    refine .inr (.inr ⟨by simp, ?_⟩)
    rw [lost_of_settled (by simp), lost_of_settled (by rw [queued]; simp), queued]
    simp
  | cancelled => exact .inl rfl

theorem Move.stays_cancelled {call : Call} {p' : Proposal} (move : Move e id p call p')
    (cancelled : p.status = .cancelled) : p'.status = .cancelled := by
  -- No move starts from a cancelled proposal.
  cases move with
  | kept => exact cancelled
  | voted active => exact absurd (active.symm.trans cancelled) (by simp)
  | settled judged => exact absurd (judged.active.symm.trans cancelled) (by simp)
  | queued passed =>
    rcases passed with passed | ⟨active, -⟩
    · exact absurd (passed.symm.trans cancelled) (by simp)
    · exact absurd (active.symm.trans cancelled) (by simp)
  | executed queued => exact absurd (queued.symm.trans cancelled) (by simp)
  | cancelled => rfl

/-- The proposal's vote is over, and it was cancelled or is as lost as it was. -/
def SameFate (id : Nat) (lost : Prop) (e : Env) : Prop :=
  ∃ p, e.proposals.lookup id = some p ∧ p.votingEnd < e.sequence ∧
    (p.status = .cancelled ∨ (Lost e id p ↔ lost))

theorem SteadyStep.sameFate (step : SteadyStep id e label e') (sound : Sound e) {lost : Prop}
    (fate : SameFate id lost e) : SameFate id lost e' := by
  obtain ⟨p, found, ended, fate⟩ := fate
  obtain ⟨step, kept⟩ := step
  cases step with
  | refused => exact ⟨p, found, ended, fate⟩
  | @closed sequence onward counted =>
    have same : Lost { e with sequence } id p ↔ Lost e id p :=
      Lost.congr (Nat.le_of_lt onward) ended fun _ => rfl
    exact ⟨p, found, Nat.lt_trans ended onward, fate.imp_right same.trans⟩
  | @called _ inv call value ran =>
    have effect := perform_effect ran
    obtain ⟨p', there, move⟩ := effect.move sound.numbered found
    have ends : p'.votingEnd < e'.sequence := by
      rw [move.advances.ends, effect.sequence]
      exact ended
    refine ⟨p', there, ends, ?_⟩
    rcases fate with cancelled | fate
    · exact .inl (move.stays_cancelled cancelled)
    · have lost : p'.status = .cancelled ∨ p' = p ∨
          p'.status ≠ .active ∧ (Lost e' id p' ↔ Lost e id p) := move.lost ended
      rcases lost with cancelled | rfl | ⟨-, same⟩
      · exact .inl cancelled
      · -- The call is about something else and leaves the quorum of an open proposal.
        refine .inr (Iff.trans (Lost.congr (Nat.le_of_eq effect.sequence.symm) ended ?_) fate)
        intro active
        exact effect.quorum (sound.ready found) fun other q bps call there action =>
          kept other q bps p' (by rw [call]) there action found active
      · exact .inr (same.trans fate)

theorem Trace.sameFate {start finish : Env} {labels : List Label} {lost : Prop}
    (run : Trace (SteadyStep id) start labels finish) (sound : Sound start)
    (fate : SameFate id lost start) : SameFate id lost finish := by
  -- The fate relies on the invariant, so both are carried along.
  have both : Sound finish ∧ SameFate id lost finish :=
    @Trace.preserves _ _ _ _ _ _ (fun e => Sound e ∧ SameFate id lost e)
      (fun _ _ _ step held => ⟨step.1.sound held.1, step.sameFate held.1 held.2⟩) run
      ⟨sound, fate⟩
  exact both.2

end Steady

/--
The outcome of a vote is settled at its end, in every run that does not change the quorum while
the proposal waits for its evaluation.

Once the voting period is over, the proposal is reported as defeated at one ledger exactly when it
is at any later one, unless it was cancelled, and an evaluation at either stores that outcome.
-/
theorem outcome_settled {sequence id : Nat} {labels later : List Label} {first second : Env}
    {p q : Proposal} (counted : sequence ≤ u32Max)
    (before : Trace Step (deployed sequence) labels first)
    (run : Trace (SteadyStep id) first later second)
    (found : first.proposals.lookup id = some p) (ended : p.votingEnd < first.sequence)
    (there : second.proposals.lookup id = some q) (uncancelled : q.status ≠ .cancelled) :
    ((getProposalStatus id).Returns first .defeated first ↔
      (getProposalStatus id).Returns second .defeated second) ∧
    (∀ status after, (evaluateProposal id).Returns first status after →
      (status = .defeated ↔ (getProposalStatus id).Returns first .defeated first) ∧
        ∃ p', after.proposals.lookup id = some p' ∧ p'.status = status) ∧
    (∀ status after, (evaluateProposal id).Returns second status after →
      (status = .defeated ↔ (getProposalStatus id).Returns first .defeated first) ∧
        ∃ q', after.proposals.lookup id = some q' ∧ q'.status = status) := by
  obtain ⟨r, again, ends, fate⟩ := Trace.sameFate run (Trace.sound counted before)
    ⟨p, found, ended, .inr Iff.rfl⟩
  obtain rfl : q = r := Option.some.inj (there.symm.trans again)
  -- Along the run the proposal has kept its fate, or was cancelled.
  have same : Lost second id q ↔ Lost first id p := fate.resolve_left uncancelled
  have reported :=
    (reports_defeat found ended).trans (same.symm.trans (reports_defeat there ends).symm)
  refine ⟨reported, fun status after ran => evaluation_stores found ended ran,
    fun status after ran => ?_⟩
  rw [reported]
  exact evaluation_stores there ends ran

def twoHolders : TokenClient where
  totalSupply := 100000000 * oneToken
  balance account :=
    if account = ⟨1⟩ then 95000000 * oneToken
    else if account = ⟨2⟩ then 5000000 * oneToken else 0
  balanceAt account _ := some
    (if account = ⟨1⟩ then 95000000 * oneToken
      else if account = ⟨2⟩ then 5000000 * oneToken else 0)

def byHolders (call : Call) : Turn := .call ⟨[⟨1⟩, ⟨2⟩], twoHolders⟩ call

/-- A proposal that the small holder votes for, and one to raise the quorum, both voted on. -/
def twoVotes : List Turn :=
  [byHolders (.initializeGovernance ⟨0⟩ ⟨8⟩ ⟨9⟩), byHolders (.createProposal ⟨1⟩ .pauseRegistry),
    byHolders (.createProposal ⟨1⟩ (.setQuorumBps 2000)), byHolders (.vote ⟨2⟩ 1 .for_),
    byHolders (.vote ⟨1⟩ 2 .for_), .close 50402, byHolders (.queueProposal 2)]

/-- The state in which the vote on both proposals is over. -/
def afterVotes : Env := twoVotes.foldl Turn.next (deployed 1)

/-- Without a change of the quorum the outcome stays, here while time passes. -/
theorem outcome_settled_waiting :
    (getProposalStatus 1).Returns afterVotes .defeated afterVotes ↔
      (getProposalStatus 1).Returns { afterVotes with sequence := 79202 } .defeated
        { afterVotes with sequence := 79202 } := by
  have before := scripted (show Trace.Playable Turn.next Turn.Legal (deployed 1) twoVotes by decide)
  have run : Trace (SteadyStep 1) afterVotes [.close 79202]
      { afterVotes with sequence := 79202 } :=
    .single ⟨.closed (by decide) (by decide), fun _ _ _ _ call => by cases call⟩
  exact (outcome_settled (by decide) before run rfl (by decide) rfl (by decide)).1

/--
Executing a higher quorum turns a passed vote into a lost one, long after its end.

Nobody had asked for its evaluation, so the outcome is computed from the new quorum.
-/
theorem outcome_flipped :
    ∃ later second p, Trace Step (deployed 1) (twoVotes.map Turn.label).reverse afterVotes ∧
      Trace Step afterVotes later second ∧
      afterVotes.proposals.lookup 1 = some p ∧ p.votingEnd < afterVotes.sequence ∧
      second.proposals.lookup 1 = some p ∧ p.status = .active ∧
      (getProposalStatus 1).Returns afterVotes .passed afterVotes ∧
      (getProposalStatus 1).Returns second .defeated second := by
  -- Between the two reads another proposal raises the quorum.
  have before := scripted (show Trace.Playable Turn.next Turn.Legal (deployed 1) twoVotes by decide)
  have run := scripted (show Trace.Playable Turn.next Turn.Legal afterVotes
    [.close 79202, byHolders (.executeProposal 2)] by decide)
  exact ⟨_, _, _, before, run, rfl, by decide, rfl, by decide, rfl, rfl⟩

end KeeperNetwork.Governance
