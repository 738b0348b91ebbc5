import KeeperNetwork.Governance.Effect

/-! What a step can do to a proposal and its votes, and the invariants every run keeps. -/

namespace KeeperNetwork.Governance

open Soroban

/-- The proposal has won its vote: the quorum is met and more voted for it than against it. -/
def Carries (e : Env) (p : Proposal) : Prop :=
  ∃ totalVotes quorum, p.totalVotes = some totalVotes ∧ e.quorumThreshold = some quorum ∧
    quorum ≤ totalVotes ∧ p.votesAgainst < p.votesFor

theorem judge_passed {p : Proposal} {id : Nat} {totalVotes quorum : Int} :
    (judge p id totalVotes quorum).1 = .passed ↔
      quorum ≤ totalVotes ∧ p.votesAgainst < p.votesFor := by
  unfold judge
  split_ifs <;> simp <;> omega

theorem judge_cases (p : Proposal) (id : Nat) (totalVotes quorum : Int) :
    (judge p id totalVotes quorum).1 = .passed ∨ (judge p id totalVotes quorum).1 = .defeated := by
  unfold judge
  split_ifs <;> simp

theorem Judged.carries {e : Env} {p : Proposal} {id : Nat} {totalVotes quorum : Int}
    (judged : Judged e p totalVotes quorum)
    (passed : (judge p id totalVotes quorum).1 = .passed) : Carries e p :=
  ⟨totalVotes, quorum, judged.counted, judged.needed, (judge_passed.mp passed).1,
    (judge_passed.mp passed).2⟩

/-- What a returning call can do to a stored proposal. -/
inductive Move (e : Env) (id : Nat) (p : Proposal) : Call → Proposal → Prop
  /-- The proposal is left alone. -/
  | kept {call : Call} (other : call ≠ .executeProposal id) : Move e id p call p
  | voted {voter : Address} {choice : VoteChoice} {weight : Int} (active : p.status = .active)
      (within : e.sequence ≤ p.votingEnd) (positive : 0 < weight) :
      Move e id p (.vote voter id choice) (p.withTally choice (p.tally choice + weight))
  | settled {totalVotes quorum : Int} (judged : Judged e p totalVotes quorum) :
      Move e id p (.evaluateProposal id) { p with status := (judge p id totalVotes quorum).1 }
  /-- It is queued, settled before or in the same call. -/
  | queued (passed : p.status = .passed ∨
        p.status = .active ∧ p.votingEnd < e.sequence ∧ Carries e p) :
      Move e id p (.queueProposal id)
        { p with status := .queued, eta := e.sequence + e.delay }
  | executed (queued : p.status = .queued) (elapsed : p.eta ≤ e.sequence) :
      Move e id p (.executeProposal id) { p with status := .executed }
  | cancelled {caller : Address} (unexecuted : p.status ≠ .executed)
      (alive : p.status ≠ .cancelled) :
      Move e id p (.cancelProposal caller id) { p with status := .cancelled }

@[simp] theorem emit_proposals (e : Env) (event : Event) :
    (e.emit event).proposals = e.proposals := rfl

@[simp] theorem emit_votes (e : Env) (event : Event) : (e.emit event).votes = e.votes := rfl

@[simp] theorem store_votes (e : Env) (id : Nat) (p : Proposal) :
    (e.store id p).votes = e.votes := rfl

@[simp] theorem applyAction_proposals (e : Env) (action : GovernableAction) :
    (e.applyAction action).proposals = e.proposals := by
  cases action <;> rfl

@[simp] theorem applyAction_votes (e : Env) (action : GovernableAction) :
    (e.applyAction action).votes = e.votes := by
  cases action <;> rfl

@[simp] theorem queue_lookup (e : Env) (id other : Nat) (p : Proposal) :
    (e.queue id p).proposals.lookup other =
      if other = id then some { p with status := .queued, eta := e.sequence + e.delay }
      else e.proposals.lookup other := store_lookup _ _ _ _

@[simp] theorem settle_lookup (e : Env) (id other : Nat) (p : Proposal) (totalVotes quorum : Int) :
    (e.settle id p totalVotes quorum).proposals.lookup other =
      if other = id then some { p with status := (judge p id totalVotes quorum).1 }
      else e.proposals.lookup other := store_lookup _ _ _ _

section Effects

variable {e e' : Env} {inv : Invocation} {call : Call} {id other : Nat} {p q moved : Proposal}

theorem Move.of_write (found : e.proposals.lookup id = some p)
    (there : e.proposals.lookup other = some q)
    (written : e'.proposals.lookup id = if id = other then some moved else e.proposals.lookup id)
    (unexecuted : id ≠ other → call ≠ .executeProposal id) (move : Move e other q call moved) :
    ∃ p', e'.proposals.lookup id = some p' ∧ Move e id p call p' := by
  by_cases same : id = other
  · subst same
    obtain rfl : p = q := Option.some.inj (found.symm.trans there)
    exact ⟨moved, written.trans (if_pos rfl), move⟩
  · exact ⟨p, written.trans ((if_neg same).trans found), .kept (unexecuted same)⟩

theorem Effect.move (effect : Effect e inv call e')
    (numbered : ∀ id p, e.proposals.lookup id = some p → id ≤ e.count)
    (found : e.proposals.lookup id = some p) :
    ∃ p', e'.proposals.lookup id = some p' ∧ Move e id p call p' := by
  cases effect with
  | initialized | answered | queuedBefore => exact ⟨p, found, .kept (by simp)⟩
  | created =>
    -- The new number is one that no stored proposal has.
    have older : id ≠ e.count + 1 := by
      have := numbered id p found
      omega
    exact ⟨p, (store_lookup _ _ _ _).trans ((if_neg older).trans found), .kept (by simp)⟩
  | voted _ _ there active within _ _ positive =>
    exact Move.of_write found there (store_lookup _ _ _ _) (by simp) (.voted active within positive)
  | evaluated _ there judged =>
    exact Move.of_write found there (settle_lookup _ _ _ _ _ _) (by simp) (.settled judged)
  | queued _ there passed =>
    exact Move.of_write found there (queue_lookup _ _ _ _) (by simp) (.queued (.inl passed))
  | settledAndQueued _ there judged passed =>
    refine Move.of_write found there ((queue_lookup _ _ _ _).trans ?_) (by simp)
      (.queued (.inr ⟨judged.active, judged.ended, judged.carries passed⟩))
    -- Settling wrote the same proposal, which is queued over it.
    rw [settle_lookup]
    split <;> rfl
  | executed _ there queued elapsed =>
    exact Move.of_write found there (by simp) (by simpa using Ne.symm) (.executed queued elapsed)
  | cancelled _ _ _ there unexecuted alive =>
    exact Move.of_write found there (store_lookup _ _ _ _) (by simp) (.cancelled unexecuted alive)

/-- A new proposal is one that a creation stored under the next number. -/
theorem Effect.created_of_new (effect : Effect e inv call e')
    (absent : e.proposals.lookup id = none) (found : e'.proposals.lookup id = some p) :
    id = e.count + 1 ∧ ∃ proposer action, action.Valid ∧
      call = .createProposal proposer action ∧ p = newProposal id proposer action e.sequence
        (saturatingAdd u32Max e.sequence e.period) := by
  -- Every other call stores only under a number it has found, which is not this one.
  have apart {other : Nat} {q : Proposal} (there : e.proposals.lookup other = some q) :
      id ≠ other := by
    rintro rfl
    rw [absent] at there
    cases there
  cases effect with
  | initialized | answered | queuedBefore => exact absurd (absent.symm.trans found) (by simp)
  | created auth ready rich valid room =>
    have now := (store_lookup _ _ _ _).symm.trans found
    split at now
    · rename_i same
      subst same
      exact ⟨rfl, _, _, valid, rfl, (Option.some.inj now).symm⟩
    · rw [absent] at now
      cases now
  | voted auth ready there =>
    have now := (store_lookup _ _ _ _).symm.trans found
    rw [if_neg (apart there), absent] at now
    cases now
  | evaluated _ there | queued _ there | settledAndQueued _ there | executed _ there
  | cancelled _ _ _ there => simp [apart there, absent] at found

end Effects

end KeeperNetwork.Governance
