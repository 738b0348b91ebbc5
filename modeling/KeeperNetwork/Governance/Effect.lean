import KeeperNetwork.Governance.Contract

/-! What a returning call of the governance contract has done. -/

namespace KeeperNetwork.Governance

open Soroban

/-- The vote is over and its outcome against the quorum in force is known. -/
@[mk_iff]
structure Judged (e : Env) (p : Proposal) (totalVotes quorum : Int) : Prop where
  active : p.status = .active
  ended : p.votingEnd < e.sequence
  counted : p.totalVotes = some totalVotes
  needed : e.quorumThreshold = some quorum

def Env.settle (e : Env) (id : Nat) (p : Proposal) (totalVotes quorum : Int) : Env :=
  (e.emit (judge p id totalVotes quorum).2).store id
    { p with status := (judge p id totalVotes quorum).1 }

def Env.queue (e : Env) (id : Nat) (p : Proposal) : Env :=
  (e.store id { p with status := .queued, eta := e.sequence + e.delay }).emit
    (.proposalQueued id (e.sequence + e.delay))

/-- Everything a returning call can have done. -/
inductive Effect (e : Env) (inv : Invocation) : Call → Env → Prop
  | initialized {admin kprsToken registry : Address} (fresh : e.initialized = false) :
      Effect e inv (.initializeGovernance admin kprsToken registry)
        (Env.emit { e with
          admin := some admin
          kprsToken := some kprsToken
          registry := some registry
          proposalThreshold := some defaultProposalThreshold
          votingPeriod := some defaultVotingPeriod
          timelockDelay := some defaultTimelockDelay
          quorumBps := some defaultQuorumBps
          proposalCount := some 0
          totalSupply := some inv.token.totalSupply
          initialized := true } (.governanceInitialized admin kprsToken registry))
  | created {proposer : Address} {action : GovernableAction} (auth : proposer ∈ inv.auths)
      (ready : e.initialized = true) (rich : e.threshold ≤ inv.token.balance proposer)
      (valid : action.Valid) (room : e.count < u64Max) :
      Effect e inv (.createProposal proposer action)
        (Env.emit { e.store (e.count + 1) (newProposal (e.count + 1) proposer action e.sequence
            (saturatingAdd u32Max e.sequence e.period)) with
          proposalCount := some (e.count + 1) }
          (.proposalCreated (e.count + 1) proposer (saturatingAdd u32Max e.sequence e.period)))
  | voted {voter : Address} {id : Nat} {choice : VoteChoice} {p : Proposal} {weight : Int}
      (auth : voter ∈ inv.auths) (ready : e.initialized = true)
      (found : e.proposals.lookup id = some p) (active : p.status = .active)
      (within : e.sequence ≤ p.votingEnd) (first : e.votes.lookup (id, voter) = none)
      (power : inv.token.balanceAt voter p.createdAt = some weight) (positive : 0 < weight) :
      Effect e inv (.vote voter id choice)
        (Env.emit { e.store id (p.withTally choice (p.tally choice + weight)) with
          votes := e.votes.insert (id, voter) ⟨choice, weight⟩ }
          (.voteCast id voter choice weight))
  | answered {id : Nat} {p : Proposal} (ready : e.initialized = true)
      (found : e.proposals.lookup id = some p) (settled : p.status ≠ .active) :
      Effect e inv (.evaluateProposal id) e
  | evaluated {id : Nat} {p : Proposal} {totalVotes quorum : Int} (ready : e.initialized = true)
      (found : e.proposals.lookup id = some p) (judged : Judged e p totalVotes quorum) :
      Effect e inv (.evaluateProposal id) (e.settle id p totalVotes quorum)
  | queuedBefore {id : Nat} {p : Proposal} (ready : e.initialized = true)
      (found : e.proposals.lookup id = some p) (before : p.status = .queued) :
      Effect e inv (.queueProposal id) e
  | queued {id : Nat} {p : Proposal} (ready : e.initialized = true)
      (found : e.proposals.lookup id = some p) (passed : p.status = .passed)
      (fits : e.sequence + e.delay ≤ u64Max) :
      Effect e inv (.queueProposal id) (e.queue id p)
  /-- An open proposal was settled, passed and was queued. -/
  | settledAndQueued {id : Nat} {p : Proposal} {totalVotes quorum : Int}
      (ready : e.initialized = true) (found : e.proposals.lookup id = some p)
      (judged : Judged e p totalVotes quorum)
      (passed : (judge p id totalVotes quorum).1 = .passed)
      (fits : e.sequence + e.delay ≤ u64Max) :
      Effect e inv (.queueProposal id)
        ((e.settle id p totalVotes quorum).queue id { p with status := .passed })
  | executed {id : Nat} {p : Proposal} (ready : e.initialized = true)
      (found : e.proposals.lookup id = some p) (queued : p.status = .queued)
      (elapsed : p.eta ≤ e.sequence) :
      Effect e inv (.executeProposal id)
        (((e.applyAction p.action).store id { p with status := .executed }).emit
          (.proposalExecuted id))
  | cancelled {caller : Address} {id : Nat} {p : Proposal} {admin : Address}
      (auth : caller ∈ inv.auths) (ready : e.initialized = true)
      (known : e.admin = some admin) (found : e.proposals.lookup id = some p)
      (unexecuted : p.status ≠ .executed) (alive : p.status ≠ .cancelled)
      (allowed : caller = p.proposer ∨ caller = admin) :
      Effect e inv (.cancelProposal caller id)
        ((e.store id { p with status := .cancelled }).emit (.proposalCancelled id caller))

section Inversion

variable {e e' : Env} {inv : Invocation} {id : Nat}

theorem internalGetVotingPower_returns {account : Address} {power : Int} :
    (internalGetVotingPower inv account).Returns e power e' ↔
      (∃ token, e.kprsToken = some token) ∧ power = inv.token.balance account ∧ e' = e := by
  simp [internalGetVotingPower, ← exists_and_right, and_assoc, @and_comm (power = _)]

theorem internalGetVotingPowerAt_returns {account : Address} {ledger : Nat} {power : Int} :
    (internalGetVotingPowerAt inv account ledger).Returns e power e' ↔
      (∃ token, e.kprsToken = some token) ∧ inv.token.balanceAt account ledger = some power ∧
        e' = e := by
  simp [internalGetVotingPowerAt, ← exists_and_right, and_assoc]

/-- A creation that returned stored a new proposal under the next number. -/
theorem createProposal_effect {proposer : Address} {action : GovernableAction}
    (ran : (createProposal inv proposer action).Returns e id e') :
    id = e.count + 1 ∧ Effect e inv (.createProposal proposer action) e' := by
  simp [createProposal, internalValidateAction, internalGetVotingPower_returns] at ran
  obtain ⟨auth, ready, -, rich, valid, ⟨rfl, room⟩, rfl⟩ := ran
  exact ⟨rfl, .created auth ready rich valid room⟩

theorem evaluateProposal_returns {status : ProposalStatus} :
    (evaluateProposal id).Returns e status e' ↔
      e.initialized = true ∧ ∃ p, e.proposals.lookup id = some p ∧
        (p.status ≠ .active ∧ status = p.status ∧ e' = e ∨
          ∃ totalVotes quorum, Judged e p totalVotes quorum ∧
            status = (judge p id totalVotes quorum).1 ∧ e' = e.settle id p totalVotes quorum) := by
  simp only [evaluateProposal, EStateM.returns_bind, EStateM.returns_get, rejectIf_returns,
    okOr_returns, Bool.not_eq_false, and_assoc, exists_and_left, exists_eq_left, exists_const]
  refine and_congr_right fun _ => exists_congr fun p => and_congr_right fun _ => ?_
  -- A settled proposal is reported, and an open one is judged.
  by_cases settled : p.status = .active
  · simp [settled, judged_iff, Env.settle, and_assoc, @and_comm (e' = _)]
  · simp [settled, judged_iff, and_comm]

@[simp] theorem store_lookup (e : Env) (id other : Nat) (p : Proposal) :
    (e.store id p).proposals.lookup other =
      if other = id then some p else e.proposals.lookup other :=
  Finmap.lookup_insert_eq _ _ _ _

theorem settleOpen_effect {stored p : Proposal}
    (found : e.proposals.lookup id = some stored) (ran : (settleOpen id stored).Returns e p e') :
    stored.status ≠ .active ∧ p = stored ∧ e' = e ∨
      ∃ totalVotes quorum, Judged e stored totalVotes quorum ∧
        (judge stored id totalVotes quorum).1 = .passed ∧
        p = { stored with status := .passed } ∧ e' = e.settle id stored totalVotes quorum := by
  unfold settleOpen at ran
  split at ran
  · rename_i active
    simp only [EStateM.returns_bind, EStateM.returns_get, rejectIf_returns, okOr_returns,
      evaluateProposal_returns, not_not] at ran
    obtain ⟨_, _, ⟨-, q, again, judgement⟩, _, _, ⟨won, rfl⟩, _, _, ⟨rfl, rfl⟩, reread, rfl⟩ := ran
    obtain rfl : stored = q := Option.some.inj (found.symm.trans again)
    rcases judgement with ⟨done, -⟩ | ⟨totalVotes, quorum, judged, rfl, rfl⟩
    · exact absurd active done
    · -- What is read back is what the evaluation has just stored.
      rw [Env.settle, store_lookup, if_pos rfl, won, Option.some.injEq] at reread
      exact .inr ⟨totalVotes, quorum, judged, won, reread.symm, rfl⟩
  · rename_i settled
    obtain ⟨rfl, rfl⟩ := EStateM.returns_pure.mp ran
    exact .inl ⟨settled, rfl, rfl⟩

theorem queueProposal_effect {eta : Nat} (ran : (queueProposal id).Returns e eta e') :
    Effect e inv (.queueProposal id) e' := by
  simp only [queueProposal, EStateM.returns_bind, EStateM.returns_get, EStateM.returns_modify,
    EStateM.returns_pure, EStateM.returns_ite, rejectIf_returns, okOr_returns,
    checkedAddNat_eq_some, Bool.not_eq_false, not_not] at ran
  obtain ⟨_, _, ⟨rfl, rfl⟩, _, _, ⟨ready, rfl⟩, _, _, ⟨rfl, rfl⟩, stored, _, ⟨found, rfl⟩, ran⟩ :=
    ran
  -- A proposal that is queued already is reported.
  split at ran
  · rename_i before
    obtain ⟨rfl, rfl⟩ := ran
    exact .queuedBefore ready found before
  · obtain ⟨p, middle, settled, _, _, ⟨passed, rfl⟩, _, _, ⟨rfl, rfl⟩, _, _, ⟨⟨rfl, fits⟩, rfl⟩, _,
      _, rfl, _, _, rfl, rfl, rfl⟩ := ran
    rcases settleOpen_effect found settled with
      ⟨-, rfl, rfl⟩ | ⟨totalVotes, quorum, judged, won, rfl, rfl⟩
    · exact .queued ready found passed fits
    · exact .settledAndQueued ready found judged won fits

theorem perform_effect {call : Call} {value : Value}
    (ran : (perform inv call).Returns e value e') : Effect e inv call e' := by
  cases call <;> obtain ⟨_, inner, -⟩ := EStateM.returns_map.mp ran
  case initializeGovernance =>
    simp [initializeGovernance] at inner
    obtain ⟨fresh, rfl⟩ := inner
    exact .initialized fresh
  case createProposal => exact (createProposal_effect inner).2
  case vote =>
    simp [vote, internalGetVotingPowerAt_returns] at inner
    obtain ⟨auth, ready, p, found, active, within, first, weight, ⟨-, power⟩, positive, -, rfl⟩ :=
      inner
    exact .voted auth ready found active within first power positive
  case evaluateProposal =>
    obtain ⟨ready, p, found, ⟨settled, -, rfl⟩ | ⟨totalVotes, quorum, judged, -, rfl⟩⟩ :=
      evaluateProposal_returns.mp inner
    · exact .answered ready found settled
    · exact .evaluated ready found judged
  case queueProposal => exact queueProposal_effect inner
  case executeProposal =>
    simp [executeProposal] at inner
    obtain ⟨ready, p, found, -, queued, elapsed, rfl⟩ := inner
    exact .executed ready found queued elapsed
  case cancelProposal =>
    simp [cancelProposal] at inner
    obtain ⟨auth, ready, admin, known, p, found, unexecuted, alive, allowed, rfl⟩ := inner
    exact .cancelled auth ready known found unexecuted alive (or_iff_not_imp_left.mpr allowed)

end Inversion

end KeeperNetwork.Governance
