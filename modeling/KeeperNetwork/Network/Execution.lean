import KeeperNetwork.Network.System

/-! What executing a proposal does to the parameters of the three contracts. -/

namespace KeeperNetwork.Network

open Soroban Governance

/-- Everything governance may decide about, across the three contracts. -/
@[ext] structure Parameters where
  feeBps : Nat
  minReward : Int
  reputationFloor : Nat
  registryPaused : Bool
  recipients : List Address
  shares : Address → Nat
  treasuryPaused : Bool
  votingPeriod : Nat
  timelockDelay : Nat
  quorumBps : Nat
  proposalThreshold : Int
  registryCode : Option Bytes
  treasuryCode : Option Bytes

def System.parameters (s : System) : Parameters where
  feeBps := KeeperNetwork.feeBps s.registry
  minReward := minRewardFloor s.registry
  reputationFloor := reputationFloorBps s.registry
  registryPaused := s.registry.paused.getD false
  recipients := s.treasury.list
  shares := s.treasury.sharesOf
  treasuryPaused := s.treasury.isPaused
  votingPeriod := s.governance.period
  timelockDelay := s.governance.delay
  quorumBps := s.governance.bps
  proposalThreshold := s.governance.threshold
  registryCode := s.registry.wasm
  treasuryCode := s.treasury.wasm

def Parameters.after (p : Parameters) : GovernableAction → Parameters
  | .setFeeBps bps => { p with feeBps := bps }
  | .setMinReward min => { p with minReward := min }
  | .setReputationFloor floor => { p with reputationFloor := floor }
  | .pauseRegistry => { p with registryPaused := true }
  | .unpauseRegistry => { p with registryPaused := false }
  | .addTreasuryRecipient recipient sharesBps =>
    { p with
      recipients := p.recipients ++ [recipient]
      shares := Function.update p.shares recipient sharesBps }
  | .removeTreasuryRecipient recipient =>
    { p with
      recipients := p.recipients.erase recipient
      shares := Function.update p.shares recipient 0 }
  | .updateTreasuryShares recipient newSharesBps =>
    { p with shares := Function.update p.shares recipient newSharesBps }
  | .pauseTreasury => { p with treasuryPaused := true }
  | .unpauseTreasury => { p with treasuryPaused := false }
  | .setVotingPeriod period => { p with votingPeriod := period }
  | .setTimelockDelay delay => { p with timelockDelay := delay }
  | .setQuorumBps bps => { p with quorumBps := bps }
  | .setProposalThreshold threshold => { p with proposalThreshold := threshold }
  | .upgradeRegistry newWasmHash => { p with registryCode := some newWasmHash }
  | .upgradeTreasury newWasmHash => { p with treasuryCode := some newWasmHash }

/-- Who has to carry an action out, and by which call. -/
inductive Target where
  | registry (call : KeeperNetwork.Call)
  | treasury (call : Treasury.Call)
  | governance

def target (admin : Address) : GovernableAction → Target
  | .setFeeBps bps => .registry (.setFeeBps admin bps)
  | .setMinReward min => .registry (.setMinReward admin min)
  | .setReputationFloor floor => .registry (.setReputationFloor admin floor)
  | .pauseRegistry => .registry (.pause admin)
  | .unpauseRegistry => .registry (.unpause admin)
  | .upgradeRegistry newWasmHash => .registry (.upgrade admin newWasmHash)
  | .addTreasuryRecipient recipient sharesBps =>
    .treasury (.addRecipient admin recipient sharesBps)
  | .removeTreasuryRecipient recipient => .treasury (.removeRecipient admin recipient)
  | .updateTreasuryShares recipient newSharesBps =>
    .treasury (.updateRecipientShares admin recipient newSharesBps)
  | .pauseTreasury => .treasury (.pause admin)
  | .unpauseTreasury => .treasury (.unpause admin)
  | .upgradeTreasury newWasmHash => .treasury (.upgrade admin newWasmHash)
  | .setVotingPeriod _ => .governance
  | .setTimelockDelay _ => .governance
  | .setQuorumBps _ => .governance
  | .setProposalThreshold _ => .governance

/--
The execution that the design describes.

The target is called with the authority of the governance contract, and nothing happens when it
rejects the call.
-/
def System.dispatch (s : System) (action : GovernableAction) : Option System :=
  match target s.governor action with
  | .registry call =>
    match (runCall exactTransfer (signedBy [s.governor] 0) call).run s.registry with
    | .ok _ registry => some { s with registry }
    | .error _ _ => none
  | .treasury call =>
    match (Treasury.perform (signed [s.governor]) call).run s.treasury with
    | .ok _ treasury => some { s with treasury }
    | .error _ _ => none
  | .governance => some { s with governance := s.governance.applyAction action }

def System.Accepts (s : System) (action : GovernableAction) : Prop :=
  (s.dispatch action).isSome = true

instance (s : System) (action : GovernableAction) : Decidable (s.Accepts action) :=
  inferInstanceAs (Decidable (_ = true))

def IsOwn : GovernableAction → Prop
  | .setVotingPeriod _ => True
  | .setTimelockDelay _ => True
  | .setQuorumBps _ => True
  | .setProposalThreshold _ => True
  | _ => False

section Dispatch

variable {s d : System} {action : GovernableAction}

theorem dispatch_registry {call : KeeperNetwork.Call}
    (aimed : target s.governor action = .registry call) (dispatched : s.dispatch action = some d) :
    ∃ value registry, KeeperNetwork.Effect exactTransfer (signedBy [s.governor] 0) s.registry call
      value registry ∧ d = { s with registry } := by
  simp only [System.dispatch, aimed] at dispatched
  split at dispatched
  · rename_i value registry ran
    exact ⟨value, registry, runCall_effect ran, (Option.some.inj dispatched).symm⟩
  · cases dispatched

theorem dispatch_treasury {call : Treasury.Call}
    (aimed : target s.governor action = .treasury call) (dispatched : s.dispatch action = some d) :
    ∃ value treasury, Treasury.Effect s.treasury (signed [s.governor]) call value treasury ∧
      d = { s with treasury } := by
  simp only [System.dispatch, aimed] at dispatched
  split at dispatched
  · rename_i value treasury ran
    exact ⟨value, treasury, Treasury.perform_effect ran, (Option.some.inj dispatched).symm⟩
  · cases dispatched

theorem dispatch_parameters (dispatched : s.dispatch action = some d) :
    d.parameters = s.parameters.after action := by
  -- Every target's entry point sets the parameter that the action names, and no other.
  cases action with
  | setFeeBps | setMinReward | setReputationFloor | pauseRegistry | unpauseRegistry
  | upgradeRegistry =>
    obtain ⟨_, _, effect, rfl⟩ := dispatch_registry rfl dispatched
    cases effect
    rfl
  | pauseTreasury | unpauseTreasury | upgradeTreasury =>
    obtain ⟨_, _, effect, rfl⟩ := dispatch_treasury rfl dispatched
    cases effect
    rfl
  | addTreasuryRecipient | removeTreasuryRecipient | updateTreasuryShares =>
    obtain ⟨_, _, effect, rfl⟩ := dispatch_treasury rfl dispatched
    cases effect
    exact Parameters.ext rfl rfl rfl rfl rfl (Treasury.sharesOf_written rfl) rfl rfl rfl rfl rfl
      rfl rfl
  | setVotingPeriod | setTimelockDelay | setQuorumBps | setProposalThreshold =>
    obtain rfl := Option.some.inj dispatched
    rfl

theorem IsOwn.accepted (own : IsOwn action) : s.Accepts action := by
  cases action <;> first | rfl | exact own.elim

end Dispatch

section Execution

variable {s s' : System} {id : Nat} {p : Proposal}

theorem executed_parameters (found : s.governance.proposals.lookup id = some p)
    (executed : Step s (.governance (.executeProposal id)) s') :
    s'.parameters =
      { s with governance := s.governance.applyAction p.action : System }.parameters := by
  cases executed with
  | governance ran =>
    have effect := Governance.perform_effect ran
    cases effect with
    | executed ready there queued elapsed =>
      obtain rfl := Option.some.inj (there.symm.trans found)
      rfl

theorem IsOwn.applied {action : GovernableAction} (own : IsOwn action) :
    { s with governance := s.governance.applyAction action : System }.parameters =
      s.parameters.after action := by
  cases action <;> first | rfl | exact own.elim

theorem not_isOwn_applied {action : GovernableAction} (other : ¬ IsOwn action) :
    s.governance.applyAction action = s.governance := by
  cases action <;> first | rfl | exact absurd trivial other

end Execution

/--
An execution that returns applies its action only if the action is the contract's own business.

The contract calls neither the registry nor the treasury. A proposal about them is executed
without effect, whether or not its target would accept the call, so it is applied only when it
changes nothing.
-/
theorem execution_applied {s s' : System} {id : Nat} {p : Proposal}
    (found : s.governance.proposals.lookup id = some p)
    (executed : Step s (.governance (.executeProposal id)) s') :
    s'.parameters = s.parameters.after p.action ∧ s.Accepts p.action ↔
      IsOwn p.action ∨ s.parameters.after p.action = s.parameters ∧ s.Accepts p.action := by
  have same := executed_parameters found executed
  by_cases own : IsOwn p.action
  · exact ⟨fun _ => .inl own, fun _ => ⟨same.trans own.applied, own.accepted⟩⟩
  · rw [not_isOwn_applied own] at same
    rw [same]
    constructor
    · rintro ⟨applied, accepted⟩
      exact .inr ⟨applied.symm, accepted⟩
    · rintro (ours | ⟨unchanged, accepted⟩)
      · exact absurd ours own
      · exact ⟨unchanged.symm, accepted⟩

/-- A registry and a treasury that the governance contract administers, and a queued proposal. -/
def queued (action : GovernableAction) : List Turn :=
  [.registry [⟨5⟩] (.initializeRegistry ⟨5⟩ ⟨8⟩ 300),
    .treasury [⟨5⟩] (.initializeTreasury ⟨5⟩ ⟨8⟩) none,
    .governance ⟨[⟨1⟩], Governance.heldBy ⟨1⟩⟩ (.initializeGovernance ⟨0⟩ ⟨6⟩ ⟨7⟩),
    .governance ⟨[⟨1⟩], Governance.heldBy ⟨1⟩⟩ (.createProposal ⟨1⟩ action),
    .governance ⟨[⟨1⟩], Governance.heldBy ⟨1⟩⟩ (.vote ⟨1⟩ 1 .for_),
    .close 50402 252010,
    .governance ⟨[⟨1⟩], Governance.heldBy ⟨1⟩⟩ (.queueProposal 1),
    .close 79202 396010]

/-- The three contracts without any tokens. -/
def penniless : System :=
  launch ⟨5⟩ ⟨7⟩ ⟨9⟩ .zero 1 5

def execution : Turn := .governance ⟨[⟨1⟩], Governance.heldBy ⟨1⟩⟩ (.executeProposal 1)

/-- A proposal to change the fee is executed, and the fee is what it was. -/
theorem fee_proposal_ignored :
    let s := (queued (.setFeeBps 500)).foldl Turn.next penniless
    Trace Step penniless ((queued (.setFeeBps 500)).map Turn.label).reverse s ∧
    Step s (.governance (.executeProposal 1)) (execution.next s) ∧
    s.registry.admin = some s.governor ∧ s.Accepts (.setFeeBps 500) ∧
    (execution.next s).parameters.feeBps = 300 ∧
    ((execution.next s).governance.proposals.lookup 1).map Proposal.status =
      some .executed := by
  refine ⟨scripted (by decide), (show execution.Legal _ by decide).step, by decide, by decide,
    by decide, by decide⟩

/-- A proposal to change the voting period is executed and applied. -/
theorem execution_applied_period :
    let s := (queued (.setVotingPeriod 20000)).foldl Turn.next penniless
    (execution.next s).parameters.votingPeriod = 20000 ∧
    (execution.next s).parameters = s.parameters.after (.setVotingPeriod 20000) := by
  have executed : Step ((queued (.setVotingPeriod 20000)).foldl Turn.next penniless)
      (.governance (.executeProposal 1))
      (execution.next ((queued (.setVotingPeriod 20000)).foldl Turn.next penniless)) :=
    (show execution.Legal _ by decide).step
  obtain ⟨p, found, proposed⟩ : ∃ p, ((queued (.setVotingPeriod 20000)).foldl Turn.next
      penniless).governance.proposals.lookup 1 = some p ∧ p.action = .setVotingPeriod 20000 :=
    ⟨_, rfl, rfl⟩
  have applied := (execution_applied found executed).mpr (.inl (by rw [proposed]; trivial))
  rw [proposed] at applied
  exact ⟨by decide, applied.1⟩

end KeeperNetwork.Network
