import KeeperNetwork.Governance.Lifecycle
import KeeperNetwork.Proofs.Runs
import KeeperNetwork.Treasury.Conservation

/-! The governance contract, the registry and the treasury on one ledger, with one reward token. -/

namespace KeeperNetwork

open Soroban

/-- The registry after token balances changed without it. -/
def Env.received (e : Env) (balances : Balances) : Env :=
  { e with
    balances
    history := .outside (balances.of e.self - e.balances.of e.self) :: e.history }

namespace Network

/-- The three contracts. -/
structure System where
  governor : Address
  governance : Governance.Env
  registry : Env
  treasury : Treasury.Env

/-- What can happen to the three contracts. -/
inductive Label where
  | governance (call : Governance.Call)
  | registry (call : Call)
  | treasury (call : Treasury.Call) (value : Treasury.Value)
  | refused
  | outside
  | close (sequence timestamp : Nat)

/--
One thing that happens to the three contracts.

The registry and the treasury sign no call, and each runs its code until it is upgraded.
A transfer that one of them makes is seen by the other.
-/
inductive Step (s : System) : Label → System → Prop
  /-- A call of the governance contract writes its own storage and nothing else. -/
  | governance {inv : Governance.Invocation} {call : Governance.Call} {value : Governance.Value}
      {after : Governance.Env}
      (ran : (Governance.perform inv call).Returns s.governance value after) :
      Step s (.governance call) { s with governance := after }
  | registry {token : Token} {inv : Invocation} {call : Call} {value : Value} {after : Env}
      (exact : ExactToken token) (unsigned : s.registry.self ∉ inv.auths)
      (apart : s.treasury.self ∉ inv.auths) (running : s.registry.wasm = none)
      (ran : invoke token inv call s.registry = (.ok value, after)) :
      Step s (.registry call) { s with
        registry := after
        treasury := { s.treasury with balances := after.balances } }
  | treasury {inv : Treasury.Invocation} {call : Treasury.Call} {value : Treasury.Value}
      {after : Treasury.Env} (unsigned : s.registry.self ∉ inv.auths)
      (apart : s.treasury.self ∉ inv.auths) (running : s.treasury.wasm = none)
      (ran : (Treasury.perform inv call).Returns s.treasury value after) :
      Step s (.treasury call value) { s with
        treasury := after
        registry := s.registry.received after.balances }
  | refused : Step s .refused s
  /-- Others move tokens, of which the two contracts can only gain. -/
  | outside {balances : Balances}
      (gained : s.registry.balances.of s.registry.self ≤ balances.of s.registry.self)
      (earned : s.treasury.balances.of s.treasury.self ≤ balances.of s.treasury.self) :
      Step s .outside { s with
        registry := s.registry.received balances
        treasury := { s.treasury with balances } }
  | closed {sequence timestamp : Nat} (onward : s.registry.sequence < sequence)
      (counted : sequence ≤ u32Max) (later : s.registry.timestamp ≤ timestamp)
      (timed : timestamp ≤ u64Max) :
      Step s (.close sequence timestamp) { s with
        governance := { s.governance with sequence }
        registry := { s.registry with sequence, timestamp } }

/-- The three contracts just deployed. -/
def launch (governor registry treasury : Address) (balances : Balances)
    (sequence timestamp : Nat) : System where
  governor
  governance := Governance.deployed sequence
  registry := KeeperNetwork.deployed registry balances sequence timestamp
  treasury := Treasury.deployed treasury balances

/-- The contracts have one token, one clock and addresses of their own. -/
structure Sound (s : System) : Prop where
  token : s.treasury.balances = s.registry.balances
  clock : s.governance.sequence = s.registry.sequence
  apart : s.treasury.self ≠ s.registry.self

section Gains

variable {token : Token} {inv : Invocation} {pre paid e e' : Env} {holder src dst : Address}
  {amount : Int} {call : Call} {value : Value}

theorem moved_gains {before after : Balances} (moved : before.move src dst amount = some after)
    (apart : holder ≠ src) : before.of holder ≤ after.of holder := by
  obtain ⟨nonneg, -, written⟩ := Balances.move_eq_some moved
  rw [written, Balances.moved, if_neg apart]
  split <;> omega

theorem exact_gains (exact : ExactToken token) (moved : (token src dst amount).Returns pre () paid)
    (apart : holder ≠ src) : pre.balances.of holder ≤ paid.balances.of holder := by
  obtain ⟨balances, done, rfl⟩ := exact.moves moved
  exact moved_gains done apart

theorem registered_gains {owner : Address} {entries : List BatchTaskParams} {taskIds : List Nat}
    (exact : ExactToken token) (registered : Registered token inv owner entries e taskIds e')
    (apart : holder ≠ owner) : e.balances.of holder ≤ e'.balances.of holder := by
  induction registered with
  | done => exact le_rfl
  | next escrowed _ _ ih => exact (exact_gains exact escrowed apart).trans ih

theorem effect_gains (exact : ExactToken token) (effect : Effect token inv e call value e')
    (unsigned : holder ∉ inv.auths) (apart : holder ≠ e.self) :
    e.balances.of holder ≤ e'.balances.of holder := by
  have other : ∀ signer ∈ inv.auths, holder ≠ signer :=
    fun signer signed same => unsigned (same ▸ signed)
  -- Deposits come from whoever signed the call, and payouts from the registry.
  cases effect with
  | registerTask permitted _ _ moved _ | increaseReward permitted _ _ _ _ _ moved _
  | stakeDeposit _ permitted _ _ _ moved | upholdSlashAppeal permitted _ _ _ _ moved =>
    simpa using exact_gains exact moved (other _ permitted.2)
  | batchRegisterTasks permitted _ _ _ _ _ _ _ registered =>
    simpa using registered_gains exact registered (other _ permitted.2)
  | sweepFees _ _ _ _ moved | cancelTask _ _ _ _ _ _ moved | expireTask _ _ _ _ moved
  | withdrawRewards _ _ _ _ _ _ _ moved | withdrawStake _ _ _ _ _ moved
  | slashStake _ _ _ _ _ _ _ _ moved | slashUnbond _ _ _ _ _ _ _ _ _ moved =>
    simpa using exact_gains exact moved apart
  | _ => simp

theorem treasury_gains {inv : Treasury.Invocation} {e e' : Treasury.Env}
    {call : Treasury.Call} {value : Treasury.Value} (effect : Treasury.Effect e inv call value e')
    (unsigned : holder ∉ inv.auths) (apart : holder ≠ e.self) :
    e.balances.of holder ≤ e'.balances.of holder := by
  cases effect with
  | @distributed caller _ _ _ _ _ _ _ auth _ _ _ credits paid =>
    rcases paid with ⟨-, rfl⟩ | ⟨balances, moved, rfl⟩
    · exact (congrArg (fun b : Balances => b.of holder) credits.setup.balances).ge
    · exact moved_gains moved fun same => unsigned (same ▸ auth)
  | withdrawn auth positive moved => exact moved_gains moved apart
  | _ => exact le_rfl

end Gains

section Steps

variable {s s' : System} {label : Label}

theorem closes (e : Env) (passed timestamp : Nat) (counted : e.sequence + passed + 1 ≤ u32Max)
    (later : e.timestamp ≤ timestamp) (timed : timestamp ≤ u64Max) :
    ExactRun e { e with sequence := e.sequence + passed + 1, timestamp } := by
  -- Ledgers close one by one, the first of them at the final timestamp.
  induction passed with
  | zero => exact .single (.close timestamp e (by omega) later timed)
  | succ passed ih =>
    have before := ih (by omega)
    exact before.tail (.close timestamp _ (by simpa using by omega) le_rfl timed)

theorem Step.registry_run (step : Step s label s') (sound : Sound s) :
    ExactRun s.registry s'.registry := by
  cases step with
  | governance => exact .refl
  | @registry token inv call value after exact unsigned apart running ran =>
    have called : ExactStep s.registry (invoke token inv call s.registry).2 :=
      .call token inv call s.registry exact unsigned running
    rw [ran] at called
    exact .single called
  | @treasury inv call value after unsigned apart running ran =>
    have gained := treasury_gains (Treasury.perform_effect ran) unsigned sound.apart.symm
    rw [sound.token] at gained
    exact .single (.outside after.balances s.registry gained)
  | refused => exact .refl
  | outside gained earned => exact .single (.outside _ s.registry gained)
  | @closed sequence timestamp onward counted later timed =>
    have run := closes s.registry (sequence - s.registry.sequence - 1) timestamp (by omega) later
      timed
    rwa [show s.registry.sequence + (sequence - s.registry.sequence - 1) + 1 = sequence by omega]
      at run

theorem Step.treasury_run (step : Step s label s') (sound : Sound s) :
    ∃ labels, Trace Treasury.Step s.treasury labels s'.treasury := by
  cases step with
  | governance => exact ⟨[], .nil⟩
  | @registry token inv call value after exact unsigned apart running ran =>
    -- What the registry pays the treasury is sent to it from outside.
    obtain ⟨finish, effect, rfl⟩ := invoke_ok ran
    have gained := effect_gains exact effect apart sound.apart
    rw [← sound.token] at gained
    refine ⟨_, .single (.received (Int.sub_nonneg_of_le gained) ?_)⟩
    exact (add_sub_cancel _ _).symm
  | treasury unsigned apart running ran => exact ⟨_, .single (.called running apart ran)⟩
  | refused => exact ⟨[], .nil⟩
  | outside gained earned =>
    refine ⟨_, .single (.received (Int.sub_nonneg_of_le earned) ?_)⟩
    exact (add_sub_cancel _ _).symm
  | closed => exact ⟨[], .nil⟩

theorem Step.governance_run (step : Step s label s') (sound : Sound s) :
    ∃ labels, Trace Governance.Step s.governance labels s'.governance := by
  cases step with
  | governance ran => exact ⟨_, .single (.called ran)⟩
  | closed onward counted later timed =>
    exact ⟨_, .single (.closed (sound.clock.symm ▸ onward) counted)⟩
  | _ => exact ⟨[], .nil⟩

/-- Every step keeps the contracts on one token and one clock. -/
theorem Step.sound (step : Step s label s') (sound : Sound s) : Sound s' := by
  cases step with
  | governance ran =>
    exact ⟨sound.token, (Governance.perform_effect ran).sequence.trans sound.clock, sound.apart⟩
  | @registry token inv call value after exact unsigned apart running ran =>
    obtain ⟨finish, effect, rfl⟩ := invoke_ok ran
    have self : finish.self = s.registry.self := (effect.steady exact.steady unsigned).self
    refine ⟨rfl, sound.clock.trans (effect.clock exact).1.symm, ?_⟩
    show s.treasury.self ≠ finish.self
    rw [self]
    exact sound.apart
  | treasury unsigned apart running ran =>
    refine ⟨rfl, sound.clock, ?_⟩
    rw [(Treasury.perform_effect ran).self]
    exact sound.apart
  | refused => exact sound
  | outside => exact ⟨rfl, sound.clock, sound.apart⟩
  | closed => exact ⟨sound.token, rfl, sound.apart⟩

end Steps

section Runs

variable {governor registry treasury : Address} {balances : Balances} {sequence timestamp : Nat}
  {s s' : System} {labels : List Label}

theorem launch_sound (apart : treasury ≠ registry) :
    Sound (launch governor registry treasury balances sequence timestamp) := ⟨rfl, rfl, apart⟩

theorem Trace.sound (run : Trace Step s labels s') (sound : Sound s) : Sound s' :=
  run.preserves (fun _ _ _ step => step.sound) sound

theorem Trace.projects (run : Trace Step s labels s') (sound : Sound s) :
    (∃ seen, Trace Governance.Step s.governance seen s'.governance) ∧
      ExactRun s.registry s'.registry ∧
      ∃ seen, Trace Treasury.Step s.treasury seen s'.treasury := by
  -- The runs of the single steps are put together, each along its own contract.
  induction run with
  | nil => exact ⟨⟨[], .nil⟩, .refl, [], .nil⟩
  | snoc before last ih =>
    have here := Trace.sound before sound
    obtain ⟨⟨_, governed⟩, registered, _, treasured⟩ := ih
    obtain ⟨_, governance⟩ := last.governance_run here
    obtain ⟨_, treasury⟩ := last.treasury_run here
    exact ⟨⟨_, governed.append governance⟩, registered.trans (last.registry_run here), _,
      treasured.append treasury⟩

end Runs

section Script

/-- One turn of a scripted run. -/
inductive Turn where
  | governance (inv : Governance.Invocation) (call : Governance.Call)
  | registry (auths : List Address) (call : Call)
  | treasury (auths : List Address) (call : Treasury.Call) (value : Treasury.Value)
  | close (sequence timestamp : Nat)

def Turn.label : Turn → Label
  | .governance _ entry => .governance entry
  | .registry _ entry => .registry entry
  | .treasury _ entry value => .treasury entry value
  | .close sequence timestamp => .close sequence timestamp

/-- A treasury call with signatures, and a token that permits every transfer. -/
def signed (auths : List Address) : Treasury.Invocation := ⟨auths, fun _ _ _ => true⟩

def Turn.next (s : System) : Turn → System
  | .governance inv entry =>
    { s with governance := ((Governance.perform inv entry).commit s.governance).2 }
  | .registry auths entry =>
    let after := (invoke exactTransfer (signedBy auths 1000) entry s.registry).2
    { s with registry := after, treasury := { s.treasury with balances := after.balances } }
  | .treasury auths entry _ =>
    let after := ((Treasury.perform (signed auths) entry).commit s.treasury).2
    { s with treasury := after, registry := s.registry.received after.balances }
  | .close sequence timestamp =>
    { s with
      governance := { s.governance with sequence }
      registry := { s.registry with sequence, timestamp } }

/-- The turn is a call that returns, or a ledger that may open. -/
def Turn.Legal (s : System) : Turn → Prop
  | .governance inv entry => (Governance.perform inv entry).succeeds s.governance = true
  | .registry auths entry =>
    s.registry.self ∉ auths ∧ s.treasury.self ∉ auths ∧ s.registry.wasm = none ∧
      (recordedCall exactTransfer (signedBy auths 1000) entry).succeeds s.registry = true
  | .treasury auths entry value =>
    s.registry.self ∉ auths ∧ s.treasury.self ∉ auths ∧ s.treasury.wasm = none ∧
      (Treasury.perform (signed auths) entry).answer s.treasury = some value
  | .close sequence timestamp =>
    s.registry.sequence < sequence ∧ sequence ≤ u32Max ∧ s.registry.timestamp ≤ timestamp ∧
      timestamp ≤ u64Max

instance (s : System) (turn : Turn) : Decidable (turn.Legal s) := by
  cases turn <;> unfold Turn.Legal <;> infer_instance

theorem Turn.Legal.step {s : System} {turn : Turn} (legal : turn.Legal s) :
    Step s turn.label (turn.next s) := by
  cases turn with
  | governance inv entry =>
    obtain ⟨_, ran⟩ := EStateM.returns_of_succeeds legal
    exact .governance ran
  | registry auths entry =>
    obtain ⟨unsigned, apart, running, succeeds⟩ := legal
    obtain ⟨value, ran⟩ := EStateM.returns_of_succeeds succeeds
    exact @Step.registry s exactTransfer (signedBy auths 1000) entry value _ exactTransfer_exact
      unsigned apart running (EStateM.commit_eq_ok.mpr ran)
  | treasury auths entry value =>
    obtain ⟨unsigned, apart, running, answers⟩ := legal
    exact @Step.treasury s (signed auths) entry value _ unsigned apart running
      (EStateM.returns_of_answer answers)
  | close sequence timestamp => exact .closed legal.1 legal.2.1 legal.2.2.1 legal.2.2.2

theorem scripted {s : System} {script : List Turn}
    (playable : Trace.Playable Turn.next Turn.Legal s script) :
    Trace Step s (script.map Turn.label).reverse (script.foldl Turn.next s) :=
  Trace.of_playable (fun _ _ legal => legal.step) script playable

end Script

end Network

end KeeperNetwork
