import KeeperNetwork.Registry.InternalLaws
import KeeperNetwork.Registry.Invoke

/-! How a registry comes to be, deployed blank and initialized once, and scripted runs of it. -/

namespace KeeperNetwork

open Soroban

def heldBy (holder : Address) (amount : Int) (nonneg : 0 ≤ amount) (fits : amount ≤ i128Max) :
    Balances where
  of other := if other = holder then amount else 0
  nonneg other := by split <;> omega
  fits other := by
    have := i128_signs
    split <;> omega

/-- A hundred tokens in one hand, with which most scripted runs start. -/
def hundredOf (holder : Address) : Balances := heldBy holder 100 (by decide) (by decide)

def deployed (self : Address) (balances : Balances) (sequence timestamp : Nat) : Env :=
  { self, sequence, timestamp, balances
    admin := none
    rewardToken := none
    feeBps := none
    paused := none
    taskCounter := none
    feesAccrued := none
    minReward := none
    minStake := none
    slashCounter := none
    disputeWindowLedgers := none
    reputationFloor := none
    instanceLiveUntil := sequence
    tasks := ∅
    keeperReward := ∅
    keeperStake := ∅
    unbondRequest := ∅
    slashes := ∅
    pendingReward := ∅
    slashHistory := ∅
    reputation := ∅
    liveUntil := fun _ => none
    events := []
    wasm := none
    history := [] }

/-- A registry that was just initialized. -/
def genesis (self admin rewardToken : Address) (bps : Nat) (balances : Balances)
    (sequence timestamp : Nat) : Env :=
  Env.emit (Env.bump { deployed self balances sequence timestamp with
    admin := some admin
    rewardToken := some rewardToken
    feeBps := some bps
    paused := some false
    taskCounter := some 0 }) (.initialized admin rewardToken bps)

/-- A call with the given signatures, no external contract and a lifetime for new entries. -/
def signedBy (auths : List Address) (freshTtl : Nat) : Invocation :=
  { auths, isMet := fun _ _ => none, verify := fun _ _ _ _ => none, freshTtl }

variable {self admin rewardToken : Address} {bps : Nat} {balances : Balances}
  {sequence timestamp : Nat}

theorem deployed_blank (counted : sequence ≤ u32Max) (timed : timestamp ≤ u64Max) :
    Blank (deployed self balances sequence timestamp) := by
  constructor <;> first | rfl | assumption

theorem genesis_fresh
    (legal : bps ≤ 10000 ∧ self ≠ admin ∧ sequence ≤ u32Max ∧ timestamp ≤ u64Max) :
    Fresh (genesis self admin rewardToken bps balances sequence timestamp) := by
  obtain ⟨legal, apart, counted, timed⟩ := legal
  refine ⟨deployed self balances sequence timestamp, signedBy [admin] 0, admin, rewardToken, bps,
    deployed_blank counted timed, ?_, ?_⟩
  · simpa [signedBy, deployed] using apart
  · have absent : (deployed self balances sequence timestamp).admin = none := rfl
    simp [initializeRegistry, absent, legal, signedBy, genesis]

theorem exactTransfer_exact : ExactToken exactTransfer := fun _ _ _ _ _ moved => moved

/-- A small task that pays 40 tokens. -/
def sampleParams : BatchTaskParams where
  taskType := .liquidation
  calldata := []
  reward := 40
  deadline := 100
  ttlLedgers := 20000
  lockLedgers := 12
  verifier := none
  condition := none

/-- One move of a scripted run. -/
inductive Turn where
  | call (auths : List Address) (call : Call)
  | close (timestamp : Nat)

/-- The state after a move of a script, played with a plain token. -/
def Turn.play (e : Env) : Turn → Env
  | .call auths entry => (invoke exactTransfer (signedBy auths 1000) entry e).2
  | .close timestamp => { e with sequence := e.sequence + 1, timestamp }

/-- A move a script may make. -/
def Turn.Legal (e : Env) : Turn → Prop
  | .call auths _ => e.self ∉ auths ∧ e.wasm = none
  | .close timestamp => e.sequence < u32Max ∧ e.timestamp ≤ timestamp ∧ timestamp ≤ u64Max

instance (e : Env) (turn : Turn) : Decidable (turn.Legal e) := by
  cases turn <;> unfold Turn.Legal <;> infer_instance

/-- The state after a whole script. -/
def play (e : Env) (script : List Turn) : Env :=
  script.foldl Turn.play e

/-- Every move of a script is one it may make. -/
def Playable (e : Env) : List Turn → Prop
  | [] => True
  | turn :: script => turn.Legal e ∧ Playable (turn.play e) script

instance Playable.decide : ∀ (e : Env) (script : List Turn), Decidable (Playable e script)
  | _, [] => .isTrue trivial
  | e, turn :: script => @instDecidableAnd _ _ _ (Playable.decide (turn.play e) script)

theorem Turn.Legal.step {e : Env} {turn : Turn} (legal : turn.Legal e) :
    ExactStep e (turn.play e) := by
  cases turn with
  | call auths entry =>
    exact .call _ (signedBy auths 1000) entry e exactTransfer_exact legal.1 legal.2
  | close timestamp => exact .close timestamp e legal.1 legal.2.1 legal.2.2

theorem Playable.run {e : Env} {script : List Turn} (playable : Playable e script) :
    ExactRun e (play e script) := by
  induction script generalizing e with
  | nil => exact .refl
  | cons turn script ih => exact .head playable.1.step (ih playable.2)

end KeeperNetwork
