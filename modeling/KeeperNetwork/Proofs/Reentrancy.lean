import KeeperNetwork.Proofs.Ledgers
import KeeperNetwork.Proofs.TaskSlack

/-! Tokens that call back into the registry while they transfer, nested to any depth. -/

namespace KeeperNetwork

open Soroban Bookkeeping

/--
One call that a token makes while it transfers.

The registry does not sign it, and it settles none of the tasks held for the calls around it.
-/
def Reentered (behaves : Call → Token → Prop) (held : Set Nat) (a b : Env) : Prop :=
  ∃ (token : Token) (inv : Invocation) (call : Call) (value : Value),
    behaves call token ∧ (∀ taskId ∈ held, call.settles taskId = false) ∧
    a.self ∉ inv.auths ∧ a.wasm = none ∧ (recordedCall token inv call).Returns a value b

/--
A token that moves exact amounts, and may call back before and after it does.

What it calls back may transfer again, with a token that calls back in turn. The depth bounds the
nesting, and `guarded` names the tasks that must not be settled while a call is under way.
-/
def Reentrant (guarded : Call → Set Nat) : Nat → Set Nat → Token → Prop
  | 0, _, token => ExactToken token
  | depth + 1, held, token =>
    Wraps (Relation.ReflTransGen (Reentered
      (fun call inner => Reentrant guarded depth (held ∪ guarded call) inner) held)) token

/-- A token that calls back into the registry, to some depth. -/
def Reenters (guarded : Call → Set Nat) (call : Call) (token : Token) : Prop :=
  ∃ depth, Reentrant guarded depth (guarded call) token

/-- No task is guarded: the token may call back whatever it likes. -/
def unguarded (_ : Call) : Set Nat := ∅

/-- The task that a top-up is about, which must not be settled before the top-up is done. -/
def toppedUp : Call → Set Nat
  | .increaseReward _ taskId _ => {taskId}
  | _ => ∅

/-- A relation between states that calls keep, provided that their tokens keep it. -/
structure Withstands (guarded : Call → Set Nat) (kept : Set Nat → Env → Env → Prop) : Prop where
  refl : ∀ held a, kept held a a
  trans : ∀ held a b c, kept held a b → kept held b c → kept held a c
  /-- One call keeps the relation, when its token keeps it for what the call guards besides. -/
  call : ∀ {held : Set Nat} {token : Token} {inv : Invocation} {e e' : Env} {call : Call}
    {value : Value}, Wraps (kept (held ∪ guarded call)) token →
      (∀ taskId ∈ held, call.settles taskId = false) → e.self ∉ inv.auths →
      Effect token inv e call value e' → kept held e (e'.record e call value)

variable {guarded : Call → Set Nat} {kept : Set Nat → Env → Env → Prop} {token : Token}
  {held : Set Nat} {start e e' : Env} {depth : Nat}

namespace Withstands

theorem wraps (withstands : Withstands guarded kept)
    (reentrant : Reentrant guarded depth held token) : Wraps (kept held) token := by
  -- Induction on the depth: what is called back meets a token that is less deep.
  induction depth generalizing held token with
  | zero =>
    have exact : ExactToken token := reentrant
    exact exact.wraps_refl (withstands.refl held)
  | succ depth ih =>
    refine Wraps.mono reentrant fun a b nested => ?_
    induction nested with
    | refl => exact withstands.refl held a
    | tail _ last before =>
      obtain ⟨inner, inv, call, value, behaved, unsettled, unsigned, -, ran⟩ := last
      obtain ⟨finish, called, rfl⟩ := recordedCall_returns.mp ran
      exact withstands.trans _ _ _ _ before
        (withstands.call (ih behaved) unsettled unsigned (runCall_effect called))

theorem run (withstands : Withstands guarded kept)
    (clock : ∀ (a : Env) (sequence timestamp : Nat), kept ∅ a { a with sequence, timestamp })
    (outside : ∀ (a : Env) (balances : Balances), a.balances.of a.self ≤ balances.of a.self →
      kept ∅ a { a with
        balances, history := .outside (balances.of a.self - a.balances.of a.self) :: a.history })
    (ran : Run (Reenters guarded) e e') : kept ∅ e e' := by
  -- Each call is withstood from the state in which it starts, whatever it re-enters.
  induction ran with
  | refl => exact withstands.refl ∅ e
  | tail _ last before =>
    refine withstands.trans _ _ _ _ before ?_
    cases Step.happens last with
    | called behaved unsigned _ effect =>
      obtain ⟨depth, reentrant⟩ := behaved
      have wraps := withstands.wraps reentrant
      rw [← Set.empty_union (guarded _)] at wraps
      exact withstands.call wraps (by simp) unsigned effect
    | failed => exact withstands.refl _ _
    | closed timestamp => exact clock _ _ timestamp
    | received balances gained => exact outside _ balances gained

end Withstands

theorem Effect.steady_record {inv : Invocation} {call : Call} {value : Value}
    (steady : Across Steady token) (unsigned : e.self ∉ inv.auths)
    (effect : Effect token inv e call value e') : Steady e (e'.record e call value) := by
  obtain ⟨self, formed, counter⟩ := effect.steady steady unsigned
  exact ⟨self, formed, counter⟩

theorem Effect.measured {inv : Invocation} {call : Call} {value : Value}
    (measure : List Entry → Int)
    (wraps : Wraps (fun a b => measure a.history ≤ measure b.history) token)
    (effect : Effect token inv e call value e') : measure e.history ≤ measure e'.history := by
  -- The history is a part of the host's state, which changes only while the token is called.
  have across : Across (fun a b => measure a.host.2.2 ≤ measure b.host.2.2) token :=
    wraps.across (fun _ _ _ => le_trans) fun _ _ => le_rfl
  exact @Effect.host token inv e e' call value (fun a b => measure a.2.2 ≤ measure b.2.2)
    (fun _ => le_rfl) (fun _ _ _ => le_trans) across effect

theorem Fund.Sound.withstands {fund : Fund} (sound : fund.Sound) :
    Withstands guarded fun _ => Calm (Env.unexplained fund.account) ⊥ where
  refl _ := Calm.refl
  trans _ _ _ _ := Calm.trans
  call wraps _ unsigned effect := by
    -- What the nested calls explain stays explained around the outer one.
    have across := Calm.across wraps fun a balances =>
      sound.unexplained (by constructor <;> rfl) rfl
    refine ⟨effect.steady_record (fun _ _ _ _ _ moved => (across moved).1) unsigned, ?_⟩
    intro formed
    exact Drifts.bot_iff.mpr (sound.effect across formed unsigned effect)

theorem Fund.Sound.reentrant {fund : Fund} (sound : fund.Sound) (fresh : Fresh start)
    (ran : Run (Reenters guarded) start e) :
    fund.stock e = fund.stock start +
      receiptTotal (fun receipt => fund.flow receipt.before receipt.call receipt.value)
        e.history := by
  -- Over the whole run nothing of the fund is left unexplained.
  have calm := sound.withstands.run
    (fun a sequence timestamp => ⟨.clock a sequence timestamp,
      fun _ => .of_eq (sound.unexplained (by constructor <;> rfl) rfl)⟩)
    (fun a balances _ => ⟨.receive a balances _, fun _ => .of_eq (sound.received a balances)⟩) ran
  have same := Drifts.bot_iff.mp (calm.2 fresh.wellFormed)
  simp only [Env.unexplained, Account.unexplained, fresh.history, Account.booked_nil,
    booked_eq] at same
  simp only [account] at same
  omega

/-- What re-entrant calls keep of the surplus, while some tasks must not be settled. -/
structure KeepsSurplus (held : Set Nat) (a b : Env) : Prop where
  /-- The surplus that the history does not explain never falls. -/
  calm : Calm (Env.unexplained solvency) (AddSubmonoid.nonneg ℤ) a b
  /-- What the history explains never falls either. -/
  booked : solvency.booked a.history ≤ solvency.booked b.history
  /-- A task that must not be settled keeps its escrow. -/
  escrow : ∀ taskId ∈ held, Calm (escrowOf taskId) (AddSubmonoid.nonneg ℤ) a b

theorem surplus_withstands : Withstands toppedUp KeepsSurplus where
  refl held a := ⟨.refl a, le_rfl, fun _ _ => .refl a⟩
  trans held a b c first second := ⟨first.calm.trans second.calm, first.booked.trans second.booked,
    fun taskId member => (first.escrow taskId member).trans (second.escrow taskId member)⟩
  call {held token inv e e' call value} wraps unsettled unsigned effect := by
    have calm := wraps.mono fun _ _ => KeepsSurplus.calm
    have steady := (calm.mono fun _ _ => And.left).steady
    have escrow : ∀ taskId ∈ held ∪ toppedUp call,
        Across (Calm (escrowOf taskId) (AddSubmonoid.nonneg ℤ)) token := fun taskId member =>
      Calm.across (wraps.mono fun _ _ kept => kept.escrow taskId member) fun _ _ => rfl
    have recorded := effect.steady_record steady unsigned
    refine ⟨⟨recorded, fun formed => ?_⟩, ?_, fun taskId member => ⟨recorded, fun formed => ?_⟩⟩
    · -- The task of a top-up is guarded, so its escrow survives the transfer.
      refine effect.surplus calm ?_ formed unsigned
      rintro owner taskId additional rfl
      exact escrow taskId (.inr rfl)
    · -- The history grows through the token, and by one record of something retained.
      have grown := effect.measured solvency.booked (wraps.mono fun _ _ => KeepsSurplus.booked)
      have retained := effect.retained_nonneg
      rw [Env.record_history, Account.booked_cons]
      simp only [solvency] at grown ⊢
      omega
    · have kept := effect.escrow_keeps (escrow taskId (.inl member)) formed unsigned
        (unsettled taskId member)
      exact Drifts.nonneg_iff.mpr kept

/-- What re-entrant calls keep of the slack of one task. -/
structure KeepsSlack (taskId : Nat) (held : Set Nat) (a b : Env) : Prop where
  /-- The slack never shrinks. -/
  calm : Calm (Env.unexplained (slack taskId)) (AddSubmonoid.nonneg ℤ) a b
  /-- A task that must not be settled has nothing more released for it. -/
  booked : taskId ∈ held → -(slack taskId).booked a.history ≤ -(slack taskId).booked b.history

theorem slack_withstands (taskId : Nat) : Withstands toppedUp (KeepsSlack taskId) where
  refl held a := ⟨.refl a, fun _ => le_rfl⟩
  trans held a b c first second := ⟨first.calm.trans second.calm,
    fun member => (first.booked member).trans (second.booked member)⟩
  call {held token inv e e' call value} wraps unsettled unsigned effect := by
    have calm := wraps.mono fun _ _ => KeepsSlack.calm
    have across := Calm.across calm fun _ _ => rfl
    have booked (member : taskId ∈ held ∪ toppedUp call) :=
      wraps.mono fun _ _ kept => kept.booked member
    refine ⟨⟨effect.steady_record (calm.mono fun _ _ => And.left).steady unsigned, ?_⟩, ?_⟩
    · -- A top-up reads its task before the token is called, so the task must not be settled.
      intro formed
      refine Drifts.nonneg_iff.mpr (effect.slack across ?_ formed unsigned)
      rintro owner additional rfl
      intro src dst amount a b moved
      have kept := (booked (.inr rfl)).across (fun _ _ _ => le_trans) (fun _ _ => le_rfl) moved
      omega
    · -- The booked releases of a guarded task do not grow.
      intro member
      have kept := effect.measured (fun history => -(slack taskId).booked history)
        (booked (.inl member))
      have deposit := effect.deposited_nonneg taskId
      have nothing : call.released e taskId = 0 := by
        simp [Call.released, unsettled taskId member]
      rw [Env.record_history, Account.booked_cons]
      simp only [slack] at kept ⊢
      omega

/-- All that was released of a task's escrow. -/
def totalReleased (taskId : Nat) (history : List Entry) : Int :=
  receiptTotal (fun receipt => receipt.call.released receipt.before taskId) history

theorem slack_booked (taskId : Nat) (history : List Entry) :
    (slack taskId).booked history =
      totalReleased taskId history - totalEscrowed taskId history := by
  unfold totalReleased totalEscrowed
  rw [← receiptTotal_sub]
  -- A record books what it released less what it escrowed.
  induction history with
  | nil => rfl
  | cons entry rest ih =>
    rw [Account.booked_cons, ih]
    cases entry <;> simp [slack, Receipt.escrowed]

theorem buckets_le_balance (fresh : Fresh start) (ran : Run (Reenters toppedUp) start e) :
    buckets e ≤ e.balances.of e.self := by
  -- The unexplained surplus never falls, over calls that may nest.
  have kept := surplus_withstands.run
    (fun a sequence timestamp => ⟨⟨.clock a sequence timestamp, fun _ => .of_eq rfl⟩, le_rfl,
      fun _ member => absurd member (Set.notMem_empty _)⟩)
    (fun a balances gained => ⟨⟨.receive a balances _, fun _ => .of_eq ?_⟩, ?_,
      fun _ member => absurd member (Set.notMem_empty _)⟩) ran
  · have unexplained := Drifts.nonneg_iff.mp (kept.calm.2 fresh.wellFormed)
    have booked := kept.booked
    -- At first nothing is owed, and the balance is not negative.
    have initially := fresh.buckets
    have held := start.balances.nonneg start.self
    simp only [Env.unexplained, Account.unexplained, solvency, surplus] at unexplained
    simp only [solvency] at booked
    omega
  · have owed : buckets { a with balances }.toWorld = buckets a := rfl
    simp only [Env.unexplained, Account.unexplained, Account.booked_cons, solvency, surplus]
      at owed ⊢
    omega
  · rw [Account.booked_cons]
    simp only [solvency]
    omega

theorem WellFormed.escrowOf_nonneg (formed : WellFormed e) (taskId : Nat) :
    0 ≤ escrowOf taskId e := by
  cases found : e.tasks.lookup taskId with
  | none => simp [escrowOf, Finmap.weightAt_of_lookup_none _ found]
  | some task =>
    simp only [escrowOf, Finmap.weightAt_of_lookup _ found]
    exact formed.escrow_nonneg taskId task found

theorem released_le_escrowed (fresh : Fresh start) (ran : Run (Reenters toppedUp) start e)
    (taskId : Nat) : totalReleased taskId e.history ≤ totalEscrowed taskId e.history := by
  have kept := (slack_withstands taskId).run
    (fun a sequence timestamp => ⟨⟨.clock a sequence timestamp, fun _ => .of_eq rfl⟩,
      fun _ => le_rfl⟩)
    (fun a balances _ => ⟨⟨.receive a balances _, fun _ => .of_eq ?_⟩, fun _ => ?_⟩) ran
  · have unused := fresh.unused.1
    have grown := Drifts.nonneg_iff.mp (kept.calm.2 fresh.wellFormed)
    -- At first there is no task, and a task that is left holds no negative escrow.
    have initially : escrowOf taskId start = 0 := by
      simp [escrowOf, Finmap.weightAt, unused.tasks]
    have left := (kept.calm.1.wellFormed fresh.wellFormed).escrowOf_nonneg taskId
    simp only [unexplained_slack, initially, unused.history, Account.booked_nil,
      slack_booked] at grown
    omega
  · simp [Env.unexplained, Account.unexplained, slack]
  · simp [slack]

/--
Re-entry pays nothing twice, as long as no task is settled inside its own top-up.

The balance covers every bucket when an outermost call returns, no task has more released than was
escrowed for it, and every reward, unbonding stake and fee is owed, withdrawn or forfeited once.
-/
theorem reentry_pays_once (fresh : Fresh start) (ran : Run (Reenters toppedUp) start e) :
    buckets e ≤ e.balances.of e.self ∧
    (∀ taskId, totalReleased taskId e.history ≤ totalEscrowed taskId e.history) ∧
    (∀ keeper,
      receiptTotal (fun r => r.call.rewardsWithdrawn keeper r.value) e.history +
          entitlement e keeper +
          receiptTotal (fun r => r.call.forfeitedFrom r.before keeper) e.history =
        receiptTotal (fun r => r.call.executionNet r.before keeper) e.history) ∧
    (∀ keeper,
      receiptTotal (fun r => r.call.stakeWithdrawn keeper r.value) e.history +
          e.unbondRequest.weightAt UnbondRequest.amount keeper +
          receiptTotal (fun r => r.call.slashedUnbonding r.before keeper) e.history =
        receiptTotal (fun r => r.call.unbonded keeper) e.history) ∧
    receiptTotal (fun r => r.call.swept) e.history + feesAccrued e =
      receiptTotal (fun r => r.call.executionFee r.before) e.history +
        receiptTotal (fun r => r.call.forfeited r.before) e.history := by
  have unused := fresh.unused.1
  -- Each statement is the books of one fund, read from an empty registry on.
  refine ⟨buckets_le_balance fresh ran, released_le_escrowed fresh ran, fun keeper => ?_,
    fun keeper => ?_, ?_⟩
  · have explained := (rewardsFund_sound keeper).reentrant fresh ran
    simp [rewardsFund, receiptTotal_sub, entitlement, keeperRewardOf, pendingCreditsOf,
      unused.rewards, unused.credits, creditsTotal] at explained ⊢
    omega
  · have explained := (unbondingFund_sound keeper).reentrant fresh ran
    simp [unbondingFund, receiptTotal_sub, Finmap.weightAt, unused.unbonds] at explained ⊢
    omega
  · have explained := feesFund_sound.reentrant fresh ran
    simp [feesFund, receiptTotal_sub, receiptTotal_add, feesAccrued, unused.fees] at explained ⊢
    omega

def cancelling (owner : Address) (taskId : Nat) : Token := fun src dst amount => do
  exactTransfer src dst amount
  let e ← get
  -- It only calls a registry that the owner is not, and that still runs this code.
  if e.self ≠ owner ∧ e.wasm = none then
    let _ ← recordedCall exactTransfer (signedBy [owner] 1000) (.cancelTask owner taskId)

theorem cancelling_reentrant {owner : Address} {taskId : Nat} (free : taskId ∉ held) :
    Reentrant guarded 1 held (cancelling owner taskId) := by
  intro src dst amount e e' moved
  simp only [cancelling, EStateM.returns_bind, EStateM.returns_get] at moved
  obtain ⟨_, after, exact, _, _, ⟨same, here⟩, rest⟩ := moved
  rw [same, here] at rest
  refine ⟨e, after, .refl, exact, ?_⟩
  -- The token cancels the task if it may, and does nothing more otherwise.
  split at rest
  · next outside =>
    simp only [EStateM.returns_bind, EStateM.returns_pure] at rest
    obtain ⟨value, _, called, -, rfl⟩ := rest
    refine .single ⟨exactTransfer, signedBy [owner] 1000, .cancelTask owner taskId, value,
      exactTransfer_exact, ?_, by simpa [signedBy] using outside.1, outside.2, called⟩
    intro other member
    have apart : taskId ≠ other := fun same => free (same ▸ member)
    simp [Call.settles, apart]
  · obtain ⟨-, rfl⟩ := EStateM.returns_pure.mp rest
    exact .refl

/-- A registry whose only owner holds 140 tokens. -/
def beforeReentry : Env :=
  genesis ⟨0⟩ ⟨1⟩ ⟨2⟩ 100 (heldBy ⟨3⟩ 140 (by decide) (by decide)) 0 0

def twoTasks : Env :=
  play beforeReentry
    [.call [⟨3⟩] (.registerTask ⟨3⟩ sampleParams), .call [⟨3⟩] (.registerTask ⟨3⟩ sampleParams)]

/-- The owner tops up the first task while the token has one of the tasks cancelled. -/
def reentered (cancelled : Nat) : Env :=
  (invoke (cancelling ⟨3⟩ cancelled) (signedBy [⟨3⟩] 1000) (.increaseReward ⟨3⟩ 1 60) twoTasks).2

/-- The owner cancels the first task, once more if the token already had it cancelled. -/
def afterReentry (cancelled : Nat) : Env :=
  (invoke exactTransfer (signedBy [⟨3⟩] 1000) (.cancelTask ⟨3⟩ 1) (reentered cancelled)).2

theorem beforeReentry_fresh : Fresh beforeReentry := genesis_fresh (by decide)

theorem afterReentry_run {cancelled : Nat} (free : cancelled ∉ guarded (.increaseReward ⟨3⟩ 1 60))
    (outside : (reentered cancelled).self ∉ [(⟨3⟩ : Address)])
    (running : (reentered cancelled).wasm = none) :
    Run (Reenters guarded) beforeReentry (afterReentry cancelled) := by
  have exact (call : Call) : Reenters guarded call exactTransfer := ⟨0, exactTransfer_exact⟩
  have registered : Run (Reenters guarded) beforeReentry twoTasks :=
    .tail (.tail .refl (.call _ _ _ _ (exact _) (by decide) rfl))
      (.call _ _ _ _ (exact _) (by decide) rfl)
  have toppedUp : Step (Reenters guarded) twoTasks (reentered cancelled) :=
    .call _ _ _ _ ⟨1, cancelling_reentrant free⟩ (by decide) (by decide)
  exact .tail (.tail registered toppedUp) (.call _ _ _ _ (exact _) outside running)

/-- A token that cancels another task during a top-up leaves everything paid once. -/
theorem reentry_pays_once_cancelled :
    totalReleased 1 (afterReentry 2).history = 100 ∧
      totalReleased 1 (afterReentry 2).history ≤ totalEscrowed 1 (afterReentry 2).history ∧
      buckets (afterReentry 2) ≤
        (afterReentry 2).balances.of (afterReentry 2).self := by
  have free : 2 ∉ toppedUp (.increaseReward ⟨3⟩ 1 60) := by simp [toppedUp]
  obtain ⟨covered, released, -⟩ := reentry_pays_once beforeReentry_fresh
    (afterReentry_run free (by decide) (by decide))
  exact ⟨by decide, released 1, covered⟩

/--
A token that cancels a task during its own top-up has it paid out twice.

The top-up writes the task back as it was before the cancellation, so that its owner can cancel it
again and is paid out of the escrow of the other task.
-/
theorem reentry_pays_twice :
    Fresh beforeReentry ∧ Run (Reenters unguarded) beforeReentry (afterReentry 1) ∧
      totalEscrowed 1 (afterReentry 1).history < totalReleased 1 (afterReentry 1).history ∧
      (afterReentry 1).balances.of (afterReentry 1).self < buckets (afterReentry 1) :=
  ⟨beforeReentry_fresh, afterReentry_run (by simp [unguarded]) (by decide) (by decide),
    by decide, by decide⟩

end KeeperNetwork
