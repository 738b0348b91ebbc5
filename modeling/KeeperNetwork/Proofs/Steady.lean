import KeeperNetwork.Proofs.WellFormed

/-! Every call keeps the records well formed, however the token behaves during its transfers. -/

namespace KeeperNetwork

open Soroban Bookkeeping

/-- The registry keeps its address, its records well formed and its ids allocated. -/
structure Steady (e e' : Env) : Prop where
  self : e'.self = e.self
  wellFormed : WellFormed e → WellFormed e'
  counter : WellFormed e → e.taskCounter.getD 0 ≤ e'.taskCounter.getD 0

namespace Steady

variable {token : Token} {inv : Invocation} {e between e' : Env}

theorem refl (e : Env) : Steady e e := ⟨rfl, id, fun _ => le_rfl⟩

theorem trans (first : Steady e between) (second : Steady between e') : Steady e e' :=
  ⟨second.self.trans first.self, fun formed => second.wellFormed (first.wellFormed formed),
    fun formed => (first.counter formed).trans (second.counter (first.wellFormed formed))⟩

theorem writes (same : e'.self = e.self ∧ e'.taskCounter = e.taskCounter)
    (formed : WellFormed e → WellFormed e') : Steady e e' :=
  ⟨same.1, formed, fun _ => by rw [same.2]⟩

theorem emit {event : Event} (before : Steady e between) : Steady e (between.emit event) :=
  before.trans (.writes (by simp) fun formed => formed.emit event)

theorem bump : Steady e e.bump := .writes (by simp) fun formed => formed.bump

theorem clock (e : Env) (sequence timestamp : Nat) : Steady e { e with sequence, timestamp } :=
  .writes (by simp) fun formed => formed.frame (by simp)

theorem receive (e : Env) (balances : Balances) (history : List Entry) :
    Steady e { e with balances, history } :=
  .writes (by simp) fun formed => formed.frame (by simp)

theorem store (inv : Invocation) {owner : Address} {params : BatchTaskParams}
    (foreign : owner ≠ e.self) (positive : 0 < params.reward) :
    Steady e (e.countTask.saveTask inv (e.taskCounter.getD 0 + 1) (newTask owner params)) :=
  ⟨by simp, fun formed => formed.countTask.saveTask ⟨by simp, foreign, positive⟩, by simp⟩

theorem topUp {taskId : Nat} {task : Task} {additional : Int}
    (found : e.tasks.lookup taskId = some task) (positive : 0 < additional)
    (before : Steady e between) :
    Steady e (between.saveTask inv taskId { task with reward := task.reward + additional }) := by
  refine ⟨by simpa using before.self, fun formed => ?_, fun formed => by
    simpa using before.counter formed⟩
  obtain ⟨numbered, foreign, held⟩ := formed.tasks taskId task found
  -- The id was allocated before the transfer, and no transfer takes ids back.
  exact (before.wellFormed formed).saveTask ⟨numbered.trans (before.counter formed),
    before.self ▸ foreign, show 0 < task.reward + additional by omega⟩

end Steady

variable {token : Token} {inv : Invocation} {e pre paid e' : Env} {src dst : Address} {amount : Int}

theorem Wraps.steady (wraps : Wraps Steady token) : Across Steady token :=
  wraps.across (fun _ _ _ => Steady.trans) fun a balances => .receive a balances a.history

theorem ExactToken.steady (exact : ExactToken token) : Across Steady token :=
  exact.across fun a balances => .receive a balances a.history

theorem skipTransfer_steady : Across Steady skipTransfer := by
  intro src dst amount e e' moved
  obtain rfl := skipTransfer_returns.mp moved
  exact .refl _

theorem Across.steady_emit (steady : Across Steady token)
    (moved : (token src dst amount).Returns pre () paid) {event : Event}
    (same : pre.self = e.self ∧ pre.taskCounter = e.taskCounter)
    (formed : WellFormed e → WellFormed pre) : Steady e (paid.emit event) :=
  ((Steady.writes same formed).trans (steady moved)).emit

theorem Registered.steady {owner : Address} {entries : List BatchTaskParams} {taskIds : List Nat}
    (steady : Across Steady token) (foreign : owner ≠ e.self)
    (positive : ∀ params ∈ entries, 0 < params.reward)
    (registered : Registered token inv owner entries e taskIds e') : Steady e e' := by
  induction registered with
  | done => exact .refl _
  | next escrowed room others ih =>
    obtain ⟨here, later⟩ := List.forall_mem_cons.mp positive
    have paid := steady escrowed
    have outside := paid.self ▸ foreign
    have stored := paid.trans (.store inv outside here)
    exact stored.emit.trans (ih (by simpa using outside) later)

/-- A call keeps the ledger steady when its token does. -/
theorem Effect.steady {call : Call} {value : Value} (steady : Across Steady token)
    (unsigned : e.self ∉ inv.auths) (effect : Effect token inv e call value e') : Steady e e' := by
  -- A signer is never the registry itself.
  have outside : ∀ signer ∈ inv.auths, signer ≠ e.self :=
    fun signer signed same => unsigned (same ▸ signed)
  cases effect with
  | initializeRegistry absent =>
    exact ⟨by simp, fun formed => absurd absent formed.ready,
      fun formed => absurd absent formed.ready⟩
  | setFeeBps _ legal =>
    exact .writes (by simp) fun formed => { formed with fee := by simpa [feeBps] using legal }
  | transferAdmin => exact .writes (by simp) fun formed => { formed with ready := by simp }
  | sweepFees _ _ accrued _ payout =>
    refine steady.steady_emit payout (by simp) fun formed => { formed with fees := ?_ }
    simp [feesAccrued] at accrued ⊢
    omega
  | registerTask permitted valid _ escrowed =>
    have paid := steady escrowed
    exact .emit ((Steady.bump.trans paid).trans (.store inv (paid.self ▸ outside _ permitted.2)
      valid.positive))
  | batchRegisterTasks permitted _ _ _ valid _ _ _ registered =>
    exact Steady.bump.trans (registered.steady steady (by simpa using outside _ permitted.2)
      fun params member => (valid params member).positive)
  | increaseReward _ positive found _ _ _ escrowed =>
    exact .emit (.topUp found positive (Steady.bump.trans (steady escrowed)))
  | extendDeadline _ found | updateVerifier _ found =>
    exact .emit (.writes (by simp) fun formed => formed.bump.rewrite found rfl rfl)
  | @claimTask _ taskId task missed _ _ found =>
    refine .emit (.writes (by simp) fun formed => ?_)
    have here : (e.bump.noteMissed inv missed).tasks.lookup taskId = some task := by
      simpa using found
    exact (formed.bump.noteMissed missed).rewrite here rfl rfl
  | @executeTaskHeld _ _ _ task _ _ _ _ found _ _ _ _ split =>
    refine .emit (.writes (by simp) fun formed => ?_)
    obtain ⟨net, fee⟩ := splitReward_nonneg (formed.tasks _ _ found).positive formed.fee split
    refine @WellFormed.rewrite _ _ (((formed.bump.savePending ?_).accrue fee).trackAction _) _
      task _ (by simpa using found) rfl rfl
    intro credit member
    rcases List.mem_append.mp member with old | new
    · exact formed.credit_nonneg old
    · obtain rfl := List.mem_singleton.mp new
      exact net
  | @executeTaskPaid _ _ _ task _ _ _ _ found _ _ _ _ split =>
    refine .emit (.writes (by simp) fun formed => ?_)
    obtain ⟨net, fee⟩ := splitReward_nonneg (formed.tasks _ _ found).positive formed.fee split
    exact @WellFormed.rewrite _ _ (((formed.bump.credit net).accrue fee).trackAction _) _ task _
      (by simpa using found) rfl rfl
  | cancelTask _ found _ _ _ _ refund | expireTask found _ _ _ refund =>
    exact steady.steady_emit refund (by simp) fun formed => formed.bump.rewrite found rfl rfl
  | @withdrawRewards keeper ready held _ _ _ readied waiting _ _ _ _ payout =>
    refine steady.steady_emit payout (by simp) fun formed => ?_
    have finalized : WellFormed (e.finalized inv keeper ready held) :=
      formed.finalized (fun credit member => List.mem_of_mem_filter (readied ▸ member))
        fun credit member => List.mem_of_mem_filter (waiting ▸ member)
    exact (finalized.emitFinalized ready).bump.setKeeperReward le_rfl
  | stakeDeposit _ _ positive _ _ deposited =>
    refine steady.steady_emit deposited (by simp) fun formed => ?_
    exact formed.bump.saveStake (Int.add_nonneg (formed.stakeOf_nonneg _) positive.le)
  | initiateUnbond _ _ positive staked =>
    refine .emit (.writes (by simp) fun formed => ?_)
    exact (formed.bump.saveStake (by omega)).saveUnbondRequest positive
  | withdrawStake _ _ _ _ _ payout =>
    exact steady.steady_emit payout (by simp) fun formed => formed.bump.removeUnbondRequest
  | slashStake _ positive covered _ _ _ _ _ payout =>
    refine steady.steady_emit payout (by simp) fun formed => ?_
    exact (formed.bump.saveStake (by omega)).bookSlash positive _
  | slashUnbond _ positive _ _ slashable _ _ _ _ payout =>
    refine steady.steady_emit payout (by simp) fun formed => ?_
    exact ((formed.bump.saveStake le_rfl).drawUnbond (by omega)).bookSlash positive _
  | @raiseSlashAppeal _ slashId record _ found =>
    refine .emit (.writes (by simp) fun formed => ?_)
    exact formed.bump.saveSlash (formed.slashes slashId record found)
  | rejectSlashAppeal => exact .emit (.writes (by simp) fun formed => formed.bump.removeSlash _)
  | upholdSlashAppeal _ found _ _ _ refund =>
    refine steady.steady_emit refund (by simp) fun formed => ?_
    exact (formed.bump.removeSlash _).saveStake
      (Int.add_nonneg (formed.stakeOf_nonneg _) (formed.slashes _ _ found).le)
  | disputeExecution _ _ _ _ _ read | releaseDispute _ _ _ _ read =>
    exact .emit (.writes (by simp) fun formed => formed.bump.replaceCredit read rfl)
  | upholdDispute _ _ _ _ read =>
    refine .emit (.writes (by simp) fun formed => ?_)
    refine (formed.bump.savePending fun credit member => ?_).accrue (le_max_right _ _)
    exact formed.credit_nonneg (List.mem_of_mem_eraseIdx member)
  | _ => exact .writes (by simp) fun formed => formed.frame (by simp)

theorem WellFormed.paying {call : Call} {value : Value} {event : Event}
    (formed : WellFormed e) (unsigned : e.self ∉ inv.auths)
    (unpaid : Effect skipTransfer inv e call value (pre.emit event)) : WellFormed pre := by
  have after := (unpaid.steady skipTransfer_steady unsigned).wellFormed formed
  exact after.frame (by simp)

/-- What happens is steady, and a quantity of well formed records drifts as allowed. -/
def Calm (quantity : Env → Int) (allowed : AddSubmonoid ℤ) (a b : Env) : Prop :=
  Steady a b ∧ (WellFormed a → Drifts allowed quantity a b)

namespace Calm

variable {quantity : Env → Int} {allowed : AddSubmonoid ℤ} {a b c : Env}

theorem refl (a : Env) : Calm quantity allowed a a := ⟨.refl a, fun _ => .refl a⟩

theorem trans (first : Calm quantity allowed a b) (second : Calm quantity allowed b c) :
    Calm quantity allowed a c :=
  ⟨first.1.trans second.1, fun formed =>
    (first.2 formed).trans (second.2 (first.1.wellFormed formed))⟩

/-- A transfer is calm when everything around its move is, and balances do not matter. -/
theorem across (wraps : Wraps (Calm quantity allowed) token)
    (ignores : ∀ (a : Env) (balances : Balances), quantity { a with balances } = quantity a) :
    Across (Calm quantity allowed) token :=
  wraps.across (fun _ _ _ => trans) fun a balances =>
    ⟨.receive a balances a.history, fun _ => .of_eq (ignores a balances)⟩

end Calm

end KeeperNetwork
