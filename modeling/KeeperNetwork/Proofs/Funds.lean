import KeeperNetwork.Proofs.Detached

/-! Funds: what the registry owes one party, explained call by call even under re-entry. -/

namespace KeeperNetwork

open Soroban Bookkeeping

/-- A call that escrows tokens before it writes a task. -/
def Call.files : Call → Bool
  | .registerTask .. => true
  | .batchRegisterTasks .. => true
  | .increaseReward .. => true
  | _ => false

/--
The order in which a call writes and pays.

Only the calls that file tasks write anything after a transfer.
-/
inductive Staged (token : Token) (inv : Invocation) (e : Env) (call : Call) (value : Value) :
    Env → Prop where
  /-- The call makes no transfer. -/
  | settled {e' : Env} (other : call.files = false)
      (alone : Effect skipTransfer inv e call value e') :
      Staged token inv e call value e'
  /-- The call writes everything it has to write, and then pays. -/
  | paid {pre paid : Env} {src dst : Address} {amount : Int} {event : Event}
      (other : call.files = false)
      (alone : Effect skipTransfer inv e call value (pre.emit event))
      (moved : (token src dst amount).Returns pre () paid) :
      Staged token inv e call value (paid.emit event)
  /-- The call escrows tokens, and then files a task. -/
  | filed {e' : Env} (files : call.files = true) (effect : Effect token inv e call value e') :
      Staged token inv e call value e'

variable {token : Token} {inv : Invocation} {e e' : Env} {call : Call} {value : Value}

/-- Every call writes before it pays, unless it files tasks. -/
theorem Effect.staged (effect : Effect token inv e call value e') :
    Staged token inv e call value e' := by
  -- The stand-in for the token accepts every transfer, so it leaves the writes that come first.
  have skipped : ∀ {src dst : Address} {amount : Int} {a : Env},
      (skipTransfer src dst amount).Returns a () a := skipTransfer_returns.mpr rfl
  cases effect with
  | registerTask | batchRegisterTasks | increaseReward =>
    exact .filed rfl (by constructor <;> assumption)
  | sweepFees admitted positive accrued configured payout =>
    exact .paid rfl (.sweepFees admitted positive accrued configured skipped) payout
  | cancelTask signed found owned unfinished unlocked configured refund =>
    exact .paid rfl (.cancelTask signed found owned unfinished unlocked configured skipped) refund
  | expireTask found unfinished passed configured refund =>
    exact .paid rfl (.expireTask found unfinished passed configured skipped) refund
  | withdrawRewards signed readied waiting fit owed positive configured payout =>
    exact .paid rfl (.withdrawRewards signed readied waiting fit owed positive configured skipped)
      payout
  | stakeDeposit ready permitted positive fits configured deposited =>
    exact .paid rfl (.stakeDeposit ready permitted positive fits configured skipped) deposited
  | withdrawStake ready signed found elapsed configured payout =>
    exact .paid rfl (.withdrawStake ready signed found elapsed configured skipped) payout
  | slashStake admitted positive covered slashable numbered counted totaled configured payout =>
    exact .paid rfl (.slashStake admitted positive covered slashable numbered counted totaled
      configured skipped) payout
  | slashUnbond admitted positive exceeds found slashable numbered counted totaled configured
      payout =>
    exact .paid rfl (.slashUnbond admitted positive exceeds found slashable numbered counted totaled
      configured skipped) payout
  | upholdSlashAppeal admitted found appealed fits configured refund =>
    exact .paid rfl (.upholdSlashAppeal admitted found appealed fits configured skipped) refund
  | executeTaskHeld permitted short found claimed claimer ahead approved split window fits =>
    exact .settled rfl (.executeTaskHeld permitted short found claimed claimer ahead approved split
      window fits)
  | executeTaskPaid permitted short found claimed claimer ahead approved split window stored fits =>
    exact .settled rfl (.executeTaskPaid permitted short found claimed claimer ahead approved split
      window stored fits)
  -- No other call transfers anything, so the same premises hold with the stand-in.
  | _ => exact .settled rfl (by constructor <;> assumption)

/-- Two ledgers that agree on everything owed to keepers and to the protocol. -/
structure SamePurse (w w' : World) : Prop where
  rewards : w'.keeperReward = w.keeperReward
  credits : w'.pendingReward = w.pendingReward
  fees : w'.feesAccrued = w.feesAccrued
  stakes : w'.keeperStake = w.keeperStake
  unbonds : w'.unbondRequest = w.unbondRequest
  slashed : w'.slashHistory = w.slashHistory

/-- A call that leaves alone everything owed to keepers and to the protocol. -/
def Call.quiet : Call → Bool
  | .sweepFees .. | .executeTask .. | .withdrawRewards .. | .stakeDeposit .. | .initiateUnbond ..
  | .withdrawStake .. | .slash .. | .resolveSlashAppeal .. | .disputeExecution ..
  | .resolveExecutionDispute .. => false
  | _ => true

theorem Effect.samePurse (alone : Effect skipTransfer inv e call value e')
    (other : call.files = false) (quiet : call.quiet = true) : SamePurse e e' := by
  cases alone with
  | registerTask | batchRegisterTasks | increaseReward => simp [Call.files] at other
  | sweepFees | executeTaskHeld | executeTaskPaid | withdrawRewards | stakeDeposit | initiateUnbond
  | withdrawStake | slashStake | slashUnbond | rejectSlashAppeal | upholdSlashAppeal
  | disputeExecution | upholdDispute | releaseDispute => simp [Call.quiet] at quiet
  | cancelTask _ _ _ _ _ _ moved | expireTask _ _ _ _ moved =>
    obtain rfl := skipTransfer_returns.mp moved
    constructor <;> simp
  | _ => constructor <;> simp

/-- A fund: an amount owed, and what each successful call adds to it. -/
structure Fund where
  /-- The amount the registry owes. -/
  stock : World → Int
  /-- What a call adds, as far as the ledger it started from and its result tell. -/
  flow : World → Call → Value → Int

namespace Fund

variable {fund : Fund}

def account (fund : Fund) : Account World Entry where
  stock := fund.stock
  flow
    | .call receipt => fund.flow receipt.before receipt.call receipt.value
    | .outside _ => 0

/-- A fund whose flow explains its stock, as far as the writes of a call go. -/
structure Sound (fund : Fund) : Prop where
  /-- The amount is read off what is owed to keepers and to the protocol. -/
  reads : ∀ {w w' : World}, SamePurse w w' → fund.stock w' = fund.stock w
  /-- A quiet call adds nothing. -/
  quiet : ∀ (w : World) (call : Call) (value : Value), call.quiet = true →
    fund.flow w call value = 0
  /-- The writes of any other call add what the call is booked with. -/
  writes : ∀ {inv : Invocation} {e e' : Env} {call : Call} {value : Value},
    WellFormed e → call.quiet = false → Effect skipTransfer inv e call value e' →
      fund.stock e' = fund.stock e + fund.flow e call value

theorem Sound.unexplained (sound : fund.Sound) {a b : Env} (same : SamePurse a b)
    (history : b.history = a.history) :
    b.unexplained fund.account = a.unexplained fund.account := by
  have stock : fund.account.stock b = fund.account.stock a := sound.reads same
  simp only [Env.unexplained, Account.unexplained, stock, history]

theorem Sound.received (sound : fund.Sound) (e : Env) (balances : Balances) {amount : Int} :
    Env.unexplained fund.account
        { e with balances, history := .outside amount :: e.history } =
      e.unexplained fund.account := by
  have same : fund.stock { e with balances }.toWorld = fund.stock e :=
    sound.reads (by constructor <;> rfl)
  simpa [Env.unexplained, Account.unexplained, account] using same

theorem Sound.alone (sound : fund.Sound) (formed : WellFormed e)
    (other : call.files = false) (alone : Effect skipTransfer inv e call value e') :
    e'.unexplained fund.account =
      e.unexplained fund.account + fund.flow e call value := by
  have written : fund.stock e' = fund.stock e + fund.flow e call value := by
    cases quiet : call.quiet with
    | true => rw [sound.quiet _ _ _ quiet, sound.reads (alone.samePurse other quiet), add_zero]
    | false => exact sound.writes formed quiet alone
  have history : e'.history = e.history := alone.history_of fun _ _ _ _ _ moved => by
    rw [skipTransfer_returns.mp moved]
  simp only [Env.unexplained, Account.unexplained, account, written, history]
  omega

theorem Sound.registered {owner : Address} {entries : List BatchTaskParams} {taskIds : List Nat}
    (sound : fund.Sound) (across : Across (Calm (Env.unexplained fund.account) ⊥) token)
    (foreign : owner ≠ e.self) (positive : ∀ params ∈ entries, 0 < params.reward)
    (formed : WellFormed e) (registered : Registered token inv owner entries e taskIds e') :
    e'.unexplained fund.account = e.unexplained fund.account := by
  -- Each entry is one transfer, which the token keeps calm, and the writes of one task.
  induction registered with
  | done => rfl
  | @next params rest e paid finish taskIds escrowed room others ih =>
    obtain ⟨here, later⟩ := List.forall_mem_cons.mp positive
    obtain ⟨steady, drift⟩ := across escrowed
    have outside := steady.self ▸ foreign
    have stored := steady.trans (.store inv outside here)
    have filed := ih (by simpa using outside) later (stored.emit.wellFormed formed)
    have written : SamePurse paid ((paid.countTask.saveTask inv
        (paid.taskCounter.getD 0 + 1) (newTask owner params)).emit (.taskRegistered
          (paid.taskCounter.getD 0 + 1) owner params.reward params.deadline
            params.condition)) := by
      constructor <;> simp
    rw [filed, sound.unexplained written (by simp), Drifts.bot_iff.mp (drift formed)]

/-- Every call leaves a fund explained, up to what its token does. -/
theorem Sound.effect (sound : fund.Sound)
    (across : Across (Calm (Env.unexplained fund.account) ⊥) token) (formed : WellFormed e)
    (unsigned : e.self ∉ inv.auths) (effect : Effect token inv e call value e') :
    (e'.record e call value).unexplained fund.account =
      e.unexplained fund.account := by
  have booked : fund.account.flow (.call ⟨e, call, value, e'⟩) =
      fund.flow e call value := rfl
  rw [Env.unexplained_record, booked]
  cases effect.staged with
  | settled other alone =>
    have written := sound.alone formed other alone
    omega
  | @paid pre paid src dst amount event other alone moved =>
    -- The payout comes last, so the token finds the books of this call already written.
    have written := sound.alone formed other alone
    have drift := Drifts.bot_iff.mp ((across moved).2 (formed.paying unsigned alone))
    have first : (pre.emit event).unexplained fund.account = pre.unexplained fund.account :=
      sound.unexplained (by constructor <;> simp) (by simp)
    have last : (paid.emit event).unexplained fund.account = paid.unexplained fund.account :=
      sound.unexplained (by constructor <;> simp) (by simp)
    omega
  | filed files effect =>
    have quiet : call.quiet = true := by cases call <;> simp_all [Call.files, Call.quiet]
    rw [sound.quiet e call value quiet, sub_zero]
    have bumped : e.bump.unexplained fund.account = e.unexplained fund.account :=
      sound.unexplained (by constructor <;> simp) (by simp)
    cases effect with
    | registerTask permitted valid _ escrowed | increaseReward permitted _ _ _ _ _ escrowed =>
      have drift := Drifts.bot_iff.mp ((across escrowed).2 formed.bump)
      rw [← bumped, ← drift]
      exact sound.unexplained (by constructor <;> simp) (by simp)
    | batchRegisterTasks permitted _ _ _ valid _ _ _ registered =>
      have foreign : _ ≠ e.self := fun same => unsigned (same ▸ permitted.2)
      rw [← bumped]
      exact sound.registered across (by simpa using foreign)
        (fun params member => (valid params member).positive) formed.bump registered
    | _ => simp [Call.files] at files

theorem Sound.calm (sound : fund.Sound) (detached : Detached token) :
    Across (Calm (Env.unexplained fund.account) ⊥) token :=
  detached.across fun a balances => ⟨.receive a balances a.history, fun _ =>
    .of_eq (sound.unexplained (by constructor <;> rfl) rfl)⟩

theorem Sound.flows (sound : fund.Sound) (detached : Detached token) (formed : WellFormed e)
    (unsigned : e.self ∉ inv.auths) (effect : Effect token inv e call value e') :
    fund.stock e' = fund.stock e + fund.flow e call value := by
  have same := sound.effect (sound.calm detached) formed unsigned effect
  rw [Env.unexplained_record] at same
  simp only [Env.unexplained, Account.unexplained, account, detached.history effect] at same
  omega

theorem booked_eq (fund : Fund) (history : List Entry) :
    fund.account.booked history =
      receiptTotal (fun receipt => fund.flow receipt.before receipt.call receipt.value)
        history := by
  induction history with
  | nil => rfl
  | cons entry rest ih => cases entry <;> simp [account, ← ih]

theorem Sound.kept (sound : fund.Sound) {start : Env} (fresh : Fresh start)
    (run : DetachedRun start e) : e.unexplained fund.account = start.unexplained fund.account := by
  induction run with
  | refl => rfl
  | tail ran last ih =>
    refine Eq.trans ?_ ih
    cases Step.happens last with
    | called detached unsigned _ effect =>
      exact sound.effect (sound.calm detached) (DetachedRun.wellFormed fresh ran) unsigned effect
    | failed => rfl
    | closed => exact sound.unexplained (by constructor <;> rfl) rfl
    | received balances => exact sound.received _ balances

theorem Sound.explained (sound : fund.Sound) {start : Env} (fresh : Fresh start)
    (run : DetachedRun start e) :
    fund.stock e = fund.stock start +
      receiptTotal (fun receipt => fund.flow receipt.before receipt.call receipt.value)
        e.history := by
  have kept := sound.kept fresh run
  simp only [Env.unexplained, Account.unexplained, fresh.history, Account.booked_nil,
    booked_eq] at kept
  change fund.stock e - _ = fund.stock start - _ at kept
  omega

end Fund

end KeeperNetwork
