import KeeperNetwork.Proofs.Steady
import KeeperNetwork.Registry.Genesis

/-! Whole runs: what every step keeps, every state reached from a fresh registry has. -/

namespace KeeperNetwork

open Soroban Bookkeeping

variable {token : Token} {inv : Invocation} {e e' : Env}

/-- A registry that owes nothing, knows no task and has recorded nothing. -/
structure Unused (e : Env) : Prop where
  tasks : e.tasks = ∅
  rewards : e.keeperReward = ∅
  stakes : e.keeperStake = ∅
  unbonds : e.unbondRequest = ∅
  credits : e.pendingReward = ∅
  slashes : e.slashes = ∅
  slashed : e.slashHistory = ∅
  fees : e.feesAccrued = none
  history : e.history = []

theorem Fresh.unused (fresh : Fresh e) :
    Unused e ∧ e.admin ≠ none ∧ e.rewardToken ≠ none ∧ feeBps e ≤ 10000 := by
  -- Initialization writes the configuration and leaves everything else as it was deployed.
  obtain ⟨blank, inv, admin, rewardToken, bps, empty, -, ran⟩ := fresh
  simp [initializeRegistry] at ran
  obtain ⟨-, legal, -, rfl⟩ := ran
  refine ⟨?_, by simp, by simp, by simpa [feeBps] using legal⟩
  constructor
  · simpa using empty.tasks
  · simpa using empty.keeperReward
  · simpa using empty.keeperStake
  · simpa using empty.unbondRequest
  · simpa using empty.pendingReward
  · simpa using empty.slashes
  · simpa using empty.slashHistory
  · simpa using empty.feesAccrued
  · simpa using empty.history

/-- What initialization writes into a fresh registry, and what it leaves as deployed. -/
structure Initialized (e : Env) (first token : Address) (bps : Nat) : Prop where
  admin : e.admin = some first
  rewardToken : e.rewardToken = some token
  feeBps : e.feeBps = some bps
  paused : e.paused = some false
  taskCounter : e.taskCounter = some 0
  minReward : e.minReward = none
  reputation : e.reputation = ∅
  events : e.events = [.initialized first token bps]

theorem Fresh.initialized (fresh : Fresh e) :
    ∃ admin rewardToken bps, Initialized e admin rewardToken bps := by
  -- The initialization is the one call that has run, on a registry that was empty.
  obtain ⟨blank, inv, admin, rewardToken, bps, empty, -, ran⟩ := fresh
  simp [initializeRegistry] at ran
  obtain ⟨-, -, -, rfl⟩ := ran
  refine ⟨admin, rewardToken, bps, ?_⟩
  constructor
  any_goals rfl
  · simpa using empty.minReward
  · simpa using empty.reputation
  · simp [empty.events]

theorem Fresh.wellFormed (fresh : Fresh e) : WellFormed e := by
  -- Every table is empty, so every condition on its entries holds.
  obtain ⟨unused, ready, configured, fee⟩ := fresh.unused
  exact
    { ready, configured, fee
      fees := by simp [feesAccrued, unused.fees]
      tasks := by simpa [unused.tasks] using Finmap.All.empty _
      rewards := by simpa [unused.rewards] using Finmap.All.empty _
      stakes := by simpa [unused.stakes] using Finmap.All.empty _
      unbonds := by simpa [unused.unbonds] using Finmap.All.empty _
      credits := by simpa [unused.credits] using Finmap.All.empty _
      slashes := by simpa [unused.slashes] using Finmap.All.empty _ }

theorem Fresh.history (fresh : Fresh e) : e.history = [] := fresh.unused.1.history

theorem Fresh.buckets (fresh : Fresh e) : buckets e = 0 := by
  obtain ⟨unused, -⟩ := fresh.unused
  simp [KeeperNetwork.buckets, openEscrow, rewardsOwed, stakesBonded, stakesUnbonding,
    creditsPending, feesAccrued, unused.tasks, unused.rewards, unused.fees, unused.stakes,
    unused.unbonds, unused.credits]

theorem ExactToken.wraps_refl (exact : ExactToken token) {around : Env → Env → Prop}
    (refl : ∀ a, around a a) : Wraps around token :=
  exact.wraps.mono fun a _ same => same ▸ refl a

theorem Step.mono {strict loose : Call → Token → Prop} {a b : Env}
    (weaker : ∀ call token, strict call token → loose call token) (step : Step strict a b) :
    Step loose a b := by
  -- Only a call depends on how the token behaves.
  cases step with
  | call token inv call _ behaved unsigned running =>
    exact .call token inv call _ (weaker call token behaved) unsigned running
  | close timestamp _ counted later fits => exact .close timestamp _ counted later fits
  | outside balances _ gained => exact .outside balances _ gained

/-- What can happen in one step with a token that behaves as given. -/
inductive Happens (behaves : Call → Token → Prop) (e : Env) : Env → Prop where
  | called {token : Token} {inv : Invocation} {call : Call} {value : Value} {finish : Env}
      (behaved : behaves call token) (unsigned : e.self ∉ inv.auths) (running : e.wasm = none)
      (effect : Effect token inv e call value finish) :
      Happens behaves e (finish.record e call value)
  | failed : Happens behaves e e
  | closed (timestamp : Nat) (counted : e.sequence < u32Max) (later : e.timestamp ≤ timestamp) :
      Happens behaves e { e with sequence := e.sequence + 1, timestamp }
  /-- Token balances change without the registry, which can only gain from it. -/
  | received (balances : Balances) (gained : e.balances.of e.self ≤ balances.of e.self) :
      Happens behaves e { e with
        balances
        history := .outside (balances.of e.self - e.balances.of e.self) :: e.history }

theorem Step.happens {behaves : Call → Token → Prop} (step : Step behaves e e') :
    Happens behaves e e' := by
  cases step with
  | call token inv call _ behaved unsigned running =>
    -- A call either has an effect that the host records, or is rolled back.
    rcases invoke_cases token inv call e with ⟨value, finish, effect, called⟩ | failed
    · rw [called]
      exact .called behaved unsigned running effect
    · rw [failed]
      exact .failed
  | close timestamp _ counted later => exact .closed timestamp counted later
  | outside balances _ gained => exact .received balances gained

theorem ExactStep.steady (step : ExactStep e e') : Steady e e' := by
  -- The record of a call is no part of what stays.
  cases Step.happens step with
  | called exact unsigned _ effect =>
    have steady := effect.steady exact.steady unsigned
    exact ⟨steady.self, steady.wellFormed, steady.counter⟩
  | failed => exact .refl e
  | closed timestamp => exact .clock e _ timestamp
  | received balances => exact .receive e balances _

theorem ExactRun.steady (run : ExactRun e e') : Steady e e' := by
  induction run with
  | refl => exact .refl e
  | tail _ last ih => exact ih.trans (ExactStep.steady last)

theorem ExactRun.wellFormed (fresh : Fresh e) (run : ExactRun e e') : WellFormed e' :=
  (ExactRun.steady run).wellFormed fresh.wellFormed

/-- The host's part of an environment: its clock, and its own records. -/
def Env.host (e : Env) : Nat × Nat × List Entry := (e.sequence, e.timestamp, e.history)

variable {call : Call} {value : Value}

section Host

variable {around : Nat × Nat × List Entry → Nat × Nat × List Entry → Prop}

theorem Registered.host {owner : Address} {entries : List BatchTaskParams} {taskIds : List Nat}
    (refl : ∀ a, around a a) (trans : ∀ a b c, around a b → around b c → around a c)
    (across : Across (fun a b => around a.host b.host) token)
    (registered : Registered token inv owner entries e taskIds e') : around e.host e'.host := by
  -- Between the entries only the token is called.
  induction registered with
  | done => exact refl _
  | next escrowed _ _ ih =>
    refine trans _ _ _ (across escrowed) ?_
    simpa [Env.host] using ih

theorem Effect.host (refl : ∀ a, around a a) (trans : ∀ a b c, around a b → around b c → around a c)
    (across : Across (fun a b => around a.host b.host) token)
    (effect : Effect token inv e call value e') : around e.host e'.host := by
  -- The host's own state changes only while the token is called.
  cases effect with
  | batchRegisterTasks _ _ _ _ _ _ _ _ registered =>
    simpa [Env.host] using registered.host refl trans across
  | sweepFees _ _ _ _ moved | registerTask _ _ _ moved _ | increaseReward _ _ _ _ _ _ moved _
  | cancelTask _ _ _ _ _ _ moved | expireTask _ _ _ _ moved
  | withdrawRewards _ _ _ _ _ _ _ moved | stakeDeposit _ _ _ _ _ moved
  | withdrawStake _ _ _ _ _ moved | slashStake _ _ _ _ _ _ _ _ moved
  | slashUnbond _ _ _ _ _ _ _ _ _ moved | upholdSlashAppeal _ _ _ _ _ moved =>
    simpa [Env.host] using across moved
  | _ => simpa [Env.host] using refl e.host

end Host

/-- A call leaves the host's records alone when its token does. -/
theorem Effect.history_of (across : Across (fun a b => a.host = b.host) token)
    (effect : Effect token inv e call value e') : e'.history = e.history := by
  have same := effect.host (fun _ => rfl) (fun _ _ _ => Eq.trans) across
  exact (congrArg (fun host => host.2.2) same).symm

theorem Effect.history (exact : ExactToken token) (effect : Effect token inv e call value e') :
    e'.history = e.history :=
  effect.history_of (exact.across fun _ _ => rfl)

theorem Effect.clock (exact : ExactToken token) (effect : Effect token inv e call value e') :
    e'.sequence = e.sequence ∧ e'.timestamp = e.timestamp := by
  -- The clock is a part of the host's state, which an exact token leaves alone.
  have same : e.host = e'.host := effect.host (fun _ => rfl) (fun _ _ _ => Eq.trans)
    (exact.across fun _ _ => rfl)
  simp only [Env.host, Prod.mk.injEq] at same
  exact ⟨same.1.symm, same.2.1.symm⟩

/-- Time never runs backwards. -/
theorem ExactStep.clock (step : ExactStep e e') :
    e.sequence ≤ e'.sequence ∧ e.timestamp ≤ e'.timestamp := by
  -- Only the close of a ledger moves the clock.
  cases Step.happens step with
  | called exact _ _ effect =>
    obtain ⟨sequence, timestamp⟩ := effect.clock exact
    exact ⟨sequence.ge, timestamp.ge⟩
  | failed | received => exact ⟨le_rfl, le_rfl⟩
  | closed _ _ later => exact ⟨Nat.le_succ _, later⟩

/-- Nothing that was recorded is ever forgotten. -/
theorem ExactStep.history_keeps (step : ExactStep e e') :
    ∀ entry ∈ e.history, entry ∈ e'.history := by
  intro entry old
  -- Records are only added.
  cases Step.happens step with
  | called exact _ _ effect => exact Env.record_keeps (effect.history exact) entry old
  | failed | closed => exact old
  | received => exact List.mem_cons_of_mem _ old

/-- What every effect makes true of its record, and of the history it is added to, stays true. -/
theorem ExactRun.receipts_after (holds : List Entry → Receipt → Prop) {start : Env}
    (recorded : ∀ {token : Token} {inv : Invocation} {e e' : Env} {call : Call} {value : Value},
      ExactRun start e → ExactToken token → Effect token inv e call value e' →
      holds e.history ⟨e, call, value, e'⟩)
    (fresh : Fresh start) (run : ExactRun start e) {later earlier : List Entry} {receipt : Receipt}
    (placed : e.history = later ++ .call receipt :: earlier) : holds earlier receipt := by
  -- The last record was added to the history of the state before it, and all others are older.
  induction run generalizing later with
  | refl => simp [fresh.history] at placed
  | @tail e _ ran last ih =>
    cases Step.happens last with
    | called exact _ _ effect =>
      rw [Env.record_history, effect.history exact] at placed
      cases later with
      | nil =>
        obtain ⟨rfl, rfl⟩ : _ = receipt ∧ e.history = earlier := by simpa using placed
        exact recorded ran exact effect
      | cons _ later => exact ih (List.cons.inj placed).2
    | failed | closed => exact ih placed
    | received =>
      cases later with
      | nil => simp at placed
      | cons _ later => exact ih (List.cons.inj placed).2

/-- What every effect makes true of its record is true of every record of a run. -/
theorem ExactRun.receipts {holds : Receipt → Prop}
    (recorded : ∀ {token : Token} {inv : Invocation} {e e' : Env} {call : Call} {value : Value},
      ExactToken token → WellFormed e → Effect token inv e call value e' →
      holds ⟨e, call, value, e'⟩) (fresh : Fresh e) (run : ExactRun e e') :
    ∀ receipt, .call receipt ∈ e'.history → holds receipt := by
  -- The record was made when the history was what came before it.
  intro receipt member
  obtain ⟨later, earlier, placed⟩ := List.append_of_mem member
  exact ExactRun.receipts_after (fun _ receipt => holds receipt) (fun ran exact effect =>
    recorded exact (ExactRun.wellFormed fresh ran) effect) fresh run placed

/-- The sum of an amount read off every recorded call. -/
def receiptTotal (amount : Receipt → Int) (history : List Entry) : Int :=
  (history.map fun
    | .call receipt => amount receipt
    | .outside _ => 0).sum

section Totals

variable {amount : Receipt → Int} {history : List Entry}

@[simp] theorem receiptTotal_call (receipt : Receipt) :
    receiptTotal amount (.call receipt :: history) =
      amount receipt + receiptTotal amount history := by
  simp [receiptTotal]

@[simp] theorem receiptTotal_outside (gift : Int) :
    receiptTotal amount (.outside gift :: history) = receiptTotal amount history := by
  simp [receiptTotal]

/-- Nothing was recorded before the first call. -/
@[simp] theorem receiptTotal_nil : receiptTotal amount [] = 0 := rfl

theorem receiptTotal_add (left right : Receipt → Int) :
    receiptTotal (fun receipt => left receipt + right receipt) history =
      receiptTotal left history + receiptTotal right history := by
  induction history with
  | nil => rfl
  | cons entry rest ih =>
    -- Only a call counts, and it counts in both totals.
    cases entry with
    | call receipt => simp only [receiptTotal_call, ih]; omega
    | outside amount => simpa only [receiptTotal_outside] using ih

theorem receiptTotal_sub (left right : Receipt → Int) :
    receiptTotal (fun receipt => left receipt - right receipt) history =
      receiptTotal left history - receiptTotal right history := by
  rw [eq_sub_iff_add_eq, ← receiptTotal_add]
  simp only [Int.sub_add_cancel]

theorem receiptTotal_nonneg (nonneg : ∀ receipt, .call receipt ∈ history → 0 ≤ amount receipt) :
    0 ≤ receiptTotal amount history := by
  apply List.sum_nonneg
  intro counted member
  obtain ⟨entry, recorded, rfl⟩ := List.mem_map.mp member
  -- What arrives from outside counts for nothing.
  cases entry with
  | call receipt => exact nonneg receipt recorded
  | outside amount => exact le_rfl

/-- A total never decreases when every recorded call counts for at least as much. -/
theorem receiptTotal_le {left right : Receipt → Int}
    (le : ∀ receipt, .call receipt ∈ history → left receipt ≤ right receipt) :
    receiptTotal left history ≤ receiptTotal right history := by
  have rest := receiptTotal_nonneg fun receipt member => Int.sub_nonneg_of_le (le receipt member)
  rw [receiptTotal_sub] at rest
  omega

theorem receiptTotal_eq_zero (nonneg : ∀ receipt, .call receipt ∈ history → 0 ≤ amount receipt) :
    receiptTotal amount history = 0 ↔ ∀ receipt, .call receipt ∈ history → amount receipt = 0 := by
  induction history with
  | nil => simp
  | cons entry rest ih =>
    have others (receipt : Receipt) (member : .call receipt ∈ rest) : 0 ≤ amount receipt :=
      nonneg receipt (List.mem_cons_of_mem _ member)
    cases entry with
    | outside gift => simpa using ih others
    | call receipt =>
      -- The head and the rest are both nonnegative, so the sum is zero when both are.
      have here := nonneg receipt List.mem_cons_self
      have later := receiptTotal_nonneg others
      simp only [receiptTotal_call, List.mem_cons, Entry.call.injEq, forall_eq_or_imp,
        ← ih others]
      omega

end Totals

/-- An account whose stock is explained step by step, as long as the token moves exact amounts. -/
structure Conserved (account : Account World Entry) : Prop where
  /-- A call changes the stock by what its record books. -/
  call : ∀ {token : Token} {inv : Invocation} {e e' : Env} {call : Call} {value : Value},
    ExactToken token → WellFormed e → e.self ∉ inv.auths →
      Effect token inv e call value e' →
      (e'.record e call value).unexplained account = e.unexplained account
  /-- The clock does not matter to the stock. -/
  clock : ∀ (w : World) (sequence timestamp : Nat),
    account.stock { w with sequence, timestamp } = account.stock w
  /-- Tokens from outside change the stock by what their record books. -/
  outside : ∀ (w : World) (balances : Balances),
    account.stock { w with balances } =
      account.stock w + account.flow (.outside (balances.of w.self - w.balances.of w.self))

namespace Conserved

variable {account : Account World Entry}

theorem step (conserved : Conserved account) (formed : WellFormed e)
    (step : ExactStep e e') : e'.unexplained account = e.unexplained account := by
  -- A call is explained by its record, and an arrival by its own entry.
  cases Step.happens step with
  | called exact unsigned _ effect => exact conserved.call exact formed unsigned effect
  | failed => rfl
  | closed timestamp =>
    simp [Env.unexplained, Account.unexplained,
      conserved.clock e (e.sequence + 1) timestamp]
  | received balances =>
    simp only [Env.unexplained, Account.unexplained, conserved.outside e balances,
      Account.booked_cons]
    omega

theorem run (conserved : Conserved account) (formed : WellFormed e)
    (run : ExactRun e e') : e'.unexplained account = e.unexplained account := by
  -- The steps are explained one by one.
  induction run with
  | refl => rfl
  | tail ran last ih =>
    exact (conserved.step ((ExactRun.steady ran).wellFormed formed) last).trans ih

theorem explained (conserved : Conserved account) (fresh : Fresh e) (run : ExactRun e e') :
    account.stock e' = account.stock e + account.booked e'.history := by
  have same := conserved.run fresh.wellFormed run
  simp only [Env.unexplained, Account.unexplained, fresh.history, Account.booked_nil] at same
  omega

end Conserved

end KeeperNetwork
