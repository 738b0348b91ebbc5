import KeeperNetwork.Proofs.TaskMove

/-! Every task is settled at most once, and settling it releases exactly what was escrowed. -/

namespace KeeperNetwork

open Soroban

/-- The moves a task's status can make. -/
inductive TaskStatus.Moves : TaskStatus → TaskStatus → Prop where
  | claim : Moves .pending .claimed
  | takeOver : Moves .claimed .claimed
  | cancelPending : Moves .pending .cancelled
  | cancelClaimed : Moves .claimed .cancelled
  | expirePending : Moves .pending .expired
  | expireClaimed : Moves .claimed .expired
  | execute : Moves .claimed .executed

variable {status : TaskStatus}

theorem TaskStatus.Moves.cancel (unfinished : status.isOpen = true) : status.Moves .cancelled := by
  cases status <;> first | exact .cancelPending | exact .cancelClaimed | simp at unfinished

theorem TaskStatus.Moves.expire (unfinished : status.isOpen = true) : status.Moves .expired := by
  cases status <;> first | exact .expirePending | exact .expireClaimed | simp at unfinished

namespace Receipt

/-- One if the call settles the task. -/
def settled (taskId : Nat) (receipt : Receipt) : Int :=
  if receipt.call.settles taskId then 1 else 0

/-- What a settlement pays to a party. -/
def paidTo (taskId : Nat) (party : Address) (receipt : Receipt) : Int :=
  if receipt.call.settles taskId then
    receipt.after.balances.of party - receipt.before.balances.of party
  else 0

/-- What a keeper gained in withdrawable and pending rewards when the call settled a task. -/
def creditedTo (taskId : Nat) (keeper : Address) (receipt : Receipt) : Int :=
  if receipt.call.settles taskId then
    entitlement receipt.after keeper - entitlement receipt.before keeper
  else 0

/-- What the protocol gained in fees when the call settled a task. -/
def accruedBy (taskId : Nat) (receipt : Receipt) : Int :=
  if receipt.call.settles taskId then feesAccrued receipt.after - feesAccrued receipt.before else 0

end Receipt

/-- What was released for a task, and by how many settlements. -/
@[ext]
structure Release where
  settlements : Int
  paid : Address → Int
  credited : Address → Int
  accrued : Int

namespace Release

def ofHistory (taskId : Nat) (history : List Entry) : Release where
  settlements := receiptTotal (Receipt.settled taskId) history
  paid party := receiptTotal (Receipt.paidTo taskId party) history
  credited keeper := receiptTotal (Receipt.creditedTo taskId keeper) history
  accrued := receiptTotal (Receipt.accruedBy taskId) history

/-- The task was never settled. -/
def nothing : Release := ⟨0, fun _ => 0, fun _ => 0, 0⟩

/-- A release that pays the owner back. -/
def refund (registry owner : Address) (amount : Int) : Release where
  settlements := 1
  paid party := if party = owner then amount else if party = registry then -amount else 0
  credited _ := 0
  accrued := 0

/-- The task was settled once, and a keeper and the protocol shared what it held. -/
def share (keeper : Address) (keeperNet fee : Int) : Release where
  settlements := 1
  paid _ := 0
  credited other := if other = keeper then keeperNet else 0
  accrued := fee

end Release

/-- What was escrowed for a task is still held for it, or was released once and to one side. -/
def Accounted (e : Env) (taskId : Nat) : Prop :=
  match e.tasks.lookup taskId with
  | none => totalEscrowed taskId e.history = 0 ∧ Release.ofHistory taskId e.history = .nothing
  | some task =>
    totalEscrowed taskId e.history = task.reward ∧
    match task.status with
    | .pending | .claimed => Release.ofHistory taskId e.history = .nothing
    | .cancelled | .expired =>
      Release.ofHistory taskId e.history = .refund e.self task.owner task.reward
    | .executed => ∃ keeper keeperNet fee, task.claimer = some keeper ∧
      keeperNet + fee = task.reward ∧
      Release.ofHistory taskId e.history = .share keeper keeperNet fee

variable {token : Token} {inv : Invocation} {start e e' : Env} {call : Call} {value : Value}
  {taskId : Nat} {task : Task}

theorem accounted_open (found : e.tasks.lookup taskId = some task)
    (unfinished : task.status.isOpen = true) :
    Accounted e taskId ↔ totalEscrowed taskId e.history = task.reward ∧
      Release.ofHistory taskId e.history = .nothing := by
  unfold Accounted
  cases status : task.status <;> simp_all

theorem totalEscrowed_record (call : Call) (value : Value) (taskId : Nat)
    (history : e'.history = e.history) :
    totalEscrowed taskId (e'.record e call value).history =
      call.deposited value taskId + totalEscrowed taskId e.history := by
  simp [totalEscrowed, Receipt.escrowed, history]

theorem Release.ofHistory_unsettled (value : Value) (history : e'.history = e.history)
    (unsettled : call.settles taskId = false) :
    Release.ofHistory taskId (e'.record e call value).history =
      Release.ofHistory taskId e.history := by
  simp [Release.ofHistory, Receipt.settled, Receipt.paidTo, Receipt.creditedTo, Receipt.accruedBy,
    unsettled, history]

theorem Release.ofHistory_settled (value : Value) (history : e'.history = e.history)
    (settled : call.settles taskId = true)
    (untouched : Release.ofHistory taskId e.history = .nothing) :
    Release.ofHistory taskId (e'.record e call value).history =
      ⟨1, fun party => e'.balances.of party - e.balances.of party,
        fun keeper => entitlement e' keeper - entitlement e keeper,
        feesAccrued e' - feesAccrued e⟩ := by
  -- Nothing was released before, so the sums are those of this one call.
  simp only [Release.ofHistory, Release.nothing, Release.mk.injEq, funext_iff] at untouched ⊢
  obtain ⟨never, unpaid, uncredited, unaccrued⟩ := untouched
  simp [Receipt.settled, Receipt.paidTo, Receipt.creditedTo, Receipt.accruedBy, settled, history,
    never, unpaid, uncredited, unaccrued]

theorem Release.of_refund {owner : Address} {amount : Int}
    (refund : e.balances.move e.self owner amount = some e'.balances) (foreign : owner ≠ e.self)
    (uncredited : ∀ keeper, entitlement e' keeper = entitlement e keeper)
    (unaccrued : feesAccrued e' = feesAccrued e) :
    (⟨1, fun party => e'.balances.of party - e.balances.of party,
      fun keeper => entitlement e' keeper - entitlement e keeper,
      feesAccrued e' - feesAccrued e⟩ : Release) =
      .refund e.self owner amount := by
  -- The four parts are compared one by one.
  ext party
  · rfl
  · obtain ⟨-, -, after⟩ := Balances.move_eq_some refund
    simp only [Release.refund, after, Balances.moved]
    split_ifs <;> simp_all
  · simp [Release.refund, uncredited]
  · simp [Release.refund, unaccrued]

theorem TaskMove.settled (move : TaskMove e e' call value taskId)
    (found : e.tasks.lookup taskId = some task) (finished : task.status.isOpen = false) :
    e'.tasks.lookup taskId = some task ∧ call.settles taskId = false ∧
      call.deposited value taskId = 0 := by
  -- Every move but none starts from an open task.
  cases move with
  | untouched same unsettled nothing => exact ⟨same.trans found, unsettled, nothing⟩
  | registered absent => simp [absent] at found
  | toppedUp _ stored unfinished | extended _ stored unfinished
  | cancelled _ stored _ unfinished | expired _ stored unfinished =>
    cases found.symm.trans stored
    simp [finished] at unfinished
  | reverified _ stored status | executed _ stored status =>
    cases found.symm.trans stored
    simp [status] at finished
  | claimed _ stored _ claimable =>
    cases found.symm.trans stored
    cases claimable <;> simp_all

theorem TaskMove.moves (move : TaskMove e e' call value taskId)
    (found : e.tasks.lookup taskId = some task) :
    ∃ task', e'.tasks.lookup taskId = some task' ∧
      (task'.status = task.status ∨ task.status.Moves task'.status) := by
  -- Each move is one edge of the diagram, or keeps the status.
  cases move with
  | untouched same => exact ⟨task, same.trans found, .inl rfl⟩
  | registered absent => simp [absent] at found
  | toppedUp _ here _ _ stored | extended _ here _ _ stored | reverified _ here _ stored =>
    cases found.symm.trans here
    exact ⟨_, stored, .inl rfl⟩
  | claimed _ here _ claimable stored =>
    cases found.symm.trans here
    refine ⟨_, stored, .inr ?_⟩
    rcases claimable with ⟨status, -⟩ | ⟨status, -⟩
    · simpa [status] using TaskStatus.Moves.claim
    · simpa [status] using TaskStatus.Moves.takeOver
  | executed _ here status _ _ _ stored =>
    cases found.symm.trans here
    exact ⟨_, stored, .inr (by simpa [status] using TaskStatus.Moves.execute)⟩
  | cancelled _ here _ unfinished _ stored =>
    cases found.symm.trans here
    exact ⟨_, stored, .inr (.cancel unfinished)⟩
  | expired _ here unfinished _ stored =>
    cases found.symm.trans here
    exact ⟨_, stored, .inr (.expire unfinished)⟩

theorem Accounted.deposit {task' : Task} (accounted : Accounted e taskId)
    (found : e.tasks.lookup taskId = some task) (unfinished : task.status.isOpen = true)
    (stored : e'.tasks.lookup taskId = some task') (still : task'.status.isOpen = true)
    (history : e'.history = e.history) (unsettled : call.settles taskId = false)
    (deposited : task'.reward = task.reward + call.deposited value taskId) :
    Accounted (e'.record e call value) taskId := by
  -- While the task is open, what came in is its reward and nothing went out.
  obtain ⟨escrow, nothing⟩ := (accounted_open found unfinished).mp accounted
  have here : (e'.record e call value).tasks.lookup taskId = some task' := stored
  refine (accounted_open here still).mpr ⟨?_, ?_⟩
  · rw [totalEscrowed_record call value taskId history, escrow, deposited, add_comm]
  · rw [Release.ofHistory_unsettled value history unsettled, nothing]

theorem Accounted.refunded (accounted : Accounted e taskId) (formed : WellFormed e)
    (found : e.tasks.lookup taskId = some task) (unfinished : task.status.isOpen = true)
    (refunded : status = .cancelled ∨ status = .expired)
    (stored : e'.tasks.lookup taskId = some { task with status }) (self : e'.self = e.self)
    (history : e'.history = e.history) (settled : call.settles taskId = true)
    (nothing : call.deposited value taskId = 0)
    (refund : e.balances.move e.self task.owner task.reward = some e'.balances)
    (uncredited : ∀ keeper, entitlement e' keeper = entitlement e keeper)
    (unaccrued : feesAccrued e' = feesAccrued e) : Accounted (e'.record e call value) taskId := by
  obtain ⟨escrow, untouched⟩ := (accounted_open found unfinished).mp accounted
  -- The only release is the refund of everything that came in.
  have released := Release.ofHistory_settled value history settled untouched
  rw [Release.of_refund refund (formed.tasks _ _ found).foreign uncredited unaccrued] at released
  have held := totalEscrowed_record call value taskId history
  rw [nothing, zero_add, escrow] at held
  rw [Accounted, Env.record_toWorld, stored]
  rcases refunded with rfl | rfl <;> exact ⟨held, by rw [released, self]⟩

/-- A move of a task keeps its escrow accounted for. -/
theorem TaskMove.accounted (move : TaskMove e e' call value taskId)
    (formed : WellFormed e) (self : e'.self = e.self) (history : e'.history = e.history)
    (accounted : Accounted e taskId) : Accounted (e'.record e call value) taskId := by
  have escrow := totalEscrowed_record call value taskId history
  -- A task is opened, added to while it is open, and settled once.
  cases move with
  | untouched same unsettled nothing =>
    have released := Release.ofHistory_unsettled value history unsettled
    simpa only [Accounted, Env.record_toWorld, same, self, escrow, released, nothing, zero_add]
      using accounted
  | registered absent valid stored unsettled deposit =>
    have released := Release.ofHistory_unsettled value history unsettled
    simp only [Accounted, absent] at accounted
    have here : (e'.record e call value).tasks.lookup taskId = some _ := stored
    rw [accounted_open here rfl, escrow, released, deposit, accounted.1]
    exact ⟨by simp [newTask], accounted.2⟩
  | toppedUp called found unfinished _ stored | extended called found unfinished _ stored =>
    exact accounted.deposit found unfinished stored unfinished history (by rw [called]; rfl)
      (by simp [called, Call.deposited])
  | reverified called found status stored =>
    exact accounted.deposit found (by simp [status]) stored (by simp [status]) history
      (by rw [called]; rfl) (by simp [called, Call.deposited])
  | claimed called found _ claimable stored =>
    refine accounted.deposit found ?_ stored rfl history (by rw [called]; rfl)
      (by simp [called, Call.deposited])
    rcases claimable with ⟨status, -⟩ | ⟨status, -⟩ <;> simp [status]
  | @executed keeper _ task keeperNet fee called found status claimer _ split stored credited
      unpaid accrued =>
    obtain ⟨held, untouched⟩ := (accounted_open found (by simp [status])).mp accounted
    have settled : call.settles taskId = true := by simp [called, Call.settles]
    have released := Release.ofHistory_settled value history settled untouched
    rw [Accounted, Env.record_toWorld, stored]
    refine ⟨?_, keeper, keeperNet, fee, claimer, ?_, released.trans ?_⟩
    · rw [escrow, held]
      simp [called, Call.deposited]
    · have := (splitReward_ok split).2
      simp only
      omega
    · simp [Release.share, unpaid, credited, accrued]
  | cancelled called found _ unfinished _ stored refund uncredited unaccrued =>
    exact accounted.refunded formed found unfinished (.inl rfl) stored self history
      (by simp [called, Call.settles]) (by simp [called, Call.deposited]) refund uncredited
      unaccrued
  | expired called found unfinished _ stored refund uncredited unaccrued =>
    exact accounted.refunded formed found unfinished (.inr rfl) stored self history
      (by simp [called, Call.settles]) (by simp [called, Call.deposited]) refund uncredited
      unaccrued

theorem ExactStep.settled (formed : WellFormed e) (step : ExactStep e e')
    (found : e.tasks.lookup taskId = some task) (finished : task.status.isOpen = false) :
    e'.tasks.lookup taskId = some task := by
  -- Only a call touches a task, and none moves a finished one.
  cases Step.happens step with
  | called exact _ _ effect =>
    exact ((effect.taskMove exact formed taskId).settled found finished).1
  | failed | closed | received => exact found

theorem ExactRun.settled (formed : WellFormed e) (run : ExactRun e e')
    (found : e.tasks.lookup taskId = some task) (finished : task.status.isOpen = false) :
    e'.tasks.lookup taskId = some task := by
  -- What one step keeps, the run keeps.
  induction run with
  | refl => exact found
  | tail ran last ih =>
    exact ExactStep.settled ((ExactRun.steady ran).wellFormed formed) last ih finished

theorem ExactStep.moves (formed : WellFormed e) (step : ExactStep e e')
    (found : e.tasks.lookup taskId = some task) :
    ∃ task', e'.tasks.lookup taskId = some task' ∧
      (task'.status = task.status ∨ task.status.Moves task'.status) := by
  cases Step.happens step with
  | called exact _ _ effect => exact (effect.taskMove exact formed taskId).moves found
  | failed | closed | received => exact ⟨task, found, .inl rfl⟩

theorem ExactStep.begins (formed : WellFormed e) (step : ExactStep e e')
    (absent : e.tasks.lookup taskId = none) (found : e'.tasks.lookup taskId = some task) :
    task.status = .pending := by
  cases Step.happens step with
  | called exact _ _ effect =>
    -- Of all moves only the registration starts without a task.
    cases effect.taskMove exact formed taskId with
    | registered _ _ stored =>
      cases found.symm.trans stored
      rfl
    | untouched same => simp [Env.record_toWorld, same, absent] at found
    | toppedUp _ here | extended _ here | reverified _ here | claimed _ here | executed _ here
    | cancelled _ here | expired _ here => simp [absent] at here
  | failed | closed | received => simp [absent] at found

theorem ExactStep.accounted (formed : WellFormed e) (step : ExactStep e e')
    (accounted : Accounted e taskId) : Accounted e' taskId := by
  have self := (ExactStep.steady step).self
  -- An arrival from outside is not about any task.
  cases Step.happens step with
  | called exact unsigned running effect =>
    exact (effect.taskMove exact formed taskId).accounted formed self (effect.history exact)
      accounted
  | failed | closed => exact accounted
  | received => simpa [Accounted, totalEscrowed, Release.ofHistory] using accounted

theorem ExactRun.accounted (fresh : Fresh start) (run : ExactRun start e) (taskId : Nat) :
    Accounted e taskId := by
  -- At first there is no task and no record.
  induction run with
  | refl =>
    have absent : start.tasks.lookup taskId = none := by
      simp [fresh.unused.1.tasks]
    simp [Accounted, absent, fresh.history, totalEscrowed, Release.ofHistory, Release.nothing]
  | tail ran last ih => exact ExactStep.accounted (ExactRun.wellFormed fresh ran) last ih

/--
A task is settled at most once, and settling it releases exactly what was escrowed.

Its status only moves forward, a settled record never changes again, and what its owner escrowed
is still held, was paid back to the owner, or was shared by its claimer and the protocol.
-/
theorem single_settlement (fresh : Fresh start) (run : ExactRun start e) (taskId : Nat) :
    Accounted e taskId ∧
    (∀ e', ExactStep e e' →
      (∀ task, e.tasks.lookup taskId = none → e'.tasks.lookup taskId = some task →
        task.status = .pending) ∧
      (∀ task, e.tasks.lookup taskId = some task →
        ∃ task', e'.tasks.lookup taskId = some task' ∧
          (task'.status = task.status ∨ task.status.Moves task'.status))) ∧
    (∀ e', ExactRun e e' → ∀ task, e.tasks.lookup taskId = some task →
      task.status.isOpen = false → e'.tasks.lookup taskId = some task) := by
  have formed := ExactRun.wellFormed fresh run
  refine ⟨ExactRun.accounted fresh run taskId, fun e' step => ⟨?_, ?_⟩, ?_⟩
  · exact fun task absent found => ExactStep.begins formed step absent found
  · exact fun task found => ExactStep.moves formed step found
  · exact fun e' later task found finished => ExactRun.settled formed later found finished

/-- A registry with an owner who holds 100 tokens. -/
def beforeTasks : Env :=
  genesis ⟨0⟩ ⟨1⟩ ⟨2⟩ 100 (hundredOf ⟨3⟩) 0 0

theorem beforeTasks_fresh : Fresh beforeTasks := genesis_fresh (by decide)

/-- A task is registered, claimed, topped up and executed. -/
def executedScript : List Turn :=
  [.call [⟨3⟩] (.registerTask ⟨3⟩ sampleParams), .call [⟨4⟩] (.claimTask ⟨4⟩ 1),
    .call [⟨3⟩] (.increaseReward ⟨3⟩ 1 60), .call [⟨4⟩] (.executeTask ⟨4⟩ 1 [])]

/-- After the script the task is accounted for, and its record never changes again. -/
theorem single_settlement_executed :
    ∃ task, (play beforeTasks executedScript).tasks.lookup 1 = some task ∧
      task.status = .executed ∧ Accounted (play beforeTasks executedScript) 1 ∧
      ∀ e', ExactRun (play beforeTasks executedScript) e' → e'.tasks.lookup 1 = some task := by
  have executed : ((play beforeTasks executedScript).tasks.lookup 1).map Task.status =
      some .executed := by decide
  obtain ⟨task, found, status⟩ := Option.map_eq_some_iff.mp executed
  obtain ⟨accounted, -, settled⟩ := single_settlement beforeTasks_fresh
    (Playable.run (by decide : Playable beforeTasks executedScript)) 1
  exact ⟨task, found, status, accounted,
    fun e' later => settled e' later task found (by simp [status])⟩

end KeeperNetwork
