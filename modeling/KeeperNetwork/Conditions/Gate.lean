import KeeperNetwork.Conditions.Contracts
import KeeperNetwork.Lib.Trace
import KeeperNetwork.Proofs.ClaimGate
import KeeperNetwork.Proofs.TaskRecords
import Mathlib.Algebra.Order.Ring.Abs
import Mathlib.Algebra.Order.Ring.Int

/-! A registry whose tasks are gated by the condition contracts that come with it. -/

namespace KeeperNetwork.Conditions

open Soroban

/--
A price of some decimal places is away from a reference of 18 by at least some basis points of it.

Both sides are multiplied by the denominators of the two prices.
-/
def Moved (reference : Nat) (price : Int) (decimals basisPoints : Nat) : Prop :=
  (reference * 10 ^ decimals * basisPoints : Int) ≤
    |price * 10 ^ 18 - reference * 10 ^ decimals| * 10000

/-- What a condition contract documents: the predicate that a claim is to be gated by. -/
def Instance.Documented (oracles : Oracles) (now : Nat) : Instance → Prop
  | .timeWindow window => ∃ start stop, window.start = some start ∧ window.stop = some stop ∧
      start ≤ now ∧ now < stop
  | .priceThreshold condition => ∃ oracle threshold direction price decimals,
      condition.oracle = some oracle ∧ condition.threshold = some threshold ∧
      condition.direction = some direction ∧
      oracles.lastSinglePrice oracle = some (price, decimals) ∧
      if direction then price > threshold else price < threshold
  | .oracleDeviation condition => ∃ config decimals data,
      condition.stored = some config ∧ oracles.decimals config.oracle = some decimals ∧
      oracles.lastprice config.oracle config.asset = some (some data) ∧ 0 < data.price ∧
      data.timestamp ≤ now ∧ now - data.timestamp ≤ config.maxAgeSeconds ∧
      Moved config.referencePrice data.price decimals config.basisPoints

/--
The registry's question reaches the contract, and the price can be normalized.

Only the deviation has the entry point that the registry asks for.
-/
def Instance.Readable (oracles : Oracles) : Instance → Prop
  | .timeWindow _ => False
  | .priceThreshold _ => False
  | .oracleDeviation condition => ∀ config decimals data,
      condition.stored = some config → oracles.decimals config.oracle = some decimals →
      oracles.lastprice config.oracle config.asset = some (some data) →
      decimals ≤ 18 ∧ data.price.toNat * 10 ^ (18 - decimals) ≤ u128Max

section Answers

variable {oracles : Oracles} {now : Nat}

/-- A price is read exactly when it is fresh, positive and can be normalized. -/
theorem readNormalized_eq_some {oracle : Address} {asset : Asset} {maxAgeSeconds : Nat}
    {price : NormalizedPrice} :
    readNormalized oracles now oracle asset maxAgeSeconds = some price ↔
      ∃ decimals data, oracles.decimals oracle = some decimals ∧
        oracles.lastprice oracle asset = some (some data) ∧ decimals ≤ 18 ∧ 0 < data.price ∧
        data.timestamp ≤ now ∧ now - data.timestamp ≤ maxAgeSeconds ∧
        data.price.toNat * 10 ^ (18 - decimals) ≤ u128Max ∧
        price = ⟨data.price.toNat * 10 ^ (18 - decimals), data.timestamp⟩ := by
  -- The reader's checks are the conjuncts, in the order in which it makes them.
  simp only [readNormalized, Option.bind_eq_bind, Option.bind_eq_some_iff, Option.join_eq_some_iff,
    Option.ite_none_left_eq_some, not_lt, not_le, not_or, Option.some.injEq]
  constructor
  · rintro ⟨decimals, known, narrow, data, quoted, positive, ⟨past, fresh⟩, fits, rfl⟩
    exact ⟨decimals, data, known, quoted, narrow, positive, past, fresh, fits, rfl⟩
  · rintro ⟨decimals, data, known, quoted, narrow, positive, past, fresh, fits, rfl⟩
    exact ⟨decimals, known, narrow, data, quoted, positive, ⟨past, fresh⟩, fits, rfl⟩

theorem difference_eq (reference current : Nat) :
    ((if reference ≤ current then current - reference else reference - current : Nat) : Int) =
      |(current : Int) - reference| := by
  -- The contract subtracts the smaller price from the larger one.
  split
  · rw [abs_of_nonneg (by omega)]
    omega
  · rw [abs_of_neg (by omega)]
    omega

theorem deviationMet_iff {reference decimals basisPoints : Nat} {price : Int}
    (narrow : decimals ≤ 18) (positive : 0 < price) :
    deviationMet reference (price.toNat * 10 ^ (18 - decimals)) basisPoints = true ↔
      Moved reference price decimals basisPoints := by
  obtain ⟨amount, rfl⟩ := Int.eq_ofNat_of_zero_le positive.le
  -- Normalizing multiplies by what is missing to 18 decimal places.
  have whole : (amount : Int) * 10 ^ 18 =
      ((amount * 10 ^ (18 - decimals) : Nat) : Int) * 10 ^ decimals := by
    rw [Nat.cast_mul, Nat.cast_pow, Nat.cast_ofNat, mul_assoc, ← pow_add,
      Nat.sub_add_cancel narrow]
  have scale : (0 : Int) < 10 ^ decimals := pow_pos (by decide) _
  unfold deviationMet Moved
  rw [decide_eq_true_iff, Int.toNat_natCast, whole, ← sub_mul, abs_mul, abs_of_pos scale,
    ← difference_eq]
  generalize (if reference ≤ amount * 10 ^ (18 - decimals) then
    amount * 10 ^ (18 - decimals) - reference
    else reference - amount * 10 ^ (18 - decimals)) = difference
  rw [mul_right_comm, mul_right_comm (difference : Int), mul_le_mul_iff_left₀ scale]
  norm_cast

theorem answer_isMet_iff (contract : Instance) (taskId : Nat) :
    contract.answer oracles now (.isMet taskId) = some true ↔
      contract.Documented oracles now ∧ contract.Readable oracles := by
  -- Only the deviation condition can fail to read what its documentation speaks of.
  cases contract with
  | timeWindow | priceThreshold => simp [Instance.answer, Instance.Readable]
  | oracleDeviation condition =>
    simp only [Instance.answer, Instance.Documented, Instance.Readable, Option.some.injEq]
    cases configured : condition.stored with
    | none => simp [OracleDeviation.isMet, configured]
    | some config =>
      constructor
      · -- An answer of yes came from a price that was read.
        intro met
        simp only [OracleDeviation.isMet, configured] at met
        split at met
        · cases met
        · next current read =>
          obtain ⟨decimals, data, known, quoted, narrow, positive, past, fresh, fits, rfl⟩ :=
            readNormalized_eq_some.mp read
          refine ⟨⟨config, decimals, data, rfl, known, quoted, positive, past, fresh,
            (deviationMet_iff narrow positive).mp met⟩, ?_⟩
          rintro _ decimals' data' ⟨⟩ known' quoted'
          cases known.symm.trans known'
          cases quoted.symm.trans quoted'
          exact ⟨narrow, fits⟩
      · -- A readable price passes every check of the reader.
        rintro ⟨⟨_, decimals, data, ⟨⟩, known, quoted, positive, past, fresh, moved⟩, readable⟩
        obtain ⟨narrow, fits⟩ := readable config decimals data rfl known quoted
        have read := readNormalized_eq_some.mpr
          ⟨decimals, data, known, quoted, narrow, positive, past, fresh, fits, rfl⟩
        simp only [OracleDeviation.isMet, configured, read]
        exact (deviationMet_iff narrow positive).mpr moved

end Answers

def Configuration.Keeps (contract : Instance) : Configuration → Prop
  | .threshold oracle limit direction => ∀ condition, contract = .priceThreshold condition →
      condition = ⟨some oracle, some limit, some direction⟩
  | .window .. => True
  | .deviation .. => True

theorem initializeWindow_refused {window : TimeWindow} {start stop : Nat}
    (done : window.initialized.getD false = true) :
    ((TimeWindow.initializeWindow start stop).commit window).2 = window := by
  -- The second initialization fails, so nothing of it stays.
  rcases (TimeWindow.initializeWindow start stop).commit_cases window with
    ⟨_, _, ran, -⟩ | ⟨_, _, -, rolledBack⟩
  · simp [TimeWindow.initializeWindow, done] at ran
  · rw [rolledBack]

theorem initializeDeviation_refused {condition : OracleDeviation} {oracles : Oracles}
    {now maxAgeSeconds basisPoints : Nat} {oracle : Address} {asset : Asset}
    (done : condition.stored.isSome = true) :
    ((OracleDeviation.initializeDeviation oracles now oracle asset maxAgeSeconds
      basisPoints).commit condition).2 = condition := by
  -- The second initialization fails, so nothing of it stays.
  rcases (OracleDeviation.initializeDeviation oracles now oracle asset maxAgeSeconds
    basisPoints).commit_cases condition with ⟨_, _, ran, -⟩ | ⟨_, _, -, rolledBack⟩
  · obtain ⟨config, stored⟩ := Option.isSome_iff_exists.mp done
    simp [OracleDeviation.initializeDeviation, stored] at ran
  · rw [rolledBack]

theorem configure_eq_iff {oracles : Oracles} {now : Nat} {contract : Instance}
    (done : contract.Initialized) (configuration : Configuration) :
    contract.configure oracles now configuration = contract ↔ configuration.Keeps contract := by
  -- Only the threshold condition takes a second configuration.
  cases configuration with
  | window start stop =>
    refine iff_of_true ?_ trivial
    cases contract with
    | timeWindow window =>
      exact congrArg Instance.timeWindow (initializeWindow_refused done)
    | priceThreshold | oracleDeviation => rfl
  | threshold oracle limit direction =>
    cases contract with
    | priceThreshold condition =>
      simp only [Instance.configure, Configuration.Keeps, Instance.priceThreshold.injEq]
      exact ⟨fun same other here => here ▸ same.symm, fun keeps => (keeps condition rfl).symm⟩
    | timeWindow | oracleDeviation =>
      exact iff_of_true rfl fun _ other => by cases other
  | deviation oracle asset maxAgeSeconds basisPoints =>
    refine iff_of_true ?_ trivial
    cases contract with
    | oracleDeviation condition =>
      exact congrArg Instance.oracleDeviation (initializeDeviation_refused done)
    | timeWindow | priceThreshold => rfl

/-- A registry, the condition contracts deployed around it and what the oracles answer. -/
structure System where
  registry : Env
  contracts : Address → Option Instance
  oracles : Oracles

def System.Answers (s : System) (inv : Invocation) : Prop :=
  ∀ address contract, s.contracts address = some contract → ∀ taskId,
    inv.isMet address taskId = contract.answer s.oracles s.registry.timestamp (.isMet taskId)

/-- What can happen to the system. -/
inductive Label where
  | called (call : Call)
  | passed
  | deployed (address : Address)
  | configured (address : Address) (configuration : Configuration)
  | quoted

/-- One thing that happens to the system. -/
inductive System.Step : System → Label → System → Prop
  | called {s : System} {token : Token} {inv : Invocation} {call : Call}
      (detached : Detached token) (unsigned : s.registry.self ∉ inv.auths)
      (running : s.registry.wasm = none) (answers : s.Answers inv) :
      Step s (.called call) { s with registry := (invoke token inv call s.registry).2 }
  | passed {s : System} {later : Env}
      (step : KeeperNetwork.Step (fun _ _ => False) s.registry later) :
      Step s .passed { s with registry := later }
  | deployed {s : System} {address : Address} {contract : Instance}
      (free : s.contracts address = none) (blank : contract.Blank) :
      Step s (.deployed address)
        { s with contracts := Function.update s.contracts address (some contract) }
  | configured {s : System} {address : Address} {contract : Instance}
      (found : s.contracts address = some contract) (configuration : Configuration) :
      Step s (.configured address configuration)
        { s with
          contracts := Function.update s.contracts address
            (some (contract.configure s.oracles s.registry.timestamp configuration)) }
  | quoted {s : System} (oracles : Oracles) : Step s .quoted { s with oracles }

def Label.Spares (address : Address) (contract : Instance) : Label → Prop
  | .configured other configuration => other = address → configuration.Keeps contract
  | _ => True

/-- A task is gated by a contract. -/
structure Gated (s : System) (taskId : Nat) (address : Address) (contract : Instance) : Prop where
  task : ∃ task, s.registry.tasks.lookup taskId = some task ∧ task.condition = some address
  contract : s.contracts address = some contract

section Runs

variable {start s s' : System} {label : Label} {labels prior : List Label} {taskId : Nat}
  {address : Address} {contract : Instance}

theorem System.Step.registry (step : System.Step s label s') :
    DetachedRun s.registry s'.registry := by
  -- Deploying, configuring and quoting are nothing to the registry.
  cases step with
  | called detached unsigned running => exact .single (.call _ _ _ _ detached unsigned running)
  | passed step => exact .single (step.mono fun _ _ never => never.elim)
  | deployed | configured | quoted => exact .refl

theorem registry_run (run : Trace System.Step start labels s) :
    DetachedRun start.registry s.registry := by
  induction run with
  | nil => exact .refl
  | snoc _ last ih => exact ih.trans last.registry

/-- A gate is lost only to a call that changes its contract. -/
theorem Gated.step_iff (fresh : Fresh start.registry)
    (reached : Trace System.Step start prior s) (gated : Gated s taskId address contract)
    (done : contract.Initialized) (step : System.Step s label s') :
    Gated s' taskId address contract ↔ label.Spares address contract := by
  obtain ⟨⟨task, found, condition⟩, here⟩ := gated
  -- Whatever happens, the task asks the same address.
  have asks : ∃ task, s'.registry.tasks.lookup taskId = some task ∧
      task.condition = some address := by
    obtain ⟨task', found', same⟩ :=
      DetachedRun.condition fresh (registry_run reached) step.registry found
    exact ⟨task', found', same.trans condition⟩
  cases step with
  | called | passed | quoted => exact iff_of_true ⟨asks, here⟩ trivial
  | @deployed other _ free =>
    -- Nothing is deployed where a contract is already.
    have apart : address ≠ other := by
      rintro rfl
      cases free.symm.trans here
    exact iff_of_true ⟨asks, (Function.update_of_ne apart _ _).trans here⟩ trivial
  | @configured other configurable stored configuration =>
    by_cases same : other = address
    · subst same
      obtain rfl := Option.some.inj (stored.symm.trans here)
      have now := @configure_eq_iff s.oracles s.registry.timestamp _ done configuration
      constructor
      · intro after _
        have left : Function.update s.contracts other (some (configurable.configure s.oracles
          s.registry.timestamp configuration)) other = some configurable := after.contract
        rw [Function.update_self] at left
        exact now.mp (Option.some.inj left)
      · intro spares
        refine ⟨asks, (Function.update_self _ _ _).trans ?_⟩
        rw [now.mpr (spares rfl)]
    · exact iff_of_true ⟨asks, (Function.update_of_ne (Ne.symm same) _ _).trans here⟩
        fun equal => absurd equal same

theorem Gated.run (fresh : Fresh start.registry) (reached : Trace System.Step start prior s)
    (gated : Gated s taskId address contract) (done : contract.Initialized)
    (run : Trace System.Step s labels s')
    (spares : ∀ label ∈ labels, label.Spares address contract) :
    Gated s' taskId address contract := by
  -- Every step of the run spares the condition.
  induction run with
  | nil => exact gated
  | snoc earlier last ih =>
    have before := ih fun label member => spares label (List.mem_cons_of_mem _ member)
    exact (before.step_iff fresh (reached.append earlier) done last).mpr
      (spares _ List.mem_cons_self)

theorem claim_iff_answer {token : Token} {inv : Invocation} {keeper : Address} {task : Task}
    (gated : task.condition = some address) (here : s.contracts address = some contract)
    (answers : s.Answers inv) (signed : keeper ∈ inv.auths) (admitted : Enrolled s.registry keeper)
    (reputable : Reputable s.registry keeper) (offered : Offered s.registry taskId task) :
    Succeeds token inv (.claimTask keeper taskId) s.registry ↔
      contract.answer s.oracles s.registry.timestamp (.isMet taskId) = some true := by
  rw [succeeds_claimTask_iff, claimTask_returns, ← answers address contract here taskId]
  -- Everything else about the claim is settled, so the condition alone decides.
  constructor
  · rintro ⟨-, -, -, other, offered', met⟩
    obtain rfl := Option.some.inj (offered.found.symm.trans offered'.found)
    exact met address gated
  · intro met
    refine ⟨signed, admitted, reputable, task, offered, ?_⟩
    intro condition attached
    obtain rfl := Option.some.inj (gated.symm.trans attached)
    exact met

/--
The condition contracts gate claims as documented exactly where the registry can read them.

In every reachable state, a claim that passes every other check succeeds exactly when the
documented predicate holds, if and only if that predicate is readable whenever it holds: the
registry's question reaches the deviation only, and its price must be one that can be normalized.
What gates a task stays the same in every step that does not configure a threshold anew, and in
every run of such steps.
-/
theorem conditions_gate_iff {task : Task} (fresh : Fresh start.registry)
    (reached : Trace System.Step start prior s)
    (found : s.registry.tasks.lookup taskId = some task) (gated : task.condition = some address)
    (here : s.contracts address = some contract) (done : contract.Initialized) :
    (∀ token inv keeper, s.Answers inv → keeper ∈ inv.auths →
      Enrolled s.registry keeper → Reputable s.registry keeper →
      Offered s.registry taskId task →
      ((Succeeds token inv (.claimTask keeper taskId) s.registry ↔
          contract.Documented s.oracles s.registry.timestamp) ↔
        (contract.Documented s.oracles s.registry.timestamp → contract.Readable s.oracles))) ∧
      (∀ label s', System.Step s label s' →
        (Gated s' taskId address contract ↔ label.Spares address contract)) ∧
      ∀ labels s', Trace System.Step s labels s' →
        (∀ label ∈ labels, label.Spares address contract) → Gated s' taskId address contract := by
  have now : Gated s taskId address contract := ⟨⟨task, found, gated⟩, here⟩
  refine ⟨?_, ?_, ?_⟩
  · -- The claim succeeds when the documented predicate holds and can be read.
    intro token inv keeper answers signed admitted reputable offered
    rw [claim_iff_answer gated here answers signed admitted reputable offered, answer_isMet_iff]
    exact and_iff_left_iff_imp
  · intro label s' step
    exact now.step_iff fresh reached done step
  · intro labels s' run spares
    exact now.run fresh reached done run spares

end Runs

/-- What the oracles of the scripted runs answer: a price of 105 with no decimal places. -/
def sampleOracles : Oracles where
  decimals _ := some 0
  lastprice _ _ := some (some ⟨105, 20⟩)
  lastSinglePrice _ := some (105, 0)

/-- A deviation of five percent from a price of 100. -/
def sampleDeviation : Instance :=
  .oracleDeviation ⟨some ⟨⟨8⟩, .other "XLM", 60, 500, 100 * 10 ^ 18⟩⟩

def System.signedBy (s : System) (auths : List Address) : Invocation where
  auths
  isMet address taskId := (s.contracts address).bind fun contract =>
    contract.answer s.oracles s.registry.timestamp (.isMet taskId)
  verify _ _ _ _ := none
  freshTtl := 1000

theorem System.signedBy_answers (s : System) (auths : List Address) :
    s.Answers (s.signedBy auths) := by
  intro address contract here taskId
  simp [System.signedBy, here]

/-- A registry without tasks next to a condition contract. -/
def besides (contract : Instance) : System where
  registry := genesis ⟨0⟩ ⟨1⟩ ⟨2⟩ 300 (hundredOf ⟨3⟩) 10 20
  contracts address := if address = ⟨7⟩ then some contract else none
  oracles := sampleOracles

def gatedRegistration : Call := .registerTask ⟨3⟩ { sampleParams with condition := some ⟨7⟩ }

def gatedBy (contract : Instance) : System :=
  { besides contract with
    registry := (invoke exactTransfer ((besides contract).signedBy [⟨3⟩]) gatedRegistration
      (besides contract).registry).2 }

theorem gatedBy_reached (contract : Instance) :
    Trace System.Step (besides contract) [.called gatedRegistration] (gatedBy contract) :=
  .single (.called exactTransfer_exact.detached
    (show (⟨0⟩ : Address) ∉ [(⟨3⟩ : Address)] by decide) rfl (System.signedBy_answers _ _))

theorem besides_fresh (contract : Instance) : Fresh (besides contract).registry :=
  genesis_fresh (by decide)

def gatedTask : Task := newTask ⟨3⟩ { sampleParams with condition := some ⟨7⟩ }

def sampleWindow : Instance := .timeWindow ⟨some 0, some 1000, some true⟩

theorem gatedBy_open {contract : Instance}
    (sample : contract = sampleDeviation ∨ contract = sampleWindow) :
    Enrolled (gatedBy contract).registry.toWorld ⟨4⟩ ∧
      Reputable (gatedBy contract).registry.toWorld ⟨4⟩ ∧
      Offered (gatedBy contract).registry.toWorld 1 gatedTask := by
  unfold Reputable
  rcases sample with rfl | rfl
  · exact ⟨⟨by decide, by decide⟩, by decide, by decide, by decide, by decide⟩
  · exact ⟨⟨by decide, by decide⟩, by decide, by decide, by decide, by decide⟩

/-- A price that has moved by five percent opens a claim that asks for five percent. -/
theorem conditions_gate_deviation :
    sampleDeviation.Documented sampleOracles 20 ∧
      Succeeds exactTransfer ((gatedBy sampleDeviation).signedBy [⟨4⟩]) (.claimTask ⟨4⟩ 1)
        (gatedBy sampleDeviation).registry := by
  have documented : sampleDeviation.Documented sampleOracles 20 :=
    ⟨_, 0, ⟨105, 20⟩, rfl, rfl, rfl, by decide, by decide, by decide, by unfold Moved; decide⟩
  -- The quoted price has no decimals, and scaling it fits.
  have readable : sampleDeviation.Readable sampleOracles := by
    rintro _ _ _ ⟨⟩ ⟨⟩ ⟨⟩
    decide
  obtain ⟨admitted, reputable, offered⟩ := gatedBy_open (.inl rfl)
  obtain ⟨claims, -⟩ := conditions_gate_iff (besides_fresh sampleDeviation)
    (gatedBy_reached sampleDeviation) offered.found rfl
    (show (gatedBy sampleDeviation).contracts ⟨7⟩ = some sampleDeviation from rfl) rfl
  have gate := claims exactTransfer ((gatedBy sampleDeviation).signedBy [⟨4⟩]) ⟨4⟩
    (System.signedBy_answers _ _) (List.mem_singleton.mpr rfl) admitted reputable offered
  exact ⟨documented, (gate.mpr fun _ => readable).mpr documented⟩

def sampleThreshold : Instance := .priceThreshold ⟨some ⟨8⟩, some 100, some true⟩

/--
An open window does not open the claim, since the registry asks for a function it does not have.

A threshold that the price has crossed is moved out of reach by anyone.
-/
theorem conditions_gate_fails :
    (sampleWindow.Initialized ∧ sampleWindow.Documented sampleOracles 20 ∧
      ¬ Succeeds exactTransfer ((gatedBy sampleWindow).signedBy [⟨4⟩]) (.claimTask ⟨4⟩ 1)
        (gatedBy sampleWindow).registry) ∧
      sampleThreshold.Initialized ∧ sampleThreshold.Documented sampleOracles 20 ∧
      ∃ s after, System.Step (gatedBy sampleThreshold)
          (.configured ⟨7⟩ (.threshold ⟨8⟩ 200 true)) s ∧
        s.contracts ⟨7⟩ = some after ∧ ¬ after.Documented sampleOracles 20 := by
  refine ⟨⟨rfl, ⟨0, 1000, rfl, rfl, by decide, by decide⟩, ?_⟩, ⟨rfl, rfl, rfl⟩,
    ⟨⟨8⟩, 100, true, 105, 0, rfl, rfl, rfl, rfl, by decide⟩, ?_⟩
  · -- The window is open, but its contract has no entry point that the registry could ask.
    obtain ⟨admitted, reputable, offered⟩ := gatedBy_open (.inr rfl)
    have here : (gatedBy sampleWindow).contracts ⟨7⟩ = some sampleWindow := rfl
    rw [claim_iff_answer rfl here (System.signedBy_answers _ _) (List.mem_singleton.mpr rfl)
      admitted reputable offered]
    simp [sampleWindow, Instance.answer]
  · -- Anyone can move the threshold from 100 to 200, beyond the price of 105.
    refine ⟨_, .priceThreshold ⟨some ⟨8⟩, some 200, some true⟩, .configured rfl _, rfl, ?_⟩
    rintro ⟨oracle, limit, direction, price, decimals, ⟨⟩, ⟨⟩, ⟨⟩, ⟨⟩, crossed⟩
    revert crossed
    decide

end KeeperNetwork.Conditions
