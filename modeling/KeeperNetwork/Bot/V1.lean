import KeeperNetwork.Soroban.Ledger
import Mathlib.Data.List.Sort

/-! The first keeper bot: how it evaluates pending tasks and which of them it claims. -/

namespace KeeperNetwork.Bot.V1

open Soroban

/-- A pending task, as its registration announced it. -/
structure PendingTask where
  taskId : Nat
  reward : Int
  deadline : Nat
  deriving DecidableEq, Repr

/-- A pending task with what the registry stores of it. -/
structure EvaluatedTask extends PendingTask where
  taskType : Nat
  calldata : Bytes
  verifier : Option String
  deriving DecidableEq, Repr

/-- What comes of simulating a call of a verifier. -/
inductive Simulation where
  | failed (error : String)
  | succeeded (minResourceFee : Option Int)
  /-- The request threw an error, whose message may speak of a failed simulation or not. -/
  | threw (message : String) (simulationFailed : Bool)
  deriving DecidableEq, Repr

/-- The node, the executors and the strategies that the bot works with. -/
structure Services where
  /-- The stored type, calldata and verifier of a task, absent when reading it throws. -/
  getTask : Nat → Option (Nat × Bytes × Option String)
  /-- Whether a strategy is registered for a verifier. -/
  strategies : String → Bool
  /-- The proof of the off-chain work, absent when there is none. -/
  executeTaskOffChain : EvaluatedTask → Option Bytes
  simulate : EvaluatedTask → Bytes → Simulation

/-- What the operator configured. -/
structure Config where
  simulateExecution : Bool
  minProfitMarginStroops : Int
  maxTasksPerRound : Nat
  dryRun : Bool

/-- What the bot expects to earn with a task. -/
structure ProfitCheck where
  profitable : Bool
  estimatedFee : Int
  netProfit : Int
  deriving DecidableEq, Repr

/-- A task that the bot has evaluated, with its proof. -/
structure Candidate where
  task : EvaluatedTask
  proof : Bytes
  profitCheck : ProfitCheck
  deriving DecidableEq, Repr

variable (services : Services) (config : Config)

/-- The bot knows how to work on a task: only extensions of lifetimes have an executor. -/
def checkVerifierSupport (task : EvaluatedTask) : Bool :=
  match task.verifier with
  | none => task.taskType = 4 || config.simulateExecution
  | some verifier => services.strategies verifier || config.simulateExecution

/-- Weigh the reward of a task against the fees of claiming, executing and verifying it. -/
def estimateTaskProfitability (task : EvaluatedTask) (proof : Bytes) : ProfitCheck :=
  let judge (estimatedVerifierFee : Int) : ProfitCheck :=
    let totalEstimatedFees := 10000 + 50000 + estimatedVerifierFee
    let netProfit := task.reward - totalEstimatedFees
    ⟨config.minProfitMarginStroops ≤ netProfit, totalEstimatedFees, netProfit⟩
  match task.verifier with
  | none => judge 0
  | some _ =>
    match services.simulate task proof with
    | .failed _ | .threw _ true => ⟨false, 0, 0⟩
    | .succeeded minResourceFee => judge (minResourceFee.getD 50000)
    -- Any other error only makes the fee a guess.
    | .threw _ false => judge 50000

/--
Look up a task and do its work off chain.

A task that is late or unknown is passed over, and so is one without an executor or a proof.
-/
def prepareCandidate (nowSeconds : Nat) (task : PendingTask) : Option (EvaluatedTask × Bytes) :=
  if task.deadline ≤ nowSeconds then none
  else do
    let (taskType, calldata, verifier) ← services.getTask task.taskId
    let evaluated : EvaluatedTask := { task with taskType, calldata, verifier }
    if checkVerifierSupport services config evaluated then
      let proof ← services.executeTaskOffChain evaluated
      return (evaluated, proof)
    else none

/-- Evaluate one task that can be worked on. -/
def evaluateCandidate (nowSeconds : Nat) (task : PendingTask) : Option Candidate :=
  (prepareCandidate services config nowSeconds task).map fun (evaluated, proof) =>
    ⟨evaluated, proof, estimateTaskProfitability services config evaluated proof⟩

/-- One candidate comes before another: by net profit, and by id among equals. -/
def Precedes (a b : Candidate) : Prop :=
  b.profitCheck.netProfit < a.profitCheck.netProfit ∨
    b.profitCheck.netProfit = a.profitCheck.netProfit ∧ a.task.taskId ≤ b.task.taskId

instance : DecidableRel Precedes := fun a b => by
  unfold Precedes
  infer_instance

/-- Evaluate the tasks and order those that can be worked on, profitable or not. -/
def evaluateCandidateBatch (tasks : List PendingTask) (nowSeconds : Nat) : List Candidate :=
  (tasks.filterMap (evaluateCandidate services config nowSeconds)).insertionSort Precedes

/-- What the bot has done in a round. -/
structure Summary where
  /-- The candidates for which a claim was submitted, or would have been in a dry run. -/
  claimed : List Candidate
  processed : Nat
  errors : Nat
  deriving DecidableEq, Repr

/--
Claim and execute the candidates in order, until enough of them were processed.

Whether the claims and their executions go through is given in the order in which they are tried.
-/
def claimLoop (succeeds : Nat → Bool) : List Candidate → Summary → Summary
  | [], summary => summary
  | candidate :: rest, summary =>
    if config.maxTasksPerRound ≤ summary.processed then summary
    else
      let claimed := summary.claimed ++ [candidate]
      -- A claim or execution that fails is not counted as processed.
      if config.dryRun || succeeds summary.claimed.length then
        claimLoop succeeds rest { summary with claimed, processed := summary.processed + 1 }
      else claimLoop succeeds rest { summary with claimed, errors := summary.errors + 1 }

/-- The claims of one round of the bot. -/
def keeperLoop (succeeds : Nat → Bool) (pendingTasks : List PendingTask) (nowSeconds : Nat) :
    Summary :=
  claimLoop config succeeds (evaluateCandidateBatch services config pendingTasks nowSeconds)
    ⟨[], 0, 0⟩

/-- The candidate earns the margin after its fees, and its verifier passed the simulation. -/
structure Candidate.Worthwhile (candidate : Candidate) : Prop where
  margin : config.minProfitMarginStroops ≤
    candidate.task.reward - candidate.profitCheck.estimatedFee
  simulated : candidate.task.verifier ≠ none →
    ∃ fee, services.simulate candidate.task candidate.proof = .succeeded fee

/-- The reward covers the fees and the margin, as far as the simulation has told the fees. -/
def Pays (task : EvaluatedTask) (proof : Bytes) : Prop :=
  match task.verifier with
  | none => config.minProfitMarginStroops ≤ task.reward - (10000 + 50000)
  | some _ => ∃ fee : Option Int, services.simulate task proof = .succeeded fee ∧
      config.minProfitMarginStroops ≤ task.reward - (10000 + 50000 + fee.getD 50000)

variable {services config} {tasks : List PendingTask} {nowSeconds : Nat}
  {succeeds : Nat → Bool} {candidates : List Candidate} {summary : Summary}

/-- A loop claims a beginning of its candidates, and stops counting at the limit. -/
theorem claimLoop_frame (within : summary.processed ≤ config.maxTasksPerRound) :
    (claimLoop config succeeds candidates summary).processed ≤ config.maxTasksPerRound ∧
      ∃ taken, taken <+: candidates ∧
        (claimLoop config succeeds candidates summary).claimed = summary.claimed ++ taken := by
  induction candidates generalizing summary with
  | nil => exact ⟨within, [], List.nil_prefix, (List.append_nil _).symm⟩
  | cons candidate rest ih =>
    rw [claimLoop]
    split
    · exact ⟨within, [], List.nil_prefix, (List.append_nil _).symm⟩
    · next room =>
      -- Whether it is counted or not, the candidate is claimed, and the loop goes on.
      have onward {later : Summary} (small : later.processed ≤ config.maxTasksPerRound)
          (more : later.claimed = summary.claimed ++ [candidate]) :
          (claimLoop config succeeds rest later).processed ≤ config.maxTasksPerRound ∧
            ∃ taken, taken <+: candidate :: rest ∧
              (claimLoop config succeeds rest later).claimed = summary.claimed ++ taken := by
        obtain ⟨bounded, taken, start, claimed⟩ := ih small
        refine ⟨bounded, candidate :: taken, List.cons_prefix_cons.mpr ⟨rfl, start⟩, ?_⟩
        rw [claimed, more, List.append_assoc]
        rfl
      split
      · exact onward (show summary.processed + 1 ≤ _ by omega) rfl
      · exact onward (show summary.processed ≤ _ by omega) rfl

/-- While every claim counts, no more of them are made than are counted. -/
theorem claimLoop_counted
    (counted : ∀ turn < config.maxTasksPerRound, config.dryRun || succeeds turn)
    (even : summary.claimed.length = summary.processed)
    (within : summary.processed ≤ config.maxTasksPerRound) :
    (claimLoop config succeeds candidates summary).claimed.length ≤ config.maxTasksPerRound := by
  induction candidates generalizing summary with
  | nil => exact even.trans_le within
  | cons candidate rest ih =>
    rw [claimLoop]
    split
    · exact even.trans_le within
    · next room =>
      rw [if_pos (counted _ (by omega))]
      refine ih ?_ ?_
      · simp [even]
      · dsimp only
        omega

/-- Once a claim does not count, the loop stays within the limit only if the candidates do. -/
theorem claimLoop_uncounted
    (short : (claimLoop config succeeds candidates summary).claimed.length ≤
      config.maxTasksPerRound) (behind : summary.processed ≤ summary.claimed.length)
    (missed : summary.processed < summary.claimed.length ∨
      ∃ turn, summary.claimed.length ≤ turn ∧ turn < config.maxTasksPerRound ∧
        ¬ (config.dryRun || succeeds turn)) :
    summary.claimed.length + candidates.length ≤ config.maxTasksPerRound := by
  induction candidates generalizing summary with
  | nil => exact short
  | cons candidate rest ih =>
    have more : (summary.claimed ++ [candidate]).length = summary.claimed.length + 1 := by simp
    rw [claimLoop] at short
    rw [List.length_cons, Nat.add_comm rest.length, ← Nat.add_assoc, ← more]
    split at short
    · -- The limit is reached with all claims counted, so none is missed later on.
      rcases missed with fewer | ⟨turn, later, inside, -⟩ <;> omega
    · split at short
      · next counts =>
        refine ih short ?_ ?_
        · dsimp only
          omega
        · dsimp only
          rcases missed with fewer | ⟨turn, later, inside, misses⟩
          · omega
          · have other : turn ≠ summary.claimed.length := fun same => misses (same ▸ counts)
            exact .inr ⟨turn, by omega, inside, misses⟩
      · exact ih short (by dsimp only; omega) (.inl (by dsimp only; omega))

/-- The claims of a round are within the limit if the candidates are, or if every claim counts. -/
theorem claimLoop_length :
    (claimLoop config succeeds candidates ⟨[], 0, 0⟩).claimed.length ≤ config.maxTasksPerRound ↔
      candidates.length ≤ config.maxTasksPerRound ∨
        ∀ turn < config.maxTasksPerRound, config.dryRun || succeeds turn := by
  constructor
  · intro short
    by_contra neither
    obtain ⟨many, missed⟩ := not_or.mp neither
    push Not at missed
    obtain ⟨turn, inside, misses⟩ := missed
    have few := claimLoop_uncounted short le_rfl (.inr ⟨turn, Nat.zero_le _, inside, misses⟩)
    exact many (by simpa using few)
  · rintro (few | counted)
    · obtain ⟨-, taken, start, claimed⟩ := @claimLoop_frame config succeeds candidates ⟨[], 0, 0⟩
        (Nat.zero_le _)
      rw [claimed, List.nil_append]
      exact start.length_le.trans few
    · exact claimLoop_counted counted rfl (Nat.zero_le _)

/-- An evaluated task is worthwhile exactly when it pays. -/
theorem worthwhile_iff_pays {task : EvaluatedTask} {proof : Bytes} :
    Candidate.Worthwhile services config
        ⟨task, proof, estimateTaskProfitability services config task proof⟩ ↔
      Pays services config task proof := by
  have split : ∀ candidate, Candidate.Worthwhile services config candidate ↔ _ ∧ _ :=
    fun candidate => ⟨fun worth => ⟨worth.margin, worth.simulated⟩, fun both => ⟨both.1, both.2⟩⟩
  rw [split]
  unfold Pays estimateTaskProfitability
  cases verifier : task.verifier with
  | none => simp
  | some address =>
    -- Without an answer of the simulation there is nothing to show for the verifier.
    cases services.simulate task proof with
    | failed | succeeded => simp
    | threw message simulationFailed => cases simulationFailed <;> simp

/-- Every candidate of a batch is worthwhile exactly when every task it was made from pays. -/
theorem batch_worthwhile_iff :
    (∀ candidate ∈ evaluateCandidateBatch services config tasks nowSeconds,
        Candidate.Worthwhile services config candidate) ↔
      ∀ pair ∈ tasks.filterMap (prepareCandidate services config nowSeconds),
        Pays services config pair.1 pair.2 := by
  simp only [evaluateCandidateBatch, List.mem_insertionSort, evaluateCandidate, List.mem_filterMap,
    Option.map_eq_some_iff]
  constructor
  · rintro all pair ⟨task, pending, prepared⟩
    exact worthwhile_iff_pays.mp (all _ ⟨task, pending, pair, prepared, rfl⟩)
  · rintro all _ ⟨task, pending, pair, prepared, rfl⟩
    exact worthwhile_iff_pays.mpr (all pair ⟨task, pending, prepared⟩)

theorem batch_length :
    (evaluateCandidateBatch services config tasks nowSeconds).length =
      (tasks.filterMap (prepareCandidate services config nowSeconds)).length := by
  have same : evaluateCandidate services config nowSeconds = fun task =>
      (prepareCandidate services config nowSeconds task).map _ := rfl
  rw [evaluateCandidateBatch, List.length_insertionSort, same, ← List.map_filterMap,
    List.length_map]

/-- The batch is ordered by net profit, and by id among equals. -/
theorem batch_ordered :
    (evaluateCandidateBatch services config tasks nowSeconds).Pairwise Precedes := by
  have : IsTrans Candidate Precedes := ⟨fun a b c first second => by
    unfold Precedes at *
    omega⟩
  have : Std.Total Precedes := ⟨fun a b => by
    unfold Precedes
    omega⟩
  exact List.pairwise_insertionSort _ _

/-- Every task extends a lifetime, has a verifier or none, and gets a proof. -/
def sampleServices (verifier : Option String) (outcome : Simulation) : Services where
  getTask _ := some (4, [], verifier)
  strategies _ := true
  executeTaskOffChain _ := some []
  simulate _ _ := outcome

/-- The operator wants to lose nothing, and one task a round. -/
def sampleConfig : Config := ⟨false, 0, 1, false⟩

end KeeperNetwork.Bot.V1
