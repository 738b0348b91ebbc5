import KeeperNetwork.Lib.FiniteMap
import KeeperNetwork.Lib.Trace
import Mathlib.Data.List.Sort
import Mathlib.Data.List.Infix

/-! One round of the keeper bot: a pool of workers that claim, prove and execute tasks. -/

namespace KeeperNetwork.Bot

def estimatedClaimFeeStroops : Int := 10000

def estimatedExecuteBaseFeeStroops : Int := 50000

def defaultMaxRoundSpendStroops : Int := 5000000

/-- A task the bot may work on, as it was discovered. -/
structure CandidateTask where
  taskId : Nat
  reward : Option Int
  taskType : Option Nat
  taskTypeName : Option String
  deadline : Option Nat
  deriving DecidableEq, Repr

/-- What a task is expected to earn. -/
structure ProfitInfo where
  profitable : Bool
  estimatedFee : Int
  netProfit : Int
  deriving DecidableEq, Repr

def estimateTaskProfitability (task : CandidateTask) (minProfitMargin claimFee executeFee : Int) :
    ProfitInfo :=
  let totalEstimatedFees := claimFee + executeFee
  let netProfit := task.reward.getD 0 - totalEstimatedFees
  { profitable := minProfitMargin ≤ netProfit
    estimatedFee := totalEstimatedFees
    netProfit }

/-- A task with its estimate. -/
structure Candidate where
  task : CandidateTask
  profitInfo : ProfitInfo
  deriving DecidableEq, Repr

/-- Rank tasks by what they are expected to earn, highest first and otherwise as they came. -/
def prioritizeCandidates (tasks : List CandidateTask) (minProfitMargin : Int)
    (skipUnprofitable : Bool) : List Candidate :=
  let evaluated := tasks.map fun task => ⟨task, estimateTaskProfitability task minProfitMargin
    estimatedClaimFeeStroops estimatedExecuteBaseFeeStroops⟩
  let filtered := if skipUnprofitable then evaluated.filter (·.profitInfo.profitable)
    else evaluated
  filtered.insertionSort fun a b => b.profitInfo.netProfit ≤ a.profitInfo.netProfit

def taskTypeNames : Nat → Option String
  | 0 => some "Liquidation"
  | 1 => some "OraclePricePush"
  | 2 => some "FundingRateUpdate"
  | 3 => some "LiquidityRebalance"
  | 4 => some "TtlExtension"
  | 5 => some "Custom"
  | _ => none

/-- Prove that a lifetime was extended, unless the deadline has passed. -/
def ttlExtensionExecutor (task : CandidateTask) (now : Nat) : Option String :=
  -- A deadline of zero counts as none.
  if task.deadline.any fun deadline => deadline ≠ 0 ∧ deadline < now then none
  else some s!"ttl-extension:task:{task.taskId}"

/-- Prove anything. -/
def simulatedExecutor (task : CandidateTask) : String := s!"keeper-proof:task:{task.taskId}"

/-- Do a task's work off chain at some time, and return the proof if there is one. -/
def executeTaskOffChain (task : CandidateTask) (simulateExecution : Bool) (now : Nat) :
    Option String :=
  -- An empty name is replaced like a missing one, and both stand for no executor.
  let taskTypeName := (task.taskTypeName.filter (· ≠ "")).or (task.taskType.bind taskTypeNames)
  if taskTypeName = some "TtlExtension" then ttlExtensionExecutor task now
  else if simulateExecution then some (simulatedExecutor task)
  else none

/-- What the bot knows of a task it has met. -/
inductive TaskStatus where
  | discovered
  | inFlight
  | claimed
  | executed
  | skipped
  | failed
  deriving DecidableEq, Repr

abbrev TaskStateRegistry := Finmap fun _ : Nat => TaskStatus

/-- Lock a task, unless it is being worked on or done. -/
def TaskStateRegistry.tryAcquire (registry : TaskStateRegistry) (taskId : Nat) :
    Option TaskStateRegistry :=
  match registry.lookup taskId with
  | some .inFlight | some .claimed | some .executed => none
  | _ => some (registry.insert taskId .inFlight)

/-- The error means that another keeper was faster. -/
def isLostClaimRaceError (message : String) : Bool :=
  -- An error without a message reads as its name.
  let msg := (if message = "" then "Error" else message).toList.map Char.toLower
  ["already claimed", "already locked", "tasknotpending", "task not pending",
    "taskalreadyclaimed", "lost claim race", "contract error: #2",
    "error(contract, #2)"].any fun text => text.toList <:+: msg

/-- How a round is configured. -/
structure RoundOptions where
  maxConcurrency : Int := 4
  maxTasksPerRound : Int := 50
  maxRoundSpendStroops : Int := defaultMaxRoundSpendStroops
  minProfitMarginStroops : Int := 0
  simulateExecution : Bool := false

/-- What a round reports. -/
structure Summary where
  processed : Nat
  claimed : Nat
  executed : Nat
  skipped : Nat
  errors : List String
  roundSpendStroops : Int
  ceilingReached : Bool
  deriving DecidableEq, Repr

/-- A transaction that the client is asked to submit. -/
inductive Transaction where
  | claimTask (taskId : Nat)
  | executeTask (taskId : Nat) (proof : String)
  deriving DecidableEq, Repr

def Transaction.fee : Transaction → Int
  | .claimTask _ => estimatedClaimFeeStroops
  | .executeTask .. => estimatedExecuteBaseFeeStroops

/-- What a worker is waiting for. -/
inductive Phase where
  | claiming
  | proving
  | executing
  /-- Nothing, since it has returned and only has to be taken out of the pool. -/
  | settled
  deriving DecidableEq, Repr

/-- A candidate that is being processed. -/
structure Worker where
  candidate : Candidate
  phase : Phase
  deriving DecidableEq, Repr

/-- A round at some moment. -/
structure Round where
  options : RoundOptions
  queue : List Candidate
  waiting : Bool
  active : List Worker
  registry : TaskStateRegistry
  summary : Summary
  roundSpend : Int
  ceilingTripped : Bool
  /-- Every transaction the client was asked to submit, oldest first. -/
  submitted : List Transaction

/-- The first items of a list, counted from its end when the number is negative. -/
def slice {α : Type} (items : List α) (stop : Int) : List α :=
  items.take (if 0 ≤ stop then stop.toNat else (items.length + stop).toNat)

def Round.start (options : RoundOptions) (tasks : List CandidateTask)
    (registry : TaskStateRegistry) : Round :=
  { options, registry
    queue := slice (prioritizeCandidates tasks options.minProfitMarginStroops false)
      options.maxTasksPerRound
    waiting := false
    active := []
    summary := ⟨0, 0, 0, 0, [], 0, false⟩
    roundSpend := 0
    ceilingTripped := false
    submitted := [] }

namespace Round

variable (r : Round)

/-- Whether more may be spent, which trips the ceiling when it may not. -/
def canSpend (additionalStroops : Int) : Bool × Round :=
  if r.ceilingTripped then (false, r)
  else if r.options.maxRoundSpendStroops < r.roundSpend + additionalStroops then
    (false, { r with ceilingTripped := true, summary := { r.summary with ceilingReached := true } })
  else (true, r)

def chargeSpend (stroops : Int) : Round :=
  { r with
    roundSpend := r.roundSpend + stroops
    summary := { r.summary with roundSpendStroops := r.roundSpend + stroops } }

def mark (taskId : Nat) (status : TaskStatus) : Round :=
  { r with registry := r.registry.insert taskId status }

def skip : Round := { r with summary := { r.summary with skipped := r.summary.skipped + 1 } }

def fail (taskId : Nat) (message : String) : Round :=
  { r.mark taskId .failed with
    summary := { r.summary with errors := r.summary.errors ++ [message] } }

def submit (transaction : Transaction) : Round :=
  { r with submitted := r.submitted ++ [transaction] }

/-- Process a candidate until it waits for the client, or is done with it. -/
def processCandidate (candidate : Candidate) : Round × Phase :=
  let taskId := candidate.task.taskId
  if r.ceilingTripped then ((r.mark taskId .skipped).skip, .settled)
  else if candidate.profitInfo.profitable = false then
    ((r.mark taskId .skipped).skip, .settled)
  else
    match r.registry.tryAcquire taskId with
    | none => (r.skip, .settled)
    | some registry =>
      -- The estimate has no fee of its own for the claim, so the constant is used.
      match { r with registry }.canSpend estimatedClaimFeeStroops with
      | (false, r) => ((r.mark taskId .skipped).skip, .settled)
      | (true, r) => (r.submit (.claimTask taskId), .claiming)

/-- Go on after the client has answered a claim, with an error or without one. -/
def afterClaim (taskId : Nat) : Option String → Round × Phase
  | none =>
    let r := (r.chargeSpend estimatedClaimFeeStroops).mark taskId .claimed
    ({ r with summary := { r.summary with claimed := r.summary.claimed + 1 } }, .proving)
  | some message =>
    -- The fee of a transaction that fails is not counted as spent.
    if isLostClaimRaceError message then ((r.mark taskId .skipped).skip, .settled)
    else (r.fail taskId message, .settled)

/-- Go on after the off-chain work has produced a proof, or none. -/
def afterProof (taskId : Nat) : Option String → Round × Phase
  | none => ((r.mark taskId .skipped).skip, .settled)
  | some proof =>
    match r.canSpend estimatedExecuteBaseFeeStroops with
    | (false, r) => ((r.mark taskId .skipped).skip, .settled)
    | (true, r) => (r.submit (.executeTask taskId proof), .executing)

/-- Go on after the client has answered an execution, with an error or without one. -/
def afterExecute (taskId : Nat) : Option String → Round × Phase
  | none =>
    let r := (r.chargeSpend estimatedExecuteBaseFeeStroops).mark taskId .executed
    ({ r with
      summary := { r.summary with
        executed := r.summary.executed + 1
        processed := r.summary.processed + 1 } }, .settled)
  | some message => (r.fail taskId message, .settled)

end Round

/-- What happens next in a round. -/
inductive Turn where
  | next
  | claimSettled (worker : Nat) (error : Option String)
  /-- The off-chain work of a worker ends at some time. -/
  | proofSettled (worker : Nat) (now : Nat)
  | executeSettled (worker : Nat) (error : Option String)
  | removed (worker : Nat)
  deriving DecidableEq, Repr

namespace Round

variable (r : Round)

/-- Take a candidate into the pool, which waits when it is full. -/
def dispatch (candidate : Candidate) (rest : List Candidate) : Round :=
  let (r, phase) := r.processCandidate candidate
  let active := r.active ++ [⟨candidate, phase⟩]
  { r with queue := rest, active, waiting := r.options.maxConcurrency ≤ active.length }

def resume (worker : Nat) (candidate : Candidate) (outcome : Round × Phase) : Round :=
  { outcome.1 with active := r.active.set worker ⟨candidate, outcome.2⟩ }

def advance : Turn → Option Round
  | .next =>
    match r.queue with
    | [] => none
    | candidate :: rest =>
      if r.waiting then none
      -- Once the ceiling is tripped, the rest of the queue is only counted.
      else if r.ceilingTripped then some { r.skip with queue := rest }
      else some (r.dispatch candidate rest)
  | .claimSettled worker error =>
    match r.active[worker]? with
    | some ⟨candidate, .claiming⟩ =>
      some (r.resume worker candidate (r.afterClaim candidate.task.taskId error))
    | _ => none
  | .proofSettled worker now =>
    match r.active[worker]? with
    | some ⟨candidate, .proving⟩ =>
      some (r.resume worker candidate (r.afterProof candidate.task.taskId
        (executeTaskOffChain candidate.task r.options.simulateExecution now)))
    | _ => none
  | .executeSettled worker error =>
    match r.active[worker]? with
    | some ⟨candidate, .executing⟩ =>
      some (r.resume worker candidate (r.afterExecute candidate.task.taskId error))
    | _ => none
  | .removed worker =>
    match r.active[worker]? with
    | some ⟨_, .settled⟩ => some { r with active := r.active.eraseIdx worker, waiting := false }
    | _ => none

def returned : Bool := r.queue.isEmpty && r.active.isEmpty

end Round

def Step (r : Round) (turn : Turn) (r' : Round) : Prop := r.advance turn = some r'

/-- The ways in which a turn can go. -/
inductive Move (r : Round) : Turn → Round → Prop
  | counted {candidate : Candidate} {rest : List Candidate} (queued : r.queue = candidate :: rest)
      (ready : r.waiting = false) (tripped : r.ceilingTripped = true) :
      Move r .next { r.skip with queue := rest }
  | dispatched {candidate : Candidate} {rest : List Candidate}
      (queued : r.queue = candidate :: rest) (ready : r.waiting = false)
      (intact : r.ceilingTripped = false) : Move r .next (r.dispatch candidate rest)
  | claimed {worker : Nat} {error : Option String} {candidate : Candidate}
      (found : r.active[worker]? = some ⟨candidate, .claiming⟩) :
      Move r (.claimSettled worker error)
        (r.resume worker candidate (r.afterClaim candidate.task.taskId error))
  | proved {worker now : Nat} {candidate : Candidate}
      (found : r.active[worker]? = some ⟨candidate, .proving⟩) :
      Move r (.proofSettled worker now)
        (r.resume worker candidate (r.afterProof candidate.task.taskId
          (executeTaskOffChain candidate.task r.options.simulateExecution now)))
  | executed {worker : Nat} {error : Option String} {candidate : Candidate}
      (found : r.active[worker]? = some ⟨candidate, .executing⟩) :
      Move r (.executeSettled worker error)
        (r.resume worker candidate (r.afterExecute candidate.task.taskId error))
  | removed {worker : Nat} {candidate : Candidate}
      (found : r.active[worker]? = some ⟨candidate, .settled⟩) :
      Move r (.removed worker) { r with active := r.active.eraseIdx worker, waiting := false }

theorem Step.move {r r' : Round} {turn : Turn} (step : Step r turn r') : Move r turn r' := by
  unfold Step Round.advance at step
  cases turn with
  | next =>
    simp only at step
    split at step
    · cases step
    · next candidate rest queued =>
      split at step
      · cases step
      · next ready =>
        split at step
        · next tripped =>
          cases step
          exact .counted queued (by simpa using ready) tripped
        · next intact =>
          cases step
          exact .dispatched queued (by simpa using ready) (by simpa using intact)
  | claimSettled | proofSettled | executeSettled | removed =>
    simp only at step
    split at step
    · next candidate found =>
      cases step
      constructor
      exact found
    · cases step

def Round.tripped (r : Round) (ceilingReached : Bool) : Round :=
  { r with ceilingTripped := true, summary := { r.summary with ceilingReached } }

/-- The ways in which a stretch of work on a candidate ends, by what it had waited for if at all. -/
inductive Exit (r : Round) (candidate : Candidate) : Option Phase → Round × Phase → Prop
  /-- The ceiling is tripped or the task unprofitable, the race is lost, or there is no proof. -/
  | skipped {before : Option Phase} (waits : before ≠ some .settled)
      (why : before = none → r.ceilingTripped = true ∨ candidate.profitInfo.profitable = false) :
      Exit r candidate before ((r.mark candidate.task.taskId .skipped).skip, .settled)
  | locked (held : r.registry.tryAcquire candidate.task.taskId = none) :
      Exit r candidate none (r.skip, .settled)
  | denied {before : Option Phase} {reached : Bool} (waits : before ≠ some .settled)
      (free : before = none → r.registry.tryAcquire candidate.task.taskId ≠ none) :
      Exit r candidate before
        (((r.tripped reached).mark candidate.task.taskId .skipped).skip, .settled)
  | claims {registry : TaskStateRegistry} (profitable : candidate.profitInfo.profitable = true)
      (acquired : r.registry.tryAcquire candidate.task.taskId = some registry)
      (allowed : r.roundSpend + estimatedClaimFeeStroops ≤ r.options.maxRoundSpendStroops) :
      Exit r candidate none
        ({ r with registry }.submit (.claimTask candidate.task.taskId), .claiming)
  | claimed : Exit r candidate (some .claiming) (r.afterClaim candidate.task.taskId none)
  | executes {proof : String}
      (allowed : r.roundSpend + estimatedExecuteBaseFeeStroops ≤ r.options.maxRoundSpendStroops) :
      Exit r candidate (some .proving)
        (r.submit (.executeTask candidate.task.taskId proof), .executing)
  | executed : Exit r candidate (some .executing) (r.afterExecute candidate.task.taskId none)
  | failed {before : Phase} {message : String} (waits : before ≠ .settled) :
      Exit r candidate (some before) (r.fail candidate.task.taskId message, .settled)

section Exits

variable (r : Round) (candidate : Candidate)

theorem canSpend_cases (fee : Int) :
    r.canSpend fee = (true, r) ∧ r.roundSpend + fee ≤ r.options.maxRoundSpendStroops ∨
      ∃ reached, r.canSpend fee = (false, r.tripped reached) := by
  unfold Round.canSpend
  split
  · next tripped => exact .inr ⟨r.summary.ceilingReached, by simp [Round.tripped, ← tripped]⟩
  · split
    · exact .inr ⟨true, rfl⟩
    · next within => exact .inl ⟨rfl, not_lt.mp within⟩

theorem tryAcquire_eq_some {taskId : Nat} {registry acquired : TaskStateRegistry}
    (ran : registry.tryAcquire taskId = some acquired) :
    acquired = registry.insert taskId .inFlight := by
  unfold TaskStateRegistry.tryAcquire at ran
  split at ran <;> cases ran
  rfl

theorem processCandidate_exit : Exit r candidate none (r.processCandidate candidate) := by
  unfold Round.processCandidate
  dsimp only
  split
  · next tripped => exact .skipped (by simp) fun _ => .inl tripped
  · split
    · next unprofitable => exact .skipped (by simp) fun _ => .inr unprofitable
    · next profitable =>
      split
      · next held => exact .locked held
      · next registry acquired =>
        rcases canSpend_cases { r with registry } estimatedClaimFeeStroops with
          ⟨granted, allowed⟩ | ⟨reached, denied⟩
        · rw [granted]
          exact .claims (by simpa using profitable) acquired allowed
        · rw [denied]
          -- The lock that was just acquired is overwritten.
          have same : (({ r with registry }.tripped reached).mark candidate.task.taskId .skipped) =
              (r.tripped reached).mark candidate.task.taskId .skipped := by
            simp [Round.mark, Round.tripped, tryAcquire_eq_some acquired]
          dsimp only
          rw [same]
          exact .denied (by simp) fun _ => by simp [acquired]

theorem afterClaim_exit (error : Option String) :
    Exit r candidate (some .claiming) (r.afterClaim candidate.task.taskId error) := by
  cases error with
  | none => exact .claimed
  | some message =>
    unfold Round.afterClaim
    dsimp only
    split
    · exact .skipped (by simp) nofun
    · exact .failed (by simp)

/-- Going on after the off-chain work ends in one of these ways. -/
theorem afterProof_exit (proof : Option String) :
    Exit r candidate (some .proving) (r.afterProof candidate.task.taskId proof) := by
  cases proof with
  | none => exact .skipped (by simp) nofun
  | some proof =>
    unfold Round.afterProof
    rcases canSpend_cases r estimatedExecuteBaseFeeStroops with
      ⟨granted, allowed⟩ | ⟨reached, denied⟩
    · rw [granted]
      exact .executes allowed
    · rw [denied]
      exact .denied (by simp) nofun

theorem afterExecute_exit (error : Option String) :
    Exit r candidate (some .executing) (r.afterExecute candidate.task.taskId error) := by
  cases error with
  | none => exact .executed
  | some message => exact .failed (by simp)

variable {r candidate} {before : Option Phase} {outcome : Round × Phase}

/-- A stretch of work touches neither the queue nor the pool. -/
theorem Exit.frame (exit : Exit r candidate before outcome) :
    outcome.1.queue = r.queue ∧ outcome.1.active = r.active ∧ outcome.1.waiting = r.waiting ∧
      outcome.1.options = r.options := by
  cases exit <;> exact ⟨rfl, rfl, rfl, rfl⟩

end Exits

/-- The round after some turns, where one that is not possible changes nothing. -/
def Round.play (r : Round) (turns : List Turn) : Round :=
  turns.foldl (fun r turn => (r.advance turn).getD r) r

theorem scripted {r : Round} {turns : List Turn}
    (playable : Trace.Playable (fun r turn => (r.advance turn).getD r)
      (fun r turn => (r.advance turn).isSome = true) r turns) :
    Trace Step r turns.reverse (r.play turns) :=
  Trace.of_advance (fun _ _ possible => possible) (fun _ _ _ _ ran => ran) turns playable

end KeeperNetwork.Bot
