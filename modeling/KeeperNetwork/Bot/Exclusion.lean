import KeeperNetwork.Bot.Accounting
import Mathlib.Data.List.Perm.Basic

/-! The bot works on no task twice at a time, and claims none again that it has not given up. -/

namespace KeeperNetwork.Bot

def Held (status : Option TaskStatus) : Prop := status = some .claimed ∨ status = some .executed
  deriving Decidable

/-- The registry keeps a task from being acquired. -/
def Locked (status : Option TaskStatus) : Prop := status = some .inFlight ∨ Held status

namespace Worker

def Apart (calls : Phase → Prop) (worker other : Worker) : Prop :=
  calls worker.phase → calls other.phase →
    worker.candidate.task.taskId ≠ other.candidate.task.taskId

end Worker

namespace Round

variable (r : Round)

/-- The task whose claim has succeeded by a turn. -/
def wins : Turn → Option Nat
  | .claimSettled worker none => r.active[worker]?.map (·.candidate.task.taskId)
  | _ => none

/--
A turn gives up a task that the bot may have claimed: an unprofitable candidate names it, it has
no proof, the fee of its execution is over the ceiling, or its execution fails.
-/
def abandons : Turn → Bool
  | .next => !r.ceilingTripped && r.queue.head?.any fun candidate =>
      !candidate.profitInfo.profitable && Held (r.registry.lookup candidate.task.taskId)
  | .proofSettled worker now => r.active[worker]?.any fun working =>
      executeTaskOffChain working.candidate.task r.options.simulateExecution now = none ||
        r.ceilingTripped ||
        r.options.maxRoundSpendStroops < r.roundSpend + estimatedExecuteBaseFeeStroops
  | .executeSettled _ error => error.isSome
  | _ => false

end Round

/-- The bot with its registry, over all rounds so far. -/
structure Session where
  round : Round
  /-- The tasks whose claims have succeeded. -/
  won : List Nat

/-- What happens next to the bot. -/
inductive Activity where
  | turn (turn : Turn)
  | round (options : RoundOptions) (tasks : List CandidateTask)

namespace Session

/-- The bot with a new registry, at the start of its first round. -/
def opened (options : RoundOptions) (tasks : List CandidateTask) : Session :=
  ⟨.start options tasks ∅, []⟩

/-- The bot takes a turn of its round, or starts the next one when the last has returned. -/
def advance (s : Session) : Activity → Option Session
  | .turn turn => (s.round.advance turn).map fun round =>
      ⟨round, s.won ++ (s.round.wins turn).toList⟩
  | .round options tasks =>
    if s.round.returned then some ⟨.start options tasks s.round.registry, s.won⟩ else none

/-- Whether a step gives up a task. -/
def abandons (s : Session) : Activity → Bool
  | .turn turn => s.round.abandons turn
  | .round .. => false

def Step (s : Session) (activity : Activity) (s' : Session) : Prop := s.advance activity = some s'

/-- One step of the bot that gives up no task. -/
def FaithfulStep (s : Session) (activity : Activity) (s' : Session) : Prop :=
  s.Step activity s' ∧ s.abandons activity = false

end Session

/-- What the registry says while workers are on their tasks. -/
structure Exclusive (r : Round) : Prop where
  ordered : r.queue.Pairwise fun earlier later =>
    later.profitInfo.profitable = true → earlier.profitInfo.profitable = true
  apart : r.active.Pairwise (Worker.Apart (· ≠ .settled))
  /-- As long as a task may still be acquired, those that are worked on are locked. -/
  locked : r.ceilingTripped = false →
    (∃ candidate ∈ r.queue, candidate.profitInfo.profitable = true) →
    ∀ worker ∈ r.active, worker.phase ≠ .settled →
      Locked (r.registry.lookup worker.candidate.task.taskId)
  claiming : ∀ worker ∈ r.active, worker.phase = .claiming →
    ¬ Held (r.registry.lookup worker.candidate.task.taskId)

/-- A stretch of a worker's work leaves its task in a status, and every other task in its own. -/
structure Marks (r : Round) (taskId : Nat) (outcome : Round × Phase) (status : Option TaskStatus) :
    Prop where
  tripped : outcome.1.ceilingTripped = false → r.ceilingTripped = false
  lookup : ∀ other, outcome.1.registry.lookup other =
    if other = taskId then status else r.registry.lookup other

section Stretches

variable {r : Round} {taskId : Nat} {candidate : Candidate} {phase : Phase}
  {before : Option Phase} {outcome : Round × Phase}

theorem Marks.set {status : TaskStatus}
    (registry : outcome.1.registry = r.registry.insert taskId status)
    (tripped : outcome.1.ceilingTripped = false → r.ceilingTripped = false) :
    Marks r taskId outcome (some status) :=
  ⟨tripped, fun other => by rw [registry, Finmap.lookup_insert_eq]⟩

theorem Marks.same (registry : outcome.1.registry = r.registry)
    (tripped : outcome.1.ceilingTripped = false → r.ceilingTripped = false) :
    Marks r taskId outcome (r.registry.lookup taskId) := by
  refine ⟨tripped, fun other => ?_⟩
  rw [registry]
  split
  · next same => rw [same]
  · rfl

theorem tryAcquire_eq_none {registry : TaskStateRegistry} :
    registry.tryAcquire taskId = none ↔ Locked (registry.lookup taskId) := by
  unfold TaskStateRegistry.tryAcquire Locked Held
  split <;> simp_all

theorem Exit.starts (exit : Exit r candidate none outcome) (intact : r.ceilingTripped = false) :
    ∃ status, Marks r candidate.task.taskId outcome status ∧
      (status = r.registry.lookup candidate.task.taskId ∧ outcome.2 = .settled ∨
        status = some .skipped ∧ outcome.2 = .settled ∧
          (candidate.profitInfo.profitable = false ∨
            ¬ Locked (r.registry.lookup candidate.task.taskId) ∧
              outcome.1.ceilingTripped = true) ∨
        status = some .inFlight ∧ candidate.profitInfo.profitable = true ∧
          ¬ Locked (r.registry.lookup candidate.task.taskId)) := by
  rw [← tryAcquire_eq_none]
  cases exit with
  | skipped _ why =>
    refine ⟨_, .set rfl id, .inr (.inl ⟨rfl, rfl, .inl ((why rfl).resolve_left ?_)⟩)⟩
    simp [intact]
  | locked => exact ⟨_, .same rfl id, .inl ⟨rfl, rfl⟩⟩
  | denied _ free =>
    exact ⟨_, .set rfl fun _ => intact, .inr (.inl ⟨rfl, rfl, .inr ⟨free rfl, rfl⟩⟩)⟩
  | claims profitable acquired _ =>
    exact ⟨_, .set (tryAcquire_eq_some acquired) id,
      .inr (.inr ⟨rfl, profitable, by simp [acquired]⟩)⟩

theorem Exit.resumes (exit : Exit r candidate (some phase) outcome) :
    phase ≠ .settled ∧ ∃ status, Marks r candidate.task.taskId outcome status ∧
      (outcome.2 = .settled ∨ outcome.2 = .proving ∧ status = some .claimed ∨
        outcome.2 = .executing ∧ status = r.registry.lookup candidate.task.taskId) := by
  cases exit with
  | skipped waits => exact ⟨by simpa using waits, _, .set rfl id, .inl rfl⟩
  | denied waits =>
    exact ⟨by simpa using waits, _, .set rfl (fun intact => by cases intact), .inl rfl⟩
  | claimed => exact ⟨by simp, _, .set rfl id, .inr (.inl ⟨rfl, rfl⟩)⟩
  | executes => exact ⟨by simp, _, .same rfl id, .inr (.inr ⟨rfl, rfl⟩)⟩
  | executed => exact ⟨by simp, _, .set rfl id, .inl rfl⟩
  | failed waits => exact ⟨waits, _, .set rfl id, .inl rfl⟩

theorem Exit.acquires (exit : Exit r candidate before outcome)
    (claimed : outcome.1.submitted = r.submitted ++ [.claimTask taskId]) :
    r.registry.tryAcquire taskId ≠ none := by
  cases exit with
  | claims _ acquired =>
    cases List.append_cancel_left claimed
    simp [acquired]
  | executes => cases List.append_cancel_left claimed
  | _ => exact absurd claimed (by simp [Round.skip, Round.mark, Round.tripped, Round.fail,
      Round.afterClaim, Round.afterExecute, Round.chargeSpend])

end Stretches

section Turns

variable {r r' : Round} {turn : Turn} {index taskId : Nat} {candidate : Candidate} {phase : Phase}
  {outcome : Round × Phase}

theorem Worker.Apart.symm {calls : Phase → Prop} {worker other : Worker}
    (apart : worker.Apart calls other) : other.Apart calls worker :=
  fun first second same => apart second first same.symm

/-- A worker that goes on leaves every task to one worker. -/
theorem Exclusive.resume (exclusive : Exclusive r)
    (found : r.active[index]? = some ⟨candidate, phase⟩)
    (exit : Exit r candidate (some phase) outcome) :
    Exclusive (r.resume index candidate outcome) := by
  obtain ⟨works, status, marks, goes⟩ := exit.resumes
  have queue := exit.frame.1
  obtain ⟨within, same⟩ := List.getElem?_eq_some_iff.mp found
  -- The worker is one of those before, and the others are all on other tasks.
  have before := List.getElem_cons_eraseIdx_perm within
  have after := List.set_perm_cons_eraseIdx within ⟨candidate, outcome.2⟩
  rw [same] at before
  obtain ⟨alone, rest⟩ := List.pairwise_cons.mp
    ((before.pairwise_iff Worker.Apart.symm).mpr exclusive.apart)
  have lookup (other : Worker) (member : other ∈ r.active.eraseIdx index)
      (busy : other.phase ≠ .settled) :
      outcome.1.registry.lookup other.candidate.task.taskId =
        r.registry.lookup other.candidate.task.taskId :=
    (marks.lookup _).trans (if_neg (alone other member works busy).symm)
  refine ⟨queue ▸ exclusive.ordered, ?_, fun intact profitable worker member busy => ?_,
    fun worker member claims => ?_⟩
  · refine (after.pairwise_iff Worker.Apart.symm).mpr (List.pairwise_cons.mpr ⟨?_, rest⟩)
    exact fun other member _ => alone other member works
  · have old := exclusive.locked (marks.tripped intact) (queue ▸ profitable)
    rcases List.mem_cons.mp (after.mem_iff.mp member) with rfl | member
    · rw [show (r.resume index candidate outcome).registry.lookup _ = status from
        (marks.lookup _).trans (if_pos rfl)]
      rcases goes with settled | ⟨-, rfl⟩ | ⟨-, rfl⟩
      · exact absurd settled busy
      · exact .inr (.inl rfl)
      · exact old _ (List.mem_of_getElem? found) works
    · exact lookup worker member busy ▸ old _ (List.mem_of_mem_eraseIdx member) busy
  · rcases List.mem_cons.mp (after.mem_iff.mp member) with rfl | member
    · rcases goes with next | ⟨next, -⟩ | ⟨next, -⟩ <;> cases next.symm.trans claims
    · have old := exclusive.claiming _ (List.mem_of_mem_eraseIdx member) claims
      exact lookup worker member (by simp [claims]) ▸ old

/-- Dispatching the next candidate leaves every task to one worker. -/
theorem Exclusive.dispatch (exclusive : Exclusive r) {rest : List Candidate}
    (queued : r.queue = candidate :: rest) (intact : r.ceilingTripped = false) :
    Exclusive (r.dispatch candidate rest) := by
  obtain ⟨first, ordered⟩ := List.pairwise_cons.mp (queued ▸ exclusive.ordered)
  have active : (r.dispatch candidate rest).active =
      r.active ++ [⟨candidate, (r.processCandidate candidate).2⟩] := by
    simp only [Round.dispatch, (processCandidate_exit r candidate).frame.2.1]
  obtain ⟨status, marks, goes⟩ := (processCandidate_exit r candidate).starts intact
  -- While the candidate is profitable, every task that is worked on is locked.
  have old (profitable : candidate.profitInfo.profitable = true) :=
    exclusive.locked intact ⟨candidate, by simp [queued], profitable⟩
  refine ⟨ordered, ?_, fun still more worker member busy => ?_, fun worker member claims => ?_⟩
  · rw [active]
    refine List.pairwise_append.mpr ⟨exclusive.apart, List.pairwise_singleton _ _, ?_⟩
    intro worker member new last busy works same
    obtain rfl := List.mem_singleton.mp last
    rcases goes with ⟨-, settled⟩ | ⟨-, settled, -⟩ | ⟨-, profitable, free⟩
    · exact works settled
    · exact works settled
    · exact free (same ▸ old profitable worker member busy)
  · obtain ⟨later, queued, profit⟩ := more
    have profitable := first later queued profit
    rw [show (r.dispatch candidate rest).registry.lookup _ = _ from marks.lookup _]
    rw [active, List.mem_append, List.mem_singleton] at member
    rcases goes with ⟨same, settled⟩ | ⟨-, -, unprofitable | ⟨-, tripped⟩⟩ | ⟨rfl, -, free⟩
    · rcases member with member | rfl
      · split
        · next named => exact same ▸ named ▸ old profitable worker member busy
        · exact old profitable worker member busy
      · exact absurd settled busy
    · simp [unprofitable] at profitable
    · cases tripped.symm.trans still
    · split
      · exact .inl rfl
      · next apart =>
        rcases member with member | rfl
        · exact old profitable worker member busy
        · exact absurd rfl apart
  · rw [active, List.mem_append, List.mem_singleton] at member
    rw [show (r.dispatch candidate rest).registry.lookup _ = _ from marks.lookup _]
    rcases member with member | rfl
    · have free := exclusive.claiming worker member claims
      split
      · next named =>
        rcases goes with ⟨same, -⟩ | ⟨rfl, -⟩ | ⟨rfl, -⟩
        · rw [same, ← named]
          exact free
        · simp [Held]
        · simp [Held]
      · exact free
    · rcases goes with ⟨-, settled⟩ | ⟨-, settled, -⟩ | ⟨rfl, -⟩
      · cases settled.symm.trans claims
      · cases settled.symm.trans claims
      · simp [Held]

theorem Step.exclusive (step : Step r turn r') (exclusive : Exclusive r) : Exclusive r' := by
  cases step.move with
  | counted queued ready tripped =>
    have ordered := exclusive.ordered
    rw [queued] at ordered
    exact ⟨ordered.of_cons, exclusive.apart, fun intact => absurd (tripped.symm.trans intact) nofun,
      exclusive.claiming⟩
  | dispatched queued ready intact => exact exclusive.dispatch queued intact
  | claimed found => exact exclusive.resume found (afterClaim_exit r _ _)
  | proved found => exact exclusive.resume found (afterProof_exit r _ _)
  | executed found => exact exclusive.resume found (afterExecute_exit r _ _)
  | removed found =>
    exact ⟨exclusive.ordered, exclusive.apart.sublist (List.eraseIdx_sublist _ _),
      fun intact more worker member =>
        exclusive.locked intact more worker (List.mem_of_mem_eraseIdx member),
      fun worker member => exclusive.claiming worker (List.mem_of_mem_eraseIdx member)⟩

theorem start_exclusive (options : RoundOptions) (tasks : List CandidateTask)
    (registry : TaskStateRegistry) : Exclusive (Round.start options tasks registry) := by
  -- The tasks are ranked by what they earn, so the profitable ones come first.
  have ranked : (Round.start options tasks registry).queue.Pairwise fun earlier later =>
    later.profitInfo.netProfit ≤ earlier.profitInfo.netProfit := @start_ranked _ _ registry
  have judged : ∀ candidate ∈ (Round.start options tasks registry).queue,
      candidate.profitInfo.profitable =
        decide (options.minProfitMarginStroops ≤ candidate.profitInfo.netProfit) := by
    intro candidate member
    have evaluated := (List.mem_insertionSort _).mp (List.mem_of_mem_take member)
    obtain ⟨task, -, rfl⟩ := List.mem_map.mp evaluated
    rfl
  refine ⟨ranked.imp_of_mem fun {earlier later} first second below profitable => ?_, .nil,
    fun _ _ _ member => absurd member List.not_mem_nil,
    fun _ member => absurd member List.not_mem_nil⟩
  rw [judged _ first, decide_eq_true_eq]
  rw [judged _ second, decide_eq_true_eq] at profitable
  exact profitable.trans below

end Turns

section Sessions

variable {options : RoundOptions} {tasks : List CandidateTask} {s s' : Session}
  {activities : List Activity} {activity : Activity}

/-- What the registry says of the tasks that the bot has claimed. -/
structure Session.Secure (s : Session) : Prop where
  exclusive : Exclusive s.round
  kept : ∀ taskId ∈ s.won, Held (s.round.registry.lookup taskId)

theorem Session.Step.exclusive (step : s.Step activity s') (exclusive : Exclusive s.round) :
    Exclusive s'.round := by
  cases activity with
  | turn turn =>
    obtain ⟨round, ran, rfl⟩ := Option.map_eq_some_iff.mp step
    exact Bot.Step.exclusive ran exclusive
  | round options tasks =>
    simp only [Session.Step, Session.advance] at step
    split at step
    · cases step
      exact start_exclusive _ _ _
    · cases step

/-- Work that ends after its proof has none, or no fee left for its execution. -/
theorem afterProof_settled {r : Round} {taskId : Nat} {proof : Option String}
    (settled : (r.afterProof taskId proof).2 = .settled) :
    proof = none ∨ r.ceilingTripped = true ∨
      r.options.maxRoundSpendStroops < r.roundSpend + estimatedExecuteBaseFeeStroops := by
  cases proof with
  | none => exact .inl rfl
  | some proof =>
    refine .inr ?_
    by_contra within
    simp only [not_or, Bool.not_eq_true, not_lt] at within
    simp [Round.afterProof, Round.canSpend, within.1, not_lt.mpr within.2] at settled

/-- A session with a faithful node stays secure. -/
theorem Session.FaithfulStep.secure (step : s.FaithfulStep activity s')
    (secure : s.Secure) : s'.Secure := by
  refine ⟨step.1.exclusive secure.exclusive, ?_⟩
  obtain ⟨ran, faithful⟩ := step
  cases activity with
  | round options tasks =>
    simp only [Session.Step, Session.advance] at ran
    split at ran
    · cases ran
      exact secure.kept
    · cases ran
  | turn turn =>
    obtain ⟨round, moved, rfl⟩ := Option.map_eq_some_iff.mp ran
    have kept := secure.kept
    -- A stretch that leaves its task held, if it was, leaves every held task so.
    have stretch {taskId : Nat} {outcome : Round × Phase} {status : Option TaskStatus}
        (marks : Marks s.round taskId outcome status)
        (still : Held (s.round.registry.lookup taskId) → Held status) (other : Nat)
        (member : other ∈ s.won) : Held (outcome.1.registry.lookup other) := by
      rw [marks.lookup]
      split
      · next same => exact still (same ▸ kept other member)
      · exact kept other member
    cases Bot.Step.move moved with
    | counted => simpa [Round.wins, Round.skip] using kept
    | removed => simpa [Round.wins] using kept
    | @dispatched candidate rest queued ready intact =>
      obtain ⟨status, marks, goes⟩ := (processCandidate_exit s.round candidate).starts intact
      intro other member
      refine stretch marks (fun held => ?_) other (by simpa [Round.wins] using member)
      rcases goes with ⟨same, -⟩ | ⟨-, -, unprofitable | ⟨free, -⟩⟩ | ⟨-, -, free⟩
      · exact same ▸ held
      · simp [Session.abandons, Round.abandons, intact, queued, unprofitable, held] at faithful
      · exact absurd (.inr held) free
      · exact absurd (.inr held) free
    | @claimed worker error candidate found =>
      intro other member
      cases error with
      | none =>
        -- The task that is won is marked as claimed.
        have marks : Marks s.round candidate.task.taskId
          (s.round.afterClaim candidate.task.taskId none) (some .claimed) := .set rfl id
        simp only [Round.wins, found, Option.map_some, Option.toList_some, List.mem_append,
          List.mem_singleton] at member
        rcases member with member | rfl
        · exact stretch marks (fun _ => .inl rfl) other member
        · exact .inl ((marks.lookup _).trans (if_pos rfl))
      | some message =>
        have claiming := secure.exclusive.claiming _ (List.mem_of_getElem? found) rfl
        obtain ⟨-, status, marks, -⟩ := (afterClaim_exit s.round candidate (some message)).resumes
        exact stretch marks (absurd · claiming) other (by simpa [Round.wins] using member)
    | proved found =>
      intro other member
      obtain ⟨-, status, marks, goes⟩ := (afterProof_exit s.round _ _).resumes
      refine stretch marks (fun held => ?_) other (by simpa [Round.wins] using member)
      rcases goes with settled | ⟨-, rfl⟩ | ⟨-, rfl⟩
      · have gives := afterProof_settled settled
        simp only [Session.abandons, Round.abandons, found, Option.any_some, Bool.or_eq_false_iff,
          decide_eq_false_iff_not, and_assoc] at faithful
        simp [faithful] at gives
      · exact .inl rfl
      · exact held
    | @executed _ error candidate found =>
      obtain rfl : error = none := by
        simpa [Session.abandons, Round.abandons] using faithful
      intro other member
      have marks : Marks s.round candidate.task.taskId
        (s.round.afterExecute candidate.task.taskId none) (some .executed) := .set rfl id
      exact stretch marks (fun _ => .inr rfl) other (by simpa [Round.wins] using member)

theorem claim_acquires {r r' : Round} {turn : Turn} {taskId : Nat} (step : Step r turn r')
    (claimed : r'.submitted = r.submitted ++ [.claimTask taskId]) :
    r.registry.tryAcquire taskId ≠ none := by
  cases step.move with
  | counted | removed => simp [Round.skip] at claimed
  | @dispatched candidate => exact (processCandidate_exit r candidate).acquires claimed
  | claimed => exact (afterClaim_exit r _ _).acquires claimed
  | proved => exact (afterProof_exit r _ _).acquires claimed
  | executed => exact (afterExecute_exit r _ _).acquires claimed

/--
The bot works on no task twice at a time.

Over any number of rounds with one registry, every candidate list and every interleaving, no two
workers wait for the client with one task. As long as the bot gives up no task that it has
claimed, a task whose claim has succeeded stays locked and is never claimed again.
-/
theorem tasks_worked_once (options : RoundOptions) (tasks : List CandidateTask) :
    (∀ activities s, Trace Session.Step (.opened options tasks) activities s →
      s.round.active.Pairwise (Worker.Apart fun phase => phase = .claiming ∨ phase = .executing)) ∧
    ∀ activities s, Trace Session.FaithfulStep (.opened options tasks) activities s →
      ∀ taskId ∈ s.won, s.round.registry.tryAcquire taskId = none ∧
        ∀ turn r', Step s.round turn r' →
          r'.submitted ≠ s.round.submitted ++ [.claimTask taskId] := by
  refine ⟨fun activities s run => ?_, fun activities s run taskId won => ?_⟩
  · have exclusive : Exclusive s.round := @Trace.preserves _ _ _ _ _ _ (fun s => Exclusive s.round)
      (fun _ _ _ step => step.exclusive) run (start_exclusive _ _ _)
    refine exclusive.apart.imp fun apart first second => apart ?_ ?_
    · rcases first with phase | phase <;> simp [phase]
    · rcases second with phase | phase <;> simp [phase]
  · have secure : s.Secure := run.preserves (fun _ _ _ step => step.secure)
      ⟨start_exclusive _ _ _, nofun⟩
    have locked := tryAcquire_eq_none.mpr (.inr (secure.kept taskId won))
    exact ⟨locked, fun turn r' step claimed => claim_acquires step claimed locked⟩

/-- One worker executes a task, and meets it again in the next round. -/
def executeTwice : List Activity :=
  [.turn .next, .turn (.claimSettled 0 none), .turn (.proofSettled 0 0),
    .turn (.executeSettled 0 none), .turn (.removed 0), .round {} [paidTask 1], .turn .next]

/-- A task that was executed is locked in the next round. -/
theorem tasks_worked_once_executed : ∃ s, Trace Session.FaithfulStep (.opened {} [paidTask 1])
    executeTwice.reverse s ∧ s.won = [1] ∧ s.round.registry.tryAcquire 1 = none ∧
    s.round.submitted = [] := by
  have run := @Trace.of_advance _ _ Session.FaithfulStep (.opened {} [paidTask 1]) Session.advance
    (fun s activity => (s.advance activity).isSome = true ∧ s.abandons activity = false)
    (fun _ _ legal => legal.1) (fun _ _ _ legal ran => ⟨ran, legal.2⟩) executeTwice (by decide)
  exact ⟨_, run, by decide, ((tasks_worked_once {} [paidTask 1]).2 _ _ run 1 (by decide)).1,
    by decide⟩

def unsupportedTask : CandidateTask := { paidTask 1 with taskType := some 5 }

/-- The task has no proof, and is met again in the next round. -/
def skipAndMeetAgain : List Activity :=
  [.turn .next, .turn (.claimSettled 0 none), .turn (.proofSettled 0 0), .turn (.removed 0),
    .round {} [unsupportedTask], .turn .next]

/-- The task is executed, met with a small reward, and met again in the next round. -/
def executeAndSkip : List Activity :=
  [.turn .next, .turn (.claimSettled 0 none), .turn (.proofSettled 0 0),
    .turn (.executeSettled 0 none), .turn (.removed 0), .turn .next, .turn (.removed 0),
    .round {} [paidTask 1], .turn .next]

/--
A task without a proof is claimed a second time in the next round.

So is a task that was executed, when it was listed once more with too small a reward.
-/
theorem claimed_again :
    (∃ s, Trace Session.Step (.opened {} [unsupportedTask]) skipAndMeetAgain.reverse s ∧
      s.won = [1] ∧ s.round.submitted = [.claimTask 1]) ∧
    ∃ s, Trace Session.Step (.opened { maxConcurrency := 1 }
        [paidTask 1, { paidTask 1 with reward := some 0 }]) executeAndSkip.reverse s ∧
      s.won = [1] ∧ s.round.submitted = [.claimTask 1] := by
  have run (start : Session) (script : List Activity) := @Trace.of_advance _ _ Session.Step start
    Session.advance (fun s activity => (s.advance activity).isSome = true)
    (fun _ _ possible => possible) (fun _ _ _ _ ran => ran) script
  exact ⟨⟨_, run _ _ (by decide), by decide, by decide⟩,
    _, run _ _ (by decide), by decide, by decide⟩

end Sessions

end KeeperNetwork.Bot
