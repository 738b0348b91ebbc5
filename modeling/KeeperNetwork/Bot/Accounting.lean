import KeeperNetwork.Bot.Spending

/-! What a round counts: every candidate once, at most so many at a time, the best first. -/

namespace KeeperNetwork.Bot

/-- How far a candidate has come. -/
inductive Stage where
  | queued
  | working (phase : Phase)
  | gone

namespace Stage

/-- The stage of a candidate that waits for something, if it was started at all. -/
def of : Option Phase → Stage
  | none => .queued
  | some phase => .working phase

/-- Whether the candidate is still missing from the summary. -/
def uncounted : Stage → Int
  | .gone | .working .settled => 0
  | _ => 1

/-- Whether the candidate is claimed and its execution has not ended. -/
def claimed : Stage → Int
  | .working .proving | .working .executing => 1
  | _ => 0

def turnsLeft : Stage → Int
  | .queued => 5
  | .working .claiming => 4
  | .working .proving => 3
  | .working .executing => 2
  | .working .settled => 1
  | .gone => 0

end Stage

/-- Sums over the counters of a round. -/
structure Tally where
  /-- The candidates that the summary counts as executed, skipped or failed. -/
  settled : Int
  /-- How many more tasks were executed than claimed. -/
  ahead : Int
  /-- What was spent beyond the fees of the counted claims and executions. -/
  surplus : Int

namespace Round

variable (r : Round)

/-- The sum of a weight over all candidates that are queued or in the pool. -/
def weigh (weight : Stage → Int) : Int :=
  (r.queue.map fun _ => weight .queued).sum +
    (r.active.map fun worker => weight (.working worker.phase)).sum

/-- What the counters of a round come to. -/
def tally : Tally where
  settled := r.summary.executed + r.summary.skipped + r.summary.errors.length
  ahead := r.summary.executed - r.summary.claimed
  surplus := r.roundSpend - (r.summary.claimed * estimatedClaimFeeStroops +
    r.summary.executed * estimatedExecuteBaseFeeStroops)

def starts : Turn → Option Candidate
  | .next => if r.ceilingTripped then none else r.queue.head?
  | _ => none

end Round

def StartStep (s : Round × List Candidate) (turn : Turn) (s' : Round × List Candidate) : Prop :=
  Step s.1 turn s'.1 ∧ s'.2 = s.2 ++ (s.1.starts turn).toList

/-- What happens to the counters when a candidate goes on from one stage to another. -/
structure Counts (tally tally' : Tally) (before after : Stage) : Prop where
  settles : tally'.settled + after.uncounted = tally.settled + before.uncounted
  executes : tally'.ahead + after.claimed ≤ tally.ahead + before.claimed
  spends : tally'.surplus = tally.surplus
  onward : after.turnsLeft < before.turnsLeft

section Turns

variable {r r' : Round} {turn : Turn} {candidate : Candidate} {before : Option Phase}
  {outcome : Round × Phase}

theorem Counts.settled {tally tally' : Tally} {before : Option Phase}
    (waits : before ≠ some .settled) (counted : tally'.settled = tally.settled + 1)
    (ahead : tally'.ahead = tally.ahead) (surplus : tally'.surplus = tally.surplus) :
    Counts tally tally' (.of before) (.working .settled) := by
  have none : (Stage.working .settled).uncounted = 0 ∧ (Stage.working .settled).claimed = 0 :=
    ⟨rfl, rfl⟩
  -- Whoever has not settled is not counted yet.
  have one : (Stage.of before).uncounted = 1 ∧ 0 ≤ (Stage.of before).claimed ∧
      1 < (Stage.of before).turnsLeft := by
    rcases before with _ | _ | _ | _ | _ <;> first | decide | contradiction
  exact ⟨by omega, by omega, surplus, one.2.2⟩

theorem Exit.counts (exit : Exit r candidate before outcome) :
    Counts r.tally outcome.1.tally (.of before) (.working outcome.2) := by
  have skips {before : Option Phase} (waits : before ≠ some .settled) :
      Counts r.tally r.skip.tally (.of before) (.working .settled) := by
    refine .settled waits ?_ rfl rfl
    simp only [Round.tally, Round.skip]
    omega
  cases exit with
  | skipped waits | denied waits => exact skips waits
  | locked => exact skips (by simp)
  | claims | executes => exact ⟨rfl, le_rfl, rfl, by simp [Stage.of, Stage.turnsLeft]⟩
  | claimed =>
    refine ⟨rfl, ?_, ?_, show (3 : Int) < 4 by decide⟩ <;>
      simp only [Round.afterClaim, Round.chargeSpend, Round.mark, Round.tally, Stage.of,
        Stage.claimed, estimatedClaimFeeStroops] <;> omega
  | executed =>
    refine ⟨?_, ?_, ?_, show (1 : Int) < 2 by decide⟩ <;>
      simp only [Round.afterExecute, Round.chargeSpend, Round.mark, Round.tally, Stage.of,
        Stage.claimed, Stage.uncounted, estimatedExecuteBaseFeeStroops] <;> omega
  | failed waits =>
    refine .settled (by simpa using waits) ?_ rfl rfl
    simp only [Round.tally, Round.fail, List.length_append, List.length_singleton]
    omega

/-- A turn moves one task from one stage to another, and counts it so. -/
theorem Step.counts (step : Step r turn r') :
    ∃ before after, Counts r.tally r'.tally before after ∧
      ∀ weight : Stage → Int, weight .gone = 0 →
        r'.weigh weight = r.weigh weight - weight before + weight after := by
  have resumed {index : Nat} {candidate : Candidate} {phase : Phase} {outcome : Round × Phase}
      (found : r.active[index]? = some ⟨candidate, phase⟩)
      (exit : Exit r candidate (some phase) outcome) : ∃ before after,
      Counts r.tally (r.resume index candidate outcome).tally before after ∧
        ∀ weight : Stage → Int, weight .gone = 0 → (r.resume index candidate outcome).weigh weight =
          r.weigh weight - weight before + weight after := by
    refine ⟨_, _, exit.counts, fun weight _ => ?_⟩
    have moved := sum_active_set (weight <| .working ·.phase) ⟨candidate, outcome.2⟩ found
    dsimp only at moved
    simp only [Round.weigh, Round.resume, exit.frame.1, Stage.of]
    omega
  cases step.move with
  | @counted candidate _ queued _ tripped =>
    -- A candidate that is only counted never gets into the pool.
    have skips := (@Exit.skipped r candidate none (by simp) fun _ => .inl tripped).counts
    refine ⟨.queued, .gone, ⟨skips.settles, skips.executes, skips.spends, by decide⟩,
      fun weight gone => ?_⟩
    simp only [Round.weigh, queued, List.map_cons, List.sum_cons, gone, Round.skip]
    omega
  | @dispatched candidate rest queued =>
    have exit := processCandidate_exit r candidate
    refine ⟨.queued, _, exit.counts, fun weight gone => ?_⟩
    simp only [Round.weigh, Round.dispatch, queued, exit.frame.2.1, List.map_append, List.map_cons,
      List.sum_append, List.sum_cons, List.map_nil, List.sum_nil]
    omega
  | claimed found => exact resumed found (afterClaim_exit r _ _)
  | proved found => exact resumed found (afterProof_exit r _ _)
  | executed found => exact resumed found (afterExecute_exit r _ _)
  | removed found =>
    refine ⟨.working .settled, .gone, ⟨rfl, le_rfl, rfl, by decide⟩, fun weight gone => ?_⟩
    have left := sum_active_eraseIdx (weight <| .working ·.phase) found
    simp only [Round.weigh, gone, left]
    omega

/-- What holds of the counters of a round over some candidates at every moment. -/
structure Accounted (total : Int) (r : Round) : Prop where
  counted : r.tally.settled + r.weigh Stage.uncounted = total
  executed : r.tally.ahead + r.weigh Stage.claimed ≤ 0
  spent : r.tally.surplus = 0

theorem Step.accounted {total : Int} (step : Step r turn r')
    (accounted : Accounted total r) : Accounted total r' := by
  obtain ⟨before, after, ⟨settles, executes, spends, -⟩, weighs⟩ := step.counts
  obtain ⟨counted, executed, spent⟩ := accounted
  have uncounted := weighs Stage.uncounted rfl
  have claimed := weighs Stage.claimed rfl
  exact ⟨by omega, by omega, spends.trans spent⟩

/-- The pool holds no more workers than it may, and waits only for a worker. -/
structure Pooled (limit : Int) (r : Round) : Prop where
  limited : r.options.maxConcurrency = limit
  most : r.active.length ≤ max 1 limit
  room : r.waiting = false → r.active.length < max 1 limit
  busy : r.waiting = true → r.active ≠ []

theorem Step.pooled {limit : Int} (step : Step r turn r') (pooled : Pooled limit r) :
    Pooled limit r' := by
  obtain ⟨limited, most, room, busy⟩ := pooled
  -- A worker that goes on keeps its place, and the pool waits as before.
  have resumed {index : Nat} {candidate : Candidate} {before : Option Phase}
      {outcome : Round × Phase} (exit : Exit r candidate before outcome) :
      Pooled limit (r.resume index candidate outcome) := by
    obtain ⟨-, -, waiting, options⟩ := exit.frame
    simp only [Round.resume]
    exact ⟨options ▸ limited, by simpa using most, by simpa [waiting] using room,
      by simpa [waiting] using busy⟩
  cases step.move with
  | counted => exact ⟨limited, most, room, busy⟩
  | @dispatched candidate rest queued ready =>
    obtain ⟨-, active, -, options⟩ := (processCandidate_exit r candidate).frame
    have free := room ready
    refine ⟨options ▸ limited, ?_, ?_, by simp [Round.dispatch]⟩
    · simp only [Round.dispatch, active, List.length_append, List.length_singleton]
      omega
    · simp only [Round.dispatch, active, options, limited, List.length_append,
        List.length_singleton, decide_eq_false_iff_not]
      omega
  | claimed => exact resumed (afterClaim_exit r _ _)
  | proved => exact resumed (afterProof_exit r _ _)
  | executed => exact resumed (afterExecute_exit r _ _)
  | removed found =>
    obtain ⟨within, -⟩ := List.getElem?_eq_some_iff.mp found
    have fewer := List.length_eraseIdx_of_lt within
    refine ⟨limited, ?_, fun _ => ?_, fun waits => by cases waits⟩
    · simp only [fewer]
      omega
    · simp only [fewer]
      omega

/-- The candidates, from the first one started to the last one queued, earn less and less. -/
def Ranked (s : Round × List Candidate) : Prop :=
  (s.2 ++ s.1.queue).Pairwise fun earlier later =>
    later.profitInfo.netProfit ≤ earlier.profitInfo.netProfit

theorem StartStep.ranked {s s' : Round × List Candidate} (step : StartStep s turn s')
    (ranked : Ranked s) : Ranked s' := by
  obtain ⟨r, started⟩ := s
  obtain ⟨r', started'⟩ := s'
  obtain ⟨ran, rfl⟩ : Step r turn r' ∧ started' = started ++ (r.starts turn).toList := step
  unfold Ranked at ranked ⊢
  -- A candidate goes from the head of the queue to the end of the started ones, or is left out.
  cases ran.move with
  | counted queued ready tripped =>
    rw [queued] at ranked
    simp only [Round.starts, tripped, if_true, Option.toList_none, List.append_nil]
    exact ranked.sublist ((List.sublist_cons_self _ _).append_left started)
  | dispatched queued ready intact =>
    simpa [Round.starts, intact, queued, Round.dispatch] using ranked
  | claimed => simpa [Round.starts, Round.resume, (afterClaim_exit r _ _).frame] using ranked
  | proved => simpa [Round.starts, Round.resume, (afterProof_exit r _ _).frame] using ranked
  | executed => simpa [Round.starts, Round.resume, (afterExecute_exit r _ _).frame] using ranked
  | removed => simpa [Round.starts] using ranked

theorem Pooled.onward {limit : Int} (pooled : Pooled limit r) (unfinished : r.returned = false) :
    (∃ r', Step r .next r' ∨ Step r (.removed 0) r') ∨
      ∃ worker ∈ r.active, worker.phase ≠ .settled := by
  unfold Step
  match active : r.active with
  | [] =>
    -- Nobody is in the pool, so it does not wait, and some candidate is queued.
    have ready : r.waiting = false := by
      by_contra waits
      exact pooled.busy (by simpa using waits) active
    have more : r.queue ≠ [] := fun empty => by simp [Round.returned, active, empty] at unfinished
    obtain ⟨candidate, rest, queue⟩ := List.exists_cons_of_ne_nil more
    simp only [Round.advance, queue, ready, Bool.false_eq_true, if_false]
    split_ifs <;> exact .inl ⟨_, .inl rfl⟩
  | ⟨candidate, phase⟩ :: rest =>
    by_cases settled : phase = .settled
    · subst settled
      exact .inl ⟨_, .inr (by rw [Round.advance, active]; rfl)⟩
    · exact .inr ⟨_, List.mem_cons_self, settled⟩

end Turns

section Runs

variable {options : RoundOptions} {tasks : List CandidateTask} {registry : TaskStateRegistry}
  {turns : List Turn} {r : Round} {started : List Candidate}

attribute [local simp] Round.start

theorem start_weigh (weight : Stage → Int) :
    (Round.start options tasks registry).weigh weight =
      (Round.start options tasks registry).queue.length * weight .queued := by
  simp [Round.weigh]

theorem start_queue_length : (Round.start options tasks registry).queue.length =
    min (if 0 ≤ options.maxTasksPerRound then options.maxTasksPerRound.toNat
      else (tasks.length + options.maxTasksPerRound).toNat) tasks.length := by
  simp [slice, prioritizeCandidates]

theorem start_accounted : Accounted (Round.start options tasks registry).queue.length
    (Round.start options tasks registry) := by
  refine ⟨?_, ?_, by simp [Round.tally]⟩
  · rw [start_weigh]
    simp [Round.tally, Stage.uncounted]
  · rw [start_weigh]
    simp [Round.tally, Stage.claimed]

theorem start_ranked : Ranked (Round.start options tasks registry, []) := by
  have sorted := List.pairwise_insertionSort
    (fun a b : Candidate => b.profitInfo.netProfit ≤ a.profitInfo.netProfit)
  exact (sorted _).sublist (List.take_sublist _ _)

theorem turns_bounded {s : Round × List Candidate}
    (run : Trace StartStep (Round.start options tasks registry, []) turns s) :
    turns.length + s.1.weigh Stage.turnsLeft ≤ 5 * tasks.length := by
  induction run with
  | nil =>
    have queued := @start_queue_length options tasks registry
    simp only [start_weigh, Stage.turnsLeft, List.length_nil]
    omega
  | snoc _ last ih =>
    obtain ⟨before, after, counts, weighs⟩ := last.1.counts
    have weighed := weighs Stage.turnsLeft rfl
    have onward := counts.onward
    rw [List.length_cons]
    omega

theorem weigh_nonneg {weight : Stage → Int} (nonneg : ∀ stage, 0 ≤ weight stage)
    (r : Round) : 0 ≤ r.weigh weight := by
  have queued : 0 ≤ (r.queue.map fun _ => weight .queued).sum :=
    List.sum_nonneg (List.forall_mem_map.mpr fun _ _ => nonneg _)
  have working : 0 ≤ (r.active.map fun worker => weight (.working worker.phase)).sum :=
    List.sum_nonneg (List.forall_mem_map.mpr fun _ _ => nonneg _)
  exact Int.add_nonneg queued working

/--
What a round counts, for every list of candidates and every interleaving.

At most so many candidates are in the pool, and they are started from the most profitable one on.
The spend is that of the counted claims and executions, and no more is executed than is claimed.
When the round returns it has counted every candidate it took once. It takes a bounded number of
turns, and until it returns it can go on by itself unless a candidate has not settled.
-/
theorem round_accounting
    (run : Trace StartStep (Round.start options tasks registry, []) turns (r, started)) :
    (r.active.length ≤ max 1 options.maxConcurrency ∧
      started.Pairwise fun earlier later =>
        later.profitInfo.netProfit ≤ earlier.profitInfo.netProfit) ∧
    (r.summary.roundSpendStroops = r.summary.claimed * estimatedClaimFeeStroops +
        r.summary.executed * estimatedExecuteBaseFeeStroops ∧
      r.summary.executed ≤ r.summary.claimed) ∧
    (r.returned = true → 0 ≤ options.maxTasksPerRound →
      r.summary.executed + r.summary.skipped + r.summary.errors.length =
        min options.maxTasksPerRound tasks.length) ∧
    turns.length ≤ 5 * tasks.length ∧
    (r.returned = false → (∃ r', Step r .next r' ∨ Step r (.removed 0) r') ∨
      ∃ worker ∈ r.active, worker.phase ≠ .settled) := by
  have queued := @start_queue_length options tasks registry
  have bounded := turns_bounded run
  have claims := weigh_nonneg (show ∀ stage : Stage, 0 ≤ stage.claimed by
    rintro (_ | ⟨_ | _ | _ | _⟩ | _) <;> decide) r
  have left := weigh_nonneg (show ∀ stage : Stage, 0 ≤ stage.turnsLeft by
    rintro (_ | ⟨_ | _ | _ | _⟩ | _) <;> decide) r
  -- The invariants hold at the start and are kept by every turn.
  obtain ⟨booked, ⟨counted, executed, spent⟩, pooled, ranked⟩ :=
    @Trace.preserves _ _ _ _ _ _ (fun s => Booked s.1 ∧
      Accounted (Round.start options tasks registry).queue.length s.1 ∧
      Pooled options.maxConcurrency s.1 ∧ Ranked s)
    (fun _ _ _ step kept => ⟨step.1.booked kept.1, step.1.accounted kept.2.1,
      step.1.pooled kept.2.2.1, step.ranked kept.2.2.2⟩) run
    ⟨⟨rfl, le_rfl⟩, start_accounted, ⟨rfl, by simp, by simp,
      by simp⟩, start_ranked⟩
  dsimp only [Round.tally] at booked counted executed spent pooled ranked bounded
  refine ⟨⟨pooled.most, (List.pairwise_append.mp ranked).1⟩, ⟨?_, by omega⟩,
    fun returned nonneg => ?_, by omega, pooled.onward⟩
  · rw [booked.reported]
    omega
  · -- Nobody is left whom the summary does not count.
    obtain ⟨empty, idle⟩ : r.queue = [] ∧ r.active = [] := by
      simpa [Round.returned] using returned
    have none : r.weigh Stage.uncounted = 0 := by simp [Round.weigh, empty, idle]
    rw [if_pos nonneg] at queued
    omega

theorem exists_starts {start : Round} (run : Trace Step start turns r) :
    ∃ started, Trace StartStep (start, []) turns (r, started) := by
  induction run with
  | nil => exact ⟨[], .nil⟩
  | snoc _ last ih =>
    obtain ⟨started, recorded⟩ := ih
    exact ⟨_, recorded.snoc ⟨last, rfl⟩⟩

/-- The round over two tasks that spends its ceiling counts both of them. -/
theorem round_accounting_two : ∃ r started, Trace StartStep (roundOfTwo 1 60000, [])
    oneByOne.reverse (r, started) ∧ r.returned = true ∧ r.summary.executed = 1 ∧
    (r.summary.executed + r.summary.skipped + r.summary.errors.length : Int) = 2 := by
  have ran := scripted (show Trace.Playable _ _ (roundOfTwo 1 60000) oneByOne by decide)
  obtain ⟨started, run⟩ := exists_starts ran
  have returned : ((roundOfTwo 1 60000).play oneByOne).returned = true := by decide
  exact ⟨_, started, run, returned, by decide,
    (round_accounting run).2.2.1 returned (by decide)⟩

end Runs

end KeeperNetwork.Bot
