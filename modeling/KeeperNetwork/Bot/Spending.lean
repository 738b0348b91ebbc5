import KeeperNetwork.Bot.Round

/-! What a round spends: fees that are charged, in flight or lost, and the ceiling on them. -/

namespace KeeperNetwork.Bot

/-- The fee of the transaction that a worker waits for in a phase. -/
def Phase.pending : Phase → Int
  | .claiming => estimatedClaimFeeStroops
  | .executing => estimatedExecuteBaseFeeStroops
  | .proving => 0
  | .settled => 0

/-- The fees of the transactions that workers wait for. -/
def Round.inFlight (r : Round) : Int := (r.active.map fun worker => worker.phase.pending).sum

def Round.submittedFees (r : Round) : Int := (r.submitted.map Transaction.fee).sum

def Turn.failed : Turn → Bool
  | .claimSettled _ (some _) => true
  | .executeSettled _ (some _) => true
  | _ => false

/-- A transaction is submitted only when every earlier one has been charged. -/
def CarefulStep (r : Round) (turn : Turn) (r' : Round) : Prop :=
  Step r turn r' ∧ (r'.submitted ≠ r.submitted → r.submittedFees = r.roundSpend)

/-- What one stretch of a worker's work does to the books, up to where it waits again. -/
structure Stretch (r : Round) (outcome : Round × Phase) (spent : Int) : Prop where
  options : outcome.1.options = r.options
  waiting : outcome.1.waiting = r.waiting
  active : outcome.1.active = r.active
  reported : r.summary.roundSpendStroops = r.roundSpend →
    outcome.1.summary.roundSpendStroops = outcome.1.roundSpend
  spends : outcome.1.roundSpend = r.roundSpend + spent
  /-- It submits nothing, or one transaction that it waits for and that fits what was charged. -/
  submits : outcome.1.submitted = r.submitted ∧ outcome.2.pending = 0 ∨
    ∃ transaction, outcome.1.submitted = r.submitted ++ [transaction] ∧
      outcome.2.pending = transaction.fee ∧ spent = 0 ∧
      r.roundSpend + transaction.fee ≤ r.options.maxRoundSpendStroops

theorem Exit.stretch {r : Round} {candidate : Candidate} {before : Option Phase}
    {outcome : Round × Phase} (exit : Exit r candidate before outcome) :
    Stretch r outcome (outcome.1.roundSpend - r.roundSpend) := by
  have spends : outcome.1.roundSpend = r.roundSpend + (outcome.1.roundSpend - r.roundSpend) := by
    omega
  -- Only a claim or an execution that is allowed submits anything.
  cases exit with
  | claims _ _ allowed | executes allowed =>
    exact ⟨rfl, rfl, rfl, id, spends, .inr ⟨_, rfl, rfl, Int.sub_self _, allowed⟩⟩
  | claimed | executed => exact ⟨rfl, rfl, rfl, fun _ => rfl, spends, .inl ⟨rfl, rfl⟩⟩
  | _ => exact ⟨rfl, rfl, rfl, id, spends, .inl ⟨rfl, rfl⟩⟩

section Turns

variable {r r' : Round} {turn : Turn}

theorem pending_nonneg (phase : Phase) : 0 ≤ phase.pending := by
  cases phase <;> decide

theorem inFlight_nonneg (r : Round) : 0 ≤ r.inFlight :=
  List.sum_nonneg (List.forall_mem_map.mpr fun worker _ => pending_nonneg worker.phase)

variable {index : Nat}

theorem sum_active_set (weight : Worker → Int) {active : List Worker} {old : Worker} (new : Worker)
    (found : active[index]? = some old) :
    ((active.set index new).map weight).sum =
      (active.map weight).sum - weight old + weight new := by
  obtain ⟨inside, rfl⟩ := List.getElem?_eq_some_iff.mp found
  rw [List.map_set, List.sum_set', dif_pos (by rwa [List.length_map]), List.getElem_map]
  omega

theorem sum_active_eraseIdx (weight : Worker → Int) {active : List Worker} {old : Worker}
    (found : active[index]? = some old) :
    ((active.eraseIdx index).map weight).sum = (active.map weight).sum - weight old := by
  obtain ⟨inside, rfl⟩ := List.getElem?_eq_some_iff.mp found
  have split := @List.CommMonoid.add_sum_eraseIdx _ _ (active.map weight) index
    (by rwa [List.length_map])
  rw [List.getElem_map, List.eraseIdx_map] at split
  omega

/--
What a turn does to the books.

A fee that was in flight may be released, and is charged unless the transaction failed. Otherwise
a transaction may be submitted, whose fee fits what was charged before.
-/
structure Books (r : Round) (turn : Turn) (r' : Round) (released : Int) : Prop where
  options : r'.options = r.options
  nonneg : 0 ≤ released
  charged : r'.roundSpend = r.roundSpend + if turn.failed then 0 else released
  reported : r.summary.roundSpendStroops = r.roundSpend →
    r'.summary.roundSpendStroops = r'.roundSpend
  submits : r'.submitted = r.submitted ∧ r'.inFlight = r.inFlight - released ∨
    ∃ transaction, r'.submitted = r.submitted ++ [transaction] ∧ released = 0 ∧
      r'.inFlight = r.inFlight + transaction.fee ∧
      r.roundSpend + transaction.fee ≤ r.options.maxRoundSpendStroops

theorem Books.spent_le {released : Int} (books : Books r turn r' released) :
    r'.roundSpend ≤ r.roundSpend + released := by
  have nonneg := books.nonneg
  rw [books.charged]
  split <;> omega

theorem Stretch.books {candidate : Candidate} {phase : Phase} {outcome : Round × Phase}
    (stretch : Stretch r outcome (if turn.failed then 0 else phase.pending))
    (found : r.active[index]? = some ⟨candidate, phase⟩)
    (idle : phase.pending = 0 ∨ outcome.1.submitted = r.submitted) :
    Books r turn (r.resume index candidate outcome) phase.pending where
  options := stretch.options
  nonneg := pending_nonneg phase
  charged := stretch.spends
  reported := stretch.reported
  submits := by
    have changed : (r.resume index candidate outcome).inFlight =
        r.inFlight - phase.pending + outcome.2.pending := sum_active_set (·.phase.pending) _ found
    rcases stretch.submits with ⟨same, none⟩ | ⟨transaction, sent, fee, -, within⟩
    · refine .inl ⟨same, ?_⟩
      rw [changed, none, Int.add_zero]
    · -- Only a worker that waited for no transaction submits one.
      have free : phase.pending = 0 := by
        rcases idle with free | same
        · exact free
        · rw [same] at sent
          simp at sent
      refine .inr ⟨transaction, sent, free, ?_, within⟩
      rw [changed, free, fee, Int.sub_zero]

section Exits

variable {candidate : Candidate} {before : Option Phase} {outcome : Round × Phase}
  (exit : Exit r candidate before outcome)
include exit

theorem Exit.submits_nothing (waits : before = some .claiming ∨ before = some .executing) :
    outcome.1.submitted = r.submitted := by
  cases exit with
  | claims | executes => simp at waits
  | _ => rfl

theorem Exit.charges_nothing (waits : before = none ∨ before = some .proving) :
    outcome.1.roundSpend - r.roundSpend = 0 := by
  cases exit with
  | claimed | executed => simp at waits
  | _ => exact Int.sub_self _

end Exits

theorem afterClaim_charges (taskId worker : Nat) (error : Option String) :
    (r.afterClaim taskId error).1.roundSpend - r.roundSpend =
      if (Turn.claimSettled worker error).failed then 0 else Phase.claiming.pending := by
  cases error with
  | none => exact add_sub_cancel_left ..
  | some message =>
    unfold Round.afterClaim
    dsimp only
    split <;> exact Int.sub_self _

theorem afterExecute_charges (taskId worker : Nat) (error : Option String) :
    (r.afterExecute taskId error).1.roundSpend - r.roundSpend =
      if (Turn.executeSettled worker error).failed then 0 else Phase.executing.pending := by
  cases error with
  | none => exact add_sub_cancel_left ..
  | some message => exact Int.sub_self _

theorem dispatch_books (candidate : Candidate) (rest : List Candidate) :
    Books r .next (r.dispatch candidate rest) 0 := by
  have exit := processCandidate_exit r candidate
  have stretch := exit.charges_nothing (.inl rfl) ▸ exit.stretch
  -- The new worker is the last one, and the others go on as they were.
  have changed : (r.dispatch candidate rest).inFlight =
      r.inFlight + (r.processCandidate candidate).2.pending := by
    simp only [Round.inFlight, Round.dispatch, List.map_append, List.sum_append, stretch.active,
      List.map_cons, List.map_nil, List.sum_cons, List.sum_nil, Int.add_zero]
  refine ⟨stretch.options, le_rfl, stretch.spends, stretch.reported, ?_⟩
  -- The candidate was not submitted, or its fee was checked first.
  rcases stretch.submits with ⟨same, none⟩ | ⟨transaction, sent, fee, -, within⟩
  · refine .inl ⟨same, ?_⟩
    rw [changed, none, Int.sub_zero, Int.add_zero]
  · refine .inr ⟨transaction, sent, rfl, ?_, within⟩
    rw [changed, fee]

theorem Step.books (step : Step r turn r') : ∃ released, Books r turn r' released := by
  -- Each turn of a round is one stretch of one worker, or none.
  cases step.move with
  | counted =>
    exact ⟨0, rfl, le_rfl, (Int.add_zero _).symm, id, .inl ⟨rfl, (Int.sub_zero _).symm⟩⟩
  | @dispatched candidate rest => exact ⟨0, dispatch_books candidate rest⟩
  | @claimed _ error candidate found =>
    have exit := afterClaim_exit r candidate error
    exact ⟨_, Stretch.books (afterClaim_charges _ _ error ▸ exit.stretch) found
      (.inr (exit.submits_nothing (.inl rfl)))⟩
  | @proved _ now candidate found =>
    have exit := afterProof_exit r candidate
      (executeTaskOffChain candidate.task r.options.simulateExecution now)
    have stretch := exit.charges_nothing (.inr rfl) ▸ exit.stretch
    refine ⟨_, Stretch.books ?_ found (.inl rfl)⟩
    exact stretch
  | @executed _ error candidate found =>
    have exit := afterExecute_exit r candidate error
    exact ⟨_, Stretch.books (afterExecute_charges _ _ error ▸ exit.stretch) found
      (.inr (exit.submits_nothing (.inr rfl)))⟩
  | removed found =>
    have left := sum_active_eraseIdx (·.phase.pending) found
    exact ⟨0, rfl, le_rfl, (Int.add_zero _).symm, id, .inl ⟨rfl, left⟩⟩

/-- Only one worker is in the pool, and none while the pool may take another. -/
structure Lone (r : Round) : Prop where
  one : r.active.length ≤ 1
  free : r.waiting = false → r.active = []

theorem Lone.eq {worker : Worker} (lone : Lone r) (found : r.active[index]? = some worker) :
    index = 0 ∧ r.active = [worker] := by
  have one := lone.one
  -- Any second worker contradicts the limit of one.
  match shape : r.active with
  | [] => simp [shape] at found
  | [only] =>
    rw [shape] at found
    cases index with
    | zero => exact ⟨rfl, by simpa using found⟩
    | succ => simp at found
  | _ :: _ :: _ => simp [shape] at one

/-- With one worker, nothing is in flight when a transaction is submitted. -/
theorem Step.lone (step : Step r turn r') (lone : Lone r) (single : r.options.maxConcurrency ≤ 1) :
    Lone r' ∧ (r'.submitted ≠ r.submitted → r.inFlight = 0) := by
  -- A worker that goes on stays in its place, and the pool waits as before.
  have resumed {index : Nat} {candidate : Candidate} {before : Option Phase}
      {outcome : Round × Phase} (exit : Exit r candidate before outcome) :
      Lone (r.resume index candidate outcome) := by
    have waiting := exit.frame.2.2.1
    refine ⟨?_, fun ready => ?_⟩
    · simp only [Round.resume, List.length_set]
      exact lone.one
    · simp only [Round.resume, lone.free (waiting.symm.trans ready), List.set_nil]
  cases step.move with
  | counted queued ready =>
    exact ⟨⟨lone.one, lone.free⟩, fun changed => absurd rfl changed⟩
  | @dispatched candidate rest queued ready =>
    have empty := lone.free ready
    obtain ⟨-, active, -, options⟩ := (processCandidate_exit r candidate).frame
    refine ⟨⟨?_, fun ready => ?_⟩, fun _ => ?_⟩
    · simp [Round.dispatch, active, empty]
    · -- A pool that has just taken its only worker waits for it.
      simp [Round.dispatch, active, options, empty] at ready
      omega
    · rw [Round.inFlight, empty]
      rfl
  | @claimed _ error candidate =>
    have exit := afterClaim_exit r candidate error
    exact ⟨resumed exit, fun changed => absurd (exit.submits_nothing (.inl rfl)) changed⟩
  | proved found =>
    refine ⟨resumed (afterProof_exit r _ _), fun _ => ?_⟩
    rw [Round.inFlight, (lone.eq found).2]
    rfl
  | @executed _ error candidate =>
    have exit := afterExecute_exit r candidate error
    exact ⟨resumed exit, fun changed => absurd (exit.submits_nothing (.inr rfl)) changed⟩
  | removed found =>
    obtain ⟨rfl, only⟩ := lone.eq found
    refine ⟨⟨?_, fun _ => ?_⟩, fun changed => absurd rfl changed⟩ <;> simp [only]

end Turns

section Runs

variable {options : RoundOptions} {tasks : List CandidateTask} {registry : TaskStateRegistry}
  {turns : List Turn} {r r' : Round} {turn : Turn}

/-- What holds of the books of a round at every moment. -/
structure Booked (r : Round) : Prop where
  reported : r.summary.roundSpendStroops = r.roundSpend
  covered : r.roundSpend + r.inFlight ≤ r.submittedFees

theorem submittedFees_append {transaction : Transaction}
    (sent : r'.submitted = r.submitted ++ [transaction]) :
    r'.submittedFees = r.submittedFees + transaction.fee := by
  simp [Round.submittedFees, sent]

theorem submittedFees_congr (same : r'.submitted = r.submitted) :
    r'.submittedFees = r.submittedFees := by
  rw [Round.submittedFees, same, Round.submittedFees]

theorem Step.booked (step : Step r turn r') (booked : Booked r) : Booked r' := by
  obtain ⟨released, books⟩ := step.books
  have most := books.spent_le
  have covered := booked.covered
  refine ⟨books.reported booked.reported, ?_⟩
  -- What is charged was in flight, and what is submitted is in flight.
  rcases books.submits with ⟨same, flight⟩ | ⟨transaction, sent, none, flight, -⟩
  · rw [submittedFees_congr same]
    omega
  · rw [submittedFees_append sent]
    omega

theorem Step.exact (step : Step r turn r') (succeeded : turn.failed = false)
    (exact : r.roundSpend + r.inFlight = r.submittedFees) :
    r'.roundSpend + r'.inFlight = r'.submittedFees := by
  obtain ⟨released, books⟩ := step.books
  have charged := books.charged
  rw [succeeded] at charged
  -- A fee moves from in flight to spent, or a new one comes in flight.
  rcases books.submits with ⟨same, flight⟩ | ⟨transaction, sent, none, flight, -⟩
  · rw [submittedFees_congr same]
    simp only [Bool.false_eq_true, if_false] at charged
    omega
  · rw [submittedFees_append sent]
    omega

theorem CarefulStep.within (step : CarefulStep r turn r')
    (within : r.submittedFees ≤ r.options.maxRoundSpendStroops) :
    r'.submittedFees ≤ r'.options.maxRoundSpendStroops := by
  obtain ⟨released, books⟩ := step.1.books
  rw [books.options]
  rcases books.submits with ⟨same, -⟩ | ⟨transaction, sent, -, -, fits⟩
  · rw [submittedFees_congr same]
    exact within
  · -- Everything submitted before is charged, and the check counts what is charged.
    have changed : r'.submitted ≠ r.submitted := by
      rw [sent]
      simp
    rw [submittedFees_append sent, step.2 changed]
    exact fits

/-- What is charged and in flight stays below the ceiling in a pool of one worker. -/
structure Sequential (r : Round) : Prop where
  lone : Lone r
  single : r.options.maxConcurrency ≤ 1
  within : r.roundSpend + r.inFlight ≤ r.options.maxRoundSpendStroops

theorem Step.sequential (step : Step r turn r') (sequential : Sequential r) : Sequential r' := by
  obtain ⟨lone, single, within⟩ := sequential
  obtain ⟨lone', free⟩ := step.lone lone single
  obtain ⟨released, books⟩ := step.books
  have most := books.spent_le
  refine ⟨lone', books.options ▸ single, ?_⟩
  rw [books.options]
  rcases books.submits with ⟨-, flight⟩ | ⟨transaction, sent, none, flight, fits⟩
  · omega
  · -- Nothing else is in flight when the transaction is submitted.
    have changed : r'.submitted ≠ r.submitted := by
      rw [sent]
      simp
    have idle := free changed
    omega

theorem Trace.configured (run : Trace Step (Round.start options tasks registry) turns r) :
    r.options = options :=
  @Trace.preserves _ _ _ _ _ _ (fun r => r.options = options) (fun _ _ _ step same => by
    obtain ⟨released, books⟩ := step.books
    exact books.options.trans same) run rfl

theorem Trace.booked (run : Trace Step (Round.start options tasks registry) turns r) : Booked r :=
  run.preserves (fun _ _ _ step booked => step.booked booked) ⟨rfl, le_rfl⟩

theorem Trace.exact (run : Trace Step (Round.start options tasks registry) turns r)
    (succeeded : ∀ turn ∈ turns, turn.failed = false) :
    r.roundSpend + r.inFlight = r.submittedFees := by
  -- Every turn of the run is one that did not fail.
  induction run with
  | nil => rfl
  | snoc _ last ih =>
    have before := ih fun turn member => succeeded turn (List.mem_cons_of_mem _ member)
    exact last.exact (succeeded _ List.mem_cons_self) before

theorem Trace.careful (run : Trace CarefulStep (Round.start options tasks registry) turns r) :
    Trace Step (Round.start options tasks registry) turns r := by
  induction run with
  | nil => exact .nil
  | snoc _ last ih => exact ih.snoc last.1

/--
The ceiling on what a round spends.

For every list of candidates and every interleaving, the fees of all submitted transactions stay
below the ceiling while each is submitted only when every earlier one has been charged. A pool of
one worker whose transactions all succeed is such a run, and in a pool of one worker the spend that
is reported stays below the ceiling whatever fails.
-/
theorem spend_within_ceiling (options : RoundOptions) (tasks : List CandidateTask)
    (registry : TaskStateRegistry) (payable : 0 ≤ options.maxRoundSpendStroops) :
    (∀ turns r, Trace CarefulStep (Round.start options tasks registry) turns r →
      r.submittedFees ≤ options.maxRoundSpendStroops ∧
        r.summary.roundSpendStroops ≤ options.maxRoundSpendStroops) ∧
    (options.maxConcurrency ≤ 1 → ∀ turns r,
      Trace Step (Round.start options tasks registry) turns r →
      r.summary.roundSpendStroops ≤ options.maxRoundSpendStroops ∧
        ((∀ turn ∈ turns, turn.failed = false) →
          r.submittedFees ≤ options.maxRoundSpendStroops)) := by
  refine ⟨fun turns r run => ?_, fun single turns r run => ?_⟩
  · -- The careful round checks before each submission what is spent and in flight.
    have within : r.submittedFees ≤ r.options.maxRoundSpendStroops :=
      @Trace.preserves _ _ _ _ _ _
        (fun r => r.submittedFees ≤ r.options.maxRoundSpendStroops)
        (fun _ _ _ step => step.within) run payable
    obtain ⟨reported, covered⟩ := Trace.booked (Trace.careful run)
    have flight := inFlight_nonneg r
    rw [Trace.configured (Trace.careful run)] at within
    exact ⟨within, by omega⟩
  · -- With one worker at a time, nothing is in flight when the check is made.
    have sequential : Sequential r :=
      run.preserves (fun _ _ _ step => step.sequential) ⟨⟨by simp [Round.start], fun _ => rfl⟩,
        single, by simpa [Round.start, Round.inFlight] using payable⟩
    have within := sequential.within
    have flight := inFlight_nonneg r
    rw [Trace.configured run] at within
    refine ⟨?_, fun succeeded => ?_⟩
    · rw [(Trace.booked run).reported]
      omega
    · rw [← Trace.exact run succeeded]
      exact within

def paidTask (taskId : Nat) : CandidateTask := ⟨taskId, some 200000, some 4, none, none⟩

/-- A round over two tasks with a number of workers and a ceiling. -/
def roundOfTwo (maxConcurrency maxRoundSpendStroops : Int) : Round :=
  Round.start { maxConcurrency, maxRoundSpendStroops } [paidTask 1, paidTask 2] ∅

/-- The first task is executed, and the claim of the second one trips the ceiling. -/
def oneByOne : List Turn :=
  [.next, .claimSettled 0 none, .proofSettled 0 0, .executeSettled 0 none, .removed 0, .next,
    .removed 0]

/-- One worker spends exactly the ceiling. -/
theorem spend_within_ceiling_one : ∃ r, Trace Step (roundOfTwo 1 60000) oneByOne.reverse r ∧
    r.returned = true ∧ r.summary.ceilingReached = true ∧ r.submittedFees = 60000 ∧
    r.summary.roundSpendStroops ≤ 60000 := by
  have run := scripted (show Trace.Playable _ _ (roundOfTwo 1 60000) oneByOne by decide)
  have ceiling := (spend_within_ceiling { maxConcurrency := 1, maxRoundSpendStroops := 60000 }
    [paidTask 1, paidTask 2] ∅ (by decide)).2 le_rfl _ _ run
  exact ⟨_, run, by decide, by decide, by decide, ceiling.1⟩

/-- Two claims are in flight at once, and both succeed. -/
def atOnce : List Turn :=
  [.next, .next, .claimSettled 0 none, .claimSettled 1 none, .proofSettled 0 0,
    .proofSettled 1 0, .removed 0, .removed 0]

/-- One claim fails before the next one is submitted. -/
def afterFailure : List Turn :=
  [.next, .claimSettled 0 (some "timeout"), .removed 0, .next]

/--
Two workers report twice the ceiling.

One worker submits twice the ceiling, since a transaction that failed is not counted.
-/
theorem spend_exceeds_ceiling :
    (∃ r, Trace Step (roundOfTwo 2 10000) atOnce.reverse r ∧ r.returned = true ∧
      r.summary.roundSpendStroops = 20000 ∧ r.submittedFees = 20000) ∧
    ∃ r, Trace Step (roundOfTwo 1 10000) afterFailure.reverse r ∧ r.submittedFees = 20000 := by
  have together := scripted (show Trace.Playable _ _ (roundOfTwo 2 10000) atOnce by decide)
  have failed := scripted (show Trace.Playable _ _ (roundOfTwo 1 10000) afterFailure by decide)
  exact ⟨⟨_, together, by decide, by decide, by decide⟩, _, failed, by decide⟩

end Runs

end KeeperNetwork.Bot
