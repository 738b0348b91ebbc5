import KeeperNetwork.Indexer.Contradiction

/-! Whether a pass ends, which ledgers it asks for, and where it leaves the checkpoint. -/

namespace KeeperNetwork.Indexer

open Soroban EStateM

/-- What a page contains has ended the pass. -/
def Stop.Refused : Stop → Prop
  | .malformed _ => True
  | .discrepancy _ => True
  | _ => False

/-- A checkpoint was neither lost nor moved back. -/
def CheckpointKept (before after : Option Checkpoint) : Prop :=
  ∀ saved, before = some saved →
    ∃ later, after = some later ∧ saved.lastLedger ≤ later.lastLedger

theorem CheckpointKept.refl (saved : Option Checkpoint) : CheckpointKept saved saved :=
  fun checkpoint same => ⟨checkpoint, same, le_rfl⟩

theorem CheckpointKept.trans {before middle after : Option Checkpoint}
    (first : CheckpointKept before middle) (second : CheckpointKept middle after) :
    CheckpointKept before after := by
  intro saved stored
  obtain ⟨later, found, above⟩ := first saved stored
  obtain ⟨latest, last, further⟩ := second later found
  exact ⟨latest, last, above.trans further⟩

/-- The stored checkpoint, if any, is not the last ledger that can be numbered. -/
def Db.BelowLimit (db : Db) : Prop :=
  ∀ saved, db.checkpoint = some saved → saved.lastLedger < u32Max

namespace Backfiller

section Requests

variable (filler : Backfiller)

/-- The ledgers from which a walk asks for events, in the order in which it asks. -/
def startLedgers (tip : Nat) : (turns next : Nat) → BackfillReport → Process → List Nat
  | 0, _, _, _ => []
  | turns + 1, next, report, w =>
    if next ≤ tip then
      next :: match (filler.walkPage tip next report).run w with
        | .ok report w => startLedgers tip turns (saturatingAdd u32Max report.lastLedger 1) report w
        | .error _ _ => []
    else []

/-- What a pass does once it is through with its pages. -/
def conclude (report : BackfillReport) : Walk BackfillReport := do
  if report.pages = 0 then
    transact fun db => (db.saveCheckpoint ⟨report.lastLedger, true⟩, ())
  return report

/-- The ledgers from which a pass asks for events, once it has asked for the chain tip. -/
def asked (turns configuredStart : Nat) (w : Process) : List Nat :=
  (filler.source.latestLedger w.clock).elim [] fun tip =>
    let next := resumeLedger configuredStart w.db.checkpoint
    filler.startLedgers tip turns next ⟨0, 0, 0, 0, next - 1⟩ { w with clock := w.clock + 1 }

end Requests

variable {filler : Backfiller} {tip turns next start : Nat} {report : BackfillReport}
  {w w' : Process} {json : Serializer} {source : EventSource}

/--
One page asks the source once, and moves the checkpoint only as its last act.

It fails when the process is killed, when the source is silent, or because of what it contains.
-/
theorem walkPage_moves (filler : Backfiller) (tip next : Nat) (report : BackfillReport)
    (w : Process) :
    (filler.walkPage tip next report).Ends w
      (fun report' w' => w'.clock = w.clock + 1 ∧ (w.budget = none → w'.budget = none) ∧
        report'.pages ≠ 0 ∧ (∃ complete, w'.db.checkpoint = some ⟨report'.lastLedger, complete⟩) ∧
        ∃ page, filler.source.getEvents w.clock next filler.pageSize = some page ∧
          report'.lastLedger = max page.latestLedgerScanned
            (min (saturatingAdd u32Max next (filler.pageSize - 1)) tip))
      (fun stop w' => w'.clock = w.clock + 1 ∧ w'.db.checkpoint = w.db.checkpoint ∧
        (w.budget ≠ none ∨ filler.source.getEvents w.clock next filler.pageSize = none ∨
          stop.Refused)) := by
  refine ends_walkPage (fun silent => ⟨rfl, rfl, .inr (.inl silent)⟩) ?_ ?_
  · intro page stop w' answered stopped
    -- Neither checking nor ingesting a page touches the checkpoint.
    obtain ⟨seen, done, follows, -, -, db, verdict, stored⟩ := stopped.partly
    refine ⟨follows.clock, ?_, ?_⟩
    · rw [stored, (Db.ingest_frame _).2, verdict.checkpoint]
    · cases stopped with
      | killed _ mortal => exact .inl mortal
      | _ => exact .inr (.inr trivial)
  · intro page db outcome budget answered _ _ _ immortal
    exact ⟨rfl, immortal, Nat.succ_ne_zero _, ⟨_, rfl⟩, page, answered, rfl⟩

theorem covered_onward {reply through : Nat} (behind : next ≤ tip) (below : tip < u32Max)
    (covered : through =
      max reply (min (saturatingAdd u32Max next (filler.pageSize - 1)) tip)) :
    next ≤ through ∧ next < saturatingAdd u32Max through 1 := by
  unfold saturatingAdd at covered ⊢
  omega

theorem walkPage_onward (behind : next ≤ tip) (below : tip < u32Max)
    {report' : BackfillReport} (walked : (filler.walkPage tip next report).Returns w report' w') :
    next < saturatingAdd u32Max report'.lastLedger 1 := by
  have moves := walkPage_moves filler tip next report w
  obtain ⟨-, -, -, -, page, -, covered⟩ := moves.of_returns walked
  exact (covered_onward behind below covered).2

theorem walkPages_stops (answers : Answers filler.source) (unkilled : w.budget = none)
    (below : tip < u32Max) (enough : tip + 1 - next < turns) :
    (filler.walkPages tip turns next report).Ends w (fun _ w' => w'.budget = none)
      fun stop _ => stop.Refused := by
  -- Every page leaves fewer ledgers below the tip.
  induction turns generalizing w next report with
  | zero => exact absurd enough (Nat.not_lt_zero _)
  | succ turns ih =>
    unfold walkPages
    by_cases behind : next ≤ tip
    · rw [if_pos behind, ends_bind]
      refine (walkPage_moves filler tip next report w).mono ?_ ?_
      · rintro report' w' ⟨-, immortal, -, -, page, -, covered⟩
        have onward := (covered_onward behind below covered).2
        exact ih (immortal unkilled) (by omega)
      · rintro stop w' ⟨-, -, mortal | silent | refused⟩
        · exact absurd unkilled mortal
        · obtain ⟨page, answered⟩ := answers.page w.clock next filler.pageSize
          cases silent.symm.trans answered
        · exact refused
    · rw [if_neg behind]
      exact unkilled

theorem walkPages_enough {more : Nat} (below : tip < u32Max)
    (enough : tip + 1 - next < turns) (further : turns ≤ more) :
    (filler.walkPages tip more next report).run w =
      (filler.walkPages tip turns next report).run w := by
  induction turns generalizing more w next report with
  | zero => exact absurd enough (Nat.not_lt_zero _)
  | succ turns ih =>
    -- Both walks take the same page, and have the same ledgers left after it.
    obtain ⟨more, rfl⟩ := Nat.exists_eq_add_one_of_ne_zero (by omega : more ≠ 0)
    unfold walkPages
    by_cases behind : next ≤ tip
    · rw [if_pos behind, if_pos behind, run_bind, run_bind]
      cases walked : (filler.walkPage tip next report).run w with
      | error => rfl
      | ok report' w' =>
        have onward := walkPage_onward behind below walked
        exact ih (by omega) (by omega)
    · rw [if_neg behind, if_neg behind]

theorem startLedgers_ascending (below : tip < u32Max) :
    (filler.startLedgers tip turns next report w).Pairwise (· < ·) ∧
      ∀ ledger ∈ filler.startLedgers tip turns next report w, next ≤ ledger := by
  -- Each page is asked for below all those that the walk goes on with.
  induction turns generalizing next report w with
  | zero => exact ⟨.nil, nofun⟩
  | succ turns ih =>
    unfold startLedgers
    split
    next behind =>
      split
      next report' w' walked =>
        have onward := walkPage_onward behind below walked
        obtain ⟨ascending, above⟩ := @ih (saturatingAdd u32Max report'.lastLedger 1) report' w'
        refine ⟨.cons (fun ledger later => onward.trans_le (above ledger later)) ascending, ?_⟩
        rintro ledger (_ | ⟨_, later⟩)
        · exact le_rfl
        · exact onward.le.trans (above ledger later)
      next =>
        refine ⟨List.pairwise_singleton _ _, fun ledger here => ?_⟩
        exact (List.mem_singleton.mp here).ge
    next => exact ⟨.nil, nofun⟩

theorem walkPages_clock :
    (filler.walkPages tip turns next report).Ends w
      (fun _ w' => w'.clock = w.clock + (filler.startLedgers tip turns next report w).length)
      fun _ w' => w'.clock = w.clock + (filler.startLedgers tip turns next report w).length := by
  induction turns generalizing next report w with
  | zero => rfl
  | succ turns ih =>
    unfold walkPages startLedgers
    split
    next =>
      have moves := walkPage_moves filler tip next report w
      -- Both the walk and its requests go on from what the page returned.
      unfold Ends
      rw [run_bind]
      cases walked : (filler.walkPage tip next report).run w with
      | error stop w' => exact (moves.of_error walked).1
      | ok report' w' =>
        have clock := (moves.of_returns walked).1
        have counted (rest : List Nat) (final : Process)
            (later : final.clock = w'.clock + rest.length) :
            final.clock = w.clock + (next :: rest).length := by
          rw [later, clock, List.length_cons]
          omega
        exact ih.mono (fun _ => counted _) fun _ => counted _
    next => rfl

/-- The walk never takes the checkpoint back. -/
theorem walkPages_checkpoint (below : tip < u32Max)
    (scanned : ∀ time first limit page, filler.source.getEvents time first limit = some page →
      page.latestLedgerScanned < u32Max) (limited : w.db.BelowLimit)
    (ahead : ∀ saved, w.db.checkpoint = some saved → saved.lastLedger ≤ next) :
    (filler.walkPages tip turns next report).Ends w
      (fun report' w' => w'.db.BelowLimit ∧ CheckpointKept w.db.checkpoint w'.db.checkpoint ∧
        (report'.pages = 0 → report' = report ∧ w'.db = w.db))
      fun _ w' => w'.db.BelowLimit ∧ CheckpointKept w.db.checkpoint w'.db.checkpoint := by
  -- The checkpoint is never above the ledger from which the walk goes on.
  induction turns generalizing w next report with
  | zero => exact ⟨limited, .refl _⟩
  | succ turns ih =>
    unfold walkPages
    by_cases behind : next ≤ tip
    · rw [if_pos behind, ends_bind]
      refine (walkPage_moves filler tip next report w).mono ?_ ?_
      · rintro report' w' ⟨-, -, paged, ⟨complete, saved⟩, page, answered, covered⟩
        obtain ⟨reaches, -⟩ := covered_onward behind below covered
        have reply := scanned _ _ _ _ answered
        have small : report'.lastLedger < u32Max := by
          omega
        have kept : CheckpointKept w.db.checkpoint w'.db.checkpoint :=
          fun old stored => ⟨_, saved, (ahead old stored).trans reaches⟩
        refine (ih ?_ ?_).mono ?_ ?_
        · exact fun old stored => (Option.some.inj (saved.symm.trans stored)) ▸ small
        · intro old stored
          obtain rfl := Option.some.inj (saved.symm.trans stored)
          exact le_min (Nat.le_succ _) small.le
        · rintro final w'' ⟨limited, later, none⟩
          refine ⟨limited, kept.trans later, fun empty => ?_⟩
          rw [(none empty).1] at empty
          exact absurd empty paged
        · exact fun _ _ ended => ⟨ended.1, kept.trans ended.2⟩
      · rintro stop w' ⟨-, same, -⟩
        unfold Db.BelowLimit
        rw [same]
        exact ⟨limited, .refl _⟩
    · rw [if_neg behind]
      exact ⟨limited, .refl _, fun _ => ⟨rfl, rfl⟩⟩

theorem runToTip_run (unkilled : w.budget = none)
    (read : filler.source.latestLedger w.clock = some tip) (turns start : Nat) :
    (filler.runToTip turns start).run w =
      (filler.walkPages tip turns (resumeLedger start w.db.checkpoint)
        ⟨0, 0, 0, 0, resumeLedger start w.db.checkpoint - 1⟩ >>= conclude).run
          { w with clock := w.clock + 1 } := by
  obtain ⟨db, clock, budget⟩ := w
  subst unkilled
  -- The checkpoint is read, and the source is asked once.
  have resumes : (transact fun db => (db, db.checkpoint)).run ⟨db, clock, none⟩ =
      .ok db.checkpoint ⟨db, clock, none⟩ := rfl
  have asks : (request filler.source.latestLedger .tipUnread).run ⟨db, clock, none⟩ =
      .ok tip ⟨db, clock + 1, none⟩ := by
    unfold request
    rw [run_bind, run_get]
    dsimp only
    rw [read]
    rfl
  unfold runToTip
  rw [run_bind, resumes]
  dsimp only
  rw [run_bind, asks]
  rfl

theorem conclude_ends (report : BackfillReport) (w : Process) :
    (conclude report).Ends w (fun _ w' => w'.clock = w.clock)
      fun _ w' => w'.clock = w.clock ∧ w.budget ≠ none := by
  -- Only an empty pass writes.
  unfold conclude
  split
  · rw [ends_bind]
    exact ends_transact (fun mortal => ⟨rfl, mortal⟩) fun _ _ => rfl
  · rfl

theorem clock_runToTip (unkilled : w.budget = none)
    (read : filler.source.latestLedger w.clock = some tip) (turns start : Nat) :
    ((filler.runToTip turns start).after w).clock =
      w.clock + 1 + (filler.asked turns start w).length := by
  unfold after asked
  rw [runToTip_run unkilled read, read]
  refine (ends_bind.mpr (walkPages_clock.mono ?_ fun _ _ => id)).after
  -- Concluding the pass asks nothing more.
  intro report w' walked
  refine (conclude_ends report w').mono ?_ ?_
  · exact fun _ _ clock => clock.trans walked
  · exact fun _ _ ended => ended.1.trans walked

theorem resumeLedger_le (fits : start ≤ u32Max) (checkpoint : Option Checkpoint) :
    resumeLedger start checkpoint ≤ u32Max := by
  cases checkpoint with
  | none => exact fits
  | some saved => exact saturatingAdd_le_limit _ _ _

/-- A run never takes the checkpoint back. -/
theorem runToTip_checkpoint (filler : Backfiller) (fits : start ≤ u32Max)
    (tips : ∀ time tip, filler.source.latestLedger time = some tip → tip < u32Max)
    (scanned : ∀ time first limit page, filler.source.getEvents time first limit = some page →
      page.latestLedgerScanned < u32Max) (limited : w.db.BelowLimit) (turns : Nat) :
    (filler.runToTip turns start).Ends w
      (fun _ w' => w'.db.BelowLimit ∧ CheckpointKept w.db.checkpoint w'.db.checkpoint)
      fun _ w' => w'.db.BelowLimit ∧ CheckpointKept w.db.checkpoint w'.db.checkpoint := by
  unfold runToTip
  rw [ends_bind]
  refine ends_transact (fun _ => ⟨limited, .refl _⟩) fun budget _ => ?_
  rw [ends_bind]
  refine ends_request (fun _ => ⟨limited, .refl _⟩) fun tip answered => ?_
  rw [ends_bind]
  have ahead : ∀ saved, w.db.checkpoint = some saved →
      saved.lastLedger + 1 = resumeLedger start w.db.checkpoint := by
    intro saved stored
    rw [stored]
    exact (saturatingAdd_eq (limited saved stored)).symm
  refine (walkPages_checkpoint (w := ⟨w.db, w.clock + 1, budget⟩) (tips _ _ answered) scanned
    limited (fun saved stored => (Nat.le_succ _).trans_eq (ahead saved stored))).mono ?_ ?_
  · rintro report w' ⟨limited', kept, none⟩
    by_cases empty : report.pages = 0
    · -- Nothing was walked, and the ledger before the resume point is saved again.
      obtain ⟨rfl, same⟩ := none empty
      rw [if_pos empty, ends_bind]
      refine ends_transact (fun _ => ⟨limited', kept⟩) fun budget' _ => ⟨?_, ?_⟩
      · rintro saved stored
        obtain rfl := Option.some.inj stored
        have resumes := resumeLedger_le fits w.db.checkpoint
        exact Nat.lt_of_le_of_lt (Nat.sub_le_sub_right resumes 1) (by decide)
      · intro saved stored
        exact ⟨_, rfl, by rw [← ahead saved stored]; exact Nat.le_refl _⟩
    · rw [if_neg empty]
      exact ⟨limited', kept⟩
  · exact fun _ _ ended => ended

theorem passes_checkpoint (fits : start ≤ u32Max)
    (tips : ∀ time tip, source.latestLedger time = some tip → tip < u32Max)
    (scanned : ∀ time first limit page, source.getEvents time first limit = some page →
      page.latestLedgerScanned < u32Max)
    (limited : w.db.BelowLimit) (passes : Passes source json start w w') :
    w'.db.BelowLimit ∧ CheckpointKept w.db.checkpoint w'.db.checkpoint := by
  -- A pass starts from a checkpoint below the limit, and leaves one there.
  induction passes with
  | refl => exact ⟨limited, .refl _⟩
  | @tail middle _ _ last ih =>
    obtain ⟨pageSize, turns, budget, rfl⟩ := last
    have ends := runToTip_checkpoint (w := { middle with budget })
      (Backfiller.new source json pageSize) fits tips scanned ih.1 turns
    exact ⟨ends.after.1, ih.2.trans ends.after.2⟩

/--
A pass ends, asks for no ledger twice and never moves the checkpoint back, below the last ledger.

The ledger after the last one that can be numbered is that one again. So a walk to a tip there goes
round in circles, and a checkpoint there is moved back by one when it is resumed and saved again.
-/
theorem run_to_tip_ends_below_limit (answers : Answers filler.source) (unkilled : w.budget = none)
    (tips : ∀ time tip, filler.source.latestLedger time = some tip → tip < u32Max)
    (start : Nat) :
    (∃ enough, ∀ turns, enough ≤ turns →
      (filler.runToTip turns start).run w = (filler.runToTip enough start).run w ∧
      (filler.runToTip turns start).Ends w (fun _ _ => True) fun stop _ => stop.Refused) ∧
    (∀ turns, (filler.asked turns start w).Pairwise (· < ·) ∧
      ((filler.runToTip turns start).after w).clock =
        w.clock + 1 + (filler.asked turns start w).length) ∧
    (start ≤ u32Max →
      (∀ time first limit page, filler.source.getEvents time first limit = some page →
        page.latestLedgerScanned < u32Max) →
      w.db.BelowLimit → ∀ w', Passes filler.source filler.json start w w' →
        CheckpointKept w.db.checkpoint w'.db.checkpoint) := by
  obtain ⟨tip, read⟩ := answers.tip w.clock
  have below := tips _ _ read
  -- There are at most as many pages as ledgers up to the tip.
  have few (next : Nat) : tip + 1 - next < tip + 2 := by omega
  refine ⟨⟨tip + 2, fun turns enough => ⟨?_, ?_⟩⟩, fun turns => ⟨?_, ?_⟩, ?_⟩
  · rw [runToTip_run unkilled read, runToTip_run unkilled read, run_bind, run_bind,
      walkPages_enough below (few _) enough]
  · unfold Ends
    rw [runToTip_run unkilled read]
    refine ends_bind.mpr ((walkPages_stops (w := { w with clock := w.clock + 1 }) answers unkilled
      below ((few _).trans_le enough)).mono ?_ ?_)
    · intro report w' alive
      exact (conclude_ends report w').mono (fun _ _ _ => trivial)
        fun _ _ ended => absurd alive ended.2
    · exact fun _ _ refused => refused
  · rw [asked, read]
    exact (startLedgers_ascending below).1
  · exact clock_runToTip unkilled read turns start
  · intro fits scanned limited w' passes
    exact (passes_checkpoint fits tips scanned limited passes).2

theorem walkPages_circles (answers : Answers filler.source) (unkilled : w.budget = none)
    (inside : next ≤ u32Max) :
    (filler.walkPages u32Max turns next report).Ends w (fun _ _ => False)
      fun stop _ => stop = .killed ∨ stop.Refused := by
  induction turns generalizing w next report with
  | zero => exact .inl rfl
  | succ turns ih =>
    unfold walkPages
    rw [if_pos inside, ends_bind]
    refine (walkPage_moves filler u32Max next report w).mono ?_ ?_
    · -- The next ledger can be numbered again, so it is not beyond the tip.
      rintro report' w' ⟨-, immortal, -⟩
      exact ih (immortal unkilled) (Nat.min_le_right _ _)
    · rintro stop w' ⟨-, -, mortal | silent | refused⟩
      · exact absurd unkilled mortal
      · obtain ⟨page, answered⟩ := answers.page w.clock next filler.pageSize
        cases silent.symm.trans answered
      · exact .inr refused

/--
A pass to the last ledger that can be numbered never returns a report.

Whatever the source answers, the pass goes on for as many turns as there are, unless a page is
refused for what it contains.
-/
theorem run_to_tip_never_returns (answers : Answers filler.source) (unkilled : w.budget = none)
    (fits : start ≤ u32Max) (last : filler.source.latestLedger w.clock = some u32Max)
    (turns : Nat) :
    (filler.runToTip turns start).Ends w (fun _ _ => False)
      fun stop _ => stop = .killed ∨ stop.Refused := by
  have inside : resumeLedger start w.db.checkpoint ≤ u32Max := by
    cases w.db.checkpoint with
    | none => exact fits
    | some saved => exact Nat.min_le_right _ _
  unfold Ends
  rw [runToTip_run unkilled last]
  refine ends_bind.mpr ((walkPages_circles (w := { w with clock := w.clock + 1 }) answers unkilled
    inside).mono ?_ fun _ _ => id)
  exact fun _ _ never => never.elim

/-- A backfiller of a chain without events, whose pages are one ledger wide. -/
def quiet (tip : Nat) : Backfiller where
  source := ⟨fun _ _ _ => some ⟨[], 0⟩, fun _ => some tip⟩
  json _ := none
  pageSize := 1
  wide := le_rfl

/-- A pass from the first ledger to the third asks for each of them, and ends. -/
theorem run_to_tip_ends_below_limit_third :
    (quiet 3).asked 5 1 .blank = [1, 2, 3] ∧
      ∃ enough, ∀ turns, enough ≤ turns →
        ((quiet 3).runToTip turns 1).run .blank = ((quiet 3).runToTip enough 1).run .blank ∧
        ((quiet 3).runToTip turns 1).Ends .blank (fun _ _ => True) fun stop _ => stop.Refused := by
  have answers : Answers (quiet 3).source := ⟨fun _ => ⟨3, rfl⟩, fun _ _ _ => ⟨_, rfl⟩⟩
  have tips (time tip : Nat) (read : (quiet 3).source.latestLedger time = some tip) :
      tip < u32Max := by
    obtain rfl := Option.some.inj read
    decide
  exact ⟨rfl, (run_to_tip_ends_below_limit (w := .blank) answers rfl tips 1).1⟩

theorem quiet_walkPages (turns clock : Nat) (db : Db) (report : BackfillReport) :
    ((quiet u32Max).walkPages u32Max turns u32Max report).Ends ⟨db, clock, none⟩
      (fun _ _ => False) fun stop _ => stop = .killed := by
  induction turns generalizing clock db report with
  | zero => rfl
  | succ turns ih =>
    -- The page is empty, and the walk is back where it was.
    exact ih _ _ _

/--
A pass to the very last ledger never returns and asks for that ledger again and again.

And a checkpoint there is moved back by a pass that finds nothing to do.
-/
theorem last_ledger_asked_again :
    (∀ turns, ((quiet u32Max).runToTip turns u32Max).Ends .blank (fun _ _ => False)
      fun stop _ => stop = .killed) ∧
    (quiet u32Max).asked 2 u32Max .blank = [u32Max, u32Max] ∧
    (((quiet 3).runToTip 2 1).after
      ⟨Db.blank.saveCheckpoint ⟨u32Max, true⟩, 0, none⟩).db.checkpoint =
        some ⟨u32Max - 1, true⟩ := by
  -- Two of the parts are computed, and the walk is the circle above for any number of turns.
  refine ⟨fun turns => ?_, rfl, rfl⟩
  unfold Ends
  rw [runToTip_run rfl rfl]
  refine ends_bind.mpr ((quiet_walkPages turns _ _ _).mono ?_ fun _ _ => id)
  exact fun _ _ never => never.elim

end Backfiller

end KeeperNetwork.Indexer
