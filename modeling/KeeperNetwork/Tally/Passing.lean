import Mathlib.Algebra.Order.BigOperators.Group.Finset
import KeeperNetwork.Tally.Contract

/-! When a cached tally passes, and what that says about the votes that were cast. -/

namespace KeeperNetwork.Tally

open Soroban

/-- The ballot a step casts on a proposal. -/
def Label.ballot (id : Nat) : Label → Option Ballot
  | .voted ballot => if ballot.proposal = id then some ballot else none
  | _ => none

/-- The ballots cast on a proposal since it was created, with the steps latest first. -/
def ballots (id : Nat) (labels : List Label) : List Ballot :=
  (labels.takeWhile fun label => label ≠ .created id).filterMap (Label.ballot id)

theorem ballots_created (id : Nat) (labels : List Label) :
    ballots id (.created id :: labels) = [] := by
  simp [ballots]

theorem ballots_cons {id : Nat} {label : Label} (labels : List Label)
    (apart : label ≠ .created id) :
    ballots id (label :: labels) = (label.ballot id).toList ++ ballots id labels := by
  simp only [ballots, apart, ne_eq, not_false_iff, decide_true, List.takeWhile_cons_of_pos]
  cases cast : label.ballot id <;> simp [cast]

theorem ballots_voted (id : Nat) (ballot : Ballot) (labels : List Label) :
    ballots id (.voted ballot :: labels) =
      if ballot.proposal = id then ballot :: ballots id labels else ballots id labels := by
  have apart : Label.voted ballot ≠ .created id := nofun
  rw [ballots_cons labels apart, Label.ballot]
  split <;> rfl

def totalPower (cast : List Ballot) : Nat := (cast.map Ballot.power).sum

def powerOf (choice : VoteChoice) (cast : List Ballot) : Nat :=
  totalPower (cast.filter fun ballot => ballot.choice = choice)

def tallyOf (cast : List Ballot) : VoteTally where
  yesVotes := min (powerOf .yes cast) u64Max
  noVotes := min (powerOf .no cast) u64Max
  abstainVotes := min (powerOf .abstain cast) u64Max
  totalVotingPower := min (totalPower cast) u64Max

section Sums

variable {cast : List Ballot} {ballot : Ballot}

@[simp] theorem totalPower_cons : totalPower (ballot :: cast) = ballot.power + totalPower cast :=
  rfl

theorem powerOf_cons (choice : VoteChoice) :
    powerOf choice (ballot :: cast) =
      (if ballot.choice = choice then ballot.power else 0) + powerOf choice cast := by
  unfold powerOf
  by_cases chosen : ballot.choice = choice
  · simp [chosen]
  · simp [chosen]

theorem totalPower_eq (cast : List Ballot) :
    totalPower cast = powerOf .yes cast + powerOf .no cast + powerOf .abstain cast := by
  induction cast with
  | nil => rfl
  | cons ballot rest ih =>
    simp only [totalPower_cons, powerOf_cons, ih]
    cases ballot.choice <;> simp <;> omega

theorem tallyOf_cons :
    tallyOf (ballot :: cast) = (tallyOf cast).add ballot.choice ballot.power := by
  -- A sum that has stopped at the limit stays there, whatever is added.
  have saturate (sum power : Nat) :
      min (power + sum) u64Max = saturatingAdd u64Max (min sum u64Max) power := by
    unfold saturatingAdd
    omega
  cases chosen : ballot.choice <;>
    simp [tallyOf, VoteTally.add, powerOf_cons, chosen, saturate]

end Sums

/-- When the tally of one proposal passes, as the code computes it. -/
theorem isPassed_iff {tally : VoteTally} {quorumBps passingThresholdBps : Nat}
    (fits : tally.totalVotingPower ≤ u64Max) (quorum : quorumBps ≤ 10000)
    (threshold : passingThresholdBps ≤ 10000) :
    tally.isPassed quorumBps passingThresholdBps = some true ↔
      tally.totalVotingPower ≠ 0 ∧
        tally.yesVotes + tally.noVotes + tally.abstainVotes ≤ u64Max ∧
        tally.totalVotingPower * quorumBps / 10000 ≤
          tally.yesVotes + tally.noVotes + tally.abstainVotes ∧
        tally.yesVotes + tally.noVotes ≠ 0 ∧
        (tally.yesVotes + tally.noVotes) * passingThresholdBps / 10000 ≤ tally.yesVotes := by
  -- A share of a number that fits is a number that fits, so neither cast loses anything.
  have share {whole bps : Nat} (within : bps ≤ 10000) (small : whole ≤ u64Max) :
      asU64 (whole * bps / 10000 : Nat) = whole * bps / 10000 := by
    have scaled : whole * bps ≤ whole * 10000 := Nat.mul_le_mul_left whole within
    exact asU64_eq (by omega)
  rw [VoteTally.isPassed, share quorum fits]
  by_cases empty : tally.totalVotingPower = 0
  · simp [empty]
  by_cases room : tally.yesVotes + tally.noVotes + tally.abstainVotes ≤ u64Max
  · have decided : tally.yesVotes + tally.noVotes ≤ u64Max := by omega
    have votes : checkedAddNat u64Max tally.yesVotes tally.noVotes =
        some (tally.yesVotes + tally.noVotes) := if_pos decided
    have all : checkedAddNat u64Max (tally.yesVotes + tally.noVotes) tally.abstainVotes =
        some (tally.yesVotes + tally.noVotes + tally.abstainVotes) := if_pos room
    simp only [if_neg empty, votes, all, Option.bind_eq_bind, Option.bind_some,
      share threshold decided]
    by_cases short : tally.yesVotes + tally.noVotes + tally.abstainVotes <
        tally.totalVotingPower * quorumBps / 10000
    · simp [short]
    · by_cases none : tally.yesVotes + tally.noVotes = 0
      · simp [none]
      · rw [if_neg short, if_neg none, Option.some.injEq, decide_eq_true_iff]
        exact ⟨fun passing => ⟨empty, room, Nat.not_lt.mp short, none, passing⟩,
          fun all => all.2.2.2.2⟩
  · -- One of the two additions overflows, and the call panics.
    simp only [if_neg empty, room, false_and, and_false, iff_false]
    intro passed
    simp only [Option.bind_eq_bind, Option.bind_eq_some_iff, checkedAddNat_eq_some] at passed
    obtain ⟨_, ⟨rfl, -⟩, _, ⟨rfl, fit⟩, -⟩ := passed
    exact room fit

/--
A tally passes whatever the quorum is.

The power that was cast is compared with a share of itself, so that only the votes for and against
decide, up to the rounding of the threshold. Sums that stopped at the limit pass only when all the
power is for the proposal.
-/
theorem tallyOf_isPassed_iff (cast : List Ballot) {quorumBps passingThresholdBps : Nat}
    (quorum : quorumBps ≤ 10000) (positive : 1 ≤ passingThresholdBps)
    (threshold : passingThresholdBps ≤ 10000) :
    (tallyOf cast).isPassed quorumBps passingThresholdBps = some true ↔
      0 < powerOf .yes cast + powerOf .no cast ∧
        passingThresholdBps * (powerOf .yes cast + powerOf .no cast) <
          10000 * (powerOf .yes cast + 1) ∧
        (totalPower cast ≤ u64Max ∨ powerOf .no cast + powerOf .abstain cast = 0) := by
  have total := totalPower_eq cast
  rw [isPassed_iff (Nat.min_le_right _ _) quorum threshold]
  simp only [tallyOf]
  generalize powerOf .yes cast = yes at *
  generalize powerOf .no cast = no at *
  generalize powerOf .abstain cast = abstain at *
  rw [total]
  have limit : 10000 ≤ u64Max := by decide
  by_cases room : yes + no + abstain ≤ u64Max
  · -- Nothing was saturated, and the power cast reaches every share of itself.
    rw [Nat.min_eq_left (by omega : yes ≤ u64Max), Nat.min_eq_left (by omega : no ≤ u64Max),
      Nat.min_eq_left (by omega : abstain ≤ u64Max), Nat.min_eq_left room,
      Nat.mul_comm passingThresholdBps]
    have reached : (yes + no + abstain) * quorumBps ≤ (yes + no + abstain) * 10000 :=
      Nat.mul_le_mul_left _ quorum
    generalize (yes + no) * passingThresholdBps = needed
    omega
  · by_cases only : no + abstain = 0
    · -- All the power is for the proposal, and no threshold is above that.
      have sure : passingThresholdBps * (yes + no) ≤ 10000 * (yes + no) :=
        Nat.mul_le_mul_right _ threshold
      have shares (bps : Nat) (within : bps ≤ 10000) : u64Max * bps ≤ u64Max * 10000 :=
        Nat.mul_le_mul_left _ within
      have first := shares quorumBps quorum
      have second := shares passingThresholdBps threshold
      have none : no = 0 ∧ abstain = 0 := by omega
      rw [Nat.min_eq_right (by omega : u64Max ≤ yes), none.1, none.2, Nat.zero_min,
        Nat.add_zero, Nat.add_zero, Nat.add_zero, Nat.min_eq_right (by omega : u64Max ≤ yes)]
      rw [none.1, Nat.add_zero] at sure
      omega
    · -- The saturated sums add up to more than fits, unless only votes against or none decide.
      simp only [room, only, or_self, and_false, iff_false]
      rintro ⟨-, fit, -, some, passed⟩
      have alone : min yes u64Max = 0 := by omega
      rw [alone, Nat.zero_add] at passed some
      have against : min no u64Max = u64Max := by omega
      rw [against] at passed
      have needed : u64Max * 1 ≤ u64Max * passingThresholdBps := Nat.mul_le_mul_left _ positive
      omega

theorem Supplied.balance_le {supply : Int} {balances : Balances}
    (supplied : Supplied supply balances) (holder : Address) : balances.of holder ≤ supply := by
  obtain ⟨holders, absent, total⟩ := supplied
  by_cases member : holder ∈ holders
  · rw [← total]
    exact Finset.single_le_sum (fun other _ => balances.nonneg other) member
  · -- Whoever is no holder has nothing, which is no more than the supply.
    rw [absent holder member, ← total]
    exact Finset.sum_nonneg fun other _ => balances.nonneg other

/-- Every token has the supply, and every stored tally is that of the ballots that were cast. -/
structure Counted (supply : Nat) (labels : List Label) (e : Env) : Prop where
  supplied : ∀ token, Supplied supply (e.tokens token)
  counted : ∀ id tally, e.tallies.lookup id = some tally → tally = tallyOf (ballots id labels)

section Runs

variable {supply : Nat} {labels : List Label} {label : Label} {e e' : Env}

theorem Counted.idle (counted : Counted supply labels e)
    (supplied : ∀ token, Supplied supply (e'.tokens token)) (same : e'.tallies = e.tallies)
    (creates : ∀ id, label ≠ .created id) (votes : ∀ id, label.ballot id = none) :
    Counted supply (label :: labels) e' := by
  refine ⟨supplied, fun id tally found => ?_⟩
  rw [same] at found
  rw [counted.counted id tally found, ballots_cons labels (creates id), votes id]
  rfl

theorem Counted.created (counted : Counted supply labels e) (tokens : e'.tokens = e.tokens)
    {id : Nat} (tallies : e'.tallies = e.tallies.insert id .new) :
    Counted supply (.created id :: labels) e' := by
  refine ⟨tokens ▸ counted.supplied, fun other tally found => ?_⟩
  rw [tallies, Finmap.lookup_insert_eq] at found
  split at found
  · rename_i same
    obtain rfl := Option.some.inj found
    rw [same, ballots_created]
    rfl
  · rename_i different
    have apart : Label.created id ≠ .created other := by
      rintro ⟨⟩
      exact different rfl
    rw [counted.counted other tally found, ballots_cons labels apart]
    rfl

theorem Counted.voted (fits : supply ≤ u64Max) (counted : Counted supply labels e)
    (tokens : e'.tokens = e.tokens) {id : Nat} {voter : Address} {choice : VoteChoice}
    {balance : Int} {tally : VoteTally} (held : e.voterBalance voter = some balance)
    (found : e.tallies.lookup id = some tally)
    (tallies : e'.tallies = e.tallies.insert id (tally.add choice (asU64 balance))) :
    Counted supply ((Call.vote id voter choice).label e :: labels) e' := by
  -- The balance is not negative and no more than the supply, so the cast keeps it.
  have exact : asU64 balance = balance.toNat := by
    rw [Env.voterBalance, Option.map_eq_some_iff] at held
    obtain ⟨token, -, rfl⟩ := held
    have least := (e.tokens token).nonneg voter
    have most := (counted.supplied token).balance_le voter
    rw [← @asU64_eq ((e.tokens token).of voter).toNat (by omega),
      Int.toNat_of_nonneg least]
  refine ⟨tokens ▸ counted.supplied, fun other stored here => ?_⟩
  rw [tallies, Finmap.lookup_insert_eq] at here
  simp only [Call.label, held, Option.getD_some]
  split at here
  · rename_i same
    subst same
    obtain rfl := Option.some.inj here
    rw [counted.counted other tally found, exact, ballots_voted, if_pos rfl, tallyOf_cons]
  · rename_i different
    have apart : id ≠ other := fun same => different same.symm
    rw [counted.counted other stored here, ballots_voted, if_neg apart]

theorem Counted.step (fits : supply ≤ u64Max) (counted : Counted supply labels e)
    (step : Step supply e label e') : Counted supply (label :: labels) e' := by
  cases step with
  | @called _ _ call ran =>
    cases call with
    | initializeTally tokenAddress =>
      simp only [perform, initializeTally, EStateM.returns_modify] at ran
      subst ran
      exact counted.idle counted.supplied rfl (by simp [Call.label]) (fun _ => rfl)
    | createProposal creator proposalType =>
      simp only [perform, EStateM.returns_bind] at ran
      obtain ⟨id, _, created, returned⟩ := ran
      obtain ⟨-, rfl⟩ := EStateM.returns_pure.mp returned
      simp [createProposal] at created
      obtain ⟨-, -, balance, -, -, -, -, -, rfl, -⟩ := created
      refine counted.created ?_ ?_ <;> rfl
    | vote id voter choice =>
      simp [perform, vote] at ran
      obtain ⟨-, -, proposal, -, -, -, balance, held, tally, found, rfl⟩ := ran
      refine counted.voted fits ?_ held found ?_ <;> rfl
    | executeProposal id =>
      simp [perform, executeProposal] at ran
      obtain ⟨-, proposal, -, -, tally, -, -, -, rfl⟩ := ran
      exact counted.idle counted.supplied rfl (by simp [Call.label]) (fun _ => rfl)
  | refused | closed => exact counted.idle counted.supplied rfl (by simp) (fun _ => rfl)
  | moved supplied => exact counted.idle supplied rfl (by simp) (fun _ => rfl)

theorem counted {sequence : Nat} {tokens : Address → Balances} (fits : supply ≤ u64Max)
    (supplied : ∀ token, Supplied supply (tokens token))
    (run : Trace (Step supply) (deployed sequence tokens) labels e) : Counted supply labels e := by
  -- The count depends on the labels so far, so the induction is on the run itself.
  induction run with
  | nil => exact ⟨supplied, fun id tally found => by simp [deployed] at found⟩
  | snoc _ last ih => exact ih.step fits last

end Runs

/-- A supply of two million, of which two voters hold one each. -/
def holdings : Balances where
  of holder := if holder = ⟨1⟩ then 1999998 else if holder = ⟨2⟩ ∨ holder = ⟨3⟩ then 1 else 0
  nonneg holder := by split_ifs <;> decide
  fits holder := by split_ifs <;> decide

theorem holdings_supplied : Supplied 2000000 holdings := by
  refine ⟨{⟨1⟩, ⟨2⟩, ⟨3⟩}, fun holder absent => ?_, by decide⟩
  simp only [Finset.mem_insert, Finset.mem_singleton, not_or] at absent
  simp [holdings, absent]

theorem Step.of_succeeds {supply : Nat} {e : Env} (auths : List Address) (call : Call)
    (succeeded : (perform auths call).succeeds e = true) :
    Step supply e (call.label e) ((perform auths call).commit e).2 := by
  obtain ⟨_, ran⟩ := EStateM.returns_of_succeeds succeeded
  exact .called ran

def after (auths : List Address) (call : Call) (e : Env) : Env :=
  ((perform auths call).commit e).2

/-- A proposal of the largest holder is open. -/
def proposed : Env :=
  after [⟨1⟩] (.createProposal ⟨1⟩ (.changeFeeBps 3))
    (after [] (.initializeTally ⟨9⟩) (deployed 1 fun _ => holdings))

theorem proposed_run :
    Trace (Step 2000000) (deployed 1 fun _ => holdings) [.created 0, .configured] proposed :=
  (Trace.nil.snoc (.of_succeeds [] (.initializeTally ⟨9⟩) (by decide))).snoc
    (.of_succeeds [⟨1⟩] (.createProposal ⟨1⟩ (.changeFeeBps 3)) (by decide))

def votedOnce (voter : Address) (choice : VoteChoice) : Env :=
  after [voter] (.vote 0 voter choice) proposed

theorem votedOnce_run (voter : Address) (choice : VoteChoice)
    (cast : (perform [voter] (.vote 0 voter choice)).succeeds proposed = true) :
    Trace (Step 2000000) (deployed 1 fun _ => holdings)
      [(Call.vote 0 voter choice).label proposed, .created 0, .configured]
      (votedOnce voter choice) :=
  proposed_run.snoc (.of_succeeds _ _ cast)

/--
What a passed tally says about the votes.

In every run a proposal's tally passes exactly when there are votes for or against it, those for
it reach the threshold rounded down, and no sum overflowed. When it passes, the power cast is the
quorum's share of the supply and the votes for it are the threshold's share of those decided
exactly if the quorum happens to be reached and the rounding makes no difference.
-/
theorem passed_tally_iff {supply sequence : Nat} {tokens : Address → Balances}
    {labels : List Label} {e : Env} (fits : supply ≤ u64Max)
    (supplied : ∀ token, Supplied supply (tokens token))
    (run : Trace (Step supply) (deployed sequence tokens) labels e) {id : Nat} {tally : VoteTally}
    (found : e.tallies.lookup id = some tally) {quorumBps passingThresholdBps : Nat}
    (quorum : 1 ≤ quorumBps ∧ quorumBps ≤ 10000)
    (threshold : 1 ≤ passingThresholdBps ∧ passingThresholdBps ≤ 10000) {cast : List Ballot}
    {yes no total : Nat} (votes : cast = ballots id labels) (favour : yes = powerOf .yes cast)
    (against : no = powerOf .no cast) (all : total = totalPower cast) :
    (tally.isPassed quorumBps passingThresholdBps = some true ↔
      0 < yes + no ∧ passingThresholdBps * (yes + no) < 10000 * (yes + 1) ∧
        (total ≤ u64Max ∨ total = yes)) ∧
      (tally.isPassed quorumBps passingThresholdBps = some true →
        ((quorumBps * supply ≤ 10000 * total ∧
            passingThresholdBps * (yes + no) ≤ 10000 * yes ∧ 0 < yes) ↔
          quorumBps * supply ≤ 10000 * total ∧
            ¬ (10000 * yes < passingThresholdBps * (yes + no) ∧
              passingThresholdBps * (yes + no) < 10000 * (yes + 1)))) := by
  subst votes favour against all
  obtain rfl := (counted fits supplied run).counted id tally found
  have passes := tallyOf_isPassed_iff (ballots id labels) quorum.2 threshold.1 threshold.2
  have total := totalPower_eq (ballots id labels)
  have alone : powerOf .no (ballots id labels) + powerOf .abstain (ballots id labels) = 0 ↔
      totalPower (ballots id labels) = powerOf .yes (ballots id labels) := by omega
  rw [alone] at passes
  refine ⟨passes, fun passed => ?_⟩
  obtain ⟨decided, rounded, -⟩ := passes.mp passed
  -- A threshold is not zero, so some power is needed as soon as anything was decided.
  have needed : 0 < passingThresholdBps *
      (powerOf .yes (ballots id labels) + powerOf .no (ballots id labels)) :=
    Nat.mul_pos threshold.1 decided
  omega

/-- The largest holder's vote alone passes the proposal, with the quorum and the majority. -/
theorem passed_tally_iff_largest :
    ∃ labels e tally, Trace (Step 2000000) (deployed 1 fun _ => holdings) labels e ∧
      e.tallies.lookup 0 = some tally ∧ tally.isPassed 2500 5000 = some true ∧
      2500 * 2000000 ≤ 10000 * totalPower (ballots 0 labels) := by
  have run := votedOnce_run ⟨1⟩ .yes (by decide)
  have found : (votedOnce ⟨1⟩ .yes).tallies.lookup 0 = some ⟨1999998, 0, 0, 1999998⟩ := by decide
  obtain ⟨passes, exactly⟩ := passed_tally_iff (by decide) (fun _ => holdings_supplied) run found
    (show 1 ≤ 2500 ∧ 2500 ≤ 10000 by decide) (show 1 ≤ 5000 ∧ 5000 ≤ 10000 by decide) rfl rfl rfl
    rfl
  have passed := passes.mpr (by decide)
  exact ⟨_, _, _, run, found, passed, ((exactly passed).mpr (by decide)).1⟩

/--
A proposal passes without a quorum, and without any vote for it.

One vote of a two millionth of the supply passes it, so that it is executed when its timelock has
ended. One such vote against it does too, since half of that vote is rounded down to nothing.
-/
theorem passed_without_quorum :
    (∃ labels e tally, Trace (Step 2000000) (deployed 1 fun _ => holdings) labels e ∧
      e.tallies.lookup 0 = some tally ∧ tally.isPassed 2500 5000 = some true ∧
      totalPower (ballots 0 labels) = 1 ∧ ¬ 2500 * 2000000 ≤ 10000 * totalPower (ballots 0 labels) ∧
      (executeProposal 0).succeeds { e with sequence := 155521 } = true) ∧
    (∃ labels e tally, Trace (Step 2000000) (deployed 1 fun _ => holdings) labels e ∧
      e.tallies.lookup 0 = some tally ∧ tally.isPassed 2500 5000 = some true ∧
      powerOf .yes (ballots 0 labels) = 0 ∧ powerOf .no (ballots 0 labels) = 1 ∧
      (executeProposal 0).succeeds { e with sequence := 155521 } = true) := by
  constructor
  · exact ⟨_, _, ⟨1, 0, 0, 1⟩, votedOnce_run ⟨2⟩ .yes (by decide),
      by decide, by decide, by decide, by decide, by decide⟩
  · exact ⟨_, _, ⟨0, 1, 0, 1⟩, votedOnce_run ⟨3⟩ .no (by decide),
      by decide, by decide, by decide, by decide, by decide⟩

end KeeperNetwork.Tally
