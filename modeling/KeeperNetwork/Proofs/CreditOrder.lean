import KeeperNetwork.Proofs.DisputeWindow

/-! The order in which the credits of a keeper unlock, and what a shorter window does to it. -/

namespace KeeperNetwork

open Soroban

/-- The ledgers at which the pending credits of a keeper unlock, in the order of the list. -/
def unlocks (w : World) (keeper : Address) : List Nat :=
  (pendingCreditsOf w keeper).map PendingCredit.unlockLedger

/-- The window that an execution's credit waits for. -/
def Entry.window (keeper : Address) : Entry → Option Nat
  | .call ⟨before, .executeTask executor _ _, _, _⟩ =>
    -- Without a window the credit is paid at once.
    if executor = keeper ∧ 0 < disputeWindowLedgers before then
      some (disputeWindowLedgers before) else none
  | _ => none

/-- The windows that held back the credits of a keeper, latest first. -/
def windowsSeen (keeper : Address) (history : List Entry) : List Nat :=
  history.filterMap (Entry.window keeper)

variable {token : Token} {inv : Invocation} {start e e' : Env} {call : Call} {value : Value}
  {keeper : Address}

theorem Effect.unlocks (exact : ExactToken token) (formed : WellFormed e)
    (effect : Effect token inv e call value e') (keeper : Address) :
    (unlocks e' keeper).Sublist (unlocks e keeper) ∨
      Entry.window keeper (.call ⟨e, call, value, e'⟩) =
          some (disputeWindowLedgers e) ∧
        KeeperNetwork.unlocks e' keeper = KeeperNetwork.unlocks e keeper ++
          [saturatingAdd u32Max e.sequence (disputeWindowLedgers e)] := by
  unfold KeeperNetwork.unlocks
  cases effect.creditMove exact formed keeper with
  | untouched same => exact .inl (by rw [same])
  | held called _ _ _ _ _ credits =>
    subst called
    cases effect with
    | executeTaskHeld _ _ _ _ _ _ _ _ window =>
      refine .inr ⟨if_pos ⟨rfl, window⟩, ?_⟩
      rw [credits, List.map_append]
      rfl
    | executeTaskPaid =>
      -- What is paid at once leaves the list alone.
      exact .inl (by simp [pendingCreditsOf])
  | finalized _ credits =>
    rw [credits]
    exact .inl (List.filter_sublist.map _)
  | disputed _ _ read _ _ _ credits | released _ read _ _ credits =>
    rw [credits, map_set_flag read PendingCredit.unlockLedger fun _ => rfl]
    exact .inl (.refl _)
  | forfeited _ _ _ _ _ credits =>
    rw [credits]
    exact .inl ((List.eraseIdx_sublist _ _).map _)

/-- The credits of a keeper are in order, and none waits longer than a window seen so far. -/
structure Queued (keeper : Address) (e : Env) : Prop where
  ordered : (unlocks e keeper).Pairwise (· ≤ ·)
  due : ∀ unlock ∈ unlocks e keeper, ∃ window ∈ windowsSeen keeper e.history,
    unlock ≤ saturatingAdd u32Max e.sequence window

theorem Queued.later (queued : Queued keeper e)
    (fewer : (unlocks e' keeper).Sublist (unlocks e keeper)) (onward : e.sequence ≤ e'.sequence)
    (kept : windowsSeen keeper e.history ⊆ windowsSeen keeper e'.history) : Queued keeper e' where
  ordered := queued.ordered.sublist fewer
  due unlock member := by
    obtain ⟨window, seen, within⟩ := queued.due unlock (fewer.subset member)
    refine ⟨window, kept seen, within.trans ?_⟩
    unfold saturatingAdd
    omega

/-- Credits stay in the order of their unlocks while the window is not shortened. -/
theorem ExactStep.queued (formed : WellFormed e) (step : ExactStep e e') (queued : Queued keeper e)
    (grown : (windowsSeen keeper e'.history).Pairwise (· ≥ ·)) : Queued keeper e' := by
  cases Step.happens step with
  | failed => exact queued
  | closed => exact queued.later (.refl _) (Nat.le_succ _) (List.Subset.refl _)
  | received => exact queued.later (.refl _) le_rfl (List.Subset.refl _)
  | @called token inv call value finish exact _ _ effect =>
    obtain ⟨sequence, -⟩ := effect.clock exact
    have recorded : (finish.record e call value).history =
        .call ⟨e, call, value, finish⟩ :: e.history := by
      rw [Env.record_history, effect.history exact]
    have kept : windowsSeen keeper e.history ⊆
        windowsSeen keeper (finish.record e call value).history := by
      rw [recorded]
      exact List.filterMap_subset _ (List.subset_cons_self _ _)
    rcases effect.unlocks exact formed keeper with fewer | ⟨window, added⟩
    · exact queued.later fewer sequence.ge kept
    · -- Every credit before it unlocks within a window that is no longer than the last one.
      have seen : windowsSeen keeper (finish.record e call value).history =
          disputeWindowLedgers e :: windowsSeen keeper e.history := by
        rw [recorded, windowsSeen, List.filterMap_cons_some window]
        rfl
      rw [seen, List.pairwise_cons] at grown
      have last : ∀ unlock ∈ unlocks e keeper,
          unlock ≤ saturatingAdd u32Max e.sequence (disputeWindowLedgers e) := by
        intro unlock member
        obtain ⟨earlier, known, within⟩ := queued.due unlock member
        have longer := grown.1 earlier known
        refine within.trans ?_
        unfold saturatingAdd
        omega
      have whole : unlocks (finish.record e call value) keeper = _ := added
      refine ⟨?_, fun unlock member => ?_⟩
      · rw [whole, List.pairwise_append]
        exact ⟨queued.ordered, List.pairwise_singleton _ _, by simpa using last⟩
      · have within : unlock ≤
            saturatingAdd u32Max e.sequence (disputeWindowLedgers e) := by
          rw [whole, List.mem_append, List.mem_singleton] at member
          rcases member with old | rfl
          · exact last unlock old
          · exact le_rfl
        rw [← sequence] at within
        exact ⟨_, seen ▸ List.mem_cons_self, within⟩

/--
The pending credits of a keeper are in the order in which they unlock, as long as no execution of
the keeper was held back for less than an earlier one.
-/
theorem credits_ordered_unless_shortened (fresh : Fresh start) (run : ExactRun start e)
    (keeper : Address) (grown : (windowsSeen keeper e.history).Pairwise (· ≥ ·)) :
    (unlocks e keeper).Pairwise (· ≤ ·) := by
  suffices queued : Queued keeper e from queued.ordered
  induction run with
  | refl =>
    have none : unlocks start keeper = [] := by
      simp [unlocks, pendingCreditsOf, fresh.unused.1.credits]
    exact ⟨by simp [none], by simp [none]⟩
  | tail ran last ih =>
    -- The windows seen earlier are the older part of those seen in the end.
    refine ExactStep.queued (ExactRun.wellFormed fresh ran) last (ih ?_) grown
    cases Step.happens last with
    | called exact _ _ effect =>
      rw [Env.record_history, effect.history exact, windowsSeen] at grown
      exact grown.sublist ((List.sublist_cons_self _ _).filterMap _)
    | failed | closed => exact grown
    | received => exact grown

/-- A keeper executes two tasks, and in between the window is set anew. -/
def windowScript (first second : Nat) : List Turn :=
  [.call [⟨1⟩] (.setDisputeWindow ⟨1⟩ first), .call [⟨3⟩] (.registerTask ⟨3⟩ sampleParams),
    .call [⟨3⟩] (.registerTask ⟨3⟩ sampleParams), .call [⟨4⟩] (.claimTask ⟨4⟩ 1),
    .call [⟨4⟩] (.claimTask ⟨4⟩ 2), .call [⟨4⟩] (.executeTask ⟨4⟩ 1 []), .close 5,
    .call [⟨1⟩] (.setDisputeWindow ⟨1⟩ second), .call [⟨4⟩] (.executeTask ⟨4⟩ 2 [])]

/-- With a longer window the second credit unlocks after the first. -/
theorem credits_ordered_lengthened :
    unlocks (play beforeDisputes (windowScript 10 20)) ⟨4⟩ = [10, 21] ∧
      (unlocks (play beforeDisputes (windowScript 10 20)) ⟨4⟩).Pairwise (· ≤ ·) :=
  ⟨by decide, credits_ordered_unless_shortened (genesis_fresh (by decide))
    (Playable.run (by decide : Playable beforeDisputes (windowScript 10 20))) ⟨4⟩ (by decide)⟩

/-- With a shorter window the second credit unlocks before the first, which it is stored behind. -/
theorem credits_out_of_order :
    Fresh beforeDisputes ∧ ExactRun beforeDisputes (play beforeDisputes (windowScript 20 10)) ∧
      unlocks (play beforeDisputes (windowScript 20 10)) ⟨4⟩ = [20, 11] ∧
      ¬ (unlocks (play beforeDisputes (windowScript 20 10)) ⟨4⟩).Pairwise (· ≤ ·) :=
  ⟨genesis_fresh (by decide),
    Playable.run (by decide : Playable beforeDisputes (windowScript 20 10)), by decide, by decide⟩

end KeeperNetwork
