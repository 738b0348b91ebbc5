import KeeperNetwork.Registry.InternalLaws

/-! What the loops of the registry do: walks over pending credits and over a batch's entries. -/

namespace KeeperNetwork

open Soroban

variable {inv : Invocation} {e e' : Env} {u : Unit}

/-- Every running total of the amounts, added one by one to a start, fits its type. -/
def SumsFit : Int → List Int → Prop
  | _, [] => True
  | start, amount :: rest =>
    (i128Min ≤ start + amount ∧ start + amount ≤ i128Max) ∧ SumsFit (start + amount) rest

theorem sumsFit_of_nonneg {amounts : List Int} {start : Int} (started : i128Min ≤ start)
    (nonneg : ∀ amount ∈ amounts, 0 ≤ amount) (fits : start + amounts.sum ≤ i128Max) :
    SumsFit start amounts := by
  induction amounts generalizing start with
  | nil => trivial
  | cons amount rest ih =>
    have here := nonneg amount List.mem_cons_self
    have later : ∀ other ∈ rest, 0 ≤ other :=
      fun other member => nonneg other (List.mem_cons_of_mem _ member)
    have remaining := List.sum_nonneg later
    rw [List.sum_cons] at fits
    exact ⟨⟨by omega, by omega⟩, ih (by omega) later (by omega)⟩

/-- The environment after several amounts were credited to a keeper in one walk. -/
@[simps] def Env.credited (e : Env) (inv : Invocation) (keeper : Address) (amounts : List Int) :
    Env :=
  { e with
    keeperReward := if amounts = [] then e.keeperReward
      else e.keeperReward.insert keeper (keeperRewardOf e keeper + amounts.sum)
    liveUntil := if amounts = [] then e.liveUntil
      else (e.credit inv keeper amounts.sum).liveUntil }

theorem credit_liveUntil_twice (e : Env) (inv : Invocation) (keeper : Address)
    (first second third : Int) :
    ((e.credit inv keeper first).credit inv keeper second).liveUntil =
      (e.credit inv keeper third).liveUntil := by
  funext key
  by_cases same : key = .keeperReward keeper
  · subst same
    simp [Env.granted, extendTtl_idem]
  · simp [Env.granted, Function.update_of_ne same]

theorem credit_credited (keeper : Address) (amount : Int) (rest : List Int) :
    (e.credit inv keeper amount).credited inv keeper rest =
      e.credited inv keeper (amount :: rest) := by
  cases rest with
  | nil => simp [Env.credited, Env.credit, Env.setKeeperReward, Env.extend]
  | cons next rest =>
    have renewed := credit_liveUntil_twice e inv keeper amount
      (next + rest.sum) (amount + (next + rest.sum))
    have total : keeperRewardOf (e.credit inv keeper amount) keeper + (next + rest.sum) =
        keeperRewardOf e keeper + (amount + (next + rest.sum)) := by
      simp [keeperRewardOf, add_assoc]
    simp only [Env.credited, reduceCtorEq, ↓reduceIte, List.sum_cons, renewed, total,
      Env.credit_keeperReward, Finmap.insert_insert]
    rfl

/-- The credits of a keeper that can be finalized at a ledger. -/
def readyCredits (credits : List PendingCredit) (now : Nat) : List PendingCredit :=
  credits.filter fun credit => credit.finalizable now

/-- The credits of a keeper that have to wait at a ledger. -/
def heldCredits (credits : List PendingCredit) (now : Nat) : List PendingCredit :=
  credits.filter fun credit => !credit.finalizable now

variable {credits : List PendingCredit}

@[simp] theorem finalizeCredits_returns {keeper : Address} {now : Nat}
    {walked : List PendingCredit × List (Nat × Int)} :
    (finalizeCredits inv keeper now credits).Returns e walked e' ↔
      SumsFit (keeperRewardOf e keeper)
        ((readyCredits credits now).map PendingCredit.netReward) ∧
      walked = (heldCredits credits now,
        (readyCredits credits now).map fun credit => (credit.taskId, credit.netReward)) ∧
      e' = e.credited inv keeper ((readyCredits credits now).map PendingCredit.netReward) := by
  induction credits generalizing e e' walked with
  | nil => simp [finalizeCredits, readyCredits, heldCredits, SumsFit, Env.credited]
  | cons credit rest ih =>
    -- The balance the rest of the walk starts from already holds this credit.
    have started : keeperRewardOf (e.credit inv keeper credit.netReward) keeper =
        keeperRewardOf e keeper + credit.netReward := by
      simp [keeperRewardOf]
    by_cases ready : credit.finalizable now = true
    · simp [finalizeCredits, ready, ih, readyCredits, heldCredits, SumsFit, ← credit_credited,
        started, and_assoc, and_comm]
    · simp [finalizeCredits, ready, ih, readyCredits, heldCredits, and_assoc, and_comm]

/-- The environment after a keeper's ready credits were finalized. -/
@[simps] def Env.finalized (e : Env) (inv : Invocation) (keeper : Address)
    (ready held : List PendingCredit) : Env :=
  { e with
    keeperReward := (e.credited inv keeper (ready.map PendingCredit.netReward)).keeperReward
    pendingReward := if ready = [] then e.pendingReward
      else (e.savePending inv keeper held).pendingReward
    liveUntil := if ready = [] then e.liveUntil
      else ((e.credited inv keeper (ready.map PendingCredit.netReward)).savePending inv keeper
        held).liveUntil }

/-- Finalizing credits every ready amount and stores the credits that have to wait. -/
@[simp] theorem finalizeRewards_returns {keeper : Address} {moved : List (Nat × Int)} :
    (finalizeRewards inv keeper).Returns e moved e' ↔
      SumsFit (keeperRewardOf e keeper)
        ((readyCredits (pendingCreditsOf e keeper) e.sequence).map
          PendingCredit.netReward) ∧
      moved = (readyCredits (pendingCreditsOf e keeper) e.sequence).map
        (fun credit => (credit.taskId, credit.netReward)) ∧
      e' = e.finalized inv keeper (readyCredits (pendingCreditsOf e keeper) e.sequence)
        (heldCredits (pendingCreditsOf e keeper) e.sequence) := by
  generalize readied : readyCredits (pendingCreditsOf e keeper) e.sequence = ready
  generalize kept : heldCredits (pendingCreditsOf e keeper) e.sequence = held
  simp only [finalizeRewards, EStateM.returns_bind, EStateM.returns_get, EStateM.returns_pure,
    whenever_returns, finalizeCredits_returns, savePendingCredits_returns, and_assoc,
    exists_and_left, exists_eq_left, exists_const, readied, kept]
  refine and_congr_right fun _ => ?_
  by_cases empty : ready = []
  · simp [Env.finalized, Env.credited, empty, and_comm]
  · simp [Env.finalized, Env.savePending, Env.credited, empty, and_comm]

variable {forfeited : Int}

theorem resolveCredits_past {index offset : Nat} {uphold : Bool}
    {walked : List PendingCredit × Int} (past : index < offset) :
    (resolveCredits index uphold (credits.zipIdx offset) forfeited).Returns e walked e' ↔
      walked = (credits, forfeited) ∧ e' = e := by
  induction credits generalizing offset walked e' with
  | nil => simp [resolveCredits]
  | cons credit rest ih =>
    have apart : offset ≠ index := by omega
    simp [resolveCredits, List.zipIdx_cons, apart, ih (show index < offset + 1 by omega),
      and_comm]

theorem resolveCredits_upheld {position offset : Nat} {credit : PendingCredit}
    {walked : List PendingCredit × Int} (found : credits[position]? = some credit) :
    (resolveCredits (offset + position) true (credits.zipIdx offset) forfeited).Returns
        e walked e' ↔
      (i128Min ≤ forfeited + credit.netReward ∧ forfeited + credit.netReward ≤ i128Max) ∧
      walked = (credits.eraseIdx position, forfeited + credit.netReward) ∧ e' = e := by
  induction credits generalizing position offset walked e' with
  | nil => simp at found
  | cons first rest ih =>
    cases position with
    | zero =>
      obtain rfl : first = credit := by simpa using found
      -- The rest of the walk lies past the position.
      simp [resolveCredits, List.zipIdx_cons,
        resolveCredits_past (show offset < offset + 1 by omega), and_assoc]
    | succ position =>
      have later : rest[position]? = some credit := by simpa using found
      have step := fun walked e' => @ih e' position (offset + 1) walked later
      rw [show offset + 1 + position = offset + (position + 1) by omega] at step
      simp [resolveCredits, List.zipIdx_cons, step, and_assoc, and_comm]

theorem resolveCredits_released {position offset : Nat} {credit : PendingCredit}
    {walked : List PendingCredit × Int} (found : credits[position]? = some credit) :
    (resolveCredits (offset + position) false (credits.zipIdx offset) forfeited).Returns
        e walked e' ↔
      walked = (credits.set position { credit with disputed := false }, forfeited) ∧ e' = e := by
  induction credits generalizing position offset walked e' with
  | nil => simp at found
  | cons first rest ih =>
    cases position with
    | zero =>
      obtain rfl : first = credit := by simpa using found
      simp [resolveCredits, List.zipIdx_cons,
        resolveCredits_past (show offset < offset + 1 by omega), and_comm]
    | succ position =>
      have later : rest[position]? = some credit := by simpa using found
      have step := fun walked e' => @ih e' position (offset + 1) walked later
      rw [show offset + 1 + position = offset + (position + 1) by omega] at step
      simp [resolveCredits, List.zipIdx_cons, step, and_comm]

/-- What a registration checks before it accepts the parameters of a task. -/
structure ValidParams (e : Env) (params : BatchTaskParams) : Prop where
  positive : 0 < params.reward
  floor : minRewardFloor e ≤ params.reward
  ahead : e.timestamp < params.deadline
  calldata : params.calldata.length ≤ maxCalldataLen
  lock : minLockLedgers ≤ params.lockLedgers ∧ params.lockLedgers ≤ maxLockLedgers
  lifetime : minTtlLedgers ≤ params.ttlLedgers
  covered : requiredTtlLedgers e params.deadline ≤ params.ttlLedgers

@[simp] theorem validateTaskParams_returns {params : BatchTaskParams} :
    (validateTaskParams params.reward (minRewardFloor e) params.deadline
      params.calldata.length params.ttlLedgers params.lockLedgers).Returns e u e' ↔
      ValidParams e params ∧ e' = e := by
  simp only [validateTaskParams, EStateM.returns_bind, EStateM.returns_get, rejectIf_returns,
    and_assoc, exists_and_left, exists_eq_left, exists_const]
  constructor
  · rintro ⟨rewarded, ahead, short, lock, lifetime, covered, rfl⟩
    refine ⟨⟨?_, ?_, ?_, ?_, ?_, ?_, ?_⟩, rfl⟩ <;> omega
  · rintro ⟨⟨positive, floor, ahead, short, lock, lifetime, covered⟩, rfl⟩
    refine ⟨?_, ?_, ?_, ?_, ?_, ?_, rfl⟩ <;> omega

variable {entries : List BatchTaskParams}

theorem validateBatch_returns {start total : Int} :
    (validateBatch (minRewardFloor e) entries start).Returns e total e' ↔
      (∀ params ∈ entries, ValidParams e params) ∧
      SumsFit start (entries.map BatchTaskParams.reward) ∧
      total = start + (entries.map BatchTaskParams.reward).sum ∧ e' = e := by
  induction entries generalizing start with
  | nil => simp [validateBatch, SumsFit]
  | cons params rest ih =>
    simp [validateBatch, ih, SumsFit, and_assoc, and_left_comm, add_assoc]

/-- What storing the entries of a batch does, one transfer and one new task each. -/
inductive Registered (token : Token) (inv : Invocation) (owner : Address) :
    List BatchTaskParams → Env → List Nat → Env → Prop where
  | done (e : Env) : Registered token inv owner [] e [] e
  | next {params : BatchTaskParams} {rest : List BatchTaskParams} {e paid finish : Env}
      {taskIds : List Nat}
      (escrowed : (token owner e.self params.reward).Returns e () paid)
      (room : paid.taskCounter.getD 0 < u64Max)
      (others : Registered token inv owner rest
        ((paid.countTask.saveTask inv (paid.taskCounter.getD 0 + 1) (newTask owner params)).emit
          (.taskRegistered (paid.taskCounter.getD 0 + 1) owner params.reward params.deadline
            params.condition)) taskIds finish) :
      Registered token inv owner (params :: rest) e ((paid.taskCounter.getD 0 + 1) :: taskIds)
        finish

theorem registerEntries_returns {token : Token} {owner : Address} {taskIds : List Nat} :
    (registerEntries token inv owner entries).Returns e taskIds e' ↔
      Registered token inv owner entries e taskIds e' := by
  induction entries generalizing e e' taskIds with
  | nil =>
    simp only [registerEntries, EStateM.returns_pure]
    constructor
    · rintro ⟨rfl, rfl⟩
      exact .done _
    · rintro ⟨⟩
      exact ⟨rfl, rfl⟩
  | cons params rest ih =>
    simp only [registerEntries, EStateM.returns_bind, EStateM.returns_get, EStateM.returns_pure,
      nextTaskId_returns, saveTask_returns, emit_returns, ih, and_assoc, exists_and_left,
      exists_eq_left, exists_const]
    constructor
    · rintro ⟨⟨⟩, paid, escrowed, room, others, _, stored, rfl, rfl⟩
      exact .next escrowed room stored
    · rintro (_ | ⟨escrowed, room, others⟩)
      exact ⟨(), _, escrowed, room, _, _, others, rfl, rfl⟩

end KeeperNetwork
