import KeeperNetwork.Proofs.Credits

/-! Every pending credit is finalized or forfeited at most once, and never while it may not be. -/

namespace KeeperNetwork

open Soroban Bookkeeping

/-- How many credits for a task are pending. -/
def pendingCount (w : World) (keeper : Address) (taskId : Nat) : Int :=
  (pendingCreditsOf w keeper).countP fun credit => credit.taskId == taskId

namespace Receipt

def creditsAdded (keeper : Address) (taskId : Nat) (receipt : Receipt) : Int :=
  pendingCount receipt.after keeper taskId - pendingCount receipt.before keeper taskId

/-- How many credits of a task an execution left pending. -/
def held (keeper : Address) (taskId : Nat) (receipt : Receipt) : Int :=
  match receipt.call with
  | .executeTask .. => receipt.creditsAdded keeper taskId
  | _ => 0

/-- How many pending credits of a task a withdrawal took off the list. -/
def finalized (keeper : Address) (taskId : Nat) (receipt : Receipt) : Int :=
  match receipt.call with
  | .withdrawRewards .. => -receipt.creditsAdded keeper taskId
  | _ => 0

/-- How many pending credits of a task a resolved dispute took off the list. -/
def forfeited (keeper : Address) (taskId : Nat) (receipt : Receipt) : Int :=
  match receipt.call with
  | .resolveExecutionDispute .. => -receipt.creditsAdded keeper taskId
  | _ => 0

end Receipt

/-- The pending credits of a task: those executions left, less finalized and forfeited ones. -/
def creditAccount (keeper : Address) (taskId : Nat) : Account World Entry where
  stock w := pendingCount w keeper taskId
  flow
    | .call receipt => receipt.held keeper taskId - receipt.finalized keeper taskId -
        receipt.forfeited keeper taskId
    | .outside _ => 0

variable {token : Token} {inv : Invocation} {start e e' : Env} {call : Call} {value : Value}
  {keeper : Address} {taskId : Nat} {credit : PendingCredit}

theorem pendingCount_eq_count (w : World) (keeper : Address) (taskId : Nat) :
    pendingCount w keeper taskId =
      ((pendingCreditsOf w keeper).map PendingCredit.taskId).count taskId := by
  simp [pendingCount, List.count, List.countP_map, Function.comp_def]

variable {credits : List PendingCredit} {index : Nat}

theorem countP_eraseIdx {erased : PendingCredit} (read : credits[index]? = some erased)
    (wanted : PendingCredit → Bool) :
    ((credits.eraseIdx index).countP wanted : Int) =
      credits.countP wanted - if wanted erased then 1 else 0 := by
  -- The erased credit and the rest of the list make up the list it was erased from.
  obtain ⟨within, rfl⟩ := List.getElem?_eq_some_iff.mp read
  have whole := (List.getElem_cons_eraseIdx_perm within).countP_eq wanted
  split
  · next matched => simp [matched] at whole; omega
  · next other => simp [other] at whole; omega

theorem CreditMove.counted (move : CreditMove e e' call value keeper) (taskId : Nat) :
    pendingCount e' keeper taskId = pendingCount e keeper taskId ∨
    (∃ proof, call = .executeTask keeper taskId proof ∧
      pendingCount e' keeper taskId = pendingCount e keeper taskId + 1) ∨
    (call = .withdrawRewards keeper ∧
      pendingCount e' keeper taskId ≤ pendingCount e keeper taskId) ∨
    (∃ admin, call = .resolveExecutionDispute admin taskId true ∧
      pendingCount e' keeper taskId = pendingCount e keeper taskId - 1) := by
  cases move with
  | untouched same => exact .inl (by simp only [pendingCount, same])
  | @held executed proof _ _ _ called _ _ _ _ _ credits =>
    by_cases same : executed = taskId
    · subst same
      refine .inr (.inl ⟨proof, called, ?_⟩)
      simp [pendingCount, credits, heldCredit]
    · refine .inl ?_
      simp [pendingCount, credits, heldCredit, same]
  | finalized called credits =>
    refine .inr (.inr (.inl ⟨called, ?_⟩))
    rw [pendingCount, pendingCount, credits]
    exact_mod_cast List.filter_sublist.countP_le
  | disputed _ _ read _ _ _ credits | released _ read _ _ credits =>
    refine .inl ?_
    rw [pendingCount_eq_count, pendingCount_eq_count, credits,
      map_set_flag read PendingCredit.taskId fun _ => rfl]
  | @forfeited admin resolved index credit called read named _ _ credits =>
    have erased := countP_eraseIdx read fun credit => credit.taskId == taskId
    by_cases same : resolved = taskId
    · subst same
      refine .inr (.inr (.inr ⟨admin, called, ?_⟩))
      simpa [pendingCount, credits, named] using erased
    · refine .inl ?_
      simpa [pendingCount, credits, named, same] using erased

theorem Receipt.booked_nothing {receipt : Receipt}
    (nothing : receipt.creditsAdded keeper taskId = 0) :
    receipt.held keeper taskId = 0 ∧ receipt.finalized keeper taskId = 0 ∧
      receipt.forfeited keeper taskId = 0 := by
  unfold Receipt.held Receipt.finalized Receipt.forfeited
  cases receipt.call <;> simp [nothing]

theorem CreditMove.booked (move : CreditMove e e' call value keeper) (taskId : Nat) :
    let receipt : Receipt := ⟨e, call, value, e'⟩
    pendingCount e' keeper taskId - pendingCount e keeper taskId =
        receipt.held keeper taskId - receipt.finalized keeper taskId -
          receipt.forfeited keeper taskId ∧
      receipt.held keeper taskId ≤ receipt.settled taskId ∧
      0 ≤ receipt.finalized keeper taskId ∧ 0 ≤ receipt.forfeited keeper taskId := by
  intro receipt
  rcases move.counted taskId with
    same | ⟨proof, rfl, added⟩ | ⟨rfl, taken⟩ | ⟨admin, rfl, taken⟩
  · have settled : 0 ≤ receipt.settled taskId := by
      unfold Receipt.settled
      split <;> omega
    obtain ⟨held, finalized, forfeited⟩ :=
      Receipt.booked_nothing (by simp [receipt, Receipt.creditsAdded, same] :
        receipt.creditsAdded keeper taskId = 0)
    omega
  · simp [receipt, Receipt.held, Receipt.finalized, Receipt.forfeited, Receipt.creditsAdded,
      Receipt.settled, Call.settles, added]
  · simp [receipt, Receipt.held, Receipt.finalized, Receipt.forfeited, Receipt.creditsAdded,
      Receipt.settled, Call.settles, taken]
  · simp [receipt, Receipt.held, Receipt.finalized, Receipt.forfeited, Receipt.creditsAdded,
      Receipt.settled, Call.settles, taken]

theorem creditAccount_conserved (keeper : Address) (taskId : Nat) :
    Conserved (creditAccount keeper taskId) where
  call {token inv e e' call value} exact formed _ effect := by
    obtain ⟨booked, -⟩ := (effect.creditMove exact formed keeper).booked taskId
    rw [Env.unexplained_record]
    simp only [Env.unexplained, Account.unexplained, creditAccount, effect.history exact]
    omega
  clock _ _ _ := rfl
  outside _ _ := (add_zero _).symm

theorem Accounted.settlements_le_one (accounted : Accounted e taskId) :
    receiptTotal (Receipt.settled taskId) e.history ≤ 1 := by
  -- Whatever became of the task, its release names the number of its settlements.
  change (Release.ofHistory taskId e.history).settlements ≤ 1
  unfold Accounted at accounted
  cases found : e.tasks.lookup taskId with
  | none =>
    rw [found] at accounted
    simp [accounted.2, Release.nothing]
  | some task =>
    simp only [found] at accounted
    obtain ⟨-, released⟩ := accounted
    cases status : task.status with
    | pending | claimed =>
      simp only [status] at released
      simp [released, Release.nothing]
    | cancelled | expired =>
      simp only [status] at released
      simp [released, Release.refund]
    | executed =>
      simp only [status] at released
      obtain ⟨_, _, _, -, -, shared⟩ := released
      simp [shared, Release.share]

/-- A held credit is pending, finalized or forfeited, and only one of these. -/
theorem ExactRun.pendingCount_explained (fresh : Fresh start) (run : ExactRun start e)
    (keeper : Address) (taskId : Nat) :
    pendingCount e keeper taskId +
        receiptTotal (Receipt.finalized keeper taskId) e.history +
        receiptTotal (Receipt.forfeited keeper taskId) e.history =
      receiptTotal (Receipt.held keeper taskId) e.history ∧
    receiptTotal (Receipt.held keeper taskId) e.history ≤ 1 ∧
    0 ≤ pendingCount e keeper taskId ∧
    0 ≤ receiptTotal (Receipt.finalized keeper taskId) e.history ∧
    0 ≤ receiptTotal (Receipt.forfeited keeper taskId) e.history := by
  have explained := (creditAccount_conserved keeper taskId).explained fresh run
  have none : pendingCount start keeper taskId = 0 := by
    simp [pendingCount, pendingCreditsOf, fresh.unused.1.credits]
  have booked : (creditAccount keeper taskId).booked e.history =
      receiptTotal (Receipt.held keeper taskId) e.history -
        receiptTotal (Receipt.finalized keeper taskId) e.history -
        receiptTotal (Receipt.forfeited keeper taskId) e.history := by
    rw [← receiptTotal_sub, ← receiptTotal_sub]
    rfl
  -- Every record of the run books the way a single call does.
  have bounds : ∀ receipt, .call receipt ∈ e.history →
      receipt.held keeper taskId ≤ receipt.settled taskId ∧
        0 ≤ receipt.finalized keeper taskId ∧ 0 ≤ receipt.forfeited keeper taskId :=
    ExactRun.receipts (fun exact formed effect =>
      ((effect.creditMove exact formed keeper).booked taskId).2) fresh run
  have held := (receiptTotal_le fun receipt member => (bounds receipt member).1).trans
    (ExactRun.accounted fresh run taskId).settlements_le_one
  have finalized := receiptTotal_nonneg fun receipt member => (bounds receipt member).2.1
  have forfeited := receiptTotal_nonneg fun receipt member => (bounds receipt member).2.2
  have pending : 0 ≤ pendingCount e keeper taskId := Int.natCast_nonneg _
  simp only [creditAccount] at explained booked
  refine ⟨?_, held, pending, finalized, forfeited⟩
  omega

/-- What a successful call can do to one pending credit. -/
inductive CreditFate (e e' : Env) (call : Call) (value : Value) (keeper : Address)
    (credit : PendingCredit) : Prop where
  /-- It stays on the list as it is. -/
  | kept (member : credit ∈ pendingCreditsOf e' keeper)
  /-- The owner of its task disputes it before its window has elapsed. -/
  | disputed {owner : Address} (called : call = .disputeExecution owner credit.taskId)
      (undisputed : credit.disputed = false) (within : e.sequence < credit.unlockLedger)
      (member : { credit with disputed := true } ∈ pendingCreditsOf e' keeper)
  /-- The administrator rejects its dispute. -/
  | released {admin : Address} (called : call = .resolveExecutionDispute admin credit.taskId false)
      (pending : credit.disputed = true)
      (member : { credit with disputed := false } ∈ pendingCreditsOf e' keeper)
  /-- It is finalized, undisputed and after its window, and paid with everything that is ready. -/
  | finalized (called : call = .withdrawRewards keeper) (undisputed : credit.disputed = false)
      (elapsed : credit.unlockLedger ≤ e.sequence)
      (paid : value = .amount (keeperRewardOf e keeper +
        creditsTotal (readyCredits (pendingCreditsOf e keeper) e.sequence)))
  /-- It is forfeited to the protocol after the owner of its task disputed it in time. -/
  | forfeited {admin : Address} (called : call = .resolveExecutionDispute admin credit.taskId true)
      (pending : credit.disputed = true) (inTime : DisputedInTime e.history credit)
      (gone : pendingCount e' keeper credit.taskId =
        pendingCount e keeper credit.taskId - 1)
      (accrued : feesAccrued e' = feesAccrued e + credit.netReward)

theorem mem_set_or_eq {replaced replacement : PendingCredit}
    (read : credits[index]? = some replaced) (member : credit ∈ credits) :
    credit = replaced ∨ credit ∈ credits.set index replacement := by
  obtain ⟨place, bound, rfl⟩ := List.mem_iff_getElem.mp member
  by_cases same : index = place
  · subst same
    exact .inl (by simpa [bound] using read)
  · refine .inr (List.mem_iff_getElem?.mpr ⟨place, ?_⟩)
    simp [List.getElem?_set_ne same]

theorem mem_eraseIdx_or_eq {erased : PendingCredit} (read : credits[index]? = some erased)
    (member : credit ∈ credits) : credit = erased ∨ credit ∈ credits.eraseIdx index := by
  obtain ⟨within, rfl⟩ := List.getElem?_eq_some_iff.mp read
  exact List.mem_cons.mp ((List.getElem_cons_eraseIdx_perm within).mem_iff.mpr member)

theorem CreditMove.fate (move : CreditMove e e' call value keeper) (credited : Credited e)
    (member : credit ∈ pendingCreditsOf e keeper) : CreditFate e e' call value keeper credit := by
  cases move with
  | untouched same => exact .kept (same ▸ member)
  | held _ _ _ _ _ _ credits =>
    exact .kept (by rw [credits]; exact List.mem_append_left _ member)
  | finalized called credits paid =>
    by_cases ready : credit.finalizable e.sequence = true
    · obtain ⟨undisputed, elapsed⟩ : credit.disputed = false ∧
          credit.unlockLedger ≤ e.sequence := by simpa [PendingCredit.finalizable] using ready
      exact .finalized called undisputed elapsed paid
    · exact .kept (by rw [credits]; exact List.mem_filter.mpr ⟨member, by simpa using ready⟩)
  | disputed called _ read named undisputed within credits =>
    rcases mem_set_or_eq read member with rfl | elsewhere
    · refine .disputed (named ▸ called) undisputed within ?_
      rw [credits]
      exact List.mem_set (List.getElem?_eq_some_iff.mp read).1 _
    · exact .kept (credits ▸ elsewhere)
  | forfeited called read named pending accrued credits =>
    rcases mem_eraseIdx_or_eq read member with rfl | elsewhere
    · have erased := countP_eraseIdx read fun listed => listed.taskId == credit.taskId
      exact .forfeited (named ▸ called) pending
        ((credited.earned keeper credit member).disputed pending)
        (by simpa [pendingCount, credits] using erased) accrued
    · exact .kept (credits ▸ elsewhere)
  | released called read named pending credits =>
    rcases mem_set_or_eq read member with rfl | elsewhere
    · refine .released (named ▸ called) pending ?_
      rw [credits]
      exact List.mem_set (List.getElem?_eq_some_iff.mp read).1 _
    · exact .kept (credits ▸ elsewhere)

theorem Credited.unique (credited : Credited e) {keeper' : Address} {index' : Nat}
    {credit' : PendingCredit} (read : (pendingCreditsOf e keeper)[index]? = some credit)
    (read' : (pendingCreditsOf e keeper')[index']? = some credit')
    (same : credit.taskId = credit'.taskId) : keeper = keeper' ∧ index = index' := by
  -- A task has one claimer, and the tasks on the list of one keeper are distinct.
  obtain ⟨task, found, -, claimer⟩ :=
    (credited.earned keeper credit (List.mem_of_getElem? read)).executed
  obtain ⟨task', found', -, claimer'⟩ :=
    (credited.earned keeper' credit' (List.mem_of_getElem? read')).executed
  rw [same] at found
  cases found.symm.trans found'
  obtain rfl : keeper = keeper' := Option.some.inj (claimer.symm.trans claimer')
  refine ⟨rfl, ?_⟩
  have here : ((pendingCreditsOf e keeper).map PendingCredit.taskId)[index]? =
      some credit'.taskId := by simp [read, same]
  have there : ((pendingCreditsOf e keeper).map PendingCredit.taskId)[index']? =
      some credit'.taskId := by simp [read']
  obtain ⟨bound, value⟩ := List.getElem?_eq_some_iff.mp here
  obtain ⟨bound', value'⟩ := List.getElem?_eq_some_iff.mp there
  exact (credited.distinct keeper).getElem_inj_iff.mp (value.trans value'.symm)

theorem Credited.before_unlock {owner : Address} (credited : Credited e)
    (member : credit ∈ pendingCreditsOf e keeper)
    (disputable : Succeeds token inv (.disputeExecution owner credit.taskId) e) :
    e.sequence < credit.unlockLedger := by
  obtain ⟨value, finish, effect⟩ := disputable.effect
  cases effect with
  | @disputeExecution _ _ _ _ _ other _ _ _ _ located read _ within =>
    -- The credit the dispute finds belongs to the same task, so it is this one.
    obtain ⟨index, listed⟩ := List.mem_iff_getElem?.mp member
    have named : other.taskId = credit.taskId := by simpa using located_spec located read
    obtain ⟨rfl, rfl⟩ := credited.unique listed read named.symm
    cases listed.symm.trans read
    exact within

theorem pendingCount_pos (member : credit ∈ pendingCreditsOf e keeper) :
    1 ≤ pendingCount e keeper credit.taskId := by
  have positive : 0 < (pendingCreditsOf e keeper).countP
      fun listed => listed.taskId == credit.taskId :=
    List.countP_pos_iff.mpr ⟨credit, member, beq_self_eq_true credit.taskId⟩
  unfold pendingCount
  omega

/-- An administrator rejected the dispute of a credit in this part of a history. -/
def ReleasedIn (recent : List Entry) (taskId : Nat) : Prop :=
  ∃ receipt admin, .call receipt ∈ recent ∧
    receipt.call = .resolveExecutionDispute admin taskId false

/-- A disputed credit stays until it is released or forfeited. -/
theorem ExactStep.disputed_stays {recent : List Entry} (fresh : Fresh start)
    (run : ExactRun start e) (step : ExactStep e e') (pending : credit.disputed = true)
    (stays : ReleasedIn recent credit.taskId ∨ credit ∈ pendingCreditsOf e keeper ∨
      1 ≤ receiptTotal (Receipt.forfeited keeper credit.taskId) e.history) :
    ∃ latest, e'.history = latest ++ e.history ∧
      (ReleasedIn (latest ++ recent) credit.taskId ∨
        credit ∈ pendingCreditsOf e' keeper ∨
        1 ≤ receiptTotal (Receipt.forfeited keeper credit.taskId) e'.history) := by
  have formed := ExactRun.wellFormed fresh run
  cases Step.happens step with
  | @called token inv call value finish exact _ _ effect =>
    have move := effect.creditMove exact formed keeper
    refine ⟨[.call ⟨e, call, value, finish⟩], by simp [effect.history exact], ?_⟩
    have booked := (move.booked credit.taskId).2.2.2
    have forfeits : receiptTotal (Receipt.forfeited keeper credit.taskId)
        (finish.record e call value).history =
          Receipt.forfeited keeper credit.taskId ⟨e, call, value, finish⟩ +
          receiptTotal (Receipt.forfeited keeper credit.taskId) e.history := by
      simp [effect.history exact]
    rcases stays with ⟨receipt, admin, old, called⟩ | member | gone
    · exact .inl ⟨receipt, admin, List.mem_append_right _ old, called⟩
    · cases move.fate (ExactRun.credited fresh run) member with
      | kept member => exact .inr (.inl member)
      | disputed _ undisputed | finalized _ undisputed => simp [pending] at undisputed
      | released called => exact .inl ⟨_, _, List.mem_append_left _ List.mem_cons_self, called⟩
      | forfeited called _ _ taken =>
        -- This very call counts as the forfeit.
        obtain ⟨-, -, -, -, before⟩ :=
          ExactRun.pendingCount_explained fresh run keeper credit.taskId
        refine .inr (.inr ?_)
        subst called
        simp only [forfeits, Receipt.forfeited, Receipt.creditsAdded] at before ⊢
        omega
    · refine .inr (.inr ?_)
      omega
  | failed | closed => exact ⟨[], rfl, stays⟩
  | received balances =>
    refine ⟨[_], rfl, ?_⟩
    rcases stays with ⟨receipt, admin, old, called⟩ | member | gone
    · exact .inl ⟨receipt, admin, List.mem_append_right _ old, called⟩
    · exact .inr (.inl member)
    · exact .inr (.inr (by simpa using gone))

theorem ExactRun.disputed_not_finalized (fresh : Fresh start) (run : ExactRun start e)
    (member : credit ∈ pendingCreditsOf e keeper) (pending : credit.disputed = true)
    (later : ExactRun e e') :
    ∃ recent, e'.history = recent ++ e.history ∧ (ReleasedIn recent credit.taskId ∨
      receiptTotal (Receipt.finalized keeper credit.taskId) e'.history = 0) := by
  -- The invariant also says where the credit is, which leaves no room for a finalization.
  have stays : ∃ recent, e'.history = recent ++ e.history ∧ (ReleasedIn recent credit.taskId ∨
      credit ∈ pendingCreditsOf e' keeper ∨
      1 ≤ receiptTotal (Receipt.forfeited keeper credit.taskId) e'.history) := by
    induction later with
    | refl => exact ⟨[], rfl, .inr (.inl member)⟩
    | tail ran last ih =>
      obtain ⟨recent, history, stays⟩ := ih
      obtain ⟨latest, grown, still⟩ :=
        ExactStep.disputed_stays fresh (run.trans ran) last pending stays
      exact ⟨latest ++ recent, by rw [grown, history, List.append_assoc], still⟩
  obtain ⟨recent, history, stays⟩ := stays
  obtain ⟨explained, once, counted, finalized, forfeited⟩ :=
    ExactRun.pendingCount_explained fresh (run.trans later) keeper credit.taskId
  refine ⟨recent, history, ?_⟩
  rcases stays with released | still | gone
  · exact .inl released
  · have one := pendingCount_pos still
    exact .inr (by omega)
  · exact .inr (by omega)

/--
Every pending credit has one end, and nobody can choose the other one in its place.

It is the only credit of its task and was earned by executing it, it leaves the list at most once,
no state allows both a dispute and a finalization of it, a disputed credit waits for the dispute to
be rejected, and a new dispute window leaves the credits that exist alone.
-/
theorem dispute_window_accounting (fresh : Fresh start) (run : ExactRun start e) :
    (∀ keeper keeper' (index index' : Nat) (credit credit' : PendingCredit),
      (pendingCreditsOf e keeper)[index]? = some credit →
      (pendingCreditsOf e keeper')[index']? = some credit' →
      credit.taskId = credit'.taskId → keeper = keeper' ∧ index = index') ∧
    (∀ keeper, ∀ credit ∈ pendingCreditsOf e keeper, Earned e keeper credit) ∧
    (∀ keeper taskId,
      pendingCount e keeper taskId +
          receiptTotal (Receipt.finalized keeper taskId) e.history +
          receiptTotal (Receipt.forfeited keeper taskId) e.history =
        receiptTotal (Receipt.held keeper taskId) e.history ∧
      receiptTotal (Receipt.held keeper taskId) e.history ≤ 1 ∧
      0 ≤ receiptTotal (Receipt.finalized keeper taskId) e.history ∧
      0 ≤ receiptTotal (Receipt.forfeited keeper taskId) e.history) ∧
    (∀ keeper, ∀ credit ∈ pendingCreditsOf e keeper, ∀ token inv call value e',
      ExactToken token → invoke token inv call e = (.ok value, e') →
        CreditFate e e' call value keeper credit) ∧
    (∀ keeper, ∀ credit ∈ pendingCreditsOf e keeper, ∀ token inv owner,
      Succeeds token inv (.disputeExecution owner credit.taskId) e →
        credit.finalizable e.sequence = false) ∧
    (∀ keeper, ∀ credit ∈ pendingCreditsOf e keeper, credit.disputed = true →
      ∀ e', ExactRun e e' → ∃ recent, e'.history = recent ++ e.history ∧
        (ReleasedIn recent credit.taskId ∨
          receiptTotal (Receipt.finalized keeper credit.taskId) e'.history = 0)) ∧
    (∀ token inv admin ledgers,
      (invoke token inv (.setDisputeWindow admin ledgers) e).2.pendingReward =
        e.pendingReward) := by
  have formed := ExactRun.wellFormed fresh run
  have credited := ExactRun.credited fresh run
  refine ⟨?_, credited.earned, ?_, ?_, ?_, ?_, ?_⟩
  · exact fun _ _ _ _ _ _ read read' same => credited.unique read read' same
  · intro keeper taskId
    obtain ⟨explained, once, -, finalized, forfeited⟩ :=
      ExactRun.pendingCount_explained fresh run keeper taskId
    exact ⟨explained, once, finalized, forfeited⟩
  · intro keeper credit member token inv call value e' exact called
    obtain ⟨finish, effect, rfl⟩ := invoke_ok called
    cases (effect.creditMove exact formed keeper).fate credited member with
    | kept member => exact .kept member
    | disputed called undisputed within member => exact .disputed called undisputed within member
    | released called pending member => exact .released called pending member
    | finalized called undisputed elapsed paid => exact .finalized called undisputed elapsed paid
    | forfeited called pending inTime gone accrued =>
      exact .forfeited called pending inTime gone accrued
  · intro keeper credit member token inv owner disputable
    have within := credited.before_unlock member disputable
    simp [PendingCredit.finalizable, within]
  · exact fun keeper credit member pending e' later =>
      ExactRun.disputed_not_finalized fresh run member pending later
  · intro token inv admin ledgers
    rcases invoke_cases token inv (.setDisputeWindow admin ledgers) e with
      ⟨value, finish, effect, called⟩ | failed
    · cases effect with
      | setDisputeWindow => simp [called]
    · rw [failed]

/-- A registry with a fee of ten percent, before anything was executed. -/
def beforeDisputes : Env :=
  genesis ⟨0⟩ ⟨1⟩ ⟨2⟩ 1000 (hundredOf ⟨3⟩) 0 0

theorem beforeDisputes_fresh : Fresh beforeDisputes := genesis_fresh (by decide)

/-- A credit is disputed, the dispute is rejected, and the credit is withdrawn once it is ready. -/
def rejectedScript : List Turn :=
  [.call [⟨1⟩] (.setDisputeWindow ⟨1⟩ 1), .call [⟨3⟩] (.registerTask ⟨3⟩ sampleParams),
    .call [⟨4⟩] (.claimTask ⟨4⟩ 1), .call [⟨4⟩] (.executeTask ⟨4⟩ 1 []),
    .call [⟨3⟩] (.disputeExecution ⟨3⟩ 1), .call [⟨1⟩] (.resolveExecutionDispute ⟨1⟩ 1 false),
    .close 5, .call [⟨4⟩] (.withdrawRewards ⟨4⟩)]

/-- After the script the one credit of the task is finalized, and its keeper has been paid. -/
theorem dispute_window_accounting_rejected :
    (play beforeDisputes rejectedScript).balances.of ⟨4⟩ = 36 ∧
    receiptTotal (Receipt.finalized ⟨4⟩ 1) (play beforeDisputes rejectedScript).history = 1 ∧
    pendingCount (play beforeDisputes rejectedScript) ⟨4⟩ 1 = 0 ∧
    receiptTotal (Receipt.forfeited ⟨4⟩ 1) (play beforeDisputes rejectedScript).history = 0 := by
  obtain ⟨-, -, counted, -⟩ := dispute_window_accounting beforeDisputes_fresh
    (Playable.run (by decide : Playable beforeDisputes rejectedScript))
  obtain ⟨explained, once, -, forfeited⟩ := counted ⟨4⟩ 1
  have finalized : receiptTotal (Receipt.finalized ⟨4⟩ 1)
      (play beforeDisputes rejectedScript).history = 1 := by decide
  have pending : 0 ≤ pendingCount (play beforeDisputes rejectedScript) ⟨4⟩ 1 :=
    Int.natCast_nonneg _
  refine ⟨by decide, finalized, ?_, ?_⟩ <;> omega

end KeeperNetwork
