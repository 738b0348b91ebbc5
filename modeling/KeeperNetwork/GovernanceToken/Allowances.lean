import KeeperNetwork.GovernanceToken.Supply

/-! A spender takes no more of an owner's tokens than it was allowed last. -/

namespace KeeperNetwork.GovernanceToken

open Soroban

/-- The call approves, or takes through an approval, for this owner and spender. -/
def Call.Concerns (owner spender : Address) : Call → Prop
  | .approve src agent _ _ => src = owner ∧ agent = spender
  | .transferFrom agent src _ _ => src = owner ∧ agent = spender
  | .burnFrom agent src _ => src = owner ∧ agent = spender
  | .initializeToken .. | .transfer .. | .burn .. => False

/-- Who gets what a call takes through an approval, unless it is burned. -/
def Call.receiver : Call → Option Address
  | .transferFrom _ _ dst _ => some dst
  | .initializeToken .. | .approve .. | .transfer .. | .burn .. | .burnFrom .. => none

/-- What the call approves for this owner and spender. -/
def Label.approval (owner spender : Address) : Label → Option AllowanceValue
  | .call (.approve src agent amount expirationLedger) =>
    if src = owner ∧ agent = spender then some ⟨amount, expirationLedger⟩ else none
  | _ => none

/-- What a returning call moves or burns of the owner's tokens through the spender. -/
def Label.takes (owner spender : Address) : Label → Int
  | .call (.transferFrom agent src _ amount) =>
    if src = owner ∧ agent = spender then amount else 0
  | .call (.burnFrom agent src amount) => if src = owner ∧ agent = spender then amount else 0
  | _ => 0

def lastApproval (owner spender : Address) (labels : List Label) : Option AllowanceValue :=
  labels.findSome? (Label.approval owner spender)

/-- What was taken after the last approval of a run. -/
def takenSince (owner spender : Address) (labels : List Label) : Int :=
  ((labels.takeWhile fun label => (label.approval owner spender).isNone).map
    (Label.takes owner spender)).sum

variable {granted : AllowanceValue}

section Labels

variable {owner spender : Address} {label : Label} (labels : List Label)

theorem approval_starts (approves : label.approval owner spender = some granted) :
    lastApproval owner spender (label :: labels) = some granted ∧
      takenSince owner spender (label :: labels) = 0 := by
  simp [lastApproval, takenSince, approves]

theorem approval_continues (approves : label.approval owner spender = none) :
    lastApproval owner spender (label :: labels) = lastApproval owner spender labels ∧
      takenSince owner spender (label :: labels) =
        label.takes owner spender + takenSince owner spender labels := by
  simp [lastApproval, takenSince, approves]

end Labels

section Entries

variable {e e' : Env} {auths : List Address} {call : Call} {owner spender : Address}

theorem Env.allowance_pos (positive : 0 < e.allowance owner spender) :
    ∃ value, e.allowances.lookup (owner, spender) = some value ∧
      e.sequence ≤ value.expirationLedger ∧ e.allowance owner spender = value.amount := by
  unfold Env.allowance at positive ⊢
  cases found : e.allowances.lookup (owner, spender) with
  | none =>
    simp only [found] at positive
    omega
  | some value =>
    simp only [found] at positive ⊢
    split at positive
    · rename_i unexpired
      exact ⟨value, rfl, unexpired, if_pos unexpired⟩
    · omega

theorem Effect.entry_approved (effect : Effect e auths call e')
    (approves : (Label.call call).approval owner spender = some granted) :
    0 ≤ granted.amount ∧ e'.allowances.lookup (owner, spender) =
      if granted.amount = 0 then none else some granted := by
  cases effect <;> simp only [Label.approval, reduceCtorEq] at approves
  -- Only an approval of this very pair is left.
  case approved nonneg _ =>
    split at approves
    · rename_i pair
      obtain ⟨rfl, rfl⟩ := pair
      obtain rfl := Option.some.inj approves
      refine ⟨nonneg, ?_⟩
      simp only [Env.emit]
      split <;> simp
    · cases approves

/-- An allowance changes only when it is approved or drawn on. -/
theorem Effect.entry_kept (effect : Effect e auths call e')
    (approves : (Label.call call).approval owner spender = none)
    (idle : (Label.call call).takes owner spender = 0) :
    e'.allowances.lookup (owner, spender) = e.allowances.lookup (owner, spender) := by
  cases effect with
  | minted fresh auth early dao team rest =>
    simp only [Env.emit, rest.sameTerms.allowances, team.sameTerms.allowances,
      dao.sameTerms.allowances, early.sameTerms.allowances]
  | @approved src agent amount expirationLedger _ _ _ =>
    -- The approval is of another pair.
    have other : (owner, spender) ≠ (src, agent) := by
      rintro ⟨⟩
      simp [Label.approval] at approves
    simp only [Env.emit]
    split
    · rw [Finmap.lookup_erase_eq, if_neg other]
    · rw [Finmap.lookup_insert_eq, if_neg other]
  | transferred auth funded debit credit fits =>
    simp only [Env.emit, credit.sameTerms.allowances, debit.sameTerms.allowances]
  | @transferredFrom agent src _ amount _ _ _ _ funded _ debit credit _ =>
    have other : (owner, spender) ≠ (src, agent) := by
      rintro ⟨⟩
      have := funded.positive
      simp only [Label.takes, and_self, if_true] at idle
      omega
    simp only [Env.emit, Env.lowerAllowance]
    rw [Finmap.lookup_insert_eq, if_neg other, credit.sameTerms.allowances,
      debit.sameTerms.allowances]
  | burned auth funded debit => simp only [Env.emit, debit.sameTerms.allowances]
  | @burnedFrom agent src amount _ _ _ funded _ debit =>
    have other : (owner, spender) ≠ (src, agent) := by
      rintro ⟨⟩
      have := funded.positive
      simp only [Label.takes, and_self, if_true] at idle
      omega
    simp only [Env.emit, Env.lowerAllowance]
    rw [Finmap.lookup_insert_eq, if_neg other, debit.sameTerms.allowances]
  | transferredNothing | transferredFromNothing | burnedNothing | burnedFromNothing => rfl

/-- Whoever takes tokens of an owner draws on a live allowance. -/
theorem Effect.entry_taken (effect : Effect e auths call e')
    (taken : (Label.call call).takes owner spender ≠ 0) :
    ∃ value, e.allowances.lookup (owner, spender) = some value ∧
      e.sequence ≤ value.expirationLedger ∧ 0 < (Label.call call).takes owner spender ∧
      (Label.call call).takes owner spender ≤ value.amount ∧
      e'.allowances.lookup (owner, spender) = some
        ⟨value.amount - (Label.call call).takes owner spender, value.expirationLedger⟩ := by
  -- Both entry points check the allowance they then lower.
  have lowered {src agent : Address} {amount : Int} {value : AllowanceValue} {moved : Env}
      (positive : 0 < amount) (spent : Spent e src agent amount value) :
      e.allowances.lookup (src, agent) = some value ∧ e.sequence ≤ value.expirationLedger ∧
        amount ≤ value.amount ∧
        (moved.lowerAllowance src agent (e.allowance src agent - amount) value).allowances.lookup
          (src, agent) = some ⟨value.amount - amount, value.expirationLedger⟩ := by
    obtain ⟨stored, found, unexpired, worth⟩ :=
      Env.allowance_pos (Int.lt_of_lt_of_le positive spent.covered)
    obtain rfl : stored = value := Option.some.inj (found.symm.trans spent.found)
    refine ⟨found, unexpired, worth ▸ spent.covered, ?_⟩
    simp only [Env.lowerAllowance, Finmap.lookup_insert, worth]
  cases effect with
  | transferredFrom _ funded spent | burnedFrom _ funded spent =>
    simp only [Label.takes] at taken ⊢
    split at taken
    · rename_i pair
      obtain ⟨rfl, rfl⟩ := pair
      obtain ⟨found, unexpired, covered, rest⟩ := lowered funded.positive spent
      simp only [and_self, if_true]
      exact ⟨_, found, unexpired, funded.positive, covered, rest⟩
    · exact absurd rfl taken
  | minted | approved | transferred | transferredNothing | burned | burnedNothing =>
    exact absurd rfl taken
  | transferredFromNothing | burnedFromNothing => simp [Label.takes] at taken

/--
What the call takes through the approval leaves the owner and reaches the receiver.

Both balances are read before either is written, so tokens that are sent back to their owner are
added to the balance.
-/
theorem Effect.takes_moved (effect : Effect e auths call e')
    (concerns : call.Concerns owner spender) (holder : Address) :
    e'.balance holder = e.balance holder +
      if call.receiver = some holder then (Label.call call).takes owner spender
      else if holder = owner then -(Label.call call).takes owner spender else 0 := by
  cases effect with
  | approved => simp [Label.takes, Call.receiver, Env.balance, Env.emit]
  | transferredFromNothing | burnedFromNothing => simp [Label.takes]
  | @transferredFrom _ _ dst _ _ _ _ _ _ _ debit credit =>
    obtain ⟨rfl, rfl⟩ := concerns
    simp only [Call.receiver, Option.some.injEq, Label.takes, and_self, if_true]
    -- The receiver's balance is written last.
    refine (credit.balance holder).trans ?_
    by_cases received : dst = holder
    · simp [received]
    · rw [if_neg (Ne.symm received), if_neg received, debit.balance]
      split
      · next same => rw [same, Int.sub_eq_add_neg]
      · exact (Int.add_zero _).symm
  | burnedFrom _ _ _ debit =>
    obtain ⟨rfl, rfl⟩ := concerns
    simp only [Call.receiver, reduceCtorEq, if_false, Label.takes, and_self, if_true]
    refine (debit.balance holder).trans ?_
    split
    · next same => rw [same, Int.sub_eq_add_neg]
    · exact (Int.add_zero _).symm
  | minted | transferred | transferredNothing | burned | burnedNothing => exact concerns.elim

end Entries

/-- The entry of a pair is what was approved last less what was taken since. -/
structure Accounted (owner spender : Address) (labels : List Label) (e : Env) : Prop where
  nonneg : 0 ≤ takenSince owner spender labels
  unapproved : lastApproval owner spender labels = none →
    takenSince owner spender labels = 0 ∧ e.allowances.lookup (owner, spender) = none
  approved : ∀ granted, lastApproval owner spender labels = some granted →
    takenSince owner spender labels ≤ granted.amount ∧
      e.allowances.lookup (owner, spender) =
        if granted.amount = 0 then none
        else some ⟨granted.amount - takenSince owner spender labels, granted.expirationLedger⟩

section Runs

variable {e e' : Env} {labels : List Label} {label : Label} {owner spender : Address}

theorem Accounted.idle (accounted : Accounted owner spender labels e)
    (approves : label.approval owner spender = none) (idle : label.takes owner spender = 0)
    (same : e'.allowances.lookup (owner, spender) = e.allowances.lookup (owner, spender)) :
    Accounted owner spender (label :: labels) e' := by
  obtain ⟨nonneg, unapproved, approved⟩ := accounted
  obtain ⟨last, taken⟩ := approval_continues labels approves
  rw [idle, Int.zero_add] at taken
  constructor
  · rwa [taken]
  · rwa [last, taken, same]
  · rwa [last, taken, same]

theorem Accounted.stored (accounted : Accounted owner spender labels e) {value : AllowanceValue}
    (found : e.allowances.lookup (owner, spender) = some value) :
    ∃ granted, lastApproval owner spender labels = some granted ∧ granted.amount ≠ 0 ∧
      value = ⟨granted.amount - takenSince owner spender labels, granted.expirationLedger⟩ := by
  cases last : lastApproval owner spender labels with
  | none =>
    have absent := (accounted.unapproved last).2
    rw [absent] at found
    cases found
  | some granted =>
    have entry := (accounted.approved granted last).2
    rw [found] at entry
    -- An approval of nothing leaves no entry.
    split at entry
    · cases entry
    · rename_i something
      exact ⟨granted, rfl, something, Option.some.inj entry⟩

theorem Accounted.effect {auths : List Address} {call : Call}
    (accounted : Accounted owner spender labels e) (effect : Effect e auths call e') :
    Accounted owner spender (.call call :: labels) e' := by
  cases approves : (Label.call call).approval owner spender with
  | some granted =>
    -- A fresh approval replaces whatever was left of the one before.
    obtain ⟨nonneg, entry⟩ := effect.entry_approved approves
    obtain ⟨last, taken⟩ := approval_starts labels approves
    refine ⟨by omega, fun none => ?_, fun other same => ?_⟩
    · rw [last] at none
      cases none
    · obtain rfl : granted = other := Option.some.inj (last.symm.trans same)
      rw [taken, Int.sub_zero]
      exact ⟨nonneg, entry⟩
  | none =>
    by_cases idle : (Label.call call).takes owner spender = 0
    · exact accounted.idle approves idle (effect.entry_kept approves idle)
    · -- What is taken was still there, and the entry is lowered by it.
      obtain ⟨value, found, -, positive, covered, lowered⟩ := effect.entry_taken idle
      obtain ⟨granted, last, something, rfl⟩ := accounted.stored found
      obtain ⟨same, taken⟩ := approval_continues labels approves
      have before := accounted.nonneg
      refine ⟨by omega, fun none => ?_, fun other again => ?_⟩
      · rw [same, last] at none
        cases none
      · rw [same, last] at again
        obtain rfl := Option.some.inj again
        rw [lowered, if_neg something, taken]
        refine ⟨by dsimp only at covered; omega, ?_⟩
        rw [Int.sub_sub, Int.add_comm]

theorem accounted {sequence timestamp : Nat}
    (run : Trace Step (deployed sequence timestamp) labels e) (owner spender : Address) :
    Accounted owner spender labels e := by
  -- The account depends on the labels so far, so the induction is on the run itself.
  induction run with
  | nil =>
    refine ⟨Int.le_refl _, fun _ => ⟨rfl, Finmap.lookup_empty _⟩, ?_⟩
    intro granted none
    cases none
  | snoc _ last ih =>
    cases last with
    | called ran => exact ih.effect (perform_effect ran)
    | refused | closed => exact ih.idle rfl rfl rfl

theorem Accounted.allowance (accounted : Accounted owner spender labels e)
    (last : lastApproval owner spender labels = some granted) :
    e.allowance owner spender =
      if e.sequence ≤ granted.expirationLedger then
        granted.amount - takenSince owner spender labels
      else 0 := by
  obtain ⟨within, entry⟩ := accounted.approved granted last
  have nonneg := accounted.nonneg
  rw [Env.allowance, entry]
  by_cases nothing : granted.amount = 0
  · -- Nothing was approved, so nothing was taken and nothing is left.
    have whole : takenSince owner spender labels = 0 := by omega
    simp [nothing, whole]
  · simp [nothing]

end Runs

/--
Allowances bound what a spender can take.

In every run what a spender took since the last approval is at most what was approved, was taken
only until it expired, and the rest is the allowance until then. Without an approval there is
nothing to take. What a call takes is what leaves the owner's balance, to be burned or to reach
the receiver; sent to the owner itself it is added there, since both balances are read first. Calls
that do not concern the pair leave its allowance alone. Wherever the entry is read to be lowered,
after the tokens have moved, it is there.
-/
theorem allowance_bounds_spender {sequence timestamp : Nat} {labels : List Label} {e : Env}
    (run : Trace Step (deployed sequence timestamp) labels e) (owner spender : Address) :
    (∀ granted, lastApproval owner spender labels = some granted →
      0 ≤ takenSince owner spender labels ∧
        takenSince owner spender labels ≤ granted.amount ∧
        e.allowance owner spender =
          if e.sequence ≤ granted.expirationLedger then
            granted.amount - takenSince owner spender labels
          else 0) ∧
      (lastApproval owner spender labels = none →
        takenSince owner spender labels = 0 ∧ e.allowance owner spender = 0) ∧
      (∀ label e', Step e label e' → label.takes owner spender ≠ 0 →
        ∃ granted, lastApproval owner spender labels = some granted ∧
          e.sequence ≤ granted.expirationLedger) ∧
      (∀ call e', Step e (.call call) e' → call.Concerns owner spender → ∀ holder,
        e'.balance holder = e.balance holder +
          if call.receiver = some holder then (Label.call call).takes owner spender
          else if holder = owner then -(Label.call call).takes owner spender else 0) ∧
      (∀ call e', Step e (.call call) e' → ¬ call.Concerns owner spender →
        e'.allowance owner spender = e.allowance owner spender) ∧
      (∀ amount, 0 < amount → amount ≤ e.allowance owner spender → ∀ moved,
        ((∃ dst, (moveTokens owner dst amount).Returns e () moved) ∨
          (burnTokens owner amount).Returns e () moved) →
        ∃ value, moved.allowances.lookup (owner, spender) = some value) := by
  have account := accounted run owner spender
  refine ⟨?_, ?_, ?_, ?_, ?_, ?_⟩
  · intro granted last
    exact ⟨account.nonneg, (account.approved granted last).1, account.allowance last⟩
  · intro last
    obtain ⟨nothing, absent⟩ := account.unapproved last
    exact ⟨nothing, by rw [Env.allowance, absent]⟩
  · intro label e' step taken
    -- Only a call that returns takes anything.
    cases step with
    | called ran =>
      obtain ⟨value, found, unexpired, -⟩ := (perform_effect ran).entry_taken taken
      obtain ⟨granted, last, -, rfl⟩ := account.stored found
      exact ⟨granted, last, unexpired⟩
    | refused | closed => exact absurd rfl taken
  · intro call e' step concerns
    cases step with
    | called ran => exact (perform_effect ran).takes_moved concerns
  · intro call e' step stranger
    -- A call about another pair neither approves nor takes anything of this one.
    have other : (Label.call call).approval owner spender = none ∧
        (Label.call call).takes owner spender = 0 := by
      cases call with
      | approve => exact ⟨if_neg stranger, rfl⟩
      | transferFrom | burnFrom => exact ⟨rfl, if_neg stranger⟩
      | initializeToken | transfer | burn => exact ⟨rfl, rfl⟩
    cases step with
    | called ran =>
      have effect := perform_effect ran
      unfold Env.allowance
      rw [effect.entry_kept other.1 other.2, effect.frame.1]
  · intro amount positive covered moved reached
    obtain ⟨value, found, -⟩ := Env.allowance_pos (Int.lt_of_lt_of_le positive covered)
    refine ⟨value, ?_⟩
    -- Moving and burning tokens write balances and checkpoints only.
    rcases reached with ⟨dst, ran⟩ | ran
    · obtain ⟨-, -, debited, debit, credit⟩ := moveTokens_effect positive ran
      rw [credit.sameTerms.allowances, debit.sameTerms.allowances, found]
    · obtain ⟨-, debit⟩ := burnTokens_effect positive ran
      rw [debit.sameTerms.allowances, found]

/-- Seven tokens of an allowance of ten are sent and burned, and it then expires with the rest. -/
theorem allowance_bounds_spender_seven :
    ∃ labels e, Trace Step (deployed 1 0) labels e ∧ takenSince ⟨1⟩ ⟨8⟩ labels = 7 ∧
      e.balance ⟨1⟩ = allocEarlyKeepers - 7 ∧ e.allowance ⟨1⟩ ⟨8⟩ = 3 ∧
      (Turn.next e (.close 6 9)).allowance ⟨1⟩ ⟨8⟩ = 0 := by
  have run : Trace Step (deployed 1 0) _ _ := scripted
    (show Trace.Playable Turn.next Turn.Legal (deployed 1 0)
      [.call [⟨0⟩] (.initializeToken ⟨0⟩ ⟨1⟩ ⟨2⟩ ⟨3⟩ ⟨4⟩), .call [⟨1⟩] (.approve ⟨1⟩ ⟨8⟩ 10 5),
        .call [⟨8⟩] (.transferFrom ⟨8⟩ ⟨1⟩ ⟨2⟩ 4), .close 5 8,
        .call [⟨8⟩] (.burnFrom ⟨8⟩ ⟨1⟩ 3)] by decide)
  have bound := (allowance_bounds_spender run ⟨1⟩ ⟨8⟩).1 ⟨10, 5⟩ rfl
  exact ⟨_, _, run, rfl, by decide, bound.2.2.trans (by decide), by decide⟩

end KeeperNetwork.GovernanceToken
