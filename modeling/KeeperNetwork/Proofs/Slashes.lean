import KeeperNetwork.Proofs.Funds

/-! What one call can do to one slash record, and what every record says of the past. -/

namespace KeeperNetwork

open Soroban

/-- The ways a successful call can treat one slash record. -/
inductive SlashMove (e e' : Env) (call : Call) (value : Value) (slashId : Nat) : Prop where
  /-- The call is about something else. -/
  | untouched (same : e'.slashes.lookup slashId = e.slashes.lookup slashId)
      (unresolved : ∀ admin uphold, call ≠ .resolveSlashAppeal admin slashId uphold)
      (counted : e'.slashCounter.getD 0 = e.slashCounter.getD 0 ∨
        (e'.slashCounter.getD 0 = e.slashCounter.getD 0 + 1 ∧
          slashId ≠ e.slashCounter.getD 0 + 1))
  | opened {admin keeper treasury : Address} {amount : Int} {reason : Symbol}
      (called : call = .slash admin keeper amount reason treasury) (named : value = .id slashId)
      (new : slashId = e.slashCounter.getD 0 + 1) (counted : e'.slashCounter.getD 0 = slashId)
      (stored : e'.slashes.lookup slashId = some (e.newSlash keeper amount reason))
  | appealed {record : SlashRecord}
      (called : call = .raiseSlashAppeal record.keeper slashId)
      (found : e.slashes.lookup slashId = some record) (unappealed : record.appealed = false)
      (within : e.sequence ≤ record.ledger + slashDisputeWindowLedgers)
      (counted : e'.slashCounter.getD 0 = e.slashCounter.getD 0)
      (stored : e'.slashes.lookup slashId = some { record with appealed := true })
  | resolved {admin : Address} {uphold : Bool} {record : SlashRecord}
      (called : call = .resolveSlashAppeal admin slashId uphold)
      (found : e.slashes.lookup slashId = some record) (appealed : record.appealed = true)
      (counted : e'.slashCounter.getD 0 = e.slashCounter.getD 0)
      (gone : e'.slashes.lookup slashId = none)

variable {token : Token} {inv : Invocation} {start e e' : Env} {call : Call} {value : Value}
  {slashId : Nat} {record : SlashRecord}

theorem SlashMove.of_resolve {admin : Address} {resolved : Nat} {uphold : Bool}
    (found : e.slashes.lookup resolved = some record) (appealed : record.appealed = true)
    (slashes : e'.slashes = e.slashes.erase resolved) (counter : e'.slashCounter = e.slashCounter)
    (slashId : Nat) : SlashMove e e' (.resolveSlashAppeal admin resolved uphold) value slashId := by
  by_cases same : slashId = resolved
  · subst same
    exact .resolved rfl found appealed (by rw [counter]) (by rw [slashes, Finmap.lookup_erase])
  · exact .untouched (by rw [slashes, Finmap.lookup_erase_ne same])
      (fun _ _ called => by cases called; exact same rfl) (.inl (by rw [counter]))

theorem Effect.slashMove (exact : ExactToken token) (effect : Effect token inv e call value e')
    (slashId : Nat) : SlashMove e e' call value slashId := by
  cases effect with
  | batchRegisterTasks _ _ _ _ _ _ _ _ registered =>
    rw [registered.frame exact.detached]
    exact .untouched rfl (by simp) (.inl rfl)
  | slashStake _ _ _ _ _ _ _ _ moved | slashUnbond _ _ _ _ _ _ _ _ _ moved =>
    obtain ⟨balances, -, rfl⟩ := exact.moves moved
    by_cases same : slashId = e.slashCounter.getD 0 + 1
    · subst same
      exact .opened rfl rfl rfl (by simp) (by simp [Env.newSlash])
    · exact .untouched (by simp [same]) (by simp) (.inr ⟨by simp, same⟩)
  | @raiseSlashAppeal keeper raised record _ found slashed unappealed within =>
    subst slashed
    by_cases same : slashId = raised
    · subst same
      exact .appealed rfl found unappealed (within.trans (saturatingAdd_le _ _ _)) (by simp)
        (by simp)
    · exact .untouched (by simp [same]) (by simp) (.inl (by simp))
  | rejectSlashAppeal _ found appealed =>
    exact .of_resolve found appealed (by simp) (by simp) slashId
  | upholdSlashAppeal _ found appealed _ _ moved =>
    obtain ⟨balances, -, rfl⟩ := exact.moves moved
    exact .of_resolve found appealed (by simp) (by simp) slashId
  | _ =>
    try obtain ⟨balances, -, rfl⟩ := exact.moves ‹_›
    exact .untouched (by simp) (by simp) (.inl (by simp))

/-- A call in the history made the slash. -/
def SlashedBy (history : List Entry) (slashId : Nat) (record : SlashRecord) : Prop :=
  ∃ receipt admin treasury, .call receipt ∈ history ∧ receipt.value = .id slashId ∧
    receipt.call = .slash admin record.keeper record.amount record.reason treasury ∧
    receipt.before.sequence = record.ledger

/-- The keeper appealed while the window was open. -/
def AppealedInTime (history : List Entry) (slashId : Nat) (record : SlashRecord) : Prop :=
  ∃ receipt, .call receipt ∈ history ∧
    receipt.call = .raiseSlashAppeal record.keeper slashId ∧
    receipt.before.sequence ≤ record.ledger + slashDisputeWindowLedgers

/-- One when the call decided the appeal against a slash. -/
def Receipt.resolved (slashId : Nat) (receipt : Receipt) : Int :=
  match receipt.call with
  | .resolveSlashAppeal _ resolved _ => if resolved = slashId then 1 else 0
  | _ => 0

/-- What the history says of a slash id: a record is open, was decided once, or never existed. -/
inductive SlashFacts (e : Env) (slashId : Nat) : Prop where
  | unused (absent : e.slashes.lookup slashId = none)
      (undecided : receiptTotal (Receipt.resolved slashId) e.history = 0)
      (unnumbered : e.slashCounter.getD 0 < slashId ∨ slashId = 0)
  | recorded {record : SlashRecord} (found : e.slashes.lookup slashId = some record)
      (undecided : receiptTotal (Receipt.resolved slashId) e.history = 0)
      (numbered : slashId ≤ e.slashCounter.getD 0)
      (slashed : SlashedBy e.history slashId record)
      (appealed : record.appealed = true → AppealedInTime e.history slashId record)
  | decided (absent : e.slashes.lookup slashId = none)
      (once : receiptTotal (Receipt.resolved slashId) e.history = 1)
      (numbered : slashId ≤ e.slashCounter.getD 0)

theorem SlashedBy.mono {history later : List Entry} (slashed : SlashedBy history slashId record)
    (kept : ∀ entry ∈ history, entry ∈ later) : SlashedBy later slashId record := by
  obtain ⟨receipt, admin, treasury, member, rest⟩ := slashed
  exact ⟨receipt, admin, treasury, kept _ member, rest⟩

theorem AppealedInTime.mono {history later : List Entry}
    (appealed : AppealedInTime history slashId record) (kept : ∀ entry ∈ history, entry ∈ later) :
    AppealedInTime later slashId record := by
  obtain ⟨receipt, member, rest⟩ := appealed
  exact ⟨receipt, kept _ member, rest⟩

theorem resolvedTotal_of_ne (call : Call) (value : Value) (slashId : Nat)
    (history : e'.history = e.history)
    (unresolved : ∀ admin uphold, call ≠ .resolveSlashAppeal admin slashId uphold) :
    receiptTotal (Receipt.resolved slashId) (e'.record e call value).history =
      receiptTotal (Receipt.resolved slashId) e.history := by
  have nothing : Receipt.resolved slashId ⟨e, call, value, e'⟩ = 0 := by
    unfold Receipt.resolved
    split
    · next admin resolved uphold called =>
      refine if_neg fun same => unresolved admin uphold ?_
      rw [← same]
      exact called
    · rfl
  simp [nothing, history]

/-- What is known of a slash stays true of the history with the call. -/
theorem SlashMove.facts (move : SlashMove e e' call value slashId)
    (history : e'.history = e.history) (facts : SlashFacts e slashId) :
    SlashFacts (e'.record e call value) slashId := by
  have kept : ∀ entry ∈ e.history, entry ∈ (e'.record e call value).history :=
    Env.record_keeps history
  cases move with
  | untouched same unresolved counted =>
    have total := resolvedTotal_of_ne call value slashId history unresolved
    cases facts with
    | unused absent undecided unnumbered =>
      exact .unused (same.trans absent) (total.trans undecided)
        (by simp only [Env.record_toWorld]; omega)
    | recorded found undecided numbered slashed appealed =>
      exact .recorded (same.trans found) (total.trans undecided)
        (by simp only [Env.record_toWorld]; omega) (slashed.mono kept)
        fun flag => (appealed flag).mono kept
    | decided absent once numbered =>
      exact .decided (same.trans absent) (total.trans once)
        (by simp only [Env.record_toWorld]; omega)
  | @opened admin keeper treasury amount reason called named new counted stored =>
    -- The id is above the counter, so nothing is known about it yet.
    have total := resolvedTotal_of_ne call value slashId history (by simp [called])
    cases facts with
    | unused _ undecided =>
      exact .recorded stored (total.trans undecided) (by simp [counted])
        ⟨_, admin, treasury, Env.mem_record, named, called, rfl⟩ (by simp [Env.newSlash])
    | recorded _ _ numbered | decided _ _ numbered => omega
  | @appealed record called found _ within counted stored =>
    have total := resolvedTotal_of_ne call value slashId history (by simp [called])
    cases facts with
    | unused absent | decided absent => simp [absent] at found
    | recorded here undecided numbered slashed =>
      cases found.symm.trans here
      exact .recorded stored (total.trans undecided) (by simpa [counted] using numbered)
        (slashed.mono kept) fun _ => ⟨_, Env.mem_record, called, within⟩
  | @resolved admin uphold record called found _ counted gone =>
    cases facts with
    | unused absent | decided absent => simp [absent] at found
    | recorded _ undecided numbered =>
      exact .decided gone (by simp [Receipt.resolved, called, history, undecided])
        (by simpa [counted] using numbered)

theorem ExactStep.slashFacts (step : ExactStep e e') (facts : SlashFacts e slashId) :
    SlashFacts e' slashId := by
  cases Step.happens step with
  | called exact _ _ effect =>
    exact (effect.slashMove exact slashId).facts (effect.history exact) facts
  | failed => exact facts
  | closed =>
    cases facts with
    | unused absent undecided unnumbered => exact .unused absent undecided unnumbered
    | recorded found undecided numbered slashed appealed =>
      exact .recorded found undecided numbered slashed appealed
    | decided absent once numbered => exact .decided absent once numbered
  | received =>
    have kept : ∀ (entry : Entry) (history : List Entry), ∀ old ∈ history, old ∈ entry :: history :=
      fun _ _ _ old => List.mem_cons_of_mem _ old
    cases facts with
    | unused absent undecided unnumbered =>
      exact .unused absent (by simpa using undecided) unnumbered
    | recorded found undecided numbered slashed appealed =>
      exact .recorded found (by simpa using undecided) numbered (slashed.mono (kept _ _))
        fun flag => (appealed flag).mono (kept _ _)
    | decided absent once numbered => exact .decided absent (by simpa using once) numbered

theorem Fresh.slashCounter (fresh : Fresh e) : e.slashCounter = none := by
  obtain ⟨blank, inv, admin, rewardToken, bps, empty, -, ran⟩ := fresh
  simp [initializeRegistry] at ran
  obtain ⟨-, -, -, rfl⟩ := ran
  simpa using empty.slashCounter

theorem ExactRun.slashFacts (fresh : Fresh start) (run : ExactRun start e) (slashId : Nat) :
    SlashFacts e slashId := by
  induction run with
  | refl =>
    refine .unused (by simp [fresh.unused.1.slashes]) (by simp [fresh.history]) ?_
    simp [fresh.slashCounter, Nat.pos_iff_ne_zero, ne_or_eq]
  | tail _ last ih => exact ExactStep.slashFacts last ih

theorem ExactRun.refunds_appealed (fresh : Fresh start) (run : ExactRun start e)
    {later earlier : List Entry} {receipt : Receipt}
    (placed : e.history = later ++ .call receipt :: earlier) {admin : Address} {uphold : Bool}
    (called : receipt.call = .resolveSlashAppeal admin slashId uphold) :
    ∃ record, receipt.before.slashes.lookup slashId = some record ∧
      SlashedBy earlier slashId record ∧ AppealedInTime earlier slashId record := by
  refine ExactRun.receipts_after (fun earlier receipt =>
    receipt.call = .resolveSlashAppeal admin slashId uphold →
      ∃ record, receipt.before.slashes.lookup slashId = some record ∧
        SlashedBy earlier slashId record ∧ AppealedInTime earlier slashId record)
    ?_ fresh run placed called
  intro token inv e e' call value ran exact effect called
  -- A decision finds an appealed record, and the history up to it explains that record.
  cases effect.slashMove exact slashId with
  | untouched _ unresolved => exact absurd called (unresolved admin uphold)
  | opened slash | appealed slash => simp [slash] at called
  | resolved _ found flag =>
    cases ExactRun.slashFacts fresh ran slashId with
    | unused absent | decided absent => simp [absent] at found
    | recorded here _ _ slashed appealed =>
      cases found.symm.trans here
      exact ⟨_, found, slashed, appealed flag⟩

theorem SlashFacts.decided_once (facts : SlashFacts e slashId) :
    receiptTotal (Receipt.resolved slashId) e.history ≤ 1 := by
  cases facts <;> omega

end KeeperNetwork
