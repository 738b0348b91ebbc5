import KeeperNetwork.Network.System

/-! What becomes of protocol fees that the registry sweeps into the treasury. -/

namespace KeeperNetwork.Network

open Soroban

/-- The calls that pay recipients: a distribution credits them, and a withdrawal pays one. -/
def Label.PaysOut : Label → Prop
  | .treasury (.distribute ..) _ => True
  | .treasury (.withdraw ..) _ => True
  | _ => False

/--
The tokens of a sweep can reach the recipients.

The surplus is what the treasury holds and owes to nobody, which a sweep raises by its amount.
-/
structure Distributed (s s' : System) (amount : Int) : Prop where
  /-- Some calls pay out all but a rounding, of which there is less than one for each recipient. -/
  paid : ∃ later finish, Trace Step s' later finish ∧ (∀ label ∈ later, label.PaysOut) ∧
    finish.treasury.surplus < s.treasury.surplus + s.treasury.list.length
  /-- Not all of the tokens stay for ever. -/
  reachable : ∃ later finish, Trace Step s' later finish ∧
    finish.treasury.surplus < s.treasury.surplus + amount

section Sweep

variable {s s' : System} {admin : Address} {amount : Int}

theorem surplus_kept {e e' : Treasury.Env} {labels : List Treasury.Label}
    (run : Trace Treasury.Step e labels e') : e.surplus ≤ e'.surplus := by
  -- Calls leave the surplus alone, and tokens from outside only add to it.
  have step : ∀ before label after, Treasury.Step before label after →
      e.surplus ≤ before.surplus → e.surplus ≤ after.surplus := by
    intro before label after step kept
    rw [step.surplus]
    cases step with
    | called | refused => exact kept.trans (Int.le_of_eq (Int.add_zero _).symm)
    | received nonneg => exact kept.trans (Int.le_add_of_nonneg_right nonneg)
  exact @Trace.preserves _ _ _ _ _ _ (fun after => e.surplus ≤ after.surplus) step run le_rfl

theorem sweep_surplus (sound : Sound s)
    (sweep : Step s (.registry (.sweepFees admin s.treasury.self amount)) s') :
    s'.treasury.surplus = s.treasury.surplus + amount ∧ 0 < amount := by
  cases sweep with
  | registry exact unsigned apart running ran =>
    obtain ⟨finish, effect, rfl⟩ := invoke_ok ran
    cases effect with
    | sweepFees admitted positive accrued configured payout =>
      -- The registry pays the treasury, which is another address.
      obtain ⟨balances, moved, rfl⟩ := exact.moves payout
      have paid := Balances.move_into moved sound.apart.symm
      refine ⟨?_, positive⟩
      show balances.of s.treasury.self - s.treasury.owed = _
      rw [paid, Treasury.Env.surplus, sound.token]
      show s.registry.balances.of s.treasury.self + amount - _ = _
      omega

theorem sweep_stays (sound : Sound s)
    (sweep : Step s (.registry (.sweepFees admin s.treasury.self amount)) s')
    {later : List Label} {finish : System} (run : Trace Step s' later finish) :
    s.treasury.surplus + amount ≤ finish.treasury.surplus := by
  rw [← (sweep_surplus sound sweep).1]
  obtain ⟨-, -, _, seen⟩ := Trace.projects run (sweep.sound sound)
  exact surplus_kept seen

end Sweep

/--
Fees swept into the treasury never reach the recipients.

The distribution collects what it credits from its caller, so tokens that are already in the
treasury are never credited to anybody. Whatever is called afterwards, all of them stay.
-/
theorem swept_fees_never_distributed {governor registry treasury admin : Address}
    {balances : Balances} {sequence timestamp : Nat} {labels : List Label} {s s' : System}
    {amount : Int} (apart : treasury ≠ registry)
    (run : Trace Step (launch governor registry treasury balances sequence timestamp) labels s)
    (sweep : Step s (.registry (.sweepFees admin s.treasury.self amount)) s') :
    0 < amount ∧ s'.treasury.surplus = s.treasury.surplus + amount ∧
    (∀ later finish, Trace Step s' later finish →
      s.treasury.surplus + amount ≤ finish.treasury.surplus) ∧
    ¬ Distributed s s' amount := by
  have sound := Trace.sound run (launch_sound apart)
  obtain ⟨raised, positive⟩ := sweep_surplus sound sweep
  refine ⟨positive, raised, fun later finish => sweep_stays sound sweep, fun distributed => ?_⟩
  -- A later state in which one of the tokens has left contradicts that all of them stay.
  obtain ⟨later, finish, after, left⟩ := distributed.reachable
  have stays := sweep_stays sound sweep after
  omega

/-- A registry whose fees accrue, and a treasury with one recipient. -/
def accrued : List Turn :=
  [.registry [⟨1⟩] (.initializeRegistry ⟨1⟩ ⟨8⟩ 1000),
    .treasury [⟨1⟩] (.initializeTreasury ⟨1⟩ ⟨8⟩) none,
    .treasury [⟨1⟩] (.addRecipient ⟨1⟩ ⟨2⟩ 10000) none,
    .registry [⟨3⟩] (.registerTask ⟨3⟩ sampleParams),
    .registry [⟨4⟩] (.claimTask ⟨4⟩ 1),
    .registry [⟨4⟩] (.executeTask ⟨4⟩ 1 [])]

/-- The three contracts with all tokens in the hands of the owner of tasks. -/
def funded : System :=
  launch ⟨5⟩ ⟨7⟩ ⟨9⟩ (hundredOf ⟨3⟩) 0 0

/-- The state in which the fees are swept. -/
def sweeping : System := accrued.foldl Turn.next funded

def sweepAll : Turn := .registry [⟨1⟩] (.sweepFees ⟨1⟩ ⟨9⟩ 4)

theorem accrued_run : Trace Step funded (accrued.map Turn.label).reverse sweeping :=
  scripted (show Trace.Playable Turn.next Turn.Legal funded accrued by decide)

theorem sweepAll_step : Step sweeping (.registry (.sweepFees ⟨1⟩ ⟨9⟩ 4)) (sweepAll.next sweeping) :=
  (show sweepAll.Legal sweeping by decide).step

/-- Of four tokens swept for one recipient, none is ever paid out. -/
theorem swept_fees_stranded :
    Trace Step funded (accrued.map Turn.label).reverse sweeping ∧
    Step sweeping (.registry (.sweepFees ⟨1⟩ ⟨9⟩ 4)) (sweepAll.next sweeping) ∧
    sweeping.treasury.list = [⟨2⟩] ∧ sweeping.treasury.isPaused = false ∧
    sweeping.treasury.balances.of ⟨9⟩ = 0 ∧
    ∀ later finish, Trace Step (sweepAll.next sweeping) later finish →
      4 ≤ finish.treasury.surplus := by
  have sound := Trace.sound accrued_run (launch_sound (by decide))
  refine ⟨accrued_run, sweepAll_step, by decide, by decide, by decide, fun later finish after => ?_⟩
  have stays := sweep_stays sound sweepAll_step after
  have before : sweeping.treasury.surplus = 0 := by decide
  omega

/-- Four tokens are swept for one recipient, who never gets them. -/
theorem swept_fees_never_distributed_four :
    sweeping.treasury.list.length = 1 ∧ (sweepAll.next sweeping).treasury.surplus = 4 ∧
      ¬ Distributed sweeping (sweepAll.next sweeping) 4 := by
  obtain ⟨-, raised, -, stranded⟩ := swept_fees_never_distributed (by decide) accrued_run
    sweepAll_step
  exact ⟨by decide, raised.trans (by decide), stranded⟩

end KeeperNetwork.Network
