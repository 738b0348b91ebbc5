import KeeperNetwork.Treasury.Effect

/-! What the treasury holds, owes and has paid, over whole runs. -/

namespace KeeperNetwork.Treasury

open Soroban

/-- The recipients are few and different, and they and nobody else have shares. -/
structure Listed (e : Env) : Prop where
  distinct : e.list.Nodup
  short : e.list.length ≤ maxRecipients
  inside : ∀ recipient ∈ e.list,
    1 ≤ e.sharesOf recipient ∧ e.sharesOf recipient ≤ maxSharesBps
  outside : ∀ recipient ∉ e.list, e.sharesOf recipient = 0

/-- The tokens the treasury holds and owes to nobody. -/
def Env.surplus (e : Env) : Int := e.balances.of e.self - e.owed

def Call.Configures : Call → Prop
  | .distribute .. => False
  | .withdraw .. => False
  | _ => True

/-- What a step brought into the treasury from outside. -/
def Label.direct : Label → Int
  | .received amount => amount
  | _ => 0

def Label.withdrawn (recipient : Address) : Label → Int
  | .call (.withdraw payee) (some amount) => if payee = recipient then amount else 0
  | _ => 0

section Shares

variable {e e' : Env}

theorem Listed.reconfigured {list : List Address} {recipient : Address} {shares : Nat}
    (listed : Listed e) (distinct : list.Nodup) (short : list.length ≤ maxRecipients)
    (others : ∀ other, other ≠ recipient → (other ∈ list ↔ other ∈ e.list))
    (here : recipient ∈ list → 1 ≤ shares ∧ shares ≤ maxSharesBps)
    (gone : recipient ∉ list → shares = 0) : Listed (e.reconfigured list recipient shares) where
  distinct := distinct
  short := short
  inside other member := by
    -- The one whose shares were written is checked anew, and the others keep theirs.
    rw [sharesOf_written rfl]
    by_cases same : other = recipient
    · subst same
      rw [Function.update_self]
      exact here member
    · rw [Function.update_of_ne same]
      exact listed.inside other ((others other same).mp member)
  outside other absent := by
    rw [sharesOf_written rfl]
    by_cases same : other = recipient
    · subst same
      rw [Function.update_self]
      exact gone absent
    · rw [Function.update_of_ne same]
      exact listed.outside other fun member => absent ((others other same).mpr member)

theorem Listed.congr (listed : Listed e) (list : e'.recipientList = e.recipientList)
    (shares : e'.recipientShares = e.recipientShares) : Listed e' := by
  -- Both the list and the shares are read from where they are stored.
  have sameList : e'.list = e.list := by rw [Env.list, list, Env.list]
  have sameShares := sharesOf_congr shares
  obtain ⟨distinct, short, inside, outside⟩ := listed
  refine ⟨?_, ?_, ?_, ?_⟩ <;> rw [sameList]
  · exact distinct
  · exact short
  · rw [sameShares]; exact inside
  · rw [sameShares]; exact outside

theorem Listed.add (listed : Listed e) {recipient : Address} {shares : Nat} (some : 1 ≤ shares)
    (most : shares ≤ maxSharesBps) (new : recipient ∉ e.list)
    (room : e.list.length < maxRecipients) :
    Listed (e.reconfigured (e.list ++ [recipient]) recipient shares) := by
  -- The new recipient is the last one, and was not listed before.
  refine listed.reconfigured ?_ ?_ (fun other apart => ?_) (fun _ => ⟨some, most⟩) fun absent => ?_
  · exact List.nodup_append.mpr ⟨listed.distinct, by simp, fun member inList other same => by
      rintro rfl
      exact new ((List.mem_singleton.mp same) ▸ inList)⟩
  · rw [List.length_append]
    exact room
  · simp [apart]
  · exact absurd (List.mem_append_right _ List.mem_cons_self) absent

theorem Listed.remove (listed : Listed e) (recipient : Address) :
    Listed (e.reconfigured (e.list.erase recipient) recipient 0) := by
  -- The others keep their shares, and the removed one has none.
  refine listed.reconfigured (listed.distinct.erase _)
    (Nat.le_trans List.length_erase_le listed.short) (fun other apart => ?_) (fun still => ?_)
    fun _ => rfl
  · exact List.mem_erase_of_ne apart
  · exact absurd still (listed.distinct.not_mem_erase)

theorem Listed.update (listed : Listed e) {recipient : Address} {shares : Nat} (some : 1 ≤ shares)
    (most : shares ≤ maxSharesBps) (member : recipient ∈ e.list) :
    Listed (e.reconfigured e.list recipient shares) :=
  listed.reconfigured listed.distinct listed.short (fun _ _ => Iff.rfl) (fun _ => ⟨some, most⟩)
    fun absent => absurd member absent

theorem Effect.listed {inv : Invocation} {call : Call} {value : Value}
    (effect : Effect e inv call value e') (listed : Listed e) : Listed e' := by
  cases effect with
  | initialized | paused | unpaused | handedOver | upgraded | withdrawn =>
    exact listed.congr rfl rfl
  | added known auth some most new room => exact (listed.add some most new room).congr rfl rfl
  | removed => exact (listed.remove _).congr rfl rfl
  | updated known auth some most member =>
    -- The list itself is not written, but it is the one the update was checked against.
    obtain ⟨distinct, short, inside, outside⟩ := listed.update some most member
    exact ⟨distinct, short, inside, outside⟩
  | distributed running positive auth nonempty counted someShares credits paid =>
    have kept := listed.congr credits.setup.recipientList credits.setup.recipientShares
    obtain ⟨balances, rfl⟩ := paid_balances paid
    exact kept.congr rfl rfl

theorem Listed.valid (listed : Listed e) : e.Valid e.list :=
  valid_of_bounded listed.short listed.inside

theorem Listed.total (listed : Listed e) (nonempty : e.list ≠ []) :
    ∃ total, e.addShares 0 e.list = some total ∧ total ≠ 0 := by
  obtain ⟨-, total, added, -⟩ := listed.valid
  refine ⟨total, added, ?_⟩
  -- The first recipient alone has a share.
  obtain ⟨first, rest, shape⟩ := List.exists_cons_of_ne_nil nonempty
  have sum := addShares_eq_some added
  have one := (listed.inside first (by rw [shape]; exact List.mem_cons_self)).1
  rw [shape, List.map_cons, List.sum_cons] at sum
  omega

end Shares

section Money

variable {e e' : Env} {inv : Invocation} {call : Call} {value : Value}

theorem share_nonneg {amount : Int} (positive : 0 < amount) (total : Nat) (recipient : Address) :
    0 ≤ e.share amount total recipient :=
  Int.tdiv_nonneg (Int.mul_nonneg (Int.le_of_lt positive) (Int.natCast_nonneg _))
    (Int.natCast_nonneg _)

/-- The parts of a positive amount add up to something that is not negative. -/
theorem sum_share_nonneg {amount : Int} {total : Nat} {list : List Address}
    (positive : 0 < amount) : 0 ≤ (list.map (e.share amount total)).sum :=
  List.sum_nonneg (List.forall_mem_map.mpr fun recipient _ =>
    share_nonneg positive total recipient)

theorem Effect.self (effect : Effect e inv call value e') : e'.self = e.self := by
  -- Only a distribution changes more than it names, and it keeps the setup.
  cases effect with
  | distributed running positive auth nonempty counted someShares credits paid =>
    obtain ⟨balances, rfl⟩ := paid_balances paid
    exact credits.setup.self
  | _ => rfl

theorem Effect.configures (effect : Effect e inv call value e') (configures : call.Configures) :
    e'.balances = e.balances ∧ e'.recipientBalance = e.recipientBalance ∧
      e'.recipientReceivedTotal = e.recipientReceivedTotal ∧
      e'.totalDistributed = e.totalDistributed := by
  cases effect with
  | distributed | withdrawn => exact configures.elim
  | _ => exact ⟨rfl, rfl, rfl, rfl⟩

theorem Effect.surplus (effect : Effect e inv call value e') (apart : e.self ∉ inv.auths) :
    e'.surplus = e.surplus := by
  cases effect with
  | @distributed caller amount total middle after parts running positive auth nonempty counted
      someShares credits paid =>
    -- What is credited is collected from the caller, who is somebody else.
    have owed := credits.owed
    have other : caller ≠ e.self := fun same => apart (same ▸ auth)
    rcases paid with ⟨nothing, rfl⟩ | ⟨balances, moved, rfl⟩
    · have parts : 0 ≤ (e.list.map (e.share amount total)).sum := sum_share_nonneg positive
      show after.balances.of after.self - after.owed = _
      rw [credits.setup.balances, credits.setup.self, Env.surplus]
      omega
    · have collected := Balances.move_into moved other
      show balances.of middle.self - middle.owed = _
      rw [credits.setup.self, collected, Env.surplus]
      omega
  | @withdrawn recipient balances auth positive moved =>
    have other : e.self ≠ recipient := fun same => apart (same ▸ auth)
    have paid := Balances.move_out moved other
    have owed := total_insert e.recipientBalance recipient 0
    show balances.of e.self - (e.recipientBalance.insert recipient 0).total _ = _
    rw [paid, owed, Env.surplus, Env.owed, Env.balanceOf]
    omega
  | _ => rfl

theorem Effect.distributed_eq (effect : Effect e inv call value e')
    (same : e.distributed = e.received) : e'.distributed = e'.received := by
  -- Both sums grow by the same parts.
  cases effect with
  | distributed running positive auth nonempty counted someShares credits paid =>
    have sums := credits.distributed.trans ((congrArg (· + _) same).trans
      credits.totalReceived.symm)
    obtain ⟨balances, rfl⟩ := paid_balances paid
    exact sums
  | _ => exact same

theorem Effect.withdrawn_eq (effect : Effect e inv call value e') (recipient : Address) :
    e'.receivedOf recipient - e'.balanceOf recipient =
      e.receivedOf recipient - e.balanceOf recipient +
        (Label.call call value).withdrawn recipient := by
  -- A distribution adds to both figures, and a payment takes from one.
  cases effect with
  | @distributed _ _ _ middle _ _ _ _ _ _ _ _ credits paid =>
    have balance := credits.balance recipient
    have received := credits.received recipient
    have same : middle.receivedOf recipient - middle.balanceOf recipient =
        e.receivedOf recipient - e.balanceOf recipient + 0 := by omega
    obtain ⟨balances, rfl⟩ := paid_balances paid
    exact same
  | @withdrawn payee balances auth positive moved =>
    -- The payee's balance is set to zero, which is the amount it was paid.
    have written := e.recipientBalance.getD_lookup_insert payee recipient 0 0
    show e.receivedOf recipient -
      ((e.recipientBalance.insert payee 0).lookup recipient).getD 0 = _
    rw [written]
    by_cases same : payee = recipient
    · subst same
      simp [Label.withdrawn]
    · simp [Label.withdrawn, same, Ne.symm same, Env.balanceOf]
  | _ => exact (Int.add_zero _).symm

theorem Effect.credited (effect : Effect e inv call value e') {recipient : Address}
    (more : e.balanceOf recipient < e'.balanceOf recipient ∨
      e.receivedOf recipient < e'.receivedOf recipient) : recipient ∈ e.list := by
  cases effect with
  | @distributed _ _ _ middle _ _ _ _ _ _ _ _ credits paid =>
    by_contra unlisted
    have none : (e.list.count recipient : Int) = 0 := by
      rw [List.count_eq_zero_of_not_mem unlisted]
      rfl
    have balance := credits.balance recipient
    have received := credits.received recipient
    rw [none, Int.zero_mul, Int.add_zero] at balance received
    have same : ¬ (e.balanceOf recipient < middle.balanceOf recipient ∨
        e.receivedOf recipient < middle.receivedOf recipient) := by omega
    obtain ⟨balances, rfl⟩ := paid_balances paid
    exact same more
  | @withdrawn payee balances auth positive moved =>
    -- A withdrawal lowers one balance and leaves the totals received.
    have written := e.recipientBalance.getD_lookup_insert payee recipient 0 0
    rcases more with more | more
    · have lower : e.balanceOf recipient <
          ((e.recipientBalance.insert payee 0).lookup recipient).getD 0 := more
      rw [written] at lower
      by_cases same : recipient = payee
      · rw [if_pos same, same] at lower
        omega
      · rw [if_neg same] at lower
        exact absurd lower (Int.lt_irrefl _)
    · exact absurd more (Int.lt_irrefl _)
  | _ => exact (or_self_iff.mp (more.imp (Int.lt_irrefl _) (Int.lt_irrefl _))).elim

end Money

section Steps

variable {e e' : Env} {label : Label}

theorem Step.surplus (step : Step e label e') : e'.surplus = e.surplus + label.direct := by
  -- Only tokens that arrive from outside change what is not owed.
  cases step with
  | called own apart ran =>
    rw [(perform_effect ran).surplus apart]
    exact (Int.add_zero _).symm
  | refused => exact (Int.add_zero _).symm
  | @received balances amount nonneg moved =>
    show balances.of e.self - e.owed = _
    rw [moved, Env.surplus, Label.direct]
    omega

theorem Step.withdrawn_eq (step : Step e label e') (recipient : Address) :
    e'.receivedOf recipient - e'.balanceOf recipient =
      e.receivedOf recipient - e.balanceOf recipient + label.withdrawn recipient := by
  cases step with
  | called own apart ran => exact (perform_effect ran).withdrawn_eq recipient
  | refused | received => exact (Int.add_zero _).symm

theorem Step.credited (step : Step e label e') {recipient : Address}
    (more : e.balanceOf recipient < e'.balanceOf recipient ∨
      e.receivedOf recipient < e'.receivedOf recipient) : recipient ∈ e.list := by
  -- What arrives from outside is credited to nobody.
  cases step with
  | called own apart ran => exact (perform_effect ran).credited more
  | refused | received =>
    exact (or_self_iff.mp (more.imp (Int.lt_irrefl _) (Int.lt_irrefl _))).elim

theorem Step.listed (step : Step e label e') (listed : Listed e) : Listed e' := by
  cases step with
  | called own apart ran => exact (perform_effect ran).listed listed
  | refused => exact listed
  | received => exact listed.congr rfl rfl

theorem deployed_listed (self : Address) (balances : Balances) :
    Listed (deployed self balances) where
  -- There are no recipients yet.
  distinct := List.nodup_nil
  short := Nat.zero_le _
  inside recipient member := by simp [Env.list, deployed] at member
  outside recipient _ := by simp [Env.sharesOf, deployed]

end Steps

/-- The books of the treasury after a run that began with some tokens. -/
structure Balanced (before : Int) (labels : List Label) (e : Env) : Prop where
  held : e.balances.of e.self = e.owed + (before + (labels.map Label.direct).sum)
  distributed : e.distributed = e.received
  withdrawn : ∀ recipient, e.receivedOf recipient =
    e.balanceOf recipient + (labels.map (Label.withdrawn recipient)).sum

/--
What no call of the treasury gets wrong in a state.

Nobody off the list is credited, configuration moves no money, and the checks of the whole set of
recipients reject nothing that the checks of the changed recipient let pass.
-/
structure Guarded (e : Env) : Prop where
  credited : ∀ label e' recipient, Step e label e' →
    (e.balanceOf recipient < e'.balanceOf recipient ∨
      e.receivedOf recipient < e'.receivedOf recipient) → recipient ∈ e.list
  configures : ∀ call value e', Step e (.call call value) e' → call.Configures →
    e'.balances = e.balances ∧ e'.recipientBalance = e.recipientBalance ∧
      e'.recipientReceivedTotal = e.recipientReceivedTotal ∧
      e'.totalDistributed = e.totalDistributed
  total : e.list ≠ [] → ∃ total, e.addShares 0 e.list = some total ∧ total ≠ 0
  adds : ∀ (inv : Invocation) admin recipient shares, e.admin = some admin → admin ∈ inv.auths →
    1 ≤ shares → shares ≤ maxSharesBps → recipient ∉ e.list → e.list.length < maxRecipients →
    ∃ e', (addRecipient inv admin recipient shares).Returns e () e'
  removes : ∀ (inv : Invocation) admin recipient, e.admin = some admin → admin ∈ inv.auths →
    recipient ∈ e.list → ∃ e', (removeRecipient inv admin recipient).Returns e () e'
  updates : ∀ (inv : Invocation) admin recipient shares, e.admin = some admin →
    admin ∈ inv.auths → 1 ≤ shares → shares ≤ maxSharesBps → recipient ∈ e.list →
    ∃ e', (updateRecipientShares inv admin recipient shares).Returns e () e'

theorem Listed.guarded {e : Env} (listed : Listed e) : Guarded e where
  credited _ _ _ step more := step.credited more
  -- A failed call or an arrival is not a configuration.
  configures _ _ _ step configures := by
    cases step with
    | called own apart ran => exact (perform_effect ran).configures configures
  total := listed.total
  adds inv admin recipient shares known auth some most new room :=
    ⟨_, addRecipient_returns.mpr ⟨known, auth, some, most, new, room,
      (listed.add some most new room).valid, rfl⟩⟩
  removes inv admin recipient known auth member :=
    ⟨_, removeRecipient_returns.mpr ⟨known, auth, member, (listed.remove recipient).valid, rfl⟩⟩
  updates inv admin recipient shares known auth some most member :=
    ⟨_, updateRecipientShares_returns.mpr ⟨known, auth, some, most, member,
      valid_of_bounded listed.short (listed.update some most member).inside, rfl⟩⟩

section Runs

variable {self : Address} {balances : Balances} {labels : List Label} {e : Env}

/--
Treasury conservation.

In every run of a deployed treasury, whoever calls what, the tokens held are those owed and those
sent directly, what was distributed is what was received, and what an address received it still has
or has withdrawn; only listed recipients are credited, and the list stays valid.
-/
theorem treasury_conserved (run : Trace Step (deployed self balances) labels e) :
    Balanced (balances.of self) labels e ∧ Listed e ∧ Guarded e := by
  have listed : Listed e :=
    run.preserves (fun _ _ _ step => step.listed) (deployed_listed self balances)
  refine ⟨⟨?_, ?_, fun recipient => ?_⟩, listed, listed.guarded⟩
  · -- The surplus starts as the balance and grows by what arrives.
    have surplus : e.surplus = _ + (labels.map Label.direct).sum :=
      run.counts fun _ _ _ step => step.surplus
    have fresh : (deployed self balances).surplus = balances.of self := Int.sub_zero _
    rw [fresh, Env.surplus] at surplus
    omega
  · refine @Trace.preserves _ _ _ _ _ _ (fun e => e.distributed = e.received)
      (fun _ _ _ step same => ?_) run rfl
    cases step with
    | called own apart ran => exact (perform_effect ran).distributed_eq same
    | refused | received => exact same
  · -- Whatever was received and is not in the balance was withdrawn.
    have withdrawn := @Trace.counts _ _ _ _ _ _
      (fun e => e.receivedOf recipient - e.balanceOf recipient) _
      (fun _ _ _ step => step.withdrawn_eq recipient) run
    have fresh : (deployed self balances).receivedOf recipient -
        (deployed self balances).balanceOf recipient = 0 := rfl
    omega

/-- Three recipients share two distributions, one leaves and another withdraws. -/
def shared : List Turn :=
  [.call ⟨[⟨1⟩], fun _ _ _ => true⟩ (.initializeTreasury ⟨1⟩ ⟨8⟩) none,
    .call ⟨[⟨1⟩], fun _ _ _ => true⟩ (.addRecipient ⟨1⟩ ⟨2⟩ 5000) none,
    .call ⟨[⟨1⟩], fun _ _ _ => true⟩ (.addRecipient ⟨1⟩ ⟨3⟩ 2500) none,
    .call ⟨[⟨1⟩], fun _ _ _ => true⟩ (.addRecipient ⟨1⟩ ⟨4⟩ 2500) none,
    .call ⟨[⟨5⟩], fun _ _ _ => true⟩ (.distribute ⟨5⟩ 101) none,
    .send ⟨5⟩ 7,
    .call ⟨[⟨2⟩], fun _ _ _ => true⟩ (.withdraw ⟨2⟩) (some 50),
    .call ⟨[⟨1⟩], fun _ _ _ => true⟩ (.removeRecipient ⟨1⟩ ⟨3⟩) none,
    .call ⟨[⟨5⟩], fun _ _ _ => true⟩ (.distribute ⟨5⟩ 30) none]

/-- A thousand tokens at one address. -/
def purse : Balances where
  of holder := if holder = ⟨5⟩ then 1000 else 0
  nonneg holder := by split <;> decide
  fits holder := by split <;> decide

/-- The recipient that left keeps its part, and the one that withdrew gets a new one. -/
theorem treasury_conserved_shared :
    (shared.foldl Turn.next (deployed ⟨9⟩ purse)).balances.of ⟨9⟩ = 87 ∧
    (shared.foldl Turn.next (deployed ⟨9⟩ purse)).balanceOf ⟨2⟩ = 20 ∧
    (shared.foldl Turn.next (deployed ⟨9⟩ purse)).balanceOf ⟨3⟩ = 25 ∧
    (shared.foldl Turn.next (deployed ⟨9⟩ purse)).receivedOf ⟨2⟩ = 70 ∧
    Balanced 0 (shared.map Turn.label).reverse (shared.foldl Turn.next (deployed ⟨9⟩ purse)) := by
  have run := scripted
    (show Trace.Playable Turn.next Turn.Legal (deployed ⟨9⟩ purse) shared by decide)
  exact ⟨by decide, by decide, by decide, by decide, (treasury_conserved run).1⟩

end Runs

end KeeperNetwork.Treasury
