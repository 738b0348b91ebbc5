import KeeperNetwork.Lib.ProRata
import KeeperNetwork.Treasury.Conservation

/-! How a distribution is split, in whatever order and in however many calls. -/

namespace KeeperNetwork.Treasury

open Soroban

def Env.allShares (e : Env) : Nat := (e.list.map e.sharesOf).sum

def Env.proportion (e : Env) (amount : Int) (recipient : Address) : Int :=
  ProRata.part e.allShares amount (e.sharesOf recipient)

def Env.proportions (e : Env) (amount : Int) : Int := (e.list.map (e.proportion amount)).sum

/-- An amount was split among the recipients, and the caller paid for it. -/
structure SplitBy (e : Env) (caller : Address) (amount : Int) (e' : Env) : Prop where
  inside : ∀ recipient ∈ e.list,
    e'.balanceOf recipient = e.balanceOf recipient + e.proportion amount recipient
  outside : ∀ recipient ∉ e.list, e'.balanceOf recipient = e.balanceOf recipient
  paid : e'.balances.of caller = e.balances.of caller - e.proportions amount
  held : e'.balances.of e.self = e.balances.of e.self + e.proportions amount
  frame : ∀ holder, holder ≠ caller → holder ≠ e.self →
    e'.balances.of holder = e.balances.of holder
  rest : 0 ≤ amount - e.proportions amount ∧ amount - e.proportions amount < e.list.length

/-- No amount of the treasury's books is negative. -/
structure Nonneg (e : Env) : Prop where
  balance : ∀ recipient, 0 ≤ e.balanceOf recipient
  received : ∀ recipient, 0 ≤ e.receivedOf recipient
  distributed : 0 ≤ e.distributed

section Books

variable {e e' : Env} {amount : Int} {total : Nat} {list : List Address}

theorem Credits.nonneg (credits : Credits e amount total list e') (positive : 0 < amount)
    (nonneg : Nonneg e) : Nonneg e' := by
  -- Each part of a positive amount is nonnegative.
  have part (recipient : Address) :
      0 ≤ (list.count recipient : Int) * e.share amount total recipient :=
    Int.mul_nonneg (Int.natCast_nonneg _) (share_nonneg positive total recipient)
  refine ⟨fun recipient => ?_, fun recipient => ?_, ?_⟩
  · rw [credits.balance]
    exact Int.add_nonneg (nonneg.balance recipient) (part recipient)
  · rw [credits.received]
    exact Int.add_nonneg (nonneg.received recipient) (part recipient)
  · rw [credits.distributed]
    exact Int.add_nonneg nonneg.distributed (sum_share_nonneg positive)

theorem Effect.nonneg {inv : Invocation} {call : Call} {value : Value}
    (effect : Effect e inv call value e') (nonneg : Nonneg e) : Nonneg e' := by
  -- Configuration leaves the books alone.
  cases effect with
  | distributed running positive auth nonempty counted someShares credits paid =>
    obtain ⟨balance, received, distributed⟩ := credits.nonneg positive nonneg
    obtain ⟨balances, rfl⟩ := paid_balances paid
    exact ⟨balance, received, distributed⟩
  | @withdrawn payee balances auth positive moved =>
    refine ⟨fun recipient => ?_, nonneg.received, nonneg.distributed⟩
    have written := e.recipientBalance.getD_lookup_insert payee recipient 0 0
    refine le_of_le_of_eq ?_ written.symm
    split
    · exact le_rfl
    · exact nonneg.balance recipient
  | _ => exact ⟨nonneg.balance, nonneg.received, nonneg.distributed⟩

theorem Step.nonneg {label : Label} (step : Step e label e') (nonneg : Nonneg e) : Nonneg e' := by
  -- Tokens that arrive touch only the token balances.
  cases step with
  | called own apart ran => exact (perform_effect ran).nonneg nonneg
  | refused => exact nonneg
  | received => exact ⟨nonneg.balance, nonneg.received, nonneg.distributed⟩

end Books

section Split

variable {e e' : Env} {inv : Invocation} {caller : Address} {amount : Int}

theorem share_eq_proportion (positive : 0 < amount) (recipient : Address) :
    e.share amount e.allShares recipient = e.proportion amount recipient :=
  Int.tdiv_eq_ediv_of_nonneg (Int.mul_nonneg positive.le (Int.natCast_nonneg _))

theorem allShares_of_counted {total : Nat} (counted : e.addShares 0 e.list = some total) :
    total = e.allShares :=
  (addShares_eq_some counted).trans (Nat.zero_add _)

theorem sum_share_eq_proportions (positive : 0 < amount) :
    (e.list.map (e.share amount e.allShares)).sum = e.proportions amount := by
  rw [Env.proportions, funext (share_eq_proportion positive)]

/-- A distribution that returns has split its amount by the shares. -/
theorem distribute_split (listed : Listed e) (apart : e.self ∉ inv.auths)
    (ran : (distribute inv caller amount).Returns e () e') : SplitBy e caller amount e' := by
  cases distribute_effect ran with
  | @distributed _ _ total middle after parts running positive auth nonempty counted someShares
      credits paid =>
    obtain rfl := allShares_of_counted counted
    rw [sum_share_eq_proportions positive] at paid
    have other : caller ≠ e.self := fun same => apart (same ▸ auth)
    -- Token by token, the payment is a move of what was credited, which may be nothing.
    have moved (holder : Address) : after.balances.of holder =
        e.balances.moved caller e.self (e.proportions amount) holder := by
      rcases paid with ⟨nothing, rfl⟩ | ⟨balances, moved, rfl⟩
      · have least : 0 ≤ e.proportions amount :=
          sum_share_eq_proportions positive ▸ sum_share_nonneg positive
        have none : e.proportions amount = 0 := le_antisymm nothing least
        rw [credits.setup.balances, none]
        simp [Balances.moved]
      · exact congrFun (Balances.move_eq_some moved).2.2 holder
    have balance (recipient : Address) : after.balanceOf recipient =
        e.balanceOf recipient + e.list.count recipient * e.proportion amount recipient := by
      rw [← share_eq_proportion positive, ← credits.balance]
      obtain ⟨balances, rfl⟩ := paid_balances paid
      rfl
    constructor
    · intro recipient member
      refine (balance recipient).trans ?_
      rw [List.count_eq_one_of_mem listed.distinct member, Nat.cast_one, Int.one_mul]
    · intro recipient absent
      refine (balance recipient).trans ?_
      rw [List.count_eq_zero_of_not_mem absent, Nat.cast_zero, Int.zero_mul, Int.add_zero]
    · refine (moved caller).trans ?_
      rw [Balances.moved, if_pos rfl, if_neg other, Int.add_zero]
    · refine (moved e.self).trans ?_
      rw [Balances.moved, if_neg (Ne.symm other), if_pos rfl, Int.sub_zero]
    · intro holder notCaller notSelf
      refine (moved holder).trans ?_
      rw [Balances.moved, if_neg notCaller, if_neg notSelf, Int.sub_zero, Int.add_zero]
    · have split := ProRata.sum_part_bounds (Nat.pos_of_ne_zero someShares) amount
      rw [List.map_map, List.length_map] at split
      exact split

theorem SplitBy.balance (split : SplitBy e caller amount e') (listed : Listed e)
    (recipient : Address) :
    e'.balanceOf recipient = e.balanceOf recipient + e.proportion amount recipient := by
  -- An address that is not listed has no shares, so its proportion is nothing.
  by_cases member : recipient ∈ e.list
  · exact split.inside recipient member
  · rw [split.outside recipient member, Env.proportion, listed.outside recipient member]
    simp [ProRata.part]

end Split

section Order

variable {e e' : Env} {inv : Invocation} {caller recipient : Address} {amount credited : Int}
  {total : Nat} {list rest : List Address}

def Env.Takes (e : Env) (recipient : Address) (part : Int) : Prop :=
  part = 0 ∨ e.balanceOf recipient + part ≤ i128Max ∧ e.receivedOf recipient + part ≤ i128Max

/-- Nothing overflows when every recipient of a list is credited its part. -/
structure Room (e : Env) (amount : Int) (total : Nat) (credited : Int) (list : List Address) :
    Prop where
  product : ∀ recipient ∈ list, Fits (amount * e.sharesOf recipient)
  own : ∀ recipient ∈ list, e.Takes recipient (e.share amount total recipient)
  sums : (list.map (e.share amount total)).sum = 0 ∨
    credited + (list.map (e.share amount total)).sum ≤ i128Max ∧
      e.distributed + (list.map (e.share amount total)).sum ≤ i128Max

theorem room_pass (nothing : e.share amount total recipient = 0) :
    Room e amount total credited (recipient :: rest) ↔
      Fits (amount * e.sharesOf recipient) ∧ Room e amount total credited rest := by
  -- The head adds nothing to the sum.
  have sum : ((recipient :: rest).map (e.share amount total)).sum =
      (rest.map (e.share amount total)).sum := by
    rw [List.map_cons, List.sum_cons, nothing, Int.zero_add]
  constructor
  · rintro ⟨product, own, sums⟩
    rw [sum] at sums
    obtain ⟨here, later⟩ := List.forall_mem_cons.mp product
    exact ⟨here, later, (List.forall_mem_cons.mp own).2, sums⟩
  · rintro ⟨here, later, own, sums⟩
    exact ⟨List.forall_mem_cons.mpr ⟨here, later⟩, List.forall_mem_cons.mpr ⟨.inl nothing, own⟩,
      sum ▸ sums⟩

theorem takes_credit {other : Address} (different : other ≠ recipient) (part more : Int) :
    (e.credit recipient part).Takes other more ↔ e.Takes other more := by
  -- Other addresses read other entries.
  have balance : (e.credit recipient part).balanceOf other = e.balanceOf other := by
    refine (e.recipientBalance.getD_lookup_insert recipient other _ 0).trans ?_
    exact if_neg different
  have received : (e.credit recipient part).receivedOf other = e.receivedOf other := by
    refine (e.recipientReceivedTotal.getD_lookup_insert recipient other _ 0).trans ?_
    exact if_neg different
  rw [Env.Takes, balance, received, Env.Takes]

/-- There is room for a list if there is for its first part and then for the rest. -/
theorem room_credit (positive : 0 < amount) (nonneg : Nonneg e) (started : 0 ≤ credited)
    (new : recipient ∉ rest) (something : e.share amount total recipient ≠ 0) :
    Room e amount total credited (recipient :: rest) ↔
      Fits (amount * e.sharesOf recipient) ∧
        e.Credible recipient credited (e.share amount total recipient) ∧
        Room (e.credit recipient (e.share amount total recipient)) amount total
          (credited + e.share amount total recipient) rest := by
  have signs := i128_signs
  have part : 0 ≤ e.share amount total recipient := share_nonneg positive total recipient
  have later : 0 ≤ (rest.map (e.share amount total)).sum := sum_share_nonneg positive
  have balance := nonneg.balance recipient
  have received := nonneg.received recipient
  have distributed := nonneg.distributed
  -- The rest is credited later and somebody else, so it finds its own sums as they were.
  have apart (other : Address) (member : other ∈ rest) : other ≠ recipient :=
    fun same => new (same ▸ member)
  constructor
  · rintro ⟨product, own, sums⟩
    rw [List.map_cons, List.sum_cons] at sums
    obtain ⟨here, products⟩ := List.forall_mem_cons.mp product
    obtain ⟨takes, others⟩ := List.forall_mem_cons.mp own
    obtain ⟨ownBalance, ownReceived⟩ := takes.resolve_left something
    obtain ⟨sum, all⟩ := sums.resolve_left (by omega)
    refine ⟨here, ⟨⟨by omega, ownBalance⟩, ⟨by omega, ownReceived⟩, ⟨by omega, by omega⟩,
      ⟨by omega, by omega⟩⟩, products, fun other member => ?_, .inr ⟨?_, ?_⟩⟩
    · exact (takes_credit (apart other member) _ _).mpr (others other member)
    · rw [Int.add_assoc]
      exact sum
    · show e.distributed + _ + _ ≤ _
      rw [Int.add_assoc]
      exact all
  · rintro ⟨here, ⟨⟨-, ownBalance⟩, ⟨-, ownReceived⟩, ⟨-, sum⟩, ⟨-, all⟩⟩, products, others, sums⟩
    refine ⟨List.forall_mem_cons.mpr ⟨here, products⟩, List.forall_mem_cons.mpr
      ⟨.inr ⟨ownBalance, ownReceived⟩, fun other member => ?_⟩, .inr ?_⟩
    · exact (takes_credit (apart other member) _ _).mp (others other member)
    · -- If the rest adds nothing, the sums are those after the first part.
      have rest : (rest.map (e.share amount total)).sum = 0 ∨
          credited + e.share amount total recipient + (rest.map (e.share amount total)).sum ≤
            i128Max ∧
          e.distributed + e.share amount total recipient +
            (rest.map (e.share amount total)).sum ≤ i128Max := sums
      rw [List.map_cons, List.sum_cons]
      omega

theorem creditAll_accepts {breakdown : List (Address × Int)} (positive : 0 < amount)
    (distinct : list.Nodup) (nonneg : Nonneg e) (started : 0 ≤ credited) :
    (∃ result e', (creditAll amount total list credited breakdown).Returns e result e') ↔
      Room e amount total credited list := by
  -- Each round is left with the room that the recipients before it have not taken.
  induction list generalizing e credited breakdown with
  | nil =>
    refine iff_of_true ⟨_, e, EStateM.returns_pure.mpr ⟨rfl, rfl⟩⟩ ⟨?_, ?_, .inl rfl⟩ <;> simp
  | cons recipient rest ih =>
    obtain ⟨new, distinct⟩ := List.nodup_cons.mp distinct
    by_cases nothing : e.share amount total recipient = 0
    · simp only [creditAll_pass nothing, room_pass nothing, exists_and_left,
        ih distinct nonneg started]
    · have credits := credit_credits e amount total recipient
      have later : 0 ≤ credited + e.share amount total recipient :=
        Int.add_nonneg started (share_nonneg positive total recipient)
      simp only [creditAll_credit nothing, room_credit positive nonneg started new nothing,
        exists_and_left, ih distinct (credits.nonneg positive nonneg) later]

def Env.reordered (e : Env) (list : List Address) : Env := { e with recipientList := some list }

theorem Listed.reordered (listed : Listed e) (same : list.Perm e.list) :
    Listed (e.reordered list) where
  distinct := same.nodup_iff.mpr listed.distinct
  short := same.length_eq.le.trans listed.short
  inside recipient member := listed.inside recipient (same.mem_iff.mp member)
  outside recipient absent :=
    listed.outside recipient fun member => absent (same.mem_iff.mpr member)

theorem allShares_reordered (same : list.Perm e.list) :
    (e.reordered list).allShares = e.allShares :=
  (same.map e.sharesOf).sum_eq

theorem proportion_reordered (same : list.Perm e.list) :
    (e.reordered list).proportion amount = e.proportion amount := by
  funext recipient
  rw [Env.proportion, allShares_reordered same]
  rfl

/-- Whether a distribution succeeds does not depend on the order of the list. -/
theorem distribute_reordered (listed : Listed e) (nonneg : Nonneg e)
    (same : list.Perm e.list) (ran : (distribute inv caller amount).Returns e () e') :
    ∃ other, (distribute inv caller amount).Returns (e.reordered list) () other := by
  obtain ⟨running, positive, auth, nonempty, total, counted, someShares, credited, parts, middle,
    after, loop, collected, rfl⟩ := distribute_returns.mp ran
  -- The shares are counted in the other order, and their sum is the same.
  have others : list ≠ [] := fun empty => nonempty (List.Perm.eq_nil (empty ▸ same.symm))
  obtain ⟨count, counted', -⟩ := (listed.reordered same).total others
  obtain rfl : count = total := by
    rw [allShares_of_counted counted', allShares_reordered same, allShares_of_counted counted]
  -- The loop has room for all parts, and leaves the same sum and the same tokens.
  have room := (creditAll_accepts positive listed.distinct nonneg le_rfl).mp ⟨_, _, loop⟩
  have nonneg' : Nonneg (e.reordered list) :=
    ⟨nonneg.balance, nonneg.received, nonneg.distributed⟩
  have sums : (list.map (e.share amount count)).sum = (e.list.map (e.share amount count)).sum :=
    (same.map (e.share amount count)).sum_eq
  obtain ⟨⟨credited', parts'⟩, middle', loop'⟩ := (@creditAll_accepts (e.reordered list) amount 0
    count list [] positive (same.nodup_iff.mpr listed.distinct) nonneg' le_rfl).mpr
    ⟨fun recipient member => room.product recipient (same.mem_iff.mp member),
      fun recipient member => room.own recipient (same.mem_iff.mp member), sums ▸ room.sums⟩
  obtain ⟨sum, credits⟩ := creditAll_credits loop
  obtain ⟨sum', credits'⟩ := creditAll_credits loop'
  obtain rfl : credited' = credited := by
    rw [sum, sum']
    exact congrArg _ sums
  have setup := credits.setup
  have setup' := credits'.setup
  -- So it is collected in the one case exactly as in the other.
  have collects : ∃ after', (collect inv caller credited').Returns middle' () after' := by
    simp only [collect_returns] at collected ⊢
    rw [setup.self, setup.balances, setup.rewardToken] at collected
    rw [setup'.self, setup'.balances, setup'.rewardToken]
    rcases collected with ⟨nothing, -⟩ | ⟨something, known, permitted, balances, moved, -⟩
    · exact ⟨middle', .inl ⟨nothing, rfl⟩⟩
    · exact ⟨_, .inr ⟨something, known, permitted, balances, moved, rfl⟩⟩
  obtain ⟨after', collected'⟩ := collects
  exact ⟨_, distribute_returns.mpr ⟨running, positive, auth, others, count, counted', someShares,
    credited', parts', middle', after', loop', collected', rfl⟩⟩

end Order

section Parts

variable {e e' : Env} {inv : Invocation} {caller : Address} {amount : Int}

theorem proportion_distributed (ran : (distribute inv caller amount).Returns e () e') :
    e'.proportion = e.proportion := by
  -- A distribution credits and pays, and leaves the recipients and their shares alone.
  cases distribute_effect ran with
  | @distributed _ _ _ middle _ _ _ _ _ _ _ _ credits paid =>
    have same : middle.proportion = e.proportion := by
      funext amount recipient
      rw [Env.proportion, Env.allShares, Env.list, credits.setup.recipientList,
        sharesOf_congr credits.setup.recipientShares]
      rfl
    obtain ⟨balances, rfl⟩ := paid_balances paid
    exact same

theorem distributions_balance (listed : Listed e) {parts : List (Address × Int)}
    (run : Trace Step e (parts.map fun part => .call (.distribute part.1 part.2) none) e') :
    Listed e' ∧ e'.proportion = e.proportion ∧ ∀ recipient,
      e'.balanceOf recipient = e.balanceOf recipient +
        (parts.map fun part => e.proportion part.2 recipient).sum := by
  -- The latest part comes first in the list, and the run before it has the others.
  induction parts generalizing e' with
  | nil =>
    cases run
    exact ⟨listed, rfl, fun recipient => (Int.add_zero _).symm⟩
  | cons part earlier ih =>
    cases run with
    | snoc before last =>
      obtain ⟨listed', setup, balance⟩ := ih before
      cases last with
      | called own apart ran =>
        obtain ⟨_, inner, _⟩ := EStateM.returns_map.mp ran
        have split := (distribute_split listed' apart inner).balance listed'
        refine ⟨(perform_effect ran).listed listed', (proportion_distributed inner).trans setup,
          fun recipient => ?_⟩
        rw [split, balance, setup, List.map_cons, List.sum_cons]
        omega

end Parts

section Runs

variable {self : Address} {balances : Balances} {labels : List Label} {e e' : Env}
  {inv : Invocation} {caller : Address} {amount : Int}

/--
Pro-rata distribution.

In every reachable state of the treasury, a distribution that returns credits every recipient its
proportion rounded down, nobody else, and collects the sum from the caller. With the recipients in
any other order it returns and credits the same. Split into several distributions, the amount
credits everybody at most as much, and less by fewer tokens than there are distributions.
-/
theorem distribution_prorata (run : Trace Step (deployed self balances) labels e)
    (apart : e.self ∉ inv.auths) (ran : (distribute inv caller amount).Returns e () e') :
    SplitBy e caller amount e' ∧
      (∀ list : List Address, list.Perm e.list →
        ∃ other, (distribute inv caller amount).Returns (e.reordered list) () other ∧
          other.balanceOf = e'.balanceOf ∧ other.balances.of = e'.balances.of) ∧
      ∀ (parts : List (Address × Int)) (after : Env),
        Trace Step e (parts.map fun part => .call (.distribute part.1 part.2) none) after →
        (parts.map Prod.snd).sum = amount → ∀ recipient,
          after.balanceOf recipient ≤ e'.balanceOf recipient ∧
            e'.balanceOf recipient - (parts.length - 1) ≤ after.balanceOf recipient := by
  have listed : Listed e :=
    run.preserves (fun _ _ _ step => step.listed) (deployed_listed self balances)
  have nonneg : Nonneg e :=
    run.preserves (fun _ _ _ step => step.nonneg) ⟨fun _ => le_rfl, fun _ => le_rfl, le_rfl⟩
  have split := distribute_split listed apart ran
  refine ⟨split, ?_, ?_⟩
  · intro list same
    obtain ⟨other, ran'⟩ := distribute_reordered listed nonneg same ran
    have split' := distribute_split (listed.reordered same) apart ran'
    refine ⟨other, ran', funext fun recipient => ?_, funext fun holder => ?_⟩
    · rw [split'.balance (listed.reordered same), split.balance listed, proportion_reordered same]
      rfl
    · -- The caller, the treasury and everybody else are booked the same way in both.
      have sum : (e.reordered list).proportions amount = e.proportions amount := by
        rw [Env.proportions, proportion_reordered same]
        exact (same.map (e.proportion amount)).sum_eq
      by_cases payer : holder = caller
      · subst payer
        rw [split'.paid, split.paid, sum]
        rfl
      · by_cases own : holder = e.self
        · subst own
          have held := split'.held
          rw [sum] at held
          exact held.trans split.held.symm
        · exact (split'.frame holder payer own).trans (split.frame holder payer own).symm
  · intro parts after distributed sum recipient
    obtain ⟨-, -, balance⟩ := distributions_balance listed distributed
    obtain ⟨-, positive, -, nonempty, total, counted, someShares, -⟩ := distribute_returns.mp ran
    have shares : 0 < e.allShares := by
      rw [← allShares_of_counted counted]
      exact Nat.pos_of_ne_zero someShares
    have amounts : parts.map Prod.snd ≠ [] := by
      intro none
      rw [none] at sum
      exact absurd sum positive.ne
    have bounds := ProRata.part_sum shares (e.sharesOf recipient) amounts
    rw [List.map_map, List.length_map, sum] at bounds
    rw [balance, split.balance listed]
    have same : (parts.map fun part => e.proportion part.2 recipient).sum =
        (parts.map ((fun amount => ProRata.part e.allShares amount (e.sharesOf recipient)) ∘
          Prod.snd)).sum := rfl
    rw [same, Env.proportion]
    omega

/-- Two recipients with a third and two thirds of the shares, before anything is distributed. -/
def thirds : List Turn :=
  [.call ⟨[⟨1⟩], fun _ _ _ => true⟩ (.initializeTreasury ⟨1⟩ ⟨8⟩) none,
    .call ⟨[⟨1⟩], fun _ _ _ => true⟩ (.addRecipient ⟨1⟩ ⟨2⟩ 1000) none,
    .call ⟨[⟨1⟩], fun _ _ _ => true⟩ (.addRecipient ⟨1⟩ ⟨3⟩ 2000) none]

/-- A hundred tokens are split into 33 and 66, and one stays with the caller. -/
theorem distribution_prorata_thirds :
    ∃ e e', Trace Step (deployed ⟨9⟩ purse) (thirds.map Turn.label).reverse e ∧
      (distribute ⟨[⟨5⟩], fun _ _ _ => true⟩ ⟨5⟩ 100).Returns e () e' ∧
      e'.balanceOf ⟨2⟩ = 33 ∧ e'.balanceOf ⟨3⟩ = 66 ∧ e.proportions 100 = 99 ∧
      SplitBy e ⟨5⟩ 100 e' := by
  have run := scripted
    (show Trace.Playable Turn.next Turn.Legal (deployed ⟨9⟩ purse) thirds by decide)
  have ran := @EStateM.returns_of_answer _ _ _ (distribute ⟨[⟨5⟩], fun _ _ _ => true⟩ ⟨5⟩ 100)
    (thirds.foldl Turn.next (deployed ⟨9⟩ purse)) () (by decide)
  exact ⟨_, _, run, ran, by decide, by decide, by decide,
    (distribution_prorata run (by decide) ran).1⟩

end Runs

end KeeperNetwork.Treasury
