import KeeperNetwork.Treasury.Contract

/-! What a returning call of the treasury has done. -/

namespace KeeperNetwork.Treasury

open Soroban

/-- Everything but what recipients were credited, and the events, is the same in two states. -/
structure SameSetup (e e' : Env) : Prop where
  self : e'.self = e.self
  balances : e'.balances = e.balances
  admin : e'.admin = e.admin
  paused : e'.paused = e.paused
  rewardToken : e'.rewardToken = e.rewardToken
  recipientList : e'.recipientList = e.recipientList
  recipientShares : e'.recipientShares = e.recipientShares
  wasm : e'.wasm = e.wasm

def Env.share (e : Env) (amount total : Int) (recipient : Address) : Int :=
  (amount * e.sharesOf recipient).tdiv total

def Env.owed (e : Env) : Int := e.recipientBalance.total fun amount => amount

def Env.received (e : Env) : Int := e.recipientReceivedTotal.total fun amount => amount

/-- Every address of a list was credited its part of an amount. -/
structure Credits (e : Env) (amount total : Int) (list : List Address) (e' : Env) : Prop where
  setup : SameSetup e e'
  balance : ∀ recipient, e'.balanceOf recipient =
    e.balanceOf recipient + list.count recipient * e.share amount total recipient
  received : ∀ recipient, e'.receivedOf recipient =
    e.receivedOf recipient + list.count recipient * e.share amount total recipient
  distributed : e'.distributed = e.distributed + (list.map (e.share amount total)).sum
  owed : e'.owed = e.owed + (list.map (e.share amount total)).sum
  totalReceived : e'.received = e.received + (list.map (e.share amount total)).sum

theorem SameSetup.trans {e middle e' : Env} (first : SameSetup e middle)
    (second : SameSetup middle e') : SameSetup e e' where
  self := second.self.trans first.self
  balances := second.balances.trans first.balances
  admin := second.admin.trans first.admin
  paused := second.paused.trans first.paused
  rewardToken := second.rewardToken.trans first.rewardToken
  recipientList := second.recipientList.trans first.recipientList
  recipientShares := second.recipientShares.trans first.recipientShares
  wasm := second.wasm.trans first.wasm

theorem SameSetup.share {e e' : Env} (same : SameSetup e e') (amount total : Int) :
    e'.share amount total = e.share amount total := by
  funext recipient
  unfold Env.share Env.sharesOf
  rw [same.recipientShares]

/-- Writing one balance replaces it in the sum. -/
theorem total_insert (map : Finmap fun _ : Address => Int) (recipient : Address) (amount : Int) :
    (map.insert recipient amount).total (fun amount => amount) =
      map.total (fun amount => amount) - (map.lookup recipient).getD 0 + amount := by
  -- What the key weighed before is taken out, and the new weight put in.
  rw [Finmap.total_insert]
  congr 2
  unfold Finmap.weightAt
  cases map.lookup recipient <;> rfl

variable {list : List Address}

section Loop

variable {e e' : Env} {amount total : Int}

def Env.credit (e : Env) (recipient : Address) (amount : Int) : Env :=
  Env.emit { e with
    recipientBalance := e.recipientBalance.insert recipient (e.balanceOf recipient + amount)
    recipientReceivedTotal :=
      e.recipientReceivedTotal.insert recipient (e.receivedOf recipient + amount)
    totalDistributed := some (e.distributed + amount) }
    (.distributed recipient amount (e.distributed + amount))

theorem credit_credits (e : Env) (amount total : Int) (recipient : Address) :
    Credits e amount total [recipient] (e.credit recipient (e.share amount total recipient)) where
  setup := by constructor <;> rfl
  -- One entry of the map is written, and every other reads as before.
  balance other := by
    have written := e.recipientBalance.getD_lookup_insert recipient other
      (e.balanceOf recipient + e.share amount total recipient) 0
    refine written.trans ?_
    by_cases same : other = recipient
    · subst same; simp
    · simp [same, Ne.symm same, Env.balanceOf]
  received other := by
    have written := e.recipientReceivedTotal.getD_lookup_insert recipient other
      (e.receivedOf recipient + e.share amount total recipient) 0
    refine written.trans ?_
    by_cases same : other = recipient
    · subst same; simp
    · simp [same, Ne.symm same, Env.receivedOf]
  distributed := by simp [Env.credit, Env.emit, Env.distributed]
  -- The sum grows by what the one entry grew by.
  owed := by
    have written := total_insert e.recipientBalance recipient
      (e.balanceOf recipient + e.share amount total recipient)
    refine written.trans ?_
    simp only [Env.owed, Env.balanceOf, List.map_cons, List.map_nil, List.sum_cons, List.sum_nil]
    omega
  totalReceived := by
    have written := total_insert e.recipientReceivedTotal recipient
      (e.receivedOf recipient + e.share amount total recipient)
    refine written.trans ?_
    simp only [Env.received, Env.receivedOf, List.map_cons, List.map_nil, List.sum_cons,
      List.sum_nil]
    omega

theorem Credits.nothing (none : ∀ recipient ∈ list, e.share amount total recipient = 0) :
    Credits e amount total list e := by
  -- Every term of the sums is nothing.
  have sum : (list.map (e.share amount total)).sum = 0 :=
    List.sum_eq_zero fun part member => by
      obtain ⟨recipient, listed, rfl⟩ := List.mem_map.mp member
      exact none recipient listed
  have each (recipient : Address) :
      (list.count recipient : Int) * e.share amount total recipient = 0 := by
    by_cases listed : recipient ∈ list
    · rw [none recipient listed, Int.mul_zero]
    · rw [List.count_eq_zero_of_not_mem listed]
      simp
  constructor
  · constructor <;> rfl
  all_goals intros; simp [sum, each]

theorem Credits.append {middle : Env} {first second : List Address}
    (before : Credits e amount total first middle) (after : Credits middle amount total second e') :
    Credits e amount total (first ++ second) e' := by
  -- The second list is paid by the shares of before, which the first has not changed.
  have same := before.setup.share amount total
  refine ⟨before.setup.trans after.setup, fun recipient => ?_, fun recipient => ?_, ?_, ?_, ?_⟩
  · rw [after.balance, before.balance, same, List.count_append]
    push_cast
    rw [Int.add_mul, Int.add_assoc]
  · rw [after.received, before.received, same, List.count_append]
    push_cast
    rw [Int.add_mul, Int.add_assoc]
  · rw [after.distributed, before.distributed, same, List.map_append, List.sum_append,
      Int.add_assoc]
  · rw [after.owed, before.owed, same, List.map_append, List.sum_append, Int.add_assoc]
  · rw [after.totalReceived, before.totalReceived, same, List.map_append, List.sum_append,
      Int.add_assoc]

def Fits (amount : Int) : Prop := i128Min ≤ amount ∧ amount ≤ i128Max

/-- Crediting a recipient a part overflows neither its own sums nor the running ones. -/
@[mk_iff]
structure Env.Credible (e : Env) (recipient : Address) (credited part : Int) : Prop where
  balance : Fits (e.balanceOf recipient + part)
  received : Fits (e.receivedOf recipient + part)
  credited : Fits (credited + part)
  distributed : Fits (e.distributed + part)

section Round

variable {recipient : Address} {rest : List Address} {credited : Int}
  {breakdown : List (Address × Int)} {result : Int × List (Address × Int)}

theorem creditAll_pass (nothing : e.share amount total recipient = 0) :
    (creditAll amount total (recipient :: rest) credited breakdown).Returns e result e' ↔
      Fits (amount * e.sharesOf recipient) ∧
        (creditAll amount total rest credited (if e.sharesOf recipient = 0 then breakdown
          else breakdown ++ [(recipient, 0)])).Returns e result e' := by
  have none : (amount * e.sharesOf recipient).tdiv total = 0 := nothing
  by_cases empty : e.sharesOf recipient = 0
  · -- An address without shares is passed over, and its product is zero.
    simp [creditAll, empty, Fits, i128_signs.1.le, i128_signs.2.le]
  · -- An amount that rounds to nothing is listed but not credited.
    simp [creditAll, empty, none, checkedMul_eq_some, Fits, and_assoc]

theorem creditAll_credit (something : e.share amount total recipient ≠ 0) :
    (creditAll amount total (recipient :: rest) credited breakdown).Returns e result e' ↔
      Fits (amount * e.sharesOf recipient) ∧
        e.Credible recipient credited (e.share amount total recipient) ∧
        (creditAll amount total rest (credited + e.share amount total recipient)
          (breakdown ++ [(recipient, e.share amount total recipient)])).Returns
          (e.credit recipient (e.share amount total recipient)) result e' := by
  have part : (amount * e.sharesOf recipient).tdiv total = e.share amount total recipient := rfl
  -- Without shares there would be no part.
  have shares : e.sharesOf recipient ≠ 0 := by
    intro empty
    simp [Env.share, empty] at something
  simp [creditAll, shares, part, something, checkedMul_eq_some, checkedAdd_eq_some,
    creditRecipient, accrueTotalDistributed, Env.credible_iff, Env.credit, Env.distributed,
    Env.receivedOf, Fits, and_assoc]

end Round

theorem creditAll_credits {credited sum : Int} {breakdown parts : List (Address × Int)}
    (ran : (creditAll amount total list credited breakdown).Returns e (sum, parts) e') :
    sum = credited + (list.map (e.share amount total)).sum ∧ Credits e amount total list e' := by
  -- One round credits the head, and the rest of the loop credits the tail.
  induction list generalizing e credited breakdown with
  | nil =>
    obtain ⟨⟨rfl, -⟩, rfl⟩ := ran
    exact ⟨by simp, .nothing (by simp)⟩
  | cons recipient rest ih =>
    rw [List.map_cons, List.sum_cons, ← Int.add_assoc]
    -- A part of nothing is passed over, and any other is credited.
    by_cases nothing : e.share amount total recipient = 0
    · rw [nothing, Int.add_zero]
      obtain ⟨added, credits⟩ := ih ((creditAll_pass nothing).mp ran).2
      have head : Credits e amount total [recipient] e := .nothing (by simpa using nothing)
      exact ⟨added, head.append credits⟩
    · obtain ⟨added, credits⟩ := ih ((creditAll_credit nothing).mp ran).2.2
      have head := credit_credits e amount total recipient
      exact ⟨added, head.append credits⟩

end Loop

theorem addShares_eq_some {e : Env} {total sum : Nat} (added : e.addShares total list = some sum) :
    sum = total + (list.map e.sharesOf).sum := by
  -- The head is added first, and then the tail.
  induction list generalizing total with
  | nil => simpa [Env.addShares] using added.symm
  | cons recipient rest ih =>
    simp only [Env.addShares, Option.bind_eq_bind, Option.bind_eq_some_iff,
      checkedAddNat_eq_some] at added
    obtain ⟨_, ⟨rfl, -⟩, added⟩ := added
    rw [ih added, List.map_cons, List.sum_cons, Nat.add_assoc]

theorem addShares_of_bounded {e : Env} {total : Nat}
    (bounded : ∀ recipient ∈ list, e.sharesOf recipient ≤ maxSharesBps)
    (fits : total + list.length * maxSharesBps ≤ u32Max) :
    ∃ sum, e.addShares total list = some sum ∧ sum ≤ total + list.length * maxSharesBps := by
  -- Each recipient takes at most its bound of the room that is left.
  induction list generalizing total with
  | nil => exact ⟨total, rfl, by simp⟩
  | cons recipient rest ih =>
    have one := bounded recipient List.mem_cons_self
    rw [List.length_cons, Nat.add_mul] at fits
    obtain ⟨sum, added, small⟩ := @ih (total + e.sharesOf recipient)
      (fun other member => bounded other (List.mem_cons_of_mem _ member)) (by omega)
    refine ⟨sum, ?_, ?_⟩
    · simp only [Env.addShares, Option.bind_eq_bind, Option.bind_eq_some_iff,
        checkedAddNat_eq_some]
      exact ⟨_, ⟨rfl, by omega⟩, added⟩
    · rw [List.length_cons, Nat.add_mul]
      omega

variable {u : Unit} {caller : Address}

theorem validateEach_returns {e e' : Env} :
    (validateEach list).Returns e u e' ↔
      (∀ recipient ∈ list, 1 ≤ e.sharesOf recipient ∧ e.sharesOf recipient ≤ maxSharesBps) ∧
        e' = e := by
  -- The head is checked first, and then the tail.
  induction list with
  | nil => simp [validateEach]
  | cons recipient rest ih =>
    simp [validateEach, validateShares, ih, Nat.one_le_iff_ne_zero, and_assoc]

theorem totalShares_returns {e e' : Env} {total : Nat} :
    (totalShares list).Returns e total e' ↔ e.addShares 0 list = some total ∧ e' = e := by
  simp [totalShares, and_comm]

/-- Each of the recipients has shares within the bounds, and so have all together. -/
def Env.Valid (e : Env) (list : List Address) : Prop :=
  (∀ recipient ∈ list, 1 ≤ e.sharesOf recipient ∧ e.sharesOf recipient ≤ maxSharesBps) ∧
    ∃ total, e.addShares 0 list = some total ∧ total ≤ maxTotalShares

theorem valid_of_bounded {e : Env} (short : list.length ≤ maxRecipients)
    (bounded : ∀ recipient ∈ list, 1 ≤ e.sharesOf recipient ∧
      e.sharesOf recipient ≤ maxSharesBps) : e.Valid list := by
  -- Fifty times the largest shares fit, and make up the largest total.
  have most : list.length * maxSharesBps ≤ maxTotalShares := Nat.mul_le_mul_right _ short
  have room : maxTotalShares ≤ u32Max := by decide
  obtain ⟨sum, added, small⟩ := @addShares_of_bounded list e 0
    (fun recipient member => (bounded recipient member).2) (by omega)
  exact ⟨bounded, sum, added, by omega⟩

theorem validateRecipientSet_returns {e e' : Env} :
    (validateRecipientSet list).Returns e u e' ↔ e.Valid list ∧ e' = e := by
  simp [validateRecipientSet, validateEach_returns, totalShares_returns, Env.Valid,
    ← exists_and_right, and_assoc]

theorem requireAdmin_returns {e e' : Env} {inv : Invocation} :
    (requireAdmin inv caller).Returns e u e' ↔
      e.admin = some caller ∧ caller ∈ inv.auths ∧ e' = e := by
  simp [requireAdmin]

theorem transferReward_returns {e e' : Env} {inv : Invocation} {src dst : Address} {amount : Int} :
    (transferReward inv src dst amount).Returns e u e' ↔
      e.rewardToken.isSome = true ∧ inv.permits src dst amount = true ∧
        ∃ balances, e.balances.move src dst amount = some balances ∧
          e' = { e with balances } := by
  -- The host lets the tokens go and moves them, or the call fails.
  by_cases permitted : inv.permits src dst amount = true
  · cases moved : e.balances.move src dst amount <;>
      simp [transferReward, permitted, moved, Option.isSome_iff_exists]
  · simp [transferReward, permitted]

def Env.reconfigured (e : Env) (list : List Address) (recipient : Address) (shares : Nat) : Env :=
  { e with
    recipientList := some list
    recipientShares := e.recipientShares.insert recipient shares }

/-- Everything a returning call can have done. -/
inductive Effect (e : Env) (inv : Invocation) : Call → Value → Env → Prop
  | initialized {admin rewardToken : Address} (fresh : e.admin = none) (auth : admin ∈ inv.auths) :
      Effect e inv (.initializeTreasury admin rewardToken) none
        (Env.emit { e with
          admin := some admin, rewardToken := some rewardToken, paused := some false }
          (.initialized admin rewardToken))
  | added {admin recipient : Address} {shares : Nat} (known : e.admin = some admin)
      (auth : admin ∈ inv.auths) (some : 1 ≤ shares) (most : shares ≤ maxSharesBps)
      (new : recipient ∉ e.list) (room : e.list.length < maxRecipients) :
      Effect e inv (.addRecipient admin recipient shares) none
        ((e.reconfigured (e.list ++ [recipient]) recipient shares).emit
          (.recipientAdded recipient shares))
  | removed {admin recipient : Address} (known : e.admin = some admin) (auth : admin ∈ inv.auths)
      (listed : recipient ∈ e.list) :
      Effect e inv (.removeRecipient admin recipient) none
        ((e.reconfigured (e.list.erase recipient) recipient 0).emit (.recipientRemoved recipient))
  | updated {admin recipient : Address} {shares : Nat} (known : e.admin = some admin)
      (auth : admin ∈ inv.auths) (some : 1 ≤ shares) (most : shares ≤ maxSharesBps)
      (listed : recipient ∈ e.list) :
      Effect e inv (.updateRecipientShares admin recipient shares) none
        (Env.emit { e with recipientShares := e.recipientShares.insert recipient shares }
          (.recipientSharesUpdated recipient (e.sharesOf recipient) shares))
  | paused {admin : Address} (known : e.admin = some admin) (auth : admin ∈ inv.auths) :
      Effect e inv (.pause admin) none (Env.emit { e with paused := some true } (.paused true))
  | unpaused {admin : Address} (known : e.admin = some admin) (auth : admin ∈ inv.auths) :
      Effect e inv (.unpause admin) none
        (Env.emit { e with paused := some false } (.paused false))
  | handedOver {admin newAdmin : Address} (known : e.admin = some admin)
      (auth : admin ∈ inv.auths) (consent : newAdmin ∈ inv.auths) :
      Effect e inv (.transferAdmin admin newAdmin) none
        (Env.emit { e with admin := some newAdmin } (.adminTransferred admin newAdmin))
  | upgraded {admin : Address} {newWasmHash : Bytes} (known : e.admin = some admin)
      (auth : admin ∈ inv.auths) :
      Effect e inv (.upgrade admin newWasmHash) none
        { e.emit (.upgraded admin newWasmHash) with wasm := some newWasmHash }
  | distributed {caller : Address} {amount : Int} {total : Nat} {middle e' : Env}
      {parts : List (Address × Int)} (running : e.isPaused = false) (positive : 0 < amount)
      (auth : caller ∈ inv.auths) (nonempty : e.list ≠ [])
      (counted : e.addShares 0 e.list = some total) (someShares : total ≠ 0)
      (credits : Credits e amount total e.list middle)
      (paid : (e.list.map (e.share amount total)).sum ≤ 0 ∧ e' = middle ∨
        ∃ balances, e.balances.move caller e.self (e.list.map (e.share amount total)).sum =
          some balances ∧ e' = { middle with balances }) :
      Effect e inv (.distribute caller amount) none
        (e'.emit (.distribution caller amount (e.list.map (e.share amount total)).sum parts))
  | withdrawn {recipient : Address} {balances : Balances} (auth : recipient ∈ inv.auths)
      (positive : 0 < e.balanceOf recipient)
      (moved : e.balances.move e.self recipient (e.balanceOf recipient) = some balances) :
      Effect e inv (.withdraw recipient) (some (e.balanceOf recipient))
        (Env.emit { e with
          recipientBalance := e.recipientBalance.insert recipient 0
          balances } (.withdrawn recipient (e.balanceOf recipient)))

/-- The payment for a distribution changes token balances only. -/
theorem paid_balances {middle e' : Env} {credited : Int} {moved : Balances → Prop}
    (paid : credited ≤ 0 ∧ e' = middle ∨ ∃ balances, moved balances ∧
      e' = { middle with balances }) : ∃ balances, e' = { middle with balances } := by
  rcases paid with ⟨-, same⟩ | ⟨balances, -, same⟩
  · exact ⟨middle.balances, same⟩
  · exact ⟨balances, same⟩

theorem sharesOf_congr {e e' : Env} (same : e'.recipientShares = e.recipientShares) :
    e'.sharesOf = e.sharesOf := by
  funext recipient
  rw [Env.sharesOf, same, Env.sharesOf]

theorem sharesOf_written {e e' : Env} {recipient : Address} {shares : Nat}
    (written : e'.recipientShares = e.recipientShares.insert recipient shares) :
    e'.sharesOf = Function.update e.sharesOf recipient shares := by
  funext other
  rw [Env.sharesOf, written, Finmap.getD_lookup_insert, Function.update_apply]
  rfl

section Inversion

variable {e e' : Env} {inv : Invocation} {admin recipient : Address} {shares : Nat}

/-- An addition returns when it passes its own checks and those of the whole set. -/
theorem addRecipient_returns :
    (addRecipient inv admin recipient shares).Returns e u e' ↔
      e.admin = some admin ∧ admin ∈ inv.auths ∧ 1 ≤ shares ∧ shares ≤ maxSharesBps ∧
        recipient ∉ e.list ∧ e.list.length < maxRecipients ∧
        (e.reconfigured (e.list ++ [recipient]) recipient shares).Valid (e.list ++ [recipient]) ∧
        e' = (e.reconfigured (e.list ++ [recipient]) recipient shares).emit
          (.recipientAdded recipient shares) := by
  simp [addRecipient, validateShares, setRecipientShares, requireAdmin_returns,
    validateRecipientSet_returns, Env.reconfigured, Nat.one_le_iff_ne_zero, and_assoc]

theorem removeRecipient_returns :
    (removeRecipient inv admin recipient).Returns e u e' ↔
      e.admin = some admin ∧ admin ∈ inv.auths ∧ recipient ∈ e.list ∧
        (e.reconfigured (e.list.erase recipient) recipient 0).Valid (e.list.erase recipient) ∧
        e' = (e.reconfigured (e.list.erase recipient) recipient 0).emit
          (.recipientRemoved recipient) := by
  simp [removeRecipient, requireAdmin_returns, validateRecipientSet_returns, Env.reconfigured,
    and_assoc]

theorem updateRecipientShares_returns :
    (updateRecipientShares inv admin recipient shares).Returns e u e' ↔
      e.admin = some admin ∧ admin ∈ inv.auths ∧ 1 ≤ shares ∧ shares ≤ maxSharesBps ∧
        recipient ∈ e.list ∧
        Env.Valid { e with recipientShares := e.recipientShares.insert recipient shares } e.list ∧
        e' = Env.emit { e with recipientShares := e.recipientShares.insert recipient shares }
          (.recipientSharesUpdated recipient (e.sharesOf recipient) shares) := by
  simp [updateRecipientShares, validateShares, setRecipientShares, requireAdmin_returns,
    validateRecipientSet_returns, Nat.one_le_iff_ne_zero, and_assoc]

theorem setPaused_returns {paused : Bool} :
    (setPaused inv admin paused).Returns e u e' ↔ e.admin = some admin ∧ admin ∈ inv.auths ∧
      e' = Env.emit { e with paused := some paused } (.paused paused) := by
  simp [setPaused, requireAdmin_returns, and_assoc]

theorem collect_returns {credited : Int} :
    (collect inv caller credited).Returns e u e' ↔
      credited ≤ 0 ∧ e' = e ∨ 0 < credited ∧ e.rewardToken.isSome = true ∧
        inv.permits caller e.self credited = true ∧
        ∃ balances, e.balances.move caller e.self credited = some balances ∧
          e' = { e with balances } := by
  -- Nothing is collected for nothing.
  by_cases something : 0 < credited
  · simp [collect, transferReward_returns, something, not_le.mpr something]
  · simp [collect, something, not_lt.mp something]

theorem distribute_returns {amount : Int} :
    (distribute inv caller amount).Returns e u e' ↔
      e.isPaused = false ∧ 0 < amount ∧ caller ∈ inv.auths ∧ e.list ≠ [] ∧
        ∃ total : Nat, e.addShares 0 e.list = some total ∧ total ≠ 0 ∧
          ∃ credited parts middle after,
            (creditAll amount total e.list 0 []).Returns e (credited, parts) middle ∧
            (collect inv caller credited).Returns middle () after ∧
            e' = after.emit (.distribution caller amount credited parts) := by
  simp [distribute, requireNotPaused, totalShares_returns, Unique.exists_iff, and_assoc]

/-- A distribution that returned credited every recipient and collected the sum. -/
theorem distribute_effect {amount : Int} (ran : (distribute inv caller amount).Returns e u e') :
    Effect e inv (.distribute caller amount) none e' := by
  obtain ⟨running, positive, auth, nonempty, total, counted, someShares, credited, parts, middle,
    after, loop, collected, rfl⟩ := distribute_returns.mp ran
  obtain ⟨sum, credits⟩ := creditAll_credits loop
  rw [Int.zero_add] at sum
  subst sum
  refine .distributed running positive auth nonempty counted someShares credits ?_
  -- The loop has touched neither the token nor the treasury's own address.
  rcases collect_returns.mp collected with nothing | ⟨-, -, -, balances, moved, rfl⟩
  · exact .inl nothing
  · rw [credits.setup.self, credits.setup.balances] at moved
    exact .inr ⟨balances, moved, rfl⟩

theorem perform_effect {call : Call} {value : Value}
    (ran : (perform inv call).Returns e value e') : Effect e inv call value e' := by
  cases call <;> obtain ⟨_, inner, rfl⟩ := EStateM.returns_map.mp ran
  case initializeTreasury =>
    simp [initializeTreasury] at inner
    obtain ⟨fresh, auth, rfl⟩ := inner
    exact .initialized fresh auth
  case addRecipient =>
    obtain ⟨known, auth, some, most, new, room, -, rfl⟩ := addRecipient_returns.mp inner
    exact .added known auth some most new room
  case removeRecipient =>
    obtain ⟨known, auth, listed, -, rfl⟩ := removeRecipient_returns.mp inner
    exact .removed known auth listed
  case updateRecipientShares =>
    obtain ⟨known, auth, some, most, listed, -, rfl⟩ := updateRecipientShares_returns.mp inner
    exact .updated known auth some most listed
  case pause =>
    obtain ⟨known, auth, rfl⟩ := setPaused_returns.mp inner
    exact .paused known auth
  case unpause =>
    obtain ⟨known, auth, rfl⟩ := setPaused_returns.mp inner
    exact .unpaused known auth
  case transferAdmin =>
    simp [transferAdmin, requireAdmin_returns] at inner
    obtain ⟨⟨known, auth⟩, consent, rfl⟩ := inner
    exact .handedOver known auth consent
  case upgrade =>
    simp [upgrade, requireAdmin_returns] at inner
    obtain ⟨⟨known, auth⟩, rfl⟩ := inner
    exact .upgraded known auth
  case distribute => exact distribute_effect inner
  case withdraw =>
    simp [withdraw, transferReward_returns] at inner
    obtain ⟨auth, positive, balances, ⟨-, -, moved⟩, rfl, rfl⟩ := inner
    exact .withdrawn auth positive moved

end Inversion

end KeeperNetwork.Treasury
