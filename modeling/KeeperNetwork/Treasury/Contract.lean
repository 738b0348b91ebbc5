import KeeperNetwork.Lib.Trace
import KeeperNetwork.Treasury.Types

/-! The treasury's entry points, and the runs they make up. -/

namespace KeeperNetwork.Treasury

open Soroban

/-- Reject a call while the treasury is paused. -/
def requireNotPaused : Contract Unit := do
  rejectIf ((← get).isPaused = true) .contractPaused

def requireAdmin (inv : Invocation) (caller : Address) : Contract Unit := do
  let admin ← okOr (← get).admin .notInitialized
  requireAuth inv.auths caller
  rejectIf (caller ≠ admin) .unauthorized

def setRecipientShares (recipient : Address) (sharesBps : Nat) : Contract Unit :=
  modify fun e => { e with recipientShares := e.recipientShares.insert recipient sharesBps }

/-- Reject shares that are out of bounds. -/
def validateShares (sharesBps : Nat) : Contract Unit :=
  rejectIf (sharesBps = 0 ∨ maxSharesBps < sharesBps) .invalidShares

def Env.addShares (e : Env) (total : Nat) : List Address → Option Nat
  | [] => some total
  | recipient :: rest => do
    let sum ← checkedAddNat u32Max total (e.sharesOf recipient)
    e.addShares sum rest

def totalShares (list : List Address) : Contract Nat := do
  okOr ((← get).addShares 0 list) .arithmeticOverflow

/-- Reject recipients one of whom has shares that are out of bounds. -/
def validateEach : List Address → Contract Unit
  | [] => pure ()
  | recipient :: rest => do
    validateShares ((← get).sharesOf recipient)
    validateEach rest

def validateRecipientSet (list : List Address) : Contract Unit := do
  validateEach list
  let total ← totalShares list
  rejectIf (maxTotalShares < total) .invalidShares

/-- Move reward tokens, if there is a token and it lets them go. -/
def transferReward (inv : Invocation) (src dst : Address) (amount : Int) : Contract Unit := do
  let _ ← okOr (← get).rewardToken .notInitialized
  let e ← get
  match (if inv.permits src dst amount then e.balances.move src dst amount else none) with
  | some balances => modify fun e => { e with balances }
  | none => throw .transferRefused

def creditRecipient (recipient : Address) (amount : Int) : Contract Unit := do
  let updated ← okOr (checkedAdd ((← get).balanceOf recipient) amount) .arithmeticOverflow
  modify fun e => { e with recipientBalance := e.recipientBalance.insert recipient updated }
  let received ← okOr (checkedAdd ((← get).receivedOf recipient) amount) .arithmeticOverflow
  modify fun e => { e with
    recipientReceivedTotal := e.recipientReceivedTotal.insert recipient received }

def accrueTotalDistributed (amount : Int) : Contract Int := do
  let updated ← okOr (checkedAdd (← get).distributed amount) .arithmeticOverflow
  modify fun e => { e with totalDistributed := some updated }
  return updated

def initializeTreasury (inv : Invocation) (admin rewardToken : Address) : Contract Unit := do
  rejectIf ((← get).admin.isSome = true) .alreadyInitialized
  requireAuth inv.auths admin
  modify fun e => { e with
    admin := some admin, rewardToken := some rewardToken, paused := some false }
  modify fun e => e.emit (.initialized admin rewardToken)

def addRecipient (inv : Invocation) (admin recipient : Address) (sharesBps : Nat) :
    Contract Unit := do
  requireAdmin inv admin
  validateShares sharesBps
  let list := (← get).list
  rejectIf (recipient ∈ list) .recipientAlreadyExists
  rejectIf (maxRecipients ≤ list.length) .tooManyRecipients
  modify fun e => { e with recipientList := some (list ++ [recipient]) }
  setRecipientShares recipient sharesBps
  validateRecipientSet (list ++ [recipient])
  modify fun e => e.emit (.recipientAdded recipient sharesBps)

def removeRecipient (inv : Invocation) (admin recipient : Address) : Contract Unit := do
  requireAdmin inv admin
  let list := (← get).list
  rejectIf (recipient ∉ list) .recipientNotFound
  modify fun e => { e with recipientList := some (list.erase recipient) }
  modify fun e => { e with recipientShares := e.recipientShares.insert recipient 0 }
  validateRecipientSet (list.erase recipient)
  modify fun e => e.emit (.recipientRemoved recipient)

def updateRecipientShares (inv : Invocation) (admin recipient : Address) (newSharesBps : Nat) :
    Contract Unit := do
  requireAdmin inv admin
  validateShares newSharesBps
  let list := (← get).list
  rejectIf (recipient ∉ list) .recipientNotFound
  let oldSharesBps := (← get).sharesOf recipient
  setRecipientShares recipient newSharesBps
  validateRecipientSet list
  modify fun e => e.emit (.recipientSharesUpdated recipient oldSharesBps newSharesBps)

def setPaused (inv : Invocation) (admin : Address) (paused : Bool) : Contract Unit := do
  requireAdmin inv admin
  modify fun e => { e with paused := some paused }
  modify fun e => e.emit (.paused paused)

/-- Stop distributions. -/
def pause (inv : Invocation) (admin : Address) : Contract Unit := setPaused inv admin true

/-- Allow distributions again. -/
def unpause (inv : Invocation) (admin : Address) : Contract Unit := setPaused inv admin false

/-- Hand the admin role over, with the consent of both. -/
def transferAdmin (inv : Invocation) (admin newAdmin : Address) : Contract Unit := do
  requireAdmin inv admin
  requireAuth inv.auths newAdmin
  modify fun e => { e with admin := some newAdmin }
  modify fun e => e.emit (.adminTransferred admin newAdmin)

/-- Replace the contract's code. -/
def upgrade (inv : Invocation) (admin : Address) (newWasmHash : Bytes) : Contract Unit := do
  requireAdmin inv admin
  modify fun e => e.emit (.upgraded admin newWasmHash)
  modify fun e => { e with wasm := some newWasmHash }

/--
Credit every recipient its part of an amount.

The sum credited so far and the breakdown are carried along, and an amount that rounds to nothing
is listed but not credited.
-/
def creditAll (amount total : Int) :
    List Address → Int → List (Address × Int) → Contract (Int × List (Address × Int))
  | [], credited, breakdown => pure (credited, breakdown)
  | recipient :: rest, credited, breakdown => do
    let shares := (← get).sharesOf recipient
    if shares = 0 then creditAll amount total rest credited breakdown
    else do
      let product ← okOr (checkedMul amount shares) .arithmeticOverflow
      let shareAmount := product.tdiv total
      if shareAmount = 0 then
        creditAll amount total rest credited (breakdown ++ [(recipient, shareAmount)])
      else do
        creditRecipient recipient shareAmount
        let sum ← okOr (checkedAdd credited shareAmount) .arithmeticOverflow
        let runningTotal ← accrueTotalDistributed shareAmount
        modify fun e => e.emit (.distributed recipient shareAmount runningTotal)
        creditAll amount total rest sum (breakdown ++ [(recipient, shareAmount)])

def collect (inv : Invocation) (caller : Address) (credited : Int) : Contract Unit := do
  let self := (← get).self
  if 0 < credited then transferReward inv caller self credited else pure ()

/-- Split an amount of the caller's tokens among the recipients. -/
def distribute (inv : Invocation) (caller : Address) (amount : Int) : Contract Unit := do
  requireNotPaused
  rejectIf (amount ≤ 0) .invalidAmount
  requireAuth inv.auths caller
  let list := (← get).list
  rejectIf (list = []) .noRecipients
  let total ← totalShares list
  rejectIf (total = 0) .noRecipients
  let (credited, breakdown) ← creditAll amount total list 0 []
  collect inv caller credited
  modify fun e => e.emit (.distribution caller amount credited breakdown)

/-- Pay out everything a recipient was credited. -/
def withdraw (inv : Invocation) (recipient : Address) : Contract Int := do
  requireAuth inv.auths recipient
  let balance := (← get).balanceOf recipient
  rejectIf (balance ≤ 0) .noRewardsAvailable
  modify fun e => { e with recipientBalance := e.recipientBalance.insert recipient 0 }
  let self := (← get).self
  transferReward inv self recipient balance
  modify fun e => e.emit (.withdrawn recipient balance)
  return balance

/-- The treasury's entry points with their arguments. -/
inductive Call where
  | initializeTreasury (admin rewardToken : Address)
  | addRecipient (admin recipient : Address) (sharesBps : Nat)
  | removeRecipient (admin recipient : Address)
  | updateRecipientShares (admin recipient : Address) (newSharesBps : Nat)
  | pause (admin : Address)
  | unpause (admin : Address)
  | transferAdmin (admin newAdmin : Address)
  | upgrade (admin : Address) (newWasmHash : Bytes)
  | distribute (caller : Address) (amount : Int)
  | withdraw (recipient : Address)
  deriving DecidableEq, Repr

/-- What a successful call returns: nothing, or the amount paid out. -/
abbrev Value := Option Int

def perform (inv : Invocation) : Call → Contract Value
  | .initializeTreasury admin rewardToken =>
    (fun _ => none) <$> initializeTreasury inv admin rewardToken
  | .addRecipient admin recipient sharesBps =>
    (fun _ => none) <$> addRecipient inv admin recipient sharesBps
  | .removeRecipient admin recipient => (fun _ => none) <$> removeRecipient inv admin recipient
  | .updateRecipientShares admin recipient newSharesBps =>
    (fun _ => none) <$> updateRecipientShares inv admin recipient newSharesBps
  | .pause admin => (fun _ => none) <$> pause inv admin
  | .unpause admin => (fun _ => none) <$> unpause inv admin
  | .transferAdmin admin newAdmin => (fun _ => none) <$> transferAdmin inv admin newAdmin
  | .upgrade admin newWasmHash => (fun _ => none) <$> upgrade inv admin newWasmHash
  | .distribute caller amount => (fun _ => none) <$> distribute inv caller amount
  | .withdraw recipient => some <$> withdraw inv recipient

/-- What can happen to the treasury. -/
inductive Label where
  | call (call : Call) (value : Value)
  | refused (call : Call)
  /-- The treasury was sent tokens directly, which may be none. -/
  | received (amount : Int)
  deriving DecidableEq, Repr

/--
One thing that happens to the treasury.

The treasury signs no call of itself, and its code is this code until it is upgraded.
-/
inductive Step (e : Env) : Label → Env → Prop
  | called {e' : Env} {inv : Invocation} {call : Call} {value : Value}
      (own : e.wasm = none) (apart : e.self ∉ inv.auths)
      (ran : (perform inv call).Returns e value e') : Step e (.call call value) e'
  | refused {inv : Invocation} {call : Call} {failure : Fault TreasuryError}
      (failed : (perform inv call).Fails e failure) : Step e (.refused call) e
  | received {balances : Balances} {amount : Int} (nonneg : 0 ≤ amount)
      (moved : balances.of e.self = e.balances.of e.self + amount) :
      Step e (.received amount) { e with balances }

/-- One turn of a scripted run. -/
inductive Turn where
  | call (inv : Invocation) (call : Call) (value : Value)
  | send (src : Address) (amount : Int)

def Turn.label : Turn → Label
  | .call _ entry value => .call entry value
  | .send _ amount => .received amount

def Turn.next (e : Env) : Turn → Env
  | .call inv entry _ => ((perform inv entry).commit e).2
  | .send src amount =>
    -- The token moves the amount, if the sender has it.
    { e with balances := (e.balances.move src e.self amount).getD e.balances }

/-- The turn is a call that returns the value, or a transfer from somebody else. -/
def Turn.Legal (e : Env) : Turn → Prop
  | .call inv entry value =>
    e.wasm = none ∧ e.self ∉ inv.auths ∧ (perform inv entry).answer e = some value
  | .send src amount => src ≠ e.self ∧ (e.balances.move src e.self amount).isSome = true

instance (e : Env) (turn : Turn) : Decidable (turn.Legal e) := by
  cases turn <;> unfold Turn.Legal <;> infer_instance

theorem Turn.Legal.step {e : Env} {turn : Turn} (legal : turn.Legal e) :
    Step e turn.label (turn.next e) := by
  cases turn with
  | call inv entry value => exact .called legal.1 legal.2.1 (EStateM.returns_of_answer legal.2.2)
  | send src amount =>
    obtain ⟨balances, done⟩ := Option.isSome_iff_exists.mp legal.2
    simp only [Turn.label, Turn.next, done, Option.getD_some]
    exact .received (Balances.move_eq_some done).1 (Balances.move_into done legal.1)

theorem scripted {e : Env} {script : List Turn}
    (playable : Trace.Playable Turn.next Turn.Legal e script) :
    Trace Step e (script.map Turn.label).reverse (script.foldl Turn.next e) :=
  Trace.of_playable (fun _ _ legal => legal.step) script playable

end KeeperNetwork.Treasury
