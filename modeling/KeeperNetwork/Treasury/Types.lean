import KeeperNetwork.Lib.FiniteMap
import KeeperNetwork.Soroban.Contract

/-! The treasury's constants, storage and what it reads from it. -/

namespace KeeperNetwork.Treasury

open Soroban

/-- The errors the treasury returns. -/
inductive TreasuryError where
  | alreadyInitialized
  | unauthorized
  | contractPaused
  | notInitialized
  | recipientNotFound
  | recipientAlreadyExists
  | invalidShares
  | noRecipients
  | invalidAmount
  | noRewardsAvailable
  | arithmeticOverflow
  | tooManyRecipients
  deriving DecidableEq, Repr

def maxRecipients : Nat := 50

/-- How many shares one recipient may have. -/
def maxSharesBps : Nat := 10000

def maxTotalShares : Nat := maxRecipients * maxSharesBps

/-- The events the treasury publishes. -/
inductive Event where
  | initialized (admin rewardToken : Address)
  | recipientAdded (recipient : Address) (sharesBps : Nat)
  | recipientRemoved (recipient : Address)
  | recipientSharesUpdated (recipient : Address) (oldSharesBps newSharesBps : Nat)
  | distributed (recipient : Address) (amount totalDistributed : Int)
  | distribution (caller : Address) (requested credited : Int) (breakdown : List (Address × Int))
  | withdrawn (recipient : Address) (amount : Int)
  | paused (paused : Bool)
  | adminTransferred (oldAdmin newAdmin : Address)
  | upgraded (admin : Address) (newWasmHash : Bytes)
  deriving DecidableEq, Repr

/-- The reward token's balances and the treasury's storage. -/
structure Env where
  self : Address
  balances : Balances
  admin : Option Address
  paused : Option Bool
  rewardToken : Option Address
  recipientList : Option (List Address)
  recipientShares : Finmap fun _ : Address => Nat
  recipientBalance : Finmap fun _ : Address => Int
  recipientReceivedTotal : Finmap fun _ : Address => Int
  totalDistributed : Option Int
  events : List Event
  /-- The code that replaced this contract, if it was ever upgraded. -/
  wasm : Option Bytes

/-- What the host and the token contribute to one call. -/
structure Invocation where
  auths : List Address
  /-- Whether the token lets an amount go from one address to another. -/
  permits : Address → Address → Int → Bool

abbrev Contract := Program TreasuryError Env

namespace Env

variable (e : Env)

def emit (event : Event) : Env := { e with events := e.events ++ [event] }

def isPaused : Bool := e.paused.getD false

def list : List Address := e.recipientList.getD []

def sharesOf (recipient : Address) : Nat := (e.recipientShares.lookup recipient).getD 0

def balanceOf (recipient : Address) : Int := (e.recipientBalance.lookup recipient).getD 0

def receivedOf (recipient : Address) : Int :=
  (e.recipientReceivedTotal.lookup recipient).getD 0

/-- What was ever credited to anybody. -/
def distributed : Int := e.totalDistributed.getD 0

end Env

def deployed (self : Address) (balances : Balances) : Env :=
  { self, balances
    admin := none
    paused := none
    rewardToken := none
    recipientList := none
    recipientShares := ∅
    recipientBalance := ∅
    recipientReceivedTotal := ∅
    totalDistributed := none
    events := []
    wasm := none }

end KeeperNetwork.Treasury
