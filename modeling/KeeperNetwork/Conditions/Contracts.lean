import KeeperNetwork.Soroban.Contract

/-! The condition contracts that come with the registry, and the oracles they ask. -/

namespace KeeperNetwork.Conditions

open Soroban

/-- The largest unsigned 128-bit value. -/
def u128Max : Nat := 2 ^ 128 - 1

/-- What an oracle quotes a price of. -/
inductive Asset where
  | stellar (contract : Address)
  | other (code : Symbol)
  deriving DecidableEq, Repr

/-- A price and when it was observed. -/
structure PriceData where
  price : Int
  timestamp : Nat
  deriving DecidableEq, Repr

/-- What the oracles answer at one moment, with nothing for a call that fails. -/
structure Oracles where
  decimals : Address → Option Nat
  lastprice : Address → Asset → Option (Option PriceData)
  lastSinglePrice : Address → Option (Int × Nat)

/-- A price with exactly 18 decimal places. -/
structure NormalizedPrice where
  value : Nat
  observedAt : Nat
  deriving DecidableEq, Repr

/-- A fresh and positive price, or nothing when anything about it fails. -/
def readNormalized (oracles : Oracles) (now : Nat) (oracle : Address) (asset : Asset)
    (maxAgeSeconds : Nat) : Option NormalizedPrice := do
  let decimals ← oracles.decimals oracle
  if 18 < decimals then none
  else do
    let data ← (oracles.lastprice oracle asset).join
    if data.price ≤ 0 then none
    else if now < data.timestamp ∨ maxAgeSeconds < now - data.timestamp then none
    else
      let value := data.price.toNat * 10 ^ (18 - decimals)
      if u128Max < value then none else some ⟨value, data.timestamp⟩

/-! The time window. -/

/-- The errors of the time window. -/
inductive WindowError where
  | alreadyInitialized
  | invalidWindow
  deriving DecidableEq, Repr

/-- The storage of a time window. -/
structure TimeWindow where
  start : Option Nat
  stop : Option Nat
  initialized : Option Bool
  deriving DecidableEq, Repr

namespace TimeWindow

def blank : TimeWindow := ⟨none, none, none⟩

def initializeWindow (start stop : Nat) : Program WindowError TimeWindow Unit := do
  rejectIf ((← get).initialized.getD false = true) .alreadyInitialized
  rejectIf (stop ≤ start) .invalidWindow
  set (TimeWindow.mk (some start) (some stop) (some true))

def check (window : TimeWindow) (now : Nat) : Bool :=
  if window.initialized.getD false = false then false
  else
    -- A bound that is missing closes the window.
    decide (window.start.getD u64Max ≤ now ∧ now < window.stop.getD 0)

end TimeWindow

/-! The price threshold. -/

/-- The storage of a price threshold. -/
structure PriceThreshold where
  oracle : Option Address
  threshold : Option Int
  /-- Whether the price has to be above the threshold, or below it. -/
  direction : Option Bool
  deriving DecidableEq, Repr

namespace PriceThreshold

def blank : PriceThreshold := ⟨none, none, none⟩

/-- Configure the threshold, however often and whoever asks. -/
def initializeThreshold (oracle : Address) (threshold : Int) (direction : Bool) :
    Program Empty PriceThreshold Unit :=
  set (PriceThreshold.mk (some oracle) (some threshold) (some direction))

/-- Whether the price has crossed the threshold, or nothing when the contract panics. -/
def check (condition : PriceThreshold) (oracles : Oracles) : Option Bool := do
  let oracle ← condition.oracle
  let threshold ← condition.threshold
  let direction ← condition.direction
  let (price, _) ← oracles.lastSinglePrice oracle
  return if direction then decide (price > threshold) else decide (price < threshold)

end PriceThreshold

/-! The oracle deviation. -/

/-- The errors of the oracle deviation. -/
inductive DeviationError where
  | alreadyInitialized
  | invalidBasisPoints
  | invalidMaxAge
  | priceUnavailable
  | notInitialized
  deriving DecidableEq, Repr

/-- The shortest age a price may be asked to have. -/
def minMaxAgeSeconds : Nat := 1

/-- The longest age a price may be asked to have. -/
def maxMaxAgeSeconds : Nat := 86400

/-- The basis points of the whole. -/
def bpsScale : Nat := 10000

/-- What a deviation is measured against. -/
structure DeviationConfig where
  oracle : Address
  asset : Asset
  maxAgeSeconds : Nat
  basisPoints : Nat
  referencePrice : Nat
  deriving DecidableEq, Repr

/-- The storage of an oracle deviation. -/
structure OracleDeviation where
  stored : Option DeviationConfig
  deriving DecidableEq, Repr

/-- Whether a price has moved by some basis points of a reference, without any rounding. -/
def deviationMet (reference current basisPoints : Nat) : Bool :=
  let difference := if reference ≤ current then current - reference else reference - current
  decide (reference * basisPoints ≤ difference * bpsScale)

namespace OracleDeviation

def blank : OracleDeviation := ⟨none⟩

/-- Configure the deviation and capture its reference price, once. -/
def initializeDeviation (oracles : Oracles) (now : Nat) (oracle : Address) (asset : Asset)
    (maxAgeSeconds basisPoints : Nat) : Program DeviationError OracleDeviation Unit := do
  rejectIf ((← get).stored.isSome = true) .alreadyInitialized
  rejectIf (bpsScale < basisPoints) .invalidBasisPoints
  rejectIf (¬ (minMaxAgeSeconds ≤ maxAgeSeconds ∧ maxAgeSeconds ≤ maxMaxAgeSeconds)) .invalidMaxAge
  let reference ← okOr (readNormalized oracles now oracle asset maxAgeSeconds) .priceUnavailable
  set (OracleDeviation.mk (some ⟨oracle, asset, maxAgeSeconds, basisPoints, reference.value⟩))

/-- Whether the price has moved far enough, which an unreadable price has not. -/
def isMet (condition : OracleDeviation) (oracles : Oracles) (now : Nat) : Bool :=
  match condition.stored with
  | none => false
  | some config =>
    match readNormalized oracles now config.oracle config.asset config.maxAgeSeconds with
    | none => false
    | some current => deviationMet config.referencePrice current.value config.basisPoints

def config (condition : OracleDeviation) : Except DeviationError DeviationConfig :=
  match condition.stored with
  | some config => .ok config
  | none => .error .notInitialized

end OracleDeviation

/-! One contract of any kind, as others see it. -/

/-- A condition contract, of the kind its code makes it. -/
inductive Instance where
  | timeWindow (window : TimeWindow)
  | priceThreshold (condition : PriceThreshold)
  | oracleDeviation (condition : OracleDeviation)
  deriving DecidableEq, Repr

/-- The entry points that others may ask a condition contract for, by name and arguments. -/
inductive Question where
  /-- The function `is_met` with the id of a task, which the registry asks for. -/
  | isMet (taskId : Nat)
  | check (taskId : Nat)
  | checkAlone
  deriving DecidableEq, Repr

/-- The entry points that configure a condition contract, with their arguments. -/
inductive Configuration where
  | window (start stop : Nat)
  | threshold (oracle : Address) (threshold : Int) (direction : Bool)
  | deviation (oracle : Address) (asset : Asset) (maxAgeSeconds basisPoints : Nat)
  deriving DecidableEq, Repr

namespace Instance

/-- A contract's answer, or nothing when it has no such entry point or panics. -/
def answer (contract : Instance) (oracles : Oracles) (now : Nat) : Question → Option Bool
  | .isMet _ =>
    match contract with
    | .oracleDeviation condition => some (condition.isMet oracles now)
    | .timeWindow _ | .priceThreshold _ => none
  | .check _ =>
    match contract with
    | .timeWindow window => some (window.check now)
    | .priceThreshold _ | .oracleDeviation _ => none
  | .checkAlone =>
    match contract with
    | .priceThreshold condition => condition.check oracles
    | .timeWindow _ | .oracleDeviation _ => none

/-- The contract after somebody called the entry point that configures it. -/
def configure (contract : Instance) (oracles : Oracles) (now : Nat) :
    Configuration → Instance
  | .window start stop =>
    match contract with
    | .timeWindow window => .timeWindow ((TimeWindow.initializeWindow start stop).commit window).2
    -- The arguments do not fit the entry point of another contract.
    | .priceThreshold _ | .oracleDeviation _ => contract
  | .threshold oracle threshold direction =>
    match contract with
    | .priceThreshold condition =>
      .priceThreshold
        ((PriceThreshold.initializeThreshold oracle threshold direction).commit condition).2
    | .timeWindow _ | .oracleDeviation _ => contract
  | .deviation oracle asset maxAgeSeconds basisPoints =>
    match contract with
    | .oracleDeviation condition =>
      .oracleDeviation ((OracleDeviation.initializeDeviation oracles now oracle asset
        maxAgeSeconds basisPoints).commit condition).2
    | .timeWindow _ | .priceThreshold _ => contract

/-- The contract was deployed and not configured yet. -/
def Blank (contract : Instance) : Prop :=
  contract = .timeWindow .blank ∨ contract = .priceThreshold .blank ∨
    contract = .oracleDeviation .blank

/-- The contract has been configured. -/
def Initialized : Instance → Prop
  | .timeWindow window => window.initialized.getD false = true
  | .priceThreshold condition =>
    condition.oracle.isSome ∧ condition.threshold.isSome ∧ condition.direction.isSome
  | .oracleDeviation condition => condition.stored.isSome

end Instance

end KeeperNetwork.Conditions
