import KeeperNetwork.Conditions.Gate
import Mathlib.Tactic.Ring

/-! The oracle deviation in the integers of the host, and the exact comparison it makes. -/

namespace KeeperNetwork.Conditions

open Soroban

/-- The largest unsigned 256-bit value. -/
def u256Max : Nat := 2 ^ 256 - 1

/-- Unsigned subtraction that reports underflow. -/
def checkedSubNat (left right : Nat) : Option Nat :=
  if right ≤ left then some (left - right) else none

/-- Unsigned multiplication below a limit that reports overflow. -/
def checkedMulNat (limit left right : Nat) : Option Nat :=
  if left * right ≤ limit then some (left * right) else none

def checkedPow (limit base exponent : Nat) : Option Nat :=
  if base ^ exponent ≤ limit then some (base ^ exponent) else none

namespace Machine

/-- A fresh and positive price, with every operation on machine integers checked. -/
def readNormalized (oracles : Oracles) (now : Nat) (oracle : Address) (asset : Asset)
    (maxAgeSeconds : Nat) : Option NormalizedPrice := do
  let decimals ← oracles.decimals oracle
  if 18 < decimals then none
  else do
    let data ← (oracles.lastprice oracle asset).join
    if data.price ≤ 0 then none
    else if now < data.timestamp then none
    else do
      let age ← checkedSubNat now data.timestamp
      if maxAgeSeconds < age then none
      else do
        let places ← checkedSubNat 18 decimals
        let multiplier ← checkedPow u128Max 10 places
        -- A positive signed price keeps its value as an unsigned one.
        let value ← checkedMulNat u128Max data.price.toNat multiplier
        some ⟨value, data.timestamp⟩

/-- Whether a price has moved far enough, or nothing when a product of the host overflows. -/
def deviationMet (reference current basisPoints : Nat) : Option Bool :=
  let difference := if reference ≤ current then checkedSubNat current reference
    else checkedSubNat reference current
  match difference with
  | none => some false
  | some difference => do
    let moved ← checkedMulNat u256Max difference bpsScale
    let required ← checkedMulNat u256Max reference basisPoints
    some (decide (required ≤ moved))

/-- The answer of the condition, or nothing when it panics. -/
def isMet (condition : OracleDeviation) (oracles : Oracles) (now : Nat) : Option Bool :=
  match condition.stored with
  | none => some false
  | some config =>
    match readNormalized oracles now config.oracle config.asset config.maxAgeSeconds with
    | none => some false
    | some current => deviationMet config.referencePrice current.value config.basisPoints

end Machine

/-- A configuration whose numbers the host can multiply. -/
structure DeviationConfig.Sound (config : DeviationConfig) : Prop where
  reference : config.referencePrice ≤ u128Max
  share : config.basisPoints ≤ bpsScale

/-- The oracle's answer is usable and away from the reference by the configured share of it. -/
def Deviates (config : DeviationConfig) (oracles : Oracles) (now : Nat) : Prop :=
  ∃ decimals data, oracles.decimals config.oracle = some decimals ∧
    oracles.lastprice config.oracle config.asset = some (some data) ∧ decimals ≤ 18 ∧
    0 < data.price ∧ data.timestamp ≤ now ∧ now - data.timestamp ≤ config.maxAgeSeconds ∧
    data.price * 10 ^ (18 - decimals) ≤ u128Max ∧
    (config.referencePrice * config.basisPoints : Int) ≤
      |data.price * 10 ^ (18 - decimals) - config.referencePrice| * 10000

variable {condition : OracleDeviation}

section Refinement

variable {oracles : Oracles} {now : Nat}

theorem Machine.readNormalized_eq (oracle : Address) (asset : Asset) (maxAgeSeconds : Nat) :
    Machine.readNormalized oracles now oracle asset maxAgeSeconds =
      Conditions.readNormalized oracles now oracle asset maxAgeSeconds := by
  refine Option.bind_congr fun decimals _ => ?_
  by_cases wide : 18 < decimals
  · rw [if_pos wide, if_pos wide]
  rw [if_neg wide, if_neg wide]
  refine Option.bind_congr fun data _ => ?_
  by_cases worthless : data.price ≤ 0
  · rw [if_pos worthless, if_pos worthless]
  rw [if_neg worthless, if_neg worthless]
  by_cases future : now < data.timestamp
  · rw [if_pos future, if_pos (.inl future)]
  -- The price is not of the future, so its age is a difference that exists.
  have age : checkedSubNat now data.timestamp = some (now - data.timestamp) :=
    if_pos (Nat.not_lt.mp future)
  have places : checkedSubNat 18 decimals = some (18 - decimals) := if_pos (Nat.not_lt.mp wide)
  have power : checkedPow u128Max 10 (18 - decimals) = some (10 ^ (18 - decimals)) := by
    refine if_pos (Nat.le_trans (Nat.pow_le_pow_right (by decide) (Nat.sub_le 18 decimals)) ?_)
    decide
  simp only [future, age, places, power, if_false, false_or, Option.bind_eq_bind,
    Option.bind_some]
  by_cases stale : maxAgeSeconds < now - data.timestamp
  · rw [if_pos stale, if_pos stale]
  rw [if_neg stale, if_neg stale, checkedMulNat]
  by_cases fits : data.price.toNat * 10 ^ (18 - decimals) ≤ u128Max
  · rw [if_pos fits, if_neg (Nat.not_lt.mpr fits)]
    rfl
  · rw [if_neg fits, if_pos (Nat.not_le.mp fits)]
    rfl

theorem Machine.deviationMet_eq {reference current basisPoints : Nat}
    (first : reference ≤ u128Max) (second : current ≤ u128Max) (share : basisPoints ≤ bpsScale) :
    Machine.deviationMet reference current basisPoints =
      some (Conditions.deviationMet reference current basisPoints) := by
  -- A 128-bit number times ten thousand has far fewer than 256 bits.
  have product {value bps : Nat} (small : value ≤ u128Max) (within : bps ≤ bpsScale) :
      checkedMulNat u256Max value bps = some (value * bps) := by
    refine if_pos (Nat.le_trans (Nat.mul_le_mul small within) ?_)
    decide
  have difference : (if reference ≤ current then checkedSubNat current reference
      else checkedSubNat reference current) =
      some (if reference ≤ current then current - reference else reference - current) := by
    unfold checkedSubNat
    split
    · rfl
    · rw [if_pos (by omega)]
  have small : (if reference ≤ current then current - reference else reference - current) ≤
      u128Max := by split <;> omega
  simp only [Machine.deviationMet, difference, product small (Nat.le_refl bpsScale),
    product first share, Option.bind_eq_bind, Option.bind_some]
  rfl

theorem Machine.isMet_eq (sound : ∀ config, condition.stored = some config → config.Sound) :
    Machine.isMet condition oracles now = some (condition.isMet oracles now) := by
  unfold Machine.isMet OracleDeviation.isMet
  cases stored : condition.stored with
  | none => rfl
  | some config =>
    simp only [Machine.readNormalized_eq]
    cases read : Conditions.readNormalized oracles now config.oracle config.asset
        config.maxAgeSeconds with
    | none => rfl
    | some current =>
      -- A price that was read fits, as the reference did when it was captured.
      obtain ⟨_, _, -, -, -, -, -, -, fits, rfl⟩ := readNormalized_eq_some.mp read
      obtain ⟨reference, share⟩ := sound config stored
      exact Machine.deviationMet_eq reference fits share

variable {price : Int}

theorem unsigned_scaled (positive : 0 < price) (places : Nat) :
    ((price.toNat * 10 ^ places : Nat) : Int) = price * 10 ^ places := by
  rw [Nat.cast_mul, Nat.cast_pow, Int.toNat_of_nonneg positive.le, Nat.cast_ofNat]

theorem isMet_iff_deviates {config : DeviationConfig} (stored : condition.stored = some config) :
    condition.isMet oracles now = true ↔ Deviates config oracles now := by
  -- The contract compares natural numbers, the specification integers.
  have compare {price : Int} (positive : 0 < price) (places : Nat) :
      Conditions.deviationMet config.referencePrice (price.toNat * 10 ^ places)
        config.basisPoints = true ↔ (config.referencePrice * config.basisPoints : Int) ≤
          |price * 10 ^ places - config.referencePrice| * 10000 := by
    rw [Conditions.deviationMet, decide_eq_true_iff, ← unsigned_scaled positive, ← difference_eq]
    norm_cast
  simp only [OracleDeviation.isMet, stored]
  constructor
  · intro met
    split at met
    · cases met
    · next current read =>
      obtain ⟨decimals, data, known, quoted, narrow, positive, past, fresh, fits, rfl⟩ :=
        readNormalized_eq_some.mp read
      refine ⟨decimals, data, known, quoted, narrow, positive, past, fresh, ?_,
        (compare positive _).mp met⟩
      rw [← unsigned_scaled positive]
      exact Int.ofNat_le.mpr fits
  · rintro ⟨decimals, data, known, quoted, narrow, positive, past, fresh, fits, moved⟩
    rw [← unsigned_scaled positive] at fits
    have read := readNormalized_eq_some.mpr
      ⟨decimals, data, known, quoted, narrow, positive, past, fresh, Int.ofNat_le.mp fits, rfl⟩
    rw [read]
    exact (compare positive _).mpr moved

theorem normalized_eq {other : Int} {decimals places : Nat} (narrow : decimals ≤ 18)
    (short : places ≤ 18) (same : price * 10 ^ places = other * 10 ^ decimals) :
    price * 10 ^ (18 - decimals) = other * 10 ^ (18 - places) := by
  -- Multiplied by both denominators the two sides are the same price times ten to the 18.
  have scale : (10 : Int) ^ (decimals + places) ≠ 0 := pow_ne_zero _ (by decide)
  apply mul_right_cancel₀ scale
  calc price * 10 ^ (18 - decimals) * 10 ^ (decimals + places)
      = price * 10 ^ places * (10 ^ (18 - decimals) * 10 ^ decimals) := by ring
    _ = other * 10 ^ decimals * (10 ^ (18 - places) * 10 ^ places) := by
        rw [same, ← pow_add, ← pow_add, Nat.sub_add_cancel narrow, Nat.sub_add_cancel short]
    _ = other * 10 ^ (18 - places) * 10 ^ (decimals + places) := by ring

theorem positive_iff {other : Int} {decimals places : Nat}
    (same : price * 10 ^ places = other * 10 ^ decimals) : 0 < price ↔ 0 < other := by
  have first : (0 : Int) < 10 ^ places := pow_pos (by decide) _
  have second : (0 : Int) < 10 ^ decimals := pow_pos (by decide) _
  rw [← mul_pos_iff_of_pos_right first, same, mul_pos_iff_of_pos_right second]

theorem readNormalized_rescaled {oracles oracles' : Oracles} {now : Nat} {oracle : Address}
    {asset : Asset} {maxAgeSeconds decimals decimals' timestamp : Nat} {price' : Int}
    (known : oracles.decimals oracle = some decimals)
    (known' : oracles'.decimals oracle = some decimals')
    (quoted : oracles.lastprice oracle asset = some (some ⟨price, timestamp⟩))
    (quoted' : oracles'.lastprice oracle asset = some (some ⟨price', timestamp⟩))
    (narrow : decimals ≤ 18) (narrow' : decimals' ≤ 18)
    (same : price * 10 ^ decimals' = price' * 10 ^ decimals) :
    Conditions.readNormalized oracles now oracle asset maxAgeSeconds =
      Conditions.readNormalized oracles' now oracle asset maxAgeSeconds := by
  simp only [Conditions.readNormalized, known, known', quoted, quoted', Option.bind_eq_bind,
    Option.bind_some, Option.join_some, if_neg (Nat.not_lt.mpr narrow),
    if_neg (Nat.not_lt.mpr narrow')]
  by_cases worthless : price ≤ 0
  · have worthless' : price' ≤ 0 := not_lt.mp fun positive =>
      not_lt.mpr worthless ((positive_iff same).mpr positive)
    rw [if_pos worthless, if_pos worthless']
  · have positive : 0 < price' := (positive_iff same).mp (not_le.mp worthless)
    have value : price.toNat * 10 ^ (18 - decimals) = price'.toNat * 10 ^ (18 - decimals') := by
      apply Int.ofNat_inj.mp
      rw [unsigned_scaled (not_le.mp worthless), unsigned_scaled positive,
        normalized_eq narrow narrow' same]
    rw [if_neg worthless, if_neg (not_le.mpr positive), value]

end Refinement

theorem initializeDeviation_stored {oracles : Oracles} {now maxAgeSeconds basisPoints : Nat}
    {oracle : Address} {asset : Asset} {before : OracleDeviation} {u : Unit}
    (ran : (OracleDeviation.initializeDeviation oracles now oracle asset maxAgeSeconds
      basisPoints).Returns before u condition) :
    ∃ reference, Machine.readNormalized oracles now oracle asset maxAgeSeconds = some reference ∧
      condition.stored = some ⟨oracle, asset, maxAgeSeconds, basisPoints, reference.value⟩ ∧
      (⟨oracle, asset, maxAgeSeconds, basisPoints, reference.value⟩ : DeviationConfig).Sound := by
  simp [OracleDeviation.initializeDeviation] at ran
  obtain ⟨-, share, -, reference, read, rfl⟩ := ran
  obtain ⟨_, _, -, -, -, -, -, -, fits, rfl⟩ := readNormalized_eq_some.mp read
  exact ⟨_, (Machine.readNormalized_eq oracle asset maxAgeSeconds).trans read, rfl, fits, share⟩

/-- The contract after a series of calls, each with what the oracles answer and the time. -/
def Instance.configureAll (contract : Instance) (calls : List (Oracles × Nat × Configuration)) :
    Instance :=
  calls.foldl (fun contract call => contract.configure call.1 call.2.1 call.2.2) contract

theorem configured_stays (done : condition.stored.isSome = true)
    (calls : List (Oracles × Nat × Configuration)) :
    Instance.configureAll (.oracleDeviation condition) calls = .oracleDeviation condition := by
  -- Each call on its own changes nothing, so the induction stays at the same contract.
  induction calls with
  | nil => rfl
  | cons call rest ih =>
    have kept : Instance.configure (.oracleDeviation condition) call.1 call.2.1 call.2.2 =
        .oracleDeviation condition := by
      refine (@configure_eq_iff _ _ (.oracleDeviation condition) done _).mpr ?_
      cases call.2.2 with
      | threshold => intro _ other; cases other
      | window | deviation => trivial
    unfold Instance.configureAll at ih ⊢
    rw [List.foldl_cons, kept, ih]

def quoting (decimals : Nat) (price : Int) (timestamp : Nat) : Oracles where
  decimals _ := some decimals
  lastprice _ _ := some (some ⟨price, timestamp⟩)
  lastSinglePrice _ := none

/--
The oracle deviation is exact.

After a successful initialization the condition never panics, and is met exactly when the oracle
answers with a usable price away from the captured reference by the configured share, over the
integers. It does not depend on the decimal places the oracle quotes the price with, and no later
call changes the configuration or the reference.
-/
theorem deviation_exact {first : Oracles} {moment maxAgeSeconds basisPoints : Nat}
    {oracle : Address} {asset : Asset} {before condition : OracleDeviation}
    (ran : (OracleDeviation.initializeDeviation first moment oracle asset maxAgeSeconds
      basisPoints).Returns before () condition) :
    ∃ reference config,
      Machine.readNormalized first moment oracle asset maxAgeSeconds = some reference ∧
      config = ⟨oracle, asset, maxAgeSeconds, basisPoints, reference.value⟩ ∧
      condition.stored = some config ∧
      (∀ calls, Instance.configureAll (.oracleDeviation condition) calls =
        .oracleDeviation condition) ∧
      (∀ oracles now,
        (Deviates config oracles now → Machine.isMet condition oracles now = some true) ∧
        (¬ Deviates config oracles now → Machine.isMet condition oracles now = some false)) ∧
      (∀ oracles oracles' now decimals decimals' price price' timestamp,
        oracles.decimals oracle = some decimals → oracles'.decimals oracle = some decimals' →
        oracles.lastprice oracle asset = some (some ⟨price, timestamp⟩) →
        oracles'.lastprice oracle asset = some (some ⟨price', timestamp⟩) →
        decimals ≤ 18 → decimals' ≤ 18 → price * 10 ^ decimals' = price' * 10 ^ decimals →
        Machine.isMet condition oracles now = Machine.isMet condition oracles' now) := by
  obtain ⟨reference, read, stored, sound⟩ := initializeDeviation_stored ran
  refine ⟨reference, _, read, rfl, stored, ?_, ?_, ?_⟩
  · exact configured_stays (by rw [stored]; rfl)
  · intro oracles now
    have answer : Machine.isMet condition oracles now = some (condition.isMet oracles now) :=
      Machine.isMet_eq fun config found => by
        obtain rfl := Option.some.inj (stored.symm.trans found)
        exact sound
    have exactly := @isMet_iff_deviates _ oracles now _ stored
    rw [answer]
    constructor
    · intro deviates
      rw [exactly.mpr deviates]
    · intro steady
      rw [Bool.eq_false_iff.mpr (mt exactly.mp steady)]
  · intro oracles oracles' now decimals decimals' price price' timestamp known known' quoted quoted'
      narrow narrow' same
    -- The condition reads nothing but the normalized price and its age.
    have reads : Machine.readNormalized oracles now oracle asset maxAgeSeconds =
        Machine.readNormalized oracles' now oracle asset maxAgeSeconds := by
      rw [Machine.readNormalized_eq, Machine.readNormalized_eq]
      exact readNormalized_rescaled known known' quoted quoted' narrow narrow' same
    simp only [Machine.isMet, stored, reads]

/-- A rise from 1 to 1.1 is a deviation by a tenth, whether it is quoted in tenths or not. -/
theorem deviation_exact_tenth :
    ∃ condition : OracleDeviation,
      (OracleDeviation.initializeDeviation (quoting 7 10000000 3) 5 ⟨1⟩ (.other "XLM") 60
        1000).Returns .blank () condition ∧
      Machine.isMet condition (quoting 7 11000000 70) 90 = some true ∧
      Machine.isMet condition (quoting 1 11 70) 90 = some true := by
  have ran : (OracleDeviation.initializeDeviation (quoting 7 10000000 3) 5 ⟨1⟩ (.other "XLM") 60
      1000).Returns .blank () ⟨some ⟨⟨1⟩, .other "XLM", 60, 1000, 10 ^ 18⟩⟩ := rfl
  obtain ⟨reference, config, read, rfl, -, -, exactly, rescaled⟩ := deviation_exact ran
  obtain rfl := Option.some.inj read
  have met := (exactly (quoting 7 11000000 70) 90).1
    ⟨7, ⟨11000000, 70⟩, rfl, rfl, by decide, by decide, by decide, by decide, by decide, by decide⟩
  refine ⟨_, ran, met, ?_⟩
  exact rescaled (quoting 1 11 70) (quoting 7 11000000 70) 90 1 7 11 11000000 70 rfl rfl rfl rfl
    (by decide) (by decide) (by decide)

end KeeperNetwork.Conditions
