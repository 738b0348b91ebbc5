import Mathlib.Analysis.SpecialFunctions.Pow.Real
import Mathlib.Data.Nat.Nth
import Mathlib.Data.Nat.Prime.Defs

/-! The SHA-256 hash of a message of bits, as the standard FIPS 180-4 defines it. -/

namespace Fips180

abbrev Word := BitVec 32

def numberBits (width value : ℕ) : List Bool :=
  (List.range width).map fun i => value.testBit (width - 1 - i)

def bits (bytes : List UInt8) : List Bool := bytes.flatMap fun byte => numberBits 8 byte.toNat

def word (bits : List Bool) : Word :=
  BitVec.ofNat 32 (bits.foldl (fun value bit => 2 * value + bit.toNat) 0)

/-- Eight words: a hash value, or the working variables. -/
structure Words where
  a : Word
  b : Word
  c : Word
  d : Word
  e : Word
  f : Word
  g : Word
  h : Word

/-- The words one after the other. -/
def Words.list (v : Words) : List Word := [v.a, v.b, v.c, v.d, v.e, v.f, v.g, v.h]

/-- The first bits of the fractional part of a root of a prime, counted from zero. -/
noncomputable def rootWord (degree i : ℕ) : Word :=
  BitVec.ofNat 32 ⌊Int.fract ((Nat.nth Nat.Prime i : ℝ) ^ (1 / (degree : ℝ))) * 2 ^ 32⌋₊

/-- The initial hash value, from the square roots of the first eight primes. -/
noncomputable def initial : Words :=
  ⟨rootWord 2 0, rootWord 2 1, rootWord 2 2, rootWord 2 3, rootWord 2 4, rootWord 2 5,
    rootWord 2 6, rootWord 2 7⟩

theorem exists_zeros (l : ℕ) : ∃ k, (l + 1 + k) % 512 = 448 :=
  ⟨(959 - l % 512) % 512, by omega⟩

/-- The message, a one, the least number of zeros that leaves 64 bits of a block, and its length. -/
def pad (message : List Bool) : List Bool :=
  message ++ true :: (List.replicate (Nat.find (exists_zeros message.length)) false ++
    numberBits 64 message.length)

def ch (x y z : Word) : Word := (x &&& y) ^^^ (~~~x &&& z)

/-- The majority of three words. -/
def maj (x y z : Word) : Word := (x &&& y) ^^^ (x &&& z) ^^^ (y &&& z)

/-- The function of the schedule that reads the word fifteen places back. -/
def sigma0 (x : Word) : Word := x.rotateRight 7 ^^^ x.rotateRight 18 ^^^ x >>> 3

/-- The function of the schedule that reads the word two places back. -/
def sigma1 (x : Word) : Word := x.rotateRight 17 ^^^ x.rotateRight 19 ^^^ x >>> 10

def schedule (block : ℕ → Word) (t : ℕ) : Word :=
  if _ : t < 16 then block t
  else sigma1 (schedule block (t - 2)) + schedule block (t - 7) + sigma0 (schedule block (t - 15)) +
    schedule block (t - 16)

def round (v : Words) (k w : Word) : Words :=
  let sum1 := v.e.rotateRight 6 ^^^ v.e.rotateRight 11 ^^^ v.e.rotateRight 25
  let sum0 := v.a.rotateRight 2 ^^^ v.a.rotateRight 13 ^^^ v.a.rotateRight 22
  let t1 := v.h + sum1 + ch v.e v.f v.g + k + w
  let t2 := sum0 + maj v.a v.b v.c
  ⟨t1 + t2, v.a, v.b, v.c, v.d + t1, v.e, v.f, v.g⟩

/-- The hash value after a block, with constants from the cube roots of the first 64 primes. -/
noncomputable def compress (hash : Words) (block : ℕ → Word) : Words :=
  let v := (List.range 64).foldl (fun v t => round v (rootWord 3 t) (schedule block t)) hash
  ⟨hash.a + v.a, hash.b + v.b, hash.c + v.c, hash.d + v.d, hash.e + v.e, hash.f + v.f,
    hash.g + v.g, hash.h + v.h⟩

def blockWord (padded : List Bool) (i t : ℕ) : Word :=
  word ((padded.drop (512 * i + 32 * t)).take 32)

noncomputable def digest (message : List Bool) : List Bool :=
  let padded := pad message
  let final := (List.range (padded.length / 512)).foldl
    (fun hash i => compress hash (blockWord padded i)) initial
  final.list.flatMap fun w => numberBits 32 w.toNat

section Bits

variable {bytes : List UInt8}

@[simp] theorem numberBits_length (width value : ℕ) : (numberBits width value).length = width := by
  simp [numberBits]

/-- The bits of a number are those of its upper part before those of its lower part. -/
theorem numberBits_add (width lower value : ℕ) : numberBits (width + lower) value =
    numberBits width (value / 2 ^ lower) ++ numberBits lower value := by
  rw [numberBits, List.range_add, List.map_append, List.map_map]
  congr 1
  · apply List.map_congr_left
    intro i inside
    rw [List.mem_range] at inside
    rw [Nat.testBit_div_two_pow]
    congr 1
    omega
  · apply List.map_congr_left
    intro i inside
    show value.testBit (width + lower - 1 - (width + i)) = value.testBit (lower - 1 - i)
    congr 1
    omega

theorem numberBits_mod (width value : ℕ) :
    numberBits width (value % 2 ^ width) = numberBits width value := by
  apply List.map_congr_left
  intro i inside
  rw [List.mem_range] at inside
  simp only [Nat.testBit_mod_two_pow, Bool.and_eq_right_iff_imp, decide_eq_true_eq]
  omega

@[simp] theorem bits_nil : bits [] = [] := rfl

@[simp] theorem bits_append (bytes more : List UInt8) :
    bits (bytes ++ more) = bits bytes ++ bits more := by
  simp [bits]

theorem bits_cons (byte : UInt8) (bytes : List UInt8) :
    bits (byte :: bytes) = numberBits 8 byte.toNat ++ bits bytes := by
  simp [bits]

@[simp] theorem bits_length (bytes : List UInt8) : (bits bytes).length = 8 * bytes.length := by
  induction bytes with
  | nil => rfl
  | cons byte bytes ih =>
    rw [bits_cons, List.length_append, numberBits_length, ih, List.length_cons]
    omega

theorem bits_split (n : ℕ) (bytes : List UInt8) :
    (bits bytes).take (8 * n) = bits (bytes.take n) ∧
      (bits bytes).drop (8 * n) = bits (bytes.drop n) := by
  induction n generalizing bytes with
  | zero => simp
  | succ n ih =>
    cases bytes with
    | nil => simp
    | cons byte bytes =>
      have length : 8 * (n + 1) = (numberBits 8 byte.toNat).length + 8 * n := by
        rw [numberBits_length]
        omega
      rw [bits_cons, length, List.take_length_add_append, List.drop_length_add_append, (ih bytes).1,
        (ih bytes).2, List.take_succ_cons, List.drop_succ_cons, bits_cons]
      exact ⟨rfl, rfl⟩

theorem foldl_numberBits (width value before : ℕ) :
    (numberBits width value).foldl (fun value bit => 2 * value + bit.toNat) before =
      before * 2 ^ width + value % 2 ^ width := by
  induction width generalizing before with
  | zero => simp [numberBits, Nat.mod_one]
  | succ width ih =>
    -- The first bit doubles what is before it.
    have first : (numberBits 1 (value / 2 ^ width)).foldl
        (fun value bit => 2 * value + bit.toNat) before = 2 * before + value / 2 ^ width % 2 := by
      simpa [numberBits] using Nat.toNat_testBit (value / 2 ^ width) 0
    rw [pow_succ, Nat.mod_mul, Nat.add_comm width, numberBits_add, List.foldl_append, first, ih]
    ring

theorem word_bits (bytes : List UInt8) : word (bits bytes) =
    BitVec.ofNat 32 (bytes.foldl (fun value byte => value * 256 + byte.toNat) 0) := by
  -- Induction on the bytes, behind any number.
  have general (before : ℕ) : (bits bytes).foldl (fun value bit => 2 * value + bit.toNat) before =
      bytes.foldl (fun value byte => value * 256 + byte.toNat) before := by
    induction bytes generalizing before with
    | nil => rfl
    | cons byte bytes ih =>
      have small := byte.toNat_lt
      rw [bits_cons, List.foldl_append, foldl_numberBits, Nat.mod_eq_of_lt small, ih]
      rfl
  rw [word, general]

end Bits

/-- A number with the given powers around a prime is the fraction of its root. -/
theorem rootWord_eq {degree i p c x : ℕ} (prime : Nat.nth Nat.Prime i = p) (rooted : degree ≠ 0)
    (small : x < 2 ^ 32) (low : (c * 2 ^ 32 + x) ^ degree ≤ p * 2 ^ (32 * degree))
    (high : p * 2 ^ (32 * degree) < (c * 2 ^ 32 + x + 1) ^ degree) :
    rootWord degree i = BitVec.ofNat 32 x := by
  rw [rootWord, prime]
  set root : ℝ := (p : ℝ) ^ (1 / (degree : ℝ)) with named
  have scaled : (root * 2 ^ 32) ^ degree = p * 2 ^ (32 * degree) := by
    rw [mul_pow, ← pow_mul, named, one_div, Real.rpow_inv_natCast_pow (by positivity) rooted]
  -- The scaled root lies between the two numbers.
  have above : (c * 2 ^ 32 + x : ℝ) ≤ root * 2 ^ 32 := by
    apply le_of_pow_le_pow_left₀ rooted (by positivity)
    rw [scaled]
    exact_mod_cast low
  have below : root * 2 ^ 32 < c * 2 ^ 32 + x + 1 := by
    apply lt_of_pow_lt_pow_left₀ degree (by positivity)
    rw [scaled]
    exact_mod_cast high
  have bound : (x : ℝ) + 1 ≤ 2 ^ 32 := by exact_mod_cast small
  have whole : ⌊root⌋ = c := by
    rw [Int.floor_eq_iff, Int.cast_natCast]
    constructor <;> linarith
  have fraction : ⌊Int.fract root * 2 ^ 32⌋₊ = x := by
    rw [Int.fract, whole, Int.cast_natCast, Nat.floor_eq_iff (by linarith)]
    constructor <;> linarith
  rw [fraction]

end Fips180
