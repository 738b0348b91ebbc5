import KeeperNetwork.Indexer.Reorg
import KeeperNetwork.Lib.Fips180

/-! The hash that the service stores its secrets under, and that it is the one of the standard. -/

namespace KeeperNetwork.Indexer.Sha256

open Fips180 Soroban

/-- The round constants. -/
def k : List Word :=
  [0x428a2f98, 0x71374491, 0xb5c0fbcf, 0xe9b5dba5, 0x3956c25b, 0x59f111f1, 0x923f82a4, 0xab1c5ed5,
    0xd807aa98, 0x12835b01, 0x243185be, 0x550c7dc3, 0x72be5d74, 0x80deb1fe, 0x9bdc06a7, 0xc19bf174,
    0xe49b69c1, 0xefbe4786, 0x0fc19dc6, 0x240ca1cc, 0x2de92c6f, 0x4a7484aa, 0x5cb0a9dc, 0x76f988da,
    0x983e5152, 0xa831c66d, 0xb00327c8, 0xbf597fc7, 0xc6e00bf3, 0xd5a79147, 0x06ca6351, 0x14292967,
    0x27b70a85, 0x2e1b2138, 0x4d2c6dfc, 0x53380d13, 0x650a7354, 0x766a0abb, 0x81c2c92e, 0x92722c85,
    0xa2bfe8a1, 0xa81a664b, 0xc24b8b70, 0xc76c51a3, 0xd192e819, 0xd6990624, 0xf40e3585, 0x106aa070,
    0x19a4c116, 0x1e376c08, 0x2748774c, 0x34b0bcb5, 0x391c0cb3, 0x4ed8aa4a, 0x5b9cca4f, 0x682e6ff3,
    0x748f82ee, 0x78a5636f, 0x84c87814, 0x8cc70208, 0x90befffa, 0xa4506ceb, 0xbef9a3f7, 0xc67178f2]

/-- The hash value that the loop over the blocks starts with. -/
def start : Words :=
  ⟨0x6a09e667, 0xbb67ae85, 0x3c6ef372, 0xa54ff53a, 0x510e527f, 0x9b05688c, 0x1f83d9ab, 0x5be0cd19⟩

def pushZeros (msg : Bytes) : Bytes :=
  if (msg.length + 8) % 64 ≠ 0 then pushZeros (msg ++ [0]) else msg
termination_by (64 - (msg.length + 8) % 64) % 64
decreasing_by simp; omega

def padded (data : Bytes) : Bytes :=
  pushZeros (data ++ [0x80]) ++ bigEndian 8 (data.length * 8 % 2 ^ 64)

/-- The whole blocks of a message. -/
def chunksExact (size : Nat) (msg : Bytes) : List Bytes :=
  (List.range (msg.length / size)).map fun i => (msg.drop (size * i)).take size

def fromBeBytes (bytes : Bytes) : Word :=
  BitVec.ofNat 32 (bytes.foldl (fun value byte => value * 256 + byte.toNat) 0)

def nextWord (w : List Word) (i : Nat) : Word :=
  let x := w.getD (i - 15) 0
  let y := w.getD (i - 2) 0
  let s0 := x.rotateRight 7 ^^^ x.rotateRight 18 ^^^ x >>> 3
  let s1 := y.rotateRight 17 ^^^ y.rotateRight 19 ^^^ y >>> 10
  w.getD (i - 16) 0 + s0 + w.getD (i - 7) 0 + s1

/-- The schedule of a block: sixteen words of the block, then those that follow from them. -/
def wordsOf (chunk : Bytes) : List Word :=
  let w := (List.range' 0 16).foldl
    (fun w i => w.set i (fromBeBytes ((chunk.drop (4 * i)).take 4))) (List.replicate 64 0)
  (List.range' 16 48).foldl (fun w i => w.set i (nextWord w i)) w

/-- One round of the loop over the schedule. -/
def step (w : List Word) (v : Words) (i : Nat) : Words :=
  let s1 := v.e.rotateRight 6 ^^^ v.e.rotateRight 11 ^^^ v.e.rotateRight 25
  let ch := (v.e &&& v.f) ^^^ (~~~v.e &&& v.g)
  let temp1 := v.h + s1 + ch + k.getD i 0 + w.getD i 0
  let s0 := v.a.rotateRight 2 ^^^ v.a.rotateRight 13 ^^^ v.a.rotateRight 22
  let maj := (v.a &&& v.b) ^^^ (v.a &&& v.c) ^^^ (v.b &&& v.c)
  let temp2 := s0 + maj
  ⟨temp1 + temp2, v.a, v.b, v.c, v.d + temp1, v.e, v.f, v.g⟩

/-- The hash value after a block. -/
def addChunk (h : Words) (chunk : Bytes) : Words :=
  let v := (List.range 64).foldl (step (wordsOf chunk)) h
  ⟨h.a + v.a, h.b + v.b, h.c + v.c, h.d + v.d, h.e + v.e, h.f + v.f, h.g + v.g, h.h + v.h⟩

def sha256 (data : Bytes) : Bytes :=
  let h := (chunksExact 64 (padded data)).foldl addChunk start
  h.list.flatMap fun val => bigEndian 4 val.toNat

section Constants

private def primes : List ℕ :=
  [2, 3, 5, 7, 11, 13, 17, 19, 23, 29, 31, 37, 41, 43, 47, 53, 59, 61, 67, 71, 73, 79, 83, 89, 97,
    101, 103, 107, 109, 113, 127, 131, 137, 139, 149, 151, 157, 163, 167, 173, 179, 181, 191, 193,
    197, 199, 211, 223, 227, 229, 233, 239, 241, 251, 257, 263, 269, 271, 277, 281, 283, 293, 307,
    311]

theorem nth_prime : ∀ i < 64, Nat.nth Nat.Prime i = primes.getD i 0 := by
  -- Each number is prime, with as many primes below it as its place in the list.
  have counted : ∀ i < 64, Nat.Prime (primes.getD i 0) ∧
      Nat.count Nat.Prime (primes.getD i 0) = i := by
    decide +kernel
  intro i inside
  obtain ⟨prime, place⟩ := counted i inside
  rw [← Nat.nth_count prime, place]

theorem eq_rootWord {degree i : ℕ} (rooted : degree ≠ 0) (inside : i < 64) (x : Word)
    (around : ∃ c < 8, (c * 2 ^ 32 + x.toNat) ^ degree ≤ primes.getD i 0 * 2 ^ (32 * degree) ∧
      primes.getD i 0 * 2 ^ (32 * degree) < (c * 2 ^ 32 + x.toNat + 1) ^ degree) :
    x = rootWord degree i := by
  obtain ⟨c, -, low, high⟩ := around
  rw [rootWord_eq (nth_prime i inside) rooted x.isLt low high, BitVec.ofNat_toNat,
    BitVec.setWidth_eq]

theorem k_eq {i : Nat} (inside : i < 64) : k.getD i 0 = rootWord 3 i := by
  apply eq_rootWord (by decide) inside
  -- The cubes of the constant and of its successor stand around the prime.
  revert i
  decide +kernel

theorem start_eq : start = Fips180.initial := by
  have root : ∀ i < 8, start.list.getD i 0 = rootWord 2 i := by
    intro i inside
    apply eq_rootWord (by decide) (by omega)
    revert i
    decide +kernel
  rw [Fips180.initial, ← root 0 (by decide), ← root 1 (by decide), ← root 2 (by decide),
    ← root 3 (by decide), ← root 4 (by decide), ← root 5 (by decide), ← root 6 (by decide),
    ← root 7 (by decide)]
  rfl

end Constants

section Padding

variable {data other : Bytes}

theorem pushZeros_eq (msg : Bytes) :
    pushZeros msg = msg ++ List.replicate ((64 - (msg.length + 8) % 64) % 64) 0 := by
  induction msg using pushZeros.induct with
  | case1 msg short ih =>
    -- One more zero leaves one less to push.
    have less : (64 - (msg.length + 8) % 64) % 64 =
        (64 - ((msg ++ [0]).length + 8) % 64) % 64 + 1 := by
      rw [List.length_append, List.length_singleton]
      omega
    rw [pushZeros, if_pos short, ih, less, List.replicate_succ, List.append_assoc]
    rfl
  | case2 msg whole =>
    rw [pushZeros, if_neg whole]
    simp at whole
    simp [whole]

theorem padded_eq (data : Bytes) : padded data = data ++ (0x80 ::
    (List.replicate ((64 - (data.length + 9) % 64) % 64) 0 ++
      bigEndian 8 (data.length * 8 % 2 ^ 64))) := by
  rw [padded, pushZeros_eq]
  simp [Nat.add_assoc]

theorem padded_whole (data : Bytes) : (padded data).length % 64 = 0 := by
  rw [padded_eq]
  simp only [List.length_append, List.length_cons, List.length_replicate, bigEndian_length]
  omega

theorem padded_inj (small : data.length < 2 ^ 61) (small' : other.length < 2 ^ 61)
    (same : padded data = padded other) : data = other := by
  -- The last eight bytes tell the length, and the data is that long a beginning.
  have tail := List.append_inj_right' same (by simp)
  have length := mod_of_bigEndian tail
  rw [padded_eq, padded_eq] at same
  exact List.append_inj_left same (by omega)

theorem bits_bigEndian (width value : ℕ) :
    bits (bigEndian width value) = numberBits (8 * width) value := by
  induction width with
  | zero => rfl
  | succ width ih =>
    have power : (256 : ℕ) ^ width = 2 ^ (8 * width) := pow_mul 2 8 width ▸ rfl
    rw [bigEndian_succ, bits_cons, ih, Nat.mul_succ, Nat.add_comm, numberBits_add, power]
    congr 1
    simpa using numberBits_mod 8 (value / 2 ^ (8 * width))

theorem bits_zeros (count : ℕ) :
    bits (List.replicate count 0) = List.replicate (8 * count) false := by
  induction count with
  | zero => rfl
  | succ count ih =>
    rw [List.replicate_succ, bits_cons, ih, Nat.mul_succ, Nat.add_comm, List.replicate_add]
    rfl

theorem bits_padded (small : data.length < 2 ^ 61) : bits (padded data) = pad (bits data) := by
  -- The delimiter's seven zeros come before the bytes of zeros.
  have zeros : Nat.find (exists_zeros (bits data).length) =
      7 + 8 * ((64 - (data.length + 9) % 64) % 64) := by
    rw [Nat.find_eq_iff, bits_length]
    refine ⟨by omega, fun n less => by omega⟩
  have length : data.length * 8 % 2 ^ 64 = (bits data).length := by
    rw [bits_length]
    omega
  rw [padded_eq, bits_append, bits_cons, bits_append, bits_zeros, bits_bigEndian, pad, zeros,
    length, List.replicate_add, List.append_assoc]
  rfl

end Padding

section Blocks

variable {block : ℕ → Word} {chunk : Bytes}

/-- A loop that writes one place after the other leaves there what each pass computed. -/
theorem foldl_set {value : List Word → ℕ → Word} {f : ℕ → Word} {first count : ℕ}
    (fits : first + count ≤ 64)
    (next : ∀ w i, first ≤ i → i < first + count → (∀ t < i, w.getD t 0 = f t) → value w i = f i)
    (w : List Word) (length : w.length = 64) (before : ∀ t < first, w.getD t 0 = f t) :
    ((List.range' first count).foldl (fun w i => w.set i (value w i)) w).length = 64 ∧
      ∀ t < first + count,
        ((List.range' first count).foldl (fun w i => w.set i (value w i)) w).getD t 0 = f t := by
  induction count with
  | zero => exact ⟨length, before⟩
  | succ count ih =>
    obtain ⟨same, done⟩ := ih (by omega) fun w i low high => next w i low (by omega)
    rw [List.range'_concat, List.foldl_append]
    simp only [List.foldl_cons, List.foldl_nil, List.length_set, Nat.one_mul]
    refine ⟨same, fun t inside => ?_⟩
    rw [List.getD_eq_getElem?_getD, List.getElem?_set]
    by_cases here : first + count = t
    · subst here
      simpa [same, show first + count < 64 by omega] using
        next _ (first + count) (by omega) (by omega) done
    · rw [if_neg here, ← List.getD_eq_getElem?_getD]
      exact done t (by omega)

theorem nextWord_eq {w : List Word} {i : ℕ} (later : 16 ≤ i)
    (before : ∀ t < i, w.getD t 0 = schedule block t) : nextWord w i = schedule block i := by
  symm
  rw [schedule, dif_neg (by omega), sigma0, sigma1, nextWord, before (i - 15) (by omega),
    before (i - 2) (by omega), before (i - 16) (by omega), before (i - 7) (by omega)]
  ac_rfl

theorem wordsOf_eq (same : ∀ t < 16, fromBeBytes ((chunk.drop (4 * t)).take 4) = block t) :
    ∀ t < 64, (wordsOf chunk).getD t 0 = schedule block t := by
  -- The first loop writes the words of the block, the second one extends them.
  obtain ⟨length, first⟩ := @foldl_set (fun _ i => fromBeBytes ((chunk.drop (4 * i)).take 4))
    (schedule block) 0 16 (by decide) (fun w i _ inside _ => by
      rw [same i (by omega), schedule, dif_pos (by omega)]) (List.replicate 64 0) (by simp)
    (by simp)
  exact (@foldl_set nextWord (schedule block) 16 48 (by decide)
    (fun w i later _ before => nextWord_eq later before) _ length first).2

theorem addChunk_eq (same : ∀ t < 16, fromBeBytes ((chunk.drop (4 * t)).take 4) = block t)
    (h : Words) : addChunk h chunk = compress h block := by
  have rounds : (List.range 64).foldl (step (wordsOf chunk)) h = (List.range 64).foldl
      (fun v t => round v (rootWord 3 t) (schedule block t)) h := by
    apply List.foldl_ext
    intro v i member
    rw [List.mem_range] at member
    rw [step, k_eq member, wordsOf_eq same i member]
    rfl
  rw [addChunk, compress, rounds]

theorem blockWord_eq (msg : Bytes) (i : ℕ) {t : ℕ} (inside : t < 16) :
    fromBeBytes (((((msg.drop (64 * i)).take 64)).drop (4 * t)).take 4) =
      blockWord (bits msg) i t := by
  have place : 512 * i + 32 * t = 8 * (64 * i + 4 * t) := by omega
  rw [blockWord, place, (bits_split _ msg).2, (bits_split 4 _).1, word_bits, List.drop_take,
    List.take_take, List.drop_drop, min_eq_left (by omega)]
  rfl

theorem chunks_flatten (msg : Bytes) (count : ℕ) :
    ((List.range count).map fun i => (msg.drop (64 * i)).take 64).flatten =
      msg.take (64 * count) := by
  induction count with
  | zero => simp
  | succ count ih =>
    rw [List.range_succ, List.map_append, List.flatten_append, ih, Nat.mul_succ, List.take_add]
    simp

end Blocks

/-- The digest is the one of the standard, the padding ends with a whole number of blocks of which
none is dropped, and the padded message determines the data. -/
theorem sha256_standard (data : Bytes) (small : data.length < 2 ^ 61) :
    bits (sha256 data) = digest (bits data) ∧
    (padded data).length % 64 = 0 ∧ (chunksExact 64 (padded data)).flatten = padded data ∧
    ∀ other : Bytes, other.length < 2 ^ 61 → padded data = padded other → data = other := by
  have whole := padded_whole data
  refine ⟨?_, whole, ?_, fun other small' => padded_inj small small'⟩
  · -- The blocks of the message and those of its bits are folded alike.
    have blocks : (bits (padded data)).length / 512 = (padded data).length / 64 := by
      rw [bits_length]
      omega
    have folded : (chunksExact 64 (padded data)).foldl addChunk start =
        (List.range ((padded data).length / 64)).foldl
          (fun hash i => compress hash (blockWord (bits (padded data)) i)) Fips180.initial := by
      rw [chunksExact, List.foldl_map, start_eq]
      apply List.foldl_ext
      intro hash i _
      exact addChunk_eq (fun t inside => blockWord_eq (padded data) i inside) hash
    have written (words : List Word) : bits (words.flatMap fun val => bigEndian 4 val.toNat) =
        words.flatMap fun val => numberBits 32 val.toNat := by
      induction words with
      | nil => rfl
      | cons val words ih =>
        rw [List.flatMap_cons, List.flatMap_cons, bits_append, bits_bigEndian, ih]
    rw [sha256, digest, ← bits_padded small, blocks, folded, written]
  · rw [chunksExact, chunks_flatten]
    exact List.take_of_length_le (by omega)

/-- The three bytes of a text are hashed as the standard says. -/
theorem sha256_standard_abc :
    bits (sha256 [0x61, 0x62, 0x63]) = digest (bits [0x61, 0x62, 0x63]) :=
  (sha256_standard [0x61, 0x62, 0x63] (by decide)).1

end KeeperNetwork.Indexer.Sha256
