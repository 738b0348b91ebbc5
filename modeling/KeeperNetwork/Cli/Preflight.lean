import KeeperNetwork.Cli.BatchRegister
import KeeperNetwork.Proofs.BatchRefinement

/-! Which batches the command line lets pass, and which of them the registry accepts. -/

namespace KeeperNetwork.Cli

open Soroban

/-- The numbers of the entry are in the ranges of the registry's types. -/
structure BatchTaskEntry.Fits (entry : BatchTaskEntry) : Prop where
  reward : i128Min ≤ entry.reward ∧ entry.reward ≤ i128Max
  deadline : 0 ≤ entry.deadline ∧ entry.deadline ≤ u64Max
  ttlLedgers : 0 ≤ entry.ttlLedgers ∧ entry.ttlLedgers ≤ u32Max
  lockLedgers : 0 ≤ entry.lockLedgers ∧ entry.lockLedgers ≤ u32Max

/-- The registry can be given the entry, and its own validation lets it pass. -/
def Accepts (e : Env) (entry : BatchTaskEntry) : Prop :=
  entry.Fits ∧ (validateTaskParams entry.params.reward (minRewardFloor e)
    entry.params.deadline entry.params.calldata.length entry.params.ttlLedgers
    entry.params.lockLedgers).Returns e () e

/-- What the command does not look at: the entry's numbers fit, and it lives past its deadline. -/
def Covers (e : Env) (entry : BatchTaskEntry) : Prop :=
  entry.Fits ∧ requiredTtlLedgers e entry.params.deadline ≤ entry.params.ttlLedgers

/-- What the command does look at. -/
structure Checked (nowSeconds minReward : Int) (entry : BatchTaskEntry) : Prop where
  reward : 0 < entry.reward ∧ minReward ≤ entry.reward
  deadline : nowSeconds < entry.deadline
  calldata : entry.calldata.length ≤ maxCalldataLen
  lockLedgers : minLockLedgers ≤ entry.lockLedgers ∧ entry.lockLedgers ≤ maxLockLedgers
  ttlLedgers : minTtlLedgers ≤ entry.ttlLedgers

/-- The command and the registry agree on the entries. -/
structure Agrees (e : Env) (entries : List BatchTaskEntry) : Prop where
  /-- The command lets pass what the registry accepts. -/
  validates : validateEntries entries e.timestamp (minRewardFloor e) = .ok () ↔
    ∀ entry ∈ entries, Accepts e entry
  /--
  A chunk that passed is stored as soon as its tokens are moved: nothing about its size, its ceiling
  or the parameters of its tasks is in the way.
  -/
  registers : validateEntries entries e.timestamp (minRewardFloor e) = .ok () →
    ∀ token inv owner, Permitted inv e owner → e.rewardToken ≠ none →
    ∀ chunk ∈ chunkList entries maxBatchSize, ∀ bufferBps, ceilingFor chunk bufferBps ≤ i128Max →
    ∀ taskIds e', (batchRegisterTasks token inv owner (chunk.map BatchTaskEntry.params)
        (ceilingFor chunk bufferBps)).Returns e taskIds e' ↔
      Registered token inv owner (chunk.map BatchTaskEntry.params) e.bump taskIds e'

variable {e : Env} {entry : BatchTaskEntry} {entries chunk : List BatchTaskEntry}
  {nowSeconds minReward : Int} {bufferBps size : Nat}

/-- An entry has no problems exactly when it passes all checks. -/
theorem problemsOf_eq_nil : problemsOf nowSeconds minReward entry = [] ↔
    Checked nowSeconds minReward entry := by
  have split : Checked nowSeconds minReward entry ↔
      (0 < entry.reward ∧ minReward ≤ entry.reward) ∧ nowSeconds < entry.deadline ∧
        entry.calldata.length ≤ maxCalldataLen ∧
        (minLockLedgers ≤ entry.lockLedgers ∧ entry.lockLedgers ≤ maxLockLedgers) ∧
        minTtlLedgers ≤ entry.ttlLedgers :=
    ⟨fun ⟨reward, deadline, calldata, lock, ttl⟩ => ⟨reward, deadline, calldata, lock, ttl⟩,
      fun ⟨reward, deadline, calldata, lock, ttl⟩ => ⟨reward, deadline, calldata, lock, ttl⟩⟩
  rw [split]
  -- The floor is only looked at for a reward.
  by_cases low : entry.reward ≤ 0
  · simp [problemsOf, low, not_lt.mpr low]
  · simp [problemsOf, low, not_le.mp low, and_assoc]

/-- The command lets a list pass exactly when every entry passes all checks. -/
theorem validateEntries_eq_ok : validateEntries entries nowSeconds minReward = .ok () ↔
    ∀ entry ∈ entries, Checked nowSeconds minReward entry := by
  simp only [← problemsOf_eq_nil]
  rw [← List.flatMap_eq_nil_iff, validateEntries]
  split <;> simp [*]

/-- The registry checks what the command does, and what it leaves out. -/
theorem accepts_iff : Accepts e entry ↔
    Checked e.timestamp (minRewardFloor e) entry ∧ Covers e entry := by
  rw [Accepts, Covers, validateTaskParams_returns]
  -- The fields are compared as natural numbers on one side and as integers on the other.
  have fields : entry.params.reward = entry.reward ∧ entry.params.calldata = entry.calldata ∧
      entry.params.deadline = entry.deadline.toNat ∧
      entry.params.ttlLedgers = entry.ttlLedgers.toNat ∧
      entry.params.lockLedgers = entry.lockLedgers.toNat := ⟨rfl, rfl, rfl, rfl, rfl⟩
  obtain ⟨reward, calldata, deadline, ttlLedgers, lockLedgers⟩ := fields
  have least : minLockLedgers = 12 ∧ minTtlLedgers = 1000 := ⟨rfl, rfl⟩
  constructor
  · rintro ⟨fits, valid, -⟩
    obtain ⟨positive, floor, ahead, short, lock, lifetime, covered⟩ := valid
    refine ⟨⟨⟨positive, floor⟩, ?_, short, ?_, ?_⟩, fits, covered⟩ <;> omega
  · rintro ⟨⟨⟨positive, floor⟩, ahead, short, lock, lifetime⟩, fits, covered⟩
    refine ⟨fits, ⟨by rwa [reward], by rwa [reward], ?_, by rwa [calldata], ?_, ?_, covered⟩, rfl⟩
    all_goals omega

theorem sumRewards_eq : sumRewards entries = (entries.map BatchTaskEntry.reward).sum := by
  rw [sumRewards, List.sum_eq_foldl, List.foldl_map]

theorem le_ceilingFor (positive : ∀ entry ∈ chunk, 0 < entry.reward) :
    (chunk.map BatchTaskEntry.reward).sum ≤ ceilingFor chunk bufferBps := by
  have nonneg : 0 ≤ (chunk.map BatchTaskEntry.reward).sum :=
    List.sum_nonneg fun reward member => by
      obtain ⟨entry, listed, rfl⟩ := List.mem_map.mp member
      exact (positive entry listed).le
  rw [ceilingFor, sumRewards_eq]
  split
  · exact le_rfl
  · have room := Int.tdiv_nonneg (Int.mul_nonneg nonneg (Int.natCast_nonneg bufferBps))
      (show (0 : Int) ≤ 10000 by decide)
    omega

theorem mem_chunkList (positive : 0 < size) (member : chunk ∈ chunkList entries size) :
    chunk ≠ [] ∧ chunk.length ≤ size ∧ ∀ entry ∈ chunk, entry ∈ entries := by
  obtain ⟨i, started, rfl⟩ := List.mem_map.mp member
  -- A part starts at a multiple of the size that is below the length.
  have below : i * size < entries.length := by
    have room := (Nat.le_div_iff_mul_le positive).mp (List.mem_range.mp started)
    rw [Nat.succ_mul] at room
    omega
  refine ⟨?_, List.length_take_le _ _, fun entry listed =>
    List.mem_of_mem_drop (List.mem_of_mem_take listed)⟩
  intro empty
  have length := congrArg List.length empty
  simp only [List.length_take, List.length_drop, List.length_nil] at length
  omega

/-- A chunk of entries that the registry accepts is stored once its tokens are moved. -/
theorem chunk_registers (accepted : ∀ entry ∈ entries, Accepts e entry) {token : Token}
    {inv : Invocation} {owner : Address} (permitted : Permitted inv e owner)
    (configured : e.rewardToken ≠ none) (part : chunk ∈ chunkList entries maxBatchSize)
    (typed : ceilingFor chunk bufferBps ≤ i128Max) {taskIds : List Nat} {e' : Env} :
    (batchRegisterTasks token inv owner (chunk.map BatchTaskEntry.params)
        (ceilingFor chunk bufferBps)).Returns e taskIds e' ↔
      Registered token inv owner (chunk.map BatchTaskEntry.params) e.bump taskIds e' := by
  obtain ⟨nonempty, short, inside⟩ := mem_chunkList (by decide) part
  have valid (entry : BatchTaskEntry) (member : entry ∈ chunk) : ValidParams e entry.params :=
    (validateTaskParams_returns.mp (accepted entry (inside entry member)).2).1
  have positive (entry : BatchTaskEntry) (member : entry ∈ chunk) : 0 < entry.reward :=
    (valid entry member).positive
  have within := @le_ceilingFor chunk bufferBps positive
  -- Some entry has a reward, so the ceiling is above nothing.
  have above : 0 < (chunk.map BatchTaskEntry.reward).sum :=
    List.sum_pos _ (by simpa using positive) (by simpa using nonempty)
  have total : (chunk.map BatchTaskEntry.params).map BatchTaskParams.reward =
      chunk.map BatchTaskEntry.reward := by
    rw [List.map_map]
    rfl
  rw [batchRegisterTasks_returns typed, total]
  refine ⟨fun stored => stored.2.2.2.2.2, fun registered => ⟨by simpa using nonempty,
    by simpa using short, by omega, within, ⟨permitted, ?_, configured⟩, registered⟩⟩
  simpa using valid

/--
The command line and the registry agree on a list exactly when entries that all pass the checks of
the command also have what it does not check.
-/
theorem preflight_agrees_iff : Agrees e entries ↔
    ((∀ entry ∈ entries, Checked e.timestamp (minRewardFloor e) entry) →
      ∀ entry ∈ entries, Covers e entry) := by
  have agree : (validateEntries entries e.timestamp (minRewardFloor e) = .ok () ↔
      ∀ entry ∈ entries, Accepts e entry) ↔
      ((∀ entry ∈ entries, Checked e.timestamp (minRewardFloor e) entry) →
        ∀ entry ∈ entries, Covers e entry) := by
    simp only [validateEntries_eq_ok, accepts_iff, forall_and, iff_self_and]
  rw [← agree]
  refine ⟨Agrees.validates, fun validates => ⟨validates, ?_⟩⟩
  -- What the command lets pass is accepted, so its chunks are stored.
  intro passed token inv owner permitted configured chunk part bufferBps typed taskIds e'
  exact chunk_registers (validates.mp passed) permitted configured part typed

/-- A task that is due in a day passes the command line, and the registry accepts it. -/
theorem preflight_agrees_iff_sample : Accepts beforeBatch sampleEntry := by
  have agrees := (@preflight_agrees_iff beforeBatch [sampleEntry]).mpr fun _ => by
    simp only [List.forall_mem_singleton]
    exact ⟨⟨by decide, by decide, by decide, by decide⟩, by decide⟩
  exact agrees.validates.mp rfl sampleEntry List.mem_cons_self

/-- The command line lets a task pass whose lifetime is too short for the registry. -/
theorem preflight_too_short :
    validateEntries [{ sampleEntry with ttlLedgers := 1000 }] beforeBatch.timestamp
      (minRewardFloor beforeBatch) = .ok () ∧
    ¬ Accepts beforeBatch { sampleEntry with ttlLedgers := 1000 } :=
  ⟨rfl, fun accepted => absurd (accepts_iff.mp accepted).2.2 (by decide)⟩

end KeeperNetwork.Cli
