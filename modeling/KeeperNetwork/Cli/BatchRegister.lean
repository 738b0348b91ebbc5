import KeeperNetwork.Registry.Constants
import KeeperNetwork.Registry.Types

/-! The batch registration of the command line: entries, their encoding and the report. -/

namespace KeeperNetwork.Cli

open Soroban

/-- One task of a task file, with numbers of any size. -/
structure BatchTaskEntry where
  index : Nat
  label : String
  taskType : TaskType
  calldata : Bytes
  reward : Int
  deadline : Int
  ttlLedgers : Int
  lockLedgers : Int
  deriving DecidableEq, Repr

def BatchTaskEntry.params (entry : BatchTaskEntry) : BatchTaskParams where
  taskType := entry.taskType
  calldata := entry.calldata
  reward := entry.reward
  deadline := entry.deadline.toNat
  ttlLedgers := entry.ttlLedgers.toNat
  lockLedgers := entry.lockLedgers.toNat
  verifier := none
  condition := none

/-- What is wrong with an entry at a time, under a least reward, as the command words it. -/
def problemsOf (nowSeconds minReward : Int) (entry : BatchTaskEntry) : List String :=
  let ⟨index, label, _, calldata, reward, deadline, ttlLedgers, lockLedgers⟩ := entry
  let number := index + 1
  let length := calldata.length
  let note (message : String) := s!"  - {label} (entry #{number}): {message}"
  (if reward ≤ 0 then [note s!"reward must be positive (got {reward})"]
    else if reward < minReward then
      [note s!"reward {reward} is below the registry's min_reward {minReward}"]
    else []) ++
  (if deadline ≤ nowSeconds then
    [note s!"deadline {deadline} is not in the future (ledger time is {nowSeconds})"] else []) ++
  (if length > maxCalldataLen then
    [note s!"calldata is {length} bytes, over the {maxCalldataLen}-byte limit"] else []) ++
  (if lockLedgers < minLockLedgers ∨ lockLedgers > maxLockLedgers then
    [note s!"lock_ledgers {lockLedgers} is outside [{minLockLedgers}, {maxLockLedgers}]"]
    else []) ++
  (if ttlLedgers < minTtlLedgers then
    [note s!"ttl_ledgers {ttlLedgers} is below the minimum {minTtlLedgers}"] else [])

/-- Check every entry before anything is sent, and report all that is wrong at once. -/
def validateEntries (entries : List BatchTaskEntry) (nowSeconds minReward : Int) :
    Except String Unit :=
  let problems := entries.flatMap (problemsOf nowSeconds minReward)
  let count := problems.length
  let noun := if count = 1 then "entry" else "entries"
  let listed := "\n".intercalate problems
  if problems = [] then .ok ()
  else .error s!"{count} invalid {noun} — the contract would reject the whole batch:\n{listed}"

/-- Split a list into parts of a size, the last of which may be shorter. -/
def chunkList {α : Type} (entries : List α) (size : Nat) : List (List α) :=
  -- The loop starts a part at every multiple of the size below the length.
  (List.range ((entries.length + size - 1) / size)).map fun i => (entries.drop (i * size)).take size

def sumRewards (entries : List BatchTaskEntry) : Int :=
  entries.foldl (fun total entry => total + entry.reward) 0

/-- The most that the registry may take for the entries, with some room above their sum. -/
def ceilingFor (entries : List BatchTaskEntry) (bufferBps : Nat) : Int :=
  if bufferBps = 0 then sumRewards entries
  else sumRewards entries + (sumRewards entries * bufferBps).tdiv 10000

section Encoding

/-- A contract value, with the kinds that the parameters of a batch are made of. -/
inductive ScVal where
  | void
  | u32 (value : Nat)
  | u64 (value : Nat)
  | i128 (value : Int)
  | bytes (bytes : Bytes)
  | symbol (text : String)
  | address (address : Address)
  | vec (items : List ScVal)
  | map (entries : List (String × ScVal))

def taskTypeName : TaskType → String
  | .liquidation => "Liquidation"
  | .oraclePricePush => "OraclePricePush"
  | .fundingRateUpdate => "FundingRateUpdate"
  | .liquidityRebalance => "LiquidityRebalance"
  | .ttlExtension => "TtlExtension"
  | .custom => "Custom"

def discriminant : TaskType → Nat
  | .liquidation => 0
  | .oraclePricePush => 1
  | .fundingRateUpdate => 2
  | .liquidityRebalance => 3
  | .ttlExtension => 4
  | .custom => 5

/-- A number as an unsigned one of a type, unless it is out of its range. -/
def unsigned (max : Nat) (value : Int) : Option Nat :=
  if 0 ≤ value ∧ value ≤ max then some value.toNat else none

/-- Encode an entry, which fails for numbers out of range. -/
def toBatchTaskParams (entry : BatchTaskEntry) : Option ScVal := do
  let deadline ← unsigned u64Max entry.deadline
  let lockLedgers ← unsigned u32Max entry.lockLedgers
  let reward ← narrow entry.reward
  let ttlLedgers ← unsigned u32Max entry.ttlLedgers
  return .map [("calldata", .bytes entry.calldata), ("deadline", .u64 deadline),
    ("lock_ledgers", .u32 lockLedgers), ("reward", .i128 reward),
    ("task_type", .vec [.symbol (taskTypeName entry.taskType)]), ("ttl_ledgers", .u32 ttlLedgers)]

def decodeOption : ScVal → Option (Option Address)
  | .void => some none
  | .address address => some (some address)
  | _ => none

def decodeTaskType : ScVal → Option TaskType
  | .u32 0 => some .liquidation
  | .u32 1 => some .oraclePricePush
  | .u32 2 => some .fundingRateUpdate
  | .u32 3 => some .liquidityRebalance
  | .u32 4 => some .ttlExtension
  | .u32 5 => some .custom
  | _ => none

/-- Decode the parameters of a task as the registry does: all its fields, in order. -/
def decodeParams : ScVal → Option BatchTaskParams
  | .map [("calldata", .bytes calldata), ("condition", condition), ("deadline", .u64 deadline),
      ("lock_ledgers", .u32 lockLedgers), ("reward", .i128 reward), ("task_type", taskType),
      ("ttl_ledgers", .u32 ttlLedgers), ("verifier", verifier)] => do
    let condition ← decodeOption condition
    let taskType ← decodeTaskType taskType
    let verifier ← decodeOption verifier
    return { taskType, calldata, reward, deadline, ttlLedgers, lockLedgers, verifier, condition }
  | _ => none

/-- The encoding with the two fields that it lacks, and with the number of the task type. -/
def amend (taskType : TaskType) : ScVal → ScVal
  | .map [calldata, deadline, lockLedgers, reward, _, ttlLedgers] =>
    .map [calldata, ("condition", .void), deadline, lockLedgers, reward,
      ("task_type", .u32 (discriminant taskType)), ttlLedgers, ("verifier", .void)]
  | other => other

theorem unsigned_eq_some {max value : Nat} {exact : Int} :
    unsigned max exact = some value ↔ (0 ≤ exact ∧ exact ≤ max) ∧ exact.toNat = value := by
  simp [unsigned]

theorem decodeTaskType_discriminant (taskType : TaskType) :
    decodeTaskType (.u32 (discriminant taskType)) = some taskType := by
  cases taskType <;> rfl

/--
What the command encodes is never the parameters of a task.

It lacks the verifier and the condition, and names the task type where the registry has a number.
With these amended, every entry that is encoded at all decodes to the task it asks for.
-/
theorem encoding_decodes_amended {entry : BatchTaskEntry} {encoded : ScVal}
    (built : toBatchTaskParams entry = some encoded) :
    decodeParams encoded = none ∧
      decodeParams (amend entry.taskType encoded) = some entry.params := by
  simp only [toBatchTaskParams, Option.bind_eq_bind, Option.bind_eq_some_iff, unsigned_eq_some,
    narrow_eq_some, Option.pure_def, Option.some.injEq] at built
  obtain ⟨_, ⟨-, rfl⟩, _, ⟨-, rfl⟩, _, ⟨rfl, -⟩, _, ⟨-, rfl⟩, rfl⟩ := built
  refine ⟨rfl, ?_⟩
  simp [decodeParams, amend, decodeOption, decodeTaskType_discriminant, BatchTaskEntry.params]

/-- A small task that is due in a day. -/
def sampleEntry : BatchTaskEntry where
  index := 0
  label := "liquidate"
  taskType := .liquidation
  calldata := [1]
  reward := 40
  deadline := 86400
  ttlLedgers := 40000
  lockLedgers := 12

/-- The small task is encoded, and decodes once the encoding is amended. -/
theorem encoding_decodes_amended_sample : ∃ encoded, toBatchTaskParams sampleEntry = some encoded ∧
    decodeParams (amend .liquidation encoded) = some sampleEntry.params := by
  obtain ⟨encoded, built⟩ : ∃ encoded, toBatchTaskParams sampleEntry = some encoded := ⟨_, rfl⟩
  exact ⟨encoded, built, (encoding_decodes_amended built).2⟩

/-- The command accepts the small task, and the registry cannot read what it sends for it. -/
theorem encoding_unreadable : validateEntries [sampleEntry] 0 0 = .ok () ∧
    (toBatchTaskParams sampleEntry).map decodeParams = some none := ⟨rfl, rfl⟩

end Encoding

section Report

/-- What becomes of the transaction for one chunk. -/
inductive Outcome where
  /-- The registry stored the tasks under ids, which the command may be able to read or not. -/
  | committed (taskIds : List Nat) (readable : Bool)
  | failed
  deriving DecidableEq, Repr

def Outcome.taskIds : Outcome → List Nat
  | .committed taskIds _ => taskIds
  | .failed => []

/-- A task that the command reports as registered. -/
structure Registration where
  entry : BatchTaskEntry
  taskId : Nat
  chunkIndex : Nat
  deriving DecidableEq, Repr

/-- What the command reports of one chunk. -/
structure ChunkSummary where
  chunkIndex : Nat
  entryCount : Nat
  maxTotalReward : Int
  taskIds : List Nat
  deriving DecidableEq, Repr

/-- What the command reports of a whole run. -/
structure Report where
  chunks : List ChunkSummary
  tasks : List Registration
  deriving DecidableEq, Repr

def idsOf (chunk : List BatchTaskEntry) (registered : Nat) (taskIds : List Nat) :
    Bool → List Nat
  | true => taskIds
  -- Without a list in the answer, the ids are counted up from the tasks of the run.
  | false => (List.range chunk.length).map fun j => registered + j + 1

/-- Add a chunk and its registrations to the report. -/
def Report.add (report : Report) (bufferBps : Nat) (chunk : List BatchTaskEntry)
    (ids : List Nat) : Report :=
  let chunkIndex := report.chunks.length + 1
  { chunks := report.chunks ++ [⟨chunkIndex, chunk.length, ceilingFor chunk bufferBps, ids⟩]
    tasks := report.tasks ++ (chunk.zip ids).map fun pair => ⟨pair.1, pair.2, chunkIndex⟩ }

/-- Submit the chunks one after the other, which a failed one ends without a report. -/
def submitChunks (bufferBps : Nat) : List (List BatchTaskEntry × Outcome) → Report → Option Report
  | [], report => some report
  | (_, .failed) :: _, _ => none
  | (chunk, .committed taskIds readable) :: rest, report =>
    submitChunks bufferBps rest
      (report.add bufferBps chunk (idsOf chunk report.tasks.length taskIds readable))

/-- The tasks that exist after a run, which ends at the first failure. -/
def onChain : List (List BatchTaskEntry × Outcome) → List (BatchTaskEntry × Nat)
  | [] | (_, .failed) :: _ => []
  | (chunk, .committed taskIds _) :: rest => chunk.zip taskIds ++ onChain rest

/-- The tasks that a report names. -/
def Report.pairs (report : Report) : List (BatchTaskEntry × Nat) :=
  report.tasks.map fun task => (task.entry, task.taskId)

/-- The registry gives one id to each task of a chunk that it stores. -/
def Outcome.Answers (chunk : List BatchTaskEntry) : Outcome → Prop
  | .committed taskIds _ => taskIds.length = chunk.length
  | .failed => True

/-- A run's output names the tasks that exist, by ids that the registry gave. -/
structure Faithful (bufferBps : Nat) (chunks : List (List BatchTaskEntry × Outcome)) : Prop where
  /-- Without a report, no task is named at all. -/
  pairs : ((submitChunks bufferBps chunks ⟨[], []⟩).map Report.pairs).getD [] = onChain chunks
  given : ∀ report, submitChunks bufferBps chunks ⟨[], []⟩ = some report →
    List.Forall₂ (fun summary chunk => ∀ id ∈ summary.taskIds, id ∈ chunk.2.taskIds)
      report.chunks chunks

/--
Every answer can be read, or its ids count up from the tasks that the run has registered before.
-/
def CountedRight : Nat → List (List BatchTaskEntry × Outcome) → Prop
  | _, [] => True
  | registered, (_, .failed) :: rest => CountedRight registered rest
  | registered, (chunk, .committed taskIds readable) :: rest =>
    (readable = false → taskIds = List.range' (registered + 1) chunk.length) ∧
      CountedRight (registered + chunk.length) rest

section Laws

variable {bufferBps : Nat} {chunks : List (List BatchTaskEntry × Outcome)} {report : Report}
  {chunk : List BatchTaskEntry} {registered : Nat} {taskIds : List Nat} {readable : Bool}

/-- A run in which some chunk fails has no report. -/
theorem submitChunks_failed (failed : .failed ∈ chunks.map Prod.snd) :
    submitChunks bufferBps chunks report = none := by
  induction chunks generalizing report with
  | nil => simp at failed
  | cons chunk rest ih =>
    obtain ⟨chunk, taskIds, readable | _⟩ := chunk
    · exact ih (by simpa using failed)
    · exact ih (by simpa using failed)
    · rfl

/-- The command has one id for each entry of a chunk. -/
theorem idsOf_length (answered : taskIds.length = chunk.length) :
    (idsOf chunk registered taskIds readable).length = chunk.length := by
  cases readable <;> simp [idsOf, answered]

/-- The ids of the command are those of the registry if they were read, or counted right. -/
theorem idsOf_eq_iff : idsOf chunk registered taskIds readable = taskIds ↔
    (readable = false → taskIds = List.range' (registered + 1) chunk.length) := by
  cases readable with
  | true => simp [idsOf]
  | false =>
    have counted : idsOf chunk registered taskIds false =
        List.range' (registered + 1) chunk.length := by
      rw [idsOf, List.range'_eq_map_range]
      refine List.map_congr_left fun j _ => ?_
      omega
    rw [counted, eq_comm]
    simp

/-- A chunk that is added to a report adds its pairs. -/
theorem Report.add_pairs (ids : List Nat) :
    (report.add bufferBps chunk ids).pairs = report.pairs ++ chunk.zip ids := by
  simp [Report.add, Report.pairs, Function.comp_def]

/-- Entries that are paired with two lists of ids have the same pairs only for the same ids. -/
theorem zip_eq_zip_iff {ids : List Nat} (one : ids.length = chunk.length)
    (two : taskIds.length = chunk.length) : chunk.zip ids = chunk.zip taskIds ↔ ids = taskIds := by
  refine ⟨fun same => ?_, fun same => by rw [same]⟩
  have right := congrArg (List.map Prod.snd) same
  rwa [List.map_snd_zip one.le, List.map_snd_zip two.le] at right

/-- A run without a failure has a report, which adds the tasks of the run if it counts right. -/
theorem submitChunks_reported (stored : .failed ∉ chunks.map Prod.snd)
    (answered : ∀ chunk ∈ chunks, chunk.2.Answers chunk.1) :
    ∃ final more summaries, submitChunks bufferBps chunks report = some final ∧
      final.pairs = report.pairs ++ more ∧ final.chunks = report.chunks ++ summaries ∧
      (more = onChain chunks ↔ CountedRight report.tasks.length chunks) ∧
      (CountedRight report.tasks.length chunks →
        List.Forall₂ (fun summary chunk => ∀ id ∈ summary.taskIds, id ∈ chunk.2.taskIds)
          summaries chunks) := by
  -- What is reported so far stays, and each chunk adds its pairs and its summary.
  induction chunks generalizing report with
  | nil => exact ⟨report, [], [], rfl, by simp, by simp, by simp [onChain, CountedRight], by simp⟩
  | cons entry rest ih =>
    obtain ⟨chunk, outcome⟩ := entry
    cases outcome with
    | failed => simp at stored
    | committed taskIds readable =>
      obtain ⟨here, later⟩ := List.forall_mem_cons.mp answered
      have length := @idsOf_length chunk report.tasks.length taskIds readable here
      have counted : (report.add bufferBps chunk
          (idsOf chunk report.tasks.length taskIds readable)).tasks.length =
            report.tasks.length + chunk.length := by
        simp [Report.add, length]
      obtain ⟨final, more, summaries, ran, pairs, listed, exact, given⟩ :=
        @ih _ (by simpa using stored) later
      rw [counted] at exact given
      rw [Report.add_pairs, List.append_assoc] at pairs
      rw [Report.add, List.append_assoc] at listed
      refine ⟨final, _, _, ran, pairs, listed, ?_, ?_⟩
      · -- This chunk has as many pairs as the registry stored, so the lists are compared apart.
        rw [onChain, CountedRight, ← exact, ← idsOf_eq_iff, ← zip_eq_zip_iff length here]
        refine ⟨fun same => List.append_inj same ?_, ?_⟩
        · rw [List.length_zip, List.length_zip, length]
          exact congrArg _ (Eq.symm here)
        · rintro ⟨first, second⟩
          rw [first, second]
      · rintro ⟨right, rest⟩
        refine .cons (fun id member => ?_) (given rest)
        exact idsOf_eq_iff.mpr right ▸ member

end Laws

/--
The output of a run is faithful exactly when a chunk fails and nothing was stored before it, or when
no chunk fails and every answer can be read or happens to count right.
-/
theorem report_exact_iff {bufferBps : Nat} {chunks : List (List BatchTaskEntry × Outcome)}
    (answered : ∀ chunk ∈ chunks, chunk.2.Answers chunk.1) :
    Faithful bufferBps chunks ↔
      (.failed ∈ chunks.map Prod.snd ∧ onChain chunks = []) ∨
      (.failed ∉ chunks.map Prod.snd ∧ CountedRight 0 chunks) := by
  by_cases failed : .failed ∈ chunks.map Prod.snd
  · -- There is no report, so nothing may have been stored.
    have none := @submitChunks_failed bufferBps chunks ⟨[], []⟩ failed
    simp only [failed, true_and, not_true_eq_false, false_and, or_false]
    refine ⟨fun faithful => ?_, fun nothing => ⟨by rw [none, nothing]; rfl, by simp [none]⟩⟩
    have told := faithful.pairs
    rwa [none, eq_comm] at told
  · obtain ⟨final, more, summaries, ran, pairs, listed, exact, given⟩ :=
      @submitChunks_reported bufferBps chunks ⟨[], []⟩ failed answered
    simp only [failed, false_and, not_false_eq_true, true_and, false_or]
    rw [show CountedRight 0 chunks ↔ more = onChain chunks from exact.symm]
    refine ⟨fun faithful => ?_, fun same => ⟨?_, fun report ran' => ?_⟩⟩
    · have told := faithful.pairs
      rwa [ran, Option.map_some, Option.getD_some, pairs] at told
    · rw [ran, Option.map_some, Option.getD_some, pairs, same]
      rfl
    · obtain rfl := Option.some.inj (ran.symm.trans ran')
      rw [listed]
      exact given (exact.mp same)

/-- Two chunks of one entry each are reported with the ids that the registry gave them. -/
theorem report_exact_iff_two :
    Faithful 0 [([sampleEntry], .committed [7] true), ([sampleEntry], .committed [9] true)] := by
  refine (report_exact_iff ?_).mpr (.inr ⟨by decide, ?_⟩)
  · simp [Outcome.Answers]
  · simp [CountedRight]

/--
An id that the registry did not give is reported when its answer cannot be read.

When a later chunk fails, the tasks of the earlier ones exist and are not reported.
-/
theorem report_wrong :
    ((submitChunks 0 [([sampleEntry], .committed [7] false)] ⟨[], []⟩).map Report.pairs =
        some [(sampleEntry, 1)] ∧
      onChain [([sampleEntry], .committed [7] false)] = [(sampleEntry, 7)]) ∧
    submitChunks 0 [([sampleEntry], .committed [7] true), ([sampleEntry], .failed)] ⟨[], []⟩ =
        none ∧
      onChain [([sampleEntry], .committed [7] true), ([sampleEntry], .failed)] =
        [(sampleEntry, 7)] := by
  decide

end Report

end KeeperNetwork.Cli
