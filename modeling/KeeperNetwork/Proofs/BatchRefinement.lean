import KeeperNetwork.Proofs.Oblivious
import KeeperNetwork.Registry.Genesis
import KeeperNetwork.Registry.Transfers

/-! Registering a batch does what registering its entries one by one does. -/

namespace KeeperNetwork

open Soroban EStateM

/-- Register tasks by one call each, in order, for as long as the calls go through. -/
def registerInTurn (token : Token) (inv : Invocation) (owner : Address) :
    List BatchTaskParams → Env → Option (List Nat × Env)
  | [], e => some ([], e)
  | params :: rest, e =>
    match invoke token inv (.registerTask owner params) e with
    | (.ok (.id taskId), e') =>
      (registerInTurn token inv owner rest e').map fun done => (taskId :: done.1, done.2)
    | _ => none

/-- The environment with other records of the host, which no contract can read. -/
def Env.withHistory (history : List Entry) (e : Env) : Env := { e with history }

/-- What every entry of a batch demands, and every single registration too. -/
structure Admitted (inv : Invocation) (e : Env) (owner : Address)
    (entries : List BatchTaskParams) : Prop where
  permitted : Permitted inv e owner
  valid : ∀ params ∈ entries, ValidParams e params
  configured : e.rewardToken ≠ none

variable {token : Token} {inv : Invocation} {e e' : Env} {owner : Address}
  {params : BatchTaskParams} {entries rest : List BatchTaskParams} {taskIds : List Nat}
  {maxTotalReward : Int} {taskId : Nat}

theorem registerTask_returns :
    (registerTask token inv owner params).Returns e taskId e' ↔
      Admitted inv e owner [params] ∧ Registered token inv owner [params] e.bump [taskId] e' := by
  simp [registerTask]
  constructor
  · rintro ⟨active, signed, valid, _, paid, ⟨configured, escrowed⟩, ⟨rfl, room⟩, rfl⟩
    exact ⟨⟨⟨active, signed⟩, by simpa using valid, configured⟩, .next escrowed room (.done _)⟩
  · rintro ⟨admitted, registered⟩
    cases registered with
    | next escrowed room others =>
      cases others
      exact ⟨admitted.permitted.1, admitted.permitted.2, admitted.valid _ (by simp), (), _,
        ⟨admitted.configured, escrowed⟩, ⟨rfl, room⟩, rfl⟩

/-- A batch is stored when its size and ceiling are legal and every entry is admitted. -/
theorem batchRegisterTasks_returns (typed : maxTotalReward ≤ i128Max) :
    (batchRegisterTasks token inv owner entries maxTotalReward).Returns e taskIds e' ↔
      entries ≠ [] ∧ entries.length ≤ maxBatchSize ∧ 0 < maxTotalReward ∧
      (entries.map BatchTaskParams.reward).sum ≤ maxTotalReward ∧
      Admitted inv e owner entries ∧ Registered token inv owner entries e.bump taskIds e' := by
  simp [batchRegisterTasks, validateBatch_returns, registerEntries_returns,
      ← Option.ne_none_iff_exists']
  constructor
  · rintro ⟨active, signed, nonempty, small, ceiling, ⟨valid, -⟩, within, configured, registered⟩
    exact ⟨nonempty, small, ceiling, within, ⟨⟨active, signed⟩, valid, configured⟩, registered⟩
  · rintro ⟨nonempty, small, ceiling, within, admitted, registered⟩
    -- The rewards are positive, so a total below the ceiling never overflows on the way.
    have fit : SumsFit 0 (entries.map BatchTaskParams.reward) := by
      refine sumsFit_of_nonneg (by have := i128_signs; omega) (fun amount member => ?_) (by omega)
      obtain ⟨params, listed, rfl⟩ := List.mem_map.mp member
      exact (admitted.valid params listed).positive.le
    exact ⟨admitted.permitted.1, admitted.permitted.2, nonempty, small, ceiling,
      ⟨admitted.valid, fit⟩, within, admitted.configured, registered⟩

theorem Registered.withHistory (blind : ∀ history, Oblivious (Env.withHistory history) token)
    (registered : Registered token inv owner entries e taskIds e') (history : List Entry) :
    Registered token inv owner entries (e.withHistory history) taskIds
      (e'.withHistory history) := by
  induction registered with
  | done => exact .done _
  | @next params rest e paid finish taskIds escrowed room _ ih =>
    have moved := (blind history owner e.self params.reward e).returns escrowed
    exact @Registered.next token inv owner params rest _ (paid.withHistory history) _ taskIds
      moved room ih

theorem Admitted.congr (admitted : Admitted inv e owner entries) (paused : e'.paused = e.paused)
    (timestamp : e'.timestamp = e.timestamp) (minReward : e'.minReward = e.minReward)
    (rewardToken : e'.rewardToken = e.rewardToken) : Admitted inv e' owner entries := by
  obtain ⟨⟨active, signed⟩, valid, configured⟩ := admitted
  refine ⟨⟨by rwa [paused], signed⟩, fun params member => ?_, by rwa [rewardToken]⟩
  obtain ⟨positive, floor, ahead, short, lock, lifetime, covered⟩ := valid params member
  exact ⟨positive, by simpa [minRewardFloor, minReward] using floor, by rwa [timestamp], short,
    lock, lifetime, by simpa [requiredTtlLedgers, timestamp] using covered⟩

theorem Registered.stored (exact : ExactToken token)
    (registered : Registered token inv owner [params] e.bump [taskId] e') :
    e'.bump = e' ∧ (Admitted inv e' owner entries ↔ Admitted inv e owner entries) := by
  cases registered with
  | next escrowed room others =>
    cases others
    obtain ⟨balances, -, rfl⟩ := exact.moves escrowed
    refine ⟨?_, fun admitted => admitted.congr (by simp) (by simp) (by simp) (by simp),
      fun admitted => admitted.congr (by simp) (by simp) (by simp) (by simp)⟩
    -- A second renewal at the same ledger changes nothing.
    rw [Env.bump]
    simp only [Env.emit_sequence, Env.saveTask_sequence, Env.countTask_sequence, Env.bump_sequence,
      Env.emit_instanceLiveUntil, Env.saveTask_instanceLiveUntil, Env.countTask_instanceLiveUntil,
      Env.bump_instanceLiveUntil, extendTtl_idem]
    rfl

theorem registered_cons_iff :
    Registered token inv owner (params :: rest) e (taskId :: taskIds) e' ↔
      ∃ mid, Registered token inv owner [params] e [taskId] mid ∧
        Registered token inv owner rest mid taskIds e' := by
  constructor
  · rintro (_ | ⟨escrowed, room, others⟩)
    exact ⟨_, .next escrowed room (.done _), others⟩
  · rintro ⟨mid, registered, others⟩
    cases registered with
    | next escrowed room done =>
      cases done
      exact .next escrowed room others

variable {value : Value}

theorem invoke_registerTask_iff :
    invoke token inv (.registerTask owner params) e = (.ok value, e') ↔
      ∃ taskId mid, value = .id taskId ∧ Admitted inv e owner [params] ∧
        Registered token inv owner [params] e.bump [taskId] mid ∧
        e' = mid.record e (.registerTask owner params) value := by
  rw [invoke, commit_eq_ok, recordedCall_returns]
  constructor
  · rintro ⟨mid, ran, rfl⟩
    obtain ⟨taskId, registered, rfl⟩ := returns_map.mp ran
    obtain ⟨admitted, stored⟩ := registerTask_returns.mp registered
    exact ⟨taskId, mid, rfl, admitted, stored, rfl⟩
  · rintro ⟨taskId, mid, rfl, admitted, stored, rfl⟩
    exact ⟨mid, returns_map.mpr ⟨taskId, registerTask_returns.mpr ⟨admitted, stored⟩, rfl⟩, rfl⟩

theorem registerInTurn_cons {done : List Nat × Env} :
    registerInTurn token inv owner (params :: rest) e = some done ↔
      ∃ taskId mid others, Admitted inv e owner [params] ∧
        Registered token inv owner [params] e.bump [taskId] mid ∧
        registerInTurn token inv owner rest
          (mid.record e (.registerTask owner params) (.id taskId)) = some others ∧
        done = (taskId :: others.1, others.2) := by
  constructor
  · intro registered
    rw [registerInTurn] at registered
    split at registered
    · rename_i taskId after called
      obtain ⟨_, mid, same, admitted, stored, rfl⟩ := invoke_registerTask_iff.mp called
      cases same
      obtain ⟨others, later, rfl⟩ := Option.map_eq_some_iff.mp registered
      exact ⟨taskId, mid, others, admitted, stored, later, rfl⟩
    · simp at registered
  · rintro ⟨taskId, mid, others, admitted, stored, later, rfl⟩
    have called := (@invoke_registerTask_iff token inv e _ owner params (.id taskId)).mpr
      ⟨taskId, mid, rfl, admitted, stored, rfl⟩
    simp [registerInTurn, called, later]

theorem admitted_cons_iff :
    Admitted inv e owner (params :: rest) ↔
      Admitted inv e owner [params] ∧ Admitted inv e owner rest := by
  constructor
  · rintro ⟨permitted, valid, configured⟩
    obtain ⟨first, others⟩ := List.forall_mem_cons.mp valid
    exact ⟨⟨permitted, by simpa using first, configured⟩, ⟨permitted, others, configured⟩⟩
  · rintro ⟨⟨permitted, first, configured⟩, others⟩
    exact ⟨permitted, List.forall_mem_cons.mpr ⟨first params (by simp), others.valid⟩, configured⟩

theorem registered_record_iff {mid : Env} {before w : World} {call : Call}
    (exact : ExactToken token) (blind : ∀ history, Oblivious (Env.withHistory history) token)
    (stored : Registered token inv owner [params] e.bump [taskId] mid) :
    (∃ finish, Registered token inv owner rest (mid.record before call value).bump taskIds finish ∧
        finish.toWorld = w) ↔
      ∃ finish, Registered token inv owner rest mid taskIds finish ∧ finish.toWorld = w := by
  -- There is nothing left to renew, so only the records differ.
  have same : (mid.record before call value).bump =
      mid.withHistory (mid.record before call value).history := by
    have renewed := (@Registered.stored token inv e mid owner params [] taskId exact stored).1
    exact congrArg (Env.withHistory (mid.record before call value).history) renewed
  rw [same]
  constructor
  · rintro ⟨finish, registered, rfl⟩
    exact ⟨finish.withHistory mid.history, registered.withHistory blind mid.history, rfl⟩
  · rintro ⟨finish, registered, rfl⟩
    exact ⟨_, registered.withHistory blind _, rfl⟩

/-- Registering in turn succeeds for admitted entries, and ends as the batch does. -/
theorem registerInTurn_iff (exact : ExactToken token)
    (blind : ∀ history, Oblivious (Env.withHistory history) token) (nonempty : entries ≠ [])
    {w : World} :
    (∃ finish, registerInTurn token inv owner entries e = some (taskIds, finish) ∧
        finish.toWorld = w) ↔
      Admitted inv e owner entries ∧
        ∃ finish, Registered token inv owner entries e.bump taskIds finish ∧
          finish.toWorld = w := by
  induction entries generalizing e taskIds with
  | nil => exact absurd rfl nonempty
  | cons params rest ih =>
    -- The calls after the first run in the state it left, which differs in the records only.
    have later : ∀ {taskId : Nat} {mid : Env} {others : List Nat} (value : Value),
        Admitted inv e owner [params] → Registered token inv owner [params] e.bump [taskId] mid →
        ((∃ finish, registerInTurn token inv owner rest
            (mid.record e (.registerTask owner params) value) = some (others, finish) ∧
            finish.toWorld = w) ↔
          Admitted inv e owner rest ∧
            ∃ finish, Registered token inv owner rest mid others finish ∧
              finish.toWorld = w) := by
      intro taskId mid others value admitted stored
      cases rest with
      | nil =>
        constructor
        · rintro ⟨finish, registered, rfl⟩
          obtain ⟨rfl, rfl⟩ : [] = others ∧ _ = finish := by simpa [registerInTurn] using registered
          exact ⟨⟨admitted.permitted, by simp, admitted.configured⟩, mid, .done mid, rfl⟩
        · rintro ⟨-, finish, registered, rfl⟩
          cases registered
          exact ⟨_, rfl, rfl⟩
      | cons next rest =>
        rw [ih (by simp), registered_record_iff exact blind stored,
          ← (stored.stored exact).2]
        exact and_congr_left' ⟨fun first => first.congr rfl rfl rfl rfl,
          fun first => first.congr rfl rfl rfl rfl⟩
    constructor
    · rintro ⟨finish, registered, rfl⟩
      obtain ⟨taskId, mid, others, admitted, stored, rest, done⟩ :=
        registerInTurn_cons.mp registered
      cases done
      obtain ⟨more, finish, registered, same⟩ := (later _ admitted stored).mp ⟨_, rest, rfl⟩
      exact ⟨admitted_cons_iff.mpr ⟨admitted, more⟩, finish,
        registered_cons_iff.mpr ⟨mid, stored, registered⟩, same⟩
    · rintro ⟨admitted, finish, registered, rfl⟩
      obtain ⟨first, others⟩ := admitted_cons_iff.mp admitted
      cases taskIds with
      | nil => cases registered
      | cons taskId taskIds =>
        obtain ⟨mid, stored, rest⟩ := registered_cons_iff.mp registered
        obtain ⟨final, turn, same⟩ := (later (.id taskId) first stored).mpr
          ⟨others, finish, rest, rfl⟩
        exact ⟨final, registerInTurn_cons.mpr ⟨taskId, mid, _, first, stored, turn, rfl⟩, same⟩

theorem invoke_batchRegisterTasks_iff (typed : maxTotalReward ≤ i128Max) :
    invoke token inv (.batchRegisterTasks owner entries maxTotalReward) e = (.ok value, e') ↔
      ∃ taskIds mid, value = .ids taskIds ∧ entries ≠ [] ∧ entries.length ≤ maxBatchSize ∧
        0 < maxTotalReward ∧ (entries.map BatchTaskParams.reward).sum ≤ maxTotalReward ∧
        Admitted inv e owner entries ∧
        Registered token inv owner entries e.bump taskIds mid ∧
        e' = mid.record e (.batchRegisterTasks owner entries maxTotalReward) value := by
  rw [invoke, commit_eq_ok, recordedCall_returns]
  constructor
  · rintro ⟨mid, ran, rfl⟩
    obtain ⟨taskIds, registered, rfl⟩ := returns_map.mp ran
    obtain ⟨nonempty, small, ceiling, within, admitted, stored⟩ :=
      (batchRegisterTasks_returns typed).mp registered
    exact ⟨taskIds, mid, rfl, nonempty, small, ceiling, within, admitted, stored, rfl⟩
  · rintro ⟨taskIds, mid, rfl, nonempty, small, ceiling, within, admitted, stored, rfl⟩
    exact ⟨mid, returns_map.mpr ⟨taskIds, (batchRegisterTasks_returns typed).mpr
      ⟨nonempty, small, ceiling, within, admitted, stored⟩, rfl⟩, rfl⟩

/--
Registering a batch refines registering its entries one by one.

It goes through exactly if its size, ceiling and total are legal and every entry could be registered
by a call of its own in turn. It then returns the same ids and leaves the same ledger, and it leaves
everything alone otherwise.
-/
theorem batch_refines_singles (exact : ExactToken token)
    (blind : ∀ history, Oblivious (Env.withHistory history) token)
    (typed : maxTotalReward ≤ i128Max) (e : Env) :
    ((∃ value e', invoke token inv (.batchRegisterTasks owner entries maxTotalReward) e =
        (.ok value, e')) ↔
      (1 ≤ entries.length ∧ entries.length ≤ maxBatchSize) ∧ 0 < maxTotalReward ∧
      (entries.map BatchTaskParams.reward).sum ≤ maxTotalReward ∧
      ∃ done, registerInTurn token inv owner entries e = some done) ∧
    (∀ value e' taskIds finish,
      invoke token inv (.batchRegisterTasks owner entries maxTotalReward) e = (.ok value, e') →
      registerInTurn token inv owner entries e = some (taskIds, finish) →
      value = .ids taskIds ∧ e'.toWorld = finish.toWorld) ∧
    (∀ failure e',
      invoke token inv (.batchRegisterTasks owner entries maxTotalReward) e = (.error failure, e') →
      e' = e) := by
  refine ⟨⟨?_, ?_⟩, ?_, ?_⟩
  · rintro ⟨value, e', called⟩
    obtain ⟨taskIds, mid, -, nonempty, small, ceiling, within, admitted, stored, -⟩ :=
      (invoke_batchRegisterTasks_iff typed).mp called
    obtain ⟨finish, turn, -⟩ :=
      (registerInTurn_iff exact blind nonempty).mpr ⟨admitted, mid, stored, rfl⟩
    exact ⟨⟨List.length_pos_iff.mpr nonempty, small⟩, ceiling, within, _, turn⟩
  · rintro ⟨⟨counted, small⟩, ceiling, within, ⟨taskIds, finish⟩, turn⟩
    have nonempty := List.length_pos_iff.mp counted
    obtain ⟨admitted, mid, stored, -⟩ :=
      (registerInTurn_iff exact blind nonempty).mp ⟨finish, turn, rfl⟩
    exact ⟨_, _, (invoke_batchRegisterTasks_iff typed).mpr
      ⟨taskIds, mid, rfl, nonempty, small, ceiling, within, admitted, stored, rfl⟩⟩
  · intro value e' taskIds finish called turn
    obtain ⟨batchIds, mid, rfl, nonempty, -, -, -, -, stored, rfl⟩ :=
      (invoke_batchRegisterTasks_iff typed).mp called
    obtain ⟨-, single, singles, same⟩ :=
      (registerInTurn_iff exact blind nonempty).mp ⟨finish, turn, rfl⟩
    -- Storing the entries has only one outcome.
    obtain ⟨rfl, rfl⟩ := (registerEntries_returns.mpr stored).unique
      (registerEntries_returns.mpr singles)
    exact ⟨rfl, same⟩
  · intro failure e' called
    exact invoke_error called

/-- A registry whose owner can pay for two small tasks. -/
def beforeBatch : Env :=
  genesis ⟨0⟩ ⟨1⟩ ⟨2⟩ 100 (hundredOf ⟨3⟩) 0 0

theorem exactTransfer_oblivious_history (history : List Entry) :
    Oblivious (Env.withHistory history) exactTransfer := by
  intro src dst amount e
  have same : (e.withHistory history).balances = e.balances := rfl
  simp only [IgnoresAt, EStateM.run, exactTransfer, same]
  cases e.balances.move src dst amount <;> rfl

/-- A batch of two small tasks gets the ids that two single registrations would get. -/
theorem batch_refines_singles_pair :
    ∃ e', invoke exactTransfer (signedBy [⟨3⟩] 1000)
        (.batchRegisterTasks ⟨3⟩ [sampleParams, sampleParams] 80) beforeBatch =
      (.ok (.ids [1, 2]), e') := by
  obtain ⟨enabled, agree, -⟩ := @batch_refines_singles exactTransfer (signedBy [⟨3⟩] 1000) ⟨3⟩
    [sampleParams, sampleParams] 80 exactTransfer_exact exactTransfer_oblivious_history
    (by decide) beforeBatch
  have turn : ∃ finish, registerInTurn exactTransfer (signedBy [⟨3⟩] 1000) ⟨3⟩
      [sampleParams, sampleParams] beforeBatch = some ([1, 2], finish) := ⟨_, rfl⟩
  obtain ⟨finish, turn⟩ := turn
  obtain ⟨value, e', called⟩ := enabled.mpr
    ⟨by decide, by decide, by decide, _, turn⟩
  obtain ⟨rfl, -⟩ := agree value e' [1, 2] finish called turn
  exact ⟨e', called⟩

end KeeperNetwork
