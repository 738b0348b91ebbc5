import KeeperNetwork.Proofs.Runs

/-! Runs with any token that cannot reach the registry, however it treats its own balances. -/

namespace KeeperNetwork

open Soroban

/--
A token that cannot reach the registry's storage.

The host refuses to re-enter a contract, so whatever a transfer does, the registry only sees
balances change.
-/
def Detached (token : Token) : Prop :=
  Across (fun a b => ∃ balances, b = { a with balances }) token

/-- A run with tokens that leave the registry alone. -/
abbrev DetachedRun := Run fun _ token => Detached token

variable {token : Token} {inv : Invocation} {start e e' : Env} {call : Call} {value : Value}

theorem ExactToken.detached (exact : ExactToken token) : Detached token :=
  exact.across fun _ balances => ⟨balances, rfl⟩

theorem ExactRun.detached (run : ExactRun start e) : DetachedRun start e :=
  run.lift id fun _ _ step => step.mono fun _ _ exact => exact.detached

/-- What ignores balances survives a transfer of a token that does not reach the registry. -/
theorem Detached.across (detached : Detached token) {around : Env → Env → Prop}
    (ignores : ∀ (a : Env) (balances : Balances), around a { a with balances }) :
    Across around token := by
  intro src dst amount a b moved
  obtain ⟨balances, rfl⟩ := detached moved
  exact ignores a balances

theorem Registered.frame {owner : Address} {entries : List BatchTaskParams} {taskIds : List Nat}
    (detached : Detached token) (registered : Registered token inv owner entries e taskIds e') :
    e' = { e with
      balances := e'.balances
      liveUntil := e'.liveUntil
      taskCounter := e'.taskCounter
      tasks := e'.tasks
      events := e'.events } := by
  induction registered with
  | done => rfl
  | next escrowed _ _ ih =>
    obtain ⟨balances, rfl⟩ := detached escrowed
    exact ih.trans rfl

/-- A call leaves the host's records alone. -/
theorem Detached.history (detached : Detached token) (effect : Effect token inv e call value e') :
    e'.history = e.history :=
  effect.history_of (detached.across fun _ _ => rfl)

theorem Detached.steady (detached : Detached token) (unsigned : e.self ∉ inv.auths)
    (effect : Effect token inv e call value e') : Steady e e' :=
  effect.steady (detached.across fun a balances => .receive a balances a.history) unsigned

theorem DetachedRun.wellFormed (fresh : Fresh start) (run : DetachedRun start e) :
    WellFormed e := by
  induction run with
  | refl => exact fresh.wellFormed
  | tail _ last ih =>
    cases Step.happens last with
    | called detached unsigned _ effect => exact (detached.steady unsigned effect).wellFormed ih
    | failed => exact ih
    | closed timestamp => exact (Steady.clock _ _ timestamp).wellFormed ih
    | received balances => exact (Steady.receive _ balances _).wellFormed ih

/--
What holds of a fresh registry and survives every call holds in every state of a run.

It must not depend on the clock, nor on tokens that arrive from outside.
-/
theorem DetachedRun.invariant (holds : Env → Prop)
    (called : ∀ {token : Token} {inv : Invocation} {e e' : Env} {call : Call} {value : Value},
      Detached token → WellFormed e → Effect token inv e call value e' →
      e'.history = e.history → holds e → holds (e'.record e call value))
    (clock : ∀ (e : Env) (sequence timestamp : Nat), holds e → holds { e with sequence, timestamp })
    (outside : ∀ (e : Env) (balances : Balances) (amount : Int), holds e →
      holds { e with balances, history := .outside amount :: e.history })
    (fresh : Fresh start) (initially : holds start) (run : DetachedRun start e) : holds e := by
  induction run with
  | refl => exact initially
  | tail ran last ih =>
    cases Step.happens last with
    | called detached _ _ effect =>
      exact called detached (DetachedRun.wellFormed fresh ran) effect (detached.history effect) ih
    | failed => exact ih
    | closed timestamp => exact clock _ _ timestamp ih
    | received balances => exact outside _ balances _ ih

/-- What every effect makes true of its record is true of every record of a run. -/
theorem DetachedRun.receipts {holds : Receipt → Prop}
    (recorded : ∀ {token : Token} {inv : Invocation} {e e' : Env} {call : Call} {value : Value},
      Detached token → WellFormed e → Effect token inv e call value e' →
      holds ⟨e, call, value, e'⟩) (fresh : Fresh start) (run : DetachedRun start e) :
    ∀ receipt, .call receipt ∈ e.history → holds receipt := by
  refine DetachedRun.invariant (fun e => ∀ receipt, .call receipt ∈ e.history → holds receipt)
    ?_ (fun _ _ _ old => old) ?_ fresh (by simp [fresh.history]) run
  · intro token inv e e' call value detached formed effect history old receipt member
    rw [Env.record_history, history, List.mem_cons] at member
    rcases member with new | earlier
    · cases new
      exact recorded detached formed effect
    · exact old receipt earlier
  · intro e balances amount old receipt member
    exact old receipt (by simpa using member)

end KeeperNetwork
