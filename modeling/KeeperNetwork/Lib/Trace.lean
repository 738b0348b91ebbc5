import Mathlib.Algebra.BigOperators.Group.List.Basic
import Mathlib.Algebra.Order.Group.Int
import Mathlib.Algebra.Ring.Int.Defs
import Mathlib.Tactic.Common

/-! Runs of a labelled transition system, which remember the label of every step they took. -/

variable {State Label : Type*}

/-- A run from a start state, with the labels of its steps latest first. -/
inductive Trace (step : State → Label → State → Prop) (start : State) :
    List Label → State → Prop
  | nil : Trace step start [] start
  | snoc {labels : List Label} {before after : State} {label : Label}
      (run : Trace step start labels before) (last : step before label after) :
      Trace step start (label :: labels) after

namespace Trace

variable {step : State → Label → State → Prop} {start middle finish : State}
  {labels later : List Label}

theorem single {label : Label} (once : step start label finish) :
    Trace step start [label] finish := nil.snoc once

/-- Two runs in a row are one run. -/
theorem append (first : Trace step start labels middle) (second : Trace step middle later finish) :
    Trace step start (later ++ labels) finish := by
  -- The later run is attached to the earlier one step by step.
  induction second with
  | nil => exact first
  | snoc _ last ih => exact ih.snoc last

/-- What every step preserves, every run preserves. -/
theorem preserves {holds : State → Prop}
    (kept : ∀ before label after, step before label after → holds before → holds after)
    (run : Trace step start labels finish) (initially : holds start) : holds finish := by
  induction run with
  | nil => exact initially
  | snoc _ last ih => exact kept _ _ _ last ih

/--
A quantity that every allowed step changes by the flow of its label changes by all the flows.

The booking may rely on an invariant, which the allowed steps keep.
-/
theorem books {holds : State → Prop} {allowed : Label → Prop} {stock : State → Int}
    {flow : Label → Int}
    (booked : ∀ before label after, step before label after → allowed label → holds before →
      holds after ∧ stock after = stock before + flow label) (run : Trace step start labels finish)
    (always : ∀ label ∈ labels, allowed label) (initially : holds start) :
    holds finish ∧ stock finish = stock start + (labels.map flow).sum := by
  induction run with
  | nil => exact ⟨initially, by simp⟩
  | snoc _ last ih =>
    obtain ⟨kept, sum⟩ := ih fun label member => always label (List.mem_cons_of_mem _ member)
    obtain ⟨held, change⟩ := booked _ _ _ last (always _ List.mem_cons_self) kept
    refine ⟨held, ?_⟩
    rw [change, sum, List.map_cons, List.sum_cons]
    omega

/-- A quantity that every step changes by the flow of its label changes by all the flows. -/
theorem counts {stock : State → Int} {flow : Label → Int}
    (counted : ∀ before label after, step before label after →
      stock after = stock before + flow label) (run : Trace step start labels finish) :
    stock finish = stock start + (labels.map flow).sum :=
  (run.books (fun _ _ _ last (_ : True) (_ : True) => ⟨trivial, counted _ _ _ last⟩)
    (fun _ _ => trivial) trivial).2

section Script

variable {Turn : Type*} {next : State → Turn → State} {legal : State → Turn → Prop}
  {label : Turn → Label}

def Playable (next : State → Turn → State) (legal : State → Turn → Prop) :
    State → List Turn → Prop
  | _, [] => True
  | state, turn :: rest => legal state turn ∧ Playable next legal (next state turn) rest

/-- Whether a script can be played is decided by playing it. -/
instance playableDecidable [∀ state turn, Decidable (legal state turn)] (state : State)
    (script : List Turn) : Decidable (Playable next legal state script) :=
  match script with
  | [] => inferInstanceAs (Decidable True)
  | turn :: rest =>
    have := playableDecidable (next state turn) rest
    inferInstanceAs (Decidable (legal state turn ∧ Playable next legal (next state turn) rest))

/-- A script whose legal turns are steps plays out a run. -/
theorem of_playable (sound : ∀ state turn, legal state turn →
      step state (label turn) (next state turn)) :
    ∀ (script : List Turn) {start : State}, Playable next legal start script →
      Trace step start (script.map label).reverse (script.foldl next start)
  | [], _, _ => nil
  | turn :: rest, start, playable => by
    -- The first turn is a run of one step, and the rest is played from where it leads.
    have first := single (sound start turn playable.1)
    rw [List.map_cons, List.reverse_cons, List.foldl_cons]
    exact first.append (of_playable sound rest playable.2)

/-- A script of turns that are possible plays out a run, where a turn may fail to be possible. -/
theorem of_advance {advance : State → Label → Option State} {legal : State → Label → Prop}
    (possible : ∀ state turn, legal state turn → (advance state turn).isSome = true)
    (sound : ∀ state turn next, legal state turn → advance state turn = some next →
      step state turn next) (script : List Label)
    (playable : Playable (fun state turn => (advance state turn).getD state) legal start script) :
    Trace step start script.reverse
      (script.foldl (fun state turn => (advance state turn).getD state) start) := by
  have steps (state : State) (turn : Label) (allowed : legal state turn) :
      step state (id turn) ((advance state turn).getD state) := by
    obtain ⟨next, found⟩ := Option.isSome_iff_exists.mp (possible state turn allowed)
    rw [found]
    exact sound state turn next allowed found
  have run := of_playable steps script playable
  rwa [List.map_id] at run

end Script

end Trace
