import Mathlib.Data.List.Basic
import Mathlib.Order.Lattice
import Mathlib.Tactic.Common

/-! Logs whose entries ascend by a key, and what is left of one beyond a mark. -/

namespace Log

variable {α κ : Type*} [LinearOrder κ] (key : α → κ)

/-- Every entry has a greater key than the entries before it. -/
def Ascending (log : List α) : Prop := log.Pairwise fun earlier later => key earlier < key later

def beyond (mark : κ) (log : List α) : List α := log.filter fun entry => mark < key entry

variable {key} {mark lower : κ} {log front back : List α} {entry last : α}

@[simp] theorem mem_beyond : entry ∈ beyond key mark log ↔ entry ∈ log ∧ mark < key entry := by
  simp [beyond]

/-- What is beyond the mark in two logs in a row. -/
theorem beyond_append :
    beyond key mark (front ++ back) = beyond key mark front ++ beyond key mark back :=
  List.filter_append ..

theorem beyond_beyond (later : lower ≤ mark) :
    beyond key mark (beyond key lower log) = beyond key mark log := by
  unfold beyond
  rw [List.filter_filter]
  refine List.filter_congr fun entry _ => ?_
  have implied : mark < key entry → lower < key entry := lt_of_le_of_lt later
  by_cases past : mark < key entry
  · simp [past, implied past]
  · simp [past]

theorem Ascending.filter (ascending : Ascending key log) (keep : α → Bool) :
    Ascending key (log.filter keep) := List.Pairwise.filter keep ascending

theorem Ascending.beyond_entry (ascending : Ascending key (front ++ last :: back)) :
    beyond key (key last) (front ++ last :: back) = back := by
  obtain ⟨-, fromLast, across⟩ := List.pairwise_append.mp ascending
  -- The entries in front have smaller keys, and those behind have greater ones.
  have frontBelow : beyond key (key last) front = [] :=
    List.filter_eq_nil_iff.mpr fun entry member =>
      by simpa using (across entry member last List.mem_cons_self).le
  have backBeyond : beyond key (key last) back = back :=
    List.filter_eq_self.mpr fun entry member =>
      by simpa using (List.pairwise_cons.mp fromLast).1 entry member
  rw [beyond_append, frontBelow, ← List.singleton_append, beyond_append, backBeyond]
  simp [beyond]

/-- The page of an ascending log ends where what is beyond its last entry begins. -/
theorem Ascending.take_append_beyond {first : α} {rest : List α} {size : Nat}
    (ascending : Ascending key log) (page : log.take size = first :: rest) :
    log = first :: rest ++ beyond key (key (rest.getLastD first)) log := by
  have whole : log = first :: rest ++ log.drop size := by
    rw [← page, List.take_append_drop]
  -- The page is its last entry with something in front.
  obtain ⟨front, split⟩ : ∃ front, first :: rest = front ++ [rest.getLastD first] := by
    refine ⟨(first :: rest).dropLast, ?_⟩
    conv_lhs => rw [← List.dropLast_append_getLast (List.cons_ne_nil first rest)]
    rw [List.getLast_eq_getLastD]
  have around : log = front ++ rest.getLastD first :: log.drop size := by
    rw [split] at whole
    simpa using whole
  have left : beyond key (key (rest.getLastD first)) log = log.drop size := by
    conv_lhs => rw [around]
    exact Ascending.beyond_entry (around ▸ ascending)
  rw [left]
  exact whole

end Log
