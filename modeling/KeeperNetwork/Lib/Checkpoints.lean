import Mathlib.Data.List.Basic
import Mathlib.Tactic.Common

/-!
Timed records stored by index, one per moment, and the halving search that finds the last one
whose moment has come.
-/

namespace Checkpoints

variable {α : Type}

section Search

/--
Halve an interval of indices for the last entry that passes a test.

Nothing is returned when an entry is missing or the fuel runs out.
-/
def searchLast (entry : Nat → Option α) (passes : α → Bool) :
    Nat → Int → Int → Int → Option Int
  | 0, _, _, _ => none
  | fuel + 1, low, high, answer =>
    if low ≤ high then do
      let mid := low + (high - low) / 2
      let found ← entry mid.toNat
      if passes found then searchLast entry passes fuel (mid + 1) high mid
      else searchLast entry passes fuel low (mid - 1) answer
    else some answer

/-- An index answers a search of an interval when it holds the last passing entry of it. -/
def Answers (entry : Nat → Option α) (passes : α → Bool) (low high fallback answer : Int) :
    Prop :=
  -- Past the answer everything fails; where nothing passes the fallback is the answer.
  (∀ index : Int, low ≤ index → answer < index → index ≤ high →
      ∀ found, entry index.toNat = some found → passes found = false) ∧
    (answer = fallback ∨
      low ≤ answer ∧ answer ≤ high ∧ ∃ found, entry answer.toNat = some found ∧ passes found)

variable {entry : Nat → Option α} {passes : α → Bool}

/-- With enough fuel the search finds the last entry that passes. -/
private theorem searchLast_answers (fuel : Nat) :
    ∀ low high fallback : Int, 0 ≤ low → low ≤ high + 1 → high - low + 1 < fuel →
    (∀ index : Int, low ≤ index → index ≤ high → ∃ found, entry index.toNat = some found) →
    (∀ first second : Int, low ≤ first → first ≤ second → second ≤ high →
      ∀ earlier later, entry first.toNat = some earlier → entry second.toNat = some later →
        passes later → passes earlier) →
    ∃ answer, searchLast entry passes fuel low high fallback = some answer ∧
      Answers entry passes low high fallback answer := by
  -- Each round halves the interval, so the fuel outlasts it.
  induction fuel with
  | zero =>
    intro low high fallback nonneg adjacent enough stored monotone
    omega
  | succ fuel ih =>
    intro low high fallback nonneg adjacent enough stored monotone
    unfold searchLast
    split
    · have lower : low ≤ low + (high - low) / 2 := by omega
      have upper : low + (high - low) / 2 ≤ high := by omega
      obtain ⟨found, here⟩ := stored _ lower upper
      simp only [here, Option.bind_eq_bind, Option.bind_some]
      split
      · -- The middle passes, so the answer is the middle or something after it.
        rename_i passed
        obtain ⟨answer, ended, later, source⟩ := ih (low + (high - low) / 2 + 1) high
          (low + (high - low) / 2) (by omega) (by omega) (by omega)
          (fun index above below => stored index (by omega) below)
          (fun first second above => monotone first second (by omega))
        refine ⟨answer, ended, ?_, .inr ?_⟩
        · intro index above past below
          exact later index (by omega) past below
        · rcases source with rfl | ⟨beyond, within, reached⟩
          · exact ⟨lower, upper, found, here, passed⟩
          · exact ⟨by omega, within, reached⟩
      · -- The middle fails, and by monotonicity so does everything after it.
        rename_i failed
        obtain ⟨answer, ended, later, source⟩ := ih low (low + (high - low) / 2 - 1) fallback
          nonneg (by omega) (by omega) (fun index above below => stored index above (by omega))
          (fun first second above ordered below => monotone first second above ordered (by omega))
        refine ⟨answer, ended, ?_, ?_⟩
        · intro index above past below other holds
          by_cases before : index ≤ low + (high - low) / 2 - 1
          · exact later index above past before other holds
          · by_contra passing
            exact failed (monotone _ index lower (by omega) below found other here holds
              (by simpa using passing))
        · exact source.imp_right fun ⟨beyond, within, reached⟩ => ⟨beyond, by omega, reached⟩
    · -- An empty interval leaves the fallback.
      exact ⟨fallback, rfl, fun index _ _ _ => absurd (show low ≤ high by omega) ‹_›, .inl rfl⟩

end Search

section Log

/-- Records kept latest first are stored by their position from the oldest. -/
def Stored (entry : Nat → Option α) : List α → Prop
  | [] => True
  | latest :: earlier => entry earlier.length = some latest ∧ Stored entry earlier

/-- Add a record, replacing the latest one when it is of the same moment. -/
def record (moment : α → Nat) (new : α) : List α → List α
  | [] => [new]
  | latest :: earlier =>
    if moment latest = moment new then new :: earlier else new :: latest :: earlier

/-- Every record is of a later moment than those before it, and none is of the future. -/
def Ordered (moment : α → Nat) (now : Nat) : List α → Prop
  | [] => True
  | latest :: earlier =>
    moment latest ≤ now ∧ Ordered moment now earlier ∧
      ∀ older ∈ earlier, moment older < moment latest

def inForce (moment : α → Nat) (at_ : Nat) (records : List α) : Option α :=
  records.find? fun made => moment made ≤ at_

variable {entry changed : Nat → Option α} {moment : α → Nat} {now : Nat} {records : List α}

theorem inForce_record (new : α) (at_ : Nat) (records : List α) :
    inForce moment at_ (record moment new records) =
      if moment new ≤ at_ then some new else inForce moment at_ records := by
  unfold inForce
  cases records with
  | nil => by_cases made : moment new ≤ at_ <;> simp [record, made]
  | cons latest earlier =>
    -- A replaced record was not in force before the moment of its replacement.
    simp only [record]
    split
    · rename_i same
      by_cases made : moment new ≤ at_ <;> simp [same, made]
    · by_cases made : moment new ≤ at_ <;> simp [List.find?_cons, made]

/-- Every record stays ordered as time passes. -/
theorem Ordered.later {future : Nat} (ordered : Ordered moment now records)
    (passed : now ≤ future) : Ordered moment future records := by
  induction records with
  | nil => trivial
  | cons latest earlier ih =>
    exact ⟨Nat.le_trans ordered.1 passed, ih ordered.2.1, ordered.2.2⟩

theorem Ordered.record {new : α} (ordered : Ordered moment now records) (made : moment new = now) :
    Ordered moment now (record moment new records) := by
  cases records with
  | nil => exact ⟨Nat.le_of_eq made, trivial, fun older none => by simp at none⟩
  | cons latest earlier =>
    simp only [Checkpoints.record]
    split
    · rename_i same
      exact ⟨Nat.le_of_eq made, ordered.2.1, same ▸ ordered.2.2⟩
    · refine ⟨Nat.le_of_eq made, ordered, ?_⟩
      intro older member
      rcases List.mem_cons.mp member with rfl | older
      · have := ordered.1
        omega
      · have := ordered.2.2 _ older
        have := ordered.1
        omega

theorem Stored.congr (stored : Stored entry records)
    (same : ∀ index < records.length, changed index = entry index) : Stored changed records := by
  induction records with
  | nil => trivial
  | cons latest earlier ih =>
    rw [List.length_cons] at same
    refine ⟨?_, ih stored.2 fun index below => same index (by omega)⟩
    rw [same _ (Nat.lt_succ_self _)]
    exact stored.1

theorem Stored.push {new : α} (stored : Stored entry records)
    (same : ∀ index < records.length, changed index = entry index)
    (behind : changed records.length = some new) : Stored changed (new :: records) :=
  ⟨behind, stored.congr same⟩

/-- Every position below the number of records holds one of them. -/
theorem Stored.get (stored : Stored entry records) {index : Nat} (below : index < records.length) :
    ∃ made ∈ records, entry index = some made := by
  induction records with
  | nil => simp at below
  | cons latest earlier ih =>
    rw [List.length_cons] at below
    by_cases last : index = earlier.length
    · exact ⟨latest, List.mem_cons_self, last ▸ stored.1⟩
    · obtain ⟨made, member, here⟩ := ih stored.2 (by omega)
      exact ⟨made, List.mem_cons_of_mem _ member, here⟩

/-- A later position holds a record of a later moment. -/
theorem Stored.moment_lt (stored : Stored entry records) (ordered : Ordered moment now records)
    {first second : Nat} {earlier later : α} (below : second < records.length)
    (before : first < second) (left : entry first = some earlier)
    (right : entry second = some later) : moment earlier < moment later := by
  induction records with
  | nil => simp at below
  | cons latest older ih =>
    rw [List.length_cons] at below
    by_cases last : second = older.length
    · -- The later position holds the latest record, and every other one is older than that.
      obtain rfl : later = latest := by
        have := stored.1
        rw [← last, right] at this
        simpa using this
      obtain ⟨made, member, here⟩ := stored.2.get (show first < older.length by omega)
      obtain rfl : made = earlier := by simpa [left] using here.symm
      exact ordered.2.2 _ member
    · exact ih stored.2 ordered.2.1 (by omega)

theorem Stored.moment_le (stored : Stored entry records) (ordered : Ordered moment now records)
    {first second : Nat} {earlier later : α} (below : second < records.length)
    (before : first ≤ second) (left : entry first = some earlier)
    (right : entry second = some later) : moment earlier ≤ moment later := by
  rcases Nat.eq_or_lt_of_le before with rfl | before
  · -- One position holds one record.
    obtain rfl : earlier = later := Option.some.inj (left.symm.trans right)
    exact Nat.le_refl _
  · exact Nat.le_of_lt (stored.moment_lt ordered below before left right)

private theorem find_of_last (stored : Stored entry records) {passes : α → Bool} {index : Nat}
    {made : α}
    (below : index < records.length) (here : entry index = some made) (passed : passes made)
    (rest : ∀ other, index < other → other < records.length →
      ∀ found, entry other = some found → passes found = false) :
    records.find? passes = some made := by
  induction records with
  | nil => simp at below
  | cons latest earlier ih =>
    rw [List.length_cons] at below rest
    by_cases last : index = earlier.length
    · obtain rfl : made = latest := by
        have := stored.1
        rw [← last, here] at this
        simpa using this
      simp [passed]
    · have failed := rest earlier.length (by omega) (by omega) latest stored.1
      rw [List.find?_cons, failed]
      exact ih stored.2 (by omega) fun other above within => rest other above (by omega)

private theorem find_of_none (stored : Stored entry records) {passes : α → Bool}
    (failed : ∀ index < records.length, ∀ found, entry index = some found →
      passes found = false) : records.find? passes = none := by
  induction records with
  | nil => rfl
  | cons latest earlier ih =>
    rw [List.length_cons] at failed
    rw [List.find?_cons, failed earlier.length (Nat.lt_succ_self _) latest stored.1]
    exact ih stored.2 fun index below => failed index (by omega)

theorem searchLast_inForce (stored : Stored entry records) (ordered : Ordered moment now records)
    (at_ : Nat) :
    ∃ answer, searchLast entry (fun made => moment made ≤ at_) (records.length + 1) 0
        ((records.length : Int) - 1) (-1) = some answer ∧
      (answer < 0 ∧ inForce moment at_ records = none ∨
        0 ≤ answer ∧ ∃ made, entry answer.toNat = some made ∧
          inForce moment at_ records = some made) := by
  obtain ⟨answer, ended, later, source⟩ := @searchLast_answers α entry
    (fun made => moment made ≤ at_) (records.length + 1) 0 ((records.length : Int) - 1)
    (-1) (by omega) (by omega) (by omega)
    (fun index above below => by
      obtain ⟨made, -, here⟩ := stored.get (show index.toNat < records.length by omega)
      exact ⟨made, here⟩)
    (fun first second above before below earlier late left right passed => by
      have := stored.moment_le ordered (show second.toNat < records.length by omega)
        (show first.toNat ≤ second.toNat by omega) left right
      simp only [decide_eq_true_eq] at passed ⊢
      omega)
  refine ⟨answer, ended, ?_⟩
  rcases source with rfl | ⟨nonneg, within, made, here, passed⟩
  · refine .inl ⟨by omega, find_of_none stored fun index below found here => ?_⟩
    exact later index (by omega) (by omega) (by omega) found (by simpa using here)
  · refine .inr ⟨nonneg, made, here,
      find_of_last stored (by omega) here passed fun other above below found there => ?_⟩
    exact later other (by omega) (by omega) (by omega) found (by simpa using there)

end Log

end Checkpoints
