import Mathlib.Data.Finmap
import Mathlib.Algebra.BigOperators.Group.Multiset.Basic
import Mathlib.Algebra.Order.BigOperators.Group.Multiset
import Mathlib.Algebra.Order.Group.Int
import Mathlib.Tactic.Abel

/-! Weighted totals of a finite map, and how inserting or erasing one key changes them. -/

namespace Finmap

variable {K V : Type*} [DecidableEq K]

/-- Reading back after a write finds the new value at its key and the old values elsewhere. -/
theorem lookup_insert_eq (m : Finmap fun _ : K => V) (key other : K) (value : V) :
    (m.insert key value).lookup other = if other = key then some value else m.lookup other := by
  by_cases same : other = key
  · subst same
    rw [lookup_insert, if_pos rfl]
  · rw [lookup_insert_of_ne _ same, if_neg same]

/-- A reader with a default sees a write at its key and nothing of it elsewhere. -/
theorem getD_lookup_insert (m : Finmap fun _ : K => V) (key other : K) (value default : V) :
    ((m.insert key value).lookup other).getD default =
      if other = key then value else (m.lookup other).getD default := by
  rw [lookup_insert_eq]
  split <;> rfl

/-- Reading back after a removal finds nothing at its key and the old values elsewhere. -/
theorem lookup_erase_eq (m : Finmap fun _ : K => V) (key other : K) :
    (m.erase key).lookup other = if other = key then none else m.lookup other := by
  by_cases same : other = key
  · subst same
    rw [lookup_erase, if_pos rfl]
  · rw [lookup_erase_ne same, if_neg same]

variable {key : K} {value : V}

theorem lookup_of_erase {m : Finmap fun _ : K => V} {other : K}
    (found : (m.erase key).lookup other = some value) : m.lookup other = some value := by
  rw [lookup_erase_eq] at found
  split at found
  · cases found
  · exact found

/-- Putting an erased value back restores the map. -/
theorem insert_erase_of_lookup {m : Finmap fun _ : K => V} (found : m.lookup key = some value) :
    (m.erase key).insert key value = m := by
  apply ext_lookup
  intro other
  rw [lookup_insert_eq, lookup_erase_eq]
  by_cases equal : other = key
  · rw [if_pos equal, equal, found]
  · rw [if_neg equal, if_neg equal]

/-- Every stored value satisfies a predicate, together with its key. -/
def All (holds : K → V → Prop) (m : Finmap fun _ : K => V) : Prop :=
  ∀ key value, m.lookup key = some value → holds key value

namespace All

variable {holds : K → V → Prop} {m : Finmap fun _ : K => V}

/-- Nothing is stored in an empty map. -/
theorem empty (holds : K → V → Prop) : All holds (∅ : Finmap fun _ : K => V) := by
  intro key value found
  simp at found

/-- A predicate of every stored value may be weakened. -/
theorem imp {wider : K → V → Prop} (all : m.All holds)
    (weaker : ∀ key value, holds key value → wider key value) : m.All wider :=
  fun key value found => weaker key value (all key value found)

/-- Writing a value that satisfies the predicate keeps it. -/
theorem insert (all : m.All holds) (here : holds key value) : (m.insert key value).All holds := by
  intro other stored found
  rw [lookup_insert_eq] at found
  split at found
  · rename_i same
    rw [Option.some.injEq] at found
    exact same ▸ found ▸ here
  · exact all other stored found

/-- Removing a key keeps a predicate of every stored value. -/
theorem erase (all : m.All holds) (key : K) : (m.erase key).All holds :=
  fun other stored found => all other stored (lookup_of_erase found)

end All

section Group

variable {M : Type*} [AddCommGroup M]

/-- The sum of a weight over every value the map stores. -/
def total (weight : V → M) (m : Finmap fun _ : K => V) : M :=
  -- Keys are distinct, so each stored value is counted exactly once.
  (m.entries.map fun entry => weight entry.2).sum

def weightAt (weight : V → M) (m : Finmap fun _ : K => V) (key : K) : M :=
  (m.lookup key).elim 0 weight

omit [DecidableEq K] in
@[simp] theorem total_empty (weight : V → M) : total weight (∅ : Finmap fun _ : K => V) = 0 := rfl

theorem weightAt_of_lookup (weight : V → M) {m : Finmap fun _ : K => V}
    (found : m.lookup key = some value) : m.weightAt weight key = weight value := by
  simp [weightAt, found]

theorem weightAt_of_lookup_none (weight : V → M) {m : Finmap fun _ : K => V}
    (absent : m.lookup key = none) : m.weightAt weight key = 0 := by
  simp [weightAt, absent]

private theorem total_insert_of_notMem (weight : V → M) {m : Finmap fun _ : K => V}
    (absent : key ∉ m) (value : V) :
    (m.insert key value).total weight = weight value + m.total weight := by
  -- The entries gain one pair, and the sum over a longer multiset gains one term.
  simp [total, entries_insert_of_notMem absent]

theorem total_erase (weight : V → M) (m : Finmap fun _ : K => V) (key : K) :
    (m.erase key).total weight = m.total weight - m.weightAt weight key := by
  cases found : m.lookup key with
  | none =>
    -- Nothing is stored at the key, so the erased map is the map itself.
    have same : m.erase key = m := by
      apply ext_lookup
      intro other
      rw [lookup_erase_eq]
      split
      · rename_i equal; rw [equal, found]
      · rfl
    rw [same, weightAt_of_lookup_none _ found, sub_zero]
  | some value =>
    -- Putting the value back restores the map, and the insertion law counts it once.
    have counted := total_insert_of_notMem weight (notMem_erase_self (a := key) (s := m)) value
    rw [insert_erase_of_lookup found] at counted
    rw [counted, weightAt_of_lookup _ found, add_sub_cancel_left]

/-- Writing a key replaces the weight stored there by the weight of the new value. -/
theorem total_insert (weight : V → M) (m : Finmap fun _ : K => V) (key : K) (value : V) :
    (m.insert key value).total weight =
      m.total weight - m.weightAt weight key + weight value := by
  -- A write is a removal followed by a write to a free key.
  have split : m.insert key value = (m.erase key).insert key value := by
    apply ext_lookup
    intro other
    rw [lookup_insert_eq, lookup_insert_eq, lookup_erase_eq]
    split <;> rfl
  rw [split, total_insert_of_notMem weight notMem_erase_self, total_erase, add_comm]

@[simp] theorem weightAt_insert (weight : V → M) (m : Finmap fun _ : K => V) (key other : K)
    (value : V) :
    (m.insert key value).weightAt weight other =
      if other = key then weight value else m.weightAt weight other := by
  simp only [weightAt, lookup_insert_eq]
  split <;> rfl

@[simp] theorem weightAt_erase (weight : V → M) (m : Finmap fun _ : K => V) (key other : K) :
    (m.erase key).weightAt weight other =
      if other = key then 0 else m.weightAt weight other := by
  simp only [weightAt, lookup_erase_eq]
  split <;> rfl

end Group

theorem total_nonneg {weight : V → Int} {m : Finmap fun _ : K => V}
    (nonneg : ∀ key value, m.lookup key = some value → 0 ≤ weight value) : 0 ≤ m.total weight := by
  apply Multiset.sum_nonneg
  intro amount member
  obtain ⟨entry, stored, rfl⟩ := Multiset.mem_map.mp member
  -- Membership among the entries is the same as being found by lookup.
  exact nonneg entry.1 entry.2 (mem_lookup_iff.mpr stored)

/-- When no stored weight is negative, one key weighs at most as much as the whole map. -/
theorem weightAt_le_total {weight : V → Int} {m : Finmap fun _ : K => V}
    (nonneg : ∀ key value, m.lookup key = some value → 0 ≤ weight value) (key : K) :
    m.weightAt weight key ≤ m.total weight := by
  -- Removing the key leaves a map whose total is still not negative.
  have rest : 0 ≤ (m.erase key).total weight := by
    apply total_nonneg
    intro other value found
    exact nonneg other value (lookup_of_erase found)
  rw [total_erase] at rest
  omega

private theorem insertion_induction {motive : (Finmap fun _ : K => V) → Prop} (empty : motive ∅)
    (insert : ∀ (key : K) (value : V) (m : Finmap fun _ : K => V), key ∉ m → motive m →
      motive (m.insert key value)) (m : Finmap fun _ : K => V) : motive m := by
  refine m.induction_on fun list => ?_
  induction list using AList.insertRec with
  | H0 => exact empty
  | IH key value list absent ih =>
    rw [← insert_toFinmap]
    exact insert key value _ absent ih

/-- The weights at distinct keys that cover the map add up to its total. -/
theorem sum_weightAt {M : Type*} [AddCommGroup M] (weight : V → M) (m : Finmap fun _ : K => V)
    {keys : List K} (distinct : keys.Nodup) (covers : ∀ key ∈ m, key ∈ keys) :
    (keys.map (m.weightAt weight)).sum = m.total weight := by
  induction m using insertion_induction with
  | empty =>
    refine List.sum_eq_zero fun amount member => ?_
    obtain ⟨key, -, rfl⟩ := List.mem_map.mp member
    exact weightAt_of_lookup_none weight (lookup_empty key)
  | insert key value m absent ih =>
    have listed : key ∈ keys := covers key (mem_insert.mpr (.inl rfl))
    have rest := ih fun other member => covers other (mem_insert.mpr (.inr member))
    -- The new key is listed once, and counts for nothing before it is stored.
    have apart : ∀ other ∈ keys.erase key, other ≠ key := fun other member =>
      ((distinct.mem_erase_iff).mp member).1
    have others : (keys.erase key).map ((m.insert key value).weightAt weight) =
        (keys.erase key).map (m.weightAt weight) :=
      List.map_congr_left fun other member => by rw [weightAt_insert, if_neg (apart other member)]
    have first := ((List.perm_cons_erase listed).map (m.weightAt weight)).sum_eq
    rw [((List.perm_cons_erase listed).map _).sum_eq, total_insert_of_notMem weight absent,
      List.map_cons, List.sum_cons, others, weightAt_insert, if_pos rfl, ← rest, first,
      List.map_cons, List.sum_cons, weightAt_of_lookup_none _ (lookup_eq_none.mpr absent), zero_add]

section Keyed

variable {M : Type*} [AddCommMonoid M]

/-- The sum of a weight over every key and the value the map stores there. -/
def totalBy (weight : K → V → M) (m : Finmap fun _ : K => V) : M :=
  (m.entries.map fun entry => weight entry.1 entry.2).sum

omit [DecidableEq K] in
@[simp] theorem totalBy_empty (weight : K → V → M) :
    totalBy weight (∅ : Finmap fun _ : K => V) = 0 := rfl

theorem totalBy_insert (weight : K → V → M) {m : Finmap fun _ : K => V} (absent : key ∉ m)
    (value : V) : (m.insert key value).totalBy weight = weight key value + m.totalBy weight := by
  simp [totalBy, entries_insert_of_notMem absent]

omit [DecidableEq K] in
theorem totalBy_add (left right : K → V → M) (m : Finmap fun _ : K => V) :
    m.totalBy left + m.totalBy right =
      m.totalBy fun key value => left key value + right key value :=
  Multiset.sum_map_add.symm

end Keyed

/--
Entries that weigh as much as their owners, each with an owner of its own, weigh at most as much
as all owners together.
-/
theorem totalBy_le_total {K' V' : Type*} [DecidableEq K'] {weight : K → V → Int}
    {wealth : V' → Int} (owner : K → K') (counted : K → Prop) (m : Finmap fun _ : K => V)
    (injective : ∀ left right, counted left → counted right → owner left = owner right →
      left = right) :
    ∀ owners : Finmap fun _ : K' => V',
      (∀ key value, owners.lookup key = some value → 0 ≤ wealth value) →
      (∀ key value, m.lookup key = some value → ¬ counted key → weight key value = 0) →
      (∀ key value, m.lookup key = some value → counted key →
        weight key value = owners.weightAt wealth (owner key)) →
      m.totalBy weight ≤ owners.total wealth := by
  -- Each counted entry is paid for by its owner, who then leaves.
  induction m using insertion_induction with
  | empty =>
    intro owners nonneg _ _
    exact total_nonneg nonneg
  | insert key value m absent ih =>
    intro owners nonneg uncounted paid
    have missing : m.lookup key = none := lookup_eq_none.mpr absent
    -- The entries of the smaller map are entries of the larger one.
    have older {other : K} {stored : V} (found : m.lookup other = some stored) :
        other ≠ key ∧ (m.insert key value).lookup other = some stored := by
      have apart : other ≠ key := by
        rintro rfl
        rw [missing] at found
        cases found
      exact ⟨apart, by rw [lookup_insert_of_ne _ apart, found]⟩
    rw [totalBy_insert weight absent]
    by_cases here : counted key
    · have rest := ih (owners.erase (owner key))
        (fun other stored found => nonneg other stored (lookup_of_erase found))
        (fun other stored found => uncounted other stored (older found).2)
        (fun other stored found is => by
          have apart : owner other ≠ owner key := fun same =>
            (older found).1 (injective other key is here same)
          rw [paid other stored (older found).2 is, weightAt_erase, if_neg apart])
      rw [total_erase, ← paid key value (lookup_insert _) here] at rest
      omega
    · have rest := ih owners nonneg
        (fun other stored found => uncounted other stored (older found).2)
        (fun other stored found => paid other stored (older found).2)
      rw [uncounted key value (lookup_insert _) here]
      omega

end Finmap
