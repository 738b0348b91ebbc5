import KeeperNetwork.Lib.FiniteMap

/-! How many keys a finite map stores, and the part of a map that meets a condition. -/

namespace Finmap

variable {K V : Type*} [DecidableEq K] {m : Finmap fun _ : K => V} {key : K} {value : V}
  {kept : K → V → Bool}

/-- The number of keys that the map stores. -/
def size (m : Finmap fun _ : K => V) : Nat := m.entries.card

/-- The entries of the map that meet a condition. -/
def keep (kept : K → V → Bool) (m : Finmap fun _ : K => V) : Finmap fun _ : K => V where
  entries := m.entries.filter fun entry => kept entry.1 entry.2
  nodupKeys := by
    rw [← Multiset.nodup_keys]
    exact Multiset.nodup_of_le (Multiset.map_le_map (Multiset.filter_le _ _))
      (Multiset.nodup_keys.mpr m.nodupKeys)

omit [DecidableEq K] in
/-- An empty map stores no key. -/
@[simp] theorem size_empty : size (∅ : Finmap fun _ : K => V) = 0 := rfl

/-- What is kept is what was stored and meets the condition. -/
theorem lookup_keep : (m.keep kept).lookup key = some value ↔
    m.lookup key = some value ∧ kept key value = true := by
  rw [← Option.mem_def, mem_lookup_iff, ← Option.mem_def, mem_lookup_iff]
  exact Multiset.mem_filter

omit [DecidableEq K] in
/-- Keeping a part does not store more keys. -/
theorem size_keep_le : (m.keep kept).size ≤ m.size := Multiset.card_le_card (Multiset.filter_le _ _)

/-- A new key is one more. -/
theorem size_insert_of_notMem (absent : key ∉ m) : (m.insert key value).size = m.size + 1 := by
  unfold size
  rw [entries_insert_of_notMem absent, Multiset.card_cons]

theorem size_erase_of_mem (present : key ∈ m) : (m.erase key).size + 1 = m.size := by
  obtain ⟨value, found⟩ := mem_iff.mp present
  rw [← size_insert_of_notMem notMem_erase_self, insert_erase_of_lookup found]

/-- Writing a stored key does not change their number. -/
theorem size_insert_of_mem (present : key ∈ m) : (m.insert key value).size = m.size := by
  -- Both maps are the same once the key is erased.
  have same : (m.insert key value).erase key = m.erase key := by
    apply ext_lookup
    intro other
    rw [lookup_erase_eq, lookup_erase_eq, lookup_insert_eq]
    by_cases equal : other = key
    · rw [if_pos equal, if_pos equal]
    · rw [if_neg equal, if_neg equal, if_neg equal]
  rw [← size_erase_of_mem (mem_insert.mpr (.inl rfl)), same, size_erase_of_mem present]

end Finmap
