import Mathlib.Data.List.Induction
import Mathlib.Data.List.Nodup

/-! Rows gathered into groups one by one, each row added to the group of its key. -/

/-- How rows are gathered into groups, where starting or extending a group may fail. -/
structure Grouping (Row Group Key : Type) where
  rowKey : Row → Key
  key : Group → Key
  start : Row → Option Group
  extend : Group → Row → Option Group
  key_start : ∀ {row group}, start row = some group → key group = rowKey row
  key_extend : ∀ {group row group'}, extend group row = some group' → key group' = key group

namespace Grouping

variable {Row Group Key : Type} [DecidableEq Key] (grouping : Grouping Row Group Key)

/-- Add a row to the first group of its key, or start a new one at the end. -/
def add (row : Row) : List Group → Option (List Group)
  | [] => (grouping.start row).map ([·])
  | group :: rest =>
    if grouping.key group = grouping.rowKey row then
      (grouping.extend group row).map (· :: rest)
    else (add row rest).map (group :: ·)

/-- The groups of some rows, in the order in which their keys first appear. -/
def gather (rows : List Row) : Option (List Group) :=
  rows.foldlM (fun groups row => grouping.add row groups) []

def alone : List Row → Option Group
  | [] => none
  | first :: rest => (grouping.start first).bind fun group => rest.foldlM grouping.extend group

def rowsOf (rows : List Row) (key : Key) : List Row :=
  rows.filter fun row => grouping.rowKey row = key

variable {grouping} {row : Row} {rows : List Row} {group group' : Group}
  {groups groups' : List Group} {key : Key}

private theorem add_cases (added : grouping.add row groups = some groups') :
    (∃ front old new back, groups = front ++ old :: back ∧ groups' = front ++ new :: back ∧
      grouping.key old = grouping.rowKey row ∧ grouping.extend old row = some new) ∨
    (∀ group ∈ groups, grouping.key group ≠ grouping.rowKey row) ∧
      ∃ new, groups' = groups ++ [new] ∧ grouping.start row = some new := by
  induction groups generalizing groups' with
  | nil =>
    obtain ⟨new, started, rfl⟩ := Option.map_eq_some_iff.mp added
    exact .inr ⟨List.forall_mem_nil _, new, rfl, started⟩
  | cons group rest ih =>
    -- The first group either has the key of the row or is passed by.
    unfold add at added
    split at added
    · next same =>
      obtain ⟨new, extended, rfl⟩ := Option.map_eq_some_iff.mp added
      exact .inl ⟨[], group, new, rest, rfl, rfl, same, extended⟩
    · next other =>
      obtain ⟨rest', inner, rfl⟩ := Option.map_eq_some_iff.mp added
      rcases ih inner with ⟨front, old, new, back, rfl, rfl, same, extended⟩ |
        ⟨none, new, rfl, began⟩
      · exact .inl ⟨group :: front, old, new, back, rfl, rfl, same, extended⟩
      · exact .inr ⟨List.forall_mem_cons.mpr ⟨other, none⟩, new, rfl, began⟩

private theorem add_isSome
    (extends' : ∀ group ∈ groups, grouping.key group = grouping.rowKey row →
      (grouping.extend group row).isSome)
    (starts : (∀ group ∈ groups, grouping.key group ≠ grouping.rowKey row) →
      (grouping.start row).isSome) : (grouping.add row groups).isSome := by
  -- The walk stops at the first group of the key, or at the end.
  induction groups with
  | nil => simpa [add] using starts (List.forall_mem_nil _)
  | cons group rest ih =>
    obtain ⟨here, later⟩ := List.forall_mem_cons.mp extends'
    unfold add
    split
    · next same => simpa using here same
    · next other =>
      have inner := ih later fun none => starts (List.forall_mem_cons.mpr ⟨other, none⟩)
      simpa using inner

private theorem rowsOf_concat (rows : List Row) (row : Row) (key : Key) :
    grouping.rowsOf (rows ++ [row]) key =
      if grouping.rowKey row = key then grouping.rowsOf rows key ++ [row]
      else grouping.rowsOf rows key := by
  by_cases same : grouping.rowKey row = key <;> simp [rowsOf, same]

omit [DecidableEq Key] in
/-- One more row extends the group that the rows before it make. -/
theorem alone_concat (nonempty : rows ≠ []) :
    grouping.alone (rows ++ [row]) =
      (grouping.alone rows).bind fun group => grouping.extend group row := by
  -- The rows before it have started a group.
  cases rows with
  | nil => exact absurd rfl nonempty
  | cons first rest =>
    simp only [alone, List.cons_append, List.foldlM_append, List.foldlM_cons, List.foldlM_nil,
      Option.bind_eq_bind, Option.bind_assoc, Option.pure_def, Option.bind_fun_some]

/-- The groups are exactly those of the rows. -/
structure Exact (grouping : Grouping Row Group Key) (rows : List Row) (groups : List Group) :
    Prop where
  distinct : (groups.map grouping.key).Nodup
  keys : ∀ key, key ∈ groups.map grouping.key ↔ key ∈ rows.map grouping.rowKey
  exact : ∀ group ∈ groups, grouping.alone (grouping.rowsOf rows (grouping.key group)) = some group

theorem Exact.rowsOf_nil (exactly : Exact grouping rows groups)
    (absent : ∀ group ∈ groups, grouping.key group ≠ key) : grouping.rowsOf rows key = [] := by
  -- A row of the key would have a group.
  refine List.filter_eq_nil_iff.mpr fun row member same => ?_
  have listed : key ∈ rows.map grouping.rowKey :=
    List.mem_map.mpr ⟨row, member, of_decide_eq_true same⟩
  obtain ⟨group, present, named⟩ := List.mem_map.mp ((exactly.keys key).mpr listed)
  exact absent group present named

theorem Exact.rowsOf_ne_nil (exactly : Exact grouping rows groups) (member : group ∈ groups) :
    grouping.rowsOf rows (grouping.key group) ≠ [] := by
  -- Nothing can be made of no rows.
  intro empty
  have made := exactly.exact group member
  rw [empty] at made
  cases made

/-- Adding a row keeps the groups exact. -/
theorem Exact.add (exactly : Exact grouping rows groups)
    (added : grouping.add row groups = some groups') : Exact grouping (rows ++ [row]) groups' := by
  have unrelated : ∀ group ∈ groups, grouping.key group ≠ grouping.rowKey row →
      grouping.alone (grouping.rowsOf (rows ++ [row]) (grouping.key group)) = some group := by
    intro group member other
    rw [rowsOf_concat, if_neg (Ne.symm other)]
    exact exactly.exact group member
  rcases add_cases added with ⟨front, old, new, back, rfl, rfl, same, extended⟩ |
    ⟨none, new, rfl, began⟩
  · -- The group of the row is extended, and keeps its key.
    have kept := grouping.key_extend extended
    have keys : (front ++ new :: back).map grouping.key =
        (front ++ old :: back).map grouping.key := by
      simp [kept]
    refine ⟨keys ▸ exactly.distinct, fun key => ?_, fun group member => ?_⟩
    · rw [keys, exactly.keys key, List.map_append, List.mem_append]
      refine ⟨.inl, ?_⟩
      rintro (old_row | new_row)
      · exact old_row
      · -- The key of the row was there already.
        obtain rfl : key = grouping.rowKey row := by simpa using new_row
        refine (exactly.keys _).mp ?_
        exact List.mem_map.mpr ⟨old, by simp, same⟩
    · have separate := exactly.distinct
      rw [List.map_append, List.map_cons, List.nodup_middle, List.nodup_cons] at separate
      have others : ∀ other ∈ front ++ back, grouping.key other ≠ grouping.rowKey row := by
        intro other present clash
        refine separate.1 ?_
        rw [← List.map_append]
        exact List.mem_map.mpr ⟨other, present, clash.trans same.symm⟩
      rcases List.mem_append.mp member with before | rest
      · exact unrelated group (by simp [before]) (others group (by simp [before]))
      · rcases List.mem_cons.mp rest with rfl | after
        · -- The rows of the key are those of the old group, and the new one.
          rw [rowsOf_concat, if_pos (kept.trans same).symm, kept,
            alone_concat (exactly.rowsOf_ne_nil (by simp)), exactly.exact old (by simp)]
          exact extended
        · exact unrelated group (by simp [after]) (others group (by simp [after]))
  · -- The row starts a group of its own.
    have named := grouping.key_start began
    refine ⟨?_, fun key => ?_, fun group member => ?_⟩
    · rw [List.map_append, List.nodup_append]
      refine ⟨exactly.distinct, by simp, ?_⟩
      intro key listed other single
      obtain ⟨group, present, rfl⟩ := List.mem_map.mp listed
      obtain rfl : other = grouping.key new := by simpa using single
      exact named ▸ none group present
    · simp [← exactly.keys key, named]
    · rcases List.mem_append.mp member with present | last
      · exact unrelated group present (none group present)
      · obtain rfl := List.mem_singleton.mp last
        rw [rowsOf_concat, if_pos named.symm, named, exactly.rowsOf_nil none]
        simpa [alone] using began

theorem gather_exact (gathered : grouping.gather rows = some groups) :
    Exact grouping rows groups := by
  -- The groups are exact after each row, from none on.
  induction rows using List.reverseRecOn generalizing groups with
  | nil =>
    obtain rfl := Option.some.inj gathered
    exact ⟨List.nodup_nil, fun _ => Iff.rfl, List.forall_mem_nil _⟩
  | append_singleton rows row ih =>
    unfold gather at gathered
    rw [List.foldlM_append, Option.bind_eq_bind, Option.bind_eq_some_iff] at gathered
    obtain ⟨before, first, last⟩ := gathered
    rw [List.foldlM_cons, Option.bind_eq_bind, Option.bind_eq_some_iff] at last
    obtain ⟨after, added, same⟩ := last
    obtain rfl := Option.some.inj same
    exact (ih first).add added

/-- Rows can be gathered when the rows of every key can be. -/
theorem gather_isSome
    (each : ∀ key ∈ rows.map grouping.rowKey, (grouping.alone (grouping.rowsOf rows key)).isSome) :
    (grouping.gather rows).isSome := by
  induction rows using List.reverseRecOn with
  | nil => rfl
  | append_singleton rows row ih =>
    -- What can be made of more rows can be made of the first of them.
    have before : ∀ key ∈ rows.map grouping.rowKey,
        (grouping.alone (grouping.rowsOf rows key)).isSome := by
      intro key listed
      have whole := each key (by rw [List.map_append]; exact List.mem_append_left _ listed)
      rw [rowsOf_concat] at whole
      split at whole
      · obtain ⟨first, member, same⟩ := List.mem_map.mp listed
        have nonempty : grouping.rowsOf rows key ≠ [] :=
          List.ne_nil_of_mem (List.mem_filter.mpr ⟨member, decide_eq_true same⟩)
        rw [alone_concat nonempty] at whole
        exact Option.isSome_of_isSome_bind whole
      · exact whole
    obtain ⟨groups, gathered⟩ := Option.isSome_iff_exists.mp (ih before)
    have exactly := gather_exact gathered
    have last := each (grouping.rowKey row) (by simp)
    rw [rowsOf_concat, if_pos rfl] at last
    have added : (grouping.add row groups).isSome := by
      refine add_isSome (fun group member same => ?_) fun none => ?_
      · have made := exactly.exact group member
        have nonempty := exactly.rowsOf_ne_nil member
        rw [same] at made nonempty
        rw [alone_concat nonempty, made] at last
        exact last
      · rw [exactly.rowsOf_nil none] at last
        simpa [alone] using last
    unfold gather at gathered ⊢
    rw [List.foldlM_append, gathered]
    simpa using added

end Grouping
