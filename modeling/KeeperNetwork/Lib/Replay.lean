import Mathlib.Data.List.Nodup
import Mathlib.Tactic.Common

/-! Recording a log into a store that keeps the first entry of each key. -/

namespace Replay

variable {Entry Key : Type*} [DecidableEq Key] (key : Entry → Key)

/-- Append an entry, unless one with its key is stored already. -/
def record (stored : List Entry) (entry : Entry) : List Entry :=
  if key entry ∈ stored.map key then stored else stored ++ [entry]

variable {key} {log stored seen rest : List Entry} {entry : Entry}

private theorem record_of_mem (known : key entry ∈ stored.map key) :
    record key stored entry = stored :=
  if_pos known

/--
Recording the next entry of a log keeps the store a beginning of that log.

The store may already reach past the entry, as it does when a log is recorded a second time.
-/
theorem record_next (split : log = seen ++ entry :: rest) (distinct : (log.map key).Nodup)
    (along : stored <+: log) (reached : seen <+: stored) :
    record key stored entry <+: log ∧ seen ++ [entry] <+: record key stored entry := by
  obtain ⟨more, rfl⟩ := reached
  subst split
  rw [List.prefix_append_right_inj] at along
  cases more with
  | nil =>
    -- The store ends right before the entry, whose key is new.
    have fresh : key entry ∉ seen.map key := by
      rw [List.map_append, List.map_cons, List.nodup_append] at distinct
      intro known
      exact distinct.2.2 _ known _ List.mem_cons_self rfl
    rw [List.append_nil, record, if_neg fresh]
    exact ⟨⟨rest, by simp⟩, List.prefix_rfl⟩
  | cons first more =>
    -- The store already holds the entry, at this very place.
    obtain ⟨rfl, -⟩ := List.cons_prefix_cons.mp along
    rw [record_of_mem (by simp)]
    refine ⟨?_, ⟨more, by simp⟩⟩
    rw [List.prefix_append_right_inj]
    exact along

private theorem prefix_record : stored <+: record key stored entry := by
  unfold record
  split
  · exact List.prefix_rfl
  · exact List.prefix_append _ _

variable {batch : List Entry}

theorem prefix_foldl_record : stored <+: batch.foldl (record key) stored := by
  induction batch generalizing stored with
  | nil => exact List.prefix_rfl
  | cons entry rest ih => exact prefix_record.trans ih

theorem mem_foldl_record (member : entry ∈ batch.foldl (record key) stored) :
    entry ∈ stored ∨ entry ∈ batch := by
  induction batch generalizing stored with
  | nil => exact .inl member
  | cons next rest ih =>
    rcases ih member with earlier | later
    · unfold record at earlier
      split at earlier
      · exact .inl earlier
      · -- The entry was stored before, or it is the one that was just appended.
        rcases List.mem_append.mp earlier with old | new
        · exact .inl old
        · exact .inr (List.mem_cons.mpr (.inl (List.mem_singleton.mp new)))
    · exact .inr (List.mem_cons_of_mem _ later)

theorem key_mem_foldl_record (recorded : entry ∈ batch) :
    key entry ∈ (batch.foldl (record key) stored).map key := by
  induction batch generalizing stored with
  | nil => cases recorded
  | cons next rest ih =>
    rcases List.mem_cons.mp recorded with rfl | later
    · -- Once it is stored, later entries leave it there.
      have here : key entry ∈ (record key stored entry).map key := by
        unfold record
        split
        · assumption
        · simp
      have kept : record key stored entry <+: rest.foldl (record key) (record key stored entry) :=
        prefix_foldl_record
      exact (kept.map key).subset here
    · exact ih later

/-- Recording the next entries of a log keeps the store a beginning of that log. -/
theorem foldl_record_next (split : log = seen ++ (batch ++ rest)) (distinct : (log.map key).Nodup)
    (along : stored <+: log) (reached : seen <+: stored) :
    batch.foldl (record key) stored <+: log ∧
      seen ++ batch <+: batch.foldl (record key) stored := by
  induction batch generalizing seen stored with
  | nil => simpa using ⟨along, reached⟩
  | cons entry later ih =>
    obtain ⟨along', reached'⟩ := record_next (by simpa using split) distinct along reached
    have step := ih (by simpa using split) along' reached'
    simpa using step

end Replay
