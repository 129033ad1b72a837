import Mathlib.Data.List.Nodup

/-!
# Tables with a primary key

A table is the list of its rows in the order of insertion.  A row goes in unless its key is taken (`insert`), and
`insertAll` tries a list of rows in turn.  What goes in is a sublist of the rows (`insertAll_eq`); all of them go in if
and only if their keys are new and differ from each other (`insertAll_eq_append_iff`).

A key that is not unique splits a table into the rows of each key (`perm_flatMap_filter`).
-/

namespace Keyed

variable {α κ : Type} [DecidableEq κ] {key : α → κ} {table rows : List α}

/-- The table after an insertion, which a taken key prevents. -/
def insert (key : α → κ) (table : List α) (row : α) : List α :=
  if table.any fun r => key r = key row then table else table ++ [row]

def insertAll (key : α → κ) (table rows : List α) : List α := rows.foldl (insert key) table

theorem insert_of_new {row : α} (h : ∀ r ∈ table, key r ≠ key row) : insert key table row = table ++ [row] := by
  unfold insert
  rw [if_neg]
  simpa using h

theorem insert_of_taken {row r : α} (hr : r ∈ table) (h : key r = key row) : insert key table row = table := by
  unfold insert
  rw [if_pos]
  simpa using ⟨r, hr, h⟩

/-- The rows that went in, behind those that were there. -/
theorem insertAll_eq (key : α → κ) (table rows : List α) :
    ∃ rows', rows'.Sublist rows ∧ insertAll key table rows = table ++ rows' := by
  induction rows generalizing table with
  | nil => exact ⟨[], .slnil, by simp [insertAll]⟩
  | cons row rows ih =>
    by_cases h : ∃ r ∈ table, key r = key row
    · obtain ⟨r, hr, h⟩ := h
      obtain ⟨rows', hs, he⟩ := ih table
      refine ⟨rows', hs.cons row, ?_⟩
      rw [insertAll, List.foldl_cons, insert_of_taken hr h]
      exact he
    · simp only [not_exists, not_and] at h
      obtain ⟨rows', hs, he⟩ := ih (table ++ [row])
      refine ⟨row :: rows', hs.cons_cons row, ?_⟩
      rw [insertAll, List.foldl_cons, insert_of_new h, ← insertAll, he, List.append_assoc, List.singleton_append]

private theorem length_insertAll_le (key : α → κ) (table rows : List α) :
    (insertAll key table rows).length ≤ table.length + rows.length := by
  obtain ⟨rows', hs, he⟩ := insertAll_eq key table rows
  have := hs.length_le
  rw [he, List.length_append]
  omega

/-- Everything goes in exactly when no key is taken, neither by the table nor by an earlier row. -/
theorem insertAll_eq_append_iff : insertAll key table rows = table ++ rows ↔
    (rows.map key).Nodup ∧ ∀ row ∈ rows, ∀ r ∈ table, key r ≠ key row := by
  induction rows generalizing table with
  | nil => simp [insertAll]
  | cons row rows ih =>
    by_cases h : ∃ r ∈ table, key r = key row
    · obtain ⟨r, hr, h⟩ := h
      constructor
      · intro he
        rw [insertAll, List.foldl_cons, insert_of_taken hr h] at he
        have hle := length_insertAll_le key table rows
        rw [insertAll, he, List.length_append, List.length_cons] at hle
        omega
      · intro hx
        exact absurd h (hx.2 row List.mem_cons_self r hr)
    · simp only [not_exists, not_and] at h
      have hstep : insertAll key table (row :: rows) = insertAll key (table ++ [row]) rows := by
        rw [insertAll, List.foldl_cons, insert_of_new h, insertAll]
      have happ : table ++ row :: rows = (table ++ [row]) ++ rows := List.append_cons table row rows
      rw [hstep, happ, ih, List.map_cons, List.nodup_cons]
      constructor
      · rintro ⟨hn, hnew⟩
        refine ⟨⟨fun hm => ?_, hn⟩, fun x hx r hr => ?_⟩
        · obtain ⟨x, hx, he⟩ := List.mem_map.1 hm
          exact hnew x hx row (by simp) he.symm
        · rcases List.mem_cons.1 hx with rfl | hx
          · exact h r hr
          · exact hnew x hx r (by simp [hr])
      · rintro ⟨⟨hm, hn⟩, hnew⟩
        refine ⟨hn, fun x hx r hr => ?_⟩
        rcases List.mem_append.1 hr with hr | hr
        · exact hnew x (by simp [hx]) r hr
        · rw [List.mem_singleton.1 hr]
          intro he
          exact hm (he ▸ List.mem_map_of_mem hx)

/-- The rows of a table, key by key. -/
theorem perm_flatMap_filter {ks : List κ} (hn : ks.Nodup) (ht : ∀ r ∈ table, key r ∈ ks) :
    table.Perm (ks.flatMap fun k => table.filter fun r => key r = k) := by
  induction ks generalizing table with
  | nil =>
    cases table with
    | nil => exact .nil
    | cons r table => exact absurd (ht r List.mem_cons_self) List.not_mem_nil
  | cons k ks ih =>
    obtain ⟨hk, hn⟩ := List.nodup_cons.1 hn
    have hrest : ∀ r ∈ table.filter fun r => !decide (key r = k), key r ∈ ks := by
      intro r hr
      obtain ⟨hr, hne⟩ := List.mem_filter.1 hr
      rcases List.mem_cons.1 (ht r hr) with h | h
      · simp [h] at hne
      · exact h
    have hsame : (ks.flatMap fun k' => (table.filter fun r => !decide (key r = k)).filter fun r => key r = k') =
        ks.flatMap fun k' => table.filter fun r => key r = k' := by
      refine List.flatMap_congr fun k' hk' => ?_
      rw [List.filter_filter]
      refine List.filter_congr fun r _ => ?_
      by_cases h : key r = k'
      · have hne : key r ≠ k := fun h' => hk ((h'.symm.trans h) ▸ hk')
        simp [h, h ▸ hne]
      · simp [h]
    have hsplit := (List.filter_append_perm (fun r => decide (key r = k)) table).symm
    rw [List.flatMap_cons, ← hsame]
    exact hsplit.trans ((ih hn hrest).append_left _)

end Keyed
