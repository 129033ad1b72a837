import RecoveryManager.JournalApi

/-!
# The statements a function has sent

`Wrote w w' qs`: between `w` and `w'` the statements `qs` took effect and nothing else happened.  The rows of a service
in `w'` are then its rows in `w` with the statements about it replayed (`Wrote.view`).

An insertion takes effect when no row of the table has its hash (`effect_of_not_clashes`).
-/

namespace RecoveryManager

open Fallible Fallible.Prog

/-- The statements about one service, replayed on its rows. -/
def replay (s : String) (qs : List Sql) (v : View) : View :=
  (qs.filter (·.target = some s)).foldl (fun v q => q.onView v) v

theorem replay_append (s : String) (qs qs' : List Sql) (v : View) :
    replay s (qs ++ qs') v = replay s qs' (replay s qs v) := by
  simp only [replay, List.filter_append, List.foldl_append]

theorem replay_of_target {s : String} {q : Sql} (h : q.target = some s) (v : View) : replay s [q] v = q.onView v := by
  simp [replay, h]

theorem replay_of_ne {s : String} {qs : List Sql} (h : ∀ q ∈ qs, q.target ≠ some s) (v : View) :
    replay s qs v = v := by
  have hf : qs.filter (·.target = some s) = [] := List.filter_eq_nil_iff.2 fun q hq => by simp [h q hq]
  rw [replay, hf, List.foldl_nil]

namespace Instance

/-- From `w` to `w'` the statements `qs` took effect, and nothing else happened. -/
structure Wrote (w w' : Instance) (qs : List Sql) : Prop where
  eq : w' = { w with journal := w'.journal, trace := w.trace ++ qs.map .statement }
  view : ∀ s, w'.journal.view s = replay s qs (w.journal.view s)
  nil : qs = [] → w' = w

variable {w w' w'' : Instance} {qs qs' : List Sql}

theorem Wrote.refl (w : Instance) : Wrote w w [] := ⟨by simp, fun _ => rfl, fun _ => rfl⟩

theorem Wrote.trans (h : Wrote w w' qs) (h' : Wrote w' w'' qs') : Wrote w w'' (qs ++ qs') := by
  constructor
  · have e := h'.eq
    rw [h.eq] at e
    simpa using e
  · intro s
    rw [h'.view, h.view, replay_append]
  · intro hn
    obtain ⟨hn, hn'⟩ := List.append_eq_nil_iff.1 hn
    rw [h'.nil hn', h.nil hn]

theorem Wrote.trace (h : Wrote w w' qs) : w'.trace = w.trace ++ qs.map .statement := by
  rw [h.eq]

theorem Wrote.hostName (h : Wrote w w' qs) : w'.hostName = w.hostName := by
  rw [h.eq]

theorem commit_of_isSelect {q : Sql} (h : q.isSelect) (j : Journal) : w.commit q j = w := by
  simp [commit, h]

theorem wrote_commit {q : Sql} {j : Journal} (hq : q.isSelect = false) (h : q.effect w.journal = some j) :
    Wrote w (w.commit q j) [q] := by
  have hc : w.commit q j = { w with journal := j, trace := w.trace ++ [.statement q] } := by simp [commit, hq]
  constructor
  · rw [hc]
    rfl
  · intro s
    rw [hc]
    by_cases ht : q.target = some s
    · rw [replay_of_target ht]
      exact Sql.effect_onView h ht
    · rw [replay_of_ne (by simpa using ht)]
      exact Sql.effect_view h ht
  · exact fun hn => absurd hn (List.cons_ne_nil _ _)

theorem apply_sql_of_effect {q : Sql} {j : Journal} (h : q.effect w.journal = some j) :
    apply (.sql q) true w = (some (q.rows w.journal), w.commit q j) := by
  simp only [apply, h]
  rfl

/-- The two ways a statement can turn out. -/
theorem apply_sql (w : Instance) (q : Sql) (e : Bool) :
    apply (.sql q) e w = (none, w) ∨
      ∃ j, q.effect w.journal = some j ∧ apply (.sql q) e w = (some (q.rows w.journal), w.commit q j) := by
  cases e with
  | false => exact .inl rfl
  | true =>
    cases h : q.effect w.journal with
    | none =>
      refine .inl ?_
      simp only [apply, h]
      rfl
    | some j =>
      exact .inr ⟨j, rfl, apply_sql_of_effect h⟩

theorem run_sqliteExec {q : Sql} {j : Journal} (h : q.effect w.journal = some j) :
    w.run (sqliteExec q) = (some (some (q.rows w.journal)), w.commit q j) := by
  show (some (apply (.sql q) true w).1, (apply (.sql q) true w).2) = _
  rw [apply_sql_of_effect h]
  rfl

end Instance

/-! ### Hashes of rows -/

/-- A row of the view has the hash of the row to be inserted. -/
def Sql.Clashes (q : Sql) (v : View) : Prop :=
  match q with
  | .insertService row => ∃ r ∈ v.services, r.hash = row.hash
  | .insertAction row => ∃ r ∈ v.actions, r.hash = row.hash
  | .insertFriend row => ∃ r ∈ v.friends, r.hash = row.hash
  | _ => False

theorem Sql.effect_of_not_clashes {q : Sql} {j : Journal} (h : ∀ s, ¬ q.Clashes (j.view s)) :
    ∃ j', q.effect j = some j' := by
  cases q with
  | insertService row =>
    have : ¬ j.services.any (·.hash = row.hash) := by
      rw [List.any_eq_true]
      rintro ⟨r, hr, he⟩
      exact h r.name ⟨r, List.mem_filter.2 ⟨hr, by simp⟩, by simpa using he⟩
    exact ⟨_, if_neg this⟩
  | insertAction row =>
    have : ¬ j.actions.any (·.hash = row.hash) := by
      rw [List.any_eq_true]
      rintro ⟨r, hr, he⟩
      exact h r.service ⟨r, List.mem_filter.2 ⟨hr, by simp⟩, by simpa using he⟩
    exact ⟨_, if_neg this⟩
  | insertFriend row =>
    have : ¬ j.friends.any (·.hash = row.hash) := by
      rw [List.any_eq_true]
      rintro ⟨r, hr, he⟩
      exact h r.service ⟨r, List.mem_filter.2 ⟨hr, by simp⟩, by simpa using he⟩
    exact ⟨_, if_neg this⟩
  | _ => exact ⟨_, rfl⟩

end RecoveryManager
