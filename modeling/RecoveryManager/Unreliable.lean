import RecoveryManager.Statements
import RecoveryManager.Dispatcher

/-!
# Statements that may fail

What the functions of the journal return when any operation may fail.  A statement that fails changes nothing and is
reported; what is returned without an error is what the tables say.
-/

namespace RecoveryManager

open Fallible Fallible.Prog

/-- Any operation may fail. -/
abbrev Unreliable : Op → Bool → Prop := fun _ _ => True

namespace Instance

theorem triple_load {event : EventRef} {d : RmgDEvent} {P : Instance → Prop} (hP : ∀ w, P w → w.heap event = d) :
    Triple machine Unreliable P (load event) (fun r w => r = d ∧ P w) P :=
  .call (fun _ h => h) (R := fun r w => r = d ∧ P w) (fun w _ _ h => ⟨hP w h, h⟩) fun _ => .ret fun _ h => h

theorem triple_select {q : Sql} {P : Instance → Prop} (hq : q.isSelect) :
    Triple machine Unreliable P (sqliteExec q)
      (fun r w => P w ∧ ∀ rows, r = some rows → rows = q.rows w.journal) P := by
  refine .call (fun _ h => h) (R := fun r w => P w ∧ ∀ rows, r = some rows → rows = q.rows w.journal)
    (fun w e _ h => ?_) fun r => .ret fun _ h => h
  show P (Instance.apply (.sql q) e w).2 ∧ ∀ rows, (Instance.apply (.sql q) e w).1 = some rows →
    rows = q.rows (Instance.apply (.sql q) e w).2.journal
  rcases apply_sql w q e with h' | ⟨j, -, h'⟩
  · rw [h']
    exact ⟨h, fun rows hr => by cases hr⟩
  · rw [h', commit_of_isSelect hq]
    exact ⟨h, fun rows hr => (Option.some.inj hr).symm⟩

/-- A getter reports an error and returns its default, or it returns the column of the last row. -/
theorem triple_getServiceColumn_cases {α : Type} {P : Instance → Prop} (s : String) (response : α)
    (column : ServiceRow → α) :
    Triple machine Unreliable P (getServiceColumn (some s) response column) (fun r w => P w ∧ (r = (response, true) ∨
      r = ((w.journal.servicesNamed s).foldl (fun _ r => column r) response, false))) P := by
  show Triple _ _ _ (sqliteExec (.selectServices s) >>= _) _ _
  refine Triple.bind (triple_select rfl) fun rows => ?_
  cases rows with
  | none => exact .ret fun _ h => ⟨h.1, .inl rfl⟩
  | some rows =>
    refine .ret fun w h => ⟨h.1, .inr ?_⟩
    rw [h.2 rows rfl]
    rfl

theorem triple_getServiceColumn {α : Type} {P : Instance → Prop} (s : String) (response : α)
    (column : ServiceRow → α) :
    Triple machine Unreliable P (getServiceColumn (some s) response column)
      (fun r w => P w ∧ (r.2 = false → r.1 = (w.journal.servicesNamed s).foldl (fun _ r => column r) response)) P := by
  refine (triple_getServiceColumn_cases s response column).weaken (fun _ h => h) (fun r w h => ⟨h.1, fun hf => ?_⟩)
    fun _ h => h
  rcases h.2 with hr | hr
  · rw [hr] at hf
    cases hf
  · rw [hr]

/-- The action found without an error is the one of the stored level. -/
theorem triple_getServiceAction {P : Instance → Prop} (s : String) :
    Triple machine Unreliable P (rmgJournalGetServiceAction (some s))
      (fun r w => P w ∧ (r.2 = false → r.1 = actionAt (w.journal.actionsOf s) (w.journal.rvectorOf s))) P := by
  show Triple _ _ _ (rmgJournalGetRvector (some s) >>= _) _ _
  refine Triple.bind (triple_getServiceColumn s 0 (·.rvector)) fun r => ?_
  obtain ⟨v, err⟩ := r
  show Triple _ _ _ (sqliteExec (.selectActions s v) >>= _) _ _
  refine Triple.bind ((triple_select rfl).weaken (fun _ h => h) (fun _ _ h => h) fun _ h => h.1) fun rows => ?_
  cases rows with
  | none => exact .ret fun _ h => ⟨h.1.1, fun hf => by cases hf⟩
  | some rows =>
    refine .ret fun w h => ⟨h.1.1, fun hf => ?_⟩
    have hv : v = w.journal.rvectorOf s := h.1.2 hf
    have hrun := congrArg (fun x => x.1.map Prod.fst) (run_rmgJournalGetServiceAction w s)
    rw [h.2 rows rfl, hv]
    exact Option.some.inj hrun

end Instance

end RecoveryManager
