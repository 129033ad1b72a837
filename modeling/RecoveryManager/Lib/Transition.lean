import Mathlib.Data.List.Induction

/-!
# Runs of a labelled transition relation

`Run R s ls t`: the steps `ls` lead from `s` to `t`.  An invariant is shown once for the start and once for a step
(`Run.invariant`); a run of one relation gives a run of another by `Run.mono` and, along a relation of states, by
`Run.follow`, the rule for refinement with stuttering.
-/

namespace Transition

variable {σ τ Λ Λ' : Type}

/-- The steps `ls` of `R`, in this order, lead from `s` to a state. -/
inductive Run (R : σ → Λ → σ → Prop) (s : σ) : List Λ → σ → Prop
  | nil : Run R s [] s
  | snoc {ls : List Λ} {t u : σ} {l : Λ} : Run R s ls t → R t l u → Run R s (ls ++ [l]) u

variable {R : σ → Λ → σ → Prop} {s t u : σ} {ls ls' : List Λ}

theorem Run.single {l : Λ} (h : R s l t) : Run R s [l] t := .snoc .nil h

theorem Run.of_single {l : Λ} (h : Run R s [l] t) : R s l t := by
  generalize hl : [l] = ls at h
  cases h with
  | nil => cases hl
  | @snoc ls' u _ l' h hr =>
    have hl' : [] ++ [l] = ls' ++ [l'] := hl
    obtain ⟨rfl, h'⟩ := List.append_inj' hl' rfl
    obtain rfl := (List.cons.inj h').1
    generalize hnil : ([] : List Λ) = ls at h
    cases h with
    | nil => exact hr
    | snoc => simp at hnil

theorem Run.trans (h : Run R s ls t) (h' : Run R t ls' u) : Run R s (ls ++ ls') u := by
  induction h' with
  | nil => simpa using h
  | snoc _ hr ih =>
    rw [← List.append_assoc]
    exact ih.snoc hr

theorem Run.cons {l : Λ} (h : R s l t) (h' : Run R t ls u) : Run R s (l :: ls) u :=
  (Run.single h).trans h'

theorem Run.invariant {I : σ → Prop} (hr : Run R s ls t) (h0 : I s)
    (hstep : ∀ t l u, I t → R t l u → I u) : I t := by
  induction hr with
  | nil => exact h0
  | snoc _ hr ih => exact hstep _ _ _ ih hr

theorem Run.mono {R' : σ → Λ → σ → Prop} (hr : Run R s ls t) (hR : ∀ t l u, R t l u → R' t l u) :
    Run R' s ls t := by
  induction hr with
  | nil => exact .nil
  | snoc _ hr ih => exact ih.snoc (hR _ _ _ hr)

/-- A relation that is strengthened by what holds in every state reached has the same runs. -/
theorem Run.strengthen {I : σ → Prop} (hr : Run R s ls t) (h0 : I s)
    (hstep : ∀ t l u, I t → R t l u → I u) : Run (fun t l u => I t ∧ R t l u ∧ I u) s ls t := by
  induction hr with
  | nil => exact .nil
  | snoc hr h ih =>
    have hI := hr.invariant h0 hstep
    exact ih.snoc ⟨hI, h, hstep _ _ _ hI h⟩

/-- Forward simulation with stuttering along a relation of states. -/
theorem Run.follow {R' : τ → Λ' → τ → Prop} {Sim : σ → τ → Prop} {x : τ} (hr : Run R s ls t) (h0 : Sim s x)
    (hstep : ∀ t l u x, Sim t x → R t l u → Sim u x ∨ ∃ l' y, R' x l' y ∧ Sim u y) :
    ∃ ls' y, Run R' x ls' y ∧ Sim t y := by
  induction hr with
  | nil => exact ⟨[], x, .nil, h0⟩
  | snoc _ hr ih =>
    obtain ⟨ls', y, hy, hs⟩ := ih
    rcases hstep _ _ _ y hs hr with h | ⟨l', z, hz, h⟩
    · exact ⟨ls', y, hy, h⟩
    · exact ⟨ls' ++ [l'], z, hy.snoc hz, h⟩

/-- Replaying labels with a step function gives a run. -/
theorem Run.of_foldlM {f : σ → Λ → Option σ} (h : ls.foldlM f s = some t) :
    Run (fun s l t => f s l = some t) s ls t := by
  induction ls generalizing s with
  | nil =>
    obtain rfl := Option.some.inj h
    exact .nil
  | cons l ls ih =>
    rw [List.foldlM_cons] at h
    obtain ⟨u, hu, h⟩ := Option.bind_eq_some_iff.1 h
    exact .cons hu (ih h)

/-- A run whose labels all meet a condition. -/
theorem Run.restrict {P : σ → Λ → Prop} (hr : Run R s ls t) (hp : ∀ l ∈ ls, ∀ s, P s l) :
    Run (fun s l t => R s l t ∧ P s l) s ls t := by
  induction hr with
  | nil => exact .nil
  | snoc _ h ih => exact (ih fun l hl => hp l (by simp [hl])).snoc ⟨h, hp _ (by simp) _⟩

end Transition
