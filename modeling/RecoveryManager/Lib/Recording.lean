import RecoveryManager.Lib.Program

/-!
# A record beside the state

`M.recording note` is `M` with a record next to its state: `note` says what an operation adds to the record, and the
answers do not depend on it.  Its executions are those of `M` (`Exec.of_recording`, `Exec.recorded`), so what is known
of the state is known next to the record too (`Triple.recording`).
-/

namespace Fallible

variable {Op : Type} {Res : Op → Type} {E σ τ α : Type}

def Machine.recording (M : Machine Op Res E σ) (note : (op : Op) → E → σ → τ → τ) : Machine Op Res E (σ × τ) :=
  ⟨fun op e x => ((M.apply op e x.1).1, (M.apply op e x.1).2, note op e x.1 x.2)⟩

variable {M : Machine Op Res E σ} {note : (op : Op) → E → σ → τ → τ} {A : Op → E → Prop} {p : Prog Op Res α}

/-- The record can be forgotten. -/
theorem Exec.of_recording {x y : σ × τ} {o : Outcome α} (h : Exec (M.recording note) A p x o y) :
    Exec M A p x.1 o y.1 := by
  induction h with
  | ret a x => exact .ret a x.1
  | abort x => exact .abort x.1
  | kill op k x => exact .kill op k x.1
  | call hA _ ih => exact .call hA ih

/-- A record can be kept of any execution. -/
theorem Exec.recorded {s s' : σ} {o : Outcome α} (h : Exec M A p s o s') (t : τ) :
    ∃ t', Exec (M.recording note) A p (s, t) o (s', t') := by
  induction h generalizing t with
  | ret a s => exact ⟨t, .ret a (s, t)⟩
  | abort s => exact ⟨t, .abort (s, t)⟩
  | kill op k s => exact ⟨t, .kill op k (s, t)⟩
  | @call op k s e o s' hA _ ih =>
    obtain ⟨t', h⟩ := ih (note op e s t)
    exact ⟨t', .call hA h⟩

theorem Triple.recording {P : σ → Prop} {Q : α → σ → Prop} {C : σ → Prop} (h : Triple M A P p Q C) :
    Triple (M.recording note) A (fun x => P x.1) p (fun a x => Q a x.1) fun x => C x.1 :=
  fun x o y hx he => h x.1 o y.1 hx he.of_recording

end Fallible
