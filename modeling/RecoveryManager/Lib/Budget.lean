import RecoveryManager.Lib.Program

/-!
# What a program may spend

A `Budget` says which operations a program may perform, what is promised of their answers, and what each one costs.
`p.Within B n` holds if `p` spends at most `n`, whatever it is answered within the promise.  Costs add up along the
program text (`Within.bind`, `Within.forM`).  If no operation raises a measure of the state by more than its cost, no
execution of `p` raises it by more than `n`, however it ends (`Exec.spends`).
-/

namespace Fallible

variable {Op : Type} {Res : Op → Type} {E σ α β : Type}

structure Budget (Op : Type) (Res : Op → Type) where
  allowed : Op → Prop
  promised : (op : Op) → Res op → Prop
  cost : Op → Nat

namespace Prog

/-- The program spends at most `n`. -/
def Within (B : Budget Op Res) : Nat → Prog Op Res α → Prop
  | _, ret _ => True
  | _, abort => True
  | n, call op k => B.allowed op ∧ B.cost op ≤ n ∧ ∀ r, B.promised op r → (k r).Within B (n - B.cost op)

variable {B : Budget Op Res} {m n : Nat}

theorem within_pure (a : α) : (pure a : Prog Op Res α).Within B n := by cases n <;> trivial

theorem within_abort : (abort : Prog Op Res α).Within B n := by cases n <;> trivial

theorem Within.mono {p : Prog Op Res α} (hp : p.Within B m) (h : m ≤ n) : p.Within B n := by
  induction p generalizing m n with
  | ret a => exact within_pure a
  | abort => exact within_abort
  | call op k ih => exact ⟨hp.1, Nat.le_trans hp.2.1 h, fun r hr => ih r (hp.2.2 r hr) (Nat.sub_le_sub_right h _)⟩

theorem Within.bind {p : Prog Op Res α} {f : α → Prog Op Res β} (hp : p.Within B m) (hf : ∀ a, (f a).Within B n) :
    (p >>= f).Within B (m + n) := by
  rw [bind_eq]
  induction p generalizing m with
  | ret a => exact (hf a).mono (Nat.le_add_left n m)
  | abort => exact within_abort
  | call op k ih =>
    refine ⟨hp.1, Nat.le_trans hp.2.1 (Nat.le_add_right m n), fun r hr => ?_⟩
    have := ih r (hp.2.2 r hr)
    rwa [show m - B.cost op + n = m + n - B.cost op by have := hp.2.1; omega] at this

/-- Free of charge, then within what there is. -/
theorem Within.free_bind {p : Prog Op Res α} {f : α → Prog Op Res β} (hp : p.Within B 0) (hf : ∀ a, (f a).Within B n) :
    (p >>= f).Within B n := by
  have := hp.bind hf
  rwa [Nat.zero_add] at this

theorem Within.forM {ι : Type} {xs : List ι} {body : ι → Prog Op Res PUnit} (h : ∀ x ∈ xs, (body x).Within B n) :
    (List.forM xs body).Within B (xs.length * n) := by
  induction xs with
  | nil => exact within_pure _
  | cons x xs ih =>
    show (body x >>= fun _ => List.forM xs body).Within B _
    have := (h x (by simp)).bind fun _ => ih fun y hy => h y (by simp [hy])
    rwa [show n + xs.length * n = (x :: xs).length * n by rw [List.length_cons, Nat.succ_mul, Nat.add_comm]] at this

/-- A program that only performs operations that are free. -/
theorem Calls.within {K : Op → Prop} {p : Prog Op Res α} (hp : p.Calls K)
    (h : ∀ op, K op → B.allowed op ∧ B.cost op = 0) : p.Within B n := by
  induction p generalizing n with
  | ret a => exact within_pure a
  | abort => exact within_abort
  | call op k ih =>
    obtain ⟨ha, hc⟩ := h op hp.1
    exact ⟨ha, hc ▸ Nat.zero_le n, fun r _ => ih r (hp.2 r)⟩

/-- A budget that allows as much, promises as much and charges no more. -/
theorem Within.relax {B' : Budget Op Res} {p : Prog Op Res α} (hp : p.Within B n)
    (h : ∀ op, B.allowed op → B'.allowed op ∧ B'.cost op ≤ B.cost op)
    (hr : ∀ op r, B'.promised op r → B.promised op r) : p.Within B' n := by
  induction p generalizing n with
  | ret a => exact within_pure a
  | abort => exact within_abort
  | call op k ih =>
    obtain ⟨ha, hc⟩ := h op hp.1
    exact ⟨ha, Nat.le_trans hc hp.2.1, fun r hr' =>
      (ih r (hp.2.2 r (hr op r hr'))).mono (Nat.sub_le_sub_left hc n)⟩

end Prog

/-- No execution spends more than the program may. -/
theorem Exec.spends {M : Machine Op Res E σ} {A : Op → E → Prop} {B : Budget Op Res} {I : σ → Prop} {μ : σ → Nat}
    (hI : ∀ op e s, B.allowed op → A op e → I s →
      I (M.apply op e s).2 ∧ B.promised op (M.apply op e s).1 ∧ μ (M.apply op e s).2 ≤ μ s + B.cost op)
    {p : Prog Op Res α} {n : Nat} (hp : p.Within B n) {s s' : σ} {o : Outcome α} (hs : I s) (h : Exec M A p s o s') :
    I s' ∧ μ s' ≤ μ s + n := by
  induction h generalizing n with
  | ret a s => exact ⟨hs, Nat.le_add_right _ _⟩
  | abort s => exact ⟨hs, Nat.le_add_right _ _⟩
  | kill op k s => exact ⟨hs, Nat.le_add_right _ _⟩
  | @call op k s e o s' hA h ih =>
    obtain ⟨hs₁, hr, hm⟩ := hI op e s hp.1 hA hs
    obtain ⟨hs₂, hm₂⟩ := ih (hp.2.2 _ hr) hs₁
    have := hp.2.1
    exact ⟨hs₂, by omega⟩

/-- An execution performs allowed operations only. -/
theorem Exec.restrict {M : Machine Op Res E σ} {A : Op → E → Prop} {B : Budget Op Res} {I : σ → Prop}
    (hI : ∀ op e s, B.allowed op → A op e → I s → I (M.apply op e s).2 ∧ B.promised op (M.apply op e s).1)
    {p : Prog Op Res α} {n : Nat} (hp : p.Within B n) {s s' : σ} {o : Outcome α} (hs : I s) (h : Exec M A p s o s') :
    Exec M (fun op e => A op e ∧ B.allowed op) p s o s' := by
  induction h generalizing n with
  | ret a s => exact .ret a s
  | abort s => exact .abort s
  | kill op k s => exact .kill op k s
  | @call op k s e o s' hA h ih =>
    obtain ⟨hs₁, hr⟩ := hI op e s hp.1 hA hs
    exact .call ⟨hA, hp.1⟩ (ih (hp.2.2 _ hr) hs₁)

theorem Triple.spends {M : Machine Op Res E σ} {A : Op → E → Prop} {B : Budget Op Res} {I : σ → Prop} {μ : σ → Nat}
    (hI : ∀ op e s, B.allowed op → A op e → I s →
      I (M.apply op e s).2 ∧ B.promised op (M.apply op e s).1 ∧ μ (M.apply op e s).2 ≤ μ s + B.cost op)
    {p : Prog Op Res α} {n m : Nat} (hp : p.Within B n) :
    Triple M A (fun s => I s ∧ μ s ≤ m) p (fun _ s => I s ∧ μ s ≤ m + n) (fun s => I s ∧ μ s ≤ m + n) := by
  intro s o s' hs h
  obtain ⟨hs', hμ⟩ := h.spends hI hp hs.1
  have hend : I s' ∧ μ s' ≤ m + n := ⟨hs', Nat.le_trans hμ (Nat.add_le_add_right hs.2 n)⟩
  cases o <;> exact hend

/-- What the allowed operations keep, the program keeps, if the promises are kept as well. -/
theorem Triple.of_within {M : Machine Op Res E σ} {A : Op → E → Prop} {B : Budget Op Res} {I : σ → Prop}
    (hI : ∀ op e s, B.allowed op → A op e → I s → I (M.apply op e s).2 ∧ B.promised op (M.apply op e s).1)
    {p : Prog Op Res α} {n : Nat} (hp : p.Within B n) : Triple M A I p (fun _ => I) I := by
  intro s o s' hs h
  have := (h.spends (μ := fun _ => 0) (fun op e s ha hA hs => ⟨(hI op e s ha hA hs).1, (hI op e s ha hA hs).2,
    Nat.zero_le _⟩) hp hs).1
  cases o <;> exact this

end Fallible
