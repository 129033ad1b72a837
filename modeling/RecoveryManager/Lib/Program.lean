import Mathlib.Data.List.Basic

/-!
# Programs over fallible operations

A program is a tree of operations; what an operation does is given by a machine, and how it turns out (it succeeds,
it fails) is chosen by the environment each time it is performed.  The environment may also kill the program between
any two operations, and the program may abort itself.

* `Exec` is the execution of a program with every choice of the environment that `A` allows.
* `SameExec`: two programs do the same from a state on.
* `run` is the execution in which the environment gives the same answer every time and kills nothing.
* `Calls K p`: every operation `p` may perform is in `K`.
* `Avoids K p`: as long as the answers are in `K`, `p` does not abort.
* `Triple P p Q C` says: from a state in `P`, the program ends in `Q` if it returns, and in `C` if it is cut short at
  any point.  Its rules (`ret`, `bind`, `perform`, `weaken`, `forM`) follow the program text; `of_calls` is the frame
  rule.
* `Safe P p Q` says: from a state in `P`, the program does not abort, and it ends in `Q` if it returns.
* `Exec.follow`: an execution on one machine gives one on another, along a relation of their states.
-/

namespace Fallible

/-- A program: each operation `op` is answered by a `Res op`. -/
inductive Prog (Op : Type) (Res : Op → Type) (α : Type) where
  | ret (a : α)
  | abort
  | call (op : Op) (k : Res op → Prog Op Res α)

/-- How an execution ends. -/
inductive Outcome (α : Type) where
  | done (a : α)
  | aborted
  | killed

/-- What each operation does to the state, given the answer `e` of the environment. -/
structure Machine (Op : Type) (Res : Op → Type) (E σ : Type) where
  apply : (op : Op) → E → σ → Res op × σ

variable {Op : Type} {Res : Op → Type} {E σ α β γ : Type}

namespace Prog

def bind : Prog Op Res α → (α → Prog Op Res β) → Prog Op Res β
  | ret a, f => f a
  | abort, _ => abort
  | call op k, f => call op fun r => (k r).bind f

/-- The program that performs one operation and returns its answer. -/
def perform (op : Op) : Prog Op Res (Res op) := call op ret

instance : Monad (Prog Op Res) where
  pure := ret
  bind := bind

@[simp] theorem ret_eq_pure (a : α) : (ret a : Prog Op Res α) = pure a := rfl

theorem bind_eq (p : Prog Op Res α) (f : α → Prog Op Res β) : p >>= f = p.bind f := rfl

private theorem bind_ret (p : Prog Op Res α) : p.bind ret = p := by
  induction p with
  | ret a => rfl
  | abort => rfl
  | call op k ih => simp only [bind, ih]

private theorem bind_bind (p : Prog Op Res α) (f : α → Prog Op Res β) (g : β → Prog Op Res γ) :
    (p.bind f).bind g = p.bind fun a => (f a).bind g := by
  induction p with
  | ret a => rfl
  | abort => rfl
  | call op k ih => simp only [bind, ih]

instance : LawfulMonad (Prog Op Res) :=
  LawfulMonad.mk' (Prog Op Res) bind_ret (fun _ _ => rfl) bind_bind

/-- Every operation the program may perform satisfies `K`. -/
def Calls (K : Op → Prop) : Prog Op Res α → Prop
  | ret _ => True
  | abort => True
  | call op k => K op ∧ ∀ r, (k r).Calls K

section calls
variable {K K' : Op → Prop}

@[simp] theorem calls_pure (a : α) : (pure a : Prog Op Res α).Calls K := trivial

@[simp] theorem calls_abort : (abort : Prog Op Res α).Calls K := trivial

theorem calls_perform {op : Op} (h : K op) : (perform op : Prog Op Res _).Calls K := ⟨h, fun _ => trivial⟩

theorem Calls.bind {p : Prog Op Res α} {f : α → Prog Op Res β} (hp : p.Calls K) (hf : ∀ a, (f a).Calls K) :
    (p >>= f).Calls K := by
  rw [bind_eq]
  induction p with
  | ret a => exact hf a
  | abort => trivial
  | call op k ih => exact ⟨hp.1, fun r => ih r (hp.2 r)⟩

theorem calls_true (p : Prog Op Res α) : p.Calls fun _ => True := by
  induction p with
  | ret a => trivial
  | abort => trivial
  | call op k ih => exact ⟨trivial, ih⟩

theorem Calls.mono {p : Prog Op Res α} (hp : p.Calls K) (h : ∀ op, K op → K' op) : p.Calls K' := by
  induction p with
  | ret a => trivial
  | abort => trivial
  | call op k ih => exact ⟨h op hp.1, fun r => ih r (hp.2 r)⟩

theorem Calls.forM {ι : Type} {xs : List ι} {body : ι → Prog Op Res PUnit} (h : ∀ x ∈ xs, (body x).Calls K) :
    (List.forM xs body).Calls K := by
  induction xs with
  | nil => trivial
  | cons x xs ih =>
    show (body x >>= fun _ => List.forM xs body).Calls K
    exact .bind (h x (by simp)) fun _ => ih fun y hy => h y (by simp [hy])

end calls

/-- With answers in `K` only, the program does not abort. -/
def Avoids (K : (op : Op) → Res op → Prop) : Prog Op Res α → Prop
  | ret _ => True
  | abort => False
  | call op k => ∀ r, K op r → (k r).Avoids K

section avoids
variable {K : (op : Op) → Res op → Prop}

@[simp] theorem avoids_pure (a : α) : (pure a : Prog Op Res α).Avoids K := trivial

theorem Avoids.bind {p : Prog Op Res α} {f : α → Prog Op Res β} (hp : p.Avoids K) (hf : ∀ a, (f a).Avoids K) :
    (p >>= f).Avoids K := by
  rw [bind_eq]
  induction p with
  | ret a => exact hf a
  | abort => exact hp.elim
  | call op k ih => exact fun r hr => ih r (hp r hr)

theorem Avoids.forM {ι : Type} {xs : List ι} {body : ι → Prog Op Res PUnit} (h : ∀ x ∈ xs, (body x).Avoids K) :
    (List.forM xs body).Avoids K := by
  induction xs with
  | nil => trivial
  | cons x xs ih =>
    show (body x >>= fun _ => List.forM xs body).Avoids K
    exact .bind (h x (by simp)) fun _ => ih fun y hy => h y (by simp [hy])

end avoids

end Prog

open Prog

/-! ### Executions -/

/-- The executions of a program on `M`, with the answers the environment is allowed to give. -/
inductive Exec (M : Machine Op Res E σ) (A : Op → E → Prop) : Prog Op Res α → σ → Outcome α → σ → Prop
  | ret (a : α) (s : σ) : Exec M A (.ret a) s (.done a) s
  | abort (s : σ) : Exec M A .abort s .aborted s
  | kill (op : Op) (k : Res op → Prog Op Res α) (s : σ) : Exec M A (.call op k) s .killed s
  | call {op : Op} {k : Res op → Prog Op Res α} {s : σ} {e : E} {o : Outcome α} {s' : σ} :
      A op e → Exec M A (k (M.apply op e s).1) (M.apply op e s).2 o s' → Exec M A (.call op k) s o s'

theorem Exec.mono {M : Machine Op Res E σ} {A A' : Op → E → Prop} {p : Prog Op Res α} {s s' : σ} {o : Outcome α}
    (h : Exec M A p s o s') (hA : ∀ op e, A op e → A' op e) : Exec M A' p s o s' := by
  induction h with
  | ret a s => exact .ret a s
  | abort s => exact .abort s
  | kill op k s => exact .kill op k s
  | call he _ ih => exact .call (hA _ _ he) ih

/-- From `s` the two programs have the same executions. -/
def SameExec (M : Machine Op Res E σ) (A : Op → E → Prop) (s : σ) (p q : Prog Op Res α) : Prop :=
  ∀ o s', Exec M A p s o s' ↔ Exec M A q s o s'

theorem SameExec.trans {M : Machine Op Res E σ} {A : Op → E → Prop} {s : σ} {p q r : Prog Op Res α}
    (h : SameExec M A s p q) (h' : SameExec M A s q r) : SameExec M A s p r :=
  fun o s' => (h o s').trans (h' o s')

/-- An operation that only looks at the state shows in no execution, if another operation follows it. -/
theorem sameExec_look {M : Machine Op Res E σ} {A : Op → E → Prop} {s : σ} {op op' : Op} {r : Res op}
    {k : Res op → Prog Op Res α} {k' : Res op' → Prog Op Res α} (hlook : ∀ e, A op e → M.apply op e s = (r, s))
    (hA : ∃ e, A op e) (hk : k r = .call op' k') : SameExec M A s (.call op k) (k r) := by
  intro o s'
  constructor
  · intro h
    cases h with
    | kill => rw [hk]; exact .kill op' k' s
    | @call _ _ _ e _ _ hAe h =>
      rw [hlook e hAe] at h
      exact h
  · intro h
    obtain ⟨e, hAe⟩ := hA
    refine .call hAe ?_
    rw [hlook e hAe]
    exact h

/-- The execution in which every operation is answered by `e`; `none` is an abort. -/
def run (M : Machine Op Res E σ) (e : E) : Prog Op Res α → σ → Option α × σ
  | .ret a, s => (some a, s)
  | .abort, s => (none, s)
  | .call op k, s => run M e (k (M.apply op e s).1) (M.apply op e s).2

/-- The execution in which the operations are answered by `es` in turn. -/
def runEach (M : Machine Op Res E σ) : (es : Nat → E) → Prog Op Res α → σ → Option α × σ
  | _, .ret a, s => (some a, s)
  | _, .abort, s => (none, s)
  | es, .call op k, s => runEach M (fun n => es (n + 1)) (k (M.apply op (es 0) s).1) (M.apply op (es 0) s).2

section run
variable (M : Machine Op Res E σ) (e : E)

@[simp] theorem run_pure (a : α) (s : σ) : run M e (pure a) s = (some a, s) := rfl

@[simp] theorem run_abort (s : σ) : run M e (.abort : Prog Op Res α) s = (none, s) := rfl

theorem run_bind (p : Prog Op Res α) (f : α → Prog Op Res β) (s : σ) :
    run M e (p >>= f) s =
      match run M e p s with
      | (some a, s') => run M e (f a) s'
      | (none, s') => (none, s') := by
  rw [bind_eq]
  induction p generalizing s with
  | ret a => rfl
  | abort => rfl
  | call op k ih => simp only [Prog.bind, run, ih]

/-- A step of symbolic execution: what `p` does is known, go on with the continuation. -/
theorem run_bind_of_eq {p : Prog Op Res α} {f : α → Prog Op Res β} {s s' : σ} {a : α}
    (h : run M e p s = (some a, s')) : run M e (p >>= f) s = run M e (f a) s' := by
  rw [run_bind, h]

/-- A loop run to its end: `I ys` holds once the body has run for `ys`. -/
theorem run_forM {ι : Type} {I : List ι → σ → Prop} {xs : List ι} {body : ι → Prog Op Res PUnit}
    (hb : ∀ ys y zs s, xs = ys ++ y :: zs → I ys s → ∃ s', run M e (body y) s = (some ⟨⟩, s') ∧ I (ys ++ [y]) s')
    {s : σ} (h0 : I [] s) : ∃ s', run M e (List.forM xs body) s = (some ⟨⟩, s') ∧ I xs s' := by
  have key : ∀ zs ys s, xs = ys ++ zs → I ys s → ∃ s', run M e (List.forM zs body) s = (some ⟨⟩, s') ∧ I xs s' := by
    intro zs
    induction zs with
    | nil =>
      rintro ys s rfl hs
      exact ⟨s, rfl, by simpa using hs⟩
    | cons y zs ih =>
      intro ys s hx hs
      obtain ⟨s₁, h₁, hs₁⟩ := hb ys y zs s hx hs
      obtain ⟨s₂, h₂, hs₂⟩ := ih (ys ++ [y]) s₁ (by simpa using hx) hs₁
      refine ⟨s₂, ?_, hs₂⟩
      show run M e (body y >>= fun _ => List.forM zs body) s = _
      rw [run_bind_of_eq M e h₁, h₂]
  exact key xs [] s rfl h0

/-- How `run` ends, as an outcome. -/
def outcomeOf : Option α → Outcome α
  | some a => .done a
  | none => .aborted

theorem exec_run {A : Op → E → Prop} (hA : ∀ op, A op e) (p : Prog Op Res α) (s : σ) :
    Exec M A p s (outcomeOf (run M e p s).1) (run M e p s).2 := by
  induction p generalizing s with
  | ret a => exact .ret a s
  | abort => exact .abort s
  | call op k ih => exact .call (hA op) (ih _ _)

theorem exec_runEach {A : Op → E → Prop} {es : Nat → E} (hA : ∀ op n, A op (es n)) (p : Prog Op Res α) (s : σ) :
    Exec M A p s (outcomeOf (runEach M es p s).1) (runEach M es p s).2 := by
  induction p generalizing es s with
  | ret a => exact .ret a s
  | abort => exact .abort s
  | call op k ih => exact .call (hA op 0) (ih _ (fun op n => hA op (n + 1)) _)

/-- When the answers make no difference, a program that is not killed runs as with the answer `e`. -/
theorem Exec.eq_run {A : Op → E → Prop} {K : Op → Prop} {p : Prog Op Res α} {s s' : σ} {o : Outcome α}
    (h : Exec M A p s o s') (hp : p.Calls K) (hK : ∀ op e' s, K op → A op e' → M.apply op e' s = M.apply op e s)
    (ho : o ≠ .killed) : o = outcomeOf (run M e p s).1 ∧ s' = (run M e p s).2 := by
  induction h with
  | ret a s => exact ⟨rfl, rfl⟩
  | abort s => exact ⟨rfl, rfl⟩
  | kill op k s => exact absurd rfl ho
  | @call op k s e' o s' hA h ih =>
    have ih := ih (hp.2 _) ho
    rw [hK op e' s hp.1 hA] at ih
    exact ih

/-- The execution that dies before operation number `n`, if the program gets that far. -/
def cut (M : Machine Op Res E σ) (e : E) : Nat → Prog Op Res α → σ → Outcome α × σ
  | _, .ret a, s => (.done a, s)
  | _, .abort, s => (.aborted, s)
  | 0, .call _ _, s => (.killed, s)
  | n + 1, .call op k, s => cut M e n (k (M.apply op e s).1) (M.apply op e s).2

theorem exec_cut {A : Op → E → Prop} (hA : ∀ op, A op e) (n : Nat) (p : Prog Op Res α) (s : σ) :
    Exec M A p s (cut M e n p s).1 (cut M e n p s).2 := by
  induction p generalizing n s with
  | ret a => cases n <;> exact .ret a s
  | abort => cases n <;> exact .abort s
  | call op k ih =>
    cases n with
    | zero => exact .kill op k s
    | succ n => exact .call (hA op) (ih _ n _)

end run

/-! ### Triples -/

/-- From `P`, the program ends in `Q` if it returns and in `C` if it is cut short. -/
def Triple (M : Machine Op Res E σ) (A : Op → E → Prop) (P : σ → Prop) (p : Prog Op Res α)
    (Q : α → σ → Prop) (C : σ → Prop) : Prop :=
  ∀ s o s', P s → Exec M A p s o s' →
    match o with
    | .done a => Q a s'
    | _ => C s'

section triple
variable {M : Machine Op Res E σ} {A : Op → E → Prop} {P P' : σ → Prop} {Q Q' : α → σ → Prop} {C C' : σ → Prop}

theorem Triple.ret {a : α} (h : ∀ s, P s → Q a s) : Triple M A P (pure a) Q C := by
  rintro s o s' hs ⟨⟩
  exact h s hs

theorem Triple.abort (h : ∀ s, P s → C s) : Triple M A P (.abort : Prog Op Res α) Q C := by
  rintro s o s' hs ⟨⟩
  exact h s hs

theorem Triple.call {op : Op} {k : Res op → Prog Op Res α} (hC : ∀ s, P s → C s) {R : Res op → σ → Prop}
    (hop : ∀ s e, A op e → P s → R (M.apply op e s).1 (M.apply op e s).2)
    (hk : ∀ r, Triple M A (R r) (k r) Q C) : Triple M A P (.call op k) Q C := by
  rintro s o s' hs (_ | _ | _ | ⟨hA, h⟩)
  · exact hC s hs
  · exact hk _ _ _ _ (hop s _ hA hs) h

theorem Triple.bind {p : Prog Op Res α} {f : α → Prog Op Res β} {R : β → σ → Prop}
    (hp : Triple M A P p Q C) (hf : ∀ a, Triple M A (Q a) (f a) R C) : Triple M A P (p >>= f) R C := by
  induction p generalizing P with
  | ret a => exact fun s o s' hs h => hf a s o s' (hp s _ _ hs (.ret a s)) h
  | abort =>
    rintro s o s' hs ⟨⟩
    exact hp s _ _ hs (.abort s)
  | call op k ih =>
    rintro s o s' hs (_ | _ | _ | ⟨hA, h⟩)
    · exact hp s _ _ hs (.kill op k s)
    · -- the rest of `p` starts in the one state the operation led to
      refine ih _ (P := fun t => t = (M.apply op _ s).2) ?_ _ _ _ rfl h
      rintro t o' t' rfl h'
      exact hp s _ _ hs (.call hA h')

theorem Triple.weaken {p : Prog Op Res α} (h : Triple M A P' p Q' C') (hP : ∀ s, P s → P' s)
    (hQ : ∀ a s, Q' a s → Q a s) (hC : ∀ s, C' s → C s) : Triple M A P p Q C := by
  intro s o s' hs he
  have := h s o s' (hP s hs) he
  cases o with
  | done a => exact hQ a s' this
  | aborted => exact hC s' this
  | killed => exact hC s' this

theorem Triple.and {p : Prog Op Res α} (h : Triple M A P p Q C) (h' : Triple M A P' p Q' C') :
    Triple M A (fun s => P s ∧ P' s) p (fun a s => Q a s ∧ Q' a s) (fun s => C s ∧ C' s) := by
  intro s o s' hs he
  have h₁ := h s o s' hs.1 he
  have h₂ := h' s o s' hs.2 he
  cases o with
  | done a => exact ⟨h₁, h₂⟩
  | aborted => exact ⟨h₁, h₂⟩
  | killed => exact ⟨h₁, h₂⟩

theorem Triple.exists {ι : Sort*} {R : ι → σ → Prop} {p : Prog Op Res α} (h : ∀ x, Triple M A (R x) p Q C) :
    Triple M A (fun s => ∃ x, R x s) p Q C :=
  fun s o s' ⟨x, hs⟩ he => h x s o s' hs he

/-- A side condition of the precondition. -/
theorem Triple.of_prop {φ : Prop} {p : Prog Op Res α} (h : φ → Triple M A P p Q C) :
    Triple M A (fun s => φ ∧ P s) p Q C :=
  fun s o s' ⟨hφ, hs⟩ he => h hφ s o s' hs he

/-- The precondition taken apart into a side condition and the rest. -/
theorem Triple.split (φ : Prop) (R : σ → Prop) {p : Prog Op Res α} (hP : ∀ s, P s → φ ∧ R s)
    (h : φ → Triple M A R p Q C) : Triple M A P p Q C :=
  fun s o s' hs he => h (hP s hs).1 s o s' (hP s hs).2 he

theorem Triple.perform {op : Op} {Q : Res op → σ → Prop} (hC : ∀ s, P s → C s)
    (hop : ∀ s e, A op e → P s → Q (M.apply op e s).1 (M.apply op e s).2) :
    Triple M A P (perform op) Q C :=
  .call hC hop fun _ => .ret fun _ h => h

/-- An invariant of the body of a loop is an invariant of the loop. -/
theorem Triple.forM {ι : Type} {I : σ → Prop} {xs : List ι} {body : ι → Prog Op Res PUnit}
    (hb : ∀ x ∈ xs, Triple M A I (body x) (fun _ => I) I) : Triple M A I (List.forM xs body) (fun _ => I) I := by
  induction xs with
  | nil => exact .ret fun _ h => h
  | cons x xs ih =>
    show Triple M A I (body x >>= fun _ => List.forM xs body) _ I
    exact .bind (hb x (by simp)) fun _ => ih fun y hy => hb y (by simp [hy])

/-- The same with a count of the rounds: `I ys` holds once the body has run for `ys`. -/
theorem Triple.forM_counted {ι : Type} {I : List ι → σ → Prop} {xs : List ι} {body : ι → Prog Op Res PUnit}
    (hb : ∀ ys y zs, xs = ys ++ y :: zs → Triple M A (I ys) (body y) (fun _ => I (ys ++ [y])) C) :
    Triple M A (I []) (List.forM xs body) (fun _ => I xs) C := by
  have key : ∀ zs ys, xs = ys ++ zs → Triple M A (I ys) (List.forM zs body) (fun _ => I xs) C := by
    intro zs
    induction zs with
    | nil =>
      rintro ys rfl
      exact .ret fun s hs => by simpa using hs
    | cons y zs ih =>
      intro ys hx
      show Triple M A (I ys) (body y >>= fun _ => List.forM zs body) _ C
      exact .bind (hb ys y zs hx) fun _ => ih (ys ++ [y]) (by simpa using hx)
  exact key xs [] rfl

/-- What the operations of a program keep, the program keeps, however it ends. -/
theorem Triple.of_calls {K : Op → Prop} {I : σ → Prop} (hI : ∀ op e s, K op → A op e → I s → I (M.apply op e s).2)
    {p : Prog Op Res α} (hp : p.Calls K) : Triple M A I p (fun _ => I) I := by
  induction p with
  | ret a => exact .ret fun _ h => h
  | abort => exact .abort fun _ h => h
  | call op k ih =>
    exact .call (fun _ h => h) (R := fun _ => I) (fun s e hA h => hI op e s hp.1 hA h) fun r => ih r (hp.2 r)

/-- A triple applied to `run`. -/
theorem Triple.run {p : Prog Op Res α} (h : Triple M A P p Q C) {e : E} (hA : ∀ op, A op e) {s : σ} (hs : P s) :
    (∀ a, (Fallible.run M e p s).1 = some a → Q a (Fallible.run M e p s).2) ∧
      ((Fallible.run M e p s).1 = none → C (Fallible.run M e p s).2) := by
  have := h s _ _ hs (exec_run M e hA p s)
  constructor
  · intro a ha
    rw [ha] at this
    exact this
  · intro ha
    rw [ha] at this
    exact this

end triple

/-! ### Programs that do not abort -/

/-- From `P`, the program does not abort, and it ends in `Q` if it returns. -/
def Safe (M : Machine Op Res E σ) (A : Op → E → Prop) (P : σ → Prop) (p : Prog Op Res α) (Q : α → σ → Prop) : Prop :=
  ∀ s o s', P s → Exec M A p s o s' →
    match o with
    | .done a => Q a s'
    | .aborted => False
    | .killed => True

section safe
variable {M : Machine Op Res E σ} {A : Op → E → Prop} {P P' : σ → Prop} {Q Q' : α → σ → Prop}

theorem Safe.ret {a : α} (h : ∀ s, P s → Q a s) : Safe M A P (pure a) Q := by
  rintro s o s' hs ⟨⟩
  exact h s hs

theorem Safe.call {op : Op} {k : Res op → Prog Op Res α} {R : Res op → σ → Prop}
    (hop : ∀ s e, A op e → P s → R (M.apply op e s).1 (M.apply op e s).2)
    (hk : ∀ r, Safe M A (R r) (k r) Q) : Safe M A P (.call op k) Q := by
  rintro s o s' hs (_ | _ | _ | ⟨hA, h⟩)
  · trivial
  · exact hk _ _ _ _ (hop s _ hA hs) h

theorem Safe.bind {p : Prog Op Res α} {f : α → Prog Op Res β} {R : β → σ → Prop}
    (hp : Safe M A P p Q) (hf : ∀ a, Safe M A (Q a) (f a) R) : Safe M A P (p >>= f) R := by
  induction p generalizing P with
  | ret a => exact fun s o s' hs h => hf a s o s' (hp s _ _ hs (.ret a s)) h
  | abort =>
    rintro s o s' hs ⟨⟩
    exact hp s _ _ hs (.abort s)
  | call op k ih =>
    rintro s o s' hs (_ | _ | _ | ⟨hA, h⟩)
    · trivial
    · refine ih _ (P := fun t => t = (M.apply op _ s).2) ?_ _ _ _ rfl h
      rintro t o' t' rfl h'
      exact hp s _ _ hs (.call hA h')

theorem Safe.weaken {p : Prog Op Res α} (h : Safe M A P' p Q') (hP : ∀ s, P s → P' s)
    (hQ : ∀ a s, Q' a s → Q a s) : Safe M A P p Q := by
  intro s o s' hs he
  have := h s o s' (hP s hs) he
  cases o with
  | done a => exact hQ a s' this
  | aborted => exact this
  | killed => trivial

/-- A side condition of the precondition. -/
theorem Safe.of_prop {φ : Prop} {p : Prog Op Res α} (h : φ → Safe M A P p Q) : Safe M A (fun s => φ ∧ P s) p Q :=
  fun s o s' ⟨hφ, hs⟩ he => h hφ s o s' hs he

theorem Safe.perform {op : Op} {Q : Res op → σ → Prop}
    (hop : ∀ s e, A op e → P s → Q (M.apply op e s).1 (M.apply op e s).2) : Safe M A P (perform op) Q :=
  .call hop fun _ => .ret fun _ h => h

/-- The frame rule: what the operations keep, the program keeps, and their answers do not make it abort. -/
theorem Safe.of_calls {K : Op → Prop} {R : (op : Op) → Res op → Prop} {I : σ → Prop} {p : Prog Op Res α}
    (hI : ∀ op e s, K op → A op e → I s → R op (M.apply op e s).1 ∧ I (M.apply op e s).2)
    (hp : p.Calls K) (ha : p.Avoids R) : Safe M A I p fun _ => I := by
  induction p with
  | ret a => exact .ret fun _ h => h
  | abort => exact ha.elim
  | call op k ih =>
    refine .call (R := fun r s => R op r ∧ I s) (fun s e hA h => hI op e s hp.1 hA h) fun r => ?_
    rintro s o s' ⟨hr, hs⟩ h
    exact ih r (hp.2 r) (ha r hr) s o s' hs h

end safe

/-! ### Two machines -/

section follow
variable {F τ : Type} {M : Machine Op Res E σ} {N : Machine Op Res F τ} {A : Op → E → Prop} {B : Op → F → Prop}
  {R : σ → τ → Prop} {D : τ → Prop}

/-- An execution is followed on another machine, from a state that is related by `R`, as long as no operation leads
that machine into a bad state; such a state is never left. -/
theorem Exec.follow (hB : ∃ e, ∀ op, B op e)
    (hop : ∀ op e s t, A op e → R s t → ∃ e', B op e' ∧
      ((N.apply op e' t).1 = (M.apply op e s).1 ∧ R (M.apply op e s).2 (N.apply op e' t).2 ∨
        D (N.apply op e' t).2))
    (hbad : ∀ op e t, B op e → D t → D (N.apply op e t).2) {p : Prog Op Res α} {s s' : σ} {o : Outcome α}
    (h : Exec M A p s o s') (ho : o ≠ .killed) {t : τ} (hR : R s t) :
    ∃ o' t', Exec N B p t o' t' ∧ o' ≠ .killed ∧ (o' = o ∧ R s' t' ∨ D t') := by
  induction h generalizing t with
  | ret a s => exact ⟨.done a, t, .ret a t, ho, .inl ⟨rfl, hR⟩⟩
  | abort s => exact ⟨.aborted, t, .abort t, ho, .inl ⟨rfl, hR⟩⟩
  | kill op k s => exact absurd rfl ho
  | @call op k s e o s' hA _ ih =>
    obtain ⟨e', he', ⟨hres, hR'⟩ | hb⟩ := hop op e s t hA hR
    · obtain ⟨o', t', h', ho', hend⟩ := ih ho hR'
      exact ⟨o', t', .call he' (by rwa [hres]), ho', hend⟩
    · -- from a bad state any execution will do
      obtain ⟨a, ha⟩ := hB
      have hrun := exec_run N a ha (k (N.apply op e' t).1) (N.apply op e' t).2
      have hkeep := Triple.of_calls (I := D) (fun op e s _ he hs => hbad op e s he hs)
        (calls_true (k (N.apply op e' t).1)) _ _ _ hb hrun
      refine ⟨_, _, .call he' hrun, ?_, .inr ?_⟩
      · cases (Fallible.run N a (k (N.apply op e' t).1) (N.apply op e' t).2).1 <;> simp [outcomeOf]
      · cases hv : (Fallible.run N a (k (N.apply op e' t).1) (N.apply op e' t).2).1 <;> rw [hv] at hkeep <;>
          exact hkeep

/-- The same as long as no operation leads the first machine into a bad state. -/
theorem Exec.follow_of {D : σ → Prop}
    (hop : ∀ op e s t, A op e → R s t →
      (∃ e', B op e' ∧ (N.apply op e' t).1 = (M.apply op e s).1 ∧ R (M.apply op e s).2 (N.apply op e' t).2) ∨
        D (M.apply op e s).2)
    (hbad : ∀ op e s, A op e → D s → D (M.apply op e s).2) {p : Prog Op Res α} {s s' : σ} {o : Outcome α}
    (h : Exec M A p s o s') {t : τ} (hR : R s t) : (∃ t', Exec N B p t o t' ∧ R s' t') ∨ D s' := by
  induction h generalizing t with
  | ret a s => exact .inl ⟨t, .ret a t, hR⟩
  | abort s => exact .inl ⟨t, .abort t, hR⟩
  | kill op k s => exact .inl ⟨t, .kill op k t, hR⟩
  | @call op k s e o s' hA h ih =>
    obtain ⟨e', he', hres, hR'⟩ | hb := hop op e s t hA hR
    · exact (ih hR').imp_left fun ⟨t', h', hend⟩ => ⟨t', .call he' (by rwa [hres]), hend⟩
    · right
      have hkeep := Triple.of_calls (I := D) (fun op e s _ he hs => hbad op e s he hs) (calls_true _) _ _ _ hb h
      cases o <;> exact hkeep

end follow
end Fallible
