import Mathlib.Algebra.Group.Pi.Basic
import RecoveryManager.Network

/-!
# Copies of a failure

What instances tell each other of one failure of a service, as numbers of copies (`Tally`) and the ways in which they
are made of each other (`Tally.Step`).  A replica that handles a copy sends it back to the primary; as long as the
primary does not pass on again what it knows, there is one copy for every instance but the originator
(`Tally.Once.step`).
-/

namespace RecoveryManager

variable {n : Nat}

/-- The copies of one failure: executor events pushed, dispatcher events waiting, messages to the replicas and to the
primary on their way, all messages ever sent in both directions, and requests to the primary still to be sent. -/
@[ext]
structure Tally (n : Nat) where
  pushed : Site n → Nat
  waiting : Site n → Nat
  down : Fin n → Nat
  up : Fin n → Nat
  sent : Fin n → Nat
  requested : Fin n → Nat
  jobs : Fin n → Nat

namespace Tally

def notOrigin (o s : Site n) : Nat := if o = s then 0 else 1

/-- What can become of the copies of a failure of `o`; a step leaves `t`, and more, as it is. -/
inductive Step (o : Site n) : Tally n → Tally n → Prop
  | rest (t : Tally n) : Step o t t
  | read (t : Tally n) (i : Fin n) :
      Step o { t with up := t.up + Pi.single i 1 } { t with waiting := t.waiting + Pi.single .primary 1 }
  | deliver (t : Tally n) (i : Fin n) :
      Step o { t with down := t.down + Pi.single i 1 } { t with waiting := t.waiting + Pi.single (.replica i) 1 }
  | relay (t : Tally n) : Step o { t with waiting := t.waiting + Pi.single .primary 1 }
      { t with
        pushed := t.pushed + Pi.single .primary (notOrigin o .primary)
        down := t.down + fun i => notOrigin o (.replica i)
        sent := t.sent + fun i => notOrigin o (.replica i) }
  | echo (t : Tally n) (i : Fin n) : Step o { t with waiting := t.waiting + Pi.single (.replica i) 1 }
      { t with
        pushed := t.pushed + Pi.single (.replica i) (notOrigin o (.replica i))
        up := t.up + Pi.single i 1
        requested := t.requested + Pi.single i 1 }
  | forward (t : Tally n) (i : Fin n) :
      Step o { t with jobs := t.jobs + Pi.single i 1 } { t with requested := t.requested + Pi.single i 1 }

section intro
variable {o : Site n} {t t' : Tally n}

theorem Step.of_eq (h : t' = t) : Step o t t' := by
  rw [h]
  exact .rest t

theorem Step.of_read {i : Fin n} (hup : t.up = t'.up + Pi.single i 1)
    (hwaiting : t'.waiting = t.waiting + Pi.single .primary 1) (hpushed : t'.pushed = t.pushed)
    (hdown : t'.down = t.down)
    (hsent : t'.sent = t.sent) (hrequested : t'.requested = t.requested) (hjobs : t'.jobs = t.jobs) : Step o t t' := by
  cases t
  cases t'
  dsimp only at *
  subst hup hwaiting hpushed hdown hsent hrequested hjobs
  exact .read ⟨_, _, _, _, _, _, _⟩ i

theorem Step.of_deliver {i : Fin n} (hdown : t.down = t'.down + Pi.single i 1)
    (hwaiting : t'.waiting = t.waiting + Pi.single (.replica i) 1) (hpushed : t'.pushed = t.pushed) (hup : t'.up = t.up)
    (hsent : t'.sent = t.sent) (hrequested : t'.requested = t.requested) (hjobs : t'.jobs = t.jobs) : Step o t t' := by
  cases t
  cases t'
  dsimp only at *
  subst hdown hwaiting hpushed hup hsent hrequested hjobs
  exact .deliver ⟨_, _, _, _, _, _, _⟩ i

theorem Step.of_relay (hwaiting : t.waiting = t'.waiting + Pi.single .primary 1)
    (hpushed : t'.pushed = t.pushed + Pi.single .primary (notOrigin o .primary))
    (hdown : t'.down = t.down + fun i => notOrigin o (.replica i))
    (hsent : t'.sent = t.sent + fun i => notOrigin o (.replica i))
    (hup : t'.up = t.up) (hrequested : t'.requested = t.requested) (hjobs : t'.jobs = t.jobs) : Step o t t' := by
  cases t
  cases t'
  dsimp only at *
  subst hwaiting hpushed hdown hsent hup hrequested hjobs
  exact .relay ⟨_, _, _, _, _, _, _⟩

theorem Step.of_echo {i : Fin n} (hwaiting : t.waiting = t'.waiting + Pi.single (.replica i) 1)
    (hpushed : t'.pushed = t.pushed + Pi.single (.replica i) (notOrigin o (.replica i)))
    (hup : t'.up = t.up + Pi.single i 1) (hrequested : t'.requested = t.requested + Pi.single i 1)
    (hdown : t'.down = t.down) (hsent : t'.sent = t.sent) (hjobs : t'.jobs = t.jobs) : Step o t t' := by
  cases t
  cases t'
  dsimp only at *
  subst hwaiting hpushed hup hrequested hdown hsent hjobs
  exact .echo ⟨_, _, _, _, _, _, _⟩ i

theorem Step.of_forward {i : Fin n} (hjobs : t.jobs = t'.jobs + Pi.single i 1)
    (hrequested : t'.requested = t.requested + Pi.single i 1) (hpushed : t'.pushed = t.pushed)
    (hwaiting : t'.waiting = t.waiting) (hdown : t'.down = t.down) (hup : t'.up = t.up) (hsent : t'.sent = t.sent) :
    Step o t t' := by
  cases t
  cases t'
  dsimp only at *
  subst hjobs hrequested hpushed hwaiting hdown hup hsent
  exact .forward ⟨_, _, _, _, _, _, _⟩ i

end intro

/-- Before the primary has passed the failure on. -/
structure Coming (j : Fin n) (t : Tally n) : Prop where
  primary : t.waiting .primary + t.up j = 1
  notPushed : t.pushed = 0
  notSent : t.sent = 0
  notDown : t.down = 0
  notWaiting : ∀ i, t.waiting (.replica i) = 0
  silent : ∀ i, i ≠ j → t.up i = 0 ∧ t.requested i = 0 ∧ t.jobs i = 0
  origin : t.requested j + t.jobs j ≤ 2

/-- After that. -/
structure Relayed (o : Site n) (t : Tally n) : Prop where
  primary : t.pushed .primary = notOrigin o .primary
  replica : ∀ i, o ≠ .replica i → t.down i + t.waiting (.replica i) + t.pushed (.replica i) = 1 ∧ t.sent i = 1 ∧
    t.requested i = t.pushed (.replica i) ∧ t.jobs i = 0
  origin : ∀ j, o = .replica j → t.down j = 0 ∧ t.waiting (.replica j) = 0 ∧ t.pushed (.replica j) = 0 ∧ t.up j = 0 ∧
    t.sent j = 0 ∧ t.requested j + t.jobs j ≤ 2

/-- One copy of the failure for every instance but the one it happened on. -/
def Once (o : Site n) (t : Tally n) : Prop := (∃ j, o = .replica j ∧ t.Coming j) ∨ t.Relayed o

/-- The primary knows of the failure. -/
def Known (o : Site n) (t : Tally n) : Prop := o = .primary ∨ 0 < t.pushed .primary

variable {o : Site n} {t t' : Tally n}

private theorem notOrigin_self (o : Site n) : notOrigin o o = 0 := if_pos rfl

private theorem notOrigin_of_ne {s : Site n} (h : o ≠ s) : notOrigin o s = 1 := if_neg h

/-- Before the failure is passed on, the only copy is the one for the primary. -/
private theorem Coming.step {j : Fin n} (ho : o = .replica j) (h : t.Coming j) (hs : Step o t t') : t'.Once o := by
  cases hs with
  | rest => exact .inl ⟨j, ho, h⟩
  | read t i =>
    by_cases hi : i = j
    · subst hi
      have hp : t.waiting .primary + (t.up i + 1) = 1 := by simpa using h.primary
      refine .inl ⟨i, ho, ?_, h.notPushed, h.notSent, h.notDown, fun k => ?_, fun k hk => ?_, h.origin⟩
      · simp
        omega
      · simpa using h.notWaiting k
      · simpa [Pi.single_apply, hk] using h.silent k hk
    · have hup := (h.silent i hi).1
      simp at hup
  | deliver t i =>
    -- nothing is on its way down yet
    have hdown := congrFun h.notDown i
    simp at hdown
  | relay t =>
    -- the one step that ends the way of the notice: the primary sends it to every other replica
    have hp : t.waiting .primary + 1 + t.up j = 1 := by simpa using h.primary
    have hwaiting : ∀ i, t.waiting (.replica i) = 0 := fun i => by simpa using h.notWaiting i
    have hpushed : t.pushed = 0 := h.notPushed
    have hdown : t.down = 0 := h.notDown
    have hsent : t.sent = 0 := h.notSent
    refine .inr ⟨by simp [hpushed], fun i hi => ?_, fun k hk => ?_⟩
    · have hne : i ≠ j := by
        rintro rfl
        exact hi ho
      obtain ⟨-, hr, hj⟩ := h.silent i hne
      refine ⟨by simp [hdown, hwaiting, hpushed, notOrigin_of_ne hi], by simp [hsent, notOrigin_of_ne hi], ?_, hj⟩
      simpa [hpushed] using hr
    · obtain rfl : j = k := Site.replica.inj (ho.symm.trans hk)
      refine ⟨by simp [hdown, ho, notOrigin_self], hwaiting j, by simp [hpushed], ?_,
        by simp [hsent, ho, notOrigin_self],
        h.origin⟩
      show t.up j = 0
      omega
  | echo t i =>
    have hwaiting := h.notWaiting i
    simp at hwaiting
  | forward t i =>
    by_cases hi : i = j
    · subst hi
      have horigin : t.requested i + (t.jobs i + 1) ≤ 2 := by simpa using h.origin
      refine .inl ⟨i, ho, h.primary, h.notPushed, h.notSent, h.notDown, h.notWaiting, fun k hk => ?_, ?_⟩
      · simpa [Pi.single_apply, hk] using h.silent k hk
      · simp
        omega
    · have hjobs := (h.silent i hi).2.2
      simp at hjobs

/-- Once it is passed on, each copy is handled without another being made, as long as the primary takes none. -/
private theorem Relayed.step (h : t.Relayed o) (hs : Step o t t')
    (hfresh : t'.waiting .primary < t.waiting .primary → ¬ t.Known o) : t'.Relayed o := by
  cases hs with
  | rest => exact h
  | read t i =>
    -- a notice on its way up is the origin's own, and it has been relayed already
    have hne : o ≠ .replica i := by
      intro ho
      have hup := (h.origin i ho).2.2.2.1
      simp at hup
    refine ⟨h.primary, fun k hk => by simpa using h.replica k hk, fun k hk => ?_⟩
    have hki : k ≠ i := by
      rintro rfl
      exact hne hk
    simpa [Pi.single_apply, hki] using h.origin k hk
  | deliver t i =>
    have hne : o ≠ .replica i := by
      intro ho
      have hdown := (h.origin i ho).1
      simp at hdown
    refine ⟨h.primary, fun k hk => ?_, fun k hk => ?_⟩
    · have hreplica := h.replica k hk
      by_cases hki : k = i
      · subst hki
        simp only [Pi.add_apply, Pi.single_eq_same] at hreplica ⊢
        omega
      · simpa [Pi.single_apply, hki] using hreplica
    · have hki : k ≠ i := by
        rintro rfl
        exact hne hk
      simpa [Pi.single_apply, hki] using h.origin k hk
  | relay t =>
    -- the primary has relayed once, so another notice that waits would be one it knows
    refine absurd ?_ (hfresh (by simp))
    by_cases ho : o = .primary
    · exact .inl ho
    · refine .inr ?_
      have hp : t.pushed .primary = notOrigin o .primary := h.primary
      show 0 < t.pushed .primary
      rw [hp, notOrigin_of_ne ho]
      exact Nat.one_pos
  | echo t i =>
    have hne : o ≠ .replica i := by
      intro ho
      have hwaiting := (h.origin i ho).2.1
      simp at hwaiting
    refine ⟨by simpa using h.primary, fun k hk => ?_, fun k hk => ?_⟩
    · have hreplica := h.replica k hk
      by_cases hki : k = i
      · subst hki
        simp only [Pi.add_apply, Pi.single_eq_same, notOrigin_of_ne hne] at hreplica ⊢
        omega
      · simpa [Pi.single_apply, hki] using hreplica
    · have hki : k ≠ i := by
        rintro rfl
        exact hne hk
      simpa [Pi.single_apply, hki] using h.origin k hk
  | forward t i =>
    -- only the origin has requests to forward
    have ho : o = .replica i := by
      by_contra hne
      have hjobs := (h.replica i hne).2.2.2
      simp at hjobs
    refine ⟨h.primary, fun k hk => ?_, fun k hk => ?_⟩
    · have hki : k ≠ i := by
        rintro rfl
        exact hk ho
      simpa [Pi.single_apply, hki] using h.replica k hk
    · obtain rfl : i = k := Site.replica.inj (ho.symm.trans hk)
      have horigin := h.origin i hk
      simp only [Pi.add_apply, Pi.single_eq_same] at horigin ⊢
      omega

/-- A step keeps one copy for each, if the primary does not pass on what it knows. -/
theorem Once.step (h : t.Once o) (hs : Step o t t') (hfresh : t'.waiting .primary < t.waiting .primary → ¬ t.Known o) :
    t'.Once o := by
  rcases h with ⟨j, ho, h⟩ | h
  · exact h.step ho hs
  · exact .inr (h.step hs hfresh)

end Tally

end RecoveryManager
