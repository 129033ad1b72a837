import Mathlib.Algebra.BigOperators.Group.List.Basic
import Mathlib.Algebra.Order.Ring.Int

/-!
# Ladders of closed intervals

A ladder `climb retry g as` gives each item `a` of a list the closed interval from the end of the one before it to
`retry a` further on, so neighbours share an end point.  `lastAt rungs v` is the item of the last interval that
contains `v`.

When every `retry a` is positive, `lastAt` resolves the shared end points upwards: in `ys ++ a :: zs` the item `a` owns
the half-open interval from `g + total ys` to `g + total ys + retry a` (`lastAt_climb`), and the last item owns the
upper end of the ladder as well (`lastAt_climb_top`).  Outside the ladder there is nothing.
-/

namespace Ladder

variable {α β : Type}

structure Rung (β : Type) where
  lo : Int
  hi : Int
  item : β

/-- The item of the last rung that contains `v`. -/
def lastAt (rungs : List (Rung β)) (v : Int) : Option β :=
  ((rungs.filter fun r => r.lo ≤ v ∧ v ≤ r.hi).getLast?).map (·.item)

/-- The rungs of a list of items, from level `g` on. -/
def climb (retry : α → Int) (g : Int) : List α → List (Rung α)
  | [] => []
  | a :: as => ⟨g, g + retry a, a⟩ :: climb retry (g + retry a) as

/-- The height of a list of items. -/
def total (retry : α → Int) (as : List α) : Int := (as.map retry).sum

variable {retry : α → Int} {g v : Int} {as ys zs : List α} {a : α}

@[simp] theorem total_nil : total retry [] = 0 := rfl

@[simp] theorem total_cons : total retry (a :: as) = retry a + total retry as := by simp [total]

@[simp] theorem total_append : total retry (ys ++ zs) = total retry ys + total retry zs := by simp [total]

theorem total_nonneg (h : ∀ a ∈ as, 0 < retry a) : 0 ≤ total retry as := by
  induction as with
  | nil => exact le_refl 0
  | cons a as ih =>
    have ha := h a (by simp)
    have := ih fun b hb => h b (by simp [hb])
    rw [total_cons]
    omega

@[simp] theorem lastAt_nil : lastAt ([] : List (Rung β)) v = none := rfl

theorem lastAt_append (r r' : List (Rung β)) (v : Int) : lastAt (r ++ r') v = (lastAt r' v).or (lastAt r v) := by
  simp [lastAt, List.filter_append, List.getLast?_append, Option.map_or]

theorem lastAt_cons (r : Rung β) (rs : List (Rung β)) (v : Int) :
    lastAt (r :: rs) v = (lastAt rs v).or (if r.lo ≤ v ∧ v ≤ r.hi then some r.item else none) := by
  rw [← List.singleton_append, lastAt_append]
  congr 1
  by_cases h : r.lo ≤ v ∧ v ≤ r.hi <;> simp [lastAt, h]

theorem climb_append (retry : α → Int) (g : Int) (ys zs : List α) :
    climb retry g (ys ++ zs) = climb retry g ys ++ climb retry (g + total retry ys) zs := by
  induction ys generalizing g with
  | nil => simp [climb]
  | cons y ys ih => simp [climb, ih, add_assoc]

/-- Nothing below the ladder. -/
theorem lastAt_climb_of_lt (h : ∀ a ∈ as, 0 < retry a) (hv : v < g) : lastAt (climb retry g as) v = none := by
  induction as generalizing g with
  | nil => rfl
  | cons a as ih =>
    have ha := h a (by simp)
    rw [climb, lastAt_cons, ih (fun b hb => h b (by simp [hb])) (by omega), if_neg (by dsimp only; omega)]
    rfl

/-- Nothing above the ladder. -/
theorem lastAt_climb_of_gt (h : ∀ a ∈ as, 0 < retry a) (hv : g + total retry as < v) :
    lastAt (climb retry g as) v = none := by
  induction as generalizing g with
  | nil => rfl
  | cons a as ih =>
    have ht : 0 ≤ total retry as := total_nonneg fun b hb => h b (by simp [hb])
    rw [total_cons] at hv
    rw [climb, lastAt_cons, ih (fun b hb => h b (by simp [hb])) (by omega), if_neg (by dsimp only; omega)]
    rfl

/-- An item owns its lower end; the items after it lie higher. -/
theorem lastAt_climb (h : ∀ b ∈ zs, 0 < retry b) (h₁ : g + total retry ys ≤ v)
    (h₂ : v < g + total retry ys + retry a) : lastAt (climb retry g (ys ++ a :: zs)) v = some a := by
  rw [climb_append, lastAt_append, climb, lastAt_cons, lastAt_climb_of_lt h (by omega), if_pos (by dsimp only; omega)]
  rfl

/-- The last item owns the upper end of the ladder. -/
theorem lastAt_climb_top (h : 0 < retry a) (hv : v = g + total retry ys + retry a) :
    lastAt (climb retry g (ys ++ [a])) v = some a := by
  rw [climb_append, lastAt_append, climb, lastAt_cons, climb, if_pos (by dsimp only; omega)]
  rfl

/-- Every level of the ladder is owned by an item. -/
theorem exists_owner (retry : α → Int) (as : List α) (hv : g ≤ v) (hv' : v < g + total retry as) :
    ∃ ys a zs, as = ys ++ a :: zs ∧ g + total retry ys ≤ v ∧ v < g + total retry ys + retry a := by
  induction as generalizing g with
  | nil => simp at hv'; omega
  | cons a as ih =>
    by_cases h : v < g + retry a
    · exact ⟨[], a, as, rfl, by simpa using hv, by simpa using h⟩
    · rw [total_cons] at hv'
      obtain ⟨ys, b, zs, rfl, h₁, h₂⟩ := ih (g := g + retry a) (by omega) (by omega)
      exact ⟨a :: ys, b, zs, rfl, by rw [total_cons]; omega, by rw [total_cons]; omega⟩

/-- Two items that own the same level are at the same place. -/
theorem owner_unique {ys' zs' : List α} {a' : α} (h : ∀ b ∈ ys ++ a :: zs, 0 < retry b)
    (he : ys ++ a :: zs = ys' ++ a' :: zs') (h₁ : g + total retry ys ≤ v) (h₂ : v < g + total retry ys + retry a)
    (h₁' : g + total retry ys' ≤ v) (h₂' : v < g + total retry ys' + retry a') : ys = ys' ∧ a = a' ∧ zs = zs' := by
  induction ys generalizing ys' g with
  | nil =>
    cases ys' with
    | nil => simpa using he
    | cons y' ys' =>
      obtain ⟨rfl, rfl⟩ := List.cons.inj he
      have : 0 ≤ total retry ys' := total_nonneg fun b hb => h b (by simp [hb])
      simp at h₁ h₂ h₁' h₂'
      omega
  | cons y ys ih =>
    have hy : 0 ≤ total retry ys := total_nonneg fun b hb => h b (by simp [hb])
    cases ys' with
    | nil =>
      obtain ⟨rfl, rfl⟩ := List.cons.inj he
      simp at h₁ h₂ h₁' h₂'
      omega
    | cons y' ys' =>
      obtain ⟨rfl, he'⟩ := List.cons.inj he
      simp only [total_cons] at h₁ h₂ h₁' h₂'
      obtain ⟨rfl, rfl, rfl⟩ := ih (g := g + retry y) (fun b hb => h b (by simp [hb])) he' (by omega) (by omega)
        (by omega) (by omega)
      exact ⟨rfl, rfl, rfl⟩

end Ladder
