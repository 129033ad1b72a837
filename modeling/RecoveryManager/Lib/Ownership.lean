import Mathlib.Data.List.Perm.Basic
import RecoveryManager.Lib.RefCount

/-!
# Objects that own objects

A counted object may hold references to others in its fields; the release that frees it releases those as well
(`release`, with the references still to be released on a work list).

`c.Owns fields hand live` says that the references to the objects in `live` are those in `hand` and those in the fields
of `live`.  Each operation has a rule.  Releasing what is in hand comes to an end and keeps what is held up otherwise: a
set of objects each of which is in hand or in a field of another is not freed (`Supported`, `Owns.release`), and what is
live is such a set (`Owns.supported`).
-/

namespace RefCount

variable {Obj : Type} [DecidableEq Obj]

namespace Store

/-- The objects of the work list are released in turn; `none` when there is no more fuel. -/
def release (fields : Obj → List Obj) : Nat → List Obj → Store Obj → Option (Store Obj)
  | _, [], c => some c
  | 0, _ :: _, _ => none
  | n + 1, o :: os, c => release fields n (if c.count o = 1 then fields o ++ os else os) (c.unref o)

/-- The releases came to an end with `c'`. -/
def Released (fields : Obj → List Obj) (os : List Obj) (c c' : Store Obj) : Prop :=
  ∃ n, release fields n os c = some c'

private theorem release_mono {fields : Obj → List Obj} {n m : Nat} {os : List Obj} {c c' : Store Obj}
    (h : release fields n os c = some c') (hn : n ≤ m) : release fields m os c = some c' := by
  induction n generalizing m os c with
  | zero =>
    cases os with
    | nil => cases m <;> exact h
    | cons o os => cases h
  | succ n ih =>
    obtain ⟨m, rfl⟩ : ∃ k, m = k + 1 := ⟨m - 1, by omega⟩
    cases os with
    | nil => exact h
    | cons o os =>
      have h : release fields n (if c.count o = 1 then fields o ++ os else os) (c.unref o) = some c' := h
      show release fields m _ _ = _
      exact ih h (by omega)

theorem Released.unique {fields : Obj → List Obj} {os : List Obj} {c c₁ c₂ : Store Obj}
    (h₁ : Released fields os c c₁) (h₂ : Released fields os c c₂) : c₁ = c₂ := by
  obtain ⟨n, h₁⟩ := h₁
  obtain ⟨m, h₂⟩ := h₂
  have h₁ := release_mono h₁ (Nat.le_max_left n m)
  have h₂ := release_mono h₂ (Nat.le_max_right n m)
  exact Option.some.inj (h₁.symm.trans h₂)

/-- Each object of `S` is in hand or in a field of an object of `S`. -/
def Supported (fields : Obj → List Obj) (hand : List Obj) (S : Obj → Prop) : Prop :=
  ∀ o, S o → o ∈ hand ∨ ∃ p, S p ∧ o ∈ fields p

/-- The references held are those in hand and those in the fields of what is live. -/
structure Owns (c : Store Obj) (fields : Obj → List Obj) (hand live : List Obj) : Prop where
  holds : c.Holds ↑(hand ++ live.flatMap fields)
  nodup : live.Nodup
  live_iff : ∀ o, o ∈ live ↔ c.count o ≠ 0

namespace Owns

variable {c : Store Obj} {fields : Obj → List Obj} {hand live : List Obj} {o : Obj}

theorem congr {hand' live' : List Obj} {fields' : Obj → List Obj} (h : c.Owns fields hand live)
    (hp : (hand ++ live.flatMap fields).Perm (hand' ++ live'.flatMap fields')) (hl : live.Perm live') :
    c.Owns fields' hand' live' :=
  ⟨Multiset.coe_eq_coe.2 hp ▸ h.holds, hl.nodup_iff.1 h.nodup, fun o => hl.mem_iff.symm.trans (h.live_iff o)⟩

theorem mem_of_live (h : c.Owns fields hand live) (ho : o ∈ live) : o ∈ hand ++ live.flatMap fields := by
  have hpos := (h.live_iff o).1 ho
  rw [h.holds.count, Multiset.coe_count] at hpos
  exact List.count_pos_iff.1 (Nat.pos_of_ne_zero hpos)

theorem supported (h : c.Owns fields hand live) : Supported fields hand (· ∈ live) := fun _ ho =>
  (List.mem_append.1 (h.mem_of_live ho)).imp_right List.mem_flatMap.1

theorem made_of_live (h : c.Owns fields hand live) (ho : o ∈ live) : o ∈ c.made :=
  (h.holds.mem_made o).2 (.inl (Multiset.mem_coe.2 (h.mem_of_live ho)))

/-- What was made and is not live has been freed. -/
theorem mem_freed (h : c.Owns fields hand live) (o : Obj) : o ∈ c.freed ↔ o ∈ c.made ∧ o ∉ live := by
  constructor
  · intro ho
    have hmade := (h.holds.mem_made o).2 (.inr ho)
    exact ⟨hmade, fun hl => h.holds.not_freed o (Multiset.mem_coe.2 (h.mem_of_live hl)) ho⟩
  · rintro ⟨hmade, hl⟩
    rwa [h.holds.mem_freed_iff hmade, ← Multiset.count_ne_zero, ← h.holds.count, ← h.live_iff]

private theorem count_unref {c : Store Obj} {h : Multiset Obj} (hc : c.Holds (o ::ₘ h)) (x : Obj) :
    (c.unref o).count x = if x = o then c.count o - 1 else c.count x := by
  rw [hc.unref.count, hc.count, hc.count, Multiset.count_cons_self]
  split
  · rename_i hx
    rw [hx, Nat.add_sub_cancel]
  · rename_i hx
    rw [Multiset.count_cons_of_ne hx]

theorem use (h : c.Owns fields hand live) (ho : o ∈ live) : (c.use o).Owns fields hand live := by
  unfold Store.use
  rw [if_neg ((h.live_iff o).1 ho)]
  exact h

theorem ref (h : c.Owns fields hand live) (ho : o ∈ live) : (c.ref o).Owns fields (o :: hand) live := by
  have hpos := (h.live_iff o).1 ho
  have hmem : o ∈ (↑(hand ++ live.flatMap fields) : Multiset Obj) :=
    Multiset.count_ne_zero.1 (h.holds.count o ▸ hpos)
  refine ⟨h.holds.ref hmem, h.nodup, fun x => ?_⟩
  unfold Store.ref
  rw [if_neg hpos, h.live_iff]
  by_cases hx : x = o
  · subst hx
    simp [hpos]
  · simp [hx]

private theorem refs {c : Store Obj} {fields : Obj → List Obj} {hand live : List Obj} (os : List Obj)
    (h : c.Owns fields hand live) (ho : ∀ o ∈ os, o ∈ live) :
    (os.foldl Store.ref c).Owns fields (os ++ hand) live := by
  induction os generalizing c hand with
  | nil => exact h
  | cons o os ih =>
    exact (ih (h.ref (ho o (by simp))) fun x hx => ho x (by simp [hx])).congr
      (List.perm_middle.append_right _) (.refl _)

/-- A new object, with references to others in its fields. -/
theorem make (h : c.Owns fields hand live) (ho : o ∉ c.made) (hf : ∀ p ∈ fields o, p ∈ live) :
    ((fields o).foldl Store.ref (c.new o)).Owns fields (o :: hand) (o :: live) := by
  have hdead : o ∉ live := fun hm => ho ((h.holds.mem_made o).2 (.inl
    (Multiset.count_ne_zero.1 (h.holds.count o ▸ (h.live_iff o).1 hm))))
  have hrest : live.flatMap (fun p => if p = o then [] else fields p) = live.flatMap fields :=
    List.flatMap_congr fun p hp => if_neg (by rintro rfl; exact hdead hp)
  -- before its fields are set
  have hnew : (c.new o).Owns (fun p => if p = o then [] else fields p) (o :: hand) (o :: live) := by
    refine ⟨?_, List.nodup_cons.2 ⟨hdead, h.nodup⟩, fun x => ?_⟩
    · rw [List.flatMap_cons, if_pos rfl, hrest]
      exact h.holds.new ho
    · show _ ↔ Function.update c.count o 1 x ≠ 0
      rw [List.mem_cons, h.live_iff]
      by_cases hx : x = o
      · simp [hx]
      · simp [hx]
  refine (hnew.refs (fields o) fun p hp => List.mem_cons_of_mem o (hf p hp)).congr ?_ (.refl _)
  rw [List.flatMap_cons, if_pos rfl, hrest, List.flatMap_cons, List.nil_append, List.append_assoc]
  exact List.perm_append_comm_assoc _ _ _

/-- A release that is not the last one. -/
theorem drop (h : c.Owns fields (o :: hand) live) (hn : c.count o ≠ 1) : (c.unref o).Owns fields hand live := by
  have hh : c.Holds (o ::ₘ ↑(hand ++ live.flatMap fields)) := h.holds
  refine ⟨hh.unref, h.nodup, fun x => ?_⟩
  rw [h.live_iff, count_unref hh]
  have hpos : c.count o ≠ 0 := hh.count_pos (Multiset.mem_cons_self _ _)
  split
  · rename_i hx
    subst hx
    omega
  · exact Iff.rfl

/-- The last release: the fields of the object come to hand. -/
theorem free (h : c.Owns fields (o :: hand) live) (hn : c.count o = 1) :
    (c.unref o).Owns fields (fields o ++ hand) (live.erase o) := by
  have hh : c.Holds (o ::ₘ ↑(hand ++ live.flatMap fields)) := h.holds
  have ho : o ∈ live := (h.live_iff o).2 (by omega)
  have hp : (hand ++ live.flatMap fields).Perm (fields o ++ hand ++ (live.erase o).flatMap fields) := by
    have := (List.perm_cons_erase ho).flatMap_right fields
    rw [List.flatMap_cons] at this
    exact (this.append_left hand).trans (by
      rw [← List.append_assoc]
      exact (List.perm_append_comm).append_right _)
  refine ⟨Multiset.coe_eq_coe.2 hp ▸ hh.unref, h.nodup.erase o, fun x => ?_⟩
  rw [h.nodup.mem_erase_iff, h.live_iff, count_unref hh]
  split
  · rename_i hx
    simp [hx, hn]
  · rename_i hx
    simp [hx]

private theorem exists_release {n : Nat} {os : List Obj} (h : c.Owns fields (os ++ hand) live)
    (hn : (os ++ live.flatMap fields).length ≤ n) :
    ∃ c' live', c.release fields n os = some c' ∧ c'.Owns fields hand live' ∧ c'.made = c.made ∧
      (∀ o ∈ live', o ∈ live) ∧ ∀ S, Supported fields hand S → (∀ o, S o → o ∈ live) → ∀ o, S o → o ∈ live' := by
  induction n generalizing os c live with
  | zero =>
    obtain rfl : os = [] := List.eq_nil_of_length_eq_zero (by rw [List.length_append] at hn; omega)
    exact ⟨c, live, rfl, h, rfl, fun _ h => h, fun _ _ h => h⟩
  | succ n ih =>
    cases os with
    | nil => exact ⟨c, live, rfl, h, rfl, fun _ h => h, fun _ _ h => h⟩
    | cons o os =>
      have h : c.Owns fields (o :: (os ++ hand)) live := h
      by_cases ho : c.count o = 1
      · have hlive : o ∈ live := (h.live_iff o).2 (by omega)
        have hnext : (c.unref o).Owns fields ((fields o ++ os) ++ hand) (live.erase o) := by
          rw [List.append_assoc]
          exact h.free ho
        have hlen : (fields o ++ os ++ (live.erase o).flatMap fields).length ≤ n := by
          have := ((List.perm_cons_erase hlive).flatMap_right fields).length_eq
          simp only [List.flatMap_cons, List.length_append, List.length_cons] at this hn ⊢
          omega
        obtain ⟨c', live', hr, hc', hmade', hsub, hS⟩ := ih hnext hlen
        refine ⟨c', live', ?_, hc', hmade'.trans (unref_made c o), fun x hx => List.mem_of_mem_erase (hsub x hx),
          fun S hs hin x hx => hS S hs (fun y hy => ?_) x hx⟩
        · show Store.release fields n _ _ = _
          rw [if_pos ho]
          exact hr
        · -- `o` had only the reference on the work list
          refine (List.mem_erase_of_ne ?_).2 (hin y hy)
          rintro rfl
          have hcount := h.holds.count y
          rw [ho, Multiset.coe_count, List.cons_append, List.count_cons_self, List.count_append, List.count_append]
            at hcount
          rcases hs y hy with hy | ⟨p, hp, hyp⟩
          · have := List.count_pos_iff.2 hy
            omega
          · have := List.count_pos_iff.2 (List.mem_flatMap.2 ⟨p, hin p hp, hyp⟩)
            omega
      · have hlen : (os ++ live.flatMap fields).length ≤ n := by
          simp only [List.length_append, List.length_cons] at hn ⊢
          omega
        obtain ⟨c', live', hr, hc', hmade', hsub, hS⟩ := ih (h.drop ho) hlen
        refine ⟨c', live', ?_, hc', hmade'.trans (unref_made c o), hsub, hS⟩
        show Store.release fields n _ _ = _
        rw [if_neg ho]
        exact hr

/-- The releases come to an end. -/
theorem exists_released {os : List Obj} (h : c.Owns fields (os ++ hand) live) : ∃ c', Released fields os c c' := by
  obtain ⟨c', -, hr, -⟩ := h.exists_release (Nat.le_refl _)
  exact ⟨c', _, hr⟩

/-- What is released no longer counts as in hand; what is held up otherwise stays. -/
theorem release {os : List Obj} {c' : Store Obj} (h : c.Owns fields (os ++ hand) live) (hr : Released fields os c c') :
    ∃ live', c'.Owns fields hand live' ∧ c'.made = c.made ∧ (∀ o ∈ live', o ∈ live) ∧
      ∀ S, Supported fields hand S → (∀ o, S o → o ∈ live) → ∀ o, S o → o ∈ live' := by
  obtain ⟨c₁, live', hr₁, h₁⟩ := h.exists_release (Nat.le_refl _)
  obtain rfl := hr.unique ⟨_, hr₁⟩
  exact ⟨live', h₁⟩

/-- What is released is held otherwise. -/
theorem release_held {os : List Obj} {c' : Store Obj} (h : c.Owns fields (os ++ hand) live)
    (hr : Released fields os c c') (ho : ∀ o ∈ os, o ∈ hand) : c'.Owns fields hand live ∧ c'.made = c.made := by
  obtain ⟨live', hc', hmade, hsub, hS⟩ := h.release hr
  have hlive : Supported fields hand (· ∈ live) := fun o hm => (h.supported o hm).imp_left fun hm =>
    (List.mem_append.1 hm).elim (ho o) id
  have hp : live'.Perm live := (List.perm_ext_iff_of_nodup hc'.nodup h.nodup).2 fun o =>
    ⟨hsub o, hS _ hlive (fun _ hm => hm) o⟩
  exact ⟨hc'.congr ((hp.flatMap_right fields).append_left hand) hp, hmade⟩

/-- Only `x` is not held otherwise. -/
theorem release_last {os : List Obj} {c' : Store Obj} {x : Obj} (h : c.Owns fields (os ++ hand) live)
    (hr : Released fields os c c') (hx : x ∉ hand ++ live.flatMap fields)
    (hS : Supported fields hand fun o => o ∈ live ∧ o ≠ x) :
    c'.Owns fields hand (live.erase x) ∧ c'.made = c.made := by
  obtain ⟨live', hc', hmade, hsub, hkeep⟩ := h.release hr
  have hp : live'.Perm (live.erase x) := (List.perm_ext_iff_of_nodup hc'.nodup (h.nodup.erase x)).2 fun o => by
    rw [h.nodup.mem_erase_iff]
    refine ⟨fun hm => ⟨?_, hsub o hm⟩, fun hm => hkeep _ hS (fun _ h => h.1) o ⟨hm.2, hm.1⟩⟩
    rintro rfl
    refine hx ((List.mem_append.1 (hc'.mem_of_live hm)).elim (List.mem_append_left _) fun hm => ?_)
    obtain ⟨p, hp, hop⟩ := List.mem_flatMap.1 hm
    exact List.mem_append_right _ (List.mem_flatMap.2 ⟨p, hsub p hp, hop⟩)
  exact ⟨hc'.congr ((hp.flatMap_right fields).append_left hand) hp, hmade⟩

end Owns

end Store

end RefCount
