import Mathlib.Data.List.Nodup
import Mathlib.Data.Multiset.AddSub
import Mathlib.Data.Multiset.Count
import Mathlib.Logic.Function.Basic

/-!
# Reference counting

A store of counted objects and the four operations on it: an object is made with one reference, used, referenced again
and released; the last release frees it.  Using, referencing or releasing an object that is not there is a fault.

`c.Holds h` says that the references the program has in its hands are `h`, a multiset of objects: every count is right,
nothing has gone wrong so far, and what was made is either still held or was freed exactly once.  Each operation has a
rule: it needs a reference to the object, and says which references are held afterwards.
-/

namespace RefCount

variable {Obj : Type} [DecidableEq Obj]

structure Store (Obj : Type) where
  count : Obj → Nat
  made : List Obj
  freed : List Obj
  faults : List Obj

namespace Store

def empty : Store Obj := ⟨fun _ => 0, [], [], []⟩

def new (c : Store Obj) (o : Obj) : Store Obj :=
  { c with count := Function.update c.count o 1, made := c.made ++ [o] }

def fault (c : Store Obj) (o : Obj) : Store Obj := { c with faults := c.faults ++ [o] }

/-- A read or a write of the object. -/
def use (c : Store Obj) (o : Obj) : Store Obj := if c.count o = 0 then c.fault o else c

def ref (c : Store Obj) (o : Obj) : Store Obj :=
  if c.count o = 0 then c.fault o else { c with count := Function.update c.count o (c.count o + 1) }

def unref (c : Store Obj) (o : Obj) : Store Obj :=
  match c.count o with
  | 0 => c.fault o
  | 1 => { c with count := Function.update c.count o 0, freed := c.freed ++ [o] }
  | n + 2 => { c with count := Function.update c.count o (n + 1) }

omit [DecidableEq Obj] in
@[simp] theorem use_made (c : Store Obj) (o : Obj) : (c.use o).made = c.made := by
  unfold use
  split <;> rfl

@[simp] theorem ref_made (c : Store Obj) (o : Obj) : (c.ref o).made = c.made := by
  unfold ref
  split <;> rfl

@[simp] theorem unref_made (c : Store Obj) (o : Obj) : (c.unref o).made = c.made := by
  unfold unref
  split <;> rfl

/-- The references held are `h`. -/
structure Holds (c : Store Obj) (h : Multiset Obj) : Prop where
  count : ∀ o, c.count o = h.count o
  faults : c.faults = []
  made : c.made.Nodup
  freed : c.freed.Nodup
  mem_made : ∀ o, o ∈ c.made ↔ o ∈ h ∨ o ∈ c.freed
  not_freed : ∀ o ∈ h, o ∉ c.freed

variable {c : Store Obj} {h : Multiset Obj} {o : Obj}

theorem holds_empty : (empty : Store Obj).Holds 0 :=
  ⟨fun _ => rfl, rfl, .nil, .nil, fun _ => by simp [empty], fun _ ho => by simp at ho⟩

omit [DecidableEq Obj] in
private theorem nodup_snoc {l : List Obj} (hl : l.Nodup) (ho : o ∉ l) : (l ++ [o]).Nodup := by
  rw [← List.concat_eq_append]
  exact hl.concat ho

namespace Holds

theorem count_pos (hc : c.Holds h) (ho : o ∈ h) : c.count o ≠ 0 := by
  rw [hc.count]
  exact (Multiset.count_pos.2 ho).ne'

theorem new (hc : c.Holds h) (ho : o ∉ c.made) : (c.new o).Holds (o ::ₘ h) := by
  have hh : o ∉ h := fun hm => ho ((hc.mem_made o).2 (.inl hm))
  have hf : o ∉ c.freed := fun hm => ho ((hc.mem_made o).2 (.inr hm))
  refine ⟨fun x => ?_, hc.faults, nodup_snoc hc.made ho, hc.freed, fun x => ?_, fun x hx => ?_⟩
  · show Function.update c.count o 1 x = _
    by_cases hx : x = o
    · subst hx
      rw [Function.update_self, Multiset.count_cons_self, Multiset.count_eq_zero.2 hh]
    · rw [Function.update_of_ne hx, Multiset.count_cons_of_ne hx, hc.count]
  · show x ∈ c.made ++ [o] ↔ x ∈ o ::ₘ h ∨ x ∈ c.freed
    rw [List.mem_append, List.mem_singleton, Multiset.mem_cons, hc.mem_made]
    tauto
  · rcases Multiset.mem_cons.1 hx with rfl | hx
    · exact hf
    · exact hc.not_freed x hx

theorem use (hc : c.Holds h) (ho : o ∈ h) : (c.use o).Holds h := by
  unfold Store.use
  rw [if_neg (hc.count_pos ho)]
  exact hc

theorem ref (hc : c.Holds h) (ho : o ∈ h) : (c.ref o).Holds (o ::ₘ h) := by
  unfold Store.ref
  rw [if_neg (hc.count_pos ho)]
  refine ⟨fun x => ?_, hc.faults, hc.made, hc.freed, fun x => ?_, fun x hx => ?_⟩
  · show Function.update c.count o (c.count o + 1) x = _
    by_cases hx : x = o
    · subst hx
      rw [Function.update_self, Multiset.count_cons_self, hc.count]
    · rw [Function.update_of_ne hx, Multiset.count_cons_of_ne hx, hc.count]
  · show x ∈ c.made ↔ x ∈ o ::ₘ h ∨ x ∈ c.freed
    rw [Multiset.mem_cons, hc.mem_made]
    constructor
    · tauto
    · rintro ((rfl | hx) | hx)
      · exact .inl ho
      · exact .inl hx
      · exact .inr hx
  · rcases Multiset.mem_cons.1 hx with rfl | hx
    · exact hc.not_freed x ho
    · exact hc.not_freed x hx

theorem unref (hc : c.Holds (o ::ₘ h)) : (c.unref o).Holds h := by
  have hn : c.count o = h.count o + 1 := by rw [hc.count, Multiset.count_cons_self]
  have hne : ∀ x, x ≠ o → c.count x = h.count x := fun x hx => by rw [hc.count, Multiset.count_cons_of_ne hx]
  have hmem : ∀ x, x ∈ c.made ↔ (x = o ∨ x ∈ h) ∨ x ∈ c.freed := fun x => by
    rw [hc.mem_made, Multiset.mem_cons]
  unfold Store.unref
  rw [hn]
  cases hk : h.count o with
  | zero =>
    -- the last reference
    have hh : o ∉ h := Multiset.count_eq_zero.1 hk
    have hf : o ∉ c.freed := hc.not_freed o (Multiset.mem_cons_self o h)
    refine ⟨fun x => ?_, hc.faults, hc.made, nodup_snoc hc.freed hf, fun x => ?_, fun x hx => ?_⟩
    · show Function.update c.count o 0 x = _
      by_cases hx : x = o
      · subst hx
        rw [Function.update_self, hk]
      · rw [Function.update_of_ne hx, hne x hx]
    · show x ∈ c.made ↔ x ∈ h ∨ x ∈ c.freed ++ [o]
      rw [hmem, List.mem_append, List.mem_singleton]
      tauto
    · have hxo : x ≠ o := fun e => hh (e ▸ hx)
      have := hc.not_freed x (Multiset.mem_cons_of_mem hx)
      show x ∉ c.freed ++ [o]
      simp [this, hxo]
  | succ n =>
    have hh : o ∈ h := Multiset.count_pos.1 (by omega)
    refine ⟨fun x => ?_, hc.faults, hc.made, hc.freed, fun x => ?_, fun x hx => ?_⟩
    · show Function.update c.count o (n + 1) x = _
      by_cases hx : x = o
      · subst hx
        rw [Function.update_self, hk]
      · rw [Function.update_of_ne hx, hne x hx]
    · show x ∈ c.made ↔ _
      rw [hmem]
      constructor
      · rintro ((rfl | hx) | hx)
        · exact .inl hh
        · exact .inl hx
        · exact .inr hx
      · tauto
    · exact hc.not_freed x (Multiset.mem_cons_of_mem hx)

/-- An object that was made is freed exactly when no reference to it is held. -/
theorem mem_freed_iff (hc : c.Holds h) (ho : o ∈ c.made) : o ∈ c.freed ↔ o ∉ h := by
  constructor
  · exact fun hf hh => hc.not_freed o hh hf
  · exact fun hh => ((hc.mem_made o).1 ho).resolve_left hh

end Holds

end Store

end RefCount
