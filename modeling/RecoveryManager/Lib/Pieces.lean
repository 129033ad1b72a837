import Mathlib.Data.List.Infix

/-!
# Splitting at a delimiter

The pieces of a list between the occurrences of a delimiter.  A delimiter whose first element is not found again in it
(`Headed`) cannot overlap itself, so the pieces are unique (`Cut.unique`): those between the first occurrences, when the
number of pieces is limited (`Cut`), and those between all of them (`Whole`).
-/

namespace Splitting

variable {α : Type} {d : List α}

/-- The first element of the delimiter comes only once in it. -/
def Headed (d : List α) : Prop := ∃ x d', d = x :: d' ∧ x ∉ d'

theorem Headed.ne_nil (h : Headed d) : d ≠ [] := by
  obtain ⟨x, d', rfl, -⟩ := h
  exact List.cons_ne_nil x d'

/-- The pieces of `s` between the first occurrences of `d`, at most `max` of them; the last one is the rest. -/
inductive Cut (d : List α) : Nat → List α → List (List α) → Prop
  | rest (s : List α) : Cut d 1 s [s]
  | free {s : List α} (max : Nat) : ¬ d <:+: s → Cut d (max + 1) s [s]
  | next {max : Nat} {l s : List α} {pieces : List (List α)} :
      ¬ d <:+: l → Cut d (max + 1) s pieces → Cut d (max + 2) (l ++ d ++ s) (l :: pieces)

/-- The pieces of `s` between all occurrences of `d`. -/
structure Whole (d : List α) (s : List α) (pieces : List (List α)) : Prop where
  ne_nil : pieces ≠ []
  join : d.intercalate pieces = s
  free : ∀ l ∈ pieces, ¬ d <:+: l

/-- `d` is found at `n` different places of `s`, at least. -/
def OccursTimes (d : List α) (n : Nat) (s : List α) : Prop := ∃ pieces, pieces.length = n + 1 ∧ d.intercalate pieces = s

/-! ### Joining -/

theorem intercalate_append {A B : List (List α)} (hA : A ≠ []) (hB : B ≠ []) :
    d.intercalate (A ++ B) = d.intercalate A ++ d ++ d.intercalate B := by
  induction A with
  | nil => exact absurd rfl hA
  | cons l A ih =>
    cases A with
    | nil => rw [List.singleton_append, List.intercalate_cons_of_ne_nil hB, List.intercalate_singleton]
    | cons m A =>
      rw [List.cons_append, List.intercalate_cons_of_ne_nil (by simp), ih (by simp), List.intercalate_cons_cons]
      simp only [List.append_assoc]

private theorem length_intercalate (q l : List α) (A : List (List α)) :
    (q.intercalate (l :: A)).length = (l :: A).flatten.length + A.length * q.length := by
  induction A generalizing l with
  | nil => simp
  | cons m A ih =>
    rw [List.intercalate_cons_cons, List.length_append, List.length_append, ih]
    simp only [List.flatten_cons, List.length_append, List.length_cons, Nat.succ_mul]
    omega

/-- Other delimiters between two pieces or more give another list. -/
theorem intercalate_eq_iff {p : List α} {B : List (List α)} (hB : B ≠ []) :
    d.intercalate B = p.intercalate B ↔ B.length ≤ 1 ∨ p = d := by
  constructor
  · intro h
    match B, hB with
    | [_], _ => exact .inl (Nat.le_refl 1)
    | l :: m :: B, _ =>
      have hpd : d.length = p.length := by
        have := congrArg List.length h
        rw [length_intercalate, length_intercalate] at this
        exact Nat.eq_of_mul_eq_mul_left (Nat.succ_pos B.length) (Nat.add_left_cancel this)
      rw [List.intercalate_cons_cons, List.intercalate_cons_cons, List.append_assoc, List.append_assoc] at h
      exact .inr (List.append_inj_left (List.append_cancel_left h) hpd).symm
  · rintro (h | rfl)
    · match B, hB with
      | [l], _ => rw [List.intercalate_singleton, List.intercalate_singleton]
      | _ :: _ :: _, _ => exact absurd h (by simp)
    · rfl

/-! ### The first occurrence -/

/-- What comes before the first occurrence of the delimiter is determined. -/
theorem Headed.first_unique (hd : Headed d) {l l' r r' : List α} (h : l ++ d ++ r = l' ++ d ++ r') (hl : ¬ d <:+: l)
    (hl' : ¬ d <:+: l') : l = l' ∧ r = r' := by
  obtain ⟨x, d', rfl, hx⟩ := hd
  -- the longer of the two goes on with a part of the delimiter, or contains it
  have key : ∀ m s s' : List α, ¬ (x :: d') <:+: m → x :: d' ++ s = m ++ (x :: d' ++ s') → m = [] := by
    intro m s s' hm h
    cases m with
    | nil => rfl
    | cons y m =>
      obtain ⟨rfl, h'⟩ := List.cons.inj h
      exfalso
      rcases List.append_eq_append_iff.1 h' with ⟨t, rfl, -⟩ | ⟨t, rfl, ht⟩
      · exact hm ⟨[], t, rfl⟩
      · cases t with
        | nil => exact hm ⟨[], [], by simp⟩
        | cons z t =>
          obtain ⟨rfl, -⟩ := List.cons.inj ht
          exact hx (by simp)
  rw [List.append_assoc, List.append_assoc] at h
  rcases List.append_eq_append_iff.1 h with ⟨m, rfl, hm⟩ | ⟨m, rfl, hm⟩
  · have hnil := key m r r' (fun hi => hl' (hi.trans ⟨l, [], by simp⟩)) hm
    subst hnil
    rw [List.append_nil]
    exact ⟨rfl, List.append_cancel_left hm⟩
  · have hnil := key m r' r (fun hi => hl (hi.trans ⟨l', [], by simp⟩)) hm
    subst hnil
    rw [List.append_nil]
    exact ⟨rfl, (List.append_cancel_left hm).symm⟩

theorem Cut.unique (hd : Headed d) {max : Nat} {s : List α} {A B : List (List α)} (hA : Cut d max s A)
    (hB : Cut d max s B) : A = B := by
  induction hA generalizing B with
  | rest s => cases hB <;> rfl
  | @free s max hs =>
    generalize hmax : max + 1 = n at hB
    cases hB with
    | rest => rfl
    | free => rfl
    | @next _ l => exact absurd ⟨l, _, rfl⟩ hs
  | @next max l s pieces hl _ ih =>
    generalize hmax : max + 2 = n at hB
    generalize hs : l ++ d ++ s = s' at hB
    cases hB with
    | rest => omega
    | free _ hfree => exact absurd ⟨l, s, hs⟩ hfree
    | next hl' hB =>
      obtain ⟨rfl, rfl⟩ := hd.first_unique hs hl hl'
      obtain rfl := Nat.add_right_cancel hmax
      rw [ih hB]

theorem Cut.of_free {A : List (List α)} {max : Nat} (hne : A ≠ []) (hlen : A.length ≤ max)
    (hinit : ∀ l ∈ A.dropLast, ¬ d <:+: l) (hlast : A.length < max → ∀ l ∈ A, ¬ d <:+: l) :
    Cut d max (d.intercalate A) A := by
  induction A generalizing max with
  | nil => exact absurd rfl hne
  | cons l A ih =>
    rw [List.length_cons] at hlen hlast
    obtain ⟨max, rfl⟩ : ∃ m, max = m + 1 := ⟨max - 1, by omega⟩
    cases A with
    | nil =>
      rw [List.intercalate_singleton]
      cases max with
      | zero => exact .rest l
      | succ max => exact .free _ (hlast (by simp) l (by simp))
    | cons m A =>
      rw [List.length_cons] at hlen hlast
      obtain ⟨max, rfl⟩ : ∃ m, max = m + 1 := ⟨max - 1, by omega⟩
      rw [List.intercalate_cons_cons]
      rw [List.dropLast_cons_cons] at hinit
      refine .next (hinit l (by simp)) (ih (by simp) (by rw [List.length_cons]; omega)
        (fun l' hl' => hinit l' (List.mem_cons_of_mem l hl')) fun hlt l' hl' => ?_)
      rw [List.length_cons] at hlt
      exact hlast (by omega) l' (List.mem_cons_of_mem l hl')

theorem Cut.spec {max : Nat} {s : List α} {A : List (List α)} (h : Cut d max s A) :
    d.intercalate A = s ∧ A ≠ [] ∧ A.length ≤ max ∧ (∀ l ∈ A.dropLast, ¬ d <:+: l) ∧
      (A.length < max → ∀ l ∈ A, ¬ d <:+: l) := by
  induction h with
  | rest s => exact ⟨List.intercalate_singleton, by simp, Nat.le_refl 1, by simp, fun h => absurd h (Nat.lt_irrefl 1)⟩
  | @free s max hs => exact ⟨List.intercalate_singleton, by simp, by simp, by simp, fun _ l hl =>
    List.mem_singleton.1 hl ▸ hs⟩
  | @next max l s pieces hl _ ih =>
    obtain ⟨hjoin, hne, hlen, hinit, hlast⟩ := ih
    refine ⟨by rw [List.intercalate_cons_of_ne_nil hne, hjoin], by simp, by rw [List.length_cons]; omega, ?_, ?_⟩
    · intro l' hl'
      rw [List.dropLast_cons_of_ne_nil hne] at hl'
      rcases List.mem_cons.1 hl' with rfl | hl'
      · exact hl
      · exact hinit l' hl'
    · intro hlt l' hl'
      rw [List.length_cons] at hlt
      rcases List.mem_cons.1 hl' with rfl | hl'
      · exact hl
      · exact hlast (by omega) l' hl'

/-! ### All occurrences -/

section whole
variable {s : List α} {A B : List (List α)}

theorem Whole.cut (h : Whole d s A) {max : Nat} (hlen : A.length ≤ max) : Cut d max s A := by
  rw [← h.join]
  exact .of_free h.ne_nil hlen (fun l hl => h.free l (List.mem_of_mem_dropLast hl)) fun _ => h.free

theorem Whole.unique (hd : Headed d) (hA : Whole d s A) (hB : Whole d s B) : A = B :=
  (hA.cut (Nat.le_add_right A.length B.length)).unique hd (hB.cut (Nat.le_add_left B.length A.length))

theorem Whole.append {s' : List α} (hA : Whole d s A) (hB : Whole d s' B) : Whole d (s ++ d ++ s') (A ++ B) where
  ne_nil := by simp [hA.ne_nil]
  join := by rw [intercalate_append hA.ne_nil hB.ne_nil, hA.join, hB.join]
  free l hl := (List.mem_append.1 hl).elim (hA.free l) (hB.free l)

theorem exists_whole (hd : d ≠ []) (s : List α) : ∃ A, Whole d s A := by
  induction hn : s.length using Nat.strongRecOn generalizing s with
  | ind n ih =>
    by_cases hs : d <:+: s
    · obtain ⟨l, r, rfl⟩ := hs
      have hpos := List.length_pos_iff.2 hd
      rw [List.length_append, List.length_append] at hn
      obtain ⟨A, hA⟩ := ih l.length (by omega) l rfl
      obtain ⟨B, hB⟩ := ih r.length (by omega) r rfl
      exact ⟨A ++ B, hA.append hB⟩
    · exact ⟨[s], by simp, List.intercalate_singleton, fun l hl => List.mem_singleton.1 hl ▸ hs⟩

theorem Whole.occursTimes_iff (hd : Headed d) (h : Whole d s B) {n : Nat} : OccursTimes d n s ↔ n < B.length := by
  constructor
  · rintro ⟨pieces, hlen, hjoin⟩
    -- the pieces of the pieces are the pieces
    have hwhole : ∀ pieces : List (List α), pieces ≠ [] → ∃ A, Whole d (d.intercalate pieces) A ∧
      pieces.length ≤ A.length := by
      intro pieces hne
      induction pieces with
      | nil => exact absurd rfl hne
      | cons l pieces ih =>
        obtain ⟨A, hA⟩ := exists_whole hd.ne_nil l
        have hpos := List.length_pos_iff.2 hA.ne_nil
        by_cases hp : pieces = []
        · subst hp
          rw [List.intercalate_singleton]
          exact ⟨A, hA, hpos⟩
        · obtain ⟨A', hA', hle⟩ := ih hp
          rw [List.intercalate_cons_of_ne_nil hp]
          refine ⟨A ++ A', hA.append hA', ?_⟩
          rw [List.length_cons, List.length_append]
          omega
    obtain ⟨A, hA, hle⟩ := hwhole pieces (List.ne_nil_of_length_pos (by omega))
    rw [hjoin] at hA
    rw [h.unique hd hA]
    omega
  · intro hlt
    refine ⟨B.take n ++ [d.intercalate (B.drop n)], ?_, ?_⟩
    · rw [List.length_append, List.length_take, List.length_singleton]
      omega
    · have hdrop : B.drop n ≠ [] := by
        intro e
        have := List.drop_eq_nil_iff.1 e
        omega
      by_cases htake : B.take n = []
      · have hB : B.drop n = B := by
          have := List.take_append_drop n B
          rwa [htake, List.nil_append] at this
        rw [htake, List.nil_append, List.intercalate_singleton, hB, h.join]
      · rw [intercalate_append htake (by simp), List.intercalate_singleton, ← intercalate_append htake hdrop,
          List.take_append_drop, h.join]

/-- Putting `p` for the first occurrences is putting it for all, if there are no others or nothing is changed. -/
theorem Cut.intercalate_eq_iff (hd : Headed d) {p : List α} {max : Nat} (hA : Cut d max s A) (hB : Whole d s B) :
    p.intercalate A = p.intercalate B ↔ B.length ≤ max ∨ p = d := by
  induction hA generalizing B with
  | rest s =>
    rw [List.intercalate_singleton, ← hB.join, Splitting.intercalate_eq_iff hB.ne_nil]
  | @free s max hs =>
    have hone : B = [s] := hB.unique hd ⟨by simp, List.intercalate_singleton, fun l hl => List.mem_singleton.1 hl ▸ hs⟩
    subst hone
    exact iff_of_true rfl (.inl (by simp))
  | @next max l s pieces hl hcut ih =>
    obtain ⟨B', hB'⟩ := exists_whole hd.ne_nil s
    have hcons : B = l :: B' := by
      have hl' : Whole d l [l] := ⟨by simp, List.intercalate_singleton, fun m hm => List.mem_singleton.1 hm ▸ hl⟩
      exact hB.unique hd (hl'.append hB')
    subst hcons
    rw [List.intercalate_cons_of_ne_nil hcut.spec.2.1, List.intercalate_cons_of_ne_nil hB'.ne_nil, List.append_assoc,
      List.append_assoc, List.append_cancel_left_eq, List.append_cancel_left_eq, ih hB', List.length_cons]
    exact or_congr_left (by omega)

end whole

end Splitting
