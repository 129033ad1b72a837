import Mathlib.Data.List.Basic

/-!
# Texts with quoted literals

A text is put together from fixed parts and strings between quotes (`Item`), and is read back by the rule that a literal
goes from one quote to the next one that is not doubled (`read`).  Strings that are put in as they are come out again
exactly if there is no quote in them (`read_render_iff`).
-/

namespace Quoting

variable {α : Type}

/-- What a text consists of. -/
inductive Lexeme (α : Type) where
  | char (c : α)
  | literal (s : List α)
  deriving DecidableEq, Repr

inductive Mode (α : Type) where
  | outside
  | inside (s : List α)
  /-- After a quote that either ends the literal or is the first of two. -/
  | closing (s : List α)

/-- A part of a text. -/
inductive Item (α : Type) where
  | text (t : List α)
  | quoted (s : List α)

def Item.render (q : α) : Item α → List α
  | .text t => t
  | .quoted s => q :: (s ++ [q])

/-- What the part is meant to be read as. -/
def Item.lexemes : Item α → List (Lexeme α)
  | .text t => t.map .char
  | .quoted s => [.literal s]

variable [DecidableEq α]

/-- The text as it is read; `none` if it ends in a literal. -/
def read (q : α) : Mode α → List α → Option (List (Lexeme α))
  | .outside, [] => some []
  | .inside _, [] => none
  | .closing s, [] => some [.literal s]
  | .outside, c :: cs => if c = q then read q (.inside []) cs else (read q .outside cs).map (.char c :: ·)
  | .inside s, c :: cs => if c = q then read q (.closing s) cs else read q (.inside (s ++ [c])) cs
  | .closing s, c :: cs =>
    if c = q then read q (.inside (s ++ [q])) cs else (read q .outside cs).map (.literal s :: .char c :: ·)

/-- The fixed parts have no quote in them, and no quoted string is followed by a quote at once. -/
def WellSet (q : α) (tail : List α) : List (Item α) → Prop
  | [] => True
  | .text t :: items => q ∉ t ∧ WellSet q tail items
  | .quoted _ :: items => (items.flatMap (Item.render q) ++ tail).head? ≠ some q ∧ WellSet q tail items

/-- The string with its quotes doubled. -/
private def doubled (q : α) (s : List α) : List α := s.flatMap fun c => if c = q then [q, q] else [c]

variable {q : α}

private theorem doubled_cons_self (s : List α) : doubled q (q :: s) = q :: q :: doubled q s := by
  rw [doubled, List.flatMap_cons, if_pos rfl]
  rfl

private theorem doubled_cons_of_ne {c : α} (hc : c ≠ q) (s : List α) : doubled q (c :: s) = c :: doubled q s := by
  rw [doubled, List.flatMap_cons, if_neg hc]
  rfl

private theorem read_closing (s : List α) {cs : List α} (h : cs.head? ≠ some q) :
    read q (.closing s) cs = (read q .outside cs).map (.literal s :: ·) := by
  cases cs with
  | nil => rfl
  | cons c cs =>
    have hc : c ≠ q := fun e => h (by rw [e]; rfl)
    rw [read, read, if_neg hc, if_neg hc, Option.map_map]
    rfl

/-- A text without quotes. -/
theorem read_text {t : List α} (ht : q ∉ t) (cs : List α) :
    read q .outside (t ++ cs) = (read q .outside cs).map (t.map .char ++ ·) := by
  induction t with
  | nil => exact Option.map_id_fun.symm ▸ rfl
  | cons c t ih =>
    rw [List.mem_cons, not_or] at ht
    rw [List.cons_append, read, if_neg (Ne.symm ht.1), ih ht.2, Option.map_map]
    rfl

/-- A literal without quotes in it. -/
theorem read_quoted {s : List α} (hs : q ∉ s) {cs : List α} (h : cs.head? ≠ some q) :
    read q .outside ((Item.quoted s).render q ++ cs) = (read q .outside cs).map (.literal s :: ·) := by
  have hinside : ∀ (s acc : List α), q ∉ s → read q (.inside acc) (s ++ q :: cs) = read q (.closing (acc ++ s)) cs := by
    intro s
    induction s with
    | nil =>
      intro acc _
      rw [List.nil_append, List.append_nil, read, if_pos rfl]
    | cons c s ih =>
      intro acc hs
      rw [List.mem_cons, not_or] at hs
      rw [List.cons_append, read, if_neg (Ne.symm hs.1), ih _ hs.2, List.append_assoc]
      rfl
  rw [Item.render, List.cons_append, List.append_assoc, List.singleton_append, read, if_pos rfl, hinside s [] hs,
    List.nil_append, read_closing s h]

/-- Where the first literal ends, and what stands in it. -/
private theorem read_inside {cs acc l : List α} {more : List (Lexeme α)}
    (h : read q (.inside acc) cs = some (.literal l :: more)) :
    ∃ s rest, l = acc ++ s ∧ cs = doubled q s ++ q :: rest ∧ rest.head? ≠ some q := by
  induction hn : cs.length using Nat.strongRecOn generalizing cs acc with
  | ind n ih =>
    cases cs with
    | nil => cases h
    | cons c cs =>
      rw [List.length_cons] at hn
      rw [read] at h
      by_cases hc : c = q
      · rw [if_pos hc] at h
        subst hc
        by_cases hnext : cs.head? = some c
        · -- two quotes stand for one
          obtain ⟨cs, rfl⟩ : ∃ cs', cs = c :: cs' := by
            cases cs with
            | nil => cases hnext
            | cons x cs => exact ⟨cs, by rw [Option.some.inj hnext]⟩
          rw [read, if_pos rfl] at h
          rw [List.length_cons] at hn
          obtain ⟨s, rest, rfl, rfl, hrest⟩ := ih cs.length (by omega) h rfl
          exact ⟨c :: s, rest, by simp, by rw [doubled_cons_self]; rfl, hrest⟩
        · rw [read_closing acc hnext] at h
          obtain ⟨more', -, hmore⟩ := Option.map_eq_some_iff.1 h
          obtain ⟨hl, -⟩ := List.cons.inj hmore
          exact ⟨[], cs, by rw [List.append_nil]; exact (Lexeme.literal.inj hl).symm, rfl, hnext⟩
      · rw [if_neg hc] at h
        obtain ⟨s, rest, rfl, rfl, hrest⟩ := ih cs.length (by omega) h rfl
        exact ⟨c :: s, rest, by simp, by rw [doubled_cons_of_ne hc]; rfl, hrest⟩

/-- Only a string without quotes is its own doubling. -/
private theorem not_mem_of_doubled {s cs cs' : List α} (h : doubled q s ++ q :: cs' = s ++ q :: cs)
    (hcs : cs.head? ≠ some q) : q ∉ s := by
  -- quotes that have been put in push everything after them to the right
  have hpush : ∀ (s : List α) (k : Nat), List.replicate (k + 1) q ++ (doubled q s ++ q :: cs') ≠ s ++ q :: cs := by
    intro s
    induction s with
    | nil =>
      intro k h
      rw [List.replicate_succ, List.nil_append, List.cons_append] at h
      refine hcs ?_
      rw [← (List.cons.inj h).2]
      cases k <;> rfl
    | cons c s ih =>
      intro k h
      have hhead := h
      rw [List.replicate_succ, List.cons_append, List.cons_append] at hhead
      obtain ⟨rfl, htail⟩ := List.cons.inj hhead
      rw [doubled_cons_self] at htail
      refine ih (k + 1) ?_
      rw [← htail, show k + 1 + 1 = k + 2 from rfl, List.replicate_add, List.append_assoc]
      rfl
  induction s with
  | nil => exact List.not_mem_nil
  | cons c s ih =>
    by_cases hc : c = q
    · subst hc
      rw [doubled_cons_self, List.cons_append, List.cons_append] at h
      exact absurd (List.cons.inj h).2 (hpush s 0)
    · rw [doubled_cons_of_ne hc, List.cons_append, List.cons_append] at h
      intro hmem
      rcases List.mem_cons.1 hmem with rfl | hmem
      · exact hc rfl
      · exact ih (List.cons.inj h).2 hmem

/-- The parts come out as they were meant exactly if there is no quote in the strings. -/
theorem read_render_iff {items : List (Item α)} {tail : List α} (h : WellSet q tail items) {more : List (Lexeme α)} :
    read q .outside (items.flatMap (Item.render q) ++ tail) = some (items.flatMap Item.lexemes ++ more) ↔
      (∀ s, .quoted s ∈ items → q ∉ s) ∧ read q .outside tail = some more := by
  induction items with
  | nil => simp
  | cons item items ih =>
    rw [List.flatMap_cons, List.flatMap_cons, List.append_assoc, List.append_assoc]
    cases item with
    | text t =>
      obtain ⟨ht, h⟩ := h
      have hcancel : ∀ r : Option (List (Lexeme α)), r.map (t.map .char ++ ·) =
          some (t.map .char ++ (items.flatMap Item.lexemes ++ more)) ↔
            r = some (items.flatMap Item.lexemes ++ more) := by
        intro r
        cases r <;> simp
      rw [Item.render, Item.lexemes, read_text ht, hcancel, ih h]
      simp
    | quoted s =>
      obtain ⟨hnext, h⟩ := h
      have hcancel : ∀ r : Option (List (Lexeme α)), r.map (.literal s :: ·) =
          some ([.literal s] ++ (items.flatMap Item.lexemes ++ more)) ↔
            r = some (items.flatMap Item.lexemes ++ more) := by
        intro r
        cases r <;> simp
      have hstrings : (∀ s', .quoted s' ∈ Item.quoted s :: items → q ∉ s') ↔
          q ∉ s ∧ ∀ s', .quoted s' ∈ items → q ∉ s' := by
        simp [forall_and, or_imp]
      rw [hstrings, and_assoc, ← ih h]
      constructor
      · intro hread
        have hs : q ∉ s := by
          rw [Item.render, List.cons_append, List.append_assoc, List.singleton_append, read, if_pos rfl] at hread
          obtain ⟨s', rest, hl, hcs, -⟩ := read_inside hread
          rw [List.nil_append] at hl
          subst hl
          exact not_mem_of_doubled hcs.symm hnext
        rw [read_quoted hs hnext] at hread
        exact ⟨hs, (hcancel _).1 hread⟩
      · rintro ⟨hs, hread⟩
        rw [read_quoted hs hnext]
        exact (hcancel _).2 hread

end Quoting
