import Mathlib.Algebra.Order.Ring.Int
import Mathlib.Data.List.Forall2
import Mathlib.Data.List.Infix

/-!
# Byte streams and memory

* Words are stored with the low byte first (`littleEndian`, `ofLittleEndian`).
* What is read overwrites the front of the memory it is read into (`overlay`).
* A stream arrives in pieces, and a read returns no more than the next piece (`readv`).  A stream of fields is read
  field by field exactly when every piece ends where a field ends (`CutAt`).
-/

namespace ByteStream

/-! ### Words -/

abbrev Byte := BitVec 8

def littleEndian : Nat → Nat → List Byte
  | 0, _ => []
  | n + 1, x => BitVec.ofNat 8 x :: littleEndian n (x / 256)

def ofLittleEndian : List Byte → Nat
  | [] => 0
  | b :: bs => b.toNat + 256 * ofLittleEndian bs

@[simp] theorem length_littleEndian (n x : Nat) : (littleEndian n x).length = n := by
  induction n generalizing x with
  | zero => rfl
  | succ n ih => rw [littleEndian, List.length_cons, ih]

theorem ofLittleEndian_littleEndian {n x : Nat} (h : x < 256 ^ n) : ofLittleEndian (littleEndian n x) = x := by
  induction n generalizing x with
  | zero =>
    rw [Nat.pow_zero] at h
    show 0 = x
    omega
  | succ n ih =>
    rw [Nat.pow_succ] at h
    rw [littleEndian, ofLittleEndian, ih (by omega), BitVec.toNat_ofNat]
    omega

theorem littleEndian_ofLittleEndian (bs : List Byte) : littleEndian bs.length (ofLittleEndian bs) = bs := by
  induction bs with
  | nil => rfl
  | cons b bs ih =>
    have hb := b.isLt
    rw [List.length_cons, littleEndian, ofLittleEndian]
    have hlow : BitVec.ofNat 8 (b.toNat + 256 * ofLittleEndian bs) = b := by
      apply BitVec.eq_of_toNat_eq
      rw [BitVec.toNat_ofNat]
      omega
    have hhigh : (b.toNat + 256 * ofLittleEndian bs) / 256 = ofLittleEndian bs := by omega
    rw [hlow, hhigh, ih]

theorem ofLittleEndian_lt (bs : List Byte) : ofLittleEndian bs < 256 ^ bs.length := by
  induction bs with
  | nil => decide
  | cons b bs ih =>
    have hb := b.isLt
    rw [List.length_cons, Nat.pow_succ, ofLittleEndian]
    omega

theorem ofLittleEndian_mono {as bs : List Byte} (h : List.Forall₂ (·.toNat ≤ ·.toNat) as bs) :
    ofLittleEndian as ≤ ofLittleEndian bs := by
  induction h with
  | nil => exact Nat.le_refl 0
  | @cons a b as bs hab _ ih =>
    rw [ofLittleEndian, ofLittleEndian]
    omega

theorem littleEndian_zero (n : Nat) : littleEndian n 0 = List.replicate n 0 := by
  induction n with
  | zero => rfl
  | succ n ih =>
    rw [littleEndian, Nat.zero_div, ih, List.replicate_succ]
    rfl

/-! ### Memory -/

variable {β : Type}

/-- The memory after `got` was read into its front. -/
def overlay (memory got : List β) : List β := got ++ memory.drop got.length

theorem length_overlay {memory got : List β} (h : got.length ≤ memory.length) :
    (overlay memory got).length = memory.length := by
  rw [overlay, List.length_append, List.length_drop]
  omega

theorem overlay_of_length_le {memory got : List β} (h : memory.length ≤ got.length) : overlay memory got = got := by
  rw [overlay, List.drop_eq_nil_of_le h, List.append_nil]

theorem getElem?_overlay_of_lt {memory got : List β} {i : Nat} (h : i < got.length) :
    (overlay memory got)[i]? = got[i]? := by
  rw [overlay, List.getElem?_append_left h]

theorem getElem?_overlay_of_le {memory got : List β} {i : Nat} (h : got.length ≤ i) :
    (overlay memory got)[i]? = memory[i]? := by
  rw [overlay, List.getElem?_append_right h, List.getElem?_drop]
  congr 1
  omega

theorem take_overlay (memory got : List β) (s : Nat) :
    (overlay memory got).take s = overlay (memory.take s) (got.take s) := by
  rw [overlay, overlay, List.take_append, List.length_take]
  congr 1
  by_cases h : got.length ≤ s
  · rw [Nat.min_eq_right h, List.drop_take]
  · rw [Nat.sub_eq_zero_of_le (by omega), List.take_zero, Nat.min_eq_left (by omega),
      List.drop_eq_nil_of_le (List.length_take_le s memory)]

theorem drop_overlay (memory got : List β) (s : Nat) :
    (overlay memory got).drop s = overlay (memory.drop s) (got.drop s) := by
  rw [overlay, overlay, List.drop_append, List.length_drop, List.drop_drop, List.drop_drop]
  congr 2
  omega

/-- Memory cut into parts of given sizes. -/
def slices : List Nat → List β → List (List β)
  | [], _ => []
  | s :: ss, memory => memory.take s :: slices ss (memory.drop s)

theorem flatten_slices {ss : List Nat} {memory : List β} (h : memory.length = ss.sum) :
    (slices ss memory).flatten = memory := by
  induction ss generalizing memory with
  | nil => exact (List.length_eq_zero_iff.1 h).symm
  | cons s ss ih =>
    rw [List.sum_cons] at h
    rw [slices, List.flatten_cons, ih (by rw [List.length_drop]; omega), List.take_append_drop]

theorem slices_flatten (xs : List (List β)) : slices (xs.map List.length) xs.flatten = xs := by
  induction xs with
  | nil => rfl
  | cons x xs ih => rw [List.map_cons, List.flatten_cons, slices, List.take_left, List.drop_left, ih]

/-! ### Pieces -/

/-- The next `n` elements, as far as the next piece goes, and the pieces that are left. -/
def readv (n : Nat) : List (List β) → List β × List (List β)
  | [] => ([], [])
  | p :: ps => (p.take n, if (p.drop n).isEmpty then ps else p.drop n :: ps)

variable {n : Nat} {f : List β} {fs ps : List (List β)}

theorem flatten_readv (n : Nat) (ps : List (List β)) : (readv n ps).1 ++ (readv n ps).2.flatten = ps.flatten := by
  cases ps with
  | nil => rfl
  | cons p ps =>
    have hp := List.take_append_drop n p
    unfold readv
    dsimp only
    split
    · rename_i h
      rw [List.isEmpty_iff.1 h, List.append_nil] at hp
      rw [hp, List.flatten_cons]
    · rw [List.flatten_cons, List.flatten_cons, ← List.append_assoc, hp]

theorem length_readv_le (n : Nat) (ps : List (List β)) : (readv n ps).1.length ≤ n := by
  cases ps with
  | nil => exact Nat.zero_le n
  | cons p ps => exact List.length_take_le n p

theorem readv_of_length_le {p : List β} (h : p.length ≤ n) (ps : List (List β)) : readv n (p :: ps) = (p, ps) := by
  unfold readv
  dsimp only
  rw [List.take_of_length_le h, List.drop_eq_nil_of_le h]
  rfl

theorem ne_nil_readv (h : ∀ p ∈ ps, p ≠ []) : ∀ p ∈ (readv n ps).2, p ≠ [] := by
  cases ps with
  | nil => exact fun p hp => absurd hp List.not_mem_nil
  | cons p ps =>
    unfold readv
    dsimp only
    split
    · exact fun q hq => h q (List.mem_cons_of_mem p hq)
    · rename_i hd
      intro q hq
      rcases List.mem_cons.1 hq with rfl | hq
      · exact fun e => hd (List.isEmpty_iff.2 e)
      · exact h q (List.mem_cons_of_mem p hq)

theorem readv_fst_ne_nil (hn : 0 < n) (hp : ∀ p ∈ ps, p ≠ []) (h : ps.flatten ≠ []) : (readv n ps).1 ≠ [] := by
  cases ps with
  | nil => exact absurd rfl h
  | cons p ps =>
    intro e
    rcases List.take_eq_nil_iff.1 e with h | h
    · omega
    · exact hp p List.mem_cons_self h

/-- A read that asks for no more than a field gets a part of the field. -/
theorem readv_of_flatten {rest : List β} (h : ps.flatten = f ++ rest) (hn : n ≤ f.length) :
    (readv n ps).1 = f.take (readv n ps).1.length ∧ (readv n ps).2.flatten = f.drop (readv n ps).1.length ++ rest := by
  have hlen := Nat.le_trans (length_readv_le n ps) hn
  have hf := (flatten_readv n ps).trans h
  have htake := congrArg (List.take (readv n ps).1.length) hf
  have hdrop := congrArg (List.drop (readv n ps).1.length) hf
  rw [List.take_append_of_le_length (Nat.le_refl _), List.take_length, List.take_append_of_le_length hlen] at htake
  rw [List.drop_append_of_le_length (Nat.le_refl _), List.drop_length, List.nil_append,
    List.drop_append_of_le_length hlen] at hdrop
  exact ⟨htake, hdrop⟩

/-- Every piece ends where a field ends. -/
def CutAt (fs ps : List (List β)) : Prop := ∀ pre, pre <+: ps → ∃ fs', fs' <+: fs ∧ pre.flatten = fs'.flatten

theorem cutAt_nil (fs : List (List β)) : CutAt fs [] := by
  intro pre h
  obtain rfl := List.prefix_nil.1 h
  exact ⟨[], List.nil_prefix, rfl⟩

/-- A stream that is cut at its fields gives a field whole, and stays cut at the others. -/
theorem CutAt.readv (h : CutAt (f :: fs) ps) (hps : ∀ p ∈ ps, p ≠ []) (hflat : ps.flatten = (f :: fs).flatten) :
    ps ≠ [] → (readv f.length ps).1 = f ∧ CutAt fs (readv f.length ps).2 := by
  intro hne
  obtain ⟨p, qs, rfl⟩ := List.exists_cons_of_ne_nil hne
  -- the first piece goes to the end of the first field at least
  obtain ⟨more, hp⟩ : ∃ more, p = f ++ more := by
    obtain ⟨fs', hpre, he⟩ := h [p] ⟨qs, rfl⟩
    rw [List.flatten_cons, List.flatten_nil, List.append_nil] at he
    cases fs' with
    | nil => exact absurd he (hps p List.mem_cons_self)
    | cons f' fs' =>
      obtain ⟨rfl, -⟩ := List.cons_prefix_cons.1 hpre
      exact ⟨fs'.flatten, he⟩
  have hrest : ∀ pre, pre <+: qs → ∃ fs', fs' <+: fs ∧ more ++ pre.flatten = fs'.flatten := by
    intro pre hpre
    obtain ⟨fs', hpre', he⟩ := h (p :: pre) (List.cons_prefix_cons.2 ⟨rfl, hpre⟩)
    rw [List.flatten_cons, hp, List.append_assoc] at he
    cases fs' with
    | nil =>
      rw [List.flatten_nil, List.append_eq_nil_iff, List.append_eq_nil_iff] at he
      exact ⟨[], List.nil_prefix, by rw [he.2.1, he.2.2]; rfl⟩
    | cons f' fs' =>
      obtain ⟨rfl, hfs⟩ := List.cons_prefix_cons.1 hpre'
      exact ⟨fs', hfs, List.append_cancel_left he⟩
  have htake : p.take f.length = f := by rw [hp, List.take_left]
  have hdrop : p.drop f.length = more := by rw [hp, List.drop_left]
  refine ⟨htake, ?_⟩
  unfold ByteStream.readv
  dsimp only
  rw [hdrop]
  split
  · rename_i hm
    rw [List.isEmpty_iff.1 hm] at hrest
    exact hrest
  · intro pre hpre
    cases pre with
    | nil => exact ⟨[], List.nil_prefix, rfl⟩
    | cons q pre =>
      obtain ⟨rfl, hqs⟩ := List.cons_prefix_cons.1 hpre
      exact hrest pre hqs

/-- If a field is read whole and what is left is cut at the other fields, the stream was cut at its fields. -/
theorem cutAt_of_readv (h₁ : (ByteStream.readv f.length ps).1 = f) (h₂ : CutAt fs (ByteStream.readv f.length ps).2) :
    CutAt (f :: fs) ps := by
  cases ps with
  | nil => exact cutAt_nil _
  | cons p qs =>
    intro pre hpre
    cases pre with
    | nil => exact ⟨[], List.nil_prefix, rfl⟩
    | cons p' pre =>
      obtain ⟨rfl, hqs⟩ := List.cons_prefix_cons.1 hpre
      have hp : p' = f ++ p'.drop f.length := by
        conv_lhs => rw [← List.take_append_drop f.length p']
        exact congrArg (· ++ p'.drop f.length) h₁
      obtain ⟨fs', hfs, he⟩ : ∃ fs', fs' <+: fs ∧ p'.drop f.length ++ pre.flatten = fs'.flatten := by
        unfold ByteStream.readv at h₂
        dsimp only at h₂
        split at h₂
        · rename_i hm
          rw [List.isEmpty_iff.1 hm]
          exact h₂ pre hqs
        · exact h₂ (p'.drop f.length :: pre) (List.cons_prefix_cons.2 ⟨rfl, hqs⟩)
      refine ⟨f :: fs', List.cons_prefix_cons.2 ⟨rfl, hfs⟩, ?_⟩
      rw [List.flatten_cons, List.flatten_cons, ← he, ← List.append_assoc, ← hp]

/-! ### Arrays of bytes -/

private theorem toList_loop (bs : ByteArray) (i : Nat) (r : List UInt8) :
    ByteArray.toList.loop bs i r = r.reverse ++ bs.data.toList.drop i := by
  fun_induction ByteArray.toList.loop bs i r with
  | case1 i r h ih =>
    have hi : i < bs.data.toList.length := h
    have hget : bs.get! i = bs.data.toList[i] := by
      rw [Array.getElem_toList]
      exact getElem!_pos bs.data i h
    rw [ih, List.drop_eq_getElem_cons hi, List.reverse_cons, List.append_assoc, hget]
    rfl
  | case2 i r h =>
    have hi : bs.data.toList.length ≤ i := Nat.le_of_not_lt h
    rw [List.drop_eq_nil_of_le hi, List.append_nil]

theorem toList_byteArray (bs : ByteArray) : bs.toList = bs.data.toList :=
  toList_loop bs 0 []

end ByteStream
