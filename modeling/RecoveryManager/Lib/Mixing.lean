import Mathlib.Algebra.Order.Ring.Int
import Mathlib.Data.Nat.ModEq
import Mathlib.Data.Nat.Prime.Basic
import Mathlib.Logic.Function.Basic

/-!
# Injective mixing steps

Two steps by which hash functions mix a word, and why neither loses information: adding a left shift of the word is a
multiplication by an odd number, and a word that a right shift leaves as it is can only be zero.  A fold loses nothing
of its start if no round does (`foldl_injective`).
-/

namespace Mixing

variable {w k : Nat}

theorem add_shiftLeft_injective (hk : 0 < k) : Function.Injective fun x : BitVec w => x + (x <<< k) := by
  intro x y h
  have hodd : Nat.Coprime (2 ^ w) (2 ^ k + 1) := by
    refine Nat.Coprime.pow_left w (Nat.coprime_two_left.2 ?_)
    exact (Nat.even_pow.2 ⟨even_two, Nat.pos_iff_ne_zero.1 hk⟩).add_one
  have hmul : ∀ z : BitVec w, (z + (z <<< k)).toNat = (z.toNat * (2 ^ k + 1)) % 2 ^ w := by
    intro z
    rw [BitVec.toNat_add, BitVec.toNat_shiftLeft, Nat.shiftLeft_eq, Nat.add_mod_mod, Nat.mul_add, Nat.mul_one,
      Nat.add_comm]
  have hmod : x.toNat * (2 ^ k + 1) ≡ y.toNat * (2 ^ k + 1) [MOD 2 ^ w] := by
    have := congrArg BitVec.toNat h
    rwa [hmul, hmul] at this
  have hxy : x.toNat ≡ y.toNat [MOD 2 ^ w] := Nat.ModEq.cancel_right_of_coprime hodd hmod
  exact BitVec.eq_of_toNat_eq (Nat.ModEq.eq_of_lt_of_lt hxy x.isLt y.isLt)

theorem xor_shiftRight_injective (hk : 0 < k) : Function.Injective fun x : BitVec w => x ^^^ (x >>> k) := by
  intro x y h
  have h : x ^^^ (x >>> k) = y ^^^ (y >>> k) := h
  have hd : x ^^^ y = (x ^^^ y) >>> k := by
    have : x ^^^ y ^^^ ((x ^^^ y) >>> k) = x ^^^ (x >>> k) ^^^ (y ^^^ (y >>> k)) := by
      rw [BitVec.ushiftRight_xor_distrib]
      ac_rfl
    rw [h, BitVec.xor_self] at this
    exact BitVec.xor_eq_zero_iff.1 this
  have hzero : (x ^^^ y).toNat = 0 := by
    have hn := congrArg BitVec.toNat hd
    rw [BitVec.toNat_ushiftRight, Nat.shiftRight_eq_div_pow] at hn
    by_contra hpos
    have := Nat.div_lt_self (Nat.pos_of_ne_zero hpos) (Nat.one_lt_two_pow (Nat.pos_iff_ne_zero.1 hk))
    omega
  exact BitVec.xor_eq_zero_iff.1 (BitVec.eq_of_toNat_eq hzero)

theorem signExtend_injective {v : Nat} (h : w ≤ v) : Function.Injective (BitVec.signExtend (w := w) v) := by
  intro x y hxy
  have := congrArg BitVec.toInt hxy
  rw [BitVec.toInt_signExtend_of_le h, BitVec.toInt_signExtend_of_le h] at this
  exact BitVec.eq_of_toInt_eq this

theorem foldl_injective {α β : Type} {f : α → β → α} (hf : ∀ b, Function.Injective (f · b)) (l : List β) :
    Function.Injective (l.foldl f ·) := by
  induction l with
  | nil => exact fun _ _ h => h
  | cons b l ih => exact ih.comp (hf b)

end Mixing
