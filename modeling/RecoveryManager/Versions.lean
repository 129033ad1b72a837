import RecoveryManager.Lib.Mixing
import RecoveryManager.Types

/-!
# Versions of unit files

A unit file is known by the hash of its text.  No round of the hash and no step of its end loses anything of the state
it starts from, so texts that agree from some point on have the same hash only if the states before that point are the
same, and an edit of one byte always shows.
-/

namespace RecoveryManager

open Mixing

/-- The steps after the loop. -/
private theorem finish_injective :
    Function.Injective fun hash : BitVec 64 =>
      let hash := hash + (hash <<< 3)
      let hash := hash ^^^ (hash >>> 11)
      hash + (hash <<< 15) :=
  (add_shiftLeft_injective (by decide)).comp
    ((xor_shiftRight_injective (by decide)).comp (add_shiftLeft_injective (by decide)))

private theorem mix_injective :
    Function.Injective fun hash : BitVec 64 =>
      let hash := hash + (hash <<< 10)
      hash ^^^ (hash >>> 6) :=
  (xor_shiftRight_injective (by decide)).comp (add_shiftLeft_injective (by decide))

/-- A round loses nothing of the state. -/
theorem jenkinsRound_injective (key : BitVec 8) : Function.Injective (jenkinsRound · key) := by
  intro x y h
  exact (BitVec.add_left_inj _).1 (mix_injective h)

/-- A round loses nothing of the byte. -/
theorem jenkinsRound_injective_key (hash : BitVec 64) : Function.Injective (jenkinsRound hash) := by
  intro a b h
  exact signExtend_injective (by decide) ((BitVec.add_right_inj _).1 (mix_injective h))

/-- The states before a common end are told apart by the hash. -/
theorem rmgUtilsJenkinsHash_append {s t u : List (BitVec 8)}
    (h : rmgUtilsJenkinsHash (s ++ u) = rmgUtilsJenkinsHash (t ++ u)) :
    s.foldl jenkinsRound 0 = t.foldl jenkinsRound 0 := by
  have h := finish_injective h
  rw [List.foldl_append, List.foldl_append] at h
  exact foldl_injective jenkinsRound_injective u h

/-- Texts of one length that differ at one position only. -/
theorem eq_append_of_edit {α : Type} {s t : List α} {i : Nat} (hl : s.length = t.length)
    (hi : ∀ j, s[j]? ≠ t[j]? ↔ j = i) : ∃ l a b r, s = l ++ a :: r ∧ t = l ++ b :: r ∧ a ≠ b := by
  induction s generalizing t i with
  | nil =>
    have ht : t = [] := List.length_eq_zero_iff.1 hl.symm
    exact absurd (by simp [ht]) ((hi i).2 rfl)
  | cons a s ih =>
    rcases t with _ | ⟨b, t⟩
    · simp at hl
    · rcases i with _ | i
      · refine ⟨[], a, b, s, rfl, ?_, by simpa using (hi 0).2 rfl⟩
        have hst : s = t := by
          refine List.ext_getElem? fun j => ?_
          by_contra hne
          have := (hi (j + 1)).1 (by simpa using hne)
          omega
        rw [hst]
        rfl
      · have hab : a = b := by
          by_contra hne
          have := (hi 0).1 (by simpa using hne)
          omega
        have hi' : ∀ j, s[j]? ≠ t[j]? ↔ j = i := by
          intro j
          have := hi (j + 1)
          simpa using this
        obtain ⟨l, c, d, r, rfl, rfl, hcd⟩ := ih (by simpa using hl) hi'
        exact ⟨a :: l, c, d, r, rfl, by rw [hab]; rfl, hcd⟩

/-- An edit of one byte changes the version of a unit file, and in general texts with a common end have the same hash
only if the states before it are the same. -/
theorem hash_tells_edits_apart :
    (∀ s t : List (BitVec 8), s.length = t.length → (∃ i : Nat, ∀ j : Nat, s[j]? ≠ t[j]? ↔ j = i) →
      rmgUtilsJenkinsHash s ≠ rmgUtilsJenkinsHash t) ∧
    ∀ s t u : List (BitVec 8), rmgUtilsJenkinsHash (s ++ u) = rmgUtilsJenkinsHash (t ++ u) →
      s.foldl jenkinsRound 0 = t.foldl jenkinsRound 0 := by
  refine ⟨fun s t hl hd heq => ?_, fun s t u h => rmgUtilsJenkinsHash_append h⟩
  obtain ⟨i, hi⟩ := hd
  obtain ⟨l, a, b, r, rfl, rfl, hab⟩ := eq_append_of_edit hl hi
  have h := rmgUtilsJenkinsHash_append (s := l ++ [a]) (t := l ++ [b]) (u := r) (by simpa using heq)
  rw [List.foldl_append, List.foldl_append] at h
  exact hab (jenkinsRound_injective_key _ h)

/-- An edit of the second of two bytes, and two texts that the hash does not tell apart. -/
theorem hash_tells_edits_apart_of_two : rmgUtilsJenkinsHash [0x61, 0x62] ≠ rmgUtilsJenkinsHash [0x61, 0x63] ∧
    ([0x26, 0x3e, 0x21] : List (BitVec 8)).foldl jenkinsRound 0 =
      ([0x26, 0x68, 0x6b] : List (BitVec 8)).foldl jenkinsRound 0 := by
  refine ⟨hash_tells_edits_apart.1 _ _ rfl ⟨1, fun j => ?_⟩,
    hash_tells_edits_apart.2 [0x26, 0x3e, 0x21] [0x26, 0x68, 0x6b] [0x61] (by decide)⟩
  rcases j with _ | _ | j <;> simp

end RecoveryManager
