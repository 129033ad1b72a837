import Mathlib.Algebra.Order.Ring.Int
import Mathlib.Data.List.TakeWhile

/-!
# Basic types and utilities

The enumerations of `rmg-types.h`, the name tables and the hash of `rmg-utils.c`, and the integers of the C side:

* `Gulong` is the unsigned 64-bit word, whose signed reading is `BitVec.toInt`; `glong` wraps an integer to the signed
  64-bit range (the build uses `-fwrapv`) and `guint` narrows it to 32 bits;
* numbers reach SQLite as `%ld` text (`printLd`) and come back through `g_ascii_strtoll` and `g_ascii_strtoull`.
  For the unsigned word the round trip is the identity (`gAsciiStrtoull_printLd`), top bit included.
-/

namespace RecoveryManager

/-! ### Machine integers -/

abbrev Gulong := BitVec 64

/-- Signed 64-bit wrap-around. -/
def glong (x : Int) : Int := x.bmod (2 ^ 64)

/-- The cast to `guint`. -/
def guint (x : Int) : Nat := (x % 2 ^ 32).toNat

theorem glong_of_range {x : Int} (h₁ : -2 ^ 63 ≤ x) (h₂ : x < 2 ^ 63) : glong x = x := by
  unfold glong
  exact Int.bmod_eq_of_le (by omega) (by omega)

/-- `printf ("%ld", x)`. -/
def printLd (x : Int) : List Char :=
  if x < 0 then '-' :: Nat.toDigits 10 x.natAbs else Nat.toDigits 10 x.natAbs

def isSpace (c : Char) : Bool :=
  c = ' ' || c = '\n' || c = '\t' || c = '\r' || c = '\x0b' || c = '\x0c'

/-- The digits at the head of `s`, saturated at the largest unsigned 64-bit value. -/
def parseDigits (s : List Char) : Nat :=
  min (Nat.ofDigitChars 10 (s.takeWhile Char.isDigit) 0) (2 ^ 64 - 1)

/-- Sign and magnitude read by GLib's `g_parse_long_long` in base 10. -/
def gParseLongLong (s : List Char) : Bool × Nat :=
  match s.dropWhile isSpace with
  | '-' :: s => (true, parseDigits s)
  | '+' :: s => (false, parseDigits s)
  | s => (false, parseDigits s)

def gAsciiStrtoull (s : List Char) : Gulong :=
  match gParseLongLong s with
  | (true, n) => -BitVec.ofNat 64 n
  | (false, n) => BitVec.ofNat 64 n

def gAsciiStrtoll (s : List Char) : Int :=
  match gParseLongLong s with
  | (true, n) => if 2 ^ 63 < n then -2 ^ 63 else -(n : Int)
  | (false, n) => if 2 ^ 63 - 1 < n then 2 ^ 63 - 1 else n

private theorem parseDigits_toDigits {n : Nat} (h : n < 2 ^ 64) : parseDigits (Nat.toDigits 10 n) = n := by
  have hd : (Nat.toDigits 10 n).takeWhile Char.isDigit = Nat.toDigits 10 n :=
    List.takeWhile_eq_self_iff.2 fun c hc => Nat.isDigit_of_mem_toDigits (by omega) (by omega) hc
  rw [parseDigits, hd, Nat.ofDigitChars_ten_toDigits]
  omega

private theorem isDigit_not_isSpace {c : Char} (h : c.isDigit) : isSpace c = false ∧ c ≠ '-' ∧ c ≠ '+' := by
  refine ⟨?_, ?_, ?_⟩
  · simp only [isSpace, Bool.or_eq_false_iff, decide_eq_false_iff_not]
    refine ⟨⟨⟨⟨⟨?_, ?_⟩, ?_⟩, ?_⟩, ?_⟩, ?_⟩ <;> (rintro rfl; revert h; decide)
  · rintro rfl; revert h; decide
  · rintro rfl; revert h; decide

private theorem gParseLongLong_toDigits {n : Nat} (h : n < 2 ^ 64) :
    gParseLongLong (Nat.toDigits 10 n) = (false, n) := by
  have hp := parseDigits_toDigits h
  have hd : ∀ c ∈ Nat.toDigits 10 n, c.isDigit := fun c hc => Nat.isDigit_of_mem_toDigits (by omega) (by omega) hc
  rcases ht : Nat.toDigits 10 n with _ | ⟨c, cs⟩
  · exact absurd ht Nat.toDigits_ne_nil
  · rw [ht] at hp hd
    obtain ⟨hs, hm, hp'⟩ := isDigit_not_isSpace (hd c (by simp))
    unfold gParseLongLong
    rw [List.dropWhile_cons_of_neg (by simp [hs])]
    split
    · rename_i heq; exact absurd (List.cons.inj heq).1 hm
    · rename_i heq; exact absurd (List.cons.inj heq).1 hp'
    · rw [hp]

theorem gParseLongLong_printLd {x : Int} (h : x.natAbs < 2 ^ 64) :
    gParseLongLong (printLd x) = (decide (x < 0), x.natAbs) := by
  unfold printLd
  split
  · rename_i hx
    show (true, parseDigits (Nat.toDigits 10 x.natAbs)) = _
    rw [parseDigits_toDigits h]
    simp [hx]
  · rename_i hx
    rw [gParseLongLong_toDigits h]
    simp [hx]

/-- Writing a hash as a signed decimal and reading it back with `g_ascii_strtoull` is the identity. -/
theorem gAsciiStrtoull_printLd (h : Gulong) : gAsciiStrtoull (printLd h.toInt) = h := by
  have hlt := h.isLt
  have hI := BitVec.toInt_eq_toNat_cond h
  rw [gAsciiStrtoull, gParseLongLong_printLd (by split at hI <;> omega)]
  by_cases hx : h.toInt < 0
  · simp only [hx, decide_true]
    have e : ((h.toInt.natAbs : Nat) : Int) = -h.toInt := by omega
    rw [← BitVec.ofInt_natCast, e, BitVec.ofInt_neg, BitVec.neg_neg, BitVec.ofInt_toInt]
  · simp only [hx, decide_false]
    have e : ((h.toInt.natAbs : Nat) : Int) = h.toInt := by omega
    rw [← BitVec.ofInt_natCast, e, BitVec.ofInt_toInt]

/-! ### Enumerations -/

inductive RmgStatus where
  | error
  | ok
  deriving DecidableEq, Repr

inductive RmgRunMode where
  | primary
  | replica
  deriving DecidableEq, Repr

/-- The recovery actions, from low to high destructive. -/
inductive RmgActionType where
  | invalid
  | serviceIgnore
  | serviceReset
  | publicDataReset
  | privateDataReset
  | serviceDisable
  | contextReset
  | platformRestart
  | factoryReset
  | guruMeditation
  deriving DecidableEq, Repr

inductive RmgFriendType where
  | unknown
  | process
  | service
  | invalid
  deriving DecidableEq, Repr

inductive RmgFriendActionType where
  | unknown
  | start
  | stop
  | restart
  | signal
  | invalid
  deriving DecidableEq, Repr

/-- The enumerator with a given number; a number outside the enumeration reads as `invalid`. -/
def RmgActionType.ofCode (n : Int) : RmgActionType :=
  if n = 1 then .serviceIgnore else if n = 2 then .serviceReset else if n = 3 then .publicDataReset
  else if n = 4 then .privateDataReset else if n = 5 then .serviceDisable else if n = 6 then .contextReset
  else if n = 7 then .platformRestart else if n = 8 then .factoryReset else if n = 9 then .guruMeditation
  else .invalid

def RmgActionType.code (t : RmgActionType) : Int := t.ctorIdx

@[simp] theorem RmgActionType.ofCode_code (t : RmgActionType) : ofCode t.code = t := by
  cases t <;> rfl

def RmgFriendType.code (t : RmgFriendType) : Int := t.ctorIdx

def RmgFriendType.ofCode (n : Int) : RmgFriendType :=
  if n = 1 then .process else if n = 2 then .service else if n = 3 then .invalid else .unknown

def RmgFriendActionType.ofCode (n : Int) : RmgFriendActionType :=
  if n = 1 then .start else if n = 2 then .stop else if n = 3 then .restart else if n = 4 then .signal
  else if n = 5 then .invalid else .unknown

def RmgFriendActionType.code (t : RmgFriendActionType) : Int := t.ctorIdx

@[simp] theorem RmgFriendActionType.ofCode_code (t : RmgFriendActionType) : ofCode t.code = t := by
  cases t <;> rfl

/-! ### Name tables (`rmg-utils.c`) -/

def gActionName : List String :=
  ["invalid", "ignoreService", "resetService", "resetPublicData", "resetPrivateData", "disableService",
    "contextRestart", "platformRestart", "factoryReset", "guruMeditation"]

def gFriendName : List String := ["unknown", "process", "service", "invalid"]

def gFriendActionName : List String := ["unknown", "start", "stop", "restart", "signal", "invalid"]

/-- The loop of the three look-ups: the index of the first of the `bound` names that equals `name`, else 0. -/
def nameIndex (table : List String) (bound : Nat) (name : String) : Int :=
  ((table.take bound).idxOf? name).getD 0

/-- The last entry of the table is not looked at. -/
def rmgUtilsActionTypeFrom (name : String) : RmgActionType := .ofCode (nameIndex gActionName 9 name)

def rmgUtilsFriendTypeFrom (name : String) : RmgFriendType := .ofCode (nameIndex gFriendName 3 name)

def rmgUtilsFriendActionTypeFrom (name : String) : RmgFriendActionType :=
  .ofCode (nameIndex gFriendActionName 5 name)

/-! ### Hash of a unit file (`rmg-utils.c`) -/

/-- One round of the loop; `gchar` is signed, so a byte from 128 on is sign-extended. -/
def jenkinsRound (hash : BitVec 64) (key : BitVec 8) : BitVec 64 :=
  let hash := hash + key.signExtend 64
  let hash := hash + (hash <<< 10)
  hash ^^^ (hash >>> 6)

def rmgUtilsJenkinsHash (key : List (BitVec 8)) : BitVec 64 :=
  let hash := key.foldl jenkinsRound 0
  let hash := hash + (hash <<< 3)
  let hash := hash ^^^ (hash >>> 11)
  hash + (hash <<< 15)

end RecoveryManager
