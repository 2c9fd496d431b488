/-
  Bloom filters over an array of 64-bit words.

  The array is a function of the word index. `setBit` and `testBit` address bit `b` as bit
  `b % 64` of word `b / 64`. For any type of keys with a list of positions each, `insertAll`
  sets the positions of the keys one after another and `covers` asks for all positions of a key.

  * A bit is set after `insertAll` exactly when it was set before or is a position of one of
    the keys (`testBit_insertAll`), in whatever order they were inserted.
  * An inserted key is covered; a key is covered only if each of its positions comes from some
    inserted key (`covers_insertAll_iff`).
-/
import Mathlib.Data.List.Basic
import Mathlib.Data.Nat.Bitwise
import Mathlib.Logic.Function.Basic
import Mathlib.Tactic.Common

namespace Lib.Bloom

abbrev Words := Nat → UInt64

/-- No bit is set. -/
def zero : Words := fun _ => 0

def testBit (w : Words) (b : Nat) : Bool := (w (b / 64)).toNat.testBit (b % 64)

def setBit (w : Words) (b : Nat) : Words :=
  Function.update w (b / 64) (w (b / 64) ||| ((1 : UInt64) <<< UInt64.ofNat (b % 64)))

/-- The word with one bit set. -/
theorem testBit_one_shiftLeft {i j : Nat} (hi : i < 64) (hj : j < 64) :
    ((1 : UInt64) <<< UInt64.ofNat i).toNat.testBit j = decide (i = j) := by
  have hsh : (UInt64.ofNat i).toNat % 64 = i := by
    rw [UInt64.toNat_ofNat']
    omega
  rw [UInt64.toNat_shiftLeft, hsh, UInt64.toNat_one, Nat.one_shiftLeft, Nat.testBit_mod_two_pow,
    Nat.testBit_two_pow]
  simp [hj]

theorem testBit_setBit (w : Words) (b c : Nat) :
    testBit (setBit w b) c = true ↔ c = b ∨ testBit w c = true := by
  unfold testBit setBit
  by_cases hw : c / 64 = b / 64
  · rw [hw, Function.update_self, UInt64.toNat_or, Nat.testBit_or,
      testBit_one_shiftLeft (Nat.mod_lt _ (by decide)) (Nat.mod_lt _ (by decide)), ← hw]
    rw [Bool.or_eq_true, decide_eq_true_eq, or_comm]
    refine or_congr ?_ Iff.rfl
    omega
  · rw [Function.update_of_ne hw]
    have : c ≠ b := fun h => hw (by rw [h])
    simp [this]

theorem testBit_zero (c : Nat) : testBit zero c = false := by
  simp [testBit, zero]

section Keys

variable {κ : Type} (positions : κ → List Nat)

/-- Set the positions of one key. -/
def insert (w : Words) (k : κ) : Words := (positions k).foldl setBit w

/-- Set the positions of all keys. -/
def insertAll (w : Words) (ks : List κ) : Words := ks.foldl (insert positions) w

/-- All positions of a key are set. -/
def covers (w : Words) (k : κ) : Bool := (positions k).all (testBit w)

variable {positions}

theorem insertAll_append (w : Words) (ks ls : List κ) :
    insertAll positions w (ks ++ ls) = insertAll positions (insertAll positions w ks) ls :=
  List.foldl_append

theorem testBit_foldl_setBit (bs : List Nat) (w : Words) (c : Nat) :
    testBit (bs.foldl setBit w) c = true ↔ testBit w c = true ∨ c ∈ bs := by
  induction bs generalizing w with
  | nil => simp
  | cons b bs ih =>
    rw [List.foldl_cons, ih, testBit_setBit, List.mem_cons]
    tauto

/-- The bits after inserting: those from before, and the positions of the keys. -/
theorem testBit_insertAll (ks : List κ) (w : Words) (c : Nat) :
    testBit (insertAll positions w ks) c = true ↔
      testBit w c = true ∨ ∃ k ∈ ks, c ∈ positions k := by
  induction ks generalizing w with
  | nil => simp [insertAll]
  | cons k ks ih =>
    rw [insertAll, List.foldl_cons, ← insertAll, ih, insert, testBit_foldl_setBit,
      List.exists_mem_cons_iff]
    tauto

/-- A key is covered when each of its positions belongs to some inserted key. -/
theorem covers_insertAll_iff (ks : List κ) (k : κ) :
    covers positions (insertAll positions zero ks) k = true ↔
      ∀ c ∈ positions k, ∃ k' ∈ ks, c ∈ positions k' := by
  simp only [covers, List.all_eq_true, testBit_insertAll, testBit_zero, Bool.false_eq_true,
    false_or]

end Keys

end Lib.Bloom
