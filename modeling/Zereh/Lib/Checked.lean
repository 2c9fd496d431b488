/-
  Checked execution: an access outside its object, a shift by the width of its operand or
  more, and a division by zero are errors of an `Except` monad, so that "the error is
  unreachable" is an equation `f x = .ok y`.

  Every primitive has one `_ok` lemma: under its side condition it returns. `Safe P x` says that
  a whole run returns, with a value in `P`; its rules follow the shape of the program.
-/
import Mathlib.Data.List.Basic
import Mathlib.Tactic.Common

namespace Lib

/-- What can go wrong in a run. `stuck` is a program text that has no meaning. -/
inductive Fault where
  | read (i : Nat)
  | write (i : Nat)
  | shift (n : Nat)
  | divide
  | stuck
  deriving DecidableEq, Repr

abbrev Checked := Except Fault

@[simp] theorem ok_bind {α β : Type} (a : α) (f : α → Checked β) :
    (Except.ok a >>= f) = f a := rfl

/-- Read byte `i` of an object. -/
def readAt (m : List UInt8) (i : Nat) : Checked UInt8 :=
  match m[i]? with
  | some b => .ok b
  | none => .error (.read i)

/-- Write byte `i` of an object. -/
def writeAt (m : List UInt8) (i : Nat) (b : UInt8) : Checked (List UInt8) :=
  if i < m.length then .ok (m.set i b) else .error (.write i)

/-- `a % b` on 64-bit words. -/
def modAt (a b : UInt64) : Checked UInt64 :=
  if b = 0 then .error .divide else .ok (a % b)

/-- `a / b` on 64-bit words. -/
def divAt (a b : UInt64) : Checked UInt64 :=
  if b = 0 then .error .divide else .ok (a / b)

/-- `a << n` on 32-bit words. -/
def shlAt (a : UInt32) (n : Nat) : Checked UInt32 :=
  if n < 32 then .ok (a <<< UInt32.ofNat n) else .error (.shift n)

/-- Byte `i` of an object, 0 outside it. This is what a checked read returns. -/
def byteAt (m : List UInt8) (i : Nat) : UInt8 := m.getD i 0

theorem readAt_ok {m : List UInt8} {i : Nat} (h : i < m.length) :
    readAt m i = .ok (byteAt m i) := by
  simp [readAt, byteAt, h]

theorem writeAt_ok {m : List UInt8} {i : Nat} (b : UInt8) (h : i < m.length) :
    writeAt m i b = .ok (m.set i b) := if_pos h

theorem modAt_ok (a : UInt64) {b : UInt64} (h : b ≠ 0) : modAt a b = .ok (a % b) := if_neg h

theorem divAt_ok (a : UInt64) {b : UInt64} (h : b ≠ 0) : divAt a b = .ok (a / b) := if_neg h

theorem shlAt_ok (a : UInt32) {n : Nat} (h : n < 32) :
    shlAt a n = .ok (a <<< UInt32.ofNat n) := if_pos h

/-! ## Runs without a fault -/

/-- The run ends, with a value in `P`. -/
def Safe {α : Type} (P : α → Prop) (x : Checked α) : Prop := ∃ a, x = .ok a ∧ P a

section Safe

variable {α β : Type} {P : α → Prop} {Q : β → Prop} {x y : Checked α}

theorem safe_ok {a : α} (h : P a) : Safe P (.ok a) := ⟨a, rfl, h⟩

theorem Safe.bind {f : α → Checked β} (hx : Safe P x) (hf : ∀ a, P a → Safe Q (f a)) :
    Safe Q (x >>= f) := by
  obtain ⟨a, rfl, ha⟩ := hx
  exact hf a ha

theorem Safe.mono {P' : α → Prop} (h : Safe P x) (hP : ∀ a, P a → P' a) : Safe P' x := by
  obtain ⟨a, hx, ha⟩ := h
  exact ⟨a, hx, hP a ha⟩

theorem safe_ite {c : Prop} [Decidable c] (hx : c → Safe P x) (hy : ¬ c → Safe P y) :
    Safe P (if c then x else y) := by
  split
  · exact hx ‹_›
  · exact hy ‹_›

theorem safe_readAt {m : List UInt8} {i : Nat} (h : i < m.length) :
    Safe (fun _ => True) (readAt m i) := ⟨_, readAt_ok h, trivial⟩

/-- A store keeps the size of its object. -/
theorem safe_writeAt {m : List UInt8} {i : Nat} (b : UInt8) (h : i < m.length) :
    Safe (fun m' => m'.length = m.length) (writeAt m i b) :=
  ⟨_, writeAt_ok b h, List.length_set⟩

end Safe

/-! ## Bytes of a slice -/

theorem byteAt_of_take {m m' : List UInt8} {n i : Nat} (h : m.take n = m'.take n)
    (hi : i < n) : byteAt m i = byteAt m' i := by
  have := congrArg (fun l => l[i]?) h
  simp only [List.getElem?_take, hi, if_true] at this
  simp [byteAt, List.getD_eq_getElem?_getD, this]

/-- The bytes `[i, i + n)` of an object. -/
def slice (m : List UInt8) (i n : Nat) : List UInt8 := (m.drop i).take n

theorem length_slice {m : List UInt8} {i n : Nat} (h : i + n ≤ m.length) :
    (slice m i n).length = n := by
  simp only [slice, List.length_take, List.length_drop]
  omega

theorem slice_zero (m : List UInt8) (i : Nat) : slice m i 0 = [] := by simp [slice]

theorem slice_succ {m : List UInt8} {i n : Nat} (h : i < m.length) :
    slice m i (n + 1) = byteAt m i :: slice m (i + 1) n := by
  rw [slice, List.drop_eq_getElem_cons h, List.take_succ_cons, slice]
  simp [byteAt, h]

theorem slice_add {m : List UInt8} {i a b : Nat} :
    slice m i (a + b) = slice m i a ++ slice m (i + a) b := by
  simp [slice, List.take_add]

theorem slice_of_take {m m' : List UInt8} {k i n : Nat} (h : m.take k = m'.take k)
    (hk : i + n ≤ k) : slice m i n = slice m' i n := by
  have e : ∀ l : List UInt8, slice l i n = slice (l.take k) i n := by
    intro l
    simp only [slice, List.drop_take, List.take_take]
    congr 1
    omega
  rw [e m, e m', h]

theorem byteAt_slice {m : List UInt8} {i n j : Nat} (h : j < n) :
    byteAt (slice m i n) j = byteAt m (i + j) := by
  simp [byteAt, slice, List.getD_eq_getElem?_getD, h]

/-! ## Stores -/

section Store

variable {m : List UInt8} {i k n : Nat} {b : UInt8}

theorem byteAt_set_self (h : k < m.length) : byteAt (m.set k b) k = b := by
  simp [byteAt, List.getD_eq_getElem?_getD, h]

theorem byteAt_set_of_ne (h : i ≠ k) : byteAt (m.set k b) i = byteAt m i := by
  simp only [byteAt, List.getD_eq_getElem?_getD, List.getElem?_set_ne (Ne.symm h)]

/-- A store outside a slice does not change it. -/
theorem slice_set_of_outside (h : k < i ∨ i + n ≤ k) : slice (m.set k b) i n = slice m i n := by
  unfold slice
  rw [List.drop_set]
  split_ifs with hk
  · rfl
  · rw [List.take_set_of_le (by omega)]

theorem slice_set_of_inside (h : i ≤ k) : slice (m.set k b) i n = (slice m i n).set (k - i) b := by
  unfold slice
  rw [List.drop_set, if_neg (by omega), List.take_set]

end Store

end Lib
