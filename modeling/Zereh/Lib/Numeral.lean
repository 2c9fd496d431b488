/-
  Decimal numerals and what `strtoul` makes of them.

  A numeral is white space, a sign and digits, and denotes an integer. `strtoul` reads it to its end.
  It returns the integer, saturates past `ULONG_MAX`, and takes a negative one modulo `2^64`
  (`strtoul_numeral`, `converted_eq_iff`). What `printf` writes for `%u` is a numeral of the number
  (`Numeral.ofNat`).
-/
import Mathlib.Data.List.TakeWhile
import Zereh.Lib.CLex
import Zereh.Lib.CStdlib

namespace Lib

/-- The sign of a numeral, if it has one. -/
inductive Sign where
  | none
  | plus
  | minus
  deriving DecidableEq

def Sign.text : Sign → List UInt8
  | .none => []
  | .plus => [43]
  | .minus => [45]

/-- White space, a sign and at least one digit. -/
structure Numeral where
  spaces : List UInt8
  sign : Sign
  digits : List UInt8
  isSpace_of_mem : ∀ c ∈ spaces, isSpace c = true
  isDigit_of_mem : ∀ c ∈ digits, isDigit c = true
  digits_ne : digits ≠ []

namespace Numeral

/-- A numeral without white space. -/
def ofDigits (sign : Sign) (digits : List UInt8) (hne : digits ≠ [])
    (h : digits.all isDigit = true) : Numeral where
  spaces := []
  sign := sign
  digits := digits
  isSpace_of_mem := List.forall_mem_nil _
  isDigit_of_mem := List.all_eq_true.mp h
  digits_ne := hne

variable (n : Numeral)

def text : List UInt8 := n.spaces ++ (n.sign.text ++ n.digits)

/-- The integer that is written. -/
def value : Int := if n.sign = .minus then -(decVal n.digits : Int) else decVal n.digits

/-- The word that `strtoul` returns. -/
def converted : Nat :=
  if ulongMax < decVal n.digits then ulongMax
  else if n.sign = .minus then (2 ^ 64 - decVal n.digits) % 2 ^ 64
  else decVal n.digits

/-! ## Reading -/

theorem not_space_of_digit {c : UInt8} (h : isDigit c = true) : isSpace c = false := by
  unfold isDigit at h
  unfold isSpace
  grind

/-- The white space ends before the sign or the first digit. -/
theorem dropWhile_text : n.text.dropWhile isSpace = n.sign.text ++ n.digits := by
  have hspaces : n.spaces.dropWhile isSpace = [] := List.dropWhile_eq_nil_iff.mpr n.isSpace_of_mem
  rw [text, List.dropWhile_append, hspaces, if_pos List.isEmpty_nil]
  obtain ⟨d, ds, hdigits⟩ := List.exists_cons_of_ne_nil n.digits_ne
  have hd : isSpace d = false := not_space_of_digit (n.isDigit_of_mem d (by rw [hdigits]; exact .head _))
  rw [hdigits]
  cases n.sign with
  | none => exact List.dropWhile_cons_of_neg (by rw [hd]; decide)
  | plus => exact List.dropWhile_cons_of_neg (by decide)
  | minus => exact List.dropWhile_cons_of_neg (by decide)

theorem signOf_text : signOf (n.sign.text ++ n.digits) = (decide (n.sign = .minus), n.digits) := by
  cases hsign : n.sign with
  | plus => rfl
  | minus => rfl
  | none =>
    -- a digit is no sign
    obtain ⟨d, ds, hdigits⟩ := List.exists_cons_of_ne_nil n.digits_ne
    have hd : isDigit d = true := n.isDigit_of_mem d (by rw [hdigits]; exact .head _)
    rw [Sign.text, List.nil_append, hdigits]
    unfold signOf
    split
    · rename_i heq
      rw [(List.cons_eq_cons.mp heq).1] at hd
      exact absurd hd (by decide)
    · rename_i heq
      rw [(List.cons_eq_cons.mp heq).1] at hd
      exact absurd hd (by decide)
    · rfl

theorem strtoul_numeral : strtoul n.text = some (n.converted, []) := by
  have htake : n.digits.takeWhile isDigit = n.digits :=
    List.takeWhile_eq_self_iff.mpr n.isDigit_of_mem
  have hdrop : n.digits.dropWhile isDigit = [] := List.dropWhile_eq_nil_iff.mpr n.isDigit_of_mem
  have hne : ¬ n.digits.isEmpty = true := fun h => n.digits_ne (List.isEmpty_iff.mp h)
  unfold strtoul
  rw [dropWhile_text, signOf_text]
  simp only [htake, hdrop, if_neg hne, converted, decide_eq_true_eq]

/-- No byte of a numeral is NUL. -/
theorem zero_not_mem_text : (0 : UInt8) ∉ n.text := by
  intro h
  rcases List.mem_append.mp h with hspace | h
  · exact absurd (n.isSpace_of_mem 0 hspace) (by decide)
  rcases List.mem_append.mp h with hsign | hdigit
  · cases hs : n.sign <;> rw [hs] at hsign <;> exact absurd hsign (by decide)
  · exact absurd (n.isDigit_of_mem 0 hdigit) (by decide)

/-! ## What `printf` writes -/

theorem isDigit_of_mem_decimal {n : Nat} {c : UInt8} (h : c ∈ CText.decimal n) :
    isDigit c = true := by
  obtain ⟨d, hd, rfl⟩ := List.mem_map.mp h
  have hdigit := Nat.isDigit_of_mem_toDigits (by decide) (by decide) hd
  rw [Char.isDigit, Bool.and_eq_true, decide_eq_true_eq, decide_eq_true_eq, ge_iff_le,
    UInt32.le_iff_toNat_le, UInt32.le_iff_toNat_le] at hdigit
  have hbyte : (byteOf d).toNat = d.val.toNat := by
    change d.val.toNat % 256 = _
    exact Nat.mod_eq_of_lt (Nat.lt_of_le_of_lt hdigit.2 (by decide))
  rw [isDigit, Bool.and_eq_true, decide_eq_true_eq, decide_eq_true_eq, UInt8.le_iff_toNat_le,
    UInt8.le_iff_toNat_le, hbyte]
  exact hdigit

theorem decVal_decimal (n : Nat) : decVal (CText.decimal n) = n := by
  unfold CText.decimal
  induction n using Nat.strongRecOn with
  | ind n ih =>
    have hdigit : ∀ d : Fin 10, (byteOf (Nat.digitChar d)).toNat - 48 = d := by decide
    rcases Nat.lt_or_ge n 10 with hlt | hge
    · have hlast := hdigit ⟨n, hlt⟩
      rw [Nat.toDigits_of_lt_base hlt]
      simpa [decVal] using hlast
    · have hlast := hdigit ⟨n % 10, Nat.mod_lt n (by decide)⟩
      have hdiv := ih (n / 10) (Nat.div_lt_self (by omega) (by decide))
      rw [Nat.toDigits_of_base_le (by decide) hge, List.map_append, List.map_singleton, decVal,
        List.foldl_append, ← decVal, hdiv, List.foldl_cons, List.foldl_nil, hlast]
      exact Nat.div_add_mod n 10

/-- The numeral `%u`. -/
def ofNat (n : Nat) : Numeral where
  spaces := []
  sign := .none
  digits := CText.decimal n
  isSpace_of_mem := List.forall_mem_nil _
  isDigit_of_mem _ h := isDigit_of_mem_decimal h
  digits_ne h := Nat.toDigits_ne_nil (List.map_eq_nil_iff.mp h)

theorem text_ofNat (n : Nat) : (ofNat n).text = CText.decimal n := rfl

theorem value_ofNat (n : Nat) : (ofNat n).value = n := by
  rw [value, if_neg (by rintro ⟨⟩)]
  exact congrArg Nat.cast (decVal_decimal n)

end Numeral

/-! ## Wrapping around -/

/-- An integer as `strtoul` takes it: a negative one above `-2^64` is taken modulo `2^64`. -/
def wrapped (v : Int) : Int := if -2 ^ 64 < v ∧ v < 0 then v + 2 ^ 64 else v

/-- Below `ULONG_MAX` the result is the wrapped integer, and only then. -/
theorem Numeral.converted_eq_iff (n : Numeral) {a : Nat} (ha : a < ulongMax) :
    n.converted = a ↔ (a : Int) = wrapped n.value := by
  unfold ulongMax at ha
  unfold Numeral.converted Numeral.value wrapped ulongMax
  split_ifs <;> omega

/-- Between these a negative integer comes out as one of `w` bits. -/
def Wraps (w : Nat) (v : Int) : Prop := -2 ^ 64 < v ∧ v < -2 ^ 64 + 2 ^ w

instance (w : Nat) (v : Int) : Decidable (Wraps w v) := inferInstanceAs (Decidable (_ ∧ _))

/-- For a word of `w` bits, an integer and its wrapped form differ exactly where it wraps. -/
theorem wrapped_exact_iff {w : Nat} (hw : w < 64) (v : Int) :
    (∀ a : Nat, a < 2 ^ w → ((a : Int) = wrapped v ↔ (a : Int) = v)) ↔ ¬ Wraps w v := by
  have hpow : (2 : Int) ^ w ≤ 2 ^ 63 := by
    exact_mod_cast Nat.pow_le_pow_right (n := 2) (by decide) (by omega : w ≤ 63)
  unfold Wraps wrapped
  constructor
  · intro h hwraps
    have hlt : (v + 2 ^ 64).toNat < 2 ^ w := by
      have : ((v + 2 ^ 64).toNat : Int) < (2 : Int) ^ w := by omega
      exact_mod_cast this
    have hiff := h (v + 2 ^ 64).toNat hlt
    rw [if_pos ⟨hwraps.1, by omega⟩] at hiff
    omega
  · intro hno a ha
    have hcast : (a : Int) < (2 : Int) ^ w := by exact_mod_cast ha
    split_ifs with hneg
    · omega
    · rfl

end Lib
