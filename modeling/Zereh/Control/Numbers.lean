/-
  The numbers of the configuration: what `zereh_parse_u32`, `zereh_parse_u16` and `zereh_parse_u8`
  make of a numeral.

  Each compares what `strtoul` returns with the largest value of its type (`parseU32_numeral`,
  `parseU16_numeral`, `parseU8_numeral`). A negative numeral just above `-2^64` has wrapped around
  by then, and is taken for a small positive one. Every other numeral is read as it is written
  (`parse_exact_iff`).
-/
import Zereh.Lib.Numeral
import Zereh.Control.YamlParser

namespace Zereh.Control

open Lib

/-! ## The narrower types -/

section Narrow

variable {α : Type} {bound : UInt32} {narrow : UInt32 → α} {widen : α → UInt32} {node : YamlNode}

/-- A checked conversion succeeds exactly on the values of the narrower type. -/
theorem narrow_ok_iff (hle : ∀ a, widen a ≤ bound)
    (hinv : ∀ t ≤ bound, ∀ a, narrow t = a ↔ t = widen a) (x : Parsed UInt32) (a : α) :
    (x >>= fun tmp => if tmp > bound then reject else .ok (narrow tmp)) = .ok a ↔
      x = .ok (widen a) := by
  cases x with
  | error ms => exact iff_of_false (by rintro ⟨⟩) (by rintro ⟨⟩)
  | ok tmp =>
    change (if tmp > bound then reject else Except.ok (narrow tmp)) = .ok a ↔ _
    by_cases hbig : tmp > bound
    · rw [if_pos hbig, Except.ok.injEq]
      refine iff_of_false (by rintro ⟨⟩) fun h => ?_
      exact absurd (hle a) (UInt32.not_le.mpr (h ▸ hbig))
    · rw [if_neg hbig, Except.ok.injEq, Except.ok.injEq]
      exact hinv tmp (UInt32.not_lt.mp hbig) a

theorem parseU16_ok_iff (a : UInt16) :
    parseU16 node = .ok a ↔ parseU32 node = .ok a.toUInt32 := by
  refine narrow_ok_iff (fun a => ?_) (fun t ht a => ?_) _ a
  · rw [UInt32.le_iff_toNat_le, UInt16.toNat_toUInt32]
    exact Nat.le_of_lt_succ a.toNat_lt
  · rw [UInt32.le_iff_toNat_le] at ht
    have hlt : t.toNat < 2 ^ 16 := Nat.lt_succ_of_le ht
    rw [← UInt16.toNat_inj, ← UInt32.toNat_inj, UInt16.toNat_toUInt32, UInt32.toNat_toUInt16,
      Nat.mod_eq_of_lt hlt]

theorem parseU8_ok_iff (a : UInt8) : parseU8 node = .ok a ↔ parseU32 node = .ok a.toUInt32 := by
  refine narrow_ok_iff (fun a => ?_) (fun t ht a => ?_) _ a
  · rw [UInt32.le_iff_toNat_le, UInt8.toNat_toUInt32]
    exact Nat.le_of_lt_succ a.toNat_lt
  · rw [UInt32.le_iff_toNat_le] at ht
    have hlt : t.toNat < 2 ^ 8 := Nat.lt_succ_of_le ht
    rw [← UInt8.toNat_inj, ← UInt32.toNat_inj, UInt8.toNat_toUInt32, UInt32.toNat_toUInt8,
      Nat.mod_eq_of_lt hlt]

end Narrow

/-! ## Numerals -/

section Numerals

variable (n : Numeral)

theorem parseU32_numeral (a : UInt32) :
    parseU32 (.scalar n.text) = .ok a ↔ (a.toNat : Int) = wrapped n.value := by
  have hlt : a.toNat < 2 ^ 32 := a.toNat_lt
  have hread : strtoul (CStr.ofBytes n.text).bytes = some (n.converted, []) := by
    rw [CStr.bytes_ofBytes n.zero_not_mem_text, n.strtoul_numeral]
  rw [← n.converted_eq_iff (hlt.trans (by decide))]
  simp only [parseU32, scalar, hread, ne_eq, not_true_eq_false, false_or]
  split_ifs with hbig
  · exact iff_of_false (by rintro ⟨⟩) (by omega)
  · have hfits : n.converted < 2 ^ 32 := by omega
    rw [Except.ok.injEq, ← UInt32.toNat_inj, UInt32.toNat_ofNat_of_lt' hfits]

theorem parseU16_numeral (a : UInt16) :
    parseU16 (.scalar n.text) = .ok a ↔ (a.toNat : Int) = wrapped n.value := by
  rw [parseU16_ok_iff, parseU32_numeral, UInt16.toNat_toUInt32]

theorem parseU8_numeral (a : UInt8) :
    parseU8 (.scalar n.text) = .ok a ↔ (a.toNat : Int) = wrapped n.value := by
  rw [parseU8_ok_iff, parseU32_numeral, UInt8.toNat_toUInt32]

end Numerals

/-- A number is read from what `printf` writes for it. -/
theorem parseU32_decimal (a : UInt32) : parseU32 (.scalar (CText.decimal a.toNat)) = .ok a := by
  have hpos : ¬ ((a.toNat : Int) < 0) := by omega
  rw [← Numeral.text_ofNat, parseU32_numeral, Numeral.value_ofNat, wrapped,
    if_neg fun h => hpos h.2]

theorem parseU16_decimal (a : UInt16) : parseU16 (.scalar (CText.decimal a.toNat)) = .ok a := by
  rw [parseU16_ok_iff, ← UInt16.toNat_toUInt32]
  exact parseU32_decimal a.toUInt32

/-! ## Exactness -/

section Exact

variable {α : Type} {toNat : α → Nat} {w : Nat} {x : Parsed α} {v : Int}

/-- `x` is a correct reading of `v` into `w` bits: it succeeds exactly if the integer fits, and then
    with it. -/
structure ReadsExactly (toNat : α → Nat) (w : Nat) (x : Parsed α) (v : Int) : Prop where
  accepted_iff : (∃ a, x = .ok a) ↔ 0 ≤ v ∧ v < 2 ^ w
  stored : ∀ a, x = .ok a → (toNat a : Int) = v

/-- A parser that reads the wrapped integer reads exactly unless it wraps around into its type. -/
theorem readsExactly_iff (hw : w < 64) (hlt : ∀ a, toNat a < 2 ^ w)
    (hsurj : ∀ k < 2 ^ w, ∃ a, toNat a = k) (hx : ∀ a, x = .ok a ↔ (toNat a : Int) = wrapped v) :
    ReadsExactly toNat w x v ↔ ¬ Wraps w v := by
  rw [← wrapped_exact_iff hw]
  have hcast : ((2 ^ w : Nat) : Int) = 2 ^ w := by norm_cast
  constructor
  · intro hread k hk
    constructor
    · intro hwrapped
      obtain ⟨a, rfl⟩ := hsurj k hk
      exact hread.stored a ((hx a).mpr hwrapped)
    · intro hvalue
      obtain ⟨a, ha⟩ := hread.accepted_iff.mpr ⟨by omega, by omega⟩
      have hstored := hread.stored a ha
      rw [hvalue, ← (hx a).mp ha, hstored]
  · intro hexact
    have hstored : ∀ a, x = .ok a → (toNat a : Int) = v := fun a ha =>
      (hexact (toNat a) (hlt a)).mp ((hx a).mp ha)
    refine ⟨⟨?_, ?_⟩, hstored⟩
    · rintro ⟨a, ha⟩
      have := hstored a ha
      have := hlt a
      omega
    · rintro ⟨hnonneg, hfits⟩
      obtain ⟨a, ha⟩ := hsurj v.toNat (by omega)
      refine ⟨a, (hx a).mpr ?_⟩
      exact (hexact (toNat a) (hlt a)).mpr (by omega)

/-- **Every numeral.** Each of the three parsers reads it exactly, unless it wraps around into the
    type of that parser. -/
theorem parse_exact_iff (n : Numeral) :
    (ReadsExactly UInt32.toNat 32 (parseU32 (.scalar n.text)) n.value ↔ ¬ Wraps 32 n.value) ∧
    (ReadsExactly UInt16.toNat 16 (parseU16 (.scalar n.text)) n.value ↔ ¬ Wraps 16 n.value) ∧
    (ReadsExactly UInt8.toNat 8 (parseU8 (.scalar n.text)) n.value ↔ ¬ Wraps 8 n.value) := by
  refine ⟨?_, ?_, ?_⟩
  · exact readsExactly_iff (by decide) UInt32.toNat_lt
      (fun k hk => ⟨.ofNat k, UInt32.toNat_ofNat_of_lt' hk⟩) (parseU32_numeral n)
  · exact readsExactly_iff (by decide) UInt16.toNat_lt
      (fun k hk => ⟨.ofNat k, UInt16.toNat_ofNat_of_lt' hk⟩) (parseU16_numeral n)
  · exact readsExactly_iff (by decide) UInt8.toNat_lt
      (fun k hk => ⟨.ofNat k, UInt8.toNat_ofNat_of_lt' hk⟩) (parseU8_numeral n)

/-- The numeral -18446744073709551615, that is -(2^64 - 1). -/
def minusMax : Numeral :=
  .ofDigits .minus (ascii "18446744073709551615") (by decide +kernel) (by decide +kernel)

/-- It is read as one. -/
theorem minusMax_read :
    minusMax.text = ascii "-18446744073709551615" ∧ minusMax.value < 0 ∧
      parseU32 (.scalar minusMax.text) = .ok 1 ∧ parseU16 (.scalar minusMax.text) = .ok 1 ∧
      parseU8 (.scalar minusMax.text) = .ok 1 ∧
      ¬ ReadsExactly UInt32.toNat 32 (parseU32 (.scalar minusMax.text)) minusMax.value := by
  refine ⟨by decide +kernel, by decide +kernel, by decide +kernel, by decide +kernel,
    by decide +kernel, fun hread => ?_⟩
  have hone := hread.stored 1 (by decide +kernel)
  exact absurd hone (by decide +kernel)

end Exact

end Zereh.Control
