/-
  Byte strings as C sees them.

  A text is a `List UInt8`. `ascii` writes one from a Lean literal, and `ascii_ofList` turns
  such a literal into its list of bytes without decoding it. `CStr` is a NUL-free byte string
  (what a `char *` denotes): `CStr.ofBytes` is the C view of a buffer, cut at its first NUL,
  and `CStr.clip n` is `snprintf` with "%s" into a buffer of `n + 1` bytes. `lower` is
  `tolower` of the C locale on every byte, `caseEq` is `strcasecmp (..) == 0`.
-/
import Mathlib.Data.List.Basic
import Mathlib.Data.List.TakeWhile
import Mathlib.Data.Nat.Bitwise
import Mathlib.Tactic.Common

namespace Lib

/-- The byte of an ASCII (or Latin-1) character. -/
def byteOf (c : Char) : UInt8 := c.toNat.toUInt8

/-- The bytes of an ASCII literal. -/
def ascii (s : String) : List UInt8 := s.toList.map byteOf

theorem ascii_ofList (l : List Char) : ascii (String.ofList l) = l.map byteOf := by
  simp [ascii]

theorem ascii_append (s t : String) : ascii (s ++ t) = ascii s ++ ascii t := by
  simp [ascii]

/-- Two bytes in network order. -/
def be16 (hi lo : UInt8) : UInt16 := UInt16.ofNat (256 * hi.toNat + lo.toNat)

theorem be16_toNat (hi lo : UInt8) : (be16 hi lo).toNat = 256 * hi.toNat + lo.toNat := by
  have h1 := hi.toNat_lt
  have h2 := lo.toNat_lt
  simp only [be16, UInt16.toNat_ofNat']
  omega

/-- Four bytes in network order. -/
def be32 (a b c d : UInt8) : UInt32 :=
  UInt32.ofNat (16777216 * a.toNat + 65536 * b.toNat + 256 * c.toNat + d.toNat)

/-- Masking with one bit tests it. -/
theorem and_bit_eq_zero_iff (x : UInt16) {i : Nat} (hi : i < 16) :
    x &&& UInt16.ofNat (2 ^ i) = 0 ↔ x.toNat.testBit i = false := by
  have hpow : 2 ^ i % 2 ^ 16 = 2 ^ i := Nat.mod_eq_of_lt (Nat.pow_lt_pow_right (by decide) hi)
  rw [← UInt16.toNat_inj, UInt16.toNat_and, UInt16.toNat_ofNat', UInt16.toNat_zero, hpow,
    Nat.and_two_pow]
  cases x.toNat.testBit i <;> simp

/-- A property of bytes is checked on the 256 of them. -/
theorem forall_byte {p : UInt8 → Prop} [DecidablePred p]
    (h : ∀ n : Fin 256, p (UInt8.ofNat n)) (c : UInt8) : p c := by
  have := h ⟨c.toNat, c.toNat_lt⟩
  rwa [UInt8.ofNat_toNat] at this

/-! ## Letter case -/

/-- `tolower` in the C locale. -/
def tolower (c : UInt8) : UInt8 := if 65 ≤ c ∧ c ≤ 90 then c + 32 else c

/-- `tolower` on every byte. -/
def lower (s : List UInt8) : List UInt8 := s.map tolower

/-- `strcasecmp (a, b) == 0`. -/
def caseEq (a b : List UInt8) : Bool := lower a == lower b

theorem tolower_tolower (c : UInt8) : tolower (tolower c) = tolower c := by
  unfold tolower
  grind

theorem lower_lower (s : List UInt8) : lower (lower s) = lower s := by
  simp [lower, tolower_tolower]

theorem lower_append (s t : List UInt8) : lower (s ++ t) = lower s ++ lower t :=
  List.map_append

theorem length_lower (s : List UInt8) : (lower s).length = s.length := List.length_map _

/-- Letters only change among letters, so a byte outside `A-Z a-z` is hit by itself alone. -/
theorem tolower_eq_dot {c : UInt8} : tolower c = 46 ↔ c = 46 := by
  unfold tolower
  grind

/-! ## NUL-terminated strings -/

/-- A C string: the bytes before the terminating NUL. -/
structure CStr where
  bytes : List UInt8
  nulFree : (0 : UInt8) ∉ bytes
  deriving DecidableEq

namespace CStr

/-- The C string held by a buffer: everything before its first NUL. -/
def ofBytes (l : List UInt8) : CStr where
  bytes := l.takeWhile (· ≠ 0)
  nulFree h := by simpa using List.mem_takeWhile_imp h

/-- `strlen`. -/
def len (s : CStr) : Nat := s.bytes.length

/-- `snprintf (buf, n + 1, "%s", s)`. -/
def clip (n : Nat) (s : CStr) : CStr where
  bytes := s.bytes.take n
  nulFree h := s.nulFree (List.mem_of_mem_take h)

/-- The C string of a literal. -/
def lit (s : String) : CStr := ofBytes (ascii s)

/-- The empty string, what `memset` leaves in a `char []`. -/
def empty : CStr := ⟨[], by simp⟩

instance : Inhabited CStr := ⟨empty⟩

theorem bytes_ofBytes {l : List UInt8} (h : (0 : UInt8) ∉ l) : (ofBytes l).bytes = l := by
  change l.takeWhile (· ≠ 0) = l
  rw [List.takeWhile_eq_self_iff]
  intro b hb
  exact decide_eq_true fun hzero => h (hzero ▸ hb)

theorem len_clip_le (n : Nat) (s : CStr) : (s.clip n).len ≤ n := by
  simp only [len, clip, List.length_take]
  omega

end CStr

end Lib
