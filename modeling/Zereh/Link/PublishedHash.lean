/-
  The hash functions of `control/hash.c` against the published ones.

  `siphash24Bytes_published`: `zereh_siphash24_bytes` is SipHash-2-4. The lanes of the code are the
  lanes of the published one (`lanes`), a round of one is a round of the other (`lanes_sipround`),
  and the words that both loops put together with shifts are the words of the padded message
  (`messageWord_published`, `lastWord_published`).

  `fnv1a64Domain_ne_published`: `zereh_fnv1a64_domain` is not FNV-1a. `ZEREH_FNV1A64_OFFSET` is the
  offset basis 14695981039346656037 without its last digit, and no name has the same hash from both.
-/
import Zereh.Link.HashAgree
import Zereh.Lib.Hashes

namespace Zereh.Link

open Lib
open Zereh.Control (SipState)

/-! ## Rounds -/

theorem rotl64_eq (x : UInt64) {b : UInt64} (hpos : 0 < b) (hlt : b < 64) :
    (Control.rotl64 x b).toBitVec = x.toBitVec.rotateLeft b.toNat := by
  have hpos' : 0 < b.toNat := UInt64.lt_iff_toNat_lt.mp hpos
  have hlt' : b.toNat < 64 := UInt64.lt_iff_toNat_lt.mp hlt
  have hsub : (64 - b).toNat = 64 - b.toNat := UInt64.toNat_sub_of_le _ _ (UInt64.le_of_lt hlt)
  have hleft : (b.toBitVec % 64).toNat = b.toNat := Nat.mod_eq_of_lt hlt'
  have hright : ((64 - b).toBitVec % 64).toNat = 64 - b.toNat := by
    change (64 - b).toNat % 64 = 64 - b.toNat
    rw [hsub, Nat.mod_eq_of_lt (by omega)]
  rw [BitVec.rotateLeft_def, Control.rotl64, UInt64.toBitVec_or, UInt64.toBitVec_shiftLeft,
    UInt64.toBitVec_shiftRight, BitVec.shiftLeft_eq', BitVec.ushiftRight_eq', hleft, hright,
    Nat.mod_eq_of_lt hlt']

/-- The lanes as words of 64 bits. -/
def lanes (s : SipState) : SipHash.Lanes :=
  ⟨s.v0.toBitVec, s.v1.toBitVec, s.v2.toBitVec, s.v3.toBitVec⟩

theorem lanes_sipround (s : SipState) :
    lanes (Control.sipround s) = SipHash.sipRound (lanes s) := by
  have h13 := fun x => rotl64_eq x (b := 13) (by decide) (by decide)
  have h16 := fun x => rotl64_eq x (b := 16) (by decide) (by decide)
  have h17 := fun x => rotl64_eq x (b := 17) (by decide) (by decide)
  have h21 := fun x => rotl64_eq x (b := 21) (by decide) (by decide)
  have h32 := fun x => rotl64_eq x (b := 32) (by decide) (by decide)
  simp only [lanes, Control.sipround, SipHash.sipRound, UInt64.toBitVec_xor, UInt64.toBitVec_add,
    h13, h16, h17, h21, h32]
  rfl

theorem lanes_rounds (n : Nat) (s : SipState) :
    lanes (Control.sipround^[n] s) = SipHash.sipRound^[n] (lanes s) :=
  Function.Semiconj.iterate_right (f := lanes) lanes_sipround n s

theorem lanes_compress (s : SipState) (m : UInt64) :
    lanes (Control.compress s m) = SipHash.absorb 2 (lanes s) m.toBitVec := by
  have hin : { lanes s with v3 := (lanes s).v3 ^^^ m.toBitVec } =
      lanes { s with v3 := s.v3 ^^^ m } := rfl
  rw [SipHash.absorb, hin, ← lanes_rounds]
  rfl

theorem sipFinish_published (s : SipState) (b : UInt64) :
    (Control.sipFinish s b).toBitVec = SipHash.finish 4 (lanes (Control.compress s b)) := by
  have hin : ∀ t : SipState, { lanes t with v2 := (lanes t).v2 ^^^ 0xff#64 } =
      lanes { t with v2 := t.v2 ^^^ 0xff } := fun _ => rfl
  rw [SipHash.finish, hin, ← lanes_rounds]
  rfl

theorem sipInit_published : lanes Control.sipInit = SipHash.initial SipHash.countingKey := by
  decide +kernel

/-! ## Words -/

theorem tailLoop_or (data : List UInt8) (off n i : Nat) (b : UInt64) :
    Control.tailLoop data off n i b = b ||| Control.tailLoop data off n i 0 := by
  induction n generalizing i b with
  | zero => rw [Control.tailLoop, Control.tailLoop, UInt64.or_zero]
  | succ n ih =>
    rw [Control.tailLoop, Control.tailLoop, ih, ih (i + 1) (0 ||| _), UInt64.zero_or,
      UInt64.or_assoc]

theorem tailLoop_last (data : List UInt8) (off n i : Nat) (b : UInt64) :
    Control.tailLoop data off (n + 1) i b =
      Control.tailLoop data off n i b ||| Control.byteWord data (off + (i + n)) (i + n) := by
  induction n generalizing i b with
  | zero => rfl
  | succ n ih =>
    rw [Control.tailLoop, ih, Control.tailLoop, show i + 1 + n = i + (n + 1) by omega]

theorem toNat_byteWord (data : List UInt8) (i : Nat) {j : Nat} (hj : j < 8) :
    (Control.byteWord data i j).toNat = 2 ^ (8 * j) * (byteAt data i).toNat := by
  have hbyte := (byteAt data i).toNat_lt
  have hshift : (8 * UInt64.ofNat j).toNat % 64 = 8 * j := by
    rw [UInt64.toNat_mul, UInt64.toNat_ofNat']
    change 8 * (j % 2 ^ 64) % 2 ^ 64 % 64 = 8 * j
    omega
  have hlt : 2 ^ (8 * j) * (byteAt data i).toNat < 2 ^ 64 := by
    calc 2 ^ (8 * j) * (byteAt data i).toNat < 2 ^ (8 * j) * 2 ^ 8 :=
          Nat.mul_lt_mul_of_pos_left hbyte (Nat.two_pow_pos _)
      _ = 2 ^ (8 * j + 8) := (Nat.pow_add ..).symm
      _ ≤ 2 ^ 64 := Nat.pow_le_pow_right (by decide) (by omega)
  rw [Control.byteWord, UInt64.toNat_shiftLeft, UInt8.toNat_toUInt64, hshift, Nat.shiftLeft_eq,
    Nat.mul_comm, ← byteAt, Nat.mod_eq_of_lt hlt]

/-- The bytes that the tail loop puts together, as a number. -/
theorem toNat_tailLoop (data : List UInt8) (off : Nat) {n : Nat} (hn : n ≤ 8)
    (hlen : off + n ≤ data.length) :
    (Control.tailLoop data off n 0 0).toNat =
      Nat.ofDigits 256 ((slice data off n).map UInt8.toNat) := by
  induction n with
  | zero => rw [slice_zero]; rfl
  | succ n ih =>
    have hsnoc : slice data off (n + 1) = slice data off n ++ [byteAt data (off + n)] := by
      rw [slice_add, slice_succ (by omega), slice_zero]
    have hlt : (Control.tailLoop data off n 0 0).toNat < 2 ^ (8 * n) := by
      have hdigits := SipHash.ofDigits_lt (slice data off n)
      rw [length_slice (by omega), show 256 = 2 ^ 8 from rfl, ← Nat.pow_mul] at hdigits
      rw [ih (by omega) (by omega)]
      exact hdigits
    rw [tailLoop_last, UInt64.toNat_or, Nat.zero_add, toNat_byteWord data _ (by omega), Nat.or_comm,
      ← Nat.two_pow_add_eq_or_of_lt hlt, ih (by omega) (by omega), hsnoc, List.map_append,
      Nat.ofDigits_append, List.length_map, length_slice (by omega), List.map_singleton,
      Nat.ofDigits_singleton, Nat.pow_mul, Nat.add_comm]

theorem messageWord_published (data : List UInt8) {off : Nat} (hlen : off + 8 ≤ data.length) :
    (Control.messageWord data off).toBitVec =
      SipHash.word (((SipHash.padded data).drop off).take 8) := by
  have hbytes : ((SipHash.padded data).drop off).take 8 = slice data off 8 := by
    rw [SipHash.padded, List.drop_append_of_le_length (by omega),
      List.take_append_of_le_length (by rw [List.length_drop]; omega), slice]
  refine BitVec.eq_of_toNat_eq ?_
  rw [hbytes, SipHash.toNat_word (by rw [length_slice hlen]),
    ← toNat_tailLoop data off (by decide) hlen, tailLoop_eight]
  rfl

theorem lastWord_published (data : List UInt8) {off : Nat} (hoff : off % 8 = 0)
    (hle : off ≤ data.length) (hlt : data.length < off + 8) :
    (Control.tailLoop data off (data.length - off) 0 (UInt64.ofNat data.length <<< 56)).toBitVec =
      SipHash.word (((SipHash.padded data).drop off).take 8) := by
  have hrest : (slice data off (data.length - off)).length = data.length - off :=
    length_slice (by omega)
  have hbytes : ((SipHash.padded data).drop off).take 8 = slice data off (data.length - off) ++
      (List.replicate (7 - (slice data off (data.length - off)).length) 0 ++
        [UInt8.ofNat (data.length % 256)]) := by
    have hall : slice data off (data.length - off) = data.drop off := by
      rw [slice, List.take_of_length_le (by rw [List.length_drop])]
    rw [hrest, hall, SipHash.padded, List.drop_append_of_le_length hle, List.take_of_length_le,
      show data.length % 8 = data.length - off by omega]
    simp only [List.length_append, List.length_drop, List.length_replicate, List.length_singleton]
    omega
  have hlow := SipHash.ofDigits_lt (slice data off (data.length - off))
  have hpow : 256 ^ (data.length - off) ≤ 256 ^ 7 := Nat.pow_le_pow_right (by decide) (by omega)
  have htop : (UInt64.ofNat data.length <<< 56).toNat = 2 ^ 56 * (data.length % 256) := by
    rw [UInt64.toNat_shiftLeft, UInt64.toNat_ofNat', Nat.shiftLeft_eq]
    change data.length % 2 ^ 64 * 2 ^ 56 % 2 ^ 64 = _
    omega
  have hlen : (UInt8.ofNat (data.length % 256)).toNat = data.length % 256 := by
    rw [UInt8.toNat_ofNat']
    omega
  refine BitVec.eq_of_toNat_eq ?_
  rw [hbytes, SipHash.toNat_lastWord (by omega), hlen, UInt64.toNat_toBitVec, tailLoop_or,
    UInt64.toNat_or, toNat_tailLoop data off (by omega) (by omega), htop, Nat.two_pow_add_eq_or_of_lt]
  rw [hrest] at hlow
  omega

/-- All words from a block boundary on. -/
theorem blocks_published (data : List UInt8) (k off : Nat) (s : SipState) (hoff : off % 8 = 0)
    (hk : off + 8 * k ≤ data.length) (hk' : data.length < off + 8 * k + 8) :
    lanes (Control.compress (absorb data k off s) (Control.tailLoop data (off + 8 * k)
        (data.length - (off + 8 * k)) 0 (UInt64.ofNat data.length <<< 56))) =
      (SipHash.words (k + 1) ((SipHash.padded data).drop off)).foldl (SipHash.absorb 2)
        (lanes s) := by
  induction k generalizing off s with
  | zero =>
    rw [Nat.mul_zero, Nat.add_zero, lanes_compress,
      lastWord_published data hoff (by omega) (by omega)]
    rfl
  | succ k ih =>
    have hrest := ih (off + 8) (Control.compress s (Control.messageWord data off)) (by omega)
      (by omega) (by omega)
    rw [SipHash.words, List.foldl_cons, ← messageWord_published data (by omega), ← lanes_compress,
      List.drop_drop, ← hrest, absorb, show off + 8 + 8 * k = off + 8 * (k + 1) by omega]

/-! ## SipHash-2-4 -/

/-- **The SipHash mode is SipHash-2-4.** The hash of every byte string is the published one under
    the key 00 01 .. 0f. -/
theorem siphash24Bytes_published (data : List UInt8) :
    (Control.siphash24Bytes data).toBitVec = SipHash.hash 2 4 SipHash.countingKey data := by
  have hblocks := control_blockLoop_eq data (data.length / 8) data.length 0 Control.sipInit
    (by omega) (by omega) (by omega)
  have hwords := blocks_published data (data.length / 8) 0 Control.sipInit rfl (by omega) (by omega)
  rw [List.drop_zero, sipInit_published] at hwords
  rw [Control.siphash24Bytes, hblocks, SipHash.hash, SipHash.length_padded,
    Nat.mul_div_cancel_left _ (by decide), ← hwords]
  exact sipFinish_published ..

/-! ## FNV-1a -/

/-- The code is FNV-1a up to the basis. -/
theorem fnv1a64Bytes_eq (data : List UInt8) :
    Control.fnv1a64Bytes data = Fnv.fnv1a 0x100000001b3 Control.fnv1a64Offset data := rfl

/-- **The FNV-1a mode is not FNV-1a.** No name that is not empty has its published hash. -/
theorem fnv1a64Domain_ne_published (domain : CStr) (h : Control.normalizeDomain domain ≠ []) :
    Control.fnv1a64Domain domain ≠ Fnv.fnv1a64 (Control.normalizeDomain domain) := by
  have hlen : (Control.normalizeDomain domain).length ≠ 0 := fun hzero =>
    h (List.length_eq_zero_iff.mp hzero)
  have hinverse : (0x100000001b3 : UInt64) * 0xce965057aff6957b = 1 := by decide
  have hbasis : Control.fnv1a64Offset ≠ 0xcbf29ce484222325 := by decide
  rw [Control.fnv1a64Domain, if_neg hlen, fnv1a64Bytes_eq]
  intro heq
  exact hbasis (Fnv.fnv1a_injective hinverse _ heq)

/-- `t.example.com`. -/
def exampleName : CStr :=
  CStr.ofBytes [116, 46, 101, 120, 97, 109, 112, 108, 101, 46, 99, 111, 109]

theorem fnv1a64Domain_ne_published_sample :
    Control.normalizeDomain exampleName ≠ [] ∧
      Control.fnv1a64Domain exampleName ≠ Fnv.fnv1a64 (Control.normalizeDomain exampleName) := by
  have hne : Control.normalizeDomain exampleName ≠ [] := by decide
  exact ⟨hne, fnv1a64Domain_ne_published exampleName hne⟩

/-- What `zerehctl hash t.example.com` prints, and the FNV-1a hash of the same bytes. -/
theorem exampleName_hash :
    Control.normalizeDomain exampleName = exampleName.bytes ∧
      Control.fnv1a64Domain exampleName = 0x2e995603c2e9f8d2 ∧
      Fnv.fnv1a64 (Control.normalizeDomain exampleName) = 0x9431523e0d00e710 ∧
      Control.fnv1a64Domain exampleName ≠ Fnv.fnv1a64 (Control.normalizeDomain exampleName) := by
  decide +kernel

end Zereh.Link
