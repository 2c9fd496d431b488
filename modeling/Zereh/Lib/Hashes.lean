/-
  FNV-1a and SipHash as they are published.

  `Fnv.fnv1a64` is FNV-1a for 64 bits with its offset basis and its prime. A step is a bijection of
  the state, so that two different bases never give the same hash (`Fnv.fnv1a_injective`).

  `SipHash.hash c d` is SipHash with `c` rounds for each message word and `d` rounds at the end. It
  is written over `BitVec 64` and rotations: `sipRound` is the network of the definition, with its
  two columns side by side, `padded` fills the last word with zeros up to the byte that holds the
  length, and a word is the number of its eight bytes in base 256, lowest first.
-/
import Mathlib.Data.Nat.Digits.Defs
import Zereh.Lib.Words

namespace Lib

/-! ## FNV-1a -/

namespace Fnv

/-- FNV-1a on 64-bit words: xor the octet in, multiply by the prime. -/
def fnv1a (prime basis : UInt64) (data : List UInt8) : UInt64 :=
  data.foldl (fun hash octet => (hash ^^^ octet.toUInt64) * prime) basis

/-- FNV-1a for 64 bits. -/
def fnv1a64 (data : List UInt8) : UInt64 := fnv1a 0x100000001b3 0xcbf29ce484222325 data

example : fnv1a64 [] = 0xcbf29ce484222325 ∧ fnv1a64 [97] = 0xaf63dc4c8601ec8c ∧
    fnv1a64 [102, 111, 111, 98, 97, 114] = 0x85944171f73967e8 := by decide +kernel

/-- No step loses information about the basis. -/
theorem fnv1a_injective {prime inverse : UInt64} (h : prime * inverse = 1) (data : List UInt8) :
    Function.Injective fun basis => fnv1a prime basis data := by
  induction data with
  | nil => exact Function.injective_id
  | cons c data ih =>
    have hstep : Function.Injective fun basis : UInt64 => (basis ^^^ c.toUInt64) * prime :=
      (mul_bijective h).injective.comp (xor_bijective c.toUInt64).injective
    exact ih.comp hstep

end Fnv

/-! ## SipHash -/

namespace SipHash

/-- The four lanes of the state. -/
structure Lanes where
  v0 : BitVec 64
  v1 : BitVec 64
  v2 : BitVec 64
  v3 : BitVec 64
  deriving DecidableEq

/-- The SipRound network. -/
def sipRound (v : Lanes) : Lanes :=
  let a0 := v.v0 + v.v1
  let a2 := v.v2 + v.v3
  let a1 := v.v1.rotateLeft 13 ^^^ a0
  let a3 := v.v3.rotateLeft 16 ^^^ a2
  let a0 := a0.rotateLeft 32
  let b2 := a2 + a1
  let b0 := a0 + a3
  let b1 := a1.rotateLeft 17 ^^^ b2
  let b3 := a3.rotateLeft 21 ^^^ b0
  let b2 := b2.rotateLeft 32
  ⟨b0, b1, b2, b3⟩

/-- A word from its bytes, the lowest first. -/
def word (bytes : List UInt8) : BitVec 64 :=
  BitVec.ofNat 64 (Nat.ofDigits 256 (bytes.map UInt8.toNat))

/-- The state under a key of 16 bytes. -/
def initial (key : List UInt8) : Lanes where
  v0 := word (key.take 8) ^^^ 0x736f6d6570736575#64
  v1 := word (key.drop 8) ^^^ 0x646f72616e646f6d#64
  v2 := word (key.take 8) ^^^ 0x6c7967656e657261#64
  v3 := word (key.drop 8) ^^^ 0x7465646279746573#64

/-- Null bytes up to the last byte of a word, which is the length modulo 256. -/
def padded (message : List UInt8) : List UInt8 :=
  message ++ (List.replicate (7 - message.length % 8) 0 ++ [UInt8.ofNat (message.length % 256)])

/-- The first `n` words. -/
def words : Nat → List UInt8 → List (BitVec 64)
  | 0, _ => []
  | n + 1, bytes => word (bytes.take 8) :: words n (bytes.drop 8)

/-- One message word in `c` rounds. -/
def absorb (c : Nat) (v : Lanes) (m : BitVec 64) : Lanes :=
  let v := sipRound^[c] { v with v3 := v.v3 ^^^ m }
  { v with v0 := v.v0 ^^^ m }

/-- The last `d` rounds. -/
def finish (d : Nat) (v : Lanes) : BitVec 64 :=
  let v := sipRound^[d] { v with v2 := v.v2 ^^^ 0xff#64 }
  v.v0 ^^^ v.v1 ^^^ v.v2 ^^^ v.v3

/-- SipHash-c-d. -/
def hash (c d : Nat) (key message : List UInt8) : BitVec 64 :=
  finish d ((words ((padded message).length / 8) (padded message)).foldl (absorb c) (initial key))

/-- The key 00 01 .. 0f of 16 bytes. -/
def countingKey : List UInt8 := (List.range 16).map UInt8.ofNat

/-- The published test value: the message 00 01 .. 0e. -/
example : hash 2 4 countingKey ((List.range 15).map UInt8.ofNat) = 0xa129ca6149be45e5#64 := by
  decide +kernel

theorem ofDigits_lt (bytes : List UInt8) :
    Nat.ofDigits 256 (bytes.map UInt8.toNat) < 256 ^ bytes.length := by
  have hdigit : ∀ d ∈ bytes.map UInt8.toNat, d < 256 := by
    intro d hd
    obtain ⟨b, -, rfl⟩ := List.mem_map.mp hd
    exact b.toNat_lt
  have hlt := Nat.ofDigits_lt_base_pow_length (by decide) hdigit
  rwa [List.length_map] at hlt

theorem toNat_word {bytes : List UInt8} (h : bytes.length ≤ 8) :
    (word bytes).toNat = Nat.ofDigits 256 (bytes.map UInt8.toNat) := by
  have hlt := ofDigits_lt bytes
  have hle : 256 ^ bytes.length ≤ 256 ^ 8 := Nat.pow_le_pow_right (by decide) h
  rw [word, BitVec.toNat_ofNat, Nat.mod_eq_of_lt (by omega)]

/-- The last word: what is left of the message, and the length in the top byte. -/
theorem toNat_lastWord {rest : List UInt8} (h : rest.length ≤ 7) (len : UInt8) :
    (word (rest ++ (List.replicate (7 - rest.length) 0 ++ [len]))).toNat =
      2 ^ 56 * len.toNat + Nat.ofDigits 256 (rest.map UInt8.toNat) := by
  have hpow : 256 ^ rest.length * 256 ^ (7 - rest.length) = 2 ^ 56 := by
    rw [← Nat.pow_add, Nat.add_sub_cancel' h]
    rfl
  have hlen : (rest ++ (List.replicate (7 - rest.length) 0 ++ [len])).length ≤ 8 := by
    simp only [List.length_append, List.length_replicate, List.length_singleton]
    omega
  rw [toNat_word hlen]
  simp only [List.map_append, List.map_replicate, List.map_singleton, Nat.ofDigits_append,
    List.length_map, List.length_replicate, Nat.ofDigits_singleton, UInt8.toNat_zero,
    Nat.ofDigits_replicate_zero, Nat.zero_add]
  rw [← Nat.mul_assoc, hpow, Nat.add_comm]

theorem length_padded (message : List UInt8) :
    (padded message).length = 8 * (message.length / 8 + 1) := by
  simp only [padded, List.length_append, List.length_replicate, List.length_singleton]
  omega

end SipHash

end Lib
