/-
  `control/hash.c`: the route hash as the control plane computes it.

  `normalizeDomain` lowercases and drops one trailing dot; its output buffer holds
  `ZEREH_MAX_DOMAIN_LEN` bytes and the terminator. `fnv1a64Bytes` and `siphash24Bytes` hash
  the normalized bytes; an empty name hashes to 0.
-/
import Zereh.Control.Config

namespace Zereh.Control

open Lib

def fnv1a64Offset : UInt64 := 1469598103934665603
def fnv1a64Prime : UInt64 := 1099511628211
def siphashK0 : UInt64 := 0x0706050403020100
def siphashK1 : UInt64 := 0x0f0e0d0c0b0a0908

/-- The loop of `zereh_normalize_domain`; `n` is the room left in the output. -/
def normalizeLoop : Nat → List UInt8 → List UInt8
  | 0, _ => []
  | _ + 1, [] => []
  | n + 1, c :: rest =>
      if c = 46 ∧ rest = [] then [] else tolower c :: normalizeLoop n rest

/-- `zereh_normalize_domain` into a buffer of `ZEREH_MAX_DOMAIN_LEN + 1` bytes. -/
def normalizeDomain (domain : CStr) : List UInt8 := normalizeLoop maxDomainLen domain.bytes

/-- `zereh_fnv1a64_bytes`. -/
def fnv1a64Bytes (data : List UInt8) : UInt64 :=
  data.foldl (fun hash c => (hash ^^^ c.toUInt64) * fnv1a64Prime) fnv1a64Offset

/-- The four lanes `v0 .. v3`. -/
structure SipState where
  v0 : UInt64
  v1 : UInt64
  v2 : UInt64
  v3 : UInt64
  deriving DecidableEq

def rotl64 (x : UInt64) (b : UInt64) : UInt64 := (x <<< b) ||| (x >>> (64 - b))

/-- `zereh_sipround`. -/
def sipround (s : SipState) : SipState :=
  let v0 := s.v0 + s.v1
  let v1 := rotl64 s.v1 13
  let v1 := v1 ^^^ v0
  let v0 := rotl64 v0 32
  let v2 := s.v2 + s.v3
  let v3 := rotl64 s.v3 16
  let v3 := v3 ^^^ v2
  let v0 := v0 + v3
  let v3 := rotl64 v3 21
  let v3 := v3 ^^^ v0
  let v2 := v2 + v1
  let v1 := rotl64 v1 17
  let v1 := v1 ^^^ v2
  let v2 := rotl64 v2 32
  ⟨v0, v1, v2, v3⟩

/-- Byte `i` of the data, shifted to byte `j` of a word. -/
def byteWord (data : List UInt8) (i j : Nat) : UInt64 :=
  (data.getD i 0).toUInt64 <<< (8 * UInt64.ofNat j)

/-- The message word at `off`. -/
def messageWord (data : List UInt8) (off : Nat) : UInt64 :=
  byteWord data off 0 ||| byteWord data (off + 1) 1 ||| byteWord data (off + 2) 2 |||
    byteWord data (off + 3) 3 ||| byteWord data (off + 4) 4 ||| byteWord data (off + 5) 5 |||
    byteWord data (off + 6) 6 ||| byteWord data (off + 7) 7

/-- One block: `v3 ^= m`, two rounds, `v0 ^= m`. -/
def compress (s : SipState) (m : UInt64) : SipState :=
  let s := sipround (sipround { s with v3 := s.v3 ^^^ m })
  { s with v0 := s.v0 ^^^ m }

/-- The lanes before the first block. -/
def sipInit : SipState where
  v0 := 0x736f6d6570736575 ^^^ siphashK0
  v1 := 0x646f72616e646f6d ^^^ siphashK1
  v2 := 0x6c7967656e657261 ^^^ siphashK0
  v3 := 0x7465646279746573 ^^^ siphashK1

/-- `while (off + 8 <= len)`, at most `n` times. -/
def blockLoop (data : List UInt8) : Nat → Nat → SipState → Nat × SipState
  | 0, off, s => (off, s)
  | n + 1, off, s =>
      if off + 8 ≤ data.length then
        blockLoop data n (off + 8) (compress s (messageWord data off))
      else (off, s)

/-- `for (i = 0; i < len - off; i++) b |= data[off + i] << (8 * i)`. -/
def tailLoop (data : List UInt8) (off : Nat) : Nat → Nat → UInt64 → UInt64
  | 0, _, b => b
  | n + 1, i, b => tailLoop data off n (i + 1) (b ||| byteWord data (off + i) i)

/-- The end of SipHash: the last word, then `v2 ^= 0xff` and four rounds. -/
def sipFinish (s : SipState) (b : UInt64) : UInt64 :=
  let s := compress s b
  let s := sipround (sipround (sipround (sipround { s with v2 := s.v2 ^^^ 0xff })))
  s.v0 ^^^ s.v1 ^^^ s.v2 ^^^ s.v3

/-- `zereh_siphash24_bytes`. The block loop runs at most `len` times. -/
def siphash24Bytes (data : List UInt8) : UInt64 :=
  let b := UInt64.ofNat data.length <<< 56
  let (off, s) := blockLoop data data.length 0 sipInit
  sipFinish s (tailLoop data off (data.length - off) 0 b)

/-- `zereh_fnv1a64_domain`. -/
def fnv1a64Domain (domain : CStr) : UInt64 :=
  if (normalizeDomain domain).length = 0 then 0 else fnv1a64Bytes (normalizeDomain domain)

/-- `zereh_siphash24_domain`. -/
def siphash24Domain (domain : CStr) : UInt64 :=
  if (normalizeDomain domain).length = 0 then 0 else siphash24Bytes (normalizeDomain domain)

/-- `zereh_hash_domain`. -/
def hashDomain (domain : CStr) : HashAlgorithm → UInt64
  | .siphash => siphash24Domain domain
  | .fnv1a => fnv1a64Domain domain

end Zereh.Control
