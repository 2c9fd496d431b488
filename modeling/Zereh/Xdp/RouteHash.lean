/-
  The route hash of `xdp/xdp_template.c`: SipHash-2-4 over the parsed name, with the loop
  limits that the BPF verifier wants (31 blocks, 7 tail bytes), or the FNV-1a value that the
  parser left in `qname_hash`.
-/
import Zereh.Control.Hash
import Zereh.Xdp.DnsParser

namespace Zereh.Xdp

open Lib
open Zereh.Control (SipState)

def siphashK0 : UInt64 := 0x0706050403020100
def siphashK1 : UInt64 := 0x0f0e0d0c0b0a0908

def rotl64 (x : UInt64) (b : UInt64) : UInt64 := (x <<< b) ||| (x >>> (64 - b))

/-- `zereh_sipround`. -/
def sipround (s : SipState) : SipState :=
  let v0 := s.v0 + s.v1
  let v1 := rotl64 s.v1 13
  let v1 := v1 ^^^ v0
  let v0 := rotl64 v0 32
  let v2 := s.v2 + s.v3
  let v3 := rotl64 s.v3 16
  let v3 := v3 ^^^ v2
  let v0 := v0 + v3
  let v3 := rotl64 v3 21
  let v3 := v3 ^^^ v0
  let v2 := v2 + v1
  let v1 := rotl64 v1 17
  let v1 := v1 ^^^ v2
  let v2 := rotl64 v2 32
  ⟨v0, v1, v2, v3⟩

/-- `for (j = 0; j < 8; j++) m |= qname[off + j] << (8 * j)`; the first number is the
    iterations left. -/
def wordLoop (qname : List UInt8) (off : Nat) : Nat → Nat → UInt64 → Checked UInt64
  | 0, _, m => .ok m
  | n + 1, j, m => do
      let c ← readAt qname (off + j)
      wordLoop qname off n (j + 1) (m ||| c.toUInt64 <<< (8 * UInt64.ofNat j))

/-- `v3 ^= m`, two rounds, `v0 ^= m`. -/
def compress (s : SipState) (m : UInt64) : SipState :=
  let s := sipround (sipround { s with v3 := s.v3 ^^^ m })
  { s with v0 := s.v0 ^^^ m }

/-- `for (blk = 0; blk < 31; blk++)`. -/
def blockLoop (qname : List UInt8) (qnameLen : Nat) : Nat → Nat → SipState → Checked SipState
  | 0, _, s => .ok s
  | n + 1, blk, s =>
      let off := blk * 8
      if off + 8 > qnameLen then .ok s
      else do
        let m ← wordLoop qname off 8 0 0
        blockLoop qname qnameLen n (blk + 1) (compress s m)

/-- `for (i = 0; i < 7; i++)`. -/
def tailLoop (qname : List UInt8) (qnameLen off : Nat) : Nat → Nat → UInt64 → Checked UInt64
  | 0, _, b => .ok b
  | n + 1, i, b =>
      if off + i ≥ qnameLen then .ok b
      else do
        let c ← readAt qname (off + i)
        tailLoop qname qnameLen off n (i + 1) (b ||| c.toUInt64 <<< (8 * UInt64.ofNat i))

/-- The lanes before the first block. -/
def sipInit : SipState where
  v0 := 0x736f6d6570736575 ^^^ siphashK0
  v1 := 0x646f72616e646f6d ^^^ siphashK1
  v2 := 0x6c7967656e657261 ^^^ siphashK0
  v3 := 0x7465646279746573 ^^^ siphashK1

/-- The last word, then `v2 ^= 0xff` and four rounds. -/
def sipFinish (s : SipState) (b : UInt64) : UInt64 :=
  let s := compress s b
  let s := sipround (sipround (sipround (sipround { s with v2 := s.v2 ^^^ 0xff })))
  s.v0 ^^^ s.v1 ^^^ s.v2 ^^^ s.v3

/-- `zereh_siphash24_qname`. -/
def siphash24Qname (qname : List UInt8) (qnameLen : Nat) : Checked UInt64 := do
  let b := UInt64.ofNat qnameLen <<< 56
  let s ← blockLoop qname qnameLen 31 0 sipInit
  let off := qnameLen / 8 * 8
  let b ← tailLoop qname qnameLen off 7 0 b
  .ok (sipFinish s b)

/-- `zereh_route_hash` in a program compiled for `algo`. -/
def routeHash (algo : HashAlgorithm) (qmeta : DnsQueryMeta) : Checked UInt64 :=
  match algo with
  | .siphash => siphash24Qname qmeta.qname qmeta.qnameLen
  | .fnv1a => .ok qmeta.qnameHash

end Zereh.Xdp
