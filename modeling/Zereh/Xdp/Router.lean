/-
  `xdp/xdp_template.c` from `zereh_global_pre_route` on: the program around the generated
  `zereh_dispatch`.

  * A 16- or 32-bit field is loaded and stored as the little-endian machine does it, byte by
    byte through `readAt` and `writeAt`; a `__be16` is that raw value and `bpf_htons` swaps it.
    Addresses only enter the LPM lookup, by their value in network order.
  * The helpers: `bpf_redirect_map` returns XDP_REDIRECT and records the slot when a socket is
    bound there, else XDP_ABORTED (flags 0); `bpf_tail_call` leaves the program when the slot of
    `prog_array` holds one, else it returns. Both maps have 64 entries.
  * `xdpRouter` takes the dispatch as a parameter, since the generator writes its text.
-/
import Zereh.Lib.CExec
import Zereh.Xdp.Filters
import Zereh.Xdp.RouteHash

namespace Zereh.Xdp

open Lib CText

/-- The macros the generator fills in. -/
structure Macros where
  maxPacketSize : UInt32
  allowedOpcodeMask : UInt32
  dropTruncated : Bool
  defaultAction : DefaultAction
  hashAlgo : HashAlgorithm
  rateStateEntries : UInt32

/-- `enum xdp_action`, without the codes this program never returns. -/
inductive Action where
  | aborted
  | drop
  | pass
  | redirect
  deriving DecidableEq, Repr

/-- The frame, the maps and the slot that a redirect goes to. -/
structure XdpState where
  pkt : List UInt8
  maps : Maps
  redirectTo : Option Nat

/-- The action returned, or the program a tail call went to, and the state. -/
abbrev Outcome := Checked (Out Nat Action × XdpState)

def XdpState.finish (st : XdpState) (a : Action) : Outcome := .ok (.val a, st)

/-! ## Loads and stores -/

def readLe16 (pkt : List UInt8) (off : Nat) : Checked UInt16 := do
  let lo ← readAt pkt off
  let hi ← readAt pkt (off + 1)
  .ok (be16 hi lo)

def readLe32 (pkt : List UInt8) (off : Nat) : Checked UInt32 := do
  let a ← readAt pkt off
  let b ← readAt pkt (off + 1)
  let c ← readAt pkt (off + 2)
  let d ← readAt pkt (off + 3)
  .ok (be32 d c b a)

def writeLe16 (pkt : List UInt8) (off : Nat) (v : UInt16) : Checked (List UInt8) := do
  let pkt ← writeAt pkt off v.toUInt8
  writeAt pkt (off + 1) (v >>> 8).toUInt8

def writeLe32 (pkt : List UInt8) (off : Nat) (v : UInt32) : Checked (List UInt8) := do
  let pkt ← writeAt pkt off v.toUInt8
  let pkt ← writeAt pkt (off + 1) (v >>> 8).toUInt8
  let pkt ← writeAt pkt (off + 2) (v >>> 16).toUInt8
  writeAt pkt (off + 3) (v >>> 24).toUInt8

/-- `bpf_htons` on a little-endian machine. -/
def bpfHtons (v : UInt16) : UInt16 := (v <<< 8) ||| (v >>> 8)

/-! ## Filters before routing -/

/-- An LPM entry matches an address when the first `prefixlen` bits agree. -/
def LpmV4Key.matches (entry : LpmV4Key) (addr : UInt32) : Bool :=
  entry.addr.toNat / 2 ^ (32 - entry.prefixlen.toNat) = addr.toNat / 2 ^ (32 - entry.prefixlen.toNat)

/-- `bpf_map_lookup_elem (&ip_blacklist, &key)` with a 32-bit key. -/
def lpmLookup (trie : List LpmV4Key) (addr : UInt32) : Bool := trie.any (·.matches addr)

/-- The source address of an IPv4 header, in network order. -/
def readSaddr (pkt : List UInt8) (iph : Nat) : Checked UInt32 := do
  let a ← readAt pkt (iph + 12)
  let b ← readAt pkt (iph + 13)
  let c ← readAt pkt (iph + 14)
  let d ← readAt pkt (iph + 15)
  .ok (be32 a b c d)

/-- `zereh_global_pre_route`: 0 or -1. -/
def globalPreRoute (macros : Macros) (maps : Maps) (pkt : List UInt8) (iph : Nat)
    (qmeta : DnsQueryMeta) (packetLen : UInt32) : Checked Int := do
  let saddr ← readSaddr pkt iph
  if packetLen > macros.maxPacketSize then .ok (-1)
  else if lpmLookup maps.ipBlacklist saddr then .ok (-1)
  else if qmeta.opcode > 15 then .ok (-1)
  else do
    let bit ← shlAt 1 qmeta.opcode.toNat
    if macros.allowedOpcodeMask &&& bit = 0 then .ok (-1)
    else if macros.dropTruncated ∧ qmeta.isTruncated then .ok (-1)
    else .ok 0

/-! ## Targets -/

/-- `zereh_csum_replace_u16`. -/
def csumReplaceU16 (check oldv newv : UInt16) : UInt16 :=
  let low : UInt32 := 0xffff
  let csum := ~~~check.toUInt32 &&& low
  let csum := csum + (~~~oldv.toUInt32 &&& low)
  let csum := csum + newv.toUInt32
  let csum := (csum &&& low) + (csum >>> 16)
  let csum := (csum &&& low) + (csum >>> 16)
  (~~~csum).toUInt16

/-- `zereh_csum_replace_u32`. -/
def csumReplaceU32 (check : UInt16) (oldv newv : UInt32) : UInt16 :=
  let check := csumReplaceU16 check (oldv >>> 16).toUInt16 (newv >>> 16).toUInt16
  csumReplaceU16 check (oldv &&& 0xffff).toUInt16 (newv &&& 0xffff).toUInt16

/-- `if (udp->check)`, the update of the UDP checksum by `f`. -/
def updateUdpCheck (pkt : List UInt8) (udp : Nat) (f : UInt16 → UInt16) :
    Checked (List UInt8) := do
  let check ← readLe16 pkt (udp + 6)
  if check ≠ 0 then writeLe16 pkt (udp + 6) (f check) else .ok pkt

/-- The address half of `zereh_route_kernel_space`. -/
def rewriteDaddr (pkt : List UInt8) (h : Headers) (newDaddr : UInt32) : Checked (List UInt8) :=
  if newDaddr = 0 then .ok pkt
  else do
    let daddr ← readLe32 pkt (h.iph + 16)
    if daddr = newDaddr then .ok pkt
    else do
      let check ← readLe16 pkt (h.iph + 10)
      let pkt ← writeLe16 pkt (h.iph + 10) (csumReplaceU32 check daddr newDaddr)
      let pkt ← updateUdpCheck pkt h.udp fun check => csumReplaceU32 check daddr newDaddr
      writeLe32 pkt (h.iph + 16) newDaddr

/-- The port half of `zereh_route_kernel_space`. -/
def rewriteDport (pkt : List UInt8) (h : Headers) (newDport : UInt16) : Checked (List UInt8) := do
  let dest ← readLe16 pkt (h.udp + 2)
  if dest = newDport then .ok pkt
  else do
    let pkt ← updateUdpCheck pkt h.udp fun check => csumReplaceU16 check dest newDport
    writeLe16 pkt (h.udp + 2) newDport

/-- `zereh_route_kernel_space`. -/
def routeKernelSpace (h : Headers) (newDport : UInt16) (newDaddr : UInt32) (st : XdpState) :
    Outcome := do
  let pkt ← rewriteDaddr st.pkt h newDaddr
  let pkt ← rewriteDport pkt h newDport
  XdpState.finish { st with pkt := pkt } .pass

def xskMapEntries : Nat := 64
def progArrayEntries : Nat := 64

/-- `bpf_redirect_map (&xsk_map, key, 0)`. -/
def bpfRedirectMap (key : Nat) (st : XdpState) : Outcome :=
  if key < xskMapEntries ∧ st.maps.xskMap key then
    XdpState.finish { st with redirectTo := some key } .redirect
  else st.finish .aborted

/-- `bpf_tail_call (ctx, &prog_array, index)` followed by `rest`. -/
def bpfTailCall (index : Nat) (st : XdpState) (rest : XdpState → Outcome) : Outcome :=
  match if index < progArrayEntries then st.maps.progArray index else none with
  | some prog => .ok (.leave prog, st)
  | none => rest st

/-! ## The program -/

/-- `xdp_router`. -/
def xdpRouter (macros : Macros) (dispatch : Headers → DnsQueryMeta → XdpState → Outcome)
    (st : XdpState) : Outcome := do
  match ← parseEthIpv4Udp st.pkt with
  | none => st.finish .pass
  | some h =>
    let dest ← readLe16 st.pkt (h.udp + 2)
    if dest ≠ bpfHtons 53 then st.finish .pass
    else
      match ← parseDnsQuery st.pkt h.udp with
      | none => st.finish .pass
      | some qmeta =>
        let packetLen := UInt32.ofNat st.pkt.length
        let verdict ← globalPreRoute macros st.maps st.pkt h.iph qmeta packetLen
        if verdict ≠ 0 then st.finish .drop else dispatch h qmeta st

end Zereh.Xdp
