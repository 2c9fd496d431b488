/-
  `xdp/dns_parser.h`: the frame headers and the first DNS question.

  A frame is the byte list `[data, data_end)`; a pointer into it is its offset, and every read
  goes through `readAt`. `qname` holds the `qname_len` bytes written so far, so `qname_len` is
  its length; a write past the 256 bytes of the array is a fault. A C return of -1 is `none`.
-/
import Zereh.Lib.Bytes
import Zereh.Lib.Checked

namespace Zereh.Xdp

open Lib

def dnsMaxLabels : Nat := 32
def dnsMaxLabelLen : Nat := 63
def dnsMaxQname : Nat := 255

/-- `struct dns_query_meta`. -/
structure DnsQueryMeta where
  qnameHash : UInt64
  dnsId : UInt16
  qtype : UInt16
  qclass : UInt16
  opcode : UInt8
  isTruncated : Bool
  labelDepth : UInt8
  qname : List UInt8
  deriving DecidableEq

/-- `qname_len`. -/
def DnsQueryMeta.qnameLen (m : DnsQueryMeta) : Nat := m.qname.length

/-- `zereh_ascii_tolower`. -/
def asciiTolower (c : UInt8) : UInt8 :=
  if c ≥ 65 ∧ c ≤ 90 then c + (97 - 65) else c

/-- `zereh_fnv1a64_step`. -/
def fnv1a64Step (hash : UInt64) (c : UInt8) : UInt64 :=
  (hash ^^^ c.toUInt64) * 1099511628211

/-- A `__be16` field by value. -/
def readBe16 (pkt : List UInt8) (off : Nat) : Checked UInt16 := do
  let hi ← readAt pkt off
  let lo ← readAt pkt (off + 1)
  .ok (be16 hi lo)

/-- Where the IPv4 and the UDP header start. The Ethernet header is at 0. -/
structure Headers where
  iph : Nat
  udp : Nat
  deriving DecidableEq

/-- `zereh_parse_eth_ipv4_udp`. -/
def parseEthIpv4Udp (pkt : List UInt8) : Checked (Option Headers) :=
  if 14 > pkt.length then .ok none
  else do
    let proto ← readBe16 pkt 12
    if proto ≠ 0x0800 then .ok none
    else if 14 + 20 > pkt.length then .ok none
    else do
      let ihl := (← readAt pkt 14) &&& 0x0f
      if ihl < 5 then .ok none
      else do
        let protocol ← readAt pkt (14 + 9)
        if protocol ≠ 17 then .ok none
        else
          let ihlBytes := ihl.toNat * 4
          if 14 + ihlBytes > pkt.length then .ok none
          else if 14 + ihlBytes + 8 > pkt.length then .ok none
          else .ok (some ⟨14, 14 + ihlBytes⟩)

/-- `meta->qname[meta->qname_len++] = c` and the hash step after it. -/
def DnsQueryMeta.push (m : DnsQueryMeta) (c : UInt8) : Checked DnsQueryMeta :=
  if m.qnameLen < dnsMaxQname + 1 then
    .ok { m with qname := m.qname ++ [c], qnameHash := fnv1a64Step m.qnameHash c }
  else .error (.write m.qnameLen)

/-- The bytes of one label: `for (j = 0; j < ZEREH_DNS_MAX_LABEL_LEN; j++)`. The first
    argument after the label is the number of iterations left. -/
def byteLoop (pkt : List UInt8) (cursor lblLen : Nat) :
    Nat → Nat → DnsQueryMeta → Checked (Option DnsQueryMeta)
  | 0, _, m => .ok (some m)
  | n + 1, j, m =>
      if j ≥ lblLen then .ok (some m)
      else do
        let c := asciiTolower (← readAt pkt (cursor + j))
        if m.qnameLen ≥ dnsMaxQname then .ok none
        else do
          let m ← m.push c
          byteLoop pkt cursor lblLen n (j + 1) m

/-- The separating dot before every label but the first. -/
def separator (m : DnsQueryMeta) : Checked (Option DnsQueryMeta) :=
  if m.labelDepth > 0 then
    if m.qnameLen ≥ dnsMaxQname then .ok none
    else do
      let m ← m.push 46
      .ok (some m)
  else .ok (some m)

/-- The end of an iteration of the label loop: the dot, the bytes, `meta->label_depth++`. -/
def appendLabel (pkt : List UInt8) (cursor lblLen : Nat) (m : DnsQueryMeta) :
    Checked (Option DnsQueryMeta) := do
  match ← separator m with
  | none => .ok none
  | some m =>
    match ← byteLoop pkt cursor lblLen dnsMaxLabelLen 0 m with
    | none => .ok none
    | some m => .ok (some { m with labelDepth := m.labelDepth + 1 })

/-- The label loop. It ends with `ended`, the cursor and the name so far. -/
def labelLoop (pkt : List UInt8) (dnsEnd : Nat) :
    Nat → Nat → DnsQueryMeta → Checked (Option (Bool × Nat × DnsQueryMeta))
  | 0, cursor, m => .ok (some (false, cursor, m))
  | n + 1, cursor, m =>
      if cursor + 1 > dnsEnd then .ok none
      else do
        let lblLen ← readAt pkt cursor
        if lblLen = 0 then .ok (some (true, cursor + 1, m))
        else if lblLen &&& 0xc0 ≠ 0 ∨ lblLen.toNat > dnsMaxLabelLen then .ok none
        else if cursor + 1 + lblLen.toNat > dnsEnd then .ok none
        else do
          match ← appendLabel pkt (cursor + 1) lblLen.toNat m with
          | none => .ok none
          | some m => labelLoop pkt dnsEnd n (cursor + 1 + lblLen.toNat) m

/-- `zereh_parse_dns_query` after the label loop: type, class and the terminating NUL. -/
def finishQuery (pkt : List UInt8) (dnsEnd : Nat) :
    Option (Bool × Nat × DnsQueryMeta) → Checked (Option DnsQueryMeta)
  | none => .ok none
  | some (ended, cursor, m) =>
      if !ended || m.qnameLen = 0 then .ok none
      else if cursor + 4 > dnsEnd then .ok none
      else do
        let qtype ← readBe16 pkt cursor
        let qclass ← readBe16 pkt (cursor + 2)
        -- `meta->qname[meta->qname_len] = '\0'`
        if m.qnameLen < dnsMaxQname + 1 then
          .ok (some { m with qtype := qtype, qclass := qclass })
        else .error (.write m.qnameLen)

/-- `zereh_parse_dns_query` on the UDP header at `udp`. -/
def parseDnsQuery (pkt : List UInt8) (udp : Nat) : Checked (Option DnsQueryMeta) :=
  let dns := udp + 8
  if dns + 12 > pkt.length then .ok none
  else do
    let dnsEnd := udp + (← readBe16 pkt (udp + 4)).toNat
    if dnsEnd > pkt.length then .ok none
    else if dnsEnd < dns + 12 + 5 then .ok none
    else do
      let flags ← readBe16 pkt (dns + 2)
      if flags &&& 0x8000 ≠ 0 then .ok none
      else do
        let qdcount ← readBe16 pkt (dns + 4)
        if qdcount = 0 then .ok none
        else do
          let dnsId ← readBe16 pkt dns
          let m : DnsQueryMeta :=
            { qnameHash := 1469598103934665603
              dnsId := dnsId
              qtype := 0
              qclass := 0
              opcode := ((flags >>> 11) &&& 0x0f).toUInt8
              isTruncated := flags &&& 0x0200 ≠ 0
              labelDepth := 0
              qname := [] }
          finishQuery pkt dnsEnd (← labelLoop pkt dnsEnd dnsMaxLabels (dns + 12) m)

end Zereh.Xdp
