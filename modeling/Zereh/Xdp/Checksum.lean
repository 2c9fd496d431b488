/-
  `zereh_route_kernel_space` and the checksums of the packet it rewrites.

  * A field is loaded in the byte order of the machine, the checksums are sums of words in network
    order; the two values of a field differ by the factor 256 modulo 65535 (`swap16_mod`).
  * `csumReplaceU16` is the update of RFC 1624: modulo 65535 the new checksum and the new word sum
    to the old checksum and the old word (`csumReplaceU16_mod`). Two folds always suffice.
  * Each half of the rewrite is a few stores (`setLe16`); a store changes a covered sum by the word
    it replaces. `routeKernelSpace_checksums` is the whole function.
-/
import Zereh.Lib.OnesComplement
import Zereh.Xdp.Safety

namespace Zereh.Xdp

open Lib CText

/-! ## Fields of the packet -/

/-- The 16-bit field at `off` as the machine loads it. -/
def le16At (pkt : List UInt8) (off : Nat) : UInt16 := be16 (byteAt pkt (off + 1)) (byteAt pkt off)

def le32At (pkt : List UInt8) (off : Nat) : UInt32 :=
  be32 (byteAt pkt (off + 3)) (byteAt pkt (off + 2)) (byteAt pkt (off + 1)) (byteAt pkt off)

/-- The packet after a store. -/
def setLe16 (pkt : List UInt8) (off : Nat) (v : UInt16) : List UInt8 :=
  (pkt.set off v.toUInt8).set (off + 1) (v >>> 8).toUInt8

def setLe32 (pkt : List UInt8) (off : Nat) (v : UInt32) : List UInt8 :=
  setLe16 (setLe16 pkt off (v &&& 0xffff).toUInt16) (off + 2) (v >>> 16).toUInt16

@[simp] theorem length_setLe16 (pkt : List UInt8) (off : Nat) (v : UInt16) :
    (setLe16 pkt off v).length = pkt.length := by simp [setLe16]

@[simp] theorem length_setLe32 (pkt : List UInt8) (off : Nat) (v : UInt32) :
    (setLe32 pkt off v).length = pkt.length := by simp [setLe32]

section Field

variable {pkt : List UInt8} {off : Nat}

theorem readLe16_ok (h : off + 2 ≤ pkt.length) : readLe16 pkt off = .ok (le16At pkt off) := by
  unfold readLe16
  rw [readAt_ok (by omega), ok_bind, readAt_ok (by omega), ok_bind]
  rfl

theorem readLe32_ok (h : off + 4 ≤ pkt.length) : readLe32 pkt off = .ok (le32At pkt off) := by
  unfold readLe32
  rw [readAt_ok (by omega), ok_bind, readAt_ok (by omega), ok_bind, readAt_ok (by omega), ok_bind,
    readAt_ok (by omega), ok_bind]
  rfl

theorem writeLe16_ok (v : UInt16) (h : off + 2 ≤ pkt.length) :
    writeLe16 pkt off v = .ok (setLe16 pkt off v) := by
  unfold writeLe16
  rw [writeAt_ok _ (by omega), ok_bind, writeAt_ok _ (by simp only [List.length_set]; omega)]
  rfl

/-- The four bytes of a 32-bit word are those of its halves. -/
theorem toUInt8_halves (v : UInt32) :
    (v &&& 0xffff).toUInt16.toUInt8 = v.toUInt8 ∧
      ((v &&& 0xffff).toUInt16 >>> 8).toUInt8 = (v >>> 8).toUInt8 ∧
      (v >>> 16).toUInt16.toUInt8 = (v >>> 16).toUInt8 ∧
      ((v >>> 16).toUInt16 >>> 8).toUInt8 = (v >>> 24).toUInt8 := by
  have hv := v.toNat_lt
  have hand : v.toNat &&& 65535 = v.toNat % 65536 := Nat.and_two_pow_sub_one_eq_mod v.toNat 16
  simp only [← UInt8.toNat_inj, UInt16.toNat_toUInt8, UInt32.toNat_toUInt8, UInt32.toNat_toUInt16,
    UInt16.toNat_shiftRight, UInt32.toNat_shiftRight, UInt32.toNat_and, UInt32.reduceToNat,
    UInt16.reduceToNat, Nat.shiftRight_eq_div_pow, Nat.reduceMod, Nat.reducePow, hand]
  omega

theorem writeLe32_ok (v : UInt32) (h : off + 4 ≤ pkt.length) :
    writeLe32 pkt off v = .ok (setLe32 pkt off v) := by
  obtain ⟨h0, h1, h2, h3⟩ := toUInt8_halves v
  unfold writeLe32
  rw [writeAt_ok _ (by omega), ok_bind, writeAt_ok _ (by simp only [List.length_set]; omega),
    ok_bind, writeAt_ok _ (by simp only [List.length_set]; omega), ok_bind,
    writeAt_ok _ (by simp only [List.length_set]; omega)]
  simp only [setLe32, setLe16, h0, h1, h2, h3]

/-- The halves of a loaded 32-bit field are its 16-bit fields. -/
theorem le32At_halves (pkt : List UInt8) (off : Nat) :
    (le32At pkt off &&& 0xffff).toUInt16 = le16At pkt off ∧
      (le32At pkt off >>> 16).toUInt16 = le16At pkt (off + 2) := by
  have ha := (byteAt pkt off).toNat_lt
  have hb := (byteAt pkt (off + 1)).toNat_lt
  have hc := (byteAt pkt (off + 2)).toNat_lt
  have hd := (byteAt pkt (off + 3)).toNat_lt
  have hand : (le32At pkt off).toNat &&& 65535 = (le32At pkt off).toNat % 65536 :=
    Nat.and_two_pow_sub_one_eq_mod _ 16
  have hval : (le32At pkt off).toNat = 16777216 * (byteAt pkt (off + 3)).toNat +
      65536 * (byteAt pkt (off + 2)).toNat + 256 * (byteAt pkt (off + 1)).toNat +
      (byteAt pkt off).toNat := by
    rw [le32At, be32, UInt32.toNat_ofNat']
    omega
  have hnext : byteAt pkt (off + 2 + 1) = byteAt pkt (off + 3) := rfl
  simp only [← UInt16.toNat_inj, le16At, be16_toNat, UInt32.toNat_toUInt16, UInt32.toNat_and,
    UInt32.toNat_shiftRight, UInt32.reduceToNat, Nat.shiftRight_eq_div_pow, Nat.reduceMod,
    Nat.reducePow, hand, hnext]
  omega

variable {v : UInt16} {i : Nat}

theorem byteAt_setLe16_of_ne (h0 : i ≠ off) (h1 : i ≠ off + 1) :
    byteAt (setLe16 pkt off v) i = byteAt pkt i := by
  rw [setLe16, byteAt_set_of_ne h1, byteAt_set_of_ne h0]

theorem le16At_setLe16_of_ne (h : i + 2 ≤ off ∨ off + 2 ≤ i) :
    le16At (setLe16 pkt off v) i = le16At pkt i := by
  unfold le16At
  rw [byteAt_setLe16_of_ne (by omega) (by omega), byteAt_setLe16_of_ne (by omega) (by omega)]

theorem le16At_setLe16_self (h : off + 2 ≤ pkt.length) : le16At (setLe16 pkt off v) off = v := by
  have hv := v.toNat_lt
  rw [le16At, setLe16, byteAt_set_self (by rw [List.length_set]; omega),
    byteAt_set_of_ne (by omega), byteAt_set_self (by omega), ← UInt16.toNat_inj, be16_toNat]
  simp only [UInt16.toNat_toUInt8, UInt16.toNat_shiftRight, UInt16.reduceToNat,
    Nat.shiftRight_eq_div_pow, Nat.reduceMod, Nat.reducePow]
  omega

theorem slice_setLe16_of_outside {n : Nat} (h : off + 2 ≤ i ∨ i + n ≤ off) :
    slice (setLe16 pkt off v) i n = slice pkt i n := by
  rw [setLe16, slice_set_of_outside (by omega), slice_set_of_outside (by omega)]

end Field

/-! ## Words of a sum -/

/-- The word in network order that a loaded value stands for. -/
def swap16 (v : UInt16) : Nat := 256 * (v.toNat % 256) + v.toNat / 256

/-- Swapping the bytes is multiplication by 256. -/
theorem swap16_mod (v : UInt16) : swap16 v % 65535 = 256 * v.toNat % 65535 := by
  unfold swap16
  omega

theorem swap16_le16At (pkt : List UInt8) (off : Nat) :
    swap16 (le16At pkt off) = 256 * (byteAt pkt off).toNat + (byteAt pkt (off + 1)).toNat := by
  have ha := (byteAt pkt off).toNat_lt
  rw [swap16, le16At, be16_toNat]
  omega

/-- A store at an even offset of a covered slice replaces one word of its sum. -/
theorem wordSum_slice_setLe16 {pkt : List UInt8} {off i n : Nat} (v : UInt16) (hi : i ≤ off)
    (hoff : off + 2 ≤ i + n) (heven : (off - i) % 2 = 0) (hlen : i + n ≤ pkt.length) :
    wordSum (slice (setLe16 pkt off v) i n) + swap16 (le16At pkt off) =
      wordSum (slice pkt i n) + swap16 v := by
  have hbytes : 256 * v.toUInt8.toNat + (v >>> 8).toUInt8.toNat = swap16 v := by
    have hv := v.toNat_lt
    simp only [swap16, UInt16.toNat_toUInt8, UInt16.toNat_shiftRight, UInt16.reduceToNat,
      Nat.shiftRight_eq_div_pow, Nat.reduceMod, Nat.reducePow]
    omega
  have hnext : off + 1 - i = off - i + 1 := by omega
  have hset := wordSum_set (slice pkt i n) (off - i) v.toUInt8 (v >>> 8).toUInt8
    (by rw [length_slice hlen]; omega) heven
  rw [byteAt_slice (by omega), byteAt_slice (by omega), ← hnext, Nat.add_sub_cancel' hi,
    Nat.add_sub_cancel' (by omega : i ≤ off + 1), hbytes, ← swap16_le16At] at hset
  rw [setLe16, slice_set_of_inside (by omega), slice_set_of_inside hi]
  exact hset

/-- A word is at most the sum it is part of. -/
theorem swap16_le_wordSum (pkt : List UInt8) (off i n : Nat) (hi : i ≤ off)
    (hoff : off + 2 ≤ i + n) (heven : (off - i) % 2 = 0) (hlen : i + n ≤ pkt.length) :
    swap16 (le16At pkt off) ≤ wordSum (slice pkt i n) := by
  have hset := wordSum_slice_setLe16 0 hi hoff heven hlen
  have hzero : swap16 0 = 0 := rfl
  omega

/-! ## Incremental update -/

theorem toNat_and_low (x : UInt32) : (x &&& 0xffff).toNat = x.toNat % 65536 := by
  rw [UInt32.toNat_and]
  exact Nat.and_two_pow_sub_one_eq_mod x.toNat 16

/-- The complement of a 16-bit value in a 32-bit word, cut to 16 bits. -/
theorem toNat_not_low (v : UInt16) : (~~~v.toUInt32 &&& 0xffff).toNat = 65535 - v.toNat := by
  have hv := v.toNat_lt
  rw [toNat_and_low, UInt32.toNat_not, UInt16.toNat_toUInt32]
  simp only [UInt32.size]
  omega

/-- One fold of the carries. -/
theorem toNat_fold (x : UInt32) (h : x.toNat < 4294901760) :
    ((x &&& (0xffff : UInt32)) + (x >>> 16)).toNat = x.toNat % 65536 + x.toNat / 65536 := by
  rw [UInt32.toNat_add, toNat_and_low, UInt32.toNat_shiftRight]
  simp only [UInt32.reduceToNat, Nat.shiftRight_eq_div_pow, Nat.reduceMod, Nat.reducePow]
  omega

/-- `(csum & 0xffff) + (csum >> 16)`. -/
def foldCarry (x : Nat) : Nat := x % 65536 + x / 65536

/-- The new checksum: the complement of the sum of the complements, after two folds. -/
theorem toNat_csumReplaceU16 (check oldv newv : UInt16) :
    (csumReplaceU16 check oldv newv).toNat =
      65535 - foldCarry (foldCarry (65535 - check.toNat + (65535 - oldv.toNat) + newv.toNat)) := by
  have hc := check.toNat_lt
  have ho := oldv.toNat_lt
  have hn := newv.toNat_lt
  have hsum : ((~~~check.toUInt32 &&& (0xffff : UInt32)) + (~~~oldv.toUInt32 &&& 0xffff) +
      newv.toUInt32).toNat = 65535 - check.toNat + (65535 - oldv.toNat) + newv.toNat := by
    rw [UInt32.toNat_add, UInt32.toNat_add, toNat_not_low, toNat_not_low, UInt16.toNat_toUInt32]
    omega
  unfold csumReplaceU16
  dsimp only
  rw [← hsum]
  generalize (~~~check.toUInt32 &&& (0xffff : UInt32)) + (~~~oldv.toUInt32 &&& 0xffff) +
    newv.toUInt32 = sum at hsum ⊢
  -- the sum is at most three times 65535: the first fold leaves a carry of at most one
  have hfold := toNat_fold sum (by omega)
  generalize (sum &&& (0xffff : UInt32)) + (sum >>> 16) = folded at hfold ⊢
  have hfold' := toNat_fold folded (by omega)
  generalize (folded &&& (0xffff : UInt32)) + (folded >>> 16) = last at hfold' ⊢
  have hlast : last.toNat < 65536 := by omega
  rw [UInt32.toNat_toUInt16, UInt32.toNat_not, foldCarry, foldCarry, ← hfold, ← hfold']
  simp only [UInt32.size]
  omega

/-- The new checksum and the new word are, modulo 65535, the old checksum and the old word. -/
theorem csumReplaceU16_mod (check oldv newv : UInt16) :
    ((csumReplaceU16 check oldv newv).toNat + newv.toNat) % 65535 =
      (check.toNat + oldv.toNat) % 65535 := by
  have hc := check.toNat_lt
  have ho := oldv.toNat_lt
  have hn := newv.toNat_lt
  rw [toNat_csumReplaceU16]
  unfold foldCarry
  omega

/-- Of the two zeros of one's-complement arithmetic the update gives 0, unless all it adds up is
    zero. -/
theorem csumReplaceU16_eq_zero_iff (check oldv newv : UInt16) :
    csumReplaceU16 check oldv newv = 0 ↔
      (check.toNat + oldv.toNat) % 65535 = newv.toNat % 65535 ∧
        ¬ (check = 0xffff ∧ oldv = 0xffff ∧ newv = 0) := by
  have hc := check.toNat_lt
  have ho := oldv.toNat_lt
  have hn := newv.toNat_lt
  simp only [← UInt16.toNat_inj]
  rw [toNat_csumReplaceU16]
  simp only [foldCarry, UInt16.reduceToNat]
  omega

/-- The same for a destination address, which is two words. -/
theorem csumReplaceU32_mod (check : UInt16) (pkt : List UInt8) (iph : Nat) (newv : UInt32) :
    ((csumReplaceU32 check (le32At pkt (iph + 16)) newv).toNat +
        ((newv &&& 0xffff).toUInt16.toNat + (newv >>> 16).toUInt16.toNat)) % 65535 =
      (check.toNat + ((le16At pkt (iph + 16)).toNat + (le16At pkt (iph + 18)).toNat)) % 65535 := by
  have hlow := (le32At_halves pkt (iph + 16)).1
  have hhigh : (le32At pkt (iph + 16) >>> 16).toUInt16 = le16At pkt (iph + 18) :=
    (le32At_halves pkt (iph + 16)).2
  unfold csumReplaceU32
  dsimp only
  rw [hlow, hhigh]
  have h1 := csumReplaceU16_mod check (le16At pkt (iph + 18)) (newv >>> 16).toUInt16
  have h2 := csumReplaceU16_mod (csumReplaceU16 check (le16At pkt (iph + 18)) (newv >>> 16).toUInt16)
    (le16At pkt (iph + 16)) (newv &&& 0xffff).toUInt16
  omega

/-- A sum in which a checksum and the words it was updated for are replaced keeps its value
    modulo 65535. -/
theorem sum_mod_of_replaced {sum sum' : Nat} {check check' lo lo' hi hi' : UInt16}
    (hmod : (check'.toNat + (lo'.toNat + hi'.toNat)) % 65535 =
      (check.toNat + (lo.toNat + hi.toNat)) % 65535)
    (hsum : sum' + (swap16 check + (swap16 lo + swap16 hi)) =
      sum + (swap16 check' + (swap16 lo' + swap16 hi'))) : sum' % 65535 = sum % 65535 := by
  have h1 := swap16_mod check
  have h2 := swap16_mod check'
  have h3 := swap16_mod lo
  have h4 := swap16_mod lo'
  have h5 := swap16_mod hi
  have h6 := swap16_mod hi'
  omega

/-! ## What the checksums cover -/

/-- The IPv4 header with its options. -/
def ipHeader (pkt : List UInt8) (h : Headers) : List UInt8 := slice pkt h.iph (h.udp - h.iph)

/-- The pseudo-header of addresses, protocol and length, and a datagram of `len` bytes. -/
def udpCovered (pkt : List UInt8) (h : Headers) (len : UInt16) : List UInt8 :=
  slice pkt (h.iph + 12) 8 ++ ([0, 17, (len >>> 8).toUInt8, len.toUInt8] : List UInt8) ++
    slice pkt h.udp len.toNat

/-- An IPv4 header of any length in 32-bit words, then a datagram of `len` bytes. -/
structure Headers.Holds (h : Headers) (len : UInt16) (pkt : List UInt8) : Prop where
  header : h.iph + 20 ≤ h.udp
  aligned : (h.udp - h.iph) % 4 = 0
  datagram : 8 ≤ len.toNat
  inFrame : h.udp + len.toNat ≤ pkt.length

/-- No checksum, or one that verifies. -/
def UdpOk (pkt : List UInt8) (h : Headers) (len : UInt16) : Prop :=
  le16At pkt (h.udp + 6) = 0 ∨ Verifies (udpCovered pkt h len)

section Covered

variable {pkt : List UInt8} {h : Headers} {len : UInt16} (hpkt : h.Holds len pkt)

include hpkt

theorem Headers.Holds.of_length {pkt' : List UInt8} (hlen : pkt'.length = pkt.length) :
    h.Holds len pkt' := { hpkt with inFrame := hlen ▸ hpkt.inFrame }

theorem wordSum_udpCovered :
    wordSum (udpCovered pkt h len) = wordSum (slice pkt (h.iph + 12) 8) +
      (17 + (256 * (len >>> 8).toUInt8.toNat + len.toUInt8.toNat)) +
      wordSum (slice pkt h.udp len.toNat) := by
  obtain ⟨hheader, -, hmin, hin⟩ := hpkt
  have hpseudo : (slice pkt (h.iph + 12) 8).length = 8 := length_slice (by omega)
  rw [udpCovered, wordSum_append _ _ (by simp [hpseudo]), wordSum_append _ _ (by rw [hpseudo])]
  simp only [wordSum_cons_cons]
  simp only [wordSum, words]
  simp

/-- The protocol number keeps the sum from being zero. -/
theorem verifies_udpCovered_iff :
    Verifies (udpCovered pkt h len) ↔ wordSum (udpCovered pkt h len) % 65535 = 0 := by
  have := wordSum_udpCovered hpkt
  rw [verifies_iff]
  omega

/-- A store into the datagram replaces one word of the covered sum. -/
theorem wordSum_udpCovered_datagram (off : Nat) (v : UInt16) (hi : h.udp ≤ off)
    (hoff : off + 2 ≤ h.udp + len.toNat) (heven : (off - h.udp) % 2 = 0) :
    wordSum (udpCovered (setLe16 pkt off v) h len) + swap16 (le16At pkt off) =
      wordSum (udpCovered pkt h len) + swap16 v := by
  have hheader := hpkt.header
  have hset := wordSum_slice_setLe16 v hi hoff heven hpkt.inFrame
  rw [wordSum_udpCovered hpkt, wordSum_udpCovered (hpkt.of_length (length_setLe16 ..)),
    slice_setLe16_of_outside (by omega)]
  omega

/-- So does a store into the addresses. -/
theorem wordSum_udpCovered_address (off : Nat) (v : UInt16) (hi : h.iph + 12 ≤ off)
    (hoff : off + 2 ≤ h.iph + 20) (heven : (off - (h.iph + 12)) % 2 = 0) :
    wordSum (udpCovered (setLe16 pkt off v) h len) + swap16 (le16At pkt off) =
      wordSum (udpCovered pkt h len) + swap16 v := by
  have hheader := hpkt.header
  have hin := hpkt.inFrame
  have hset : wordSum (slice (setLe16 pkt off v) (h.iph + 12) 8) + swap16 (le16At pkt off) =
      wordSum (slice pkt (h.iph + 12) 8) + swap16 v :=
    wordSum_slice_setLe16 v hi (by omega) heven (by omega)
  rw [wordSum_udpCovered hpkt, wordSum_udpCovered (hpkt.of_length (length_setLe16 ..)),
    slice_setLe16_of_outside (i := h.udp) (by omega)]
  omega

/-- A store into the IPv4 header replaces one word of its sum. -/
theorem wordSum_ipHeader (off : Nat) (v : UInt16) (hi : h.iph ≤ off) (hoff : off + 2 ≤ h.udp)
    (heven : (off - h.iph) % 2 = 0) :
    wordSum (ipHeader (setLe16 pkt off v) h) + swap16 (le16At pkt off) =
      wordSum (ipHeader pkt h) + swap16 v := by
  have hheader := hpkt.header
  have hin := hpkt.inFrame
  exact wordSum_slice_setLe16 v hi (by omega) heven (by omega)

end Covered

/-! ## The check of the datagram -/

/-- The packet after `if (udp->check) update`. -/
def updateCheck (pkt : List UInt8) (udp : Nat) (f : UInt16 → UInt16) : List UInt8 :=
  if le16At pkt (udp + 6) ≠ 0 then setLe16 pkt (udp + 6) (f (le16At pkt (udp + 6))) else pkt

section UpdateCheck

variable {pkt : List UInt8} {udp : Nat} {f : UInt16 → UInt16}

theorem length_updateCheck (pkt : List UInt8) (udp : Nat) (f : UInt16 → UInt16) :
    (updateCheck pkt udp f).length = pkt.length := by
  unfold updateCheck
  split_ifs <;> simp

theorem updateUdpCheck_ok (f : UInt16 → UInt16) (h : udp + 8 ≤ pkt.length) :
    updateUdpCheck pkt udp f = .ok (updateCheck pkt udp f) := by
  unfold updateUdpCheck updateCheck
  rw [readLe16_ok (by omega), ok_bind]
  split_ifs
  · exact writeLe16_ok _ (by omega)
  · rfl

theorem byteAt_updateCheck {k : Nat} (h : k < udp + 6 ∨ udp + 8 ≤ k) :
    byteAt (updateCheck pkt udp f) k = byteAt pkt k := by
  unfold updateCheck
  split_ifs
  · exact byteAt_setLe16_of_ne (by omega) (by omega)
  · rfl

theorem le16At_updateCheck {k : Nat} (h : k + 2 ≤ udp + 6) :
    le16At (updateCheck pkt udp f) k = le16At pkt k := by
  rw [le16At, byteAt_updateCheck (by omega), byteAt_updateCheck (by omega), le16At]

/-- An absent checksum stays absent. -/
theorem le16At_updateCheck_of_zero (h : le16At pkt (udp + 6) = 0) :
    le16At (updateCheck pkt udp f) (udp + 6) = 0 := by
  rw [updateCheck, if_neg (not_not.mpr h), h]

theorem ipHeader_updateCheck (h : Headers) (f : UInt16 → UInt16) :
    ipHeader (updateCheck pkt h.udp f) h = ipHeader pkt h := by
  unfold updateCheck
  split_ifs
  · by_cases hle : h.iph ≤ h.udp
    · exact slice_setLe16_of_outside (by omega)
    · rw [ipHeader, Nat.sub_eq_zero_of_le (by omega), slice_zero, ipHeader,
        Nat.sub_eq_zero_of_le (by omega), slice_zero]
  · rfl

theorem wordSum_udpCovered_updateCheck {h : Headers} {len : UInt16} (hpkt : h.Holds len pkt)
    (f : UInt16 → UInt16) (hcheck : le16At pkt (h.udp + 6) ≠ 0) :
    wordSum (udpCovered (updateCheck pkt h.udp f) h len) + swap16 (le16At pkt (h.udp + 6)) =
      wordSum (udpCovered pkt h len) + swap16 (f (le16At pkt (h.udp + 6))) := by
  have hmin := hpkt.datagram
  rw [updateCheck, if_pos hcheck]
  exact wordSum_udpCovered_datagram hpkt _ _ (by omega) (by omega) (by omega)

end UpdateCheck

/-! ## The port -/

/-- The packet after the checksum and the port are stored. -/
def storeDport (pkt : List UInt8) (h : Headers) (newDport : UInt16) : List UInt8 :=
  setLe16 (updateCheck pkt h.udp fun check =>
    csumReplaceU16 check (le16At pkt (h.udp + 2)) newDport) (h.udp + 2) newDport

theorem rewriteDport_ok {pkt : List UInt8} {h : Headers} (newDport : UInt16)
    (hin : h.udp + 8 ≤ pkt.length) :
    rewriteDport pkt h newDport = .ok (if le16At pkt (h.udp + 2) = newDport then pkt
      else storeDport pkt h newDport) := by
  unfold rewriteDport storeDport
  rw [readLe16_ok (by omega), ok_bind]
  split_ifs
  · rfl
  · rw [updateUdpCheck_ok _ hin, ok_bind, writeLe16_ok _ (by rw [length_updateCheck]; omega)]

theorem length_storeDport (pkt : List UInt8) (h : Headers) (newDport : UInt16) :
    (storeDport pkt h newDport).length = pkt.length := by
  rw [storeDport, length_setLe16, length_updateCheck]

theorem le16At_storeDport_check (pkt : List UInt8) (h : Headers) (newDport : UInt16)
    (hcheck : le16At pkt (h.udp + 6) = 0) :
    le16At (storeDport pkt h newDport) (h.udp + 6) = 0 := by
  rw [storeDport, le16At_setLe16_of_ne (by omega), le16At_updateCheck_of_zero hcheck]

/-- A checksum that verifies is updated for the new port. -/
theorem udpOk_storeDport {pkt : List UInt8} {h : Headers} {len : UInt16} (hpkt : h.Holds len pkt)
    (newDport : UInt16) (hok : UdpOk pkt h len) : UdpOk (storeDport pkt h newDport) h len := by
  have hmin := hpkt.datagram
  by_cases hcheck : le16At pkt (h.udp + 6) = 0
  · exact .inl (le16At_storeDport_check pkt h newDport hcheck)
  right
  have hver := (verifies_udpCovered_iff hpkt).mp (hok.resolve_left hcheck)
  rw [verifies_udpCovered_iff (hpkt.of_length (length_storeDport ..)), ← hver]
  have hcheckSum := wordSum_udpCovered_updateCheck hpkt
    (fun check => csumReplaceU16 check (le16At pkt (h.udp + 2)) newDport) hcheck
  have hportSum := wordSum_udpCovered_datagram (hpkt.of_length (length_updateCheck pkt h.udp
    fun check => csumReplaceU16 check (le16At pkt (h.udp + 2)) newDport)) (h.udp + 2) newDport
    (by omega) (by omega) (by omega)
  rw [le16At_updateCheck (by omega)] at hportSum
  -- one word only: the other half of an address is zero on both sides
  have hmod : ((csumReplaceU16 (le16At pkt (h.udp + 6)) (le16At pkt (h.udp + 2)) newDport).toNat +
        (newDport.toNat + (0 : UInt16).toNat)) % 65535 =
      ((le16At pkt (h.udp + 6)).toNat + ((le16At pkt (h.udp + 2)).toNat +
        (0 : UInt16).toNat)) % 65535 := csumReplaceU16_mod ..
  refine sum_mod_of_replaced hmod ?_
  unfold storeDport
  omega

/-- What the port half does to the packet. -/
theorem rewriteDport_spec {pkt : List UInt8} {h : Headers} {len : UInt16} (hpkt : h.Holds len pkt)
    (newDport : UInt16) :
    ∃ pkt', rewriteDport pkt h newDport = .ok pkt' ∧ pkt'.length = pkt.length ∧
      (∀ k, k < h.udp + 2 ∨ h.udp + 4 ≤ k ∧ k < h.udp + 6 ∨ h.udp + 8 ≤ k →
        byteAt pkt' k = byteAt pkt k) ∧
      ipHeader pkt' h = ipHeader pkt h ∧
      (le16At pkt (h.udp + 6) = 0 → le16At pkt' (h.udp + 6) = 0) ∧
      (UdpOk pkt h len → UdpOk pkt' h len) := by
  have hheader := hpkt.header
  have hmin := hpkt.datagram
  have hin := hpkt.inFrame
  rw [rewriteDport_ok newDport (by omega)]
  split_ifs
  · exact ⟨pkt, rfl, rfl, fun _ _ => rfl, rfl, id, id⟩
  · refine ⟨_, rfl, length_storeDport .., fun k hk => ?_, ?_, le16At_storeDport_check pkt h newDport,
      udpOk_storeDport hpkt newDport⟩
    · rw [storeDport, byteAt_setLe16_of_ne (by omega) (by omega), byteAt_updateCheck (by omega)]
    · exact (slice_setLe16_of_outside (by omega)).trans (ipHeader_updateCheck h _)

/-! ## The address -/

/-- The packet after both checksums are updated for the new address. -/
def updateChecks (pkt : List UInt8) (h : Headers) (newDaddr : UInt32) : List UInt8 :=
  updateCheck (setLe16 pkt (h.iph + 10)
    (csumReplaceU32 (le16At pkt (h.iph + 10)) (le32At pkt (h.iph + 16)) newDaddr)) h.udp
      fun check => csumReplaceU32 check (le32At pkt (h.iph + 16)) newDaddr

/-- The packet after the checksums and the address are stored. -/
def storeDaddr (pkt : List UInt8) (h : Headers) (newDaddr : UInt32) : List UInt8 :=
  setLe32 (updateChecks pkt h newDaddr) (h.iph + 16) newDaddr

theorem length_updateChecks (pkt : List UInt8) (h : Headers) (newDaddr : UInt32) :
    (updateChecks pkt h newDaddr).length = pkt.length := by
  rw [updateChecks, length_updateCheck, length_setLe16]

theorem length_storeDaddr (pkt : List UInt8) (h : Headers) (newDaddr : UInt32) :
    (storeDaddr pkt h newDaddr).length = pkt.length := by
  rw [storeDaddr, length_setLe32, length_updateChecks]

theorem rewriteDaddr_ok {pkt : List UInt8} {h : Headers} (newDaddr : UInt32)
    (hip : h.iph + 20 ≤ pkt.length) (hudp : h.udp + 8 ≤ pkt.length) :
    rewriteDaddr pkt h newDaddr =
      .ok (if newDaddr = 0 ∨ le32At pkt (h.iph + 16) = newDaddr then pkt
        else storeDaddr pkt h newDaddr) := by
  unfold rewriteDaddr
  by_cases hzero : newDaddr = 0
  · rw [if_pos hzero, if_pos (.inl hzero)]
  · rw [if_neg hzero, readLe32_ok (by omega), ok_bind]
    by_cases hsame : le32At pkt (h.iph + 16) = newDaddr
    · rw [if_pos hsame, if_pos (.inr hsame)]
    · rw [if_neg hsame, if_neg (not_or.mpr ⟨hzero, hsame⟩), readLe16_ok (by omega), ok_bind,
        writeLe16_ok _ (by omega), ok_bind, updateUdpCheck_ok _ (by rw [length_setLe16]; omega),
        ok_bind, writeLe32_ok _ (by rw [length_updateCheck, length_setLe16]; omega)]
      rfl

theorem setLe32_daddr (pkt : List UInt8) (iph : Nat) (v : UInt32) : setLe32 pkt (iph + 16) v =
    setLe16 (setLe16 pkt (iph + 16) (v &&& 0xffff).toUInt16) (iph + 18) (v >>> 16).toUInt16 := rfl

theorem byteAt_setLe32_daddr {pkt : List UInt8} {iph k : Nat} {v : UInt32}
    (h : k < iph + 16 ∨ iph + 20 ≤ k) : byteAt (setLe32 pkt (iph + 16) v) k = byteAt pkt k := by
  rw [setLe32_daddr, byteAt_setLe16_of_ne (by omega) (by omega),
    byteAt_setLe16_of_ne (by omega) (by omega)]

section Address

variable {pkt : List UInt8} {h : Headers} {len : UInt16} (hpkt : h.Holds len pkt)
  (newDaddr : UInt32)

include hpkt

/-- The new address replaces two words of a sum in which each of its halves is one. -/
theorem sum_setLe32_daddr (sum : List UInt8 → Nat)
    (hstore : ∀ pkt' off v, h.Holds len pkt' → off = h.iph + 16 ∨ off = h.iph + 18 →
      sum (setLe16 pkt' off v) + swap16 (le16At pkt' off) = sum pkt' + swap16 v) :
    sum (setLe32 pkt (h.iph + 16) newDaddr) +
        (swap16 (le16At pkt (h.iph + 16)) + swap16 (le16At pkt (h.iph + 18))) =
      sum pkt + (swap16 (newDaddr &&& 0xffff).toUInt16 + swap16 (newDaddr >>> 16).toUInt16) := by
  have hlow := hstore pkt (h.iph + 16) (newDaddr &&& 0xffff).toUInt16 hpkt (.inl rfl)
  have hhigh := hstore (setLe16 pkt (h.iph + 16) (newDaddr &&& 0xffff).toUInt16) (h.iph + 18)
    (newDaddr >>> 16).toUInt16 (hpkt.of_length (length_setLe16 ..)) (.inr rfl)
  rw [le16At_setLe16_of_ne (by omega)] at hhigh
  rw [setLe32_daddr]
  omega

theorem wordSum_ipHeader_daddr :
    wordSum (ipHeader (setLe32 pkt (h.iph + 16) newDaddr) h) +
        (swap16 (le16At pkt (h.iph + 16)) + swap16 (le16At pkt (h.iph + 18))) =
      wordSum (ipHeader pkt h) +
        (swap16 (newDaddr &&& 0xffff).toUInt16 + swap16 (newDaddr >>> 16).toUInt16) := by
  have hheader := hpkt.header
  refine sum_setLe32_daddr hpkt newDaddr (fun pkt' => wordSum (ipHeader pkt' h)) ?_
  intro pkt' off v hpkt' hoff
  exact wordSum_ipHeader hpkt' off v (by omega) (by omega) (by omega)

/-- The address is part of the pseudo-header too. -/
theorem wordSum_udpCovered_daddr :
    wordSum (udpCovered (setLe32 pkt (h.iph + 16) newDaddr) h len) +
        (swap16 (le16At pkt (h.iph + 16)) + swap16 (le16At pkt (h.iph + 18))) =
      wordSum (udpCovered pkt h len) +
        (swap16 (newDaddr &&& 0xffff).toUInt16 + swap16 (newDaddr >>> 16).toUInt16) := by
  refine sum_setLe32_daddr hpkt newDaddr (fun pkt' => wordSum (udpCovered pkt' h len)) ?_
  intro pkt' off v hpkt' hoff
  exact wordSum_udpCovered_address hpkt' off v (by omega) (by omega) (by omega)

/-- A nonzero address keeps the sum of the header from being zero. -/
theorem wordSum_ipHeader_pos (hne : newDaddr ≠ 0) :
    0 < wordSum (ipHeader (setLe32 pkt (h.iph + 16) newDaddr) h) := by
  have hheader := hpkt.header
  have hin := hpkt.inFrame
  have hlow : swap16 (newDaddr &&& 0xffff).toUInt16 ≤
      wordSum (ipHeader (setLe32 pkt (h.iph + 16) newDaddr) h) := by
    have hle := swap16_le_wordSum (setLe32 pkt (h.iph + 16) newDaddr) (h.iph + 16) h.iph
      (h.udp - h.iph) (by omega) (by omega) (by omega) (by rw [length_setLe32]; omega)
    rwa [setLe32, le16At_setLe16_of_ne (by omega), le16At_setLe16_self (by omega)] at hle
  have hhigh : swap16 (newDaddr >>> 16).toUInt16 ≤
      wordSum (ipHeader (setLe32 pkt (h.iph + 16) newDaddr) h) := by
    have hle := swap16_le_wordSum (setLe32 pkt (h.iph + 16) newDaddr) (h.iph + 18) h.iph
      (h.udp - h.iph) (by omega) (by omega) (by omega) (by rw [length_setLe32]; omega)
    rwa [setLe32, le16At_setLe16_self (by rw [length_setLe16]; omega)] at hle
  by_contra hzero
  refine hne (UInt32.toNat_inj.mp ?_)
  have hhalves : newDaddr.toNat = 65536 * (newDaddr >>> 16).toUInt16.toNat +
      (newDaddr &&& 0xffff).toUInt16.toNat := by
    have hlt := newDaddr.toNat_lt
    rw [UInt32.toNat_toUInt16, UInt32.toNat_toUInt16, toNat_and_low, UInt32.toNat_shiftRight]
    simp only [UInt32.reduceToNat, Nat.shiftRight_eq_div_pow, Nat.reduceMod, Nat.reducePow]
    omega
  have h0 : (0 : UInt32).toNat = 0 := rfl
  unfold swap16 at hlow hhigh
  omega

/-- The checksums are updated outside the addresses and the ports. -/
theorem le16At_updateChecks {k : Nat} (h1 : h.iph + 12 ≤ k) (h2 : k + 2 ≤ h.udp + 6) :
    le16At (updateChecks pkt h newDaddr) k = le16At pkt k := by
  have hheader := hpkt.header
  rw [updateChecks, le16At_updateCheck h2, le16At_setLe16_of_ne (by omega)]

theorem wordSum_ipHeader_updateChecks :
    wordSum (ipHeader (updateChecks pkt h newDaddr) h) + swap16 (le16At pkt (h.iph + 10)) =
      wordSum (ipHeader pkt h) + swap16 (csumReplaceU32 (le16At pkt (h.iph + 10))
        (le32At pkt (h.iph + 16)) newDaddr) := by
  have hheader := hpkt.header
  rw [updateChecks, ipHeader_updateCheck]
  exact wordSum_ipHeader hpkt _ _ (by omega) (by omega) (by omega)

theorem wordSum_udpCovered_updateChecks (hcheck : le16At pkt (h.udp + 6) ≠ 0) :
    wordSum (udpCovered (updateChecks pkt h newDaddr) h len) + swap16 (le16At pkt (h.udp + 6)) =
      wordSum (udpCovered pkt h len) + swap16 (csumReplaceU32 (le16At pkt (h.udp + 6))
        (le32At pkt (h.iph + 16)) newDaddr) := by
  have hheader := hpkt.header
  generalize hpkt1 : setLe16 pkt (h.iph + 10) (csumReplaceU32 (le16At pkt (h.iph + 10))
    (le32At pkt (h.iph + 16)) newDaddr) = pkt1
  have hkept : le16At pkt1 (h.udp + 6) = le16At pkt (h.udp + 6) := by
    rw [← hpkt1, le16At_setLe16_of_ne (by omega)]
  -- the checksum of the header is not covered
  have hsame : udpCovered pkt1 h len = udpCovered pkt h len := by
    rw [← hpkt1, udpCovered, slice_setLe16_of_outside (by omega),
      slice_setLe16_of_outside (by omega)]
    rfl
  have hsum := wordSum_udpCovered_updateCheck (hpkt.of_length (by rw [← hpkt1, length_setLe16]))
    (fun check => csumReplaceU32 check (le32At pkt (h.iph + 16)) newDaddr) (hkept ▸ hcheck)
  rw [hkept, hsame] at hsum
  rwa [updateChecks, hpkt1]

theorem le16At_storeDaddr_check (hcheck : le16At pkt (h.udp + 6) = 0) :
    le16At (storeDaddr pkt h newDaddr) (h.udp + 6) = 0 := by
  have hheader := hpkt.header
  rw [storeDaddr, setLe32_daddr, le16At_setLe16_of_ne (by omega), le16At_setLe16_of_ne (by omega),
    updateChecks, le16At_updateCheck_of_zero]
  rw [le16At_setLe16_of_ne (by omega), hcheck]

/-- The header: its checksum and the two halves of the address are replaced. -/
theorem verifies_storeDaddr (hne : newDaddr ≠ 0) (hver : Verifies (ipHeader pkt h)) :
    Verifies (ipHeader (storeDaddr pkt h newDaddr) h) := by
  have hheader := hpkt.header
  have hpkt1 := hpkt.of_length (length_updateChecks pkt h newDaddr)
  have hcheckSum := wordSum_ipHeader_updateChecks hpkt newDaddr
  have hdaddrSum := wordSum_ipHeader_daddr hpkt1 newDaddr
  rw [le16At_updateChecks hpkt _ (by omega) (by omega),
    le16At_updateChecks hpkt _ (by omega) (by omega)] at hdaddrSum
  rw [verifies_iff] at hver ⊢
  refine ⟨wordSum_ipHeader_pos hpkt1 newDaddr hne, ?_⟩
  have hmod := csumReplaceU32_mod (le16At pkt (h.iph + 10)) pkt h.iph newDaddr
  unfold storeDaddr
  exact (sum_mod_of_replaced hmod (by omega)).trans hver.2

/-- The datagram: its checksum, and the address of the pseudo-header. -/
theorem udpOk_storeDaddr (hok : UdpOk pkt h len) : UdpOk (storeDaddr pkt h newDaddr) h len := by
  have hheader := hpkt.header
  by_cases hcheck : le16At pkt (h.udp + 6) = 0
  · exact .inl (le16At_storeDaddr_check hpkt newDaddr hcheck)
  right
  have hver := (verifies_udpCovered_iff hpkt).mp (hok.resolve_left hcheck)
  rw [verifies_udpCovered_iff (hpkt.of_length (length_storeDaddr ..))]
  have hcheckSum := wordSum_udpCovered_updateChecks hpkt newDaddr hcheck
  have hdaddrSum := wordSum_udpCovered_daddr
    (hpkt.of_length (length_updateChecks pkt h newDaddr)) newDaddr
  rw [le16At_updateChecks hpkt _ (by omega) (by omega),
    le16At_updateChecks hpkt _ (by omega) (by omega)] at hdaddrSum
  have hmod := csumReplaceU32_mod (le16At pkt (h.udp + 6)) pkt h.iph newDaddr
  unfold storeDaddr
  exact (sum_mod_of_replaced hmod (by omega)).trans hver

end Address

/-- What the address half does to the packet. -/
theorem rewriteDaddr_spec {pkt : List UInt8} {h : Headers} {len : UInt16} (hpkt : h.Holds len pkt)
    (newDaddr : UInt32) :
    ∃ pkt', rewriteDaddr pkt h newDaddr = .ok pkt' ∧ pkt'.length = pkt.length ∧
      (newDaddr = 0 → pkt' = pkt) ∧
      (∀ k, k < h.iph + 10 ∨ h.iph + 12 ≤ k ∧ k < h.iph + 16 ∨ h.iph + 20 ≤ k ∧ k < h.udp + 6 ∨
        h.udp + 8 ≤ k → byteAt pkt' k = byteAt pkt k) ∧
      (Verifies (ipHeader pkt h) → Verifies (ipHeader pkt' h)) ∧
      (le16At pkt (h.udp + 6) = 0 → le16At pkt' (h.udp + 6) = 0) ∧
      (UdpOk pkt h len → UdpOk pkt' h len) := by
  have hheader := hpkt.header
  have hmin := hpkt.datagram
  have hin := hpkt.inFrame
  rw [rewriteDaddr_ok newDaddr (by omega) (by omega)]
  split_ifs with hsame
  · exact ⟨pkt, rfl, rfl, fun _ => rfl, fun _ _ => rfl, id, id, id⟩
  · obtain ⟨hne, -⟩ := not_or.mp hsame
    refine ⟨_, rfl, length_storeDaddr .., fun h0 => absurd h0 hne, fun k hk => ?_,
      verifies_storeDaddr hpkt newDaddr hne, le16At_storeDaddr_check hpkt newDaddr,
      udpOk_storeDaddr hpkt newDaddr⟩
    rw [storeDaddr, byteAt_setLe32_daddr (by omega), updateChecks, byteAt_updateCheck (by omega),
      byteAt_setLe16_of_ne (by omega) (by omega)]

/-! ## The whole function -/

/-- **Rewriting keeps checksums and touches nothing else.** For every IPv4 header length, every
    datagram of odd or even length, every port and every address: a header checksum that verifies
    still verifies, a UDP checksum that verifies is zero or still verifies, an absent one stays
    absent, and only the destination address, the two checksums and the destination port can
    change. With `newDaddr = 0`, as the generated calls have it, the IPv4 header stays as it is. -/
theorem routeKernelSpace_checksums (h : Headers) (len : UInt16) (newDport : UInt16)
    (newDaddr : UInt32) (st : XdpState) (hpkt : h.Holds len st.pkt) :
    ∃ pkt', routeKernelSpace h newDport newDaddr st = .ok (.val .pass, { st with pkt := pkt' }) ∧
      (Verifies (ipHeader st.pkt h) → Verifies (ipHeader pkt' h)) ∧
      (le16At st.pkt (h.udp + 6) ≠ 0 → Verifies (udpCovered st.pkt h len) →
        le16At pkt' (h.udp + 6) = 0 ∨ Verifies (udpCovered pkt' h len)) ∧
      (le16At st.pkt (h.udp + 6) = 0 → le16At pkt' (h.udp + 6) = 0) ∧
      pkt'.length = st.pkt.length ∧
      (∀ k, ¬ (h.iph + 16 ≤ k ∧ k < h.iph + 20) → ¬ (h.iph + 10 ≤ k ∧ k < h.iph + 12) →
        ¬ (h.udp + 2 ≤ k ∧ k < h.udp + 4) → ¬ (h.udp + 6 ≤ k ∧ k < h.udp + 8) →
          byteAt pkt' k = byteAt st.pkt k) ∧
      (newDaddr = 0 → ipHeader pkt' h = ipHeader st.pkt h) := by
  obtain ⟨pkt1, hrun1, hlen1, hsame1, hkeep1, hip1, hzero1, hudp1⟩ := rewriteDaddr_spec hpkt newDaddr
  obtain ⟨pkt2, hrun2, hlen2, hkeep2, hip2, hzero2, hudp2⟩ :=
    rewriteDport_spec (hpkt.of_length hlen1) newDport
  refine ⟨pkt2, ?_, ?_, ?_, fun h0 => hzero2 (hzero1 h0), hlen2.trans hlen1, ?_, ?_⟩
  · rw [routeKernelSpace, hrun1, ok_bind, hrun2, ok_bind]
    rfl
  · rw [hip2]
    exact hip1
  · exact fun _ hver => hudp2 (hudp1 (.inr hver))
  · intro k h1 h2 h3 h4
    rw [hkeep2 k (by omega), hkeep1 k (by omega)]
  · intro h0
    rw [hip2, hsame1 h0]

/-- A datagram of nine bytes with both checksums. -/
def samplePacket : List UInt8 :=
  [69, 0, 0, 29, 0, 0, 0, 0, 64, 17, 174, 206, 192, 0, 2, 1, 10, 0, 0, 1,
    48, 57, 0, 53, 0, 9, 162, 107, 97]

theorem routeKernelSpace_checksums_sample :
    Verifies (ipHeader samplePacket ⟨0, 20⟩) ∧ Verifies (udpCovered samplePacket ⟨0, 20⟩ 9) ∧
    ∃ pkt', routeKernelSpace ⟨0, 20⟩ 0xb614 0x0200000a ⟨samplePacket, .created, none⟩ =
        .ok (.val .pass, ⟨pkt', .created, none⟩) ∧
      Verifies (ipHeader pkt' ⟨0, 20⟩) := by
  have hip : Verifies (ipHeader samplePacket ⟨0, 20⟩) := rfl
  obtain ⟨pkt', hrun, hver, -⟩ := routeKernelSpace_checksums ⟨0, 20⟩ 9 0xb614 0x0200000a
    ⟨samplePacket, .created, none⟩ ⟨by decide, by decide, by decide, by decide⟩
  exact ⟨hip, rfl, pkt', hrun, hver hip⟩

/-! ## The checksum that becomes zero -/

theorem le16At_storeDport_of_ne {pkt : List UInt8} {h : Headers} (newDport : UInt16)
    (hin : h.udp + 8 ≤ pkt.length) (hcheck : le16At pkt (h.udp + 6) ≠ 0) :
    le16At (storeDport pkt h newDport) (h.udp + 6) =
      csumReplaceU16 (le16At pkt (h.udp + 6)) (le16At pkt (h.udp + 2)) newDport := by
  rw [storeDport, le16At_setLe16_of_ne (by omega), updateCheck, if_pos hcheck,
    le16At_setLe16_self (by omega)]

/-- **When a checksum survives the rewriting of the port.** A datagram with a checksum, verifying or
    not, still has one afterwards exactly when the port stays as it is, or checksum and old port do
    not add up to the new port modulo 65535 (as the code reads the three, and two words 0xffff for
    the new port 0 apart). -/
theorem routeKernelSpace_check_iff (h : Headers) (len : UInt16) (newDport : UInt16) (st : XdpState)
    (hpkt : h.Holds len st.pkt) (hcheck : le16At st.pkt (h.udp + 6) ≠ 0) :
    (∃ pkt', routeKernelSpace h newDport 0 st = .ok (.val .pass, { st with pkt := pkt' }) ∧
      le16At pkt' (h.udp + 6) ≠ 0) ↔
    (le16At st.pkt (h.udp + 2) = newDport ∨
      ((le16At st.pkt (h.udp + 6)).toNat + (le16At st.pkt (h.udp + 2)).toNat) % 65535 ≠
        newDport.toNat % 65535 ∨
      (le16At st.pkt (h.udp + 6) = 0xffff ∧ le16At st.pkt (h.udp + 2) = 0xffff ∧ newDport = 0)) := by
  have hmin := hpkt.datagram
  have hin := hpkt.inFrame
  have hrun : routeKernelSpace h newDport 0 st = .ok (.val .pass, { st with
      pkt := if le16At st.pkt (h.udp + 2) = newDport then st.pkt else storeDport st.pkt h newDport }) := by
    rw [routeKernelSpace, rewriteDaddr, if_pos rfl, ok_bind, rewriteDport_ok newDport (by omega),
      ok_bind]
    rfl
  have hstored := le16At_storeDport_of_ne newDport (by omega) hcheck
  have hzero := csumReplaceU16_eq_zero_iff (le16At st.pkt (h.udp + 6)) (le16At st.pkt (h.udp + 2))
    newDport
  constructor
  · rintro ⟨pkt', hpkt', hne⟩
    rw [hrun] at hpkt'
    obtain rfl := congrArg XdpState.pkt (Prod.mk.inj (Except.ok.inj hpkt')).2
    by_cases hsame : le16At st.pkt (h.udp + 2) = newDport
    · exact .inl hsame
    · rw [if_neg hsame, hstored, Ne, hzero] at hne
      exact .inr (not_and_or.mp hne |>.imp_right not_not.mp)
  · intro hcond
    refine ⟨_, hrun, ?_⟩
    by_cases hsame : le16At st.pkt (h.udp + 2) = newDport
    · rw [if_pos hsame]
      exact hcheck
    · rw [if_neg hsame, hstored, Ne, hzero, not_and_or, not_not]
      exact hcond.resolve_left hsame

theorem routeKernelSpace_check_sample :
    ∃ pkt', routeKernelSpace ⟨0, 20⟩ (bpfHtons 5302) 0 ⟨samplePacket, .created, none⟩ =
        .ok (.val .pass, ⟨pkt', .created, none⟩) ∧ le16At pkt' 26 ≠ 0 :=
  (routeKernelSpace_check_iff ⟨0, 20⟩ 9 (bpfHtons 5302) ⟨samplePacket, .created, none⟩
    ⟨by decide, by decide, by decide, by decide⟩ (by decide)).mpr (.inr (.inl (by decide)))

/-- Forwarded to port 41632, a datagram whose checksum verifies has none afterwards. -/
theorem checksum_vanishes :
    Headers.Holds ⟨0, 20⟩ 9 samplePacket ∧ le16At samplePacket 26 ≠ 0 ∧
      Verifies (udpCovered samplePacket ⟨0, 20⟩ 9) ∧
      ∃ pkt', routeKernelSpace ⟨0, 20⟩ (bpfHtons 41632) 0 ⟨samplePacket, .created, none⟩ =
        .ok (.val .pass, ⟨pkt', .created, none⟩) ∧ le16At pkt' 26 = 0 :=
  ⟨⟨by decide, by decide, by decide, by decide⟩, by decide, rfl, _, rfl, by decide⟩

end Zereh.Xdp
