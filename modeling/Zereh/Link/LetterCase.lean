/-
  The case of the letters in a query never matters.

  A `CaseVariant` of a frame has other letter case inside the labels of its name and may have
  another checksum. The parser lower-cases what it copies and the headers are the same
  bytes, so both frames decode to one query (`CaseVariant.query_eq`), come to the dispatch
  with it or not at all, and select one route. Behind that only `zereh_route_kernel_space` looks at the
  packet, and it writes the same port (`CaseVariant.target_alike`).
-/
import Zereh.Link.Isolation
import Zereh.Xdp.Checksum
import Zereh.Xdp.LabelText

namespace Zereh.Link

open Lib CText Control Xdp

/-! ## Two frames -/

/-- Where the frames may differ: the checksum and the name, which takes `n` bytes. -/
def InVariation (udp n k : Nat) : Prop :=
  udp + 6 ≤ k ∧ k < udp + 8 ∨ udp + 20 ≤ k ∧ k < udp + 20 + n

/-- The second frame has the first one's labels in other letter case, and any checksum. -/
structure CaseVariant (udp : Nat) (ls ls' : List (List UInt8)) (pkt pkt' : List UInt8) : Prop where
  length : pkt'.length = pkt.length
  labels : ∀ l ∈ ls, IsLabel l
  name : slice pkt (udp + 20) (wire ls).length = wire ls
  name' : slice pkt' (udp + 20) (wire ls').length = wire ls'
  letters : ls'.map lower = ls.map lower
  rest : ∀ k, ¬ InVariation udp (wire ls).length k → byteAt pkt' k = byteAt pkt k

theorem length_wire_lower (ls : List (List UInt8)) :
    (wire (ls.map lower)).length = (wire ls).length := by
  induction ls with
  | nil => rfl
  | cons l ls ih =>
    simp only [List.map_cons, wire, List.length_cons, List.length_append, length_lower, ih]

theorem map_length_lower (ls : List (List UInt8)) :
    (ls.map lower).map List.length = ls.map List.length := by
  rw [List.map_map]
  exact List.map_congr_left fun l _ => length_lower l

theorem readAt_congr {pkt pkt' : List UInt8} {k : Nat} (hlen : pkt'.length = pkt.length)
    (h : byteAt pkt' k = byteAt pkt k) : readAt pkt' k = readAt pkt k := by
  by_cases hk : k < pkt.length
  · rw [readAt_ok hk, readAt_ok (hlen ▸ hk), h]
  · unfold readAt
    rw [List.getElem?_eq_none (by omega), List.getElem?_eq_none (by omega)]

theorem byteAt_set_congr {m m' : List UInt8} {k : Nat} (hlen : m'.length = m.length)
    (h : byteAt m' k = byteAt m k) (i : Nat) (b : UInt8) :
    byteAt (m'.set i b) k = byteAt (m.set i b) k := by
  unfold byteAt at h ⊢
  simp only [List.getD_eq_getElem?_getD, List.getElem?_set, hlen] at h ⊢
  split_ifs
  · rfl
  · rfl
  · exact h

theorem byteAt_setLe16_congr {pkt pkt' : List UInt8} {k off : Nat} {v : UInt16}
    (hlen : pkt'.length = pkt.length) (h : byteAt pkt' k = byteAt pkt k) :
    byteAt (setLe16 pkt' off v) k = byteAt (setLe16 pkt off v) k := by
  unfold setLe16
  refine byteAt_set_congr ?_ (byteAt_set_congr hlen h _ _) _ _
  rw [List.length_set, List.length_set, hlen]

/-- The header parser reads four bytes. -/
theorem parseEthIpv4Udp_congr {pkt pkt' : List UInt8} (hlen : pkt'.length = pkt.length)
    (h : ∀ k, k < 24 → byteAt pkt' k = byteAt pkt k) :
    parseEthIpv4Udp pkt' = parseEthIpv4Udp pkt := by
  have hread : ∀ k, k < 24 → readAt pkt' k = readAt pkt k := fun k hk => readAt_congr hlen (h k hk)
  simp only [parseEthIpv4Udp, readBe16, hlen, hread 12 (by decide), hread (12 + 1) (by decide),
    hread 14 (by decide), hread (14 + 9) (by decide)]

/-! ## One query -/

namespace CaseVariant

variable {udp : Nat} {ls ls' : List (List UInt8)} {pkt pkt' : List UInt8}
  (hvar : CaseVariant udp ls ls' pkt pkt')

include hvar

theorem wire_length : (wire ls').length = (wire ls).length := by
  rw [← length_wire_lower ls', hvar.letters, length_wire_lower]

theorem lengths : ls'.map List.length = ls.map List.length := by
  rw [← map_length_lower ls', hvar.letters, map_length_lower]

theorem count : ls'.length = ls.length := by
  have hcount := congrArg List.length hvar.letters
  rwa [List.length_map, List.length_map] at hcount

theorem fieldAt_eq {off : Nat} (h : off + 2 ≤ udp + 6 ∨ udp + 8 ≤ off ∧ off + 2 ≤ udp + 20 ∨
    udp + 20 + (wire ls).length ≤ off) : fieldAt pkt' off = fieldAt pkt off := by
  unfold fieldAt
  rw [hvar.rest off (by unfold InVariation; omega),
    hvar.rest (off + 1) (by unfold InVariation; omega)]

theorem isLabel : ∀ l ∈ ls', IsLabel l := by
  intro l hl
  have hmem : l.length ∈ ls.map List.length := by
    rw [← hvar.lengths]
    exact List.mem_map_of_mem hl
  obtain ⟨k, hk, hkl⟩ := List.mem_map.mp hmem
  unfold IsLabel
  rw [← hkl]
  exact hvar.labels k hk

theorem isQuery (h : IsQuery pkt udp ls) : IsQuery pkt' udp ls' := by
  have hend : datagramEnd pkt' udp = datagramEnd pkt udp := by
    unfold datagramEnd
    rw [hvar.fieldAt_eq (by omega)]
  have hflags : dnsFlags pkt' udp = dnsFlags pkt udp := by
    unfold dnsFlags
    rw [hvar.fieldAt_eq (by omega)]
  refine ⟨?_, ?_, ?_, ?_, hvar.isLabel, ?_, hvar.name', ?_⟩
  · rw [hend, hvar.length]
    exact h.inFrame
  · rw [hflags]
    exact h.query
  · rw [hvar.fieldAt_eq (by omega)]
    exact h.questions
  · rw [hvar.count]
    exact h.count
  · rw [hvar.lengths, hvar.count]
    exact h.nameLen
  · rw [hend, hvar.wire_length]
    exact h.fits

theorem decode_eq : decode pkt' udp ls' = decode pkt udp ls := by
  have hname : lower (dotted ls') = lower (dotted ls) := by
    rw [lower_dotted, lower_dotted, hvar.letters]
  unfold decode dnsFlags
  rw [hname, hvar.wire_length, hvar.count, hvar.fieldAt_eq (by omega), hvar.fieldAt_eq (by omega),
    hvar.fieldAt_eq (by omega), hvar.fieldAt_eq (by omega)]

theorem query_eq {qmeta : DnsQueryMeta} (h : parseDnsQuery pkt udp = .ok (some qmeta)) :
    parseDnsQuery pkt' udp = .ok (some qmeta) := by
  obtain ⟨ks, hks, rfl⟩ := (parseDnsQuery_iff pkt udp qmeta).mp h
  obtain rfl : ls = ks := nameAt_unique hvar.labels hks.labels hvar.name hks.name
  rw [parseDnsQuery_of_isQuery (hvar.isQuery hks), hvar.decode_eq]

theorem port_eq : le16At pkt' (udp + 2) = le16At pkt (udp + 2) := by
  unfold le16At
  rw [hvar.rest _ (by unfold InVariation; omega), hvar.rest _ (by unfold InVariation; omega)]

theorem preRoute_eq (macros : Macros) (maps : Maps) (qmeta : DnsQueryMeta) (packetLen : UInt32)
    {iph : Nat} (hiph : iph + 20 ≤ udp) :
    globalPreRoute macros maps pkt' iph qmeta packetLen =
      globalPreRoute macros maps pkt iph qmeta packetLen := by
  have hread : ∀ k, k < iph + 16 → readAt pkt' k = readAt pkt k := fun k hk =>
    readAt_congr hvar.length (hvar.rest k (by unfold InVariation; omega))
  simp only [globalPreRoute, readSaddr, hread (iph + 12) (by omega),
    hread (iph + 13) (by omega), hread (iph + 14) (by omega), hread (iph + 15) (by omega)]

end CaseVariant

/-! ## One end -/

/-- Two runs that end in one way: the action or the tail call, the maps, the slot of a redirect, and
    the bytes outside the checksum and the name. -/
def EndAlike (udp n : Nat) (x y : Outcome) : Prop :=
  ∃ out pkt pkt' maps slot, x = .ok (out, ⟨pkt, maps, slot⟩) ∧ y = .ok (out, ⟨pkt', maps, slot⟩) ∧
    ∀ k, ¬ InVariation udp n k → byteAt pkt' k = byteAt pkt k

namespace CaseVariant

variable {h : Headers} {ls ls' : List (List UInt8)} {pkt pkt' : List UInt8}
  (hvar : CaseVariant h.udp ls ls' pkt pkt')

include hvar

theorem finish_alike (out : Out Nat Action) (maps : Maps) (slot : Option Nat) :
    EndAlike h.udp (wire ls).length (.ok (out, ⟨pkt, maps, slot⟩)) (.ok (out, ⟨pkt', maps, slot⟩)) :=
  ⟨out, pkt, pkt', maps, slot, rfl, rfl, hvar.rest⟩

theorem storeDport_eq (port : UInt16) : ∀ k, ¬ InVariation h.udp (wire ls).length k →
    byteAt (storeDport pkt' h port) k = byteAt (storeDport pkt h port) k := by
  intro k hk
  unfold storeDport
  refine byteAt_setLe16_congr ?_ ?_
  · rw [length_updateCheck, length_updateCheck, hvar.length]
  · have houtside : k < h.udp + 6 ∨ h.udp + 8 ≤ k := by
      unfold InVariation at hk
      omega
    rw [byteAt_updateCheck houtside, byteAt_updateCheck houtside, hvar.rest k hk]

/-- The target looks at the destination port only, and both packets leave with one. -/
theorem target_alike (r : Route) (hin : h.InFrame pkt) (maps : Maps) (slot : Option Nat) :
    EndAlike h.udp (wire ls).length (targetAction r h ⟨pkt, maps, slot⟩)
      (targetAction r h ⟨pkt', maps, slot⟩) := by
  unfold targetAction
  cases r.target with
  | userSpace =>
    unfold Xdp.bpfRedirectMap
    dsimp only
    split_ifs
    · exact hvar.finish_alike _ _ _
    · exact hvar.finish_alike _ _ _
  | kernelSpace =>
    have hdport := rewriteDport_ok (Xdp.bpfHtons r.kernelPort) hin.udp
    have hdport' := rewriteDport_ok (Xdp.bpfHtons r.kernelPort) (hin.of_length hvar.length).udp
    have hnone : ∀ p, rewriteDaddr p h 0 = .ok p := fun _ => if_pos rfl
    simp only [routeKernelSpace, hnone, ok_bind, hdport, hdport', hvar.port_eq]
    split_ifs
    · exact hvar.finish_alike _ _ _
    · exact ⟨_, _, _, _, _, rfl, rfl, hvar.storeDport_eq _⟩
  | xdpProg =>
    unfold Xdp.bpfTailCall
    dsimp only
    split
    · exact hvar.finish_alike _ _ _
    · exact hvar.finish_alike _ _ _

theorem takeRoute_alike (cfg : Config) (clock : Clock) (qmeta : DnsQueryMeta) (hash : UInt64) (r : Route)
    (i : Nat) (hin : h.InFrame pkt) (maps : Maps) (slot : Option Nat) :
    EndAlike h.udp (wire ls).length (takeRoute cfg clock h qmeta hash r i ⟨pkt, maps, slot⟩)
      (takeRoute cfg clock h qmeta hash r i ⟨pkt', maps, slot⟩) := by
  obtain ⟨⟨ok, next⟩, hrun, -⟩ := FilterArgs.apply_safe (routeFilters_sized r i hash)
    (macros cfg).rateStateEntries clock maps qmeta
  simp only [takeRoute, hrun, ok_bind]
  cases ok with
  | false => exact hvar.finish_alike _ _ _
  | true => exact hvar.target_alike r hin next slot

theorem refDispatch_alike (cfg : Config) (clock : Clock) (hin : h.InFrame pkt) {qmeta : DnsQueryMeta}
    (hlen : qmeta.qname.length ≤ 255) (maps : Maps) (slot : Option Nat) :
    EndAlike h.udp (wire ls).length (refDispatch cfg clock h qmeta ⟨pkt, maps, slot⟩)
      (refDispatch cfg clock h qmeta ⟨pkt', maps, slot⟩) := by
  obtain ⟨hash, hhash, -⟩ := routeHash_safe cfg.hashAlgo hlen
  obtain ⟨selected, hselected, -⟩ := selectRoute_safe cfg qmeta hash
  simp only [refDispatch, hhash, hselected, ok_bind]
  cases selected with
  | none => exact hvar.finish_alike _ _ _
  | some ri => exact hvar.takeRoute_alike cfg clock qmeta hash ri.1 ri.2 hin maps slot

end CaseVariant

/-! ## The program -/

/-- A frame with a query: checked for its port, filtered, dispatched. -/
theorem xdpRouter_of_query {macros : Macros} {h : Headers} {qmeta : DnsQueryMeta} {st : XdpState}
    (dispatch : Headers → DnsQueryMeta → XdpState → Outcome)
    (hheaders : parseEthIpv4Udp st.pkt = .ok (some h)) (hin : h.InFrame st.pkt)
    (hquery : parseDnsQuery st.pkt h.udp = .ok (some qmeta)) :
    xdpRouter macros dispatch st =
      if le16At st.pkt (h.udp + 2) ≠ Xdp.bpfHtons 53 then st.finish .pass
      else globalPreRoute macros st.maps st.pkt h.iph qmeta (UInt32.ofNat st.pkt.length) >>=
        fun verdict => if verdict ≠ 0 then st.finish .drop else dispatch h qmeta st := by
  have hudp := hin.udp
  simp only [xdpRouter, hheaders, readLe16_ok (show h.udp + 2 + 2 ≤ st.pkt.length by omega), hquery,
    ok_bind]

section Frames

variable {h : Headers} {ls ls' : List (List UInt8)} {pkt pkt' : List UInt8} {qmeta : DnsQueryMeta}
  (hvar : CaseVariant h.udp ls ls' pkt pkt') (hheaders : parseEthIpv4Udp pkt = .ok (some h))
  (hquery : parseDnsQuery pkt h.udp = .ok (some qmeta))

include hvar hheaders

theorem CaseVariant.headers_eq : parseEthIpv4Udp pkt' = .ok (some h) := by
  obtain ⟨r, hr, hoffsets⟩ := parseEthIpv4Udp_offsets pkt
  obtain ⟨-, hudp, -⟩ := hoffsets h (Except.ok.inj (hr.symm.trans hheaders))
  refine (parseEthIpv4Udp_congr hvar.length fun k hk => ?_).trans hheaders
  exact hvar.rest k (by unfold InVariation; omega)

include hquery

/-- Both frames run alike, whatever the dispatch is, as long as it runs alike on the query. -/
theorem CaseVariant.router_alike (macros : Macros) {maps : Maps} {slot : Option Nat}
    {dispatch : Headers → DnsQueryMeta → XdpState → Outcome}
    (hdispatch : h.InFrame pkt → EndAlike h.udp (wire ls).length
      (dispatch h qmeta ⟨pkt, maps, slot⟩) (dispatch h qmeta ⟨pkt', maps, slot⟩)) :
    EndAlike h.udp (wire ls).length (xdpRouter macros dispatch ⟨pkt, maps, slot⟩)
      (xdpRouter macros dispatch ⟨pkt', maps, slot⟩) := by
  obtain ⟨r, hr, hoffsets⟩ := parseEthIpv4Udp_offsets pkt
  obtain ⟨hiph, hheader, hudp⟩ := hoffsets h (Except.ok.inj (hr.symm.trans hheaders))
  have hin : h.InFrame pkt := ⟨by omega, hudp⟩
  obtain ⟨verdict, hverdict, -⟩ :=
    globalPreRoute_safe macros maps qmeta (UInt32.ofNat pkt.length) hin.ip
  rw [xdpRouter_of_query dispatch hheaders hin hquery,
    xdpRouter_of_query dispatch (hvar.headers_eq hheaders) (hin.of_length hvar.length)
      (hvar.query_eq hquery)]
  dsimp only
  rw [hvar.length, hvar.preRoute_eq macros maps qmeta _ (by omega), hverdict, ok_bind, ok_bind,
    hvar.port_eq]
  split_ifs
  · exact hvar.finish_alike _ _ _
  · exact hvar.finish_alike _ _ _
  · exact hdispatch hin

theorem CaseVariant.selectedRoute_eq (cfg : Config) (maps : Maps) :
    selectedRoute cfg maps pkt' = selectedRoute cfg maps pkt := by
  obtain ⟨r, hr, hoffsets⟩ := parseEthIpv4Udp_offsets pkt
  obtain ⟨hiph, hheader, hudp⟩ := hoffsets h (Except.ok.inj (hr.symm.trans hheaders))
  have hlen' := hvar.length
  have hport : readLe16 pkt' (h.udp + 2) = readLe16 pkt (h.udp + 2) := by
    rw [readLe16_ok (by omega), readLe16_ok (by omega), hvar.port_eq]
  simp only [selectedRoute, dispatched, hheaders, hvar.headers_eq hheaders, hport, hquery,
    hvar.query_eq hquery, hvar.length, ok_bind,
    hvar.preRoute_eq _ _ _ _ (show h.iph + 20 ≤ h.udp by omega)]

end Frames

/-- The queries for "a" and for "A". -/
theorem caseVariant_sample :
    CaseVariant 34 [[97]] [[65]] (questionFrame [1, 97]) (questionFrame [1, 65]) where
  length := rfl
  labels := by simp [IsLabel]
  name := rfl
  name' := rfl
  letters := rfl
  rest := by
    intro k hk
    have hset : questionFrame [1, 65] = (questionFrame [1, 97]).set 55 65 := rfl
    have hwire : (wire [[97]]).length = 3 := rfl
    have hne : k ≠ 55 := by
      rintro rfl
      exact hk (.inr ⟨by omega, by omega⟩)
    rw [hset, byteAt_set_of_ne hne]

end Zereh.Link
