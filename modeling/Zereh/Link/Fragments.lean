/-
  Fragments behind the first.

  The bytes behind the IP header of a later fragment are the middle of a datagram, not a UDP header.
  `zereh_parse_eth_ipv4_udp` does not look at the fragment offset, so the program reads them as one.
  A later fragment is passed and left alone by every program exactly when those bytes do not happen
  to read as a query to port 53 (`fragment_untouched_iff`). When they do, the filters of some
  configuration drop the fragment, and a route to kernel space stores a port and a checksum into
  the data (`fragment_rewritten`).
-/
import Zereh.Link.Policy
import Zereh.Link.Spelling
import Zereh.Xdp.Checksum

namespace Zereh.Link

open Lib CText Control Xdp

/-- An IPv4 frame whose fragment offset is not zero. -/
structure LaterFragment (pkt : List UInt8) : Prop where
  inFrame : 34 ≤ pkt.length
  ipv4 : fieldAt pkt 12 = 0x0800
  offset : fieldAt pkt 20 &&& 0x1fff ≠ 0

/-- The bytes behind the IP header read as a UDP header to port 53 and a question. -/
def ReadsAsQuery (pkt : List UInt8) : Prop :=
  ∃ h, parseEthIpv4Udp pkt = .ok (some h) ∧ fieldAt pkt (h.udp + 2) = 53 ∧
    ∃ ls, IsQuery pkt h.udp ls

/-- Every program that is generated passes the frame, with its bytes and the maps as they were. -/
def Untouched (pkt : List UInt8) : Prop :=
  ∀ (doc : YamlDocument) (cfg : Config), parseConfigYaml doc = .ok cfg →
    (readDispatch cfg).isSome → ∀ (clock : Clock) (st : XdpState), st.pkt = pkt →
      router cfg clock st = .ok (.val .pass, st)

/-! ## Bytes that do not read as a query -/

/-- The comparison with port 53 fails on every other port. -/
theorem readLe16_other_port {pkt : List UInt8} {off : Nat} (hin : off + 2 ≤ pkt.length)
    (hport : fieldAt pkt off ≠ 53) : ∃ dest, readLe16 pkt off = .ok dest ∧ dest ≠ bpfHtons 53 := by
  refine ⟨le16At pkt off, readLe16_ok hin, fun hdest => hport ?_⟩
  have hnat := congrArg UInt16.toNat hdest
  have hswap : (bpfHtons 53).toNat = 13568 := rfl
  have h53 : (53 : UInt16).toNat = 53 := rfl
  have hlow := (byteAt pkt off).toNat_lt
  have hhigh := (byteAt pkt (off + 1)).toNat_lt
  rw [le16At, be16_toNat, hswap] at hnat
  rw [fieldAt, ← UInt16.toNat_inj, be16_toNat, h53]
  omega

theorem router_of_not_readsAsQuery (cfg : Config) (clock : Clock) (st : XdpState)
    (h : ¬ ReadsAsQuery st.pkt) : router cfg clock st = st.finish .pass := by
  obtain ⟨headers, hheaders, hin⟩ := parseEthIpv4Udp_safe st.pkt
  cases headers with
  | none =>
    unfold router xdpRouter
    rw [hheaders, ok_bind]
  | some hd =>
    have hudp := (hin hd rfl).udp
    by_cases hport : fieldAt st.pkt (hd.udp + 2) = 53
    · refine router_of_not_query clock hheaders hport (parseDnsQuery_of_not_isQuery ?_)
      exact fun ls hls => h ⟨hd, hheaders, hport, ls, hls⟩
    · obtain ⟨dest, hdest, hne⟩ := readLe16_other_port (by omega) hport
      unfold router xdpRouter
      rw [hheaders, ok_bind]
      dsimp only
      rw [hdest, ok_bind]
      exact if_pos hne

/-! ## Bytes that do -/

/-- One route, and one opcode allowed. -/
def opcodeDocument (opcode : String) : YamlDocument where
  nodes :=
    [.mapping [(2, 3), (9, 10)],
      .scalar (ascii "routes"), .sequence [4],
      .mapping [(5, 6), (7, 8)],
      .scalar (ascii "domain"), .scalar (ascii "a"),
      .scalar (ascii "target"), .scalar (ascii "user_space"),
      .scalar (ascii "allowed_opcodes"), .scalar (ascii opcode)]

def opcodeConfig (mask : UInt16) : Config := { spelledConfig "a" with allowedOpcodeMask := mask }

set_option maxRecDepth 4000 in
theorem parse_opcodeDocument :
    parseConfigYaml (opcodeDocument "0") = .ok (opcodeConfig 1) ∧
      parseConfigYaml (opcodeDocument "1") = .ok (opcodeConfig 2) := by decide +kernel

theorem readDispatch_opcodeConfig (mask : UInt16) : (readDispatch (opcodeConfig mask)).isSome :=
  (readDispatch_isSome_iff _).mpr (List.nodup_singleton _)

/-- An opcode that is not allowed is dropped. -/
theorem router_of_opcode {mask : UInt16} {clock : Clock} {st : XdpState} {h : Headers}
    {ls : List (List UInt8)} (hheaders : parseEthIpv4Udp st.pkt = .ok (some h))
    (hport : fieldAt st.pkt (h.udp + 2) = 53) (hquery : IsQuery st.pkt h.udp ls)
    (hop : mask.toNat.testBit (decode st.pkt h.udp ls).opcode.toNat = false) :
    router (opcodeConfig mask) clock st = st.finish .drop := by
  have hin := inFrame_of_parse hheaders
  have hmask : (macros (opcodeConfig mask)).allowedOpcodeMask.toNat = mask.toNat :=
    UInt16.toNat_toUInt32 mask
  rw [router_port53 clock hheaders hport, parseDnsQuery_of_isQuery hquery, ok_bind]
  dsimp only
  rw [globalPreRoute_eq hin.ip (by rw [hmask]; exact mask.toNat_lt), hmask,
    if_pos (.inr (.inr (.inl hop))), ok_bind, if_pos (by decide)]

/-- No opcode is allowed by both configurations, so one of them drops the frame. -/
theorem not_untouched_of_readsAsQuery {pkt : List UInt8} (h : ReadsAsQuery pkt) :
    ¬ Untouched pkt := by
  intro huntouched
  obtain ⟨hd, hheaders, hport, ls, hquery⟩ := h
  have hpass : ∀ (doc : YamlDocument) (mask : UInt16),
      parseConfigYaml doc = .ok (opcodeConfig mask) →
        mask.toNat.testBit (decode pkt hd.udp ls).opcode.toNat = false → False := by
    intro doc mask hparse hop
    have hpassed := huntouched doc _ hparse (readDispatch_opcodeConfig mask) ⟨0, 0, 0⟩
      (sampleState pkt) rfl
    have hdropped : router (opcodeConfig mask) ⟨0, 0, 0⟩ (sampleState pkt) =
        XdpState.finish _ .drop := router_of_opcode hheaders hport hquery hop
    rw [hdropped] at hpassed
    cases hpassed
  by_cases hzero : (decode pkt hd.udp ls).opcode.toNat = 0
  · refine hpass _ 2 parse_opcodeDocument.2 ?_
    rw [hzero]
    decide
  · refine hpass _ 1 parse_opcodeDocument.1 ?_
    have hone : (1 : UInt16).toNat = 2 ^ 0 := rfl
    rw [hone, Nat.testBit_two_pow_of_ne (Ne.symm hzero)]

/-- **Which later fragments are left alone.** A frame that is a later fragment is passed by every
    program, with no byte and no map changed, exactly when the bytes behind its IP header do not
    read as a UDP header to port 53 with a question that the parser accepts. -/
theorem fragment_untouched_iff (pkt : List UInt8) :
    (LaterFragment pkt → Untouched pkt) ↔ (LaterFragment pkt → ¬ ReadsAsQuery pkt) := by
  constructor
  · intro huntouched hfragment hquery
    exact not_untouched_of_readsAsQuery hquery (huntouched hfragment)
  · rintro hcond hfragment doc cfg - - clock st rfl
    exact router_of_not_readsAsQuery cfg clock st (hcond hfragment)

/-- A route to kernel space for the name "a". -/
def kernelDocument : YamlDocument where
  nodes :=
    [.mapping [(2, 3)],
      .scalar (ascii "routes"), .sequence [4],
      .mapping [(5, 6), (7, 8)],
      .scalar (ascii "domain"), .scalar (ascii "a"),
      .scalar (ascii "target"), .scalar (ascii "kernel_space")]

def kernelConfig : Config :=
  { spelledConfig "a" with
    routes := (spelledConfig "a").routes.map fun r => { r with target := .kernelSpace } }

set_option maxRecDepth 4000 in
theorem parse_kernelDocument : parseConfigYaml kernelDocument = .ok kernelConfig := by
  decide +kernel

/-- A later fragment whose data reads as the query for "a". -/
def fragmentFrame : List UInt8 := (questionFrame [1, 97]).set 21 1

theorem laterFragment_fragmentFrame : LaterFragment fragmentFrame :=
  ⟨by decide, by decide, by decide⟩

theorem dispatched_fragmentFrame :
    dispatched (macros kernelConfig) .created fragmentFrame =
      .ok (some (⟨14, 34⟩, sampleQuery)) := by
  decide +kernel

/-- Two bytes of its data become port 5302. -/
theorem fragment_rewritten :
    LaterFragment fragmentFrame ∧ parseConfigYaml kernelDocument = .ok kernelConfig ∧
      (readDispatch kernelConfig).isSome ∧
      router kernelConfig ⟨0, 0, 0⟩ (sampleState fragmentFrame) =
        .ok (.val .pass, sampleState ((fragmentFrame.set 36 20).set 37 182)) ∧
      (fragmentFrame.set 36 20).set 37 182 ≠ fragmentFrame := by
  have hnodup : (kernelConfig.routes.map (·.hash)).Nodup := List.nodup_singleton _
  refine ⟨laterFragment_fragmentFrame, parse_kernelDocument, ?_, ?_, by decide⟩
  · exact (readDispatch_isSome_iff _).mpr hnodup
  · exact (router_eq_refDispatch hnodup dispatched_fragmentFrame _).trans rfl

end Zereh.Link
