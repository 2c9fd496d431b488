/-
  The generated router as a whole.

  On a query that comes to the dispatch, the program that the text stands for is the reference
  interpreter (`router_eq_refDispatch`), which never faults (`refDispatch_safe`).
-/
import Zereh.Link.DispatchRun
import Zereh.Link.HashAgree
import Zereh.Xdp.Safety

namespace Zereh.Link

open Lib CText Control Xdp

/-! ## The reference interpreter never faults -/

theorem routeFilters_sized (r : Route) (i : Nat) (hash : UInt64) : (routeFilters r i hash).Sized :=
  ⟨toNat_len_le r.prefixMatch, toNat_len_le r.suffixMatch⟩

theorem targetAction_safe (r : Route) {h : Headers} {st : XdpState} (hin : h.InFrame st.pkt) :
    Runs (targetAction r h st) := by
  unfold targetAction
  cases r.target with
  | userSpace => exact bpfRedirectMap_safe _ st
  | kernelSpace => exact routeKernelSpace_safe hin _ _
  | xdpProg => exact bpfTailCall_safe _ st (safe_ok trivial)

theorem takeRoute_safe (cfg : Config) (clock : Clock) {h : Headers} (qmeta : DnsQueryMeta)
    (hash : UInt64) (r : Route) (i : Nat) {st : XdpState} (hin : h.InFrame st.pkt) :
    Runs (takeRoute cfg clock h qmeta hash r i st) :=
  (FilterArgs.apply_safe (routeFilters_sized r i hash) ..).bind fun _ _ =>
    safe_ite (fun _ => targetAction_safe r hin) fun _ => safe_ok trivial

theorem suffixRoute_safe (qmeta : DnsQueryMeta) (routes : List (Route × Nat)) :
    Runs (suffixRoute qmeta routes) := by
  induction routes with
  | nil => exact safe_ok trivial
  | cons ri routes ih =>
    exact (matchSuffix_safe (toNat_len_le _)).bind fun _ _ =>
      safe_ite (fun _ => safe_ok trivial) fun _ => ih

theorem selectRoute_safe (cfg : Config) (qmeta : DnsQueryMeta) (hash : UInt64) :
    Runs (selectRoute cfg qmeta hash) := by
  unfold selectRoute
  split
  · exact safe_ok trivial
  · exact suffixRoute_safe qmeta _

theorem routeHash_safe (algo : HashAlgorithm) {qmeta : DnsQueryMeta}
    (hlen : qmeta.qname.length ≤ 255) : Runs (Xdp.routeHash algo qmeta) := by
  cases algo with
  | fnv1a => exact safe_ok trivial
  | siphash => exact ⟨_, siphash24Qname_eq _ hlen, trivial⟩

theorem refDispatch_safe (cfg : Config) (clock : Clock) {h : Headers} {qmeta : DnsQueryMeta}
    {st : XdpState} (hin : h.InFrame st.pkt) (hlen : qmeta.qname.length ≤ 255) :
    Runs (refDispatch cfg clock h qmeta st) := by
  refine (routeHash_safe cfg.hashAlgo hlen).bind fun hash _ => ?_
  refine (selectRoute_safe cfg qmeta hash).bind fun ri _ => ?_
  cases ri with
  | none => exact safe_ok trivial
  | some ri => exact takeRoute_safe cfg clock qmeta hash ri.1 ri.2 hin

/-! ## The generated program -/

/-- **Code generation preserves meaning.** On every parsed query and whatever the maps hold, the
    emitted text, read as C, ends as the reference interpreter over the routes does. -/
theorem dispatch_refines (cfg : Config) (hnodup : (cfg.routes.map (·.hash)).Nodup) (clock : Clock)
    (st : XdpState) (h : Headers) (qmeta : DnsQueryMeta)
    (hheaders : parseEthIpv4Udp st.pkt = .ok (some h))
    (hquery : parseDnsQuery st.pkt h.udp = .ok (some qmeta)) :
    ∃ res, refDispatch cfg clock h qmeta st = .ok res ∧
      dispatch cfg clock h qmeta st = .ok res := by
  obtain ⟨r, hr, hin⟩ := parseEthIpv4Udp_safe st.pkt
  have hsome : r = some h := Except.ok.inj (hr.symm.trans hheaders)
  obtain ⟨res, hres, -⟩ := refDispatch_safe cfg clock (hin h hsome) (length_qname_le hquery)
  exact ⟨res, hres, (dispatch_eq_refDispatch cfg clock h qmeta hnodup st).trans hres⟩

/-- A DNS payload in a UDP datagram to port 53. -/
def sampleFrame (saddr dns : List UInt8) : List UInt8 :=
  List.replicate 12 0 ++ [8, 0] ++ [69, 0, 0, 0, 0, 0, 0, 0, 64, 17, 0, 0] ++ saddr ++
    [10, 0, 0, 1] ++ [48, 57, 0, 53, 0, UInt8.ofNat (8 + dns.length), 0, 0] ++ dns

/-- A question of type A for the name with these wire labels. -/
def questionFrame (labels : List UInt8) : List UInt8 :=
  sampleFrame [192, 0, 2, 1]
    ([18, 52, 1, 0, 0, 1, 0, 0, 0, 0, 0, 0] ++ labels ++ [0, 0, 1, 0, 1])

/-- The question "a" of type A. -/
def sampleQuestion : List UInt8 :=
  [18, 52, 1, 0, 0, 1, 0, 0, 0, 0, 0, 0, 1, 97, 0, 0, 1, 0, 1]

/-- What the parser makes of it. -/
def sampleQuery : DnsQueryMeta where
  qnameHash := fnv1a64 [97]
  dnsId := 4660
  qtype := 1
  qclass := 1
  opcode := 0
  isTruncated := false
  labelDepth := 1
  qname := [97]

/-- A frame that arrives while the maps are as created. -/
def sampleState (pkt : List UInt8) : XdpState := ⟨pkt, .created, none⟩

theorem dispatch_refines_sample :
    ∃ res, refDispatch (sampleConfig 0) ⟨0, 0, 0⟩ ⟨14, 34⟩ sampleQuery
        (sampleState (sampleFrame [192, 0, 2, 1] sampleQuestion)) = .ok res ∧
      dispatch (sampleConfig 0) ⟨0, 0, 0⟩ ⟨14, 34⟩ sampleQuery
        (sampleState (sampleFrame [192, 0, 2, 1] sampleQuestion)) = .ok res :=
  dispatch_refines (sampleConfig 0) (List.nodup_singleton _) _ _ _ _ rfl rfl

/-- A query that comes to the dispatch of a program that compiles. -/
theorem router_eq_refDispatch {cfg : Config} (hnodup : (cfg.routes.map (·.hash)).Nodup)
    {st : XdpState} {hd : Headers} {qmeta : DnsQueryMeta}
    (h : dispatched (macros cfg) st.maps st.pkt = .ok (some (hd, qmeta))) (clock : Clock) :
    router cfg clock st = refDispatch cfg clock hd qmeta st := by
  rcases dispatched_cases (macros cfg) st.maps st.pkt with
    ⟨hnone, -⟩ | ⟨hd', qmeta', hsome, -, -, heq⟩
  · rw [hnone] at h
    cases h
  · rw [hsome] at h
    cases h
    exact (heq _ _ rfl rfl).trans (dispatch_eq_refDispatch cfg clock hd qmeta hnodup st)

end Zereh.Link
