/-
  The data plane stays inside its objects.

  * Every function of the parser, the filters and the targets is `Safe` under what its caller
    established: the headers lie in the frame (`Headers.InFrame`), the length passed with a
    pattern is at most the length of the literal. Divisors are guarded where they are used.
  * `dispatched_cases`: every frame gets its verdict without a fault before the dispatch, or comes
    to the dispatch with headers in the frame and a parsed query.
-/
import Zereh.Xdp.DnsGrammar
import Zereh.Xdp.Router

namespace Zereh.Xdp

open Lib CText

/-- Nothing but the absence of a fault. -/
abbrev Runs {α : Type} (x : Checked α) : Prop := Safe (fun _ => True) x

/-! ## Headers -/

/-- The fixed part of both headers lies in the frame. -/
structure Headers.InFrame (h : Headers) (pkt : List UInt8) : Prop where
  ip : h.iph + 20 ≤ pkt.length
  udp : h.udp + 8 ≤ pkt.length

/-- The IPv4 header is at 14 and has at least 20 bytes, the UDP header lies in the frame. -/
theorem parseEthIpv4Udp_offsets (pkt : List UInt8) :
    Safe (fun r => ∀ h, r = some h → h.iph = 14 ∧ 34 ≤ h.udp ∧ h.udp + 8 ≤ pkt.length)
      (parseEthIpv4Udp pkt) := by
  have hnone : Safe (fun r : Option Headers => ∀ h, r = some h →
      h.iph = 14 ∧ 34 ≤ h.udp ∧ h.udp + 8 ≤ pkt.length) (.ok none) := safe_ok nofun
  unfold parseEthIpv4Udp
  refine safe_ite (fun _ => hnone) fun h14 => ?_
  rw [readBe16_ok (by omega), ok_bind]
  refine safe_ite (fun _ => hnone) fun _ => safe_ite (fun _ => hnone) fun h34 => ?_
  refine (safe_readAt (by omega)).bind fun ihl _ => safe_ite (fun _ => hnone) fun hihl => ?_
  refine (safe_readAt (by omega)).bind fun protocol _ => safe_ite (fun _ => hnone) fun _ => ?_
  refine safe_ite (fun _ => hnone) fun _ => safe_ite (fun _ => hnone) fun hudp => ?_
  refine safe_ok fun h hh => ?_
  have hfive : 5 ≤ (ihl &&& 0x0f).toNat := UInt8.le_iff_toNat_le.mp (UInt8.not_lt.mp hihl)
  cases hh
  exact ⟨rfl, by dsimp only; omega, by dsimp only; omega⟩

theorem parseEthIpv4Udp_safe (pkt : List UInt8) :
    Safe (fun r => ∀ h, r = some h → h.InFrame pkt) (parseEthIpv4Udp pkt) := by
  refine (parseEthIpv4Udp_offsets pkt).mono fun r hr h hh => ?_
  obtain ⟨hiph, hheader, hudp⟩ := hr h hh
  exact ⟨by omega, hudp⟩

/-! ## Loads and stores -/

section Packet

variable {pkt : List UInt8} {off : Nat}

theorem readLe16_safe (h : off + 2 ≤ pkt.length) : Runs (readLe16 pkt off) :=
  (safe_readAt (by omega)).bind fun _ _ => (safe_readAt (by omega)).bind fun _ _ => safe_ok trivial

theorem readLe32_safe (h : off + 4 ≤ pkt.length) : Runs (readLe32 pkt off) :=
  (safe_readAt (by omega)).bind fun _ _ => (safe_readAt (by omega)).bind fun _ _ =>
    (safe_readAt (by omega)).bind fun _ _ => (safe_readAt (by omega)).bind fun _ _ => safe_ok trivial

theorem writeLe16_safe (v : UInt16) (h : off + 2 ≤ pkt.length) :
    Safe (fun pkt' => pkt'.length = pkt.length) (writeLe16 pkt off v) := by
  refine (safe_writeAt _ (by omega)).bind fun pkt1 h1 => ?_
  exact (safe_writeAt _ (by omega)).mono fun pkt2 h2 => h2.trans h1

theorem writeLe32_safe (v : UInt32) (h : off + 4 ≤ pkt.length) :
    Safe (fun pkt' => pkt'.length = pkt.length) (writeLe32 pkt off v) := by
  refine (safe_writeAt _ (by omega)).bind fun pkt1 h1 => ?_
  refine (safe_writeAt _ (by omega)).bind fun pkt2 h2 => ?_
  refine (safe_writeAt _ (by omega)).bind fun pkt3 h3 => ?_
  exact (safe_writeAt _ (by omega)).mono fun pkt4 h4 => by omega

end Packet

/-! ## Filters before routing -/

theorem globalPreRoute_safe (macros : Macros) (maps : Maps) {pkt : List UInt8} {iph : Nat}
    (qmeta : DnsQueryMeta) (packetLen : UInt32) (h : iph + 20 ≤ pkt.length) :
    Runs (globalPreRoute macros maps pkt iph qmeta packetLen) := by
  have hsaddr : Runs (readSaddr pkt iph) :=
    (safe_readAt (by omega)).bind fun _ _ => (safe_readAt (by omega)).bind fun _ _ =>
      (safe_readAt (by omega)).bind fun _ _ => (safe_readAt (by omega)).bind fun _ _ =>
        safe_ok trivial
  refine hsaddr.bind fun saddr _ => safe_ite (fun _ => safe_ok trivial) fun _ => ?_
  refine safe_ite (fun _ => safe_ok trivial) fun _ => ?_
  refine safe_ite (fun _ => safe_ok trivial) fun hop => ?_
  have hshift : qmeta.opcode.toNat < 32 := by
    have := UInt8.le_iff_toNat_le.mp (UInt8.not_lt.mp hop)
    exact Nat.lt_of_le_of_lt this (by decide)
  rw [shlAt_ok _ hshift, ok_bind]
  exact safe_ite (fun _ => safe_ok trivial) fun _ =>
    safe_ite (fun _ => safe_ok trivial) fun _ => safe_ok trivial

/-! ## Filters of a route -/

/-- The loop reads below `start + patLen` of the name and below `patLen` of the pattern. -/
theorem matchLoop_safe {qname pat : List UInt8} {start patLen : Nat}
    (hname : start + patLen ≤ qname.length) (hpat : patLen ≤ pat.length) (n i : Nat) :
    Runs (matchLoop qname start pat patLen n i) := by
  induction n generalizing i with
  | zero => exact safe_ok trivial
  | succ n ih =>
    refine safe_ite (fun _ => safe_ok trivial) fun hi => ?_
    refine (safe_readAt (by omega)).bind fun a _ => (safe_readAt (by omega)).bind fun b _ => ?_
    exact safe_ite (fun _ => safe_ok trivial) fun _ => ih (i + 1)

theorem matchPrefix_safe {qname pat : List UInt8} {patLen : UInt16} (h : patLen.toNat ≤ pat.length) :
    Runs (matchPrefix qname qname.length pat patLen) :=
  safe_ite (fun _ => safe_ok trivial) fun _ => safe_ite (fun _ => safe_ok trivial) fun hle =>
    matchLoop_safe (by omega) h 128 0

theorem matchSuffix_safe {qname pat : List UInt8} {patLen : UInt16} (h : patLen.toNat ≤ pat.length) :
    Runs (matchSuffix qname qname.length pat patLen) :=
  safe_ite (fun _ => safe_ok trivial) fun _ => safe_ite (fun _ => safe_ok trivial) fun hle =>
    matchLoop_safe (by omega) h 128 0

/-- No modulus is zero: the sizes below 64 are refused first. -/
theorem bucketLoop_safe (maps : Maps) (hash : UInt64) {bits : UInt32} (functions : UInt8)
    (bucket : UInt64) (hbits : ¬ bits < 64) (n k : Nat) :
    Runs (bucketLoop maps hash bits functions bucket n k) := by
  have hne : bits.toUInt64 ≠ 0 := by
    intro h0
    have hle := UInt32.le_iff_toNat_le.mp (UInt32.not_lt.mp hbits)
    have hnat := congrArg UInt64.toNat h0
    rw [UInt32.toNat_toUInt64] at hnat
    rw [hnat] at hle
    exact absurd hle (by decide)
  induction n generalizing k with
  | zero => exact safe_ok trivial
  | succ n ih =>
    refine safe_ite (fun _ => safe_ok trivial) fun _ => ?_
    rw [modAt_ok _ hne, ok_bind]
    exact safe_ite (fun _ => safe_ok trivial) fun _ => ih (k + 1)

theorem toUInt64_window_ne {window : UInt16} (h : ¬ window = 0) : window.toUInt64 ≠ 0 := by
  intro h0
  have hnat := congrArg UInt64.toNat h0
  rw [UInt16.toNat_toUInt64] at hnat
  exact h (UInt16.toNat_inj.mp hnat)

theorem bloomAllow_safe (maps : Maps) (ns hash : UInt64) (bits : UInt32) (functions : UInt8)
    (window : UInt16) : Runs (bloomAllow maps ns hash bits functions window) := by
  unfold bloomAllow
  refine safe_ite (fun _ => safe_ok trivial) fun hguard => ?_
  have hbits : ¬ bits < 64 := fun h => hguard (.inr (.inl h))
  have hmatch : ∀ bucket, Runs (bloomBucketMatch maps hash bits functions bucket) := fun bucket =>
    bucketLoop_safe maps hash functions bucket hbits _ _
  refine safe_ite (fun _ => hmatch 0) fun hw => ?_
  rw [divAt_ok _ (toUInt64_window_ne hw), ok_bind]
  refine (hmatch _).bind fun b _ => safe_ite (fun _ => safe_ok trivial) fun _ => ?_
  refine safe_ite (fun _ => ?_) fun _ => safe_ok trivial
  exact (hmatch _).bind fun b _ => safe_ite (fun _ => safe_ok trivial) fun _ => safe_ok trivial

theorem powAllow_safe (ns hash : UInt64) (dnsId : UInt16) (difficulty : UInt8) (window : UInt16) :
    Runs (powAllow ns hash dnsId difficulty window) := by
  unfold powAllow
  refine safe_ite (fun _ => safe_ok trivial) fun _ => safe_ite (fun _ => safe_ok trivial) fun hw => ?_
  rw [divAt_ok _ (toUInt64_window_ne hw), ok_bind]
  exact safe_ite (fun _ => safe_ok trivial) fun _ =>
    safe_ite (fun _ => safe_ok trivial) fun _ => safe_ok trivial

/-- The lengths passed with the two patterns are lengths of their literals. -/
structure FilterArgs.Sized (a : FilterArgs) : Prop where
  pfx : a.prefixLen.toNat ≤ a.pfx.length
  sfx : a.suffixLen.toNat ≤ a.sfx.length

theorem FilterArgs.apply_safe {a : FilterArgs} (h : a.Sized) (entries : UInt32) (clock : Clock)
    (maps : Maps) (qmeta : DnsQueryMeta) : Runs (a.apply entries clock maps qmeta) := by
  unfold FilterArgs.apply applyAppFilters
  refine safe_ite (fun _ => safe_ok trivial) fun _ => safe_ite (fun _ => safe_ok trivial) fun _ => ?_
  refine safe_ite (fun _ => safe_ok trivial) fun _ => ?_
  refine (matchPrefix_safe h.pfx).bind fun _ _ => safe_ite (fun _ => safe_ok trivial) fun _ => ?_
  refine (matchSuffix_safe h.sfx).bind fun _ _ => safe_ite (fun _ => safe_ok trivial) fun _ => ?_
  refine safe_ite (fun _ => safe_ok trivial) fun _ => ?_
  refine (powAllow_safe ..).bind fun _ _ => safe_ite (fun _ => safe_ok trivial) fun _ => ?_
  refine safe_ite (fun _ => ?_) fun _ => safe_ok trivial
  exact (bloomAllow_safe ..).bind fun _ _ =>
    safe_ite (fun _ => safe_ok trivial) fun _ => safe_ok trivial

/-! ## Targets -/

section Targets

variable {h : Headers} {pkt : List UInt8}

theorem updateUdpCheck_safe (hin : h.InFrame pkt) (f : UInt16 → UInt16) :
    Safe (fun pkt' => pkt'.length = pkt.length) (updateUdpCheck pkt h.udp f) := by
  have hudp := hin.udp
  refine (readLe16_safe (by omega)).bind fun check _ => ?_
  exact safe_ite (fun _ => writeLe16_safe _ (by omega)) fun _ => safe_ok rfl

theorem Headers.InFrame.of_length {pkt' : List UInt8} (hin : h.InFrame pkt)
    (hlen : pkt'.length = pkt.length) : h.InFrame pkt' :=
  ⟨hlen ▸ hin.ip, hlen ▸ hin.udp⟩

theorem rewriteDaddr_safe (hin : h.InFrame pkt) (newDaddr : UInt32) :
    Safe (fun pkt' => pkt'.length = pkt.length) (rewriteDaddr pkt h newDaddr) := by
  have hip := hin.ip
  have hudp := hin.udp
  refine safe_ite (fun _ => safe_ok rfl) fun _ => (readLe32_safe (by omega)).bind fun _ _ => ?_
  refine safe_ite (fun _ => safe_ok rfl) fun _ => (readLe16_safe (by omega)).bind fun _ _ => ?_
  refine (writeLe16_safe _ (by omega)).bind fun pkt1 h1 => ?_
  refine (updateUdpCheck_safe (hin.of_length h1) _).bind fun pkt2 h2 => ?_
  exact (writeLe32_safe _ (by omega)).mono fun pkt3 h3 => by omega

theorem rewriteDport_safe (hin : h.InFrame pkt) (newDport : UInt16) :
    Safe (fun pkt' => pkt'.length = pkt.length) (rewriteDport pkt h newDport) := by
  have hudp := hin.udp
  refine (readLe16_safe (by omega)).bind fun _ _ => safe_ite (fun _ => safe_ok rfl) fun _ => ?_
  refine (updateUdpCheck_safe hin _).bind fun pkt1 h1 => ?_
  exact (writeLe16_safe _ (by omega)).mono fun pkt2 h2 => h2.trans h1

theorem routeKernelSpace_safe {st : XdpState} (hin : h.InFrame st.pkt) (newDport : UInt16)
    (newDaddr : UInt32) : Runs (routeKernelSpace h newDport newDaddr st) :=
  (rewriteDaddr_safe hin newDaddr).bind fun _ h1 =>
    (rewriteDport_safe (hin.of_length h1) newDport).bind fun _ _ => safe_ok trivial

end Targets

theorem bpfRedirectMap_safe (key : Nat) (st : XdpState) : Runs (bpfRedirectMap key st) :=
  safe_ite (fun _ => safe_ok trivial) fun _ => safe_ok trivial

theorem bpfTailCall_safe (index : Nat) (st : XdpState) {rest : XdpState → Outcome}
    (h : Runs (rest st)) : Runs (bpfTailCall index st rest) := by
  unfold bpfTailCall
  split
  · exact safe_ok trivial
  · exact h

/-! ## The program -/

/-- The query that a frame brings to the dispatch, if it comes that far. -/
def dispatched (macros : Macros) (maps : Maps) (pkt : List UInt8) :
    Checked (Option (Headers × DnsQueryMeta)) := do
  match ← parseEthIpv4Udp pkt with
  | none => .ok none
  | some h =>
    let dest ← readLe16 pkt (h.udp + 2)
    if dest ≠ bpfHtons 53 then .ok none
    else
      match ← parseDnsQuery pkt h.udp with
      | none => .ok none
      | some qmeta =>
        let verdict ← globalPreRoute macros maps pkt h.iph qmeta (UInt32.ofNat pkt.length)
        if verdict ≠ 0 then .ok none else .ok (some (h, qmeta))

theorem globalPreRoute_congr {maps maps' : Maps} (h : maps'.ipBlacklist = maps.ipBlacklist)
    (macros : Macros) (pkt : List UInt8) (iph : Nat) (qmeta : DnsQueryMeta) (packetLen : UInt32) :
    globalPreRoute macros maps' pkt iph qmeta packetLen =
      globalPreRoute macros maps pkt iph qmeta packetLen := by
  unfold globalPreRoute
  rw [h]

/-- A frame is answered before the dispatch, in one way whatever the rest of the state is, or
    handed to the dispatch with its headers in the frame and a parsed query. -/
theorem dispatched_cases (macros : Macros) (maps : Maps) (pkt : List UInt8) :
    (dispatched macros maps pkt = .ok none ∧ ∃ a, ∀ dispatch (st : XdpState), st.pkt = pkt →
      st.maps.ipBlacklist = maps.ipBlacklist → xdpRouter macros dispatch st = st.finish a) ∨
    ∃ h qmeta, dispatched macros maps pkt = .ok (some (h, qmeta)) ∧ h.InFrame pkt ∧
      parseDnsQuery pkt h.udp = .ok (some qmeta) ∧ ∀ dispatch (st : XdpState), st.pkt = pkt →
        st.maps.ipBlacklist = maps.ipBlacklist →
          xdpRouter macros dispatch st = dispatch h qmeta st := by
  obtain ⟨headers, hheaders, hin⟩ := parseEthIpv4Udp_safe pkt
  cases headers with
  | none =>
    refine .inl ⟨by simp only [dispatched, hheaders, ok_bind], .pass, ?_⟩
    rintro dispatch st rfl -
    simp only [xdpRouter, hheaders, ok_bind]
  | some h =>
    have hframe := hin h rfl
    have hudp := hframe.udp
    obtain ⟨dest, hdest, -⟩ : Runs (readLe16 pkt (h.udp + 2)) := readLe16_safe (by omega)
    by_cases hport : dest ≠ bpfHtons 53
    · refine .inl ⟨by simp only [dispatched, hheaders, hdest, ok_bind, if_pos hport], .pass, ?_⟩
      rintro dispatch st rfl -
      simp only [xdpRouter, hheaders, hdest, ok_bind, if_pos hport]
    · obtain ⟨parsed, hparsed⟩ := parseDnsQuery_total pkt h.udp
      cases parsed with
      | none =>
        refine .inl ⟨?_, .pass, ?_⟩
        · simp only [dispatched, hheaders, hdest, hparsed, ok_bind, if_neg hport]
        · rintro dispatch st rfl -
          simp only [xdpRouter, hheaders, hdest, hparsed, ok_bind, if_neg hport]
      | some qmeta =>
        obtain ⟨verdict, hverdict, -⟩ :=
          globalPreRoute_safe macros maps qmeta (UInt32.ofNat pkt.length) hframe.ip
        have hrest : ∀ dispatch (st : XdpState), st.pkt = pkt →
            st.maps.ipBlacklist = maps.ipBlacklist → xdpRouter macros dispatch st =
              if verdict ≠ 0 then st.finish .drop else dispatch h qmeta st := by
          rintro dispatch st rfl htrie
          simp only [xdpRouter, hheaders, hdest, hparsed, ok_bind, if_neg hport,
            globalPreRoute_congr htrie, hverdict]
        by_cases hdrop : verdict ≠ 0
        · refine .inl ⟨?_, .drop, fun dispatch st hpkt htrie => ?_⟩
          · simp only [dispatched, hheaders, hdest, hparsed, hverdict, ok_bind, if_neg hport,
              if_pos hdrop]
          · rw [hrest dispatch st hpkt htrie, if_pos hdrop]
        · refine .inr ⟨h, qmeta, ?_, hframe, hparsed, fun dispatch st hpkt htrie => ?_⟩
          · simp only [dispatched, hheaders, hdest, hparsed, hverdict, ok_bind, if_neg hport,
              if_neg hdrop]
          · rw [hrest dispatch st hpkt htrie, if_neg hdrop]

end Zereh.Xdp
