/-
  The global filters, from the configured blacklist to the verdict of the program.

  The trie that the loader seeds holds exactly the configured networks (`lpmLookup_seeded`), and
  `zereh_global_pre_route` drops what is blacklisted or too long. But the program runs it only on
  a payload that the DNS parser accepts, so a blacklisted or oversized frame to port 53 is dropped
  exactly when its payload is a query (`filtered_dropped_iff`).
-/
import Zereh.Control.Loader
import Zereh.Link.Generated

namespace Zereh.Link

open Lib CText Control Xdp

/-! ## The blacklist -/

/-- The address lies in a configured network. -/
def Blacklisted (cfg : Config) (addr : UInt32) : Prop :=
  ∃ cidr ∈ cfg.blacklist, ∃ key, parseCidrV4 cidr = some key ∧
    key.addr.toNat / 2 ^ (32 - key.prefixlen.toNat) = addr.toNat / 2 ^ (32 - key.prefixlen.toNat)

theorem mem_blacklistKeys {cidrs : List CStr} {keys : List LpmV4Key}
    (h : blacklistKeys cidrs = .ok keys) (key : LpmV4Key) :
    key ∈ keys ↔ ∃ cidr ∈ cidrs, parseCidrV4 cidr = some key := by
  induction cidrs generalizing keys with
  | nil =>
    cases h
    simp
  | cons cidr cidrs ih =>
    rw [blacklistKeys] at h
    cases hcidr : parseCidrV4 cidr with
    | none =>
      rw [hcidr] at h
      cases h
    | some first =>
      rw [hcidr] at h
      cases hrest : blacklistKeys cidrs with
      | error e =>
        rw [hrest] at h
        cases h
      | ok rest =>
        rw [hrest] at h
        cases h
        rw [List.mem_cons, ih hrest]
        simp [hcidr, eq_comm]

/-- A lookup in the seeded trie finds the configured networks and no others. -/
theorem lpmLookup_seeded {cfg : Config} {maps : Maps} (h : seedBlacklistMap cfg .created = .ok maps)
    (addr : UInt32) : lpmLookup maps.ipBlacklist addr = true ↔ Blacklisted cfg addr := by
  unfold seedBlacklistMap at h
  cases hkeys : blacklistKeys cfg.blacklist with
  | error e =>
    rw [hkeys] at h
    cases h
  | ok keys =>
    rw [hkeys] at h
    cases h
    unfold lpmLookup Blacklisted
    rw [Maps.created, List.nil_append, List.any_eq_true]
    constructor
    · rintro ⟨key, hmem, hmatch⟩
      obtain ⟨cidr, hcidr, hkey⟩ := (mem_blacklistKeys hkeys key).mp hmem
      exact ⟨cidr, hcidr, key, hkey, of_decide_eq_true hmatch⟩
    · rintro ⟨cidr, hcidr, key, hkey, hmatch⟩
      exact ⟨key, (mem_blacklistKeys hkeys key).mpr ⟨cidr, hcidr, hkey⟩, decide_eq_true hmatch⟩

/-! ## The filter -/

/-- The source address of the header at `iph`, by value. -/
def saddrAt (pkt : List UInt8) (iph : Nat) : UInt32 :=
  be32 (byteAt pkt (iph + 12)) (byteAt pkt (iph + 13)) (byteAt pkt (iph + 14))
    (byteAt pkt (iph + 15))

theorem readSaddr_ok {pkt : List UInt8} {iph : Nat} (h : iph + 20 ≤ pkt.length) :
    readSaddr pkt iph = .ok (saddrAt pkt iph) := by
  unfold readSaddr
  rw [readAt_ok (by omega), ok_bind, readAt_ok (by omega), ok_bind, readAt_ok (by omega), ok_bind,
    readAt_ok (by omega), ok_bind]
  rfl

/-- Blacklisted, or longer than `max_packet_size`. -/
def Filtered (cfg : Config) (pkt : List UInt8) (h : Headers) : Prop :=
  Blacklisted cfg (saddrAt pkt h.iph) ∨ cfg.maxPacketSize.toNat < pkt.length

/-- The filter drops what it is for, whatever the query is. -/
theorem globalPreRoute_filtered {cfg : Config} {st : XdpState} {maps : Maps} {h : Headers}
    (hload : seedBlacklistMap cfg .created = .ok maps)
    (htrie : st.maps.ipBlacklist = maps.ipBlacklist) (hlen : st.pkt.length < 2 ^ 32)
    (hin : h.InFrame st.pkt) (hfiltered : Filtered cfg st.pkt h) (qmeta : DnsQueryMeta) :
    globalPreRoute (macros cfg) st.maps st.pkt h.iph qmeta (UInt32.ofNat st.pkt.length) =
      .ok (-1) := by
  have hpacketLen : (UInt32.ofNat st.pkt.length).toNat = st.pkt.length := by
    rw [UInt32.toNat_ofNat']
    exact Nat.mod_eq_of_lt hlen
  unfold globalPreRoute
  rw [readSaddr_ok hin.ip, ok_bind]
  by_cases hlong : UInt32.ofNat st.pkt.length > (macros cfg).maxPacketSize
  · rw [if_pos hlong]
  · rw [if_neg hlong]
    have hblack : Blacklisted cfg (saddrAt st.pkt h.iph) := by
      refine hfiltered.resolve_right fun hgt => hlong ?_
      exact UInt32.lt_iff_toNat_lt.mpr (by rwa [hpacketLen])
    rw [htrie, if_pos ((lpmLookup_seeded hload _).mpr hblack)]

/-! ## The program -/

/-- The destination port is compared in network order. -/
theorem readLe16_port {pkt : List UInt8} {off : Nat} (hin : off + 2 ≤ pkt.length)
    (hport : fieldAt pkt off = 53) : readLe16 pkt off = .ok (bpfHtons 53) := by
  have hnat := congrArg UInt16.toNat hport
  rw [fieldAt, be16_toNat] at hnat
  have h53 : (53 : UInt16).toNat = 53 := rfl
  have hswap : (bpfHtons 53).toNat = 13568 := rfl
  unfold readLe16
  rw [readAt_ok (by omega), ok_bind, readAt_ok (by omega), ok_bind]
  congr 1
  rw [← UInt16.toNat_inj, be16_toNat, hswap]
  omega

section Router

variable {cfg : Config} {st : XdpState} {h : Headers} (clock : Clock)
  (hheaders : parseEthIpv4Udp st.pkt = .ok (some h)) (hport : fieldAt st.pkt (h.udp + 2) = 53)

include hheaders

theorem inFrame_of_parse : h.InFrame st.pkt := by
  obtain ⟨r, hr, hin⟩ := parseEthIpv4Udp_safe st.pkt
  exact hin h (Except.ok.inj (hr.symm.trans hheaders))

include hport

/-- After the port check the program asks the DNS parser. -/
theorem router_port53 :
    router cfg clock st = parseDnsQuery st.pkt h.udp >>= fun
      | none => st.finish .pass
      | some qmeta =>
        globalPreRoute (macros cfg) st.maps st.pkt h.iph qmeta (UInt32.ofNat st.pkt.length) >>=
          fun verdict => if verdict ≠ 0 then st.finish .drop else dispatch cfg clock h qmeta st := by
  have hudp := (inFrame_of_parse hheaders).udp
  unfold router xdpRouter
  rw [hheaders, ok_bind]
  dsimp only
  rw [readLe16_port (by omega) hport, ok_bind]
  exact if_neg (not_not.mpr rfl)

/-- A payload that is not a query is passed before any filter runs. -/
theorem router_of_not_query (hquery : parseDnsQuery st.pkt h.udp = .ok none) :
    router cfg clock st = st.finish .pass := by
  rw [router_port53 clock hheaders hport, hquery, ok_bind]

end Router

/-- **A filtered frame is dropped exactly when its payload is a query.** The filters run behind
    the DNS parser, so a blacklisted or oversized frame to port 53 with any other payload is
    passed. The length of a frame fits the 32-bit ends of `struct xdp_md`. -/
theorem filtered_dropped_iff (cfg : Config) (clock : Clock) (maps : Maps)
    (hload : seedBlacklistMap cfg .created = .ok maps) (st : XdpState)
    (htrie : st.maps.ipBlacklist = maps.ipBlacklist) (hlen : st.pkt.length < 2 ^ 32) (h : Headers)
    (hheaders : parseEthIpv4Udp st.pkt = .ok (some h)) (hport : fieldAt st.pkt (h.udp + 2) = 53)
    (hfiltered : Filtered cfg st.pkt h) :
    (∃ st', router cfg clock st = .ok (.val .drop, st')) ↔ ∃ ls, IsQuery st.pkt h.udp ls := by
  have hin := inFrame_of_parse hheaders
  constructor
  · rintro ⟨st', hdrop⟩
    by_contra hno
    have hpass : router cfg clock st = st.finish .pass := router_of_not_query clock hheaders hport
      (parseDnsQuery_of_not_isQuery fun ls hls => hno ⟨ls, hls⟩)
    rw [hpass] at hdrop
    cases hdrop
  · rintro ⟨ls, hls⟩
    refine ⟨st, ?_⟩
    rw [router_port53 clock hheaders hport, parseDnsQuery_of_isQuery hls, ok_bind]
    dsimp only
    rw [globalPreRoute_filtered hload htrie hlen hin hfiltered, ok_bind, if_pos (by decide)]
    rfl

/-- One route, and the network 192.0.2.0/24 on the blacklist. -/
def blacklistDocument : YamlDocument where
  nodes :=
    [.mapping [(2, 3), (9, 10)],
      .scalar (ascii "routes"), .sequence [4],
      .mapping [(5, 6), (7, 8)],
      .scalar (ascii "domain"), .scalar (ascii "a"),
      .scalar (ascii "target"), .scalar (ascii "user_space"),
      .scalar (ascii "blacklist"), .sequence [11],
      .scalar (ascii "192.0.2.0/24")]

def blacklistConfig : Config :=
  { configInitDefaults with
    blacklist := [CStr.lit "192.0.2.0/24"]
    routes := [{ sampleRoute 0 with
      bloomEnabled := false
      bloomSize := 0
      bloomHashFunctions := 0
      bloomSeeds := [] }] }

set_option maxRecDepth 4000 in
theorem parse_blacklistDocument : parseConfigYaml blacklistDocument = .ok blacklistConfig := by
  decide +kernel

theorem parseCidrV4_sample :
    parseCidrV4 (CStr.lit "192.0.2.0/24") = some ⟨24, be32 192 0 2 0⟩ := by
  decide +kernel

theorem seed_blacklistConfig : seedBlacklistMap blacklistConfig .created =
    .ok { Maps.created with ipBlacklist := [⟨24, be32 192 0 2 0⟩] } := by
  simp only [seedBlacklistMap, blacklistConfig, blacklistKeys, parseCidrV4_sample]
  rfl

/-- A frame on the loaded configuration. -/
def blacklistState (pkt : List UInt8) : XdpState :=
  ⟨pkt, { Maps.created with ipBlacklist := [⟨24, be32 192 0 2 0⟩] }, none⟩

theorem filtered_sampleFrame (dns : List UInt8) :
    Filtered blacklistConfig (sampleFrame [192, 0, 2, 1] dns) ⟨14, 34⟩ := by
  have hsaddr : saddrAt (sampleFrame [192, 0, 2, 1] dns) 14 = be32 192 0 2 1 := rfl
  refine .inl ⟨_, List.mem_singleton_self _, _, parseCidrV4_sample, ?_⟩
  rw [hsaddr]
  decide +kernel

theorem filtered_dropped_sample :
    ∃ st', router blacklistConfig ⟨0, 0, 0⟩
      (blacklistState (sampleFrame [192, 0, 2, 1] sampleQuestion)) = .ok (.val .drop, st') :=
  (filtered_dropped_iff blacklistConfig ⟨0, 0, 0⟩ _ seed_blacklistConfig
    (blacklistState (sampleFrame [192, 0, 2, 1] sampleQuestion)) rfl (by decide) ⟨14, 34⟩ rfl
    (by decide) (filtered_sampleFrame _)).mpr
    (((parseDnsQuery_iff _ _ sampleQuery).mp rfl).imp fun _ hls => hls.1)

/-- A datagram without a DNS header from the blacklisted network is passed. -/
theorem filtered_frame_passed :
    ¬ ∀ (doc : YamlDocument) (cfg : Config), parseConfigYaml doc = .ok cfg →
      ∀ (clock : Clock) (maps : Maps), seedBlacklistMap cfg .created = .ok maps →
        ∀ st : XdpState, st.maps.ipBlacklist = maps.ipBlacklist → st.pkt.length < 2 ^ 32 →
          ∀ h : Headers, parseEthIpv4Udp st.pkt = .ok (some h) →
            fieldAt st.pkt (h.udp + 2) = 53 → Filtered cfg st.pkt h →
              ∃ st', router cfg clock st = .ok (.val .drop, st') := by
  intro hall
  obtain ⟨st', hdrop⟩ := hall blacklistDocument blacklistConfig parse_blacklistDocument ⟨0, 0, 0⟩
    _ seed_blacklistConfig (blacklistState (sampleFrame [192, 0, 2, 1] [])) rfl
    (by decide) ⟨14, 34⟩ rfl (by decide) (filtered_sampleFrame _)
  have hpass : router blacklistConfig ⟨0, 0, 0⟩ (blacklistState (sampleFrame [192, 0, 2, 1] [])) =
      XdpState.finish _ .pass :=
    router_of_not_query (h := ⟨14, 34⟩) ⟨0, 0, 0⟩ rfl (by decide) rfl
  rw [hpass] at hdrop
  cases hdrop

end Zereh.Link
