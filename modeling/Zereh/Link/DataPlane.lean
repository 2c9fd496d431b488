/-
  What the loaded router does to a run of frames, as a policy over the configuration.

  `policyStep` is the component in its own terms: a frame is passed, dropped or sent on by what its
  query asks (`portQuery`), what the document forbids, which route the name has (`routeOf`), what the
  route allows, and how many frames of the route came before it in the same second. It has no maps,
  no loops and no faults; all it remembers is the seconds of earlier frames.

  `router_run_policy`: on maps as the loader seeds them, every run of the written program with a
  clock that does not go back gives the verdicts of the policy, when no string holds a placeholder.
  Behind it are one lemma for each part of the program (`nameOk_iff_allowed`, `lateFilters_iff`,
  `selectRoute_eq`, `targetAction_eq`), the step condition `simulation_router`, and `Simulation.run`.

  What holds of the policy then holds of the program: a limited route lets no more frames of a second
  through than its quota (`router_run_quota`).

  The policy is about one CPU, which has its own rate states.
-/
import Zereh.Lib.Simulation
import Zereh.Link.Fragments
import Zereh.Link.HashAgree
import Zereh.Link.Isolation
import Zereh.Link.ProgArray
import Zereh.Link.SharedBloom
import Zereh.Link.Source
import Zereh.Xdp.ProofOfWork

namespace Zereh.Link

open Lib CText Control Xdp

/-! ## The written program -/

/-- One frame through the written program, on the maps that the frames before it left. -/
def generatedStep (cfg : Config) (maps : Maps) (frame : Frame) : Checked (Verdict × Maps) := do
  let (out, st) ← generatedRouter cfg frame.clock ⟨frame.pkt, maps, none⟩
  .ok (⟨out, st.pkt, st.redirectTo⟩, st.maps)

theorem generatedStep_eq {cfg : Config} (hacc : cfg.Accepted) (hfree : PlaceholderFree cfg) :
    generatedStep cfg = routerStep cfg := by
  unfold generatedStep routerStep
  rw [generatedRouter_eq hacc.routes_ne hfree]

/-! ## Seeded maps -/

/-- The maps after the three calls that `zereh_load_and_swap_xdp` makes on a new object. -/
def seedMaps (cfg : Config) (now : UInt64) (obj : BpfObject) (updated : Nat → Bool) : Option Maps :=
  match seedBlacklistMap cfg .created with
  | .error _ => none
  | .ok maps =>
    match seedProgArray obj updated cfg (seedBloomMap cfg now maps) with
    | .error _ => none
    | .ok maps => some maps

/-- The program of a slot: that of the last route with its index. -/
def boundProgram (obj : BpfObject) (routes : List Route) (key : Nat) : Option Nat :=
  ((routes.filter fun r => r.target = .xdpProg ∧ r.progIndex.toNat = key).getLast?).bind fun r =>
    (tailProgram obj r).toOption.map Prod.fst

/-! ## The policy -/

/-- The query of a frame to port 53. -/
def portQuery (pkt : List UInt8) : Option (Headers × DnsQueryMeta) :=
  match parseEthIpv4Udp pkt with
  | .ok (some h) =>
    if fieldAt pkt (h.udp + 2) = 53 then
      match parseDnsQuery pkt h.udp with
      | .ok (some qmeta) => some (h, qmeta)
      | _ => none
    else none
  | _ => none

/-- The test of a fallback rule: the domain as it is written ends the name. -/
def literalEnds (qname : List UInt8) (r : Route) : Bool :=
  decide (r.domain.len < 128 ∧ r.domain.bytes <:+ qname)

/-- The tests of the patterns, as they are written. -/
def PatternsPass (qname : List UInt8) (r : Route) : Prop :=
  (r.prefixMatch.bytes = [] ∨ r.prefixMatch.len < 128 ∧ r.prefixMatch.bytes <+: qname) ∧
    (r.suffixMatch.bytes = [] ∨ r.suffixMatch.len < 128 ∧ r.suffixMatch.bytes <:+ qname)

/-- The route of a name: the one with its hash, else the first one whose domain ends the name. -/
def routeOf (cfg : Config) (name : List UInt8) : Option (Route × Nat) :=
  (cfg.routes.zipIdx.find? fun ri => ri.1.hash = hashBytes name cfg.hashAlgo).or
    (cfg.routes.zipIdx.find? fun ri => literalEnds name ri.1)

/-- The index of the route of a frame's query. -/
def routed (cfg : Config) (pkt : List UInt8) : Option Nat :=
  (portQuery pkt).bind fun hq => (routeOf cfg hq.2.qname).map Prod.snd

/-- What a route asks of the query itself. -/
structure NameAllowed (r : Route) (qmeta : DnsQueryMeta) : Prop where
  labels : r.minLabels ≤ qmeta.labelDepth ∧ qmeta.labelDepth ≤ r.maxLabels
  length : r.qnameMinLen.toNat ≤ qmeta.qname.length ∧ qmeta.qname.length ≤ r.qnameMaxLen.toNat
  type : typeAllowed qmeta.qtype r.rrtypeMask = true
  patterns : PatternsPass qmeta.qname r

/-- The current bucket of a time window and the one before it; bucket 0 without a window. -/
def recentBuckets (window : UInt16) (ns : UInt64) : List UInt64 :=
  if window = 0 then [0]
  else
    let bucket := nowSec ns / window.toUInt64
    if bucket > 0 then [bucket, bucket - 1] else [bucket]

/-- The query pays the route's proof of work. -/
def WorkDone (r : Route) (ns hash : UInt64) (dnsId : UInt16) : Prop :=
  r.powDifficulty = 0 ∨
    ∃ bucket ∈ recentBuckets r.powTimeWindow ns, powBucketOk hash dnsId r.powDifficulty bucket = true

/-- The name passes the route's Bloom filter, if it has one. -/
def Listed (cfg : Config) (loaded : UInt64) (r : Route) (ns hash : UInt64) : Prop :=
  r.bloomEnabled = true → Admits (configKeys cfg loaded) r ns hash

/-- Where an admitted frame goes, with these sockets bound. -/
def targetVerdict (cfg : Config) (obj : BpfObject) (sockets : Nat → Bool) (r : Route) (h : Headers)
    (pkt : List UInt8) : Verdict :=
  match r.target with
  | .userSpace =>
    if r.xskQueue.toNat < xskMapEntries ∧ sockets r.xskQueue.toNat then
      ⟨.val .redirect, pkt, some r.xskQueue.toNat⟩
    else ⟨.val .aborted, pkt, none⟩
  | .kernelSpace => ⟨.val .pass, if fieldAt pkt (h.udp + 2) = r.kernelPort then pkt
      else storeDport pkt h (bpfHtons r.kernelPort), none⟩
  | .xdpProg =>
    match boundProgram obj cfg.routes r.progIndex.toNat with
    | some prog => ⟨.leave prog, pkt, none⟩
    | none => ⟨.val .drop, pkt, none⟩

/-- The seconds in which frames of each route came to its limiter, newest first. -/
abbrev Charges := Nat → List UInt64

section Policy

variable (doc : YamlDocument) (cfg : Config) (loaded : UInt64) (obj : BpfObject)
  (sockets : Nat → Bool)

open Classical in
/-- A frame of route `i` whose name is allowed: within the quota of its second, paid for and listed,
    it goes to its target. -/
noncomputable def chargedVerdict (charges : Charges) (frame : Frame) (h : Headers)
    (qmeta : DnsQueryMeta) (r : Route) (i : Nat) : Verdict :=
  if (r.rateLimitQps = 0 ∨
        (charges i).count (nowSec frame.clock.rateNs) < r.rateLimitQps.toNat) ∧
      WorkDone r frame.clock.powNs (hashBytes qmeta.qname cfg.hashAlgo) qmeta.dnsId ∧
      Listed cfg loaded r frame.clock.bloomNs (hashBytes qmeta.qname cfg.hashAlgo) then
    targetVerdict cfg obj sockets r h frame.pkt
  else ⟨.val .drop, frame.pkt, none⟩

open Classical in
/-- What the configuration makes of a frame, and the charges after it. -/
noncomputable def policyStep (charges : Charges) (frame : Frame) : Verdict × Charges :=
  match portQuery frame.pkt with
  | none => (⟨.val .pass, frame.pkt, none⟩, charges)
  | some (h, qmeta) =>
    if Forbidden doc cfg (saddrAt frame.pkt h.iph) qmeta (UInt32.ofNat frame.pkt.length) then
      (⟨.val .drop, frame.pkt, none⟩, charges)
    else
      match routeOf cfg qmeta.qname with
      | none => (⟨.val (actionOfDefault cfg.defaultAction), frame.pkt, none⟩, charges)
      | some (r, i) =>
        if NameAllowed r qmeta then
          (chargedVerdict cfg loaded obj sockets charges frame h qmeta r i,
            Function.update charges i (nowSec frame.clock.rateNs :: charges i))
        else (⟨.val .drop, frame.pkt, none⟩, charges)

/-- The verdicts of a run from a fresh load. -/
noncomputable def policyRun (frames : List Frame) : List Verdict :=
  (answers (policyStep doc cfg loaded obj sockets) frames fun _ => []).1

end Policy

/-! ## From the frame to the query -/

/-- `bpf_htons` swaps the two bytes. -/
theorem toNat_bpfHtons (v : UInt16) : (bpfHtons v).toNat = 256 * (v.toNat % 256) + v.toNat / 256 := by
  have hlt := v.toNat_lt
  have hor := Nat.two_pow_add_eq_or_of_lt (i := 8) (b := v.toNat / 256) (by omega) (v.toNat % 256)
  have hhigh : v.toNat * 256 % 65536 = 2 ^ 8 * (v.toNat % 256) := by omega
  unfold bpfHtons
  rw [UInt16.toNat_or, UInt16.toNat_shiftLeft, UInt16.toNat_shiftRight]
  simp only [UInt16.reduceToNat, Nat.reduceMod, Nat.shiftLeft_eq, Nat.shiftRight_eq_div_pow,
    Nat.reducePow]
  rw [hhigh, ← hor]

theorem bpfHtons_inj {v w : UInt16} (h : bpfHtons v = bpfHtons w) : v = w := by
  have hnat := congrArg UInt16.toNat h
  rw [toNat_bpfHtons, toNat_bpfHtons] at hnat
  have hv := v.toNat_lt
  have hw := w.toNat_lt
  exact UInt16.toNat_inj.mp (by omega)

/-- A `__be16` as the machine loads it. -/
theorem le16At_eq_bpfHtons (pkt : List UInt8) (off : Nat) :
    le16At pkt off = bpfHtons (fieldAt pkt off) := by
  have hhi := (byteAt pkt off).toNat_lt
  have hlo := (byteAt pkt (off + 1)).toNat_lt
  rw [← UInt16.toNat_inj, toNat_bpfHtons, le16At, fieldAt, be16_toNat, be16_toNat]
  omega

theorem le16At_eq_bpfHtons_iff (pkt : List UInt8) (off : Nat) (port : UInt16) :
    le16At pkt off = bpfHtons port ↔ fieldAt pkt off = port := by
  rw [le16At_eq_bpfHtons]
  exact ⟨bpfHtons_inj, congrArg bpfHtons⟩

theorem portQuery_eq_some_iff {pkt : List UInt8} {h : Headers} {qmeta : DnsQueryMeta} :
    portQuery pkt = some (h, qmeta) ↔ parseEthIpv4Udp pkt = .ok (some h) ∧
      fieldAt pkt (h.udp + 2) = 53 ∧ parseDnsQuery pkt h.udp = .ok (some qmeta) := by
  unfold portQuery
  constructor
  · intro hsome
    split at hsome
    · rename_i h' hheaders
      split_ifs at hsome with hport
      split at hsome
      · rename_i q hq
        cases hsome
        exact ⟨hheaders, hport, hq⟩
      · cases hsome
    · cases hsome
  · rintro ⟨hheaders, hport, hquery⟩
    rw [hheaders]
    dsimp only
    rw [if_pos hport, hquery]

theorem inFrame_of_portQuery {pkt : List UInt8} {h : Headers} {qmeta : DnsQueryMeta}
    (hquery : portQuery pkt = some (h, qmeta)) : h.InFrame pkt := by
  obtain ⟨r, hr, hin⟩ := parseEthIpv4Udp_safe pkt
  exact hin h (Except.ok.inj (hr.symm.trans (portQuery_eq_some_iff.mp hquery).1))

/-- A frame that brings no query to port 53 is passed. -/
theorem router_of_portQuery_none {cfg : Config} {clock : Clock} {st : XdpState}
    (h : portQuery st.pkt = none) : router cfg clock st = st.finish .pass := by
  refine router_of_not_readsAsQuery cfg clock st ?_
  rintro ⟨hd, hheaders, hport, ls, hls⟩
  rw [portQuery_eq_some_iff.mpr ⟨hheaders, hport, parseDnsQuery_of_isQuery hls⟩] at h
  cases h

/-! ## The filters of a route -/

section Filters

variable {algo : HashAlgorithm} {r : Route}

theorem nameOk_iff {algo : HashAlgorithm} {r : Route} (hr : r.Accepted algo) (i : Nat)
    (hash : UInt64) (qmeta : DnsQueryMeta) :
    (routeFilters r i hash).NameOk qmeta ↔
      (¬ (qmeta.labelDepth < r.minLabels ∨ qmeta.labelDepth > r.maxLabels) ∧
        ¬ (qmeta.qnameLen < r.qnameMinLen.toNat ∨ qmeta.qnameLen > r.qnameMaxLen.toNat) ∧
        typeAllowed qmeta.qtype r.rrtypeMask = true) ∧ PatternsPass qmeta.qname r := by
  have hpfx := matchPrefix_iff qmeta.qname (Nat.le_trans hr.texts.prefix_len (by decide))
  have hsfx := matchSuffix_iff qmeta.qname (Nat.le_trans hr.texts.suffix_len (by decide))
  constructor
  · intro h
    exact ⟨⟨h.labels, h.length, h.type⟩, hpfx.mp h.prefixOk, hsfx.mp h.suffixOk⟩
  · rintro ⟨⟨hlabels, hlength, htype⟩, hp, hs⟩
    exact ⟨hlabels, hlength, htype, hpfx.mpr hp, hsfx.mpr hs⟩

theorem nameOk_iff_allowed (hr : r.Accepted algo) (i : Nat) (hash : UInt64) (qmeta : DnsQueryMeta) :
    (routeFilters r i hash).NameOk qmeta ↔ NameAllowed r qmeta := by
  rw [nameOk_iff hr, not_or, not_or, UInt8.not_lt, gt_iff_lt, UInt8.not_lt, Nat.not_lt, gt_iff_lt,
    Nat.not_lt]
  constructor
  · rintro ⟨⟨hlabels, hlength, htype⟩, hpatterns⟩
    exact ⟨hlabels, hlength, htype, hpatterns⟩
  · intro h
    exact ⟨⟨h.labels, h.length, h.type⟩, h.patterns⟩

theorem powAllow_iff_workDone (r : Route) (ns hash : UInt64) (dnsId : UInt16) :
    powAllow ns hash dnsId r.powDifficulty r.powTimeWindow = .ok true ↔ WorkDone r ns hash dnsId := by
  unfold WorkDone recentBuckets
  by_cases hd : r.powDifficulty = 0
  · rw [powAllow, if_pos hd]
    exact iff_of_true rfl (.inl hd)
  rw [or_iff_right hd]
  by_cases hw : r.powTimeWindow = 0
  · rw [powAllow, if_neg hd, if_pos hw, if_pos hw, Except.ok.injEq]
    simp
  · rw [powAllow_iff hd hw, if_neg hw]
    dsimp only
    split_ifs with hpos
    · simp [hpos]
    · simp [hpos]

/-- Proof of work and the Bloom filter, on words as the loader left them. -/
theorem lateFilters_iff {cfg : Config} (hacc : cfg.Accepted) (hr : r ∈ cfg.routes) (loaded : UInt64)
    {maps : Maps} (hbloom : maps.powBloom = (seedBloomMap cfg loaded .created).powBloom) (i : Nat)
    (hash : UInt64) (clock : Clock) (qmeta : DnsQueryMeta) :
    lateFilters (routeFilters r i hash) clock maps qmeta = .ok true ↔
      WorkDone r clock.powNs hash qmeta.dnsId ∧ Listed cfg loaded r clock.bloomNs hash := by
  rw [lateFilters_congr hbloom, ← powAllow_iff_workDone]
  obtain ⟨pow, hpow, -⟩ := powAllow_safe clock.powNs hash qmeta.dnsId r.powDifficulty r.powTimeWindow
  have hargs : lateFilters (routeFilters r i hash) clock (seedBloomMap cfg loaded .created) qmeta =
      if pow = true then
        if r.bloomEnabled = true then bloomAllow (seedBloomMap cfg loaded .created) clock.bloomNs hash
          r.bloomSize r.bloomHashFunctions r.bloomTimeWindow
        else .ok true
      else .ok false := by
    unfold lateFilters routeFilters
    dsimp only
    rw [hpow, ok_bind]
    cases pow <;> cases r.bloomEnabled <;> rfl
  rw [hargs, hpow, Except.ok.injEq]
  unfold Listed
  cases pow with
  | false => simp
  | true =>
    rw [if_pos rfl]
    cases hon : r.bloomEnabled with
    | false => simp
    | true => simpa using bloomAllow_iff_admits hacc hr hon loaded .created clock.bloomNs hash

end Filters

/-! ## The route of a name -/

/-- The fallback of the reference interpreter is a search for the literals. -/
theorem suffixRoute_eq (qmeta : DnsQueryMeta) {routes : List (Route × Nat)}
    (h : ∀ ri ∈ routes, ri.1.domain.bytes ≠ [] ∧ ri.1.domain.len ≤ 255) :
    suffixRoute qmeta routes = .ok (routes.find? fun ri => literalEnds qmeta.qname ri.1) := by
  induction routes with
  | nil => rfl
  | cons ri routes ih =>
    obtain ⟨hne, hlen⟩ := h ri (.head _)
    have htest : matchSuffix qmeta.qname qmeta.qnameLen ri.1.domain.bytes
        (UInt16.ofNat ri.1.domain.len) = .ok (literalEnds qmeta.qname ri.1) := by
      refine (matchSuffix_eq qmeta.qname hlen).trans (congrArg Except.ok (decide_eq_decide.mpr ?_))
      exact or_iff_right hne
    obtain ⟨r, i⟩ := ri
    rw [suffixRoute, htest, ok_bind, List.find?_cons, ih fun ri hri => h ri (.tail _ hri)]
    cases literalEnds qmeta.qname r <;> rfl

theorem selectRoute_eq {cfg : Config} (hacc : cfg.Accepted) (qmeta : DnsQueryMeta) :
    selectRoute cfg qmeta (hashBytes qmeta.qname cfg.hashAlgo) = .ok (routeOf cfg qmeta.qname) := by
  have hdomains : ∀ ri ∈ cfg.routes.zipIdx, ri.1.domain.bytes ≠ [] ∧ ri.1.domain.len ≤ 255 := by
    intro ri hri
    have htexts := (hacc.routes ri.1 (List.fst_mem_of_mem_zipIdx hri)).texts
    exact ⟨htexts.domain_ne, htexts.domain_len⟩
  unfold selectRoute routeOf
  split
  · rename_i ri hri
    rw [hri]
    rfl
  · rename_i hnone
    rw [hnone, Option.none_or]
    exact suffixRoute_eq qmeta hdomains

/-! ## Targets -/

/-- The loop over the routes leaves in each slot the program of the last route with its index. -/
theorem bindLoop_progArray {obj : BpfObject} {updated : Nat → Bool} (key : Nat) (routes : List Route)
    (i : Nat) {maps maps' : Maps}
    (h : bindLoop obj (obj.findProgramByName (ascii "zereh_app_default")) updated i routes maps =
      .ok maps') :
    maps'.progArray key = match (routes.filter fun r =>
        r.target = .xdpProg ∧ r.progIndex.toNat = key).getLast? with
      | some r => (tailProgram obj r).toOption.map Prod.fst
      | none => maps.progArray key := by
  induction routes generalizing i maps with
  | nil =>
    cases h
    rfl
  | cons first routes ih =>
    obtain ⟨maps1, h1, h⟩ := bind_eq_ok h
    rw [ih (i + 1) h]
    by_cases htarget : first.target = .xdpProg
    · obtain ⟨hindex, hupdated, prog, name, hprog, hfd⟩ := bindable_of_bindRoute htarget h1
      rw [bindRoute_of_bindable htarget hindex hupdated hprog hfd] at h1
      cases h1
      by_cases hkey : first.progIndex.toNat = key
      · rw [List.filter_cons_of_pos (by simp [htarget, hkey]), List.getLast?_cons]
        cases hlast : (routes.filter fun r =>
            r.target = .xdpProg ∧ r.progIndex.toNat = key).getLast? with
        | some r => rfl
        | none =>
          have hslot : (setProg maps first.progIndex.toNat prog).progArray key = some prog := by
            rw [← hkey]
            exact Function.update_self ..
          dsimp only [Option.getD_none]
          rw [hslot, hprog]
          rfl
      · have hslot : (setProg maps first.progIndex.toNat prog).progArray key = maps.progArray key :=
          Function.update_of_ne (Ne.symm hkey) ..
        rw [List.filter_cons_of_neg (by simp [hkey]), hslot]
    · rw [bindRoute_of_ne htarget] at h1
      cases h1
      rw [List.filter_cons_of_neg (by simp [htarget])]

theorem seedProgArray_progArray {obj : BpfObject} {updated : Nat → Bool} {cfg : Config}
    {maps maps' : Maps} (h : seedProgArray obj updated cfg maps = .ok maps')
    (hempty : ∀ key, maps.progArray key = none) (key : Nat) :
    maps'.progArray key = boundProgram obj cfg.routes key := by
  rw [bindLoop_progArray key cfg.routes 0 h, boundProgram]
  split
  · rename_i hlast
    rw [hlast]
    rfl
  · rename_i hlast
    rw [hlast, hempty key]
    rfl

/-- Nothing but the array of programs is written. -/
theorem bindLoop_maps {obj : BpfObject} {updated : Nat → Bool} (routes : List Route) (i : Nat)
    {maps maps' : Maps}
    (h : bindLoop obj (obj.findProgramByName (ascii "zereh_app_default")) updated i routes maps =
      .ok maps') : maps' = { maps with progArray := maps'.progArray } := by
  induction routes generalizing i maps with
  | nil =>
    cases h
    rfl
  | cons first routes ih =>
    obtain ⟨maps1, h1, h⟩ := bind_eq_ok h
    rw [ih (i + 1) h]
    by_cases htarget : first.target = .xdpProg
    · obtain ⟨hindex, hupdated, prog, name, hprog, hfd⟩ := bindable_of_bindRoute htarget h1
      rw [bindRoute_of_bindable htarget hindex hupdated hprog hfd] at h1
      cases h1
      rfl
    · rw [bindRoute_of_ne htarget] at h1
      cases h1
      rfl

theorem targetAction_eq {cfg : Config} {obj : BpfObject} {r : Route} {h : Headers} {pkt : List UInt8}
    {maps : Maps} (hin : h.InFrame pkt)
    (hprogs : ∀ key, maps.progArray key = boundProgram obj cfg.routes key)
    (hindex : r.target = .xdpProg → r.progIndex < progArrayMax) :
    targetAction r h ⟨pkt, maps, none⟩ = .ok ((targetVerdict cfg obj maps.xskMap r h pkt).out,
      ⟨(targetVerdict cfg obj maps.xskMap r h pkt).pkt, maps,
        (targetVerdict cfg obj maps.xskMap r h pkt).redirectTo⟩) := by
  unfold targetAction targetVerdict
  cases htarget : r.target with
  | userSpace =>
    dsimp only
    unfold bpfRedirectMap
    by_cases hbound : r.xskQueue.toNat < xskMapEntries ∧ maps.xskMap r.xskQueue.toNat
    · rw [if_pos hbound, if_pos hbound]
      rfl
    · rw [if_neg hbound, if_neg hbound]
      rfl
  | kernelSpace =>
    dsimp only
    unfold routeKernelSpace
    rw [rewriteDaddr, if_pos rfl, ok_bind, rewriteDport_ok _ hin.udp, ok_bind]
    simp only [le16At_eq_bpfHtons_iff]
    rfl
  | xdpProg =>
    have hlt : r.progIndex.toNat < progArrayEntries := UInt32.lt_iff_toNat_lt.mp (hindex htarget)
    dsimp only
    unfold bpfTailCall
    rw [if_pos hlt]
    dsimp only
    rw [hprogs]
    cases boundProgram obj cfg.routes r.progIndex.toNat with
    | some prog => rfl
    | none => rfl

/-! ## One frame -/

/-- The maps of a router in service: as they were seeded, but for the sockets that were bound since
    and the rate states, which count the charges so far. -/
structure Serving (cfg : Config) (loaded : UInt64) (obj : BpfObject) (sockets : Nat → Bool) (maps : Maps)
    (charges : Charges) : Prop where
  blacklist : ∃ maps0, seedBlacklistMap cfg .created = .ok maps0 ∧
    maps.ipBlacklist = maps0.ipBlacklist
  bloom : maps.powBloom = (seedBloomMap cfg loaded .created).powBloom
  sockets : maps.xskMap = sockets
  progs : ∀ key, maps.progArray key = boundProgram obj cfg.routes key
  bound : ∀ r ∈ cfg.routes, r.target = .xdpProg → r.progIndex < progArrayMax
  rate : ∀ i r, cfg.routes[i]? = some r → 0 < r.rateLimitQps →
    Counts r.rateLimitQps (charges i) (maps.routeRateState i)

/-- Seeding writes the blacklist, the Bloom words and the array of programs. -/
theorem seedMaps_cases {cfg : Config} {now : UInt64} {obj : BpfObject} {updated : Nat → Bool}
    {maps : Maps} (h : seedMaps cfg now obj updated = some maps) :
    ∃ maps0, seedBlacklistMap cfg .created = .ok maps0 ∧
      seedProgArray obj updated cfg (seedBloomMap cfg now maps0) = .ok maps ∧
      maps = { Maps.created with
        ipBlacklist := maps0.ipBlacklist
        powBloom := (seedBloomMap cfg now .created).powBloom
        progArray := maps.progArray } := by
  unfold seedMaps at h
  split at h
  · cases h
  · rename_i maps0 hblack
    split at h
    · cases h
    · rename_i maps1 hprogs
      cases h
      refine ⟨maps0, hblack, hprogs, ?_⟩
      obtain ⟨keys, -, hkeys⟩ := bind_eq_ok hblack
      cases hkeys
      exact bindLoop_maps cfg.routes 0 hprogs

theorem serving_seedMaps {cfg : Config} {now : UInt64} {obj : BpfObject} {updated : Nat → Bool}
    {maps : Maps} (h : seedMaps cfg now obj updated = some maps) (sockets : Nat → Bool) :
    Serving cfg now obj sockets { maps with xskMap := sockets } fun _ => [] := by
  obtain ⟨maps0, hblack, hprogs, hmaps⟩ := seedMaps_cases h
  have hempty : ∀ key, (seedBloomMap cfg now maps0).progArray key = none := by
    obtain ⟨keys, -, hkeys⟩ := bind_eq_ok hblack
    cases hkeys
    exact fun _ => rfl
  have hslots := seedProgArray_progArray hprogs hempty
  refine ⟨⟨maps0, hblack, by rw [hmaps]⟩, by rw [hmaps], rfl, hslots, fun r hr htarget => ?_,
    fun i r _ _ => ?_⟩
  · obtain ⟨k, hk⟩ := List.mem_iff_getElem?.mp hr
    exact ((bindLoop_isOk_iff obj updated cfg.routes 0 _).mp ⟨_, hprogs⟩ k r hk htarget).1
  · have hzero : maps.routeRateState i = {} := by
      rw [hmaps]
      rfl
    dsimp only
    rw [hzero]
    exact counts_zero _

section Step

variable {doc : YamlDocument} {cfg : Config} (hparse : parseConfigYaml doc = .ok cfg)
  (hnodup : (cfg.routes.map (·.hash)).Nodup) {loaded : UInt64} {obj : BpfObject}
  {sockets : Nat → Bool} {maps : Maps} {charges : Charges}
  (hserv : Serving cfg loaded obj sockets maps charges)

/-- A frame before `frame` came to no limiter later than `frame` does. -/
def NotBefore (charges : Charges) (frame : Frame) : Prop :=
  ∀ i, (charges i).head?.getD 0 ≤ nowSec frame.clock.rateNs

include hserv

include hparse in
/-- The global filters of a router in service drop what the document forbids. -/
theorem Serving.globalPreRoute_eq_ite {pkt : List UInt8} {iph : Nat} (hin : iph + 20 ≤ pkt.length)
    (qmeta : DnsQueryMeta) (packetLen : UInt32) [Decidable
      (Forbidden doc cfg (saddrAt pkt iph) qmeta packetLen)] :
    globalPreRoute (macros cfg) maps pkt iph qmeta packetLen =
      .ok (if Forbidden doc cfg (saddrAt pkt iph) qmeta packetLen then -1 else 0) := by
  obtain ⟨maps0, hseed, htrie⟩ := hserv.blacklist
  have hmask : (macros cfg).allowedOpcodeMask.toNat = cfg.allowedOpcodeMask.toNat :=
    UInt16.toNat_toUInt32 _
  rw [globalPreRoute_eq hin (by rw [hmask]; exact UInt16.toNat_lt _)]
  refine congrArg Except.ok (if_congr ?_ rfl rfl)
  rw [htrie, lpmLookup_seeded hseed, blacklisted_iff hparse, hmask, ← Bool.not_eq_true,
    testBit_allowedOpcodeMask hparse]
  rfl

/-- The limiter of a route decides by the charges of its second, and counts the frame. -/
theorem Serving.limit {i : Nat} {r : Route} (hr : cfg.routes[i]? = some r)
    (hid : (UInt32.ofNat i).toNat = i ∧ UInt32.ofNat i < (macros cfg).rateStateEntries)
    {ns : UInt64} (hnow : (charges i).head?.getD 0 ≤ nowSec ns) :
    ((rateLimitAllow (macros cfg).rateStateEntries ns (UInt32.ofNat i) r.rateLimitQps maps).1 = true ↔
      r.rateLimitQps = 0 ∨ (charges i).count (nowSec ns) < r.rateLimitQps.toNat) ∧
    Serving cfg loaded obj sockets
      (rateLimitAllow (macros cfg).rateStateEntries ns (UInt32.ofNat i) r.rateLimitQps maps).2
      (Function.update charges i (nowSec ns :: charges i)) := by
  by_cases hq : r.rateLimitQps = 0
  · rw [rateLimitAllow, if_pos hq]
    refine ⟨iff_of_true rfl (.inl hq), hserv.blacklist, hserv.bloom, hserv.sockets, hserv.progs,
      hserv.bound, fun j s hs hpos => ?_⟩
    by_cases hj : j = i
    · subst hj
      obtain rfl : r = s := Option.some.inj (hr.symm.trans hs)
      exact absurd hpos (by rw [hq]; decide)
    · rw [Function.update_of_ne hj]
      exact hserv.rate j s hs hpos
  · have hpos := UInt32.pos_iff_ne_zero.mpr hq
    obtain ⟨hdecides, hcounts⟩ := rateStep_counts hpos (hserv.rate i r hr hpos) hnow
    rw [rateLimitAllow_eq hpos hid.2, hid.1, hdecides, decide_eq_true_iff, or_iff_right hq]
    refine ⟨Iff.rfl, hserv.blacklist, hserv.bloom, hserv.sockets, hserv.progs, hserv.bound,
      fun j s hs hsq => ?_⟩
    by_cases hj : j = i
    · subst hj
      obtain rfl : r = s := Option.some.inj (hr.symm.trans hs)
      rw [setRate_self, Function.update_self]
      exact hcounts
    · rw [setRate_of_ne _ hj, Function.update_of_ne hj]
      exact hserv.rate j s hs hsq

omit hserv in
/-- A frame whose name the route does not allow is dropped and charged to nobody. -/
theorem takeRoute_refused {i : Nat} {r : Route} (hacc : cfg.Accepted) (hr : r ∈ cfg.routes)
    {qmeta : DnsQueryMeta} (hname : ¬ NameAllowed r qmeta) (clock : Clock) (h : Headers) (hash : UInt64)
    (pkt : List UInt8) :
    takeRoute cfg clock h qmeta hash r i ⟨pkt, maps, none⟩ = .ok (.val .drop, ⟨pkt, maps, none⟩) := by
  have hno := mt (nameOk_iff_allowed (hacc.routes r hr) i hash qmeta).mp hname
  obtain ⟨⟨ok, next⟩, hrun, -⟩ := FilterArgs.apply_safe (routeFilters_sized r i hash)
    (macros cfg).rateStateEntries clock maps qmeta
  obtain ⟨rfl, rfl⟩ := FilterArgs.apply_of_not_nameOk hno hrun
  unfold takeRoute
  rw [hrun, ok_bind]
  rfl

/-- A frame whose name the route allows is charged, and goes where the policy says. -/
theorem Serving.takeRoute_charged (hacc : cfg.Accepted) {i : Nat} {r : Route}
    (hr : cfg.routes[i]? = some r) {qmeta : DnsQueryMeta} (hname : NameAllowed r qmeta) {frame : Frame}
    (hnow : NotBefore charges frame) {h : Headers} (hin : h.InFrame frame.pkt) :
    ∃ maps', takeRoute cfg frame.clock h qmeta (hashBytes qmeta.qname cfg.hashAlgo) r i
        ⟨frame.pkt, maps, none⟩ =
          .ok ((chargedVerdict cfg loaded obj sockets charges frame h qmeta r i).out,
            ⟨(chargedVerdict cfg loaded obj sockets charges frame h qmeta r i).pkt, maps',
              (chargedVerdict cfg loaded obj sockets charges frame h qmeta r i).redirectTo⟩) ∧
      Serving cfg loaded obj sockets maps' (Function.update charges i
        (nowSec frame.clock.rateNs :: charges i)) := by
  have hmem := List.mem_of_getElem? hr
  obtain ⟨hlimit, hnext⟩ := hserv.limit hr (toNat_routeId hacc hr) (hnow i)
  have hlate := lateFilters_iff hacc hmem loaded hserv.bloom i (hashBytes qmeta.qname cfg.hashAlgo)
    frame.clock qmeta
  have happly := apply_eq_lateFilters
    ((nameOk_iff_allowed (hacc.routes r hmem) i (hashBytes qmeta.qname cfg.hashAlgo) qmeta).mpr hname)
    (macros cfg).rateStateEntries frame.clock maps
  have hargs : (routeFilters r i (hashBytes qmeta.qname cfg.hashAlgo)).routeId = UInt32.ofNat i ∧
      (routeFilters r i (hashBytes qmeta.qname cfg.hashAlgo)).rateLimitQps = r.rateLimitQps :=
    ⟨rfl, rfl⟩
  rw [hargs.1, hargs.2] at happly
  generalize hlimited : rateLimitAllow (macros cfg).rateStateEntries frame.clock.rateNs
    (UInt32.ofNat i) r.rateLimitQps maps = limited at hlimit hnext happly
  obtain ⟨allowed, next⟩ := limited
  refine ⟨next, ?_, hnext⟩
  obtain ⟨late, hrun, -⟩ := lateFilters_safe (routeFilters r i (hashBytes qmeta.qname cfg.hashAlgo))
    frame.clock maps qmeta
  rw [hrun, Except.ok.injEq] at hlate
  have htarget := targetAction_eq hin hnext.progs (hnext.bound r hmem)
  rw [hnext.sockets] at htarget
  have hverdict : chargedVerdict cfg loaded obj sockets charges frame h qmeta r i =
      if allowed = true ∧ late = true then targetVerdict cfg obj sockets r h frame.pkt
      else ⟨.val .drop, frame.pkt, none⟩ := by
    classical
    unfold chargedVerdict
    refine if_congr (and_congr hlimit.symm hlate.symm) rfl rfl
  rw [hverdict]
  unfold takeRoute
  rw [happly]
  cases allowed with
  | false => rfl
  | true =>
    rw [if_pos rfl, hrun, ok_bind, ok_bind]
    cases late with
    | false => rfl
    | true =>
      rw [if_pos ⟨rfl, rfl⟩]
      exact htarget

omit hserv in
theorem getElem?_of_routeOf (hacc : cfg.Accepted) {qmeta : DnsQueryMeta} {r : Route} {i : Nat}
    (h : routeOf cfg qmeta.qname = some (r, i)) : cfg.routes[i]? = some r :=
  getElem?_of_selectRoute ((selectRoute_eq hacc qmeta).trans (congrArg Except.ok h))

include hparse hnodup

/-- A query that is not forbidden goes to the reference dispatch. -/
theorem Serving.router_of_query {frame : Frame} {h : Headers} {qmeta : DnsQueryMeta}
    (hquery : portQuery frame.pkt = some (h, qmeta)) [Decidable
      (Forbidden doc cfg (saddrAt frame.pkt h.iph) qmeta (UInt32.ofNat frame.pkt.length))] :
    router cfg frame.clock ⟨frame.pkt, maps, none⟩ =
      if Forbidden doc cfg (saddrAt frame.pkt h.iph) qmeta (UInt32.ofNat frame.pkt.length) then
        .ok (.val .drop, ⟨frame.pkt, maps, none⟩)
      else
        match routeOf cfg qmeta.qname with
        | none => .ok (.val (actionOfDefault cfg.defaultAction), ⟨frame.pkt, maps, none⟩)
        | some (r, i) => takeRoute cfg frame.clock h qmeta (hashBytes qmeta.qname cfg.hashAlgo) r i
            ⟨frame.pkt, maps, none⟩ := by
  obtain ⟨hheaders, hport, hdns⟩ := portQuery_eq_some_iff.mp hquery
  have hacc := accepted_of_parse hparse
  obtain ⟨-, hlen, -, hfnv⟩ := parsed_qname hdns
  have hin := inFrame_of_portQuery hquery
  have hrouter : router cfg frame.clock ⟨frame.pkt, maps, none⟩ = _ :=
    router_port53 frame.clock hheaders hport
  rw [hrouter, hdns, ok_bind]
  dsimp only
  rw [hserv.globalPreRoute_eq_ite hparse hin.ip, ok_bind]
  by_cases hforbidden :
      Forbidden doc cfg (saddrAt frame.pkt h.iph) qmeta (UInt32.ofNat frame.pkt.length)
  · rw [if_pos hforbidden, if_pos hforbidden]
    rfl
  · rw [if_neg hforbidden, if_neg hforbidden, if_neg (not_not.mpr rfl),
      dispatch_eq_refDispatch cfg frame.clock h qmeta hnodup, refDispatch,
      routeHash_eq cfg.hashAlgo hlen hfnv, ok_bind, selectRoute_eq hacc, ok_bind]
    cases routeOf cfg qmeta.qname with
    | none => rfl
    | some ri => rfl

omit hserv in
/-- The program takes a frame as the policy does. -/
theorem simulation_router : Simulation (routerStep cfg) (policyStep doc cfg loaded obj sockets)
    NotBefore (Serving cfg loaded obj sockets) := by
  classical
  intro maps charges frame hserv hnow
  have hacc := accepted_of_parse hparse
  unfold routerStep policyStep
  cases hquery : portQuery frame.pkt with
  | none =>
    have hpass : router cfg frame.clock ⟨frame.pkt, maps, none⟩ = _ := router_of_portQuery_none hquery
    refine ⟨maps, ?_, hserv⟩
    rw [hpass]
    rfl
  | some hq =>
    obtain ⟨h, qmeta⟩ := hq
    rw [hserv.router_of_query hparse hnodup hquery]
    dsimp only
    by_cases hforbidden :
        Forbidden doc cfg (saddrAt frame.pkt h.iph) qmeta (UInt32.ofNat frame.pkt.length)
    · rw [if_pos hforbidden, if_pos hforbidden]
      exact ⟨maps, rfl, hserv⟩
    · rw [if_neg hforbidden, if_neg hforbidden]
      cases hroute : routeOf cfg qmeta.qname with
      | none => exact ⟨maps, rfl, hserv⟩
      | some ri =>
        obtain ⟨r, i⟩ := ri
        have hr := getElem?_of_routeOf hacc hroute
        dsimp only
        by_cases hname : NameAllowed r qmeta
        · have hin := inFrame_of_portQuery hquery
          obtain ⟨maps', hrun, hnext⟩ := hserv.takeRoute_charged hacc hr hname hnow hin
          rw [if_pos hname, hrun]
          exact ⟨maps', rfl, hnext⟩
        · rw [if_neg hname, takeRoute_refused hacc (List.mem_of_getElem? hr) hname]
          exact ⟨maps, rfl, hserv⟩

end Step

/-! ## Runs -/

section Clock

variable {doc : YamlDocument} {cfg : Config} {loaded : UInt64} {obj : BpfObject} {sockets : Nat → Bool}

/-- A frame that is charged to no route is dropped, or it has no route. -/
theorem policyStep_cases (charges : Charges) (frame : Frame) :
    ((policyStep doc cfg loaded obj sockets charges frame).2 = charges ∧
      (routed cfg frame.pkt = none ∨
        (policyStep doc cfg loaded obj sockets charges frame).1.out = .val .drop)) ∨
    ∃ h qmeta r i, routed cfg frame.pkt = some i ∧ routeOf cfg qmeta.qname = some (r, i) ∧
      policyStep doc cfg loaded obj sockets charges frame =
        (chargedVerdict cfg loaded obj sockets charges frame h qmeta r i,
          Function.update charges i (nowSec frame.clock.rateNs :: charges i)) := by
  unfold policyStep routed
  cases hquery : portQuery frame.pkt with
  | none => exact .inl ⟨rfl, .inl rfl⟩
  | some hq =>
    obtain ⟨h, qmeta⟩ := hq
    dsimp only
    split_ifs with hforbidden
    · exact .inl ⟨rfl, .inr rfl⟩
    · cases hroute : routeOf cfg qmeta.qname with
      | none => exact .inl ⟨rfl, .inl (by rw [Option.bind_some, hroute, Option.map_none])⟩
      | some ri =>
        dsimp only
        split_ifs with hname
        · exact .inr ⟨h, qmeta, ri.1, ri.2, by rw [Option.bind_some, hroute, Option.map_some], hroute, rfl⟩
        · exact .inl ⟨rfl, .inr rfl⟩

/-- A step charges its own second, if any. -/
theorem head_policyStep (charges : Charges) (frame : Frame) (i : Nat) :
    ((policyStep doc cfg loaded obj sockets charges frame).2 i).head?.getD 0 =
        (charges i).head?.getD 0 ∨
      ((policyStep doc cfg loaded obj sockets charges frame).2 i).head?.getD 0 =
        nowSec frame.clock.rateNs := by
  rcases policyStep_cases charges frame with ⟨hcharges, -⟩ | ⟨h, qmeta, r, j, -, -, hstep⟩
  · rw [hcharges]
    exact .inl rfl
  · rw [hstep]
    dsimp only
    by_cases hi : i = j
    · subst hi
      rw [Function.update_self]
      exact .inr rfl
    · rw [Function.update_of_ne hi]
      exact .inl rfl

/-- With a clock that does not go back, no frame is before one of its predecessors. -/
theorem notBefore_of_pairwise (frames : List Frame) (charges : Charges)
    (hclock : (frames.map fun f => nowSec f.clock.rateNs).Pairwise (· ≤ ·))
    (hstart : ∀ f ∈ frames, NotBefore charges f) :
    Along (fun charges frame => (policyStep doc cfg loaded obj sockets charges frame).2) NotBefore
      frames charges := by
  induction frames generalizing charges with
  | nil => trivial
  | cons frame frames ih =>
    rw [List.map_cons, List.pairwise_cons] at hclock
    refine ⟨hstart frame (.head _), ih _ hclock.2 fun f hf i => ?_⟩
    rcases head_policyStep charges frame i with h | h
    · rw [h]
      exact hstart f (.tail _ hf) i
    · rw [h]
      exact hclock.1 _ (List.mem_map_of_mem hf)

end Clock

/-- A run from seeded maps stays with the policy, and the router is still in service. -/
theorem seeded_run {doc : YamlDocument} {cfg : Config} (hparse : parseConfigYaml doc = .ok cfg)
    (hnodup : (cfg.routes.map (·.hash)).Nodup) (hfree : PlaceholderFree cfg) {now : UInt64}
    {obj : BpfObject} {updated : Nat → Bool} {maps : Maps}
    (hseed : seedMaps cfg now obj updated = some maps) (sockets : Nat → Bool) (frames : List Frame)
    (hclock : (frames.map fun f => nowSec f.clock.rateNs).Pairwise (· ≤ ·)) :
    ∃ maps', runOutputs (generatedStep cfg) frames { maps with xskMap := sockets } =
        .ok (frames.zip (policyRun doc cfg now obj sockets frames), maps') ∧
      Serving cfg now obj sockets maps'
        (answers (policyStep doc cfg now obj sockets) frames fun _ => []).2 := by
  have hstart : ∀ f ∈ frames, NotBefore (fun _ => []) f := by
    intro f _ i
    exact UInt64.le_iff_toNat_le.mpr (Nat.zero_le _)
  rw [generatedStep_eq (accepted_of_parse hparse) hfree]
  exact (simulation_router hparse hnodup).run frames _ _ (serving_seedMaps hseed sockets)
    (notBefore_of_pairwise frames _ hclock hstart)

/-- **A loaded router follows the policy.** For every accepted document without placeholders whose
    routes have different hashes, and every load that seeds its maps, every run of frames on one CPU
    with a rate clock that does not go back ends without a fault, and each frame is answered as the
    policy says. -/
theorem router_run_policy (doc : YamlDocument) (cfg : Config) (hparse : parseConfigYaml doc = .ok cfg)
    (hnodup : (cfg.routes.map (·.hash)).Nodup) (hfree : PlaceholderFree cfg) (now : UInt64)
    (obj : BpfObject) (updated : Nat → Bool) (maps : Maps)
    (hseed : seedMaps cfg now obj updated = some maps) (sockets : Nat → Bool) (frames : List Frame)
    (hclock : (frames.map fun f => nowSec f.clock.rateNs).Pairwise (· ≤ ·)) :
    ∃ maps', runOutputs (generatedStep cfg) frames { maps with xskMap := sockets } =
      .ok (frames.zip (policyRun doc cfg now obj sockets frames), maps') := by
  obtain ⟨maps', hrun, -⟩ := seeded_run hparse hnodup hfree hseed sockets frames hclock
  exact ⟨maps', hrun⟩

/-- A route to kernel space for the name "a", once in a second. -/
def limitedDocument : YamlDocument where
  nodes :=
    [.mapping [(2, 3)],
      .scalar (ascii "routes"), .sequence [4],
      .mapping [(5, 6), (7, 8), (9, 10)],
      .scalar (ascii "domain"), .scalar (ascii "a"),
      .scalar (ascii "target"), .scalar (ascii "kernel_space"),
      .scalar (ascii "filters"), .mapping [(11, 12)],
      .scalar (ascii "rate_limit"), .mapping [(13, 14)],
      .scalar (ascii "qps"), .scalar (ascii "1")]

def limitedConfig : Config :=
  { kernelConfig with routes := kernelConfig.routes.map fun r => { r with rateLimitQps := 1 } }

set_option maxRecDepth 4000 in
theorem parse_limitedDocument : parseConfigYaml limitedDocument = .ok limitedConfig := by
  decide +kernel

theorem placeholderFree_limitedConfig : PlaceholderFree limitedConfig := by
  refine .of_no_z fun r hr => ?_
  rw [List.mem_singleton.mp hr]
  exact ⟨by decide, by decide, by decide⟩

/-- The query for "a", twice in a second. -/
def sampleFrames : List Frame :=
  [⟨⟨0, 0, 0⟩, questionFrame [1, 97]⟩, ⟨⟨0, 0, 0⟩, questionFrame [1, 97]⟩]

theorem router_run_policy_sample : ∃ maps maps',
    seedMaps limitedConfig 0 progObject (fun _ => true) = some maps ∧
    runOutputs (generatedStep limitedConfig) sampleFrames { maps with xskMap := fun _ => false } =
      .ok (sampleFrames.zip (policyRun limitedDocument limitedConfig 0 progObject
        (fun _ => false) sampleFrames), maps') := by
  have hseed : seedMaps limitedConfig 0 progObject (fun _ => true) = some _ := rfl
  obtain ⟨maps', hrun⟩ := router_run_policy limitedDocument limitedConfig parse_limitedDocument
    (List.nodup_singleton _) placeholderFree_limitedConfig 0 progObject (fun _ => true) _ hseed
    (fun _ => false) sampleFrames (by decide)
  exact ⟨_, maps', hseed, hrun⟩

/-! ## Quotas -/

def Verdict.dropped (v : Verdict) : Bool :=
  match v.out with
  | .val .drop => true
  | _ => false

/-- The frame is of route `i` and second `sec`, and was not dropped. -/
def letThrough (cfg : Config) (i : Nat) (sec : UInt64) (fv : Frame × Verdict) : Bool :=
  routed cfg fv.1.pkt = some i ∧ nowSec fv.1.clock.rateNs = sec ∧ fv.2.dropped = false

section Quota

variable {doc : YamlDocument} {cfg : Config} {loaded : UInt64} {obj : BpfObject} {sockets : Nat → Bool}
  {i : Nat} {r : Route} (sec : UInt64)

/-- Charges are never taken back. -/
theorem count_policyStep (charges : Charges) (frame : Frame) :
    (charges i).count sec ≤
      ((policyStep doc cfg loaded obj sockets charges frame).2 i).count sec := by
  rcases policyStep_cases charges frame with ⟨hcharges, -⟩ | ⟨h, qmeta, r, j, -, -, hstep⟩
  · rw [hcharges]
  · rw [hstep]
    dsimp only
    by_cases hi : i = j
    · subst hi
      rw [Function.update_self]
      exact List.count_le_count_cons ..
    · rw [Function.update_of_ne hi]

/-- A frame that is let through was within the quota, and is charged. -/
theorem policyStep_of_letThrough (hacc : cfg.Accepted) (hr : cfg.routes[i]? = some r)
    (hlimited : r.rateLimitQps ≠ 0) {charges : Charges} {frame : Frame}
    (hthrough : letThrough cfg i sec
      (frame, (policyStep doc cfg loaded obj sockets charges frame).1) = true) :
    (charges i).count sec < r.rateLimitQps.toNat ∧
      ((policyStep doc cfg loaded obj sockets charges frame).2 i).count sec =
        (charges i).count sec + 1 := by
  obtain ⟨hroute, hsec, hkept⟩ := of_decide_eq_true hthrough
  dsimp only at hroute hsec hkept
  rcases policyStep_cases charges frame with ⟨-, hnone | hdrop⟩ | ⟨h, qmeta, r', j, hj, hr', hstep⟩
  · rw [hnone] at hroute
    cases hroute
  · rw [Verdict.dropped, hdrop] at hkept
    cases hkept
  · obtain rfl : j = i := Option.some.inj (hj.symm.trans hroute)
    obtain rfl : r' = r := Option.some.inj ((getElem?_of_routeOf hacc hr').symm.trans hr)
    rw [hstep] at hkept ⊢
    dsimp only at hkept ⊢
    rw [Function.update_self, hsec, List.count_cons_self]
    refine ⟨?_, rfl⟩
    unfold chargedVerdict at hkept
    split_ifs at hkept with hadmitted
    · rw [← hsec]
      exact hadmitted.1.resolve_left hlimited
    · cases hkept

/-- What is let through from here on fits in what the charges leave of the quota. -/
theorem countP_policy (hacc : cfg.Accepted) (hr : cfg.routes[i]? = some r)
    (hlimited : r.rateLimitQps ≠ 0) (frames : List Frame) (charges : Charges) :
    (frames.zip (answers (policyStep doc cfg loaded obj sockets) frames charges).1).countP
      (letThrough cfg i sec) ≤ r.rateLimitQps.toNat - (charges i).count sec := by
  induction frames generalizing charges with
  | nil => exact Nat.zero_le _
  | cons frame frames ih =>
    have hrest := ih (policyStep doc cfg loaded obj sockets charges frame).2
    rw [answers_cons, List.zip_cons_cons, List.countP_cons]
    by_cases hthrough : letThrough cfg i sec
        (frame, (policyStep doc cfg loaded obj sockets charges frame).1) = true
    · obtain ⟨hlt, hcount⟩ := policyStep_of_letThrough sec hacc hr hlimited hthrough
      rw [if_pos hthrough]
      omega
    · have hcount : (charges i).count sec ≤
          ((policyStep doc cfg loaded obj sockets charges frame).2 i).count sec :=
        count_policyStep sec charges frame
      rw [if_neg hthrough]
      omega

end Quota

/-- **On one CPU a route lets no more frames through than its quota.** In every run on seeded maps with
    a rate clock that does not go back, the frames of a limited route that come in one second and are
    not dropped, to whatever target, are at most `rate_limit_qps`. -/
theorem router_run_quota (doc : YamlDocument) (cfg : Config) (hparse : parseConfigYaml doc = .ok cfg)
    (hnodup : (cfg.routes.map (·.hash)).Nodup) (hfree : PlaceholderFree cfg) (now : UInt64)
    (obj : BpfObject) (updated : Nat → Bool) (maps : Maps)
    (hseed : seedMaps cfg now obj updated = some maps) (sockets : Nat → Bool) (frames : List Frame)
    (hclock : (frames.map fun f => nowSec f.clock.rateNs).Pairwise (· ≤ ·)) :
    ∃ all maps',
      runOutputs (generatedStep cfg) frames { maps with xskMap := sockets } = .ok (all, maps') ∧
      ∀ i r, cfg.routes[i]? = some r → r.rateLimitQps ≠ 0 → ∀ sec,
        all.countP (letThrough cfg i sec) ≤ r.rateLimitQps.toNat := by
  obtain ⟨maps', hrun, -⟩ := seeded_run hparse hnodup hfree hseed sockets frames hclock
  refine ⟨_, maps', hrun, fun i r hr hlimited sec => ?_⟩
  have hquota : (frames.zip (policyRun doc cfg now obj sockets frames)).countP (letThrough cfg i sec) ≤
      r.rateLimitQps.toNat - List.count sec [] :=
    countP_policy sec (accepted_of_parse hparse) hr hlimited frames fun _ => []
  rwa [List.count_nil, Nat.sub_zero] at hquota

/-- One of the two queries is let through at most. -/
theorem router_run_quota_sample : ∃ maps all maps',
    seedMaps limitedConfig 0 progObject (fun _ => true) = some maps ∧
    runOutputs (generatedStep limitedConfig) sampleFrames { maps with xskMap := fun _ => false } =
      .ok (all, maps') ∧
    all.countP (letThrough limitedConfig 0 0) ≤ 1 := by
  have hseed : seedMaps limitedConfig 0 progObject (fun _ => true) = some _ := rfl
  obtain ⟨all, maps', hrun, hquota⟩ := router_run_quota limitedDocument limitedConfig
    parse_limitedDocument (List.nodup_singleton _) placeholderFree_limitedConfig 0 progObject
    (fun _ => true) _ hseed (fun _ => false) sampleFrames (by decide)
  exact ⟨_, all, maps', hseed, hrun, hquota 0 _ rfl (by decide) 0⟩

end Zereh.Link
