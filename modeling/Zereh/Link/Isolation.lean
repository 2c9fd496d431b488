/-
  Routes do not see each other's traffic.

  The route of a frame is a function of its bytes and the blacklist (`selectedRoute`), and the
  only state that a run changes is the rate state of the route selected. `SameFor i` relates maps
  that agree on everything but the rate states of routes other than `i`:

  * a frame of route `i` is answered alike from related maps, and leaves them related
    (`takeRoute_own`);
  * any other frame leaves the maps related to what they were (`takeRoute_other`).

  So the verdicts of a route are those of the run in which its frames are alone on the wire
  (`routes_isolated`).
-/
import Zereh.Lib.Unwind
import Zereh.Link.Generated
import Zereh.Xdp.RateBudget

namespace Zereh.Link

open Lib CText Control Xdp

/-! ## Runs -/

/-- A frame with the values of the clock while it is processed. -/
structure Frame where
  clock : Clock
  pkt : List UInt8

/-- What the program makes of a frame: how it ended, the packet, the slot of a redirect. -/
structure Verdict where
  out : Out Nat Action
  pkt : List UInt8
  redirectTo : Option Nat

/-- One frame on the maps that the frames before it left. -/
def routerStep (cfg : Config) (maps : Maps) (frame : Frame) : Checked (Verdict × Maps) := do
  let (out, st) ← router cfg frame.clock ⟨frame.pkt, maps, none⟩
  .ok (⟨out, st.pkt, st.redirectTo⟩, st.maps)

/-- The index of the route that a frame selects, by hash or by fallback; none for a frame that
    does not come to the dispatch or matches no route. -/
def selectedRoute (cfg : Config) (maps : Maps) (pkt : List UInt8) : Checked (Option Nat) := do
  match ← dispatched (macros cfg) maps pkt with
  | none => .ok none
  | some (_, qmeta) =>
    let hash ← Xdp.routeHash cfg.hashAlgo qmeta
    let selected ← selectRoute cfg qmeta hash
    .ok (selected.map (·.2))

/-- The frame selects route `i`. -/
def selects (cfg : Config) (maps : Maps) (i : Nat) (frame : Frame) : Bool :=
  match selectedRoute cfg maps frame.pkt with
  | .ok (some j) => j = i
  | _ => false

theorem selects_iff {cfg : Config} {maps : Maps} {i : Nat} {frame : Frame} :
    selects cfg maps i frame = true ↔ selectedRoute cfg maps frame.pkt = .ok (some i) := by
  unfold selects
  split
  · rename_i j hj
    rw [decide_eq_true_eq, hj]
    exact ⟨fun h => congrArg (Except.ok ∘ some) h, fun h => Option.some.inj (Except.ok.inj h)⟩
  · rename_i hno
    exact ⟨fun h => absurd h Bool.false_ne_true, fun h => absurd h (hno i)⟩

/-! ## Selection -/

theorem mem_of_suffixRoute {qmeta : DnsQueryMeta} {routes : List (Route × Nat)} {ri : Route × Nat}
    (h : suffixRoute qmeta routes = .ok (some ri)) : ri ∈ routes := by
  induction routes with
  | nil => cases h
  | cons first routes ih =>
    obtain ⟨b, -, h⟩ := bind_eq_ok h
    split at h
    · cases h
      exact .head _
    · exact .tail _ (ih h)

/-- The route that is selected is the one at its index. -/
theorem getElem?_of_selectRoute {cfg : Config} {qmeta : DnsQueryMeta} {hash : UInt64} {r : Route}
    {i : Nat} (h : selectRoute cfg qmeta hash = .ok (some (r, i))) : cfg.routes[i]? = some r := by
  have hmem : (r, i) ∈ cfg.routes.zipIdx := by
    unfold selectRoute at h
    split at h
    · cases h
      exact List.mem_of_find?_eq_some ‹_›
    · exact mem_of_suffixRoute h
  exact List.mem_zipIdx_iff_getElem?.mp hmem

/-- A frame on any maps with this blacklist is answered at once, or handed to one route. -/
theorem router_cases {cfg : Config} (hnodup : (cfg.routes.map (·.hash)).Nodup) (maps : Maps)
    (pkt : List UInt8) :
    (selectedRoute cfg maps pkt = .ok none ∧ ∃ a, ∀ clock (st : XdpState), st.pkt = pkt →
      st.maps.ipBlacklist = maps.ipBlacklist → router cfg clock st = st.finish a) ∨
    ∃ i r h qmeta hash, selectedRoute cfg maps pkt = .ok (some i) ∧ cfg.routes[i]? = some r ∧
      h.InFrame pkt ∧ ∀ clock (st : XdpState), st.pkt = pkt →
        st.maps.ipBlacklist = maps.ipBlacklist →
          router cfg clock st = takeRoute cfg clock h qmeta hash r i st := by
  rcases dispatched_cases (macros cfg) maps pkt with
    ⟨hnone, a, ha⟩ | ⟨h, qmeta, hsome, hin, hquery, heq⟩
  · exact .inl ⟨by rw [selectedRoute, hnone, ok_bind], a, fun clock => ha (dispatch cfg clock)⟩
  · have hrouter : ∀ clock (st : XdpState), st.pkt = pkt →
        st.maps.ipBlacklist = maps.ipBlacklist →
          router cfg clock st = refDispatch cfg clock h qmeta st := fun clock st hpkt htrie =>
      (heq _ st hpkt htrie).trans (dispatch_eq_refDispatch cfg clock h qmeta hnodup st)
    obtain ⟨hash, hhash, -⟩ := routeHash_safe cfg.hashAlgo (length_qname_le hquery)
    obtain ⟨selected, hselected, -⟩ := selectRoute_safe cfg qmeta hash
    have hroute : selectedRoute cfg maps pkt = .ok (selected.map (·.2)) := by
      simp only [selectedRoute, hsome, hhash, hselected, ok_bind]
    cases selected with
    | none =>
      refine .inl ⟨hroute, actionOfDefault cfg.defaultAction, fun clock st hpkt htrie => ?_⟩
      simp only [hrouter clock st hpkt htrie, refDispatch, hhash, hselected, ok_bind]
    | some ri =>
      refine .inr ⟨ri.2, ri.1, h, qmeta, hash, hroute, getElem?_of_selectRoute hselected, hin, ?_⟩
      intro clock st hpkt htrie
      simp only [hrouter clock st hpkt htrie, refDispatch, hhash, hselected, ok_bind]

/-! ## What a route sees -/

/-- Maps that agree on everything but the rate states of routes other than `i`. -/
structure SameFor (i : Nat) (maps maps' : Maps) : Prop where
  ipBlacklist : maps'.ipBlacklist = maps.ipBlacklist
  xskMap : maps'.xskMap = maps.xskMap
  progArray : maps'.progArray = maps.progArray
  powBloom : maps'.powBloom = maps.powBloom
  rate : maps'.routeRateState i = maps.routeRateState i

theorem SameFor.refl (i : Nat) (maps : Maps) : SameFor i maps maps := ⟨rfl, rfl, rfl, rfl, rfl⟩

/-- The limiter of a route answers alike from maps that look alike to it. -/
theorem rateLimitAllow_own {maps maps' : Maps} {routeId : UInt32}
    (h : SameFor routeId.toNat maps maps') (entries : UInt32) (ns : UInt64) (qps : UInt32) :
    (rateLimitAllow entries ns routeId qps maps').1 =
        (rateLimitAllow entries ns routeId qps maps).1 ∧
      SameFor routeId.toNat (rateLimitAllow entries ns routeId qps maps).2
        (rateLimitAllow entries ns routeId qps maps').2 := by
  unfold rateLimitAllow
  split_ifs
  · exact ⟨rfl, h⟩
  · exact ⟨rfl, h⟩
  · rw [h.rate]
    exact ⟨rfl, h.ipBlacklist, h.xskMap, h.progArray, h.powBloom, by simp⟩

/-- The limiter of another route leaves them alike. -/
theorem rateLimitAllow_other {maps maps' : Maps} {i : Nat} (h : SameFor i maps maps')
    {routeId : UInt32} (hi : i ≠ routeId.toNat) (entries : UInt32) (ns : UInt64) (qps : UInt32) :
    SameFor i (rateLimitAllow entries ns routeId qps maps).2 maps' := by
  have hrate := rateLimitAllow_of_ne entries ns routeId qps maps hi
  unfold rateLimitAllow at hrate ⊢
  split_ifs at hrate ⊢
  · exact h
  · exact h
  · exact ⟨h.ipBlacklist, h.xskMap, h.progArray, h.powBloom, h.rate.trans hrate.symm⟩

/-- The filters behind the limiter. -/
def lateFilters (a : FilterArgs) (clock : Clock) (maps : Maps) (qmeta : DnsQueryMeta) :
    Checked Bool := do
  if !(← powAllow clock.powNs a.hash qmeta.dnsId a.powDifficulty a.powTimeWindow) then .ok false
  else if a.bloomRequired ≠ 0 then
    bloomAllow maps clock.bloomNs a.hash a.bloomSize a.bloomHashFunctions a.bloomTimeWindow
  else .ok true

/-- From the limiter on, the maps are those that the limiter left. -/
theorem apply_eq_lateFilters {a : FilterArgs} {qmeta : DnsQueryMeta} (h : a.NameOk qmeta)
    (entries : UInt32) (clock : Clock) (maps : Maps) :
    a.apply entries clock maps qmeta =
      if (rateLimitAllow entries clock.rateNs a.routeId a.rateLimitQps maps).1 then
        lateFilters a clock maps qmeta >>= fun ok =>
          .ok (ok, (rateLimitAllow entries clock.rateNs a.routeId a.rateLimitQps maps).2)
      else .ok (false, (rateLimitAllow entries clock.rateNs a.routeId a.rateLimitQps maps).2) := by
  rw [FilterArgs.apply_of_nameOk h]
  generalize rateLimitAllow entries clock.rateNs a.routeId a.rateLimitQps maps = limited
  obtain ⟨allowed, next⟩ := limited
  cases allowed with
  | false => rfl
  | true =>
    unfold lateFilters
    obtain ⟨pow, hpow, -⟩ := powAllow_safe clock.powNs a.hash qmeta.dnsId a.powDifficulty
      a.powTimeWindow
    obtain ⟨bloom, hbloom, -⟩ := bloomAllow_safe maps clock.bloomNs a.hash a.bloomSize
      a.bloomHashFunctions a.bloomTimeWindow
    rw [hpow, hbloom]
    cases pow with
    | false => rfl
    | true =>
      by_cases hreq : a.bloomRequired ≠ 0
      · simp only [ok_bind, Bool.not_true, Bool.false_eq_true, if_false, if_true, if_pos hreq]
        cases bloom <;> rfl
      · simp only [ok_bind, Bool.not_true, Bool.false_eq_true, if_false, if_true, if_neg hreq]

/-- A packet that the filters decide on leaves the maps as they were and is rejected, or is
    charged to its route. -/
theorem apply_charges {a : FilterArgs} {entries : UInt32} {clock : Clock} {maps maps' : Maps}
    {qmeta : DnsQueryMeta} {ok : Bool}
    (h : a.apply entries clock maps qmeta = .ok (ok, maps')) :
    (maps' = maps ∧ ok = false) ∨
      maps' = (rateLimitAllow entries clock.rateNs a.routeId a.rateLimitQps maps).2 ∧
        ((rateLimitAllow entries clock.rateNs a.routeId a.rateLimitQps maps).1 = false →
          ok = false) := by
  by_cases hname : a.NameOk qmeta
  · rw [apply_eq_lateFilters hname] at h
    split_ifs at h with hallowed
    · obtain ⟨b, -, h⟩ := bind_eq_ok h
      cases h
      exact .inr ⟨rfl, fun hf => absurd (hf.symm.trans hallowed) Bool.false_ne_true⟩
    · cases h
      exact .inr ⟨rfl, fun _ => rfl⟩
  · exact .inl (FilterArgs.apply_of_not_nameOk hname h).symm

theorem lateFilters_congr {maps maps' : Maps} (h : maps'.powBloom = maps.powBloom)
    (a : FilterArgs) (clock : Clock) (qmeta : DnsQueryMeta) :
    lateFilters a clock maps' qmeta = lateFilters a clock maps qmeta := by
  simp only [lateFilters, bloomAllow_congr h]

theorem lateFilters_safe (a : FilterArgs) (clock : Clock) (maps : Maps) (qmeta : DnsQueryMeta) :
    Runs (lateFilters a clock maps qmeta) :=
  (powAllow_safe ..).bind fun _ _ => safe_ite (fun _ => safe_ok trivial) fun _ =>
    safe_ite (fun _ => bloomAllow_safe ..) fun _ => safe_ok trivial

theorem apply_own {a : FilterArgs} (hsized : a.Sized) {maps maps' : Maps}
    (h : SameFor a.routeId.toNat maps maps') (entries : UInt32) (clock : Clock)
    (qmeta : DnsQueryMeta) :
    ∃ ok next next', a.apply entries clock maps qmeta = .ok (ok, next) ∧
      a.apply entries clock maps' qmeta = .ok (ok, next') ∧
      SameFor a.routeId.toNat next next' := by
  by_cases hname : a.NameOk qmeta
  · obtain ⟨hsame, hnext⟩ := rateLimitAllow_own h entries clock.rateNs a.rateLimitQps
    obtain ⟨late, hlate, -⟩ := lateFilters_safe a clock maps qmeta
    have hlate' := (lateFilters_congr h.powBloom a clock qmeta).trans hlate
    rw [apply_eq_lateFilters hname, apply_eq_lateFilters hname, hsame, hlate, hlate']
    by_cases hallowed : (rateLimitAllow entries clock.rateNs a.routeId a.rateLimitQps maps).1 = true
    · rw [if_pos hallowed, if_pos hallowed]
      exact ⟨late, _, _, rfl, rfl, hnext⟩
    · rw [if_neg hallowed, if_neg hallowed]
      exact ⟨false, _, _, rfl, rfl, hnext⟩
  · obtain ⟨⟨ok, next⟩, hrun, -⟩ := FilterArgs.apply_safe hsized entries clock maps qmeta
    obtain ⟨⟨ok', next'⟩, hrun', -⟩ := FilterArgs.apply_safe hsized entries clock maps' qmeta
    obtain ⟨rfl, rfl⟩ := FilterArgs.apply_of_not_nameOk hname hrun
    obtain ⟨rfl, rfl⟩ := FilterArgs.apply_of_not_nameOk hname hrun'
    exact ⟨false, _, _, hrun, hrun', h⟩

/-- A target reads two maps and writes none. -/
theorem targetAction_maps {r : Route} {h : Headers} {pkt : List UInt8} {maps : Maps}
    {slot : Option Nat} {out : Out Nat Action} {st : XdpState}
    (hrun : targetAction r h ⟨pkt, maps, slot⟩ = .ok (out, st)) :
    st.maps = maps ∧ ∀ maps' : Maps, maps'.xskMap = maps.xskMap →
      maps'.progArray = maps.progArray →
        targetAction r h ⟨pkt, maps', slot⟩ = .ok (out, { st with maps := maps' }) := by
  unfold targetAction at hrun ⊢
  cases ht : r.target with
  | userSpace =>
    rw [ht] at hrun
    unfold bpfRedirectMap at hrun ⊢
    dsimp only at hrun ⊢
    split_ifs at hrun with hslot
    all_goals
      cases hrun
      refine ⟨rfl, fun maps' hx _ => ?_⟩
      rw [hx]
    · exact if_pos hslot
    · exact if_neg hslot
  | kernelSpace =>
    rw [ht] at hrun
    obtain ⟨pkt1, h1, hrun⟩ := bind_eq_ok hrun
    obtain ⟨pkt2, h2, hrun⟩ := bind_eq_ok hrun
    cases hrun
    refine ⟨rfl, fun maps' _ _ => ?_⟩
    dsimp only [routeKernelSpace] at h1 h2 ⊢
    rw [h1, ok_bind, h2, ok_bind]
    rfl
  | xdpProg =>
    rw [ht] at hrun
    unfold bpfTailCall at hrun ⊢
    dsimp only at hrun ⊢
    split at hrun
    · rename_i prog hprog
      cases hrun
      refine ⟨rfl, fun maps' _ hp => ?_⟩
      rw [hp, hprog]
    · rename_i hprog
      cases hrun
      refine ⟨rfl, fun maps' _ hp => ?_⟩
      rw [hp, hprog]
      rfl

/-! ## One frame -/

/-- A frame of route `i` is answered alike from maps that look alike to the route. -/
theorem takeRoute_own (cfg : Config) (clock : Clock) {h : Headers} (qmeta : DnsQueryMeta)
    (hash : UInt64) (r : Route) {i : Nat} {pkt : List UInt8} (hin : h.InFrame pkt)
    (hi : (UInt32.ofNat i).toNat = i) {maps maps' : Maps} (hsame : SameFor i maps maps') :
    ∃ out pkt' slot next next',
      takeRoute cfg clock h qmeta hash r i ⟨pkt, maps, none⟩ = .ok (out, ⟨pkt', next, slot⟩) ∧
      takeRoute cfg clock h qmeta hash r i ⟨pkt, maps', none⟩ = .ok (out, ⟨pkt', next', slot⟩) ∧
      SameFor i next next' := by
  have hid : (routeFilters r i hash).routeId.toNat = i := hi
  obtain ⟨ok, next, next', hrun, hrun', hnext⟩ := apply_own (routeFilters_sized r i hash)
    (hid.symm ▸ hsame) (macros cfg).rateStateEntries clock qmeta
  rw [hid] at hnext
  unfold takeRoute
  rw [hrun, hrun', ok_bind, ok_bind]
  cases ok with
  | false => exact ⟨.val .drop, pkt, none, next, next', rfl, rfl, hnext⟩
  | true =>
    obtain ⟨⟨out, st⟩, htarget, -⟩ : Runs (targetAction r h ⟨pkt, next, none⟩) :=
      targetAction_safe r hin
    obtain ⟨hst, hother⟩ := targetAction_maps htarget
    subst hst
    exact ⟨out, st.pkt, st.redirectTo, st.maps, next', htarget,
      hother next' hnext.xskMap hnext.progArray, hnext⟩

section TakeRoute

variable {cfg : Config} {clock : Clock} {h : Headers} {qmeta : DnsQueryMeta} {hash : UInt64}
  {r : Route} {i : Nat} {pkt : List UInt8} {maps : Maps}

/-- A frame of route `i` is dropped and costs nothing, or is charged to entry `i`. -/
theorem takeRoute_charges {out : Out Nat Action} {st : XdpState}
    (hrun : takeRoute cfg clock h qmeta hash r i ⟨pkt, maps, none⟩ = .ok (out, st)) :
    (st.maps = maps ∧ out = .val .drop) ∨
      st.maps = (rateLimitAllow (macros cfg).rateStateEntries clock.rateNs (UInt32.ofNat i)
        r.rateLimitQps maps).2 ∧
      ((rateLimitAllow (macros cfg).rateStateEntries clock.rateNs (UInt32.ofNat i)
        r.rateLimitQps maps).1 = false → out = .val .drop) := by
  obtain ⟨⟨ok, next⟩, happly, hrun⟩ := bind_eq_ok hrun
  have hcharge := apply_charges happly
  cases ok with
  | false =>
    cases hrun
    rcases hcharge with ⟨hmaps, -⟩ | ⟨hmaps, -⟩
    · exact .inl ⟨hmaps, rfl⟩
    · exact .inr ⟨hmaps, fun _ => rfl⟩
  | true =>
    rcases hcharge with ⟨-, hfalse⟩ | ⟨hmaps, hrefused⟩
    · cases hfalse
    · refine .inr ⟨(targetAction_maps hrun).1.trans hmaps, fun hf => ?_⟩
      cases hrefused hf

/-- It leaves the maps as they were to every other route. -/
theorem takeRoute_other (hi : (UInt32.ofNat i).toNat = i) {j : Nat} (hj : j ≠ i) {maps' : Maps}
    (hsame : SameFor j maps maps') {out : Out Nat Action} {st : XdpState}
    (hrun : takeRoute cfg clock h qmeta hash r i ⟨pkt, maps, none⟩ = .ok (out, st)) :
    SameFor j st.maps maps' := by
  rcases takeRoute_charges hrun with ⟨hmaps, -⟩ | ⟨hmaps, -⟩
  · rw [hmaps]
    exact hsame
  · rw [hmaps]
    exact rateLimitAllow_other hsame (by rwa [hi]) ..

theorem takeRoute_ipBlacklist {out : Out Nat Action} {st : XdpState}
    (hrun : takeRoute cfg clock h qmeta hash r i ⟨pkt, maps, none⟩ = .ok (out, st)) :
    st.maps.ipBlacklist = maps.ipBlacklist := by
  rcases takeRoute_charges hrun with ⟨hmaps, -⟩ | ⟨hmaps, -⟩
  · rw [hmaps]
  · rw [hmaps]
    unfold rateLimitAllow
    split_ifs <;> rfl

end TakeRoute

section Accepted

variable {cfg : Config}

/-- Route ids fit their parameter, and every route has an entry of its own. -/
theorem toNat_routeId (hcfg : cfg.Accepted) {i : Nat} {r : Route} (hr : cfg.routes[i]? = some r) :
    (UInt32.ofNat i).toNat = i ∧ UInt32.ofNat i < (macros cfg).rateStateEntries := by
  have hlt : i < cfg.routes.length := (List.getElem?_eq_some_iff.mp hr).1
  have hcount : cfg.routes.length ≤ 1024 := hcfg.route_count
  have hi : (UInt32.ofNat i).toNat = i := by
    rw [UInt32.toNat_ofNat']
    exact Nat.mod_eq_of_lt (by omega)
  have hentries : (macros cfg).rateStateEntries = UInt32.ofNat cfg.routes.length :=
    if_neg (by omega)
  refine ⟨hi, ?_⟩
  rw [UInt32.lt_iff_toNat_lt, hentries, hi, UInt32.toNat_ofNat', Nat.mod_eq_of_lt (by omega)]
  exact hlt

variable (hcfg : cfg.Accepted) (hnodup : (cfg.routes.map (·.hash)).Nodup)

include hcfg hnodup

/-- The step condition of noninterference for route `i`, on maps with one blacklist. -/
theorem unwinding_router (i : Nat) (maps0 : Maps) :
    Unwinding (routerStep cfg) (selects cfg maps0 i)
      fun maps maps' => maps.ipBlacklist = maps0.ipBlacklist ∧ SameFor i maps maps' where
  own := by
    rintro maps maps' frame ⟨htrie, hsame⟩ hown
    rw [selects_iff] at hown
    rcases router_cases hnodup maps0 frame.pkt with
      ⟨hnone, -⟩ | ⟨j, r, h, qmeta, hash, hsome, hr, hin, heq⟩
    · rw [hnone] at hown
      cases hown
    · obtain rfl : j = i := Option.some.inj (Except.ok.inj (hsome.symm.trans hown))
      obtain ⟨out, pkt', slot, next, next', hrun, hrun', hnext⟩ :=
        takeRoute_own cfg frame.clock qmeta hash r hin (toNat_routeId hcfg hr).1 hsame
      refine ⟨⟨out, pkt', slot⟩, next, next', ?_, ?_, ?_, hnext⟩
      · rw [routerStep, heq _ _ rfl htrie, hrun, ok_bind]
      · rw [routerStep, heq _ _ rfl (hsame.ipBlacklist.trans htrie), hrun', ok_bind]
      · exact (takeRoute_ipBlacklist hrun).trans htrie
  other := by
    rintro maps maps' frame ⟨htrie, hsame⟩ hother
    rcases router_cases hnodup maps0 frame.pkt with
      ⟨-, a, ha⟩ | ⟨j, r, h, qmeta, hash, hsome, hr, hin, heq⟩
    · refine ⟨⟨.val a, frame.pkt, none⟩, maps, ?_, htrie, hsame⟩
      rw [routerStep, ha _ _ rfl htrie]
      rfl
    · have hj : i ≠ j := by
        rintro rfl
        rw [selects_iff.mpr hsome] at hother
        cases hother
      obtain ⟨⟨out, st⟩, hrun, -⟩ :
          Runs (takeRoute cfg frame.clock h qmeta hash r j ⟨frame.pkt, maps, none⟩) :=
        takeRoute_safe cfg frame.clock qmeta hash r j hin
      refine ⟨⟨out, st.pkt, st.redirectTo⟩, st.maps, ?_, ?_, ?_⟩
      · rw [routerStep, heq _ _ rfl htrie, hrun, ok_bind]
      · exact (takeRoute_ipBlacklist hrun).trans htrie
      · exact takeRoute_other (toNat_routeId hcfg hr).1 hj hsame hrun

/-- One frame changes at most the rate state of the route it selects, and charges it there. -/
theorem routerStep_charges (frame : Frame) (maps : Maps) :
    ∃ v maps', routerStep cfg maps frame = .ok (v, maps') ∧
      (∀ j, selectedRoute cfg maps frame.pkt ≠ .ok (some j) →
        maps'.routeRateState j = maps.routeRateState j) ∧
      ∀ i, selectedRoute cfg maps frame.pkt = .ok (some i) → ∃ r, cfg.routes[i]? = some r ∧
        UInt32.ofNat i < (macros cfg).rateStateEntries ∧
        (maps' = maps ∧ v.out = .val .drop ∨
          maps' = (rateLimitAllow (macros cfg).rateStateEntries frame.clock.rateNs (UInt32.ofNat i)
            r.rateLimitQps maps).2 ∧
          ((rateLimitAllow (macros cfg).rateStateEntries frame.clock.rateNs (UInt32.ofNat i)
            r.rateLimitQps maps).1 = false → v.out = .val .drop)) := by
  rcases router_cases hnodup maps frame.pkt with
    ⟨hnone, a, ha⟩ | ⟨i, r, h, qmeta, hash, hsome, hr, hin, heq⟩
  · refine ⟨⟨.val a, frame.pkt, none⟩, maps, ?_, fun _ _ => rfl, fun i hi => ?_⟩
    · rw [routerStep, ha _ _ rfl rfl]
      rfl
    · rw [hnone] at hi
      cases hi
  · obtain ⟨hid, hentry⟩ := toNat_routeId hcfg hr
    obtain ⟨⟨out, st⟩, hrun, -⟩ :
        Runs (takeRoute cfg frame.clock h qmeta hash r i ⟨frame.pkt, maps, none⟩) :=
      takeRoute_safe cfg frame.clock qmeta hash r i hin
    refine ⟨⟨out, st.pkt, st.redirectTo⟩, st.maps, ?_, fun j hj => ?_, fun j hj => ?_⟩
    · rw [routerStep, heq _ _ rfl rfl, hrun, ok_bind]
    · have hne : j ≠ i := by
        rintro rfl
        exact hj hsome
      exact (takeRoute_other hid hne (SameFor.refl j maps) hrun).rate.symm
    · obtain rfl : i = j := Option.some.inj (Except.ok.inj (hsome.symm.trans hj))
      exact ⟨r, hr, hentry, takeRoute_charges hrun⟩

end Accepted

end Zereh.Link
