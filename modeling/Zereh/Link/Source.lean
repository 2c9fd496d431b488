/-
  The program that is written, and when it reads behind a literal.

  A later pass of the generator shortens a literal that holds the placeholder of a macro, and leaves
  the length beside it as it is. `generatedDispatch_eq`: the written body runs as the reference
  interpreter with the strings `rewritten`. So it is the intended program when the configuration is
  `PlaceholderFree` (`generatedRouter_eq`).

  `Overruns`: the query of a frame gets, on its way through the dispatch, to a literal that is too
  short for its length and agrees with the name to its end, its NUL included.
  `generatedRouter_safe`: the program faults on exactly these frames, as long as no rules are spliced
  into a literal.
-/
import Zereh.Link.Fallback

namespace Zereh.Link

open Lib CText Control Xdp

/-! ## The written program -/

section Written

variable {cfg : Config}

theorem readGenerated_isSome_iff (hsplice : NoSplice cfg) :
    (readGenerated cfg).isSome ↔ (cfg.routes.map (·.hash)).Nodup := by
  rw [readGenerated, generatedText_eq hsplice, readBody_dispatchTextOf]
  split_ifs with hnodup
  · exact ⟨fun _ => hnodup, fun _ => rfl⟩
  · exact ⟨fun h => (by cases h), fun h => absurd h hnodup⟩

/-- The written body runs as the reference interpreter with the strings rewritten. -/
theorem generatedDispatch_eq (hsplice : NoSplice cfg) (hnodup : (cfg.routes.map (·.hash)).Nodup)
    (clock : Clock) (h : Headers) (qmeta : DnsQueryMeta) (st : XdpState) :
    generatedDispatch cfg clock h qmeta st =
      refDispatchOf (rewritten cfg) cfg clock h qmeta st := by
  rw [generatedDispatch, generatedText_eq hsplice, runText_dispatchTextOf _ cfg clock h qmeta hnodup]

variable (hroutes : cfg.routes ≠ []) (hfree : PlaceholderFree cfg)

include hroutes hfree

/-- Without placeholders the written program is the intended one. -/
theorem generatedRouter_eq : generatedRouter cfg = router cfg := by
  unfold generatedRouter generatedDispatch router dispatch
  rw [(generatedText_eq_iff hroutes).mpr hfree]

end Written

/-! ## Comparisons behind the end of a literal -/

/-- `pat` is an array that is shorter than its length, and agrees to its end with the part of a name
    that it is compared with. The loop has 128 rounds. -/
structure Overrun (part pat : List UInt8) (len : Nat) : Prop where
  short : pat.length < len
  fits : len ≤ part.length
  rounds : pat.length < 128
  agrees : pat <+: part

theorem not_runs_error {α : Type} {P : α → Prop} {e : Fault} :
    ¬ Safe P (.error e : Checked α) := by
  rintro ⟨a, h, -⟩
  cases h

theorem runs_ok {α : Type} (a : α) : Runs (.ok a : Checked α) := safe_ok trivial

theorem readAt_length (pat : List UInt8) : readAt pat pat.length = .error (.read pat.length) := by
  unfold readAt
  rw [List.getElem?_eq_none le_rfl]

/-- The loop reads behind the end of the pattern when it gets there. -/
theorem matchLoop_runs_iff {qname pat : List UInt8} {start patLen : Nat}
    (hname : start + patLen ≤ qname.length) (n i : Nat) (hi : i ≤ pat.length) :
    Runs (matchLoop qname start pat patLen n i) ↔
      ¬ (pat.length < patLen ∧ pat.length < i + n ∧
        slice qname (start + i) (pat.length - i) = slice pat i (pat.length - i)) := by
  induction n generalizing i with
  | zero => exact iff_of_true (runs_ok _) fun h => absurd h.2.1 (by omega)
  | succ n ih =>
    rw [matchLoop]
    by_cases hend : i ≥ patLen
    · rw [if_pos hend]
      exact iff_of_true (runs_ok _) fun h => absurd h.1 (by omega)
    rw [if_neg hend, readAt_ok (by omega), ok_bind]
    by_cases hlast : i = pat.length
    · rw [hlast, readAt_length, Nat.sub_self, slice_zero, slice_zero]
      exact iff_of_false not_runs_error (not_not.mpr ⟨by omega, by omega, rfl⟩)
    · obtain ⟨k, hk⟩ : ∃ k, pat.length - i = k + 1 := ⟨pat.length - i - 1, by omega⟩
      have hk' : pat.length - (i + 1) = k := by omega
      rw [readAt_ok (by omega), ok_bind, hk, slice_succ (by omega), slice_succ (by omega),
        List.cons_eq_cons]
      split_ifs with hne
      · exact iff_of_true (runs_ok _) fun h => hne h.2.2.1
      · rw [ih (i + 1) (by omega), hk', Nat.add_right_comm i 1 n]
        refine not_congr (and_congr_right fun _ => and_congr_right fun _ => ?_)
        exact (and_iff_right (not_not.mp hne)).symm

/-- The loop does not pass a pattern that is shorter than its length. -/
theorem matchLoop_short {qname pat : List UInt8} (start : Nat) {patLen : Nat}
    (h : pat.length < patLen) (n i : Nat) (hi : i ≤ pat.length) :
    matchLoop qname start pat patLen n i ≠ .ok true := by
  induction n generalizing i with
  | zero => nofun
  | succ n ih =>
    rw [matchLoop, if_neg (by omega : ¬ i ≥ patLen)]
    intro hpass
    cases hq : readAt qname (start + i) with
    | error e =>
      rw [hq] at hpass
      cases hpass
    | ok q =>
      rw [hq, ok_bind] at hpass
      by_cases hlast : i = pat.length
      · rw [hlast, readAt_length] at hpass
        cases hpass
      · rw [readAt_ok (by omega), ok_bind] at hpass
        split_ifs at hpass with hne
        · cases hpass
        · exact ih (i + 1) (by omega) hpass

/-- The bytes up to the length of `pat` stand at the front of `part`. -/
def Agrees (part pat : List UInt8) (len : Nat) : Prop :=
  len = 0 ∨ len < 128 ∧ len ≤ pat.length ∧ pat.take len <+: part

/-- What a matcher comes to. -/
inductive Compared (part pat : List UInt8) (len : Nat) : Checked Bool → Prop
  | overrun {x : Checked Bool} (h : Overrun part pat len) (hx : ¬ Runs x) : Compared part pat len x
  | agrees (h : ¬ Overrun part pat len) (h' : Agrees part pat len) : Compared part pat len (.ok true)
  | differs (h : ¬ Overrun part pat len) (h' : ¬ Agrees part pat len) :
      Compared part pat len (.ok false)

theorem slice_eq_iff_prefix (qname : List UInt8) (start : Nat) (front : List UInt8) :
    slice qname start front.length = slice front 0 front.length ↔ front <+: qname.drop start := by
  have hall : slice front 0 front.length = front := List.take_length
  rw [hall, List.prefix_iff_eq_take]
  exact eq_comm

section Loop

variable {qname pat : List UInt8} {start len : Nat} (hname : start + len ≤ qname.length)

include hname

theorem loop_compared_short (hshort : pat.length < len) :
    Compared (qname.drop start) pat len (matchLoop qname start pat len 128 0) := by
  have hpart : len ≤ (qname.drop start).length := by
    rw [List.length_drop]
    omega
  have hruns := matchLoop_runs_iff hname 128 0 (Nat.zero_le pat.length)
  rw [Nat.zero_add, Nat.add_zero, Nat.sub_zero, slice_eq_iff_prefix] at hruns
  by_cases hover : Overrun (qname.drop start) pat len
  · exact .overrun hover fun h => hruns.mp h ⟨hover.short, hover.rounds, hover.agrees⟩
  · have hstop : Runs (matchLoop qname start pat len 128 0) :=
      hruns.mpr fun h => hover ⟨h.1, hpart, h.2.1, h.2.2⟩
    obtain ⟨b, hb, -⟩ := hstop
    cases b with
    | true => exact absurd hb (matchLoop_short start hshort 128 0 (Nat.zero_le _))
    | false =>
      rw [hb]
      refine .differs hover ?_
      rintro (h | ⟨-, hle, -⟩) <;> omega

theorem loop_compared_full (hne : len ≠ 0) (hfull : len ≤ pat.length) :
    Compared (qname.drop start) pat len (matchLoop qname start pat len 128 0) := by
  have htake : (pat.take len).length = len := List.length_take_of_le hfull
  have hover : ¬ Overrun (qname.drop start) pat len := fun h => absurd h.short (Nat.not_lt.mpr hfull)
  have hend : start + (pat.take len).length ≤ qname.length := by omega
  have hloop := matchLoop_eq hend 128 0 (Nat.zero_le _)
  rw [Nat.zero_add, Nat.add_zero, Nat.sub_zero, htake] at hloop
  rw [← List.take_append_drop len pat, matchLoop_append qname start _ htake.ge, hloop,
    List.take_append_drop]
  have hiff : (len < 128 ∧ slice qname start len = slice (pat.take len) 0 len) ↔
      Agrees (qname.drop start) pat len := by
    have h := slice_eq_iff_prefix qname start (pat.take len)
    rw [htake] at h
    rw [h, Agrees, or_iff_right hne]
    exact and_congr_right fun _ => (and_iff_right hfull).symm
  by_cases hagrees : Agrees (qname.drop start) pat len
  · rw [decide_eq_true (hiff.mpr hagrees)]
    exact .agrees hover hagrees
  · rw [decide_eq_false (mt hiff.mp hagrees)]
    exact .differs hover hagrees

end Loop

/-- Both matchers: no pattern, a pattern that is longer than the name, and the loop over `part`,
    which stands in the name from `start` on. -/
theorem matcher_compared {qname pat : List UInt8} {len : Nat} (hlen : len ≤ 255) {start : Nat}
    (hstart : len ≤ qname.length → start + len ≤ qname.length)
    (hfits : len ≤ (qname.drop start).length ↔ len ≤ qname.length) :
    Compared (qname.drop start) pat len
      (if UInt16.ofNat len = 0 then .ok true
        else if (UInt16.ofNat len).toNat > qname.length then .ok false
        else matchLoop qname start pat (UInt16.ofNat len).toNat 128 0) := by
  have hnat : (UInt16.ofNat len).toNat = len := by
    rw [UInt16.toNat_ofNat']
    exact Nat.mod_eq_of_lt (by omega)
  have hzero : UInt16.ofNat len = 0 ↔ len = 0 := by
    rw [← UInt16.toNat_inj, hnat]
    rfl
  rw [hnat]
  split_ifs with hnone hlong
  · have hlen0 := hzero.mp hnone
    exact .agrees (fun h => absurd h.short (by omega)) (.inl hlen0)
  · have hpart := mt hfits.mp (Nat.not_le.mpr hlong)
    refine .differs (fun h => hpart h.fits) ?_
    rintro (h | ⟨-, hle, h⟩)
    · exact hnone (hzero.mpr h)
    · have := h.length_le
      rw [List.length_take_of_le hle] at this
      exact hpart this
  · have hname := hstart (Nat.not_lt.mp hlong)
    rcases Nat.lt_or_ge pat.length len with hshort | hfull
    · exact loop_compared_short hname hshort
    · exact loop_compared_full hname (mt hzero.mpr hnone) hfull

theorem matchPrefix_compared (qname pat : List UInt8) {len : Nat} (hlen : len ≤ 255) :
    Compared qname pat len (matchPrefix qname qname.length pat (UInt16.ofNat len)) :=
  @matcher_compared qname pat len hlen 0 (by omega) Iff.rfl

/-- The bytes of a name that a suffix of this length is compared with. -/
def tail (qname : List UInt8) (len : Nat) : List UInt8 := qname.drop (qname.length - len)

theorem matchSuffix_compared (qname pat : List UInt8) {len : Nat} (hlen : len ≤ 255) :
    Compared (tail qname len) pat len
      (matchSuffix qname qname.length pat (UInt16.ofNat len)) := by
  have hnat : (UInt16.ofNat len).toNat = len := by
    rw [UInt16.toNat_ofNat']
    exact Nat.mod_eq_of_lt (by omega)
  have h := @matcher_compared qname pat len hlen (qname.length - len) (by omega)
    (by rw [List.length_drop]; omega)
  rw [matchSuffix, hnat]
  rw [hnat] at h
  exact h

/-! ## The walk of a query through the literals -/

theorem runs_of_bind {α β : Type} {x : Checked α} {f : α → Checked β} (h : Runs (x >>= f)) :
    Runs x := by
  obtain ⟨b, hb, -⟩ := h
  cases x with
  | error e => cases hb
  | ok a => exact runs_ok a

theorem runs_ite_iff {α : Type} {c P : Prop} [Decidable c] {x y : Checked α}
    (hx : c → (Runs x ↔ P)) (hy : ¬ c → (Runs y ↔ P)) : Runs (if c then x else y) ↔ P := by
  split_ifs with h
  · exact hx h
  · exact hy h

/-- A matcher, and what follows when it passes or fails. -/
theorem Compared.runs_bind_iff {α : Type} {part pat : List UInt8} {len : Nat} {x : Checked Bool}
    (h : Compared part pat len x) {next : Bool → Checked α} {P : Prop}
    (hover : Overrun part pat len → P)
    (hagrees : Agrees part pat len → (Runs (next true) ↔ ¬ P))
    (hdiffers : ¬ Overrun part pat len → ¬ Agrees part pat len → (Runs (next false) ↔ ¬ P)) :
    Runs (x >>= next) ↔ ¬ P := by
  cases h with
  | overrun h hx => exact iff_of_false (fun hruns => hx (runs_of_bind hruns)) (not_not.mpr (hover h))
  | agrees _ h => exact hagrees h
  | differs h h' => exact hdiffers h h'

section Walk

variable (f : CStr → CStr) (qmeta : DnsQueryMeta)

/-- The checks before the patterns let the query through. -/
structure EarlyOk (r : Route) : Prop where
  labels : ¬ (qmeta.labelDepth < r.minLabels ∨ qmeta.labelDepth > r.maxLabels)
  length : ¬ (qmeta.qnameLen < r.qnameMinLen.toNat ∨ qmeta.qnameLen > r.qnameMaxLen.toNat)
  type : typeAllowed qmeta.qtype r.rrtypeMask = true

/-- The query gets to the end of a pattern of the route. -/
inductive PatternsOverrun (r : Route) : Prop
  | prefixed (early : EarlyOk qmeta r)
      (h : Overrun qmeta.qname (literalArray (f r.prefixMatch)) r.prefixMatch.len)
  | suffixed (early : EarlyOk qmeta r)
      (passed : Agrees qmeta.qname (literalArray (f r.prefixMatch)) r.prefixMatch.len)
      (h : Overrun (tail qmeta.qname r.suffixMatch.len) (literalArray (f r.suffixMatch))
        r.suffixMatch.len)

/-- A fallback rule takes the query. -/
def RuleAgrees (r : Route) : Prop :=
  Agrees (tail qmeta.qname r.domain.len) (literalArray (f r.domain)) r.domain.len

/-- The query gets to the end of a literal in the rules, or of a pattern of the route that the
    first rule selects. -/
inductive RulesOverrun : List Route → Prop
  | domain {r : Route} {routes : List Route}
      (h : Overrun (tail qmeta.qname r.domain.len) (literalArray (f r.domain)) r.domain.len) :
      RulesOverrun (r :: routes)
  | patterns {r : Route} {routes : List Route} (taken : RuleAgrees f qmeta r)
      (h : PatternsOverrun f qmeta r) : RulesOverrun (r :: routes)
  | later {r : Route} {routes : List Route} (passed : ¬ RuleAgrees f qmeta r)
      (h : RulesOverrun routes) : RulesOverrun (r :: routes)

/-- The query gets to the end of a literal on its way through the dispatch. -/
def DispatchOverrun (cfg : Config) : Prop :=
  match cfg.routes.find? fun r => r.hash = hashBytes qmeta.qname cfg.hashAlgo with
  | some r => PatternsOverrun f qmeta r
  | none => RulesOverrun f qmeta cfg.routes

variable {f qmeta}

theorem Agrees.not_overrun {part pat : List UInt8} {len : Nat} (h : Agrees part pat len) :
    ¬ Overrun part pat len := by
  intro hover
  have hshort := hover.short
  rcases h with h | ⟨-, h, -⟩ <;> omega

theorem apply_runs_iff {r : Route} (hr : r.prefixMatch.len ≤ 255 ∧ r.suffixMatch.len ≤ 255) (i : Nat)
    (hash : UInt64) (entries : UInt32) (clock : Clock) (maps : Maps) :
    Runs ((routeFiltersOf f r i hash).apply entries clock maps qmeta) ↔
      ¬ PatternsOverrun f qmeta r := by
  have hearly : PatternsOverrun f qmeta r → EarlyOk qmeta r := by
    rintro (⟨h, -⟩ | ⟨h, -, -⟩) <;> exact h
  have hprefix := matchPrefix_compared qmeta.qname (literalArray (f r.prefixMatch)) hr.1
  have hsuffix := matchSuffix_compared qmeta.qname (literalArray (f r.suffixMatch)) hr.2
  unfold FilterArgs.apply applyAppFilters
  refine runs_ite_iff (fun h => iff_of_true (runs_ok _) fun hover => (hearly hover).labels h)
    fun hlabels => ?_
  refine runs_ite_iff (fun h => iff_of_true (runs_ok _) fun hover => (hearly hover).length h)
    fun hlength => ?_
  refine runs_ite_iff (fun h => iff_of_true (runs_ok _) fun hover => ?_) fun htype => ?_
  · exact Bool.eq_false_iff.mp ((Bool.not_eq_true' _).mp h) (hearly hover).type
  have hpassed : EarlyOk qmeta r := ⟨hlabels, hlength, by
    rwa [Bool.not_eq_true', Bool.not_eq_false] at htype⟩
  -- the prefix, then the suffix; nothing behind them reads a literal
  refine hprefix.runs_bind_iff (fun h => .prefixed hpassed h) (fun hpfx => ?_) fun hno hfails => ?_
  · refine hsuffix.runs_bind_iff (fun h => .suffixed hpassed hpfx h) (fun hsfx => ?_)
      fun hno hfails => ?_
    · refine iff_of_true ?_ ?_
      · refine safe_ite (P := fun _ => True) (fun _ => safe_ok trivial) fun _ => ?_
        refine safe_ite (fun _ => safe_ok trivial) fun _ => ?_
        refine (powAllow_safe ..).bind fun _ _ => safe_ite (fun _ => safe_ok trivial) fun _ => ?_
        refine safe_ite (fun _ => ?_) fun _ => safe_ok trivial
        exact (bloomAllow_safe ..).bind fun _ _ =>
          safe_ite (fun _ => safe_ok trivial) fun _ => safe_ok trivial
      · rintro (⟨-, h⟩ | ⟨-, -, h⟩)
        · exact hpfx.not_overrun h
        · exact hsfx.not_overrun h
    · refine iff_of_true (runs_ok _) ?_
      rintro (⟨-, h⟩ | ⟨-, -, h⟩)
      · exact hpfx.not_overrun h
      · exact hno h
  · refine iff_of_true (runs_ok _) ?_
    rintro (⟨-, h⟩ | ⟨-, h, -⟩)
    · exact hno h
    · exact hfails h

theorem find?_eq_map_zipIdx {α : Type} (l : List α) (p : α → Bool) :
    l.find? p = (l.zipIdx.find? fun ai => p ai.1).map Prod.fst := by
  conv_lhs => rw [← List.zipIdx_map_fst 0 l]
  exact List.find?_map ..

section Dispatch

variable {cfg : Config} (clock : Clock) {h : Headers} (hash : UInt64) {st : XdpState}
  (hin : h.InFrame st.pkt)

include hin

theorem takeRoute_runs_iff {r : Route} (hr : r.prefixMatch.len ≤ 255 ∧ r.suffixMatch.len ≤ 255)
    (i : Nat) :
    Runs (takeRouteOf f cfg clock h qmeta hash r i st) ↔ ¬ PatternsOverrun f qmeta r := by
  rw [← apply_runs_iff hr i hash (macros cfg).rateStateEntries clock st.maps]
  refine ⟨runs_of_bind, fun hruns => hruns.bind fun _ _ => ?_⟩
  exact safe_ite (fun _ => targetAction_safe r hin) fun _ => safe_ok trivial

omit hin

/-- The rules, and what follows a selection. -/
theorem rules_runs_iff {α : Type} {routes : List (Route × Nat)}
    (hroutes : ∀ ri ∈ routes, ri.1.domain.len ≤ 255)
    {next : Option (Route × Nat) → Checked α}
    (hsome : ∀ ri ∈ routes, Runs (next (some ri)) ↔ ¬ PatternsOverrun f qmeta ri.1)
    (hnone : Runs (next none)) :
    Runs (suffixRouteOf f qmeta routes >>= next) ↔
      ¬ RulesOverrun f qmeta (routes.map Prod.fst) := by
  induction routes with
  | nil => exact iff_of_true hnone nofun
  | cons ri routes ih =>
    obtain ⟨r, i⟩ := ri
    have hrest := ih (fun ri hri => hroutes ri (.tail _ hri)) fun ri hri => hsome ri (.tail _ hri)
    have hrule : Compared (tail qmeta.qname r.domain.len) (literalArray (f r.domain)) r.domain.len
      (ruleMatches f qmeta r) := matchSuffix_compared _ _ (hroutes (r, i) (.head _))
    have hstep : suffixRouteOf f qmeta ((r, i) :: routes) >>= next =
        ruleMatches f qmeta r >>= fun b =>
          (if b then .ok (some (r, i)) else suffixRouteOf f qmeta routes) >>= next := by
      rw [suffixRouteOf, bind_assoc]
    rw [hstep]
    refine hrule.runs_bind_iff .domain (fun htaken => ?_) fun hno hpassed => ?_
    · refine (hsome (r, i) (.head _)).trans (not_congr ⟨.patterns htaken, fun hover => ?_⟩)
      cases hover with
      | domain hover => exact absurd hover htaken.not_overrun
      | patterns _ hover => exact hover
      | later hpassed _ => exact absurd htaken hpassed
    · refine hrest.trans (not_congr ⟨.later hpassed, fun hover => ?_⟩)
      cases hover with
      | domain hover => exact absurd hover hno
      | patterns htaken _ => exact absurd htaken hpassed
      | later _ hover => exact hover

include hin

/-- The whole dispatch faults exactly on such a walk. -/
theorem refDispatchOf_runs_iff (hacc : cfg.Accepted)
    (hquery : parseDnsQuery st.pkt h.udp = .ok (some qmeta)) :
    Runs (refDispatchOf f cfg clock h qmeta st) ↔ ¬ DispatchOverrun f qmeta cfg := by
  have htexts := fun r hr => (hacc.routes r hr).texts
  have hpatterns : ∀ r ∈ cfg.routes, r.prefixMatch.len ≤ 255 ∧ r.suffixMatch.len ≤ 255 := fun r hr =>
    ⟨Nat.le_trans (htexts r hr).prefix_len (by decide),
      Nat.le_trans (htexts r hr).suffix_len (by decide)⟩
  have htake : ∀ ri ∈ cfg.routes.zipIdx,
      Runs (takeRouteOf f cfg clock h qmeta (hashBytes qmeta.qname cfg.hashAlgo) ri.1 ri.2 st) ↔
        ¬ PatternsOverrun f qmeta ri.1 := fun ri hri =>
    takeRoute_runs_iff clock _ hin (hpatterns ri.1 (List.fst_mem_of_mem_zipIdx hri)) ri.2
  obtain ⟨-, hlen, -, hfnv⟩ := parsed_qname hquery
  unfold refDispatchOf
  rw [routeHash_eq cfg.hashAlgo hlen hfnv, ok_bind, DispatchOverrun,
    find?_eq_map_zipIdx, selectRouteOf]
  cases hsearch : cfg.routes.zipIdx.find? fun ri =>
      ri.1.hash = hashBytes qmeta.qname cfg.hashAlgo with
  | some ri => exact htake ri (List.mem_of_find?_eq_some hsearch)
  | none =>
    have hdomains : ∀ ri ∈ cfg.routes.zipIdx, ri.1.domain.len ≤ 255 := fun ri hri =>
      (htexts ri.1 (List.fst_mem_of_mem_zipIdx hri)).domain_len
    have hrules : (¬ RulesOverrun f qmeta (cfg.routes.zipIdx.map Prod.fst)) =
        ¬ RulesOverrun f qmeta cfg.routes := by rw [List.zipIdx_map_fst]
    refine (rules_runs_iff hdomains ?_ ?_).trans (iff_of_eq hrules)
    · exact htake
    · exact runs_ok _

end Dispatch

end Walk

/-! ## The written program on every frame -/

/-- The frame comes to the dispatch, and its query gets to the end of a literal there. -/
def Overruns (cfg : Config) (st : XdpState) : Prop :=
  ∃ h qmeta, dispatched (macros cfg) st.maps st.pkt = .ok (some (h, qmeta)) ∧
    DispatchOverrun (rewritten cfg) qmeta cfg

theorem generatedRouter_runs_iff {cfg : Config} (hacc : cfg.Accepted)
    (hcompiles : (readGenerated cfg).isSome) (clock : Clock) (st : XdpState)
    (hsplice : NoSplice cfg ∨ dispatched (macros cfg) st.maps st.pkt = .ok none) :
    Runs (generatedRouter cfg clock st) ↔ ¬ Overruns cfg st := by
  rcases dispatched_cases (macros cfg) st.maps st.pkt with
    ⟨hnone, a, ha⟩ | ⟨h, qmeta, hsome, hin, hquery, heq⟩
  · refine iff_of_true ?_ ?_
    · rw [generatedRouter, ha _ st rfl rfl]
      exact runs_ok _
    · rintro ⟨h, qmeta, hsome, -⟩
      rw [hnone] at hsome
      cases hsome
  · have hfree : NoSplice cfg := by
      refine hsplice.resolve_right fun hnone => ?_
      rw [hnone] at hsome
      cases hsome
    have hnodup := (readGenerated_isSome_iff hfree).mp hcompiles
    rw [generatedRouter, heq _ st rfl rfl, generatedDispatch_eq hfree hnodup,
      refDispatchOf_runs_iff clock hin hacc hquery]
    refine not_congr ⟨fun hover => ⟨h, qmeta, hsome, hover⟩, ?_⟩
    rintro ⟨h', qmeta', hsome', hover⟩
    rw [hsome] at hsome'
    cases hsome'
    exact hover

/-- Without placeholders no literal is shorter than its length. -/
theorem not_dispatchOverrun_of_free {cfg : Config} (h : PlaceholderFree cfg) (qmeta : DnsQueryMeta) :
    ¬ DispatchOverrun (rewritten cfg) qmeta cfg := by
  have hsame : ∀ s : CStr, (∀ q ∈ macroPlaceholders, ¬ q.token <:+: s.bytes) →
      ∀ part len, len ≤ s.len → ¬ Overrun part (literalArray (rewritten cfg s)) len := by
    intro s hs part len hlen hover
    have hshort := hover.short
    rw [literalArray, bytes_rewritten, replaceMacros_eq_self cfg hs, List.length_append] at hshort
    have : s.len = s.bytes.length := rfl
    simp only [List.length_singleton] at hshort
    omega
  have hpatterns : ∀ r ∈ cfg.routes, ¬ PatternsOverrun (rewritten cfg) qmeta r := by
    rintro r hr (⟨-, hover⟩ | ⟨-, -, hover⟩)
    · exact hsame _ (fun q hq => (h.patterns q (.tail _ hq) r hr).1) _ _ le_rfl hover
    · exact hsame _ (fun q hq => (h.patterns q (.tail _ hq) r hr).2) _ _ le_rfl hover
  have hrules : ∀ routes ⊆ cfg.routes, ¬ RulesOverrun (rewritten cfg) qmeta routes := by
    intro routes hroutes hover
    induction hover with
    | domain hover => exact hsame _ (fun q hq => h.domains q hq _ (hroutes (.head _))) _ _ le_rfl hover
    | patterns _ hover => exact hpatterns _ (hroutes (.head _)) hover
    | later _ _ ih => exact ih fun r hr => hroutes (.tail _ hr)
  intro hover
  unfold DispatchOverrun at hover
  cases hfind : cfg.routes.find? fun r => r.hash = hashBytes qmeta.qname cfg.hashAlgo with
  | some r =>
    rw [hfind] at hover
    exact hpatterns r (List.mem_of_find?_eq_some hfind) hover
  | none =>
    rw [hfind] at hover
    exact hrules _ (List.Subset.refl _) hover

/-- The frame does not come to the dispatch; or no rules are spliced into a literal, and the query
    does not get to the end of one that a pass has shortened. -/
def StaysInside (cfg : Config) (st : XdpState) : Prop :=
  dispatched (macros cfg) st.maps st.pkt = .ok none ∨ NoSplice cfg ∧ ¬ Overruns cfg st

theorem StaysInside.not_overruns {cfg : Config} {st : XdpState} (h : StaysInside cfg st) :
    ¬ Overruns cfg st := by
  rcases h with hnone | h
  · rintro ⟨hd, qmeta, hsome, -⟩
    rw [hnone] at hsome
    cases hsome
  · exact h.2

/-- **When the written program faults.** Every access to the frame and the name is in bounds, no
    shift is too wide and no divisor is zero; and every read of a literal is inside its array on a
    frame that `StaysInside`, as every frame does when the strings hold no placeholder. On any other
    frame the program faults, or a pattern takes in the rules. -/
theorem generatedRouter_safe (doc : YamlDocument) (cfg : Config) (hparse : parseConfigYaml doc = .ok cfg)
    (hcompiles : (readGenerated cfg).isSome) (clock : Clock) (st : XdpState) :
    (StaysInside cfg st → ∃ res, generatedRouter cfg clock st = .ok res) ∧
    ((∃ res, generatedRouter cfg clock st = .ok res) → StaysInside cfg st ∨ ¬ NoSplice cfg) ∧
    (PlaceholderFree cfg → StaysInside cfg st) := by
  have hruns := generatedRouter_runs_iff (accepted_of_parse hparse) hcompiles clock st
  refine ⟨fun hinside => ?_, ?_, fun hfree => .inr ⟨hfree.noSplice, ?_⟩⟩
  · have hsplice : NoSplice cfg ∨ dispatched (macros cfg) st.maps st.pkt = .ok none :=
      hinside.elim .inr fun h => .inl h.1
    obtain ⟨res, hres, -⟩ := (hruns hsplice).mpr hinside.not_overruns
    exact ⟨res, hres⟩
  · rintro ⟨res, hres⟩
    by_cases hsplice : NoSplice cfg
    · exact .inl (.inr ⟨hsplice, (hruns (.inl hsplice)).mp ⟨res, hres, trivial⟩⟩)
    · exact .inr hsplice
  · rintro ⟨hd, qmeta, -, hover⟩
    exact not_dispatchOverrun_of_free hfree qmeta hover

/-- A domain that a pass rewrites to "0". -/
def placeholderConfig : Config := spelledConfig "__ZEREH_HASH_ALGO__"

theorem noSplice_placeholderConfig : NoSplice placeholderConfig := by
  intro r hr
  rw [List.mem_singleton.mp hr]
  exact ⟨by decide, by decide⟩

theorem placeholderConfig_compiles : (readGenerated placeholderConfig).isSome :=
  (readGenerated_isSome_iff noSplice_placeholderConfig).mpr (List.nodup_singleton _)

theorem rewritten_placeholder :
    literalArray (rewritten placeholderConfig (CStr.lit "__ZEREH_HASH_ALGO__")) = [48, 0] := by
  decide +kernel

/-- A name of one byte is too short for the rule. -/
theorem generatedRouter_safe_sample :
    ∃ res, generatedRouter placeholderConfig ⟨0, 0, 0⟩
      (sampleState (sampleFrame [192, 0, 2, 1] sampleQuestion)) = .ok res := by
  refine (generatedRouter_safe _ placeholderConfig parse_spelledDocument.2.2
    placeholderConfig_compiles _ _).1 (.inr ⟨noSplice_placeholderConfig, ?_⟩)
  rintro ⟨h, qmeta, hsome, hover⟩
  have hquery : dispatched (macros placeholderConfig) .created
      (sampleFrame [192, 0, 2, 1] sampleQuestion) = .ok (some (⟨14, 34⟩, sampleQuery)) := rfl
  obtain ⟨-, rfl⟩ := Prod.mk.inj (Option.some.inj (Except.ok.inj (hquery.symm.trans hsome)))
  have hhash : placeholderConfig.routes.find?
      (fun r => r.hash = hashBytes sampleQuery.qname placeholderConfig.hashAlgo) = none := by
    decide +kernel
  rw [DispatchOverrun, hhash] at hover
  cases hover with
  | domain hover => exact absurd hover.fits (by decide)
  | patterns htaken _ =>
    rcases htaken with h | ⟨-, hlen, -⟩
    · exact absurd h (by decide)
    · rw [rewritten_placeholder] at hlen
      exact absurd hlen (by decide)
  | later _ hover => cases hover

/-- The question for a name of one label, which ends with "0", NUL and 17 letters. -/
def overrunFrame : List UInt8 := questionFrame ([20, 97, 48, 0] ++ List.replicate 17 97)

def overrunQuery : DnsQueryMeta :=
  { sampleQuery with
    qnameHash := fnv1a64 ([97, 48, 0] ++ List.replicate 17 97)
    qname := [97, 48, 0] ++ List.replicate 17 97 }

theorem dispatched_overrunFrame :
    dispatched (macros placeholderConfig) .created overrunFrame = .ok (some (⟨14, 34⟩, overrunQuery)) := by
  rfl

theorem overruns_placeholder : Overruns placeholderConfig (sampleState overrunFrame) := by
  refine ⟨_, _, dispatched_overrunFrame, ?_⟩
  have hhash : placeholderConfig.routes.find?
      (fun r => r.hash = hashBytes overrunQuery.qname placeholderConfig.hashAlgo) = none := by
    decide +kernel
  rw [DispatchOverrun, hhash]
  refine .domain ?_
  have hoverrun : Overrun (tail overrunQuery.qname 19)
      (literalArray (rewritten placeholderConfig (CStr.lit "__ZEREH_HASH_ALGO__"))) 19 := by
    rw [rewritten_placeholder]
    exact ⟨by decide, by decide, by decide, by decide⟩
  exact hoverrun

/-- The rule compares 19 bytes with an array of two. -/
theorem placeholder_overruns :
    ¬ ∀ (doc : YamlDocument) (cfg : Config), parseConfigYaml doc = .ok cfg →
      (readGenerated cfg).isSome → ∀ (clock : Clock) (st : XdpState),
        ∃ res, generatedRouter cfg clock st = .ok res := by
  intro hall
  obtain ⟨res, hres⟩ := hall _ _ parse_spelledDocument.2.2 placeholderConfig_compiles ⟨0, 0, 0⟩
    (sampleState overrunFrame)
  have hruns := generatedRouter_runs_iff (accepted_of_parse parse_spelledDocument.2.2)
    placeholderConfig_compiles ⟨0, 0, 0⟩ (sampleState overrunFrame) (.inl noSplice_placeholderConfig)
  exact hruns.mp ⟨res, hres, trivial⟩ overruns_placeholder

end Zereh.Link
