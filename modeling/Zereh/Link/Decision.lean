/-
  What the literals of a program decide about a query.

  Domains, prefixes and suffixes are compared as they stand in the written text. `decision` is what
  these comparisons come to: the query is passed or dropped for good, or goes to the limiter of a
  route.
  `refDispatchOf_decided`: on a query that overruns no literal the dispatch is its decision, and
  behind that no literal is read.
-/
import Zereh.Link.Isolation
import Zereh.Link.Source

namespace Zereh.Link

open Lib CText Control Xdp

instance (part pat : List UInt8) (len : Nat) : Decidable (Agrees part pat len) :=
  inferInstanceAs (Decidable (_ ∨ _ ∧ _ ∧ _))

instance (qmeta : DnsQueryMeta) (r : Route) : Decidable (EarlyOk qmeta r) :=
  decidable_of_iff (¬ (qmeta.labelDepth < r.minLabels ∨ qmeta.labelDepth > r.maxLabels) ∧
      ¬ (qmeta.qnameLen < r.qnameMinLen.toNat ∨ qmeta.qnameLen > r.qnameMaxLen.toNat) ∧
      typeAllowed qmeta.qtype r.rrtypeMask = true)
    ⟨fun ⟨hlabels, hlength, htype⟩ => ⟨hlabels, hlength, htype⟩,
      fun h => ⟨h.labels, h.length, h.type⟩⟩

section Decision

variable (f : CStr → CStr) (qmeta : DnsQueryMeta)

instance (r : Route) : Decidable (RuleAgrees f qmeta r) :=
  inferInstanceAs (Decidable (Agrees ..))

/-- The name passes both patterns of the route. -/
def PatternsAgree (r : Route) : Prop :=
  Agrees qmeta.qname (literalArray (f r.prefixMatch)) r.prefixMatch.len ∧
    Agrees (tail qmeta.qname r.suffixMatch.len) (literalArray (f r.suffixMatch)) r.suffixMatch.len

instance (r : Route) : Decidable (PatternsAgree f qmeta r) :=
  inferInstanceAs (Decidable (_ ∧ _))

/-- The route of a query: the one with its hash, else that of the first rule that takes it. -/
def selectedIndexOf (cfg : Config) : Option Nat :=
  (cfg.routes.findIdx? fun r => r.hash = hashBytes qmeta.qname cfg.hashAlgo).or
    (cfg.routes.findIdx? fun r => RuleAgrees f qmeta r)

/-- A query is answered without a limiter, or goes to the limiter of a route. -/
inductive Decision where
  | pass
  | drop
  | limiter (i : Nat)
  deriving DecidableEq

def decision (cfg : Config) : Decision :=
  match selectedIndexOf f qmeta cfg with
  | none => if cfg.defaultAction = .drop then .drop else .pass
  | some i =>
    if (cfg.routes[i]?).any fun r => EarlyOk qmeta r ∧ PatternsAgree f qmeta r then .limiter i else .drop

/-- What the dispatch comes to. -/
inductive Decided (cfg : Config) (clock : Clock) (h : Headers) (st : XdpState) :
    Decision → Outcome → Prop
  | pass : Decided cfg clock h st .pass (st.finish .pass)
  | drop : Decided cfg clock h st .drop (st.finish .drop)
  | limiter {r : Route} {i : Nat} (hr : cfg.routes[i]? = some r) (early : EarlyOk qmeta r)
      (patterns : PatternsAgree f qmeta r) : Decided cfg clock h st (.limiter i)
        (takeRouteOf f cfg clock h qmeta (hashBytes qmeta.qname cfg.hashAlgo) r i st)

variable {f qmeta}

theorem Compared.true_iff {part pat : List UInt8} {len : Nat} {x : Checked Bool}
    (h : Compared part pat len x) : x = .ok true ↔ Agrees part pat len := by
  cases h with
  | overrun h hx =>
    refine iff_of_false ?_ fun hagrees => hagrees.not_overrun h
    rintro rfl
    exact hx (runs_ok true)
  | agrees _ h => exact iff_of_true rfl h
  | differs _ h => exact iff_of_false nofun h

theorem Compared.false_of_not {part pat : List UInt8} {len : Nat} {x : Checked Bool}
    (h : Compared part pat len x) (hover : ¬ Overrun part pat len) (hno : ¬ Agrees part pat len) :
    x = .ok false := by
  cases h with
  | overrun h _ => exact absurd h hover
  | agrees _ h => exact absurd h hno
  | differs _ _ => rfl

/-- The name checks of a route, on the arrays of its literals. -/
theorem nameOkOf_iff {r : Route} (hr : r.prefixMatch.len ≤ 255 ∧ r.suffixMatch.len ≤ 255) (i : Nat)
    (hash : UInt64) :
    (routeFiltersOf f r i hash).NameOk qmeta ↔ EarlyOk qmeta r ∧ PatternsAgree f qmeta r := by
  have hprefix := (matchPrefix_compared qmeta.qname (literalArray (f r.prefixMatch)) hr.1).true_iff
  have hsuffix := (matchSuffix_compared qmeta.qname (literalArray (f r.suffixMatch)) hr.2).true_iff
  constructor
  · intro h
    exact ⟨⟨h.labels, h.length, h.type⟩, hprefix.mp h.prefixOk, hsuffix.mp h.suffixOk⟩
  · rintro ⟨hearly, hp, hs⟩
    exact ⟨hearly.labels, hearly.length, hearly.type, hprefix.mpr hp, hsuffix.mpr hs⟩

/-- A route refuses a name before its limiter is asked. -/
theorem takeRouteOf_refused (cfg : Config) (clock : Clock) (h : Headers) (hash : UInt64) {r : Route}
    (hr : r.prefixMatch.len ≤ 255 ∧ r.suffixMatch.len ≤ 255) (i : Nat)
    (hover : ¬ PatternsOverrun f qmeta r) (hno : ¬ (EarlyOk qmeta r ∧ PatternsAgree f qmeta r))
    (st : XdpState) : takeRouteOf f cfg clock h qmeta hash r i st = st.finish .drop := by
  obtain ⟨⟨ok, next⟩, hrun, -⟩ :=
    (apply_runs_iff hr i hash (macros cfg).rateStateEntries clock st.maps).mpr hover
  obtain ⟨rfl, rfl⟩ := FilterArgs.apply_of_not_nameOk (mt (nameOkOf_iff hr i hash).mp hno) hrun
  rw [takeRouteOf, hrun, ok_bind]
  rfl

/-- Without an overrun the rules are a search, and the route found has none either. -/
theorem suffixRouteOf_eq {routes : List (Route × Nat)} (hlen : ∀ ri ∈ routes, ri.1.domain.len ≤ 255)
    (hover : ¬ RulesOverrun f qmeta (routes.map Prod.fst)) :
    suffixRouteOf f qmeta routes = .ok (routes.find? fun ri => RuleAgrees f qmeta ri.1) ∧
      ∀ ri, routes.find? (fun ri => RuleAgrees f qmeta ri.1) = some ri →
        ¬ PatternsOverrun f qmeta ri.1 := by
  induction routes with
  | nil => exact ⟨rfl, nofun⟩
  | cons ri routes ih =>
    obtain ⟨r, i⟩ := ri
    have hrule : Compared (tail qmeta.qname r.domain.len) (literalArray (f r.domain)) r.domain.len
      (ruleMatches f qmeta r) := matchSuffix_compared _ _ (hlen (r, i) (.head _))
    rw [suffixRouteOf, List.find?_cons]
    by_cases htaken : RuleAgrees f qmeta r
    · rw [hrule.true_iff.mpr htaken, ok_bind, if_pos rfl, decide_eq_true htaken]
      refine ⟨rfl, ?_⟩
      rintro ri ⟨⟩
      exact fun h => hover (.patterns htaken h)
    · rw [hrule.false_of_not (fun h => hover (.domain h)) htaken, ok_bind, decide_eq_false htaken]
      exact ih (fun ri hri => hlen ri (.tail _ hri)) fun h => hover (.later htaken h)

/-- **The dispatch is its decision.** -/
theorem refDispatchOf_decided {cfg : Config} (hacc : cfg.Accepted) (clock : Clock) {h : Headers}
    {st : XdpState} (hquery : parseDnsQuery st.pkt h.udp = .ok (some qmeta))
    (hover : ¬ DispatchOverrun f qmeta cfg) :
    Decided f qmeta cfg clock h st (decision f qmeta cfg) (refDispatchOf f cfg clock h qmeta st) := by
  obtain ⟨-, hlen, -, hfnv⟩ := parsed_qname hquery
  have htexts := fun r hr => (hacc.routes r hr).texts
  have hpatterns : ∀ r ∈ cfg.routes, r.prefixMatch.len ≤ 255 ∧ r.suffixMatch.len ≤ 255 := fun r hr =>
    ⟨Nat.le_trans (htexts r hr).prefix_len (by decide),
      Nat.le_trans (htexts r hr).suffix_len (by decide)⟩
  have hselected : ∃ selected, selectRouteOf f cfg qmeta (hashBytes qmeta.qname cfg.hashAlgo) =
      .ok selected ∧ selected.map Prod.snd = selectedIndexOf f qmeta cfg ∧
      ∀ ri, selected = some ri → ri ∈ cfg.routes.zipIdx ∧ ¬ PatternsOverrun f qmeta ri.1 := by
    rw [DispatchOverrun, find?_eq_map_zipIdx] at hover
    unfold selectRouteOf selectedIndexOf
    rw [List.findIdx?_eq_fst_find?_zipIdx, List.findIdx?_eq_fst_find?_zipIdx]
    cases hhash : cfg.routes.zipIdx.find? fun ri =>
        ri.1.hash = hashBytes qmeta.qname cfg.hashAlgo with
    | some ri =>
      rw [hhash] at hover
      refine ⟨some ri, rfl, rfl, ?_⟩
      rintro ri ⟨⟩
      exact ⟨List.mem_of_find?_eq_some hhash, hover⟩
    | none =>
      rw [hhash] at hover
      have hdomains : ∀ ri ∈ cfg.routes.zipIdx, ri.1.domain.len ≤ 255 := fun ri hri =>
        (htexts ri.1 (List.fst_mem_of_mem_zipIdx hri)).domain_len
      have hnone : ¬ RulesOverrun f qmeta (cfg.routes.zipIdx.map Prod.fst) := by
        rwa [List.zipIdx_map_fst]
      obtain ⟨hrules, hsafe⟩ := suffixRouteOf_eq hdomains hnone
      exact ⟨_, hrules, rfl, fun ri hri => ⟨List.mem_of_find?_eq_some hri, hsafe ri hri⟩⟩
  obtain ⟨selected, hselect, hindex, hroute⟩ := hselected
  unfold refDispatchOf decision
  rw [routeHash_eq cfg.hashAlgo hlen hfnv, ok_bind, hselect, ok_bind, ← hindex]
  cases selected with
  | none =>
    cases cfg.defaultAction with
    | pass => exact .pass
    | drop => exact .drop
  | some ri =>
    obtain ⟨r, i⟩ := ri
    obtain ⟨hmem, hsafe⟩ := hroute _ rfl
    have hr : cfg.routes[i]? = some r := List.mem_zipIdx_iff_getElem?.mp hmem
    have hlens := hpatterns r (List.mem_of_getElem? hr)
    dsimp only [Option.map_some]
    rw [hr, Option.any_some]
    by_cases hpass : EarlyOk qmeta r ∧ PatternsAgree f qmeta r
    · rw [if_pos (decide_eq_true hpass)]
      exact .limiter hr hpass.1 hpass.2
    · rw [if_neg (by rwa [decide_eq_true_iff]), takeRouteOf_refused cfg clock h _ hlens i hsafe hpass]
      exact .drop

end Decision

end Zereh.Link
