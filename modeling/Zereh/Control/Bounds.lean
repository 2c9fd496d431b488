/-
  The bounds of a route, on the number of labels and on the length of a name.

  Each bound may stand in two places, flat in the route and nested in `filters.qname_rules`, and the
  nested one wins. A missing bound is the other one of its pair. The rule is stated over the integers
  that the document writes (`PairGiven`), and compared with the parser:
    - `routeSteps_drawn`, `pairBounds_drawn`: the bounds through both places and the pairing.
    - `parseRoute_ok_iff`: a route is accepted if it is accepted without its bounds, they are
      numbers of their types, and those in force are in range.
    - `drawPair_eq`, `pair_ok_iff`: so it has the bounds that `strtoul` returns, or is rejected for
      them.
  These are the integers written, unless one of them wraps around (`bounds_follow_iff`).
-/
import Zereh.Control.Numbers
import Zereh.Control.WithoutBounds

namespace Zereh.Control

open Lib

/-! ## The rule -/

/-- What a document gives for the two bounds of a pair, in both places. -/
structure PairGiven where
  flatMin : Option Int
  nestedMin : Option Int
  flatMax : Option Int
  nestedMax : Option Int
  deriving DecidableEq

namespace PairGiven

variable (p : PairGiven)

/-- Every value that is given, in force or not. -/
def values : List Int :=
  p.flatMin.toList ++ p.nestedMin.toList ++ p.flatMax.toList ++ p.nestedMax.toList

/-- The lower bound in force. -/
def min : Option Int := p.nestedMin.or p.flatMin

/-- The upper bound in force. -/
def max : Option Int := p.nestedMax.or p.flatMax

/-- The pairing rule. -/
def paired (limit : Nat) : Int × Int :=
  match p.min, p.max with
  | none, none => (1, limit)
  | some a, none => (a, a)
  | none, some b => (b, b)
  | some a, some b => (a, b)

/-- Some value does not fit into `w` bits, or the pair is no range between 1 and the limit. -/
def Bad (w limit : Nat) : Prop :=
  (∃ v ∈ p.values, ¬ (0 ≤ v ∧ v < 2 ^ w)) ∨ (p.paired limit).1 = 0 ∨
    (p.paired limit).2 < (p.paired limit).1 ∨ limit < (p.paired limit).2

instance (w limit : Nat) : Decidable (p.Bad w limit) :=
  inferInstanceAs (Decidable (_ ∨ _ ∨ _ ∨ _))

/-- Every value as `strtoul` takes it. -/
def wrapped : PairGiven where
  flatMin := p.flatMin.map Lib.wrapped
  nestedMin := p.nestedMin.map Lib.wrapped
  flatMax := p.flatMax.map Lib.wrapped
  nestedMax := p.nestedMax.map Lib.wrapped

end PairGiven

/-- An optional node writes an optional integer. -/
def Writes (v : Option YamlNode) (x : Option Int) : Prop :=
  Option.Rel (fun node value => ∃ n : Numeral, node = .scalar n.text ∧ n.value = value) v x

/-- Four optional nodes write what a document gives for a pair. -/
structure PairWritten (flatMin nestedMin flatMax nestedMax : Option YamlNode) (p : PairGiven) :
    Prop where
  flatMin : Writes flatMin p.flatMin
  nestedMin : Writes nestedMin p.nestedMin
  flatMax : Writes flatMax p.flatMax
  nestedMax : Writes nestedMax p.nestedMax

/-- What the rules of a route have for a key. -/
def ruleGet (doc : YamlDocument) (node : YamlNode) (key : String) : Option YamlNode :=
  pathGet doc node ["filters", "qname_rules", key]

/-- What a route gives for the number of labels. -/
def LabelsGiven (doc : YamlDocument) (node : YamlNode) (p : PairGiven) : Prop :=
  PairWritten (mapGet doc node "min_labels") (ruleGet doc node "min_labels")
    (mapGet doc node "max_labels") (ruleGet doc node "max_labels") p

/-- What a route gives for the length of a name; the flat keys have two names each. -/
def LengthsGiven (doc : YamlDocument) (node : YamlNode) (p : PairGiven) : Prop :=
  PairWritten (mapGet2 doc node "qname_min_len" "min_length") (ruleGet doc node "min_length")
    (mapGet2 doc node "qname_max_len" "max_length") (ruleGet doc node "max_length") p

/-! ## Where the bounds come from -/

/-- The bounds that a draft was given so far. -/
structure Drawn where
  minLabels : Option Nat
  maxLabels : Option Nat
  minLength : Option Nat
  maxLength : Option Nat

def drawn (d : Draft) : Drawn where
  minLabels := if d.hasMinLabels then some d.minLabels.toNat else none
  maxLabels := if d.hasMaxLabels then some d.maxLabels.toNat else none
  minLength := if d.hasMinLength then some d.qnameMinLen.toNat else none
  maxLength := if d.hasMaxLength then some d.qnameMaxLen.toNat else none

namespace Drawn

def setMinLabels (x : Option Nat) (b : Drawn) : Drawn := { b with minLabels := x }
def setMaxLabels (x : Option Nat) (b : Drawn) : Drawn := { b with maxLabels := x }
def setMinLength (x : Option Nat) (b : Drawn) : Drawn := { b with minLength := x }
def setMaxLength (x : Option Nat) (b : Drawn) : Drawn := { b with maxLength := x }

end Drawn

/-- What a bound is after an optional node was read. -/
def drawOr {α : Type} (toNat : α → Nat) (parse : YamlNode → Parsed α) (v : Option YamlNode)
    (x : Option Nat) : Option Nat :=
  v.elim x fun node => (parse node).toOption.map toNat

/-- The bounds after those of one place. -/
def draw (minLabels maxLabels minLength maxLength : Option YamlNode) (b : Drawn) : Drawn where
  minLabels := drawOr UInt8.toNat parseU8 minLabels b.minLabels
  maxLabels := drawOr UInt8.toNat parseU8 maxLabels b.maxLabels
  minLength := drawOr UInt16.toNat parseU16 minLength b.minLength
  maxLength := drawOr UInt16.toNat parseU16 maxLength b.maxLength

section Trace

variable {doc : YamlDocument} {node : YamlNode}

theorem field_drawn {α : Type} {v : Option YamlNode} {parse : YamlNode → Parsed α}
    {set : α → Draft → Draft} {toNat : α → Nat} (get : Drawn → Option Nat)
    (put : Option Nat → Drawn → Drawn)
    (hput : ∀ a d, drawn (set a d) = put (some (toNat a)) (drawn d))
    (hget : ∀ b, put (get b) b = b) :
    Moves drawn (fun x y => y = put (drawOr toNat parse v (get x)) x) (field v parse set) := by
  intro d d' h
  cases v with
  | none =>
    cases h
    exact (hget _).symm
  | some node =>
    obtain ⟨a, ha, h⟩ := bind_eq_ok h
    cases h
    change drawn (set a d) = put ((parse node).toOption.map toNat) (drawn d)
    rw [ha, hput]
    rfl

/-- The four steps that read the bounds of one place. -/
theorem bounds_drawn {a b c e : Option YamlNode} :
    Moves drawn (fun x y => y = draw a b c e x)
      (field a parseU8 setMinLabels >=> field b parseU8 setMaxLabels >=>
        field c parseU16 setMinLength >=> field e parseU16 setMaxLength) := by
  have ha : Moves drawn _ (field a parseU8 setMinLabels) :=
    field_drawn Drawn.minLabels Drawn.setMinLabels (fun _ _ => rfl) fun _ => rfl
  have hb : Moves drawn _ (field b parseU8 setMaxLabels) :=
    field_drawn Drawn.maxLabels Drawn.setMaxLabels (fun _ _ => rfl) fun _ => rfl
  have hc : Moves drawn _ (field c parseU16 setMinLength) :=
    field_drawn Drawn.minLength Drawn.setMinLength (fun _ _ => rfl) fun _ => rfl
  have he : Moves drawn _ (field e parseU16 setMaxLength) :=
    field_drawn Drawn.maxLength Drawn.setMaxLength (fun _ _ => rfl) fun _ => rfl
  intro d d' h
  obtain ⟨_, rfl, _, rfl, _, rfl, heq⟩ := ha.comp (hb.comp (hc.comp he)) d d' h
  exact heq

/-- The bounds that the flat keys leave. -/
def flatDraw (doc : YamlDocument) (node : YamlNode) : Drawn → Drawn :=
  draw (mapGet doc node "min_labels") (mapGet doc node "max_labels")
    (mapGet2 doc node "qname_min_len" "min_length") (mapGet2 doc node "qname_max_len" "max_length")

def rulesDraw (get : String → Option YamlNode) : Drawn → Drawn :=
  draw (get "min_labels") (get "max_labels") (get "min_length") (get "max_length")

theorem parseRouteFlat_drawn :
    Moves drawn (fun x y => y = flatDraw doc node x) (parseRouteFlat doc node) := by
  have hrest : Leaves drawn (field (mapGet doc node "pow_difficulty") parseU8 setPowDifficulty >=>
      field (mapGet doc node "allow_types") (parseRrtypeMask doc) setRrtypeMask) :=
    .comp (field_leaves fun _ _ => rfl) (field_leaves fun _ _ => rfl)
  unfold parseRouteFlat
  refine Leaves.then ?_ <| Leaves.then ?_ <| Leaves.then ?_ <| Leaves.then ?_ <| Leaves.then ?_ <|
    Leaves.then ?_ ?_
  · exact field_leaves fun _ _ => rfl
  · exact field_leaves fun _ _ => rfl
  · exact field_leaves fun _ _ => rfl
  · exact textField_leaves fun _ _ => rfl
  · exact textField_leaves fun _ _ => rfl
  · exact textField_leaves fun _ _ => rfl
  · have hbounds := Moves.then_leaves (bounds_drawn (a := mapGet doc node "min_labels")
      (b := mapGet doc node "max_labels") (c := mapGet2 doc node "qname_min_len" "min_length")
      (e := mapGet2 doc node "qname_max_len" "max_length")) hrest
    rwa [fish_assoc, fish_assoc, fish_assoc] at hbounds

theorem parseQnameRules_drawn :
    Moves drawn (fun x y => y = rulesDraw (mapGet doc node) x) (parseQnameRules doc node) := by
  unfold parseQnameRules
  refine Leaves.then ?_ <| Leaves.then ?_ bounds_drawn
  all_goals exact textField_leaves fun _ _ => rfl

theorem parseRouteFilters_drawn :
    Moves drawn (fun x y => y = rulesDraw (nestedGet doc node "qname_rules") x)
      (parseRouteFilters doc node) := by
  have hpow : Leaves drawn (subsection (mapGet doc node "pow") (parsePow doc)) :=
    subsection_leaves fun _ => parsePow_leaves fun _ _ _ _ => rfl
  have hrules : Moves drawn (fun x y => y = rulesDraw (nestedGet doc node "qname_rules") x)
      (subsection (mapGet doc node "qname_rules") (parseQnameRules doc)) :=
    subsection_moves (R := fun get x y => y = rulesDraw get x) (fun _ => parseQnameRules_drawn)
      fun _ => rfl
  have hrate : Leaves drawn (subsection (mapGet doc node "rate_limit") (parseRateLimit doc)) :=
    subsection_leaves fun _ => parseRateLimit_leaves fun _ _ => rfl
  have htypes : Leaves drawn (stepField (mapGet doc node "dns_types") (parseRouteDnsTypes doc)) :=
    stepField_leaves fun _ => parseRouteDnsTypes_leaves fun _ _ => rfl
  have hbloom : Leaves drawn
      (subsection (mapGet doc node "bloom_filter") (parseBloomFilter doc)) :=
    subsection_leaves fun _ => parseBloomFilter_leaves fun _ _ _ _ _ _ => rfl
  intro d d' h
  unfold parseRouteFilters at h
  split at h
  · exact hpow.then (hrules.then_leaves (hrate.comp (htypes.comp hbloom))) d d' h
  · cases h

/-- The bounds given in a route: the flat ones, then the nested ones. -/
def drawnOf (doc : YamlDocument) (node : YamlNode) : Drawn :=
  rulesDraw (ruleGet doc node) (flatDraw doc node ⟨none, none, none, none⟩)

end Trace

/-! ## Pairing -/

/-- The pairing rule on what was given. -/
def pairOf (limit : Nat) : Option Nat → Option Nat → Nat × Nat
  | none, none => (1, limit)
  | some a, none => (a, a)
  | none, some b => (b, b)
  | some a, some b => (a, b)

/-- The two pairs of a route. -/
def labelPair (r : Route) : Nat × Nat := (r.minLabels.toNat, r.maxLabels.toNat)
def lengthPair (r : Route) : Nat × Nat := (r.qnameMinLen.toNat, r.qnameMaxLen.toNat)

theorem pairBounds_drawn (d : Draft) :
    labelPair (pairBounds d) = pairOf 127 (drawn d).minLabels (drawn d).maxLabels ∧
      lengthPair (pairBounds d) = pairOf 255 (drawn d).minLength (drawn d).maxLength := by
  unfold pairBounds drawn
  dsimp only
  cases d.hasMinLabels <;> cases d.hasMaxLabels <;> cases d.hasMinLength <;> cases d.hasMaxLength
  all_goals exact ⟨rfl, rfl⟩

/-- A pair of bounds is a range between 1 and the limit. -/
def InRange (limit : Nat) (p : Nat × Nat) : Prop := 1 ≤ p.1 ∧ p.1 ≤ p.2 ∧ p.2 ≤ limit

/-- The parameters of the two filters that validation reads. -/
structure Passes (r : Route) : Prop where
  pow : r.powEnabled = true → r.powDifficulty ≤ 63
  size : r.bloomEnabled = true → r.bloomSize = 0 ∨ 64 ≤ r.bloomSize ∧ r.bloomSize ≤ 65536
  functions : r.bloomEnabled = true → r.bloomHashFunctions ≤ 8

theorem exists_ok_ite {α : Type} {c : Prop} [Decidable c] {x : Parsed α} :
    (∃ a, (if c then reject else x) = .ok a) ↔ ¬ c ∧ ∃ a, x = .ok a := by
  split_ifs with hc
  · exact iff_of_false (by rintro ⟨a, h⟩; cases h) fun h => h.1 hc
  · exact (and_iff_right hc).symm

theorem checkBloom_ok_iff (r : Route) :
    (∃ r', checkBloom r = .ok r') ↔
      (r.bloomEnabled = true → r.bloomSize = 0 ∨ 64 ≤ r.bloomSize ∧ r.bloomSize ≤ 65536) ∧
        (r.bloomEnabled = true → r.bloomHashFunctions ≤ 8) := by
  unfold checkBloom
  cases r.bloomEnabled with
  | false => exact iff_of_true ⟨_, rfl⟩ ⟨by rintro ⟨⟩, by rintro ⟨⟩⟩
  | true =>
    have hsize : ((if r.bloomSize = 0 then 1024 else r.bloomSize) > 65536 ∨
        (if r.bloomSize = 0 then 1024 else r.bloomSize) < 64) ↔
          ¬ (r.bloomSize = 0 ∨ 64 ≤ r.bloomSize ∧ r.bloomSize ≤ 65536) := by
      split_ifs with hzero
      · simp [hzero]
      · rw [or_iff_right hzero, not_and_or, UInt32.not_le, UInt32.not_le, or_comm]
    have hfunctions : (if r.bloomHashFunctions = 0 then 3 else r.bloomHashFunctions) > 8 ↔
        ¬ r.bloomHashFunctions ≤ 8 := by
      split_ifs with hzero
      · rw [hzero]
        decide
      · exact UInt8.not_le.symm
    rw [if_neg (by decide)]
    dsimp only
    rw [exists_ok_ite, exists_ok_ite, hsize, hfunctions, not_not, not_not]
    exact ⟨fun h => ⟨fun _ => h.1, fun _ => h.2.1⟩, fun h => ⟨h.1 rfl, h.2 rfl, _, rfl⟩⟩

theorem passes_iff (r : Route) :
    (¬ (clearPow r).powDifficulty > 63 ∧ ∃ r', checkBloom (clearPow r) = .ok r') ↔ Passes r := by
  rw [checkBloom_ok_iff]
  unfold clearPow
  cases hp : r.powEnabled with
  | false =>
    have hpow : r.powEnabled = true → r.powDifficulty ≤ 63 := fun hon => by
      rw [hp] at hon
      cases hon
    rw [if_pos (by decide)]
    exact ⟨fun h => ⟨hpow, h.2.1, h.2.2⟩, fun h =>
      ⟨UInt8.not_lt.mpr (show (0 : UInt8) ≤ 63 by decide), h.size, h.functions⟩⟩
  | true =>
    rw [if_neg (by decide), gt_iff_lt, UInt8.not_lt]
    exact ⟨fun h => ⟨fun _ => h.1, h.2.1, h.2.2⟩, fun h => ⟨h.pow hp, h.size, h.functions⟩⟩

theorem inRange_labels_iff (r : Route) : InRange 127 (labelPair r) ↔
      ¬ (r.minLabels = 0 ∨ r.maxLabels = 0 ∨ r.minLabels > r.maxLabels ∨ r.maxLabels > 127) := by
  have h127 : (127 : UInt8).toNat = 127 := rfl
  have hzero : (0 : UInt8).toNat = 0 := rfl
  unfold InRange labelPair
  rw [gt_iff_lt, gt_iff_lt, UInt8.lt_iff_toNat_lt, UInt8.lt_iff_toNat_lt, ← UInt8.toNat_inj,
    ← UInt8.toNat_inj, h127, hzero]
  omega

theorem inRange_lengths_iff (r : Route) : InRange 255 (lengthPair r) ↔
      ¬ (r.qnameMinLen = 0 ∨ r.qnameMaxLen > 255 ∨ r.qnameMinLen > r.qnameMaxLen) := by
  have h255 : (255 : UInt16).toNat = 255 := rfl
  have hzero : (0 : UInt16).toNat = 0 := rfl
  unfold InRange lengthPair
  rw [gt_iff_lt, gt_iff_lt, UInt16.lt_iff_toNat_lt, UInt16.lt_iff_toNat_lt, ← UInt16.toNat_inj,
    h255, hzero]
  omega

theorem checkRoute_ok_iff (r : Route) :
    (∃ r', checkRoute r = .ok r') ↔
      InRange 127 (labelPair r) ∧ InRange 255 (lengthPair r) ∧ Passes r := by
  unfold checkRoute
  dsimp only
  rw [exists_ok_ite, exists_ok_ite, exists_ok_ite, passes_iff, inRange_labels_iff,
    inRange_lengths_iff]

/-! ## Acceptance -/

section Accepted

variable {doc : YamlDocument} {node : YamlNode} {cfg : Config}

/-- The route is accepted in the document without bound keys. -/
def RestAccepted (doc : YamlDocument) (node : YamlNode) (cfg : Config) : Prop :=
  ∃ r, parseRoute (withoutBounds doc) (some (dropBounds doc node)) cfg = .ok r

/-- The steps between the target and the validation. -/
def routeSteps (doc : YamlDocument) (node : YamlNode) : Draft → Parsed Draft :=
  parseRouteFlat doc node >=> stepField (mapGet doc node "filters") (parseRouteFilters doc)

theorem routeSteps_mirrors :
    Mirrors Draft.unbound (FlatFit doc node ∧ RulesFit (ruleGet doc node)) (routeSteps doc node)
      (routeSteps (withoutBounds doc) (dropBounds doc node)) := by
  refine .comp parseRouteFlat_mirrors ?_
  exact stepField_mirrors doc node
    (Q := fun get => RulesFit fun key => (get "qname_rules").bind (mapGet doc · key)) (by decide)
    (fun _ => parseRouteFilters_mirrors) ⟨parses_none, parses_none, parses_none, parses_none⟩

theorem routeSteps_drawn {d d' : Draft} (hd : d.unbound = d) (h : routeSteps doc node d = .ok d') :
    drawn d' = drawnOf doc node := by
  have hfilters : Moves drawn (fun x y => y = rulesDraw (ruleGet doc node) x)
      (stepField (mapGet doc node "filters") (parseRouteFilters doc)) :=
    stepField_moves
      (R := fun get x y => y = rulesDraw (fun key => (get "qname_rules").bind (mapGet doc · key)) x)
      (fun _ => parseRouteFilters_drawn) fun _ => rfl
  obtain ⟨_, rfl, heq⟩ := parseRouteFlat_drawn.comp hfilters d d' h
  rw [heq, ← hd]
  rfl

/-- Pairing leaves the filters alone. -/
theorem passes_unbound (d : Draft) : Passes (pairBounds d.unbound) ↔ Passes (pairBounds d) := by
  have hpair : ∀ d : Draft, Passes (pairBounds d) ↔ Passes d.toRoute := by
    intro d
    unfold pairBounds
    dsimp only
    split_ifs <;> exact ⟨fun h => ⟨h.1, h.2, h.3⟩, fun h => ⟨h.1, h.2, h.3⟩⟩
  rw [hpair, hpair]
  exact ⟨fun h => ⟨h.1, h.2, h.3⟩, fun h => ⟨h.1, h.2, h.3⟩⟩

theorem parseRoute_mapping_ok_iff {pairs : List (Nat × Nat)} {r : Route} :
    parseRoute doc (some (.mapping pairs)) cfg = .ok r ↔
      ∃ d₁ d₂, parseRouteTarget doc (.mapping pairs) cfg = .ok d₁ ∧
        routeSteps doc (.mapping pairs) d₁ = .ok d₂ ∧ checkRoute (pairBounds d₂) = .ok r := by
  rw [parseRoute_mapping, bind_eq_ok_iff]
  constructor
  · rintro ⟨d₁, h₁, h⟩
    obtain ⟨d₂, h₂, h⟩ := bind_eq_ok h
    exact ⟨d₁, d₂, h₁, h₂, h⟩
  · rintro ⟨d₁, d₂, h₁, h₂, h⟩
    exact ⟨d₁, h₁, bind_eq_ok_iff.mpr ⟨d₂, h₂, h⟩⟩

/-- The bounds in force on the labels. -/
def labelsOf (doc : YamlDocument) (node : YamlNode) : Nat × Nat :=
  pairOf 127 (drawnOf doc node).minLabels (drawnOf doc node).maxLabels

/-- The bounds in force on the length. -/
def lengthsOf (doc : YamlDocument) (node : YamlNode) : Nat × Nat :=
  pairOf 255 (drawnOf doc node).minLength (drawnOf doc node).maxLength

theorem routeSteps_pairs {d d' : Draft} (hd : d.unbound = d) (h : routeSteps doc node d = .ok d') :
    labelPair (pairBounds d') = labelsOf doc node ∧
      lengthPair (pairBounds d') = lengthsOf doc node := by
  have hpairs := pairBounds_drawn d'
  rwa [routeSteps_drawn hd h] at hpairs

/-- An accepted route has the bounds in force. -/
theorem parseRoute_stored {r : Route} (h : parseRoute doc (some node) cfg = .ok r) :
    labelPair r = labelsOf doc node ∧ lengthPair r = lengthsOf doc node := by
  cases node with
  | scalar value => cases h
  | sequence items => cases h
  | mapping pairs =>
    obtain ⟨d₁, d₂, h₁, h₂, h⟩ := parseRoute_mapping_ok_iff.mp h
    obtain ⟨_, _, _, _, _, _, rfl⟩ := checkRoute_shape h
    exact routeSteps_pairs (parseRouteTarget_fresh h₁).unbound h₂

theorem unbound_inRange (d : Draft) :
    InRange 127 (labelPair (pairBounds d.unbound)) ∧
      InRange 255 (lengthPair (pairBounds d.unbound)) := by
  change InRange 127 (1, 127) ∧ InRange 255 (1, 255)
  unfold InRange
  decide

/-- A route is accepted if the rest of it is, its bounds are numbers of their types, and those in
    force are in range. -/
theorem parseRoute_ok_iff :
    (∃ r, parseRoute doc (some node) cfg = .ok r) ↔
      RestAccepted doc node cfg ∧ (FlatFit doc node ∧ RulesFit (ruleGet doc node)) ∧
        InRange 127 (labelsOf doc node) ∧ InRange 255 (lengthsOf doc node) := by
  cases node with
  | scalar value =>
    exact iff_of_false (by rintro ⟨r, h⟩; cases h) (by rintro ⟨⟨r, h⟩, -⟩; cases h)
  | sequence items =>
    exact iff_of_false (by rintro ⟨r, h⟩; cases h) (by rintro ⟨⟨r, h⟩, -⟩; cases h)
  | mapping pairs =>
    have htarget := (withoutBounds_alike doc).parseRouteTarget routeKeys_noBound
      (rfl : dropBounds doc (.mapping pairs) = _) cfg
    constructor
    · rintro ⟨r, h⟩
      obtain ⟨d₁, d₂, h₁, h₂, h⟩ := parseRoute_mapping_ok_iff.mp h
      have hfresh := (parseRouteTarget_fresh h₁).unbound
      obtain ⟨hfit, hrest⟩ := (routeSteps_mirrors d₁ _).mp ⟨d₂, h₂, rfl⟩
      rw [hfresh] at hrest
      obtain ⟨hlabels, hlengths, hpasses⟩ := (checkRoute_ok_iff _).mp ⟨r, h⟩
      obtain ⟨r', hr'⟩ := (checkRoute_ok_iff (pairBounds d₂.unbound)).mpr
        ⟨(unbound_inRange d₂).1, (unbound_inRange d₂).2, (passes_unbound d₂).mpr hpasses⟩
      obtain ⟨hpl, hpq⟩ := routeSteps_pairs hfresh h₂
      rw [hpl] at hlabels
      rw [hpq] at hlengths
      exact ⟨⟨r', parseRoute_mapping_ok_iff.mpr ⟨d₁, _, htarget.trans h₁, hrest, hr'⟩⟩, hfit,
        hlabels, hlengths⟩
    · rintro ⟨⟨r', h⟩, hfit, hlabels, hlengths⟩
      obtain ⟨d₁, t, h₁, ht, h⟩ := parseRoute_mapping_ok_iff.mp h
      replace h₁ := htarget.symm.trans h₁
      have hfresh := (parseRouteTarget_fresh h₁).unbound
      obtain ⟨d₂, h₂, rfl⟩ := (routeSteps_mirrors d₁ t).mpr ⟨hfit, by rw [hfresh]; exact ht⟩
      obtain ⟨hpl, hpq⟩ := routeSteps_pairs hfresh h₂
      have hpasses := ((checkRoute_ok_iff _).mp ⟨r', h⟩).2.2
      obtain ⟨r, hr⟩ := (checkRoute_ok_iff (pairBounds d₂)).mpr
        ⟨by rw [hpl]; exact hlabels, by rw [hpq]; exact hlengths, (passes_unbound d₂).mp hpasses⟩
      exact ⟨r, parseRoute_mapping_ok_iff.mpr ⟨d₁, d₂, h₁, h₂, hr⟩⟩

end Accepted

/-! ## Numerals -/

/-- The pair that four optional nodes give. -/
def drawPair {α : Type} (toNat : α → Nat) (parse : YamlNode → Parsed α) (limit : Nat)
    (flatMin nestedMin flatMax nestedMax : Option YamlNode) : Nat × Nat :=
  pairOf limit (drawOr toNat parse nestedMin (drawOr toNat parse flatMin none))
    (drawOr toNat parse nestedMax (drawOr toNat parse flatMax none))

section Pairs

variable {α : Type} {toNat : α → Nat} {w limit : Nat} {parse : YamlNode → Parsed α}
  {v a b c e : Option YamlNode} {x : Option Int} {p : PairGiven}

/-- A parser of `w` bits that reads what `strtoul` returns for a numeral. -/
structure NumeralReader (toNat : α → Nat) (w : Nat) (parse : YamlNode → Parsed α) : Prop where
  lt : ∀ a, toNat a < 2 ^ w
  surj : ∀ k < 2 ^ w, ∃ a, toNat a = k
  numeral : ∀ (n : Numeral) a, parse (.scalar n.text) = .ok a ↔ (toNat a : Int) = wrapped n.value

theorem readerU8 : NumeralReader UInt8.toNat 8 parseU8 where
  lt := UInt8.toNat_lt
  surj k hk := ⟨.ofNat k, UInt8.toNat_ofNat_of_lt' hk⟩
  numeral := parseU8_numeral

theorem readerU16 : NumeralReader UInt16.toNat 16 parseU16 where
  lt := UInt16.toNat_lt
  surj k hk := ⟨.ofNat k, UInt16.toNat_ofNat_of_lt' hk⟩
  numeral := parseU16_numeral

variable (hread : NumeralReader toNat w parse)

include hread

/-- A numeral parses if its wrapped value fits. -/
theorem parses_iff (hv : Writes v x) :
    Parses v parse ↔ ∀ z ∈ (x.map wrapped).toList, 0 ≤ z ∧ z < 2 ^ w := by
  have hcast : ((2 ^ w : Nat) : Int) = 2 ^ w := by norm_cast
  cases hv with
  | none => exact iff_of_true parses_none (by simp)
  | some hnode =>
    obtain ⟨n, rfl, rfl⟩ := hnode
    simp only [Option.map_some, Option.toList_some, List.mem_singleton, forall_eq]
    constructor
    · intro hparses
      obtain ⟨a, ha⟩ := hparses _ rfl
      have hvalue := (hread.numeral n a).mp ha
      have hlt := hread.lt a
      omega
    · rintro ⟨hnonneg, hfits⟩ node hnode
      cases hnode
      obtain ⟨a, ha⟩ := hread.surj (wrapped n.value).toNat (by omega)
      exact ⟨a, (hread.numeral n a).mpr (by omega)⟩

/-- Its value is then the one that is drawn. -/
theorem drawOr_eq (hv : Writes v x) (hparses : Parses v parse) (y : Option Nat) :
    (drawOr toNat parse v y).map Nat.cast = (x.map wrapped).or (y.map Nat.cast) := by
  cases hv with
  | none => rfl
  | some hnode =>
    obtain ⟨n, rfl, rfl⟩ := hnode
    obtain ⟨a, ha⟩ := hparses _ rfl
    have hdraw : drawOr toNat parse (some (.scalar n.text)) y = some (toNat a) := by
      unfold drawOr
      rw [Option.elim_some, ha]
      rfl
    rw [hdraw, Option.map_some, Option.map_some, Option.some_or, (hread.numeral n a).mp ha]

theorem fits_iff (hp : PairWritten a b c e p) :
    (Parses a parse ∧ Parses b parse ∧ Parses c parse ∧ Parses e parse) ↔
      ∀ z ∈ p.wrapped.values, 0 ≤ z ∧ z < 2 ^ w := by
  rw [parses_iff hread hp.flatMin, parses_iff hread hp.nestedMin, parses_iff hread hp.flatMax,
    parses_iff hread hp.nestedMax]
  unfold PairGiven.values
  rw [List.forall_mem_append, List.forall_mem_append, List.forall_mem_append, and_assoc, and_assoc]
  rfl

omit hread in
theorem pairOf_cast (x y : Option Nat) (hmin : x.map Nat.cast = p.min)
    (hmax : y.map Nat.cast = p.max) :
    (((pairOf limit x y).1 : Int), ((pairOf limit x y).2 : Int)) = p.paired limit := by
  unfold PairGiven.paired
  rw [← hmin, ← hmax]
  cases x <;> cases y <;> rfl

/-- What is drawn and paired is the rule on the wrapped values. -/
theorem drawPair_eq (limit : Nat) (hp : PairWritten a b c e p)
    (hfits : Parses a parse ∧ Parses b parse ∧ Parses c parse ∧ Parses e parse) :
    (((drawPair toNat parse limit a b c e).1 : Int), ((drawPair toNat parse limit a b c e).2 : Int)) =
      p.wrapped.paired limit := by
  refine pairOf_cast _ _ ?_ ?_
  · rw [drawOr_eq hread hp.nestedMin hfits.2.1, drawOr_eq hread hp.flatMin hfits.1]
    exact congrArg _ (Option.or_none ..)
  · rw [drawOr_eq hread hp.nestedMax hfits.2.2.2, drawOr_eq hread hp.flatMax hfits.2.2.1]
    exact congrArg _ (Option.or_none ..)

/-- The bounds of a pair are no reason to reject a route where the wrapped values are not bad. -/
theorem pair_ok_iff (limit : Nat) (hp : PairWritten a b c e p) :
    (Parses a parse ∧ Parses b parse ∧ Parses c parse ∧ Parses e parse) ∧
        InRange limit (drawPair toNat parse limit a b c e) ↔ ¬ p.wrapped.Bad w limit := by
  unfold PairGiven.Bad
  by_cases hall : ∀ z ∈ p.wrapped.values, 0 ≤ z ∧ z < 2 ^ w
  · have hfits := (fits_iff hread hp).mpr hall
    have hpair := drawPair_eq hread limit hp hfits
    have hnone : ¬ ∃ z ∈ p.wrapped.values, ¬ (0 ≤ z ∧ z < 2 ^ w) := by
      rintro ⟨z, hz, hbad⟩
      exact hbad (hall z hz)
    rw [and_iff_right hfits, or_iff_right hnone, ← hpair]
    unfold InRange
    omega
  · obtain ⟨z, hz, hbad⟩ := not_forall₂.mp hall
    exact iff_of_false (fun h => hall ((fits_iff hread hp).mp h.1)) fun h => h (.inl ⟨z, hz, hbad⟩)

end Pairs

/-! ## Values that wrap around -/

namespace PairGiven

variable {p : PairGiven} {w limit : Nat}

theorem values_wrapped (p : PairGiven) : p.wrapped.values = p.values.map Lib.wrapped := by
  unfold values wrapped
  rw [List.map_append, List.map_append, List.map_append]
  simp only [Option.toList_map]

theorem wrapped_eq_self (h : ∀ v ∈ p.values, Lib.wrapped v = v) : p.wrapped = p := by
  have hmap : ∀ o : Option Int, (∀ v ∈ o.toList, Lib.wrapped v = v) → o.map Lib.wrapped = o := by
    intro o ho
    cases o with
    | none => rfl
    | some v => exact congrArg some (ho v (by simp))
  unfold values at h
  rw [List.forall_mem_append, List.forall_mem_append, List.forall_mem_append] at h
  unfold wrapped
  rw [hmap _ h.1.1.1, hmap _ h.1.1.2, hmap _ h.1.2, hmap _ h.2]

/-- A value that wraps around is negative. -/
theorem bad_of_wraps (hw : w < 64) (h : ∃ v ∈ p.values, Wraps w v) : p.Bad w limit := by
  obtain ⟨v, hv, hwraps⟩ := h
  have hpow : (2 : Int) ^ w ≤ 2 ^ 63 := by
    exact_mod_cast Nat.pow_le_pow_right (n := 2) (by decide) (by omega : w ≤ 63)
  unfold Wraps at hwraps
  exact .inl ⟨v, hv, by omega⟩

/-- Where none does, wrapping changes nothing that fits. -/
theorem bad_wrapped_or (hno : ∀ v ∈ p.values, ¬ Wraps w v) :
    (p.wrapped.Bad w limit ∧ p.Bad w limit) ∨ p.wrapped = p := by
  by_cases hall : ∀ v ∈ p.values, 0 ≤ Lib.wrapped v ∧ Lib.wrapped v < 2 ^ w
  · refine .inr (wrapped_eq_self fun v hv => ?_)
    have hfits := hall v hv
    have hnot := hno v hv
    unfold Wraps at hnot
    unfold Lib.wrapped at hfits ⊢
    split_ifs at hfits ⊢ with hneg
    · omega
    · rfl
  · obtain ⟨v, hv, hbad⟩ := not_forall₂.mp hall
    refine .inl ⟨.inl ⟨Lib.wrapped v, ?_, hbad⟩, .inl ⟨v, hv, fun hfits => hbad ?_⟩⟩
    · rw [values_wrapped]
      exact List.mem_map_of_mem hv
    · have hsame : Lib.wrapped v = v := if_neg (by omega)
      rwa [hsame]

theorem bad_of_bad_wrapped (hw : w < 64) (h : p.wrapped.Bad w limit) : p.Bad w limit := by
  by_cases hno : ∀ v ∈ p.values, ¬ Wraps w v
  · rcases bad_wrapped_or hno with hbad | hsame
    · exact hbad.2
    · rwa [hsame] at h
  · obtain ⟨v, hv, hwraps⟩ := not_forall₂.mp hno
    exact bad_of_wraps hw ⟨v, hv, not_not.mp hwraps⟩

theorem bad_wrapped_of_bad (hno : ∀ v ∈ p.values, ¬ Wraps w v) (h : p.Bad w limit) :
    p.wrapped.Bad w limit := by
  rcases bad_wrapped_or hno with hbad | hsame
  · exact hbad.1
  · rwa [hsame]

theorem wrapped_eq_of_not_bad (hno : ∀ v ∈ p.values, ¬ Wraps w v) (h : ¬ p.wrapped.Bad w limit) :
    p.wrapped = p := (bad_wrapped_or hno).resolve_left fun hbad => h hbad.1

end PairGiven

/-! ## The rule on the code -/

section Rule

variable {doc : YamlDocument} {node : YamlNode} {cfg : Config} {labels lengths : PairGiven}

/-- The rule, for a route that gives these values. Every accepted route has the bounds of the rule,
    and if the rest of a route is accepted, it is rejected exactly for bad bounds. -/
structure BoundsFollow (doc : YamlDocument) (node : YamlNode) (cfg : Config)
    (labels lengths : PairGiven) : Prop where
  stored : ∀ r, parseRoute doc (some node) cfg = .ok r →
    ((r.minLabels.toNat : Int), (r.maxLabels.toNat : Int)) = labels.paired 127 ∧
      ((r.qnameMinLen.toNat : Int), (r.qnameMaxLen.toNat : Int)) = lengths.paired 255
  rejected_iff : RestAccepted doc node cfg →
    ((∃ ms, parseRoute doc (some node) cfg = .error ms) ↔ labels.Bad 8 127 ∨ lengths.Bad 16 255)

/-- No value wraps around into its field. -/
def NoWrap (labels lengths : PairGiven) : Prop :=
  (∀ v ∈ labels.values, ¬ Wraps 8 v) ∧ ∀ v ∈ lengths.values, ¬ Wraps 16 v

theorem parseRoute_given_iff (cfg : Config) (hlabels : LabelsGiven doc node labels)
    (hlengths : LengthsGiven doc node lengths) :
    (∃ r, parseRoute doc (some node) cfg = .ok r) ↔
      RestAccepted doc node cfg ∧ ¬ labels.wrapped.Bad 8 127 ∧ ¬ lengths.wrapped.Bad 16 255 := by
  rw [parseRoute_ok_iff]
  rw [← pair_ok_iff readerU8 127 hlabels, ← pair_ok_iff readerU16 255 hlengths]
  constructor
  · rintro ⟨hrest, ⟨hflat, hrules⟩, hrange, hrange'⟩
    exact ⟨hrest, ⟨⟨hflat.1, hrules.1, hflat.2, hrules.2⟩, hrange⟩,
      ⟨hflat.3, hrules.3, hflat.4, hrules.4⟩, hrange'⟩
  · rintro ⟨hrest, ⟨hlfit, hrange⟩, hqfit, hrange'⟩
    exact ⟨hrest, ⟨⟨hlfit.1, hlfit.2.2.1, hqfit.1, hqfit.2.2.1⟩,
      ⟨hlfit.2.1, hlfit.2.2.2, hqfit.2.1, hqfit.2.2.2⟩⟩, hrange, hrange'⟩

theorem parseRoute_given_stored (hlabels : LabelsGiven doc node labels)
    (hlengths : LengthsGiven doc node lengths) {r : Route}
    (h : parseRoute doc (some node) cfg = .ok r) :
    ((r.minLabels.toNat : Int), (r.maxLabels.toNat : Int)) = labels.wrapped.paired 127 ∧
      ((r.qnameMinLen.toNat : Int), (r.qnameMaxLen.toNat : Int)) = lengths.wrapped.paired 255 := by
  obtain ⟨-, ⟨hflat, hrules⟩, -, -⟩ := parseRoute_ok_iff.mp ⟨r, h⟩
  obtain ⟨hl, hq⟩ := parseRoute_stored h
  have hl' := drawPair_eq readerU8 127 hlabels ⟨hflat.1, hrules.1, hflat.2, hrules.2⟩
  have hq' := drawPair_eq readerU16 255 hlengths ⟨hflat.3, hrules.3, hflat.4, hrules.4⟩
  rw [← hl', ← hq']
  change (((labelPair r).1 : Int), ((labelPair r).2 : Int)) =
      (((labelsOf doc node).1 : Int), ((labelsOf doc node).2 : Int)) ∧
    (((lengthPair r).1 : Int), ((lengthPair r).2 : Int)) =
      (((lengthsOf doc node).1 : Int), ((lengthsOf doc node).2 : Int))
  rw [hl, hq]
  exact ⟨rfl, rfl⟩

theorem rejected_iff_not_ok :
    (∃ ms, parseRoute doc (some node) cfg = .error ms) ↔
      ¬ ∃ r, parseRoute doc (some node) cfg = .ok r := by
  cases parseRoute doc (some node) cfg with
  | error ms => exact iff_of_true ⟨ms, rfl⟩ (by rintro ⟨r, h⟩; cases h)
  | ok r => exact iff_of_false (by rintro ⟨ms, h⟩; cases h) (not_not.mpr ⟨r, rfl⟩)

/-- **Every route that gives numerals.** The rule holds of it, unless the rest of the route is
    accepted and a value wraps around into its field, where the bounds so read pass. -/
theorem bounds_follow_iff (hlabels : LabelsGiven doc node labels)
    (hlengths : LengthsGiven doc node lengths) :
    BoundsFollow doc node cfg labels lengths ↔
      (RestAccepted doc node cfg →
        NoWrap labels lengths ∨ labels.wrapped.Bad 8 127 ∨ lengths.wrapped.Bad 16 255) := by
  have hok := parseRoute_given_iff cfg hlabels hlengths
  constructor
  · intro hfollow hrest
    by_contra hnot
    rw [not_or, not_or] at hnot
    -- the route is accepted, with a value that does not fit
    have haccepted := hok.mpr ⟨hrest, hnot.2⟩
    have hbad : ¬ (labels.Bad 8 127 ∨ lengths.Bad 16 255) := fun hbad =>
      rejected_iff_not_ok.mp ((hfollow.rejected_iff hrest).mpr hbad) haccepted
    refine hnot.1 ⟨fun v hv hwraps => hbad (.inl ?_), fun v hv hwraps => hbad (.inr ?_)⟩
    · exact PairGiven.bad_of_wraps (by decide) ⟨v, hv, hwraps⟩
    · exact PairGiven.bad_of_wraps (by decide) ⟨v, hv, hwraps⟩
  · intro hcond
    refine ⟨fun r h => ?_, fun hrest => ?_⟩
    · obtain ⟨hrest, hbad⟩ := hok.mp ⟨r, h⟩
      obtain ⟨hno, hno'⟩ := (hcond hrest).resolve_right (not_or.mpr hbad)
      have hstored := parseRoute_given_stored hlabels hlengths h
      rwa [PairGiven.wrapped_eq_of_not_bad hno hbad.1,
        PairGiven.wrapped_eq_of_not_bad hno' hbad.2] at hstored
    · rw [rejected_iff_not_ok, hok, and_iff_right hrest, ← not_or, not_not]
      constructor
      · exact Or.imp (PairGiven.bad_of_bad_wrapped (by decide))
          (PairGiven.bad_of_bad_wrapped (by decide))
      · intro hbad
        rcases hcond hrest with ⟨hno, hno'⟩ | hwrapped
        · exact hbad.imp (PairGiven.bad_wrapped_of_bad hno) (PairGiven.bad_wrapped_of_bad hno')
        · exact hwrapped

end Rule

/-- A lower bound on the labels in the flat place, two upper bounds in the nested one. -/
def boundsDocument (minLabels : List UInt8) : YamlDocument where
  nodes :=
    [.mapping [(2, 3), (4, 5), (6, 7), (8, 9)],
      .scalar (ascii "domain"), .scalar (ascii "a"),
      .scalar (ascii "target"), .scalar (ascii "kernel_space"),
      .scalar (ascii "min_labels"), .scalar minLabels,
      .scalar (ascii "filters"), .mapping [(10, 11)],
      .scalar (ascii "qname_rules"), .mapping [(12, 13), (14, 15)],
      .scalar (ascii "max_labels"), .scalar (ascii "3"),
      .scalar (ascii "max_length"), .scalar (ascii "40")]

def boundsRoute : YamlNode := .mapping [(2, 3), (4, 5), (6, 7), (8, 9)]

theorem writes_some (n : Numeral) {v : Option YamlNode} {value : Int}
    (hv : v = some (.scalar n.text)) (hvalue : n.value = value) : Writes v (some value) := by
  subst hv
  exact .some ⟨n, rfl, hvalue⟩

theorem writes_none {v : Option YamlNode} (hv : v = none) : Writes v none := by
  subst hv
  exact .none

theorem boundsDocument_labels (n : Numeral) {value : Int} (hvalue : n.value = value) :
    LabelsGiven (boundsDocument n.text) boundsRoute ⟨some value, none, none, some 3⟩ where
  flatMin := writes_some n rfl hvalue
  nestedMin := writes_none rfl
  flatMax := writes_none rfl
  nestedMax :=
    writes_some (.ofDigits .none (ascii "3") (by decide) (by decide)) rfl (by decide +kernel)

theorem boundsDocument_lengths (text : List UInt8) :
    LengthsGiven (boundsDocument text) boundsRoute ⟨none, none, none, some 40⟩ where
  flatMin := writes_none rfl
  nestedMin := writes_none rfl
  flatMax := writes_none rfl
  nestedMax :=
    writes_some (.ofDigits .none (ascii "40") (by decide) (by decide)) rfl (by decide +kernel)

/-- The bounds that the parser stores, if it accepts. -/
def storedBounds (doc : YamlDocument) : Option ((Nat × Nat) × Nat × Nat) :=
  (parseRoute doc (some boundsRoute) configInitDefaults).toOption.map fun r =>
    (labelPair r, lengthPair r)

set_option maxRecDepth 4000 in
theorem bounds_follow_sample :
    storedBounds (boundsDocument (ascii "2")) = some ((2, 3), 40, 40) ∧
      BoundsFollow (boundsDocument (ascii "2")) boundsRoute configInitDefaults
        ⟨some 2, none, none, some 3⟩ ⟨none, none, none, some 40⟩ := by
  refine ⟨by decide +kernel, ?_⟩
  have hlabels : LabelsGiven (boundsDocument (ascii "2")) boundsRoute ⟨some 2, none, none, some 3⟩ :=
    boundsDocument_labels (.ofDigits .none (ascii "2") (by decide) (by decide)) (by decide)
  refine (bounds_follow_iff hlabels (boundsDocument_lengths _)).mpr fun _ => .inl ⟨?_, ?_⟩
  · decide
  · decide

set_option maxRecDepth 4000 in
/-- A lower bound of -18446744073709551615 labels is accepted as 1. -/
theorem negative_bound_accepted :
    LabelsGiven (boundsDocument minusMax.text) boundsRoute
        ⟨some (-18446744073709551615), none, none, some 3⟩ ∧
      LengthsGiven (boundsDocument minusMax.text) boundsRoute ⟨none, none, none, some 40⟩ ∧
      storedBounds (boundsDocument minusMax.text) = some ((1, 3), 40, 40) ∧
      ¬ BoundsFollow (boundsDocument minusMax.text) boundsRoute configInitDefaults
        ⟨some (-18446744073709551615), none, none, some 3⟩ ⟨none, none, none, some 40⟩ := by
  have hstored : storedBounds (boundsDocument minusMax.text) = some ((1, 3), 40, 40) := by
    decide +kernel
  refine ⟨boundsDocument_labels minusMax (by decide +kernel), boundsDocument_lengths _, hstored,
    fun hfollow => ?_⟩
  unfold storedBounds at hstored
  cases h : parseRoute (boundsDocument minusMax.text) (some boundsRoute) configInitDefaults with
  | error ms =>
    rw [h] at hstored
    cases hstored
  | ok r =>
    rw [h] at hstored
    have hlabels : labelPair r = (1, 3) := congrArg Prod.fst (Option.some.inj hstored)
    have hrule : ((r.minLabels.toNat : Int), (r.maxLabels.toNat : Int)) =
        (-18446744073709551615, 3) := (hfollow.stored r h).1
    have hone : r.minLabels.toNat = 1 := congrArg Prod.fst hlabels
    have hminus : (r.minLabels.toNat : Int) = -18446744073709551615 := congrArg Prod.fst hrule
    omega

end Zereh.Control
