/-
  The type lists of a route, from the names in the document to the question that is let through.

  The parser folds a list of names into a mask of four bits, the program reads the bits back:
    - `has_parseRrtypeMask`: a bit of the mask is set exactly when its name is listed.
    - `typeAllowed_iff`: the program lets a type through exactly when its bit is set.
    - `mask_of_parse`: where the mask of an accepted route comes from.
  Together they say which types a route admits (`parseRoute_admits`).
-/
import Zereh.Control.Provenance
import Zereh.Xdp.Filters

namespace Zereh.Link

open Lib Control Xdp

/-! ## Types -/

/-- The types that a route may name. -/
inductive RrType where
  | a
  | aaaa
  | txt
  | any
  deriving DecidableEq

namespace RrType

def name : RrType → String
  | .a => "A"
  | .aaaa => "AAAA"
  | .txt => "TXT"
  | .any => "ANY"

def number : RrType → UInt16
  | .a => 1
  | .aaaa => 28
  | .txt => 16
  | .any => 255

/-- The place of its bit in a mask. -/
def index : RrType → Nat
  | .a => 0
  | .aaaa => 1
  | .txt => 2
  | .any => 3

theorem index_inj {t u : RrType} (h : t.index = u.index) : t = u := by
  revert h
  cases t <;> cases u <;> decide

theorem number_inj {t u : RrType} (h : t.number = u.number) : t = u := by
  revert h
  cases t <;> cases u <;> decide

theorem index_lt (t : RrType) : t.index < 32 := by
  cases t <;> decide

end RrType

/-- `text` is the name of a type, in any letter case. -/
def IsNameOf (t : RrType) (text : CStr) : Prop := caseEq text.bytes (ascii t.name) = true

instance (t : RrType) (text : CStr) : Decidable (IsNameOf t text) :=
  inferInstanceAs (Decidable (_ = true))

/-- The type is in the mask. -/
def Has (mask : UInt32) (t : RrType) : Prop := mask.toNat.testBit t.index = true

section Masks

variable {mask : UInt32} {t : RrType}

theorem has_or (m : UInt32) : Has (mask ||| m) t ↔ Has mask t ∨ Has m t := by
  unfold Has
  rw [UInt32.toNat_or, Nat.testBit_or, Bool.or_eq_true]

theorem has_and_not (m : UInt32) : Has (mask &&& ~~~m) t ↔ Has mask t ∧ ¬ Has m t := by
  have hnot : (~~~m).toNat.testBit t.index = !m.toNat.testBit t.index := by
    rw [← UInt32.toNat_toBitVec, ← UInt32.toNat_toBitVec, BitVec.testBit_toNat,
      BitVec.testBit_toNat, UInt32.toBitVec_not, BitVec.getLsbD_not, decide_eq_true t.index_lt,
      Bool.true_and]
  unfold Has
  rw [UInt32.toNat_and, Nat.testBit_and, hnot, Bool.and_eq_true, Bool.not_eq_true',
    Bool.not_eq_true]

theorem not_has_zero : ¬ Has 0 t := by
  unfold Has
  rw [UInt32.toNat_zero, Nat.zero_testBit]
  exact Bool.false_ne_true

/-- A mask has a type exactly when it shares the bit. -/
theorem and_ne_zero_iff {b : UInt32} (hb : b.toNat = 2 ^ t.index) :
    mask &&& b ≠ 0 ↔ Has mask t := by
  rw [ne_eq, ← UInt32.toNat_inj, UInt32.toNat_and, hb, UInt32.toNat_zero, Nat.and_two_pow]
  unfold Has
  cases mask.toNat.testBit t.index <;> simp

/-- **What the program lets through.** The numbers of the types in the mask. -/
theorem typeAllowed_iff {qtype : UInt16} :
    typeAllowed qtype mask = true ↔ ∃ t : RrType, t.number = qtype ∧ Has mask t := by
  unfold typeAllowed
  constructor
  · intro h
    split_ifs at h with ha haaaa htxt hany
    · exact ⟨.a, ha.1.symm, (and_ne_zero_iff rfl).mp ha.2⟩
    · exact ⟨.aaaa, haaaa.1.symm, (and_ne_zero_iff rfl).mp haaaa.2⟩
    · exact ⟨.txt, htxt.1.symm, (and_ne_zero_iff rfl).mp htxt.2⟩
    · exact ⟨.any, hany.1.symm, (and_ne_zero_iff rfl).mp hany.2⟩
  · rintro ⟨t, rfl, hhas⟩
    cases t with
    | a => exact if_pos ⟨rfl, (and_ne_zero_iff rfl).mpr hhas⟩
    | aaaa =>
      have hbit : mask &&& 0x2 ≠ 0 := (and_ne_zero_iff rfl).mpr hhas
      simp [RrType.number, hbit]
    | txt =>
      have hbit : mask &&& 0x4 ≠ 0 := (and_ne_zero_iff rfl).mpr hhas
      simp [RrType.number, hbit]
    | any =>
      have hbit : mask &&& 0x8 ≠ 0 := (and_ne_zero_iff rfl).mpr hhas
      simp [RrType.number, hbit]

end Masks

/-! ## Lists of names -/

/-- The names that a node lists: its own text, or the texts of its items. -/
def listedNames (doc : YamlDocument) : YamlNode → List CStr
  | .sequence items => items.filterMap fun item => (doc.getNode item).bind scalar
  | node => (scalar node).toList

section Names

variable {doc : YamlDocument} {text : CStr} {mask : UInt32}

theorem isOneOf_single (w : String) : isOneOf text [w] = caseEq text.bytes (ascii w) := by
  unfold isOneOf
  rw [List.any_cons, List.any_nil, Bool.or_false]

/-- A text names at most one type. -/
theorem isNameOf_unique {t u : RrType} (ht : IsNameOf t text) (hu : IsNameOf u text) : t = u := by
  have heq : lower (ascii t.name) = lower (ascii u.name) :=
    (beq_iff_eq.mp ht).symm.trans (beq_iff_eq.mp hu)
  revert heq
  cases t <;> cases u <;> decide

/-- A name becomes the bit of its type. -/
theorem has_rrtypeToMask (hne : rrtypeToMask (some text) ≠ 0) (t : RrType) :
    Has (rrtypeToMask (some text)) t ↔ IsNameOf t text := by
  -- the branch taken names one type, and then no other
  have hbranch : ∃ u, IsNameOf u text ∧ (rrtypeToMask (some text)).toNat = 2 ^ u.index := by
    revert hne
    unfold rrtypeToMask
    simp only [isOneOf_single]
    intro hne
    split_ifs at hne ⊢ with ha haaaa htxt hany
    · exact ⟨.a, ha, rfl⟩
    · exact ⟨.aaaa, haaaa, rfl⟩
    · exact ⟨.txt, htxt, rfl⟩
    · exact ⟨.any, hany, rfl⟩
    · exact absurd rfl hne
  obtain ⟨u, hu, hmask⟩ := hbranch
  unfold Has
  rw [hmask, Nat.testBit_two_pow, decide_eq_true_eq]
  constructor
  · intro h
    rwa [← RrType.index_inj h]
  · intro h
    rw [isNameOf_unique hu h]

theorem has_rrtypeLoop (items : List Nat) : ∀ {mask mask' : UInt32},
    rrtypeLoop doc items mask = .ok mask' → ∀ t, Has mask' t ↔ Has mask t ∨
      ∃ text ∈ items.filterMap fun item => (doc.getNode item).bind scalar, IsNameOf t text := by
  induction items with
  | nil =>
    intro mask mask' h t
    cases h
    simp
  | cons item items ih =>
    intro mask mask' h t
    unfold rrtypeLoop at h
    dsimp only at h
    split at h
    · cases h
    · rename_i hne
      cases htext : (doc.getNode item).bind scalar with
      | none =>
        rw [htext] at hne
        exact absurd rfl hne
      | some text =>
        rw [htext] at h hne
        have hcons : (item :: items).filterMap (fun item => (doc.getNode item).bind scalar) =
            text :: items.filterMap fun item => (doc.getNode item).bind scalar :=
          List.filterMap_cons_some htext
        rw [ih h t, has_or, has_rrtypeToMask hne, hcons, List.exists_mem_cons_iff, or_assoc]

/-- **What a list becomes.** A type is in the mask exactly when its name is listed. -/
theorem has_parseRrtypeMask {node : YamlNode} (h : parseRrtypeMask doc node = .ok mask)
    (t : RrType) : Has mask t ↔ ∃ text ∈ listedNames doc node, IsNameOf t text := by
  unfold parseRrtypeMask at h
  split at h
  · rename_i value
    dsimp only at h
    split at h
    · cases h
    · rename_i hne
      cases h
      rw [show scalar (.scalar value) = some (CStr.ofBytes value) from rfl] at hne ⊢
      rw [has_rrtypeToMask hne]
      simp [listedNames, scalar]
  · rename_i items
    obtain ⟨m, hloop, h⟩ := bind_eq_ok h
    split at h
    · cases h
    · cases h
      rw [has_rrtypeLoop items hloop t, or_iff_right not_has_zero]
      rfl
  · cases h

end Names

/-! ## Where the mask comes from -/

section Trace

variable {doc : YamlDocument} {node : YamlNode}

def draftMask (d : Draft) : UInt32 := d.rrtypeMask

theorem parseRouteFlat_mask :
    Moves draftMask (Reads (mapGet doc node "allow_types") (parseRrtypeMask doc))
      (parseRouteFlat doc node) := by
  have hallow : Moves draftMask (Reads (mapGet doc node "allow_types") (parseRrtypeMask doc))
      (field (mapGet doc node "allow_types") (parseRrtypeMask doc) setRrtypeMask) :=
    field_reads fun _ _ => rfl
  unfold parseRouteFlat
  refine Leaves.then ?_ <| Leaves.then ?_ <| Leaves.then ?_ <| Leaves.then ?_ <| Leaves.then ?_ <|
    Leaves.then ?_ <| Leaves.then ?_ <| Leaves.then ?_ <| Leaves.then ?_ <| Leaves.then ?_ <|
    Leaves.then ?_ hallow
  all_goals first
    | exact field_leaves fun _ _ => rfl
    | exact textField_leaves fun _ _ => rfl

/-- What the lists of `dns_types` do to a mask. -/
def DnsTypesMove (doc : YamlDocument) (get : String → Option YamlNode) (x y : UInt32) : Prop :=
  ∃ allow deny, Reads (get "allow") (parseRrtypeMask doc) x allow ∧
    Reads (get "deny") (parseRrtypeMask doc) 0 deny ∧ y = allow &&& ~~~deny

theorem parseRouteDnsTypes_mask :
    Moves draftMask (DnsTypesMove doc (mapGet doc node)) (parseRouteDnsTypes doc node) := by
  intro d d' h
  unfold parseRouteDnsTypes at h
  split at h
  · obtain ⟨allow, hallow, h⟩ := bind_eq_ok h
    obtain ⟨deny, hdeny, h⟩ := bind_eq_ok h
    dsimp only at h
    split at h
    · cases h
    · cases h
      exact ⟨allow, deny, field_reads (π := id) (fun _ _ => rfl) _ _ hallow,
        field_reads (π := id) (fun _ _ => rfl) _ _ hdeny, rfl⟩
  · cases h

theorem dnsTypesMove_none (x : UInt32) : DnsTypesMove doc (fun _ => none) x x := by
  refine ⟨x, 0, rfl, rfl, ?_⟩
  rw [UInt32.not_zero, UInt32.and_neg_one]

theorem parseRouteFilters_mask :
    Moves draftMask (DnsTypesMove doc (nestedGet doc node "dns_types"))
      (parseRouteFilters doc node) := by
  have hpow : Leaves draftMask (subsection (mapGet doc node "pow") (parsePow doc)) :=
    subsection_leaves fun _ => parsePow_leaves fun _ _ _ _ => rfl
  have hqname : Leaves draftMask
      (subsection (mapGet doc node "qname_rules") (parseQnameRules doc)) := by
    refine subsection_leaves fun _ => .comp ?_ <| .comp ?_ <| .comp ?_ <| .comp ?_ <| .comp ?_ ?_
    all_goals first
      | exact field_leaves fun _ _ => rfl
      | exact textField_leaves fun _ _ => rfl
  have hrate : Leaves draftMask (subsection (mapGet doc node "rate_limit") (parseRateLimit doc)) :=
    subsection_leaves fun _ => parseRateLimit_leaves fun _ _ => rfl
  have hdns : Moves draftMask (DnsTypesMove doc (nestedGet doc node "dns_types"))
      (stepField (mapGet doc node "dns_types") (parseRouteDnsTypes doc)) :=
    stepField_moves (fun _ => parseRouteDnsTypes_mask) dnsTypesMove_none
  have hbloom : Leaves draftMask
      (subsection (mapGet doc node "bloom_filter") (parseBloomFilter doc)) :=
    subsection_leaves fun _ => parseBloomFilter_leaves fun _ _ _ _ _ _ => rfl
  intro d d' h
  unfold parseRouteFilters at h
  split at h
  · exact hpow.then (hqname.then (hrate.then (hdns.then_leaves hbloom))) d d' h
  · cases h

/-- The mask of an accepted route: the flat list, then the lists of `dns_types`. -/
theorem mask_of_parse {cfg : Config} {r : Route} (h : parseRoute doc (some node) cfg = .ok r) :
    ∃ flat, Reads (mapGet doc node "allow_types") (parseRrtypeMask doc)
        (rrtypeA ||| rrtypeAaaa ||| rrtypeTxt) flat ∧
      DnsTypesMove doc (fun key => pathGet doc node ["filters", "dns_types", key]) flat
        r.rrtypeMask := by
  obtain ⟨pairs, d₁, d₂, d₃, heq, h₁, h₂, h₃, hcheck⟩ := parseRoute_cases h
  cases heq
  have hpaired : (pairBounds d₃).rrtypeMask = draftMask d₃ := by
    unfold pairBounds
    dsimp only
    split_ifs <;> rfl
  have hfilters : Moves draftMask (fun x y => DnsTypesMove doc (fun key =>
        (nestedGet doc (.mapping pairs) "filters" "dns_types").bind (mapGet doc · key)) x y)
      (stepField (mapGet doc (.mapping pairs) "filters") (parseRouteFilters doc)) :=
    stepField_moves (R := fun get => DnsTypesMove doc fun key => (get "dns_types").bind
      (mapGet doc · key)) (fun _ => parseRouteFilters_mask) dnsTypesMove_none
  obtain ⟨_, _, _, _, _, _, rfl⟩ := checkRoute_shape hcheck
  refine ⟨draftMask d₂, ?_, ?_⟩
  · rw [← (parseRouteTarget_fresh h₁).mask]
    exact parseRouteFlat_mask d₁ d₂ h₂
  · change DnsTypesMove doc _ (draftMask d₂) (pairBounds d₃).rrtypeMask
    rw [hpaired]
    exact hfilters d₂ d₃ h₃

end Trace

/-! ## Admitted types -/

section Admitted

variable {doc : YamlDocument} {node : YamlNode}

/-- The allow list in force: the one of `dns_types`, else the flat one, else the default. -/
def allowNames (doc : YamlDocument) (node : YamlNode) : List CStr :=
  (pathGet doc node ["filters", "dns_types", "allow"]).elim
    ((mapGet doc node "allow_types").elim [.lit "A", .lit "AAAA", .lit "TXT"] (listedNames doc))
    (listedNames doc)

def denyNames (doc : YamlDocument) (node : YamlNode) : List CStr :=
  (pathGet doc node ["filters", "dns_types", "deny"]).elim [] (listedNames doc)

/-- `qtype` is the number of a type that is named in the list. -/
def Names (names : List CStr) (qtype : UInt16) : Prop :=
  ∃ t : RrType, t.number = qtype ∧ ∃ text ∈ names, IsNameOf t text

/-- The route lets questions of this type through. -/
def AdmitsType (doc : YamlDocument) (node : YamlNode) (qtype : UInt16) : Prop :=
  Names (allowNames doc node) qtype ∧ ¬ Names (denyNames doc node) qtype

/-- `mask` is the mask of a list. -/
def MaskOf (names : List CStr) (mask : UInt32) : Prop :=
  ∀ t, Has mask t ↔ ∃ text ∈ names, IsNameOf t text

theorem maskOf_nil : MaskOf [] 0 := fun t => iff_of_false not_has_zero (by simp)

theorem maskOf_default :
    MaskOf [.lit "A", .lit "AAAA", .lit "TXT"] (rrtypeA ||| rrtypeAaaa ||| rrtypeTxt) := by
  intro t
  unfold Has
  cases t <;> decide

/-- A list that is present replaces the one before it. -/
theorem MaskOf.reads {v : Option YamlNode} {names : List CStr} {x y : UInt32} (hx : MaskOf names x)
    (h : Reads v (parseRrtypeMask doc) x y) : MaskOf (v.elim names (listedNames doc)) y := by
  cases v with
  | none =>
    obtain rfl : y = x := h
    exact hx
  | some list => exact has_parseRrtypeMask h

theorem typeAllowed_maskOf {allow deny : List CStr} {x y : UInt32} (hx : MaskOf allow x)
    (hy : MaskOf deny y) (qtype : UInt16) :
    typeAllowed qtype (x &&& ~~~y) = true ↔ Names allow qtype ∧ ¬ Names deny qtype := by
  rw [typeAllowed_iff]
  constructor
  · rintro ⟨t, rfl, hhas⟩
    rw [has_and_not, hx t, hy t] at hhas
    refine ⟨⟨t, rfl, hhas.1⟩, ?_⟩
    rintro ⟨u, hnumber, hnamed⟩
    exact hhas.2 (RrType.number_inj hnumber ▸ hnamed)
  · rintro ⟨⟨t, rfl, hnamed⟩, hdeny⟩
    refine ⟨t, rfl, (has_and_not y).mpr ⟨(hx t).mpr hnamed, fun hhas => ?_⟩⟩
    exact hdeny ⟨t, rfl, (hy t).mp hhas⟩

theorem typeAllowed_of_parse {cfg : Config} {r : Route}
    (h : parseRoute doc (some node) cfg = .ok r) (qtype : UInt16) :
    typeAllowed qtype r.rrtypeMask = true ↔ AdmitsType doc node qtype := by
  obtain ⟨flat, hflat, allow, deny, hallow, hdeny, hmask⟩ := mask_of_parse h
  rw [hmask]
  exact typeAllowed_maskOf ((maskOf_default.reads hflat).reads hallow) (maskOf_nil.reads hdeny)
    qtype

/-- A mask of known types that is not zero lets some type through. -/
theorem exists_typeAllowed {mask : UInt32} (hne : mask ≠ 0) (hle : mask ≤ 15) :
    ∃ qtype, typeAllowed qtype mask = true := by
  have hall : ∀ m : Fin 16, UInt32.ofNat m ≠ 0 →
      ∃ t ∈ [RrType.a, .aaaa, .txt, .any], typeAllowed t.number (UInt32.ofNat m) = true := by decide
  obtain ⟨t, -, ht⟩ := hall ⟨mask.toNat, Nat.lt_succ_of_le (UInt32.le_iff_toNat_le.mp hle)⟩
    (by rwa [UInt32.ofNat_toNat])
  rw [UInt32.ofNat_toNat] at ht
  exact ⟨t.number, ht⟩

/-- **Every route node.** If it is accepted, its route lets exactly the types through that its lists
    admit. If they admit none, it is rejected. -/
theorem parseRoute_admits (doc : YamlDocument) (node : YamlNode) (cfg : Config) :
    (∀ r, parseRoute doc (some node) cfg = .ok r →
      ∀ qtype, typeAllowed qtype r.rrtypeMask = true ↔ AdmitsType doc node qtype) ∧
    ((∀ qtype, ¬ AdmitsType doc node qtype) → ∃ ms, parseRoute doc (some node) cfg = .error ms) := by
  refine ⟨fun r h => typeAllowed_of_parse h, fun hnone => ?_⟩
  cases h : parseRoute doc (some node) cfg with
  | error ms => exact ⟨ms, rfl⟩
  | ok r =>
    have hacc := parseRoute_accepted h
    obtain ⟨qtype, hqtype⟩ := exists_typeAllowed hacc.texts.mask_ne hacc.texts.mask_le
    exact absurd ((typeAllowed_of_parse h qtype).mp hqtype) (hnone qtype)

end Admitted

/-- A route that lists `aaaa`, `A` and `a`, denies `A`, and has a flat list that is overridden. -/
def typesDocument : YamlDocument where
  nodes :=
    [.mapping [(2, 3), (4, 5), (6, 7), (8, 9)],
      .scalar (ascii "domain"), .scalar (ascii "a"),
      .scalar (ascii "target"), .scalar (ascii "kernel_space"),
      .scalar (ascii "allow_types"), .scalar (ascii "TXT"),
      .scalar (ascii "filters"), .mapping [(10, 11)],
      .scalar (ascii "dns_types"), .mapping [(12, 13), (17, 18)],
      .scalar (ascii "allow"), .sequence [14, 15, 16],
      .scalar (ascii "aaaa"), .scalar (ascii "A"), .scalar (ascii "a"),
      .scalar (ascii "deny"), .scalar (ascii "A")]

def typesRoute : YamlNode := .mapping [(2, 3), (4, 5), (6, 7), (8, 9)]

set_option maxRecDepth 4000 in
theorem parseRoute_admits_sample :
    ∃ r, parseRoute typesDocument (some typesRoute) configInitDefaults = .ok r ∧
      r.rrtypeMask = 2 ∧
      ∀ qtype, typeAllowed qtype r.rrtypeMask = true ↔ AdmitsType typesDocument typesRoute qtype := by
  have hmask : (parseRoute typesDocument (some typesRoute) configInitDefaults).toOption.map
      (·.rrtypeMask) = some 2 := by decide +kernel
  cases h : parseRoute typesDocument (some typesRoute) configInitDefaults with
  | error ms =>
    rw [h] at hmask
    cases hmask
  | ok r =>
    rw [h] at hmask
    exact ⟨r, rfl, Option.some.inj hmask,
      (parseRoute_admits typesDocument typesRoute configInitDefaults).1 r h⟩

end Zereh.Link
