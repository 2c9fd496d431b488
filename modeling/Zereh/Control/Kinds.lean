/-
  Which keys the parser checks for the kind of their node.

  `keySections` lists every key that `zereh_parse_config_yaml` reads: the kinds that its node may
  have, the other names of the same field that are read in its place, and whether the code rejects a
  node of another kind. A number, a word or a list of the wrong kind is rejected. A text is skipped,
  and so is a section, except `filters` and `dns_types`: `rate_limit: 100` is a route without a limit.
  A name that is not read because of a preferred one is not looked at.

  `rejected_iff_checked`: a node of the wrong kind always means a rejected document exactly for the
  keys marked so.
-/
import Zereh.Control.Provenance

namespace Zereh.Control

open Lib

/-! ## The keys -/

/-- `yaml_node_type_t`. -/
inductive Kind where
  | scalar
  | sequence
  | mapping
  deriving DecidableEq, Repr

/-- `node->type`. -/
def YamlNode.kind : YamlNode → Kind
  | .scalar _ => .scalar
  | .sequence _ => .sequence
  | .mapping _ => .mapping

/-- A key: the kinds of its node, the names that are read in its place, and whether a node of
    another kind is rejected. -/
structure Key where
  name : String
  kinds : List Kind
  preferred : List String
  checked : Bool

/-- A number, a truth value or a word of a few. -/
def Key.value (name : String) : Key := ⟨name, [.scalar], [], true⟩

/-- A text that is copied if it is a scalar. -/
def Key.text (name : String) : Key := ⟨name, [.scalar], [], false⟩

/-- A section that is read if it is a mapping. -/
def Key.part (name : String) : Key := ⟨name, [.mapping], [], false⟩

/-- One entry or a list of them. -/
def Key.entries (name : String) : Key := ⟨name, [.scalar, .sequence], [], true⟩

def Key.list (name : String) : Key := ⟨name, [.sequence], [], true⟩

/-- A key that is read only when these are absent. -/
def Key.unless (names : List String) (key : Key) : Key := { key with preferred := names }

def keysOfGlobal : List Key := [.text "interface", .value "xdp_mode", .value "default_action"]

/-- The keys of the global filters; the blacklist has another name at the root. -/
def keysOfGlobalFilters (blacklistKey : String) : List Key :=
  [.list blacklistKey, .value "max_packet_size", .entries "allowed_opcodes",
    .value "drop_truncated"]

/-- The other keys of the root. -/
def keysOfOptions : List Key :=
  [.text "template_path", .text "generated_source", .text "generated_object", .text "xdp_section",
    .value "default_kernel_port", .part "codegen_options", .list "routes"]

def keysOfRoot : List Key :=
  (.part "global" :: keysOfGlobal) ++ (.part "global_filters" :: keysOfGlobalFilters "blacklist") ++
    keysOfOptions

def keysOfCodegen : List Key :=
  [.value "hash_algorithm", .value "optimize_jump_tables", .value "inline_checksums"]

def keysOfRoute : List Key :=
  [.value "domain", .value "target_type", .unless ["target_type"] (.value "target"),
    .value "xsk_map_index", .unless ["xsk_map_index"] (.value "xsk_queue"),
    .value "forward_port", .unless ["forward_port"] (.value "kernel_port"),
    .value "prog_array_index", .unless ["prog_array_index"] (.value "prog_index"),
    .text "prog_name", .unless ["prog_name"] (.text "xdp_prog_name"),
    .text "prefix", .text "suffix", .value "min_labels", .value "max_labels",
    .value "qname_min_len", .unless ["qname_min_len"] (.value "min_length"),
    .value "qname_max_len", .unless ["qname_max_len"] (.value "max_length"),
    .value "pow_difficulty", .entries "allow_types", ⟨"filters", [.mapping], [], true⟩]

def keysOfFilters : List Key :=
  [.part "pow", .part "qname_rules", .part "rate_limit", ⟨"dns_types", [.mapping], [], true⟩,
    .part "bloom_filter"]

def keysOfPow : List Key := [.value "enabled", .value "difficulty", .value "time_window"]

def keysOfQname : List Key :=
  [.text "prefix_match", .text "suffix_match", .value "min_labels", .value "max_labels",
    .value "min_length", .value "max_length"]

def keysOfRate : List Key := [.value "qps"]

def keysOfTypes : List Key := [.entries "allow", .entries "deny"]

def keysOfBloom : List Key :=
  [.value "enabled", .value "size", .value "hash_functions", .value "time_window",
    .list "allow_qnames", .unless ["allow_qnames"] (.list "seed_qnames"),
    .unless ["allow_qnames", "seed_qnames"] (.list "seeds")]

/-- The keys of a mapping, which is found from the root or from a route. -/
structure KeySection where
  inRoute : Bool
  path : List String
  keys : List Key

def keySections : List KeySection :=
  [⟨false, [], keysOfRoot⟩, ⟨false, ["global"], keysOfGlobal⟩,
    ⟨false, ["global_filters"], keysOfGlobalFilters "ip_blacklist"⟩,
    ⟨false, ["codegen_options"], keysOfCodegen⟩,
    ⟨true, [], keysOfRoute⟩, ⟨true, ["filters"], keysOfFilters⟩, ⟨true, ["filters", "pow"], keysOfPow⟩,
    ⟨true, ["filters", "qname_rules"], keysOfQname⟩, ⟨true, ["filters", "rate_limit"], keysOfRate⟩,
    ⟨true, ["filters", "dns_types"], keysOfTypes⟩, ⟨true, ["filters", "bloom_filter"], keysOfBloom⟩]

/-! ## Documents with a node of the wrong kind -/

section Wrong

variable (doc : YamlDocument) (part : KeySection) (key : Key)

/-- The mappings that a section is looked for in. -/
def holders : List YamlNode := if part.inRoute then routeNodes doc else [rootNode doc]

/-- The key is present with a node of the wrong kind. -/
def WrongKind : Prop :=
  ∃ holder ∈ holders doc part, ∃ node ∈ pathGet doc holder (part.path ++ [key.name]),
    node.kind ∉ key.kinds

/-- So it is, and no name that is preferred to it is present. -/
def WrongAlone : Prop :=
  ∃ holder ∈ holders doc part, (∃ node ∈ pathGet doc holder (part.path ++ [key.name]),
    node.kind ∉ key.kinds) ∧
    ∀ name ∈ key.preferred, pathGet doc holder (part.path ++ [name]) = none

instance : Decidable (WrongKind doc part key) :=
  inferInstanceAs (Decidable (∃ holder ∈ holders doc part,
    ∃ node ∈ pathGet doc holder (part.path ++ [key.name]), node.kind ∉ key.kinds))

instance : Decidable (WrongAlone doc part key) :=
  inferInstanceAs (Decidable (∃ holder ∈ holders doc part,
    (∃ node ∈ pathGet doc holder (part.path ++ [key.name]), node.kind ∉ key.kinds) ∧
      ∀ name ∈ key.preferred, pathGet doc holder (part.path ++ [name]) = none))

/-- `zereh_parse_config_yaml` returns -1. -/
def Rejected : Prop := ∃ ms, parseConfigYaml doc = .error ms

end Wrong

/-! ## Steps -/

section Steps

variable {σ α : Type} {v w : Option YamlNode} {kinds : List Kind}

/-- A node, if present, is of one of these kinds. -/
def OfKind (kinds : List Kind) (v : Option YamlNode) : Prop := ∀ node ∈ v, node.kind ∈ kinds

theorem OfKind.first (h : OfKind kinds (v.or w)) : OfKind kinds v := by
  intro node hnode
  refine h node ?_
  rw [Option.mem_def.mp hnode]
  rfl

theorem OfKind.second (h : OfKind kinds (v.or w)) (hv : v = none) : OfKind kinds w := by
  rwa [hv, Option.none_or] at h

theorem field_demands {parse : YamlNode → Parsed α} {set : α → σ → σ}
    (h : ∀ node a, parse node = .ok a → node.kind ∈ kinds) :
    Demands (OfKind kinds v) (field v parse set) := by
  intro s s' hs node hnode
  rw [Option.mem_def.mp hnode] at hs
  obtain ⟨a, ha, -⟩ := bind_eq_ok hs
  exact h node a ha

theorem textField_demands {n : Nat} {set : CStr → σ → σ} : Demands True (textField n v set) :=
  fun _ _ _ => trivial

theorem orSay_demands {Q : Prop} {m : Message} {f : σ → Parsed σ} (h : Demands Q f) :
    Demands Q fun s => orSay m (f s) := fun s s' hs => h s s' (orSay_eq_ok hs)

theorem stepField_demands (Q : (String → Option YamlNode) → Prop) {doc : YamlDocument}
    {root : YamlNode} {name : String} {step : YamlNode → σ → Parsed σ}
    (h : ∀ node, Demands (node.kind ∈ kinds ∧ Q (mapGet doc node)) (step node))
    (hnone : Q fun _ => none) :
    Demands (OfKind kinds (mapGet doc root name) ∧ Q (nestedGet doc root name))
      (stepField (mapGet doc root name) step) := by
  intro s s' hs
  unfold nestedGet
  cases hv : mapGet doc root name with
  | none => exact ⟨fun _ hnode => absurd hnode (Option.not_mem_none _), hnone⟩
  | some node =>
    rw [hv] at hs
    obtain ⟨hkind, hQ⟩ := h node s s' hs
    refine ⟨fun node' hnode => ?_, hQ⟩
    rwa [← Option.some.inj (Option.mem_def.mp hnode)]

end Steps

/-! ## Values -/

section Values

variable {node : YamlNode} {doc : YamlDocument}

theorem kind_of_scalar {text : CStr} (h : scalar node = some text) : node.kind ∈ [Kind.scalar] := by
  cases node with
  | scalar value => exact List.mem_singleton.mpr rfl
  | sequence items => cases h
  | mapping pairs => cases h

theorem parseU32_kind {n : UInt32} (h : parseU32 node = .ok n) : node.kind ∈ [Kind.scalar] := by
  unfold parseU32 at h
  split at h
  · cases h
  · exact kind_of_scalar ‹_›

theorem parseU16_kind {n : UInt16} (h : parseU16 node = .ok n) : node.kind ∈ [Kind.scalar] := by
  obtain ⟨m, hm, -⟩ := bind_eq_ok h
  exact parseU32_kind hm

theorem parseU8_kind {n : UInt8} (h : parseU8 node = .ok n) : node.kind ∈ [Kind.scalar] := by
  obtain ⟨m, hm, -⟩ := bind_eq_ok h
  exact parseU32_kind hm

theorem parseWord_kind {α : Type} {table : List (List String × α)} {a : α}
    (h : parseWord table node = .ok a) : node.kind ∈ [Kind.scalar] := by
  unfold parseWord at h
  split at h
  · cases h
  · exact kind_of_scalar ‹_›

theorem kind_of_ne_mapping (h : ∀ pairs, node ≠ .mapping pairs) :
    node.kind ∈ [Kind.scalar, .sequence] := by
  cases node with
  | scalar value => exact List.mem_cons_self
  | sequence items => exact List.mem_cons_of_mem _ List.mem_cons_self
  | mapping pairs => exact absurd rfl (h pairs)

theorem parseRrtypeMask_kind {mask : UInt32} (h : parseRrtypeMask doc node = .ok mask) :
    node.kind ∈ [Kind.scalar, .sequence] := by
  refine kind_of_ne_mapping fun pairs hnode => ?_
  subst hnode
  cases h

theorem parseAllowedOpcodes_kind {mask : UInt16} (h : parseAllowedOpcodes doc node = .ok mask) :
    node.kind ∈ [Kind.scalar, .sequence] := by
  refine kind_of_ne_mapping fun pairs hnode => ?_
  subst hnode
  cases h

theorem parseBlacklist_kind {list : List CStr} (h : parseBlacklist doc node = .ok list) :
    node.kind ∈ [Kind.sequence] := by
  obtain ⟨items, rfl, -⟩ := parseBlacklist_eq h
  exact List.mem_singleton.mpr rfl

theorem parseBloomSeeds_kind : Demands (node.kind ∈ [Kind.sequence]) (parseBloomSeeds doc node) := by
  intro d d' h
  cases node with
  | scalar value => cases h
  | sequence items => exact List.mem_singleton.mpr rfl
  | mapping pairs => cases h

end Values

/-! ## Sections -/

/-- Where the preferred names are absent, the node of every checked key is of the right kind. -/
def Allowed (get : String → Option YamlNode) (keys : List Key) : Prop :=
  ∀ key ∈ keys, key.checked = true → (∀ name ∈ key.preferred, get name = none) →
    OfKind key.kinds (get key.name)

section Allowed

variable {get : String → Option YamlNode} {key : Key} {keys : List Key}

theorem Allowed.nil : Allowed get [] := fun _ h => absurd h List.not_mem_nil

theorem Allowed.cons (h : (∀ name ∈ key.preferred, get name = none) → OfKind key.kinds (get key.name))
    (hkeys : Allowed get keys) : Allowed get (key :: keys) :=
  List.forall_mem_cons.mpr ⟨fun _ => h, hkeys⟩

/-- A value with two names, the first of which is preferred. -/
theorem Allowed.either {name name' : String} (h : OfKind [.scalar] ((get name).or (get name')))
    (hkeys : Allowed get keys) :
    Allowed get (.value name :: .unless [name] (.value name') :: keys) := by
  refine .cons (fun _ => h.first) (.cons (fun hnone => ?_) hkeys)
  exact h.second (hnone name (List.mem_singleton.mpr rfl))

theorem Allowed.skip (h : key.checked = false) (hkeys : Allowed get keys) :
    Allowed get (key :: keys) :=
  List.forall_mem_cons.mpr ⟨fun htrue => absurd htrue (ne_true_of_eq_false h), hkeys⟩

theorem Allowed.append {keys' : List Key} (h : Allowed get keys) (h' : Allowed get keys') :
    Allowed get (keys ++ keys') :=
  List.forall_mem_append.mpr ⟨h, h'⟩

/-- Keys of a section that is absent, or no mapping, are absent. -/
theorem allowed_absent : Allowed (fun _ => none) keys :=
  fun _ _ _ _ _ hnode => absurd hnode (Option.not_mem_none _)

end Allowed

section Demands

variable {doc : YamlDocument} {node : YamlNode}

/-- A section demands of its keys what its body does. -/
theorem subsection_demands {σ : Type} {name : String} {keys : List Key}
    {body : YamlNode → σ → Parsed σ}
    (h : ∀ node, Demands (Allowed (mapGet doc node) keys) (body node)) :
    Demands (Allowed (nestedGet doc node name) keys) (subsection (mapGet doc node name) body) := by
  have hmoves : Moves (fun _ : σ => ()) (fun _ _ => Allowed (nestedGet doc node name) keys)
      (subsection (mapGet doc node name) body) :=
    subsection_moves (R := fun get _ _ => Allowed get keys) h fun _ => allowed_absent
  exact hmoves

theorem parsePow_demands :
    Demands (Allowed (mapGet doc node) keysOfPow) (parsePow doc node) := by
  refine Demands.imp (.comp (field_demands fun _ _ => parseWord_kind) <|
    .comp (field_demands fun _ _ => parseU8_kind) (field_demands fun _ _ => parseU16_kind)) ?_
  rintro ⟨henabled, hdifficulty, hwindow⟩
  exact .cons (fun _ => henabled) <| .cons (fun _ => hdifficulty) <| .cons (fun _ => hwindow) .nil

theorem parseQnameRules_demands :
    Demands (Allowed (mapGet doc node) keysOfQname) (parseQnameRules doc node) := by
  refine Demands.imp (.comp textField_demands <| .comp textField_demands <|
    .comp (field_demands fun _ _ => parseU8_kind) <|
    .comp (field_demands fun _ _ => parseU8_kind) <|
    .comp (field_demands fun _ _ => parseU16_kind) (field_demands fun _ _ => parseU16_kind)) ?_
  rintro ⟨-, -, hminLabels, hmaxLabels, hminLength, hmaxLength⟩
  exact .skip rfl <| .skip rfl <| .cons (fun _ => hminLabels) <| .cons (fun _ => hmaxLabels) <|
    .cons (fun _ => hminLength) <| .cons (fun _ => hmaxLength) .nil

theorem parseRateLimit_demands :
    Demands (Allowed (mapGet doc node) keysOfRate) (parseRateLimit doc node) :=
  Demands.imp (field_demands fun _ _ => parseU32_kind) fun hqps => .cons (fun _ => hqps) .nil

theorem parseRouteDnsTypes_demands :
    Demands (node.kind ∈ [Kind.mapping] ∧ Allowed (mapGet doc node) keysOfTypes)
      (parseRouteDnsTypes doc node) := by
  intro d d' h
  unfold parseRouteDnsTypes at h
  split at h
  · obtain ⟨allow, hallow, h⟩ := bind_eq_ok h
    obtain ⟨deny, hdeny, -⟩ := bind_eq_ok h
    have hallow := field_demands (fun _ _ => parseRrtypeMask_kind) _ _ hallow
    have hdeny := field_demands (fun _ _ => parseRrtypeMask_kind) _ _ hdeny
    exact ⟨List.mem_singleton.mpr rfl, .cons (fun _ => hallow) <| .cons (fun _ => hdeny) .nil⟩
  · cases h

theorem parseBloomFilter_demands :
    Demands (Allowed (mapGet doc node) keysOfBloom) (parseBloomFilter doc node) := by
  have hseeds : ∀ v, Demands (OfKind [.sequence] v) (stepField v (parseBloomSeeds doc)) := by
    intro v d d' h node hnode
    rw [Option.mem_def.mp hnode] at h
    exact parseBloomSeeds_kind d d' h
  refine Demands.imp (.comp (field_demands fun _ _ => parseWord_kind) <|
    .comp (field_demands fun _ _ => parseU32_kind) <|
    .comp (field_demands fun _ _ => parseU8_kind) <|
    .comp (field_demands fun _ _ => parseU16_kind) (hseeds _)) ?_
  rintro ⟨henabled, hsize, hfunctions, hwindow, hlist⟩
  have hfirst := hlist.first
  exact .cons (fun _ => henabled) <| .cons (fun _ => hsize) <| .cons (fun _ => hfunctions) <|
    .cons (fun _ => hwindow) <| .cons (fun _ => hfirst.first) <|
    .cons (fun hnone => hfirst.second (hnone _ (by decide))) <|
    .cons (fun hnone => hlist.second (by
      rw [mapGet2, hnone "allow_qnames" (by decide), hnone "seed_qnames" (by decide)]
      rfl)) .nil

/-- What `filters` demands of its keys and of those of its sections. -/
structure FiltersAllowed (doc : YamlDocument) (get : String → Option YamlNode) : Prop where
  keys : Allowed get keysOfFilters
  pow : Allowed (fun key => (get "pow").bind (mapGet doc · key)) keysOfPow
  qname : Allowed (fun key => (get "qname_rules").bind (mapGet doc · key)) keysOfQname
  rate : Allowed (fun key => (get "rate_limit").bind (mapGet doc · key)) keysOfRate
  types : Allowed (fun key => (get "dns_types").bind (mapGet doc · key)) keysOfTypes
  bloom : Allowed (fun key => (get "bloom_filter").bind (mapGet doc · key)) keysOfBloom

theorem parseRouteFilters_demands :
    Demands (node.kind ∈ [Kind.mapping] ∧ FiltersAllowed doc (mapGet doc node))
      (parseRouteFilters doc node) := by
  have hpow : Demands (Allowed (nestedGet doc node "pow") keysOfPow)
      (subsection (mapGet doc node "pow") (parsePow doc)) :=
    subsection_demands fun _ => parsePow_demands
  have hqname : Demands (Allowed (nestedGet doc node "qname_rules") keysOfQname)
      (subsection (mapGet doc node "qname_rules") (parseQnameRules doc)) :=
    subsection_demands fun _ => parseQnameRules_demands
  have hrate : Demands (Allowed (nestedGet doc node "rate_limit") keysOfRate)
      (subsection (mapGet doc node "rate_limit") (parseRateLimit doc)) :=
    subsection_demands fun _ => parseRateLimit_demands
  have htypes : Demands (OfKind [.mapping] (mapGet doc node "dns_types") ∧
      Allowed (nestedGet doc node "dns_types") keysOfTypes)
      (stepField (mapGet doc node "dns_types") (parseRouteDnsTypes doc)) :=
    stepField_demands (Allowed · keysOfTypes) (fun _ => parseRouteDnsTypes_demands) allowed_absent
  have hbloom : Demands (Allowed (nestedGet doc node "bloom_filter") keysOfBloom)
      (subsection (mapGet doc node "bloom_filter") (parseBloomFilter doc)) :=
    subsection_demands fun _ => parseBloomFilter_demands
  intro d d' h
  unfold parseRouteFilters at h
  split at h
  · obtain ⟨hp, hq, hr, ⟨hkind, ht⟩, hb⟩ :=
      hpow.comp (hqname.comp (hrate.comp (htypes.comp hbloom))) d d' h
    have hkeys : Allowed (mapGet doc _) keysOfFilters := .skip rfl <| .skip rfl <| .skip rfl <|
      .cons (fun _ => hkind) <| .skip rfl .nil
    exact ⟨List.mem_singleton.mpr rfl, hkeys, hp, hq, hr, ht, hb⟩
  · cases h

theorem parseRouteTarget_kind {cfg : Config} {d : Draft}
    (h : parseRouteTarget doc node cfg = .ok d) :
    OfKind [.scalar] (mapGet doc node "domain") ∧
      OfKind [.scalar] (mapGet2 doc node "target_type" "target") := by
  have hscalar : ∀ {v : Option YamlNode} {text : CStr}, v.bind scalar = some text →
      OfKind [.scalar] v := by
    intro v text hv n hn
    rw [Option.mem_def.mp hn] at hv
    exact kind_of_scalar hv
  unfold parseRouteTarget at h
  split at h
  · cases h
  · rename_i text htext
    split at h
    · cases h
    · dsimp only at h
      split at h
      · cases h
      · rename_i word hword
        exact ⟨hscalar htext, hscalar hword⟩

theorem parseRouteFlat_demands :
    Demands (OfKind [.scalar] (mapGet2 doc node "xsk_map_index" "xsk_queue") ∧
      OfKind [.scalar] (mapGet2 doc node "forward_port" "kernel_port") ∧
      OfKind [.scalar] (mapGet2 doc node "prog_array_index" "prog_index") ∧ True ∧ True ∧ True ∧
      OfKind [.scalar] (mapGet doc node "min_labels") ∧
      OfKind [.scalar] (mapGet doc node "max_labels") ∧
      OfKind [.scalar] (mapGet2 doc node "qname_min_len" "min_length") ∧
      OfKind [.scalar] (mapGet2 doc node "qname_max_len" "max_length") ∧
      OfKind [.scalar] (mapGet doc node "pow_difficulty") ∧
      OfKind [.scalar, .sequence] (mapGet doc node "allow_types")) (parseRouteFlat doc node) := by
  refine .comp ?_ <| .comp ?_ <| .comp ?_ <| .comp ?_ <| .comp ?_ <| .comp ?_ <| .comp ?_ <|
    .comp ?_ <| .comp ?_ <| .comp ?_ <| .comp ?_ ?_
  · exact field_demands fun _ _ => parseU32_kind
  · exact field_demands fun _ _ => parseU16_kind
  · exact field_demands fun _ _ => parseU32_kind
  · exact textField_demands
  · exact textField_demands
  · exact textField_demands
  · exact field_demands fun _ _ => parseU8_kind
  · exact field_demands fun _ _ => parseU8_kind
  · exact field_demands fun _ _ => parseU16_kind
  · exact field_demands fun _ _ => parseU16_kind
  · exact field_demands fun _ _ => parseU8_kind
  · exact field_demands fun _ _ => parseRrtypeMask_kind

/-- A route that is accepted has nodes of the right kinds under its checked keys. -/
theorem parseRoute_allowed {cfg : Config} {r : Route}
    (h : parseRoute doc (some node) cfg = .ok r) :
    Allowed (mapGet doc node) keysOfRoute ∧ FiltersAllowed doc (nestedGet doc node "filters") := by
  obtain ⟨pairs, d₁, d₂, d₃, heq, h₁, h₂, h₃, -⟩ := parseRoute_cases h
  cases heq
  have hfilters : Demands (OfKind [.mapping] (mapGet doc (.mapping pairs) "filters") ∧
      FiltersAllowed doc (nestedGet doc (.mapping pairs) "filters"))
      (stepField (mapGet doc (.mapping pairs) "filters") (parseRouteFilters doc)) :=
    stepField_demands (FiltersAllowed doc) (fun _ => parseRouteFilters_demands)
      ⟨allowed_absent, allowed_absent, allowed_absent, allowed_absent, allowed_absent,
        allowed_absent⟩
  obtain ⟨hdomain, htarget⟩ := parseRouteTarget_kind h₁
  obtain ⟨hqueue, hport, hindex, -, -, -, hminLabels, hmaxLabels, hminLength, hmaxLength,
    hpow, htypes⟩ := parseRouteFlat_demands d₁ d₂ h₂
  obtain ⟨hkind, hsections⟩ := hfilters d₂ d₃ h₃
  refine ⟨?_, hsections⟩
  exact .cons (fun _ => hdomain) <|
    .either htarget <| .either hqueue <| .either hport <| .either hindex <|
    .skip rfl <| .skip rfl <| .skip rfl <| .skip rfl <|
    .cons (fun _ => hminLabels) <| .cons (fun _ => hmaxLabels) <|
    .either hminLength <| .either hmaxLength <|
    .cons (fun _ => hpow) <| .cons (fun _ => htypes) <| .cons (fun _ => hkind) .nil

theorem parseGlobalKeys_demands :
    Demands (Allowed (mapGet doc node) keysOfGlobal) (parseGlobalKeys doc node) := by
  refine Demands.imp (.comp textField_demands <| .comp (field_demands fun _ _ => parseWord_kind)
    (field_demands fun _ _ => parseWord_kind)) ?_
  rintro ⟨-, hmode, haction⟩
  exact .skip rfl <| .cons (fun _ => hmode) <| .cons (fun _ => haction) .nil

theorem parseFilterKeys_demands {key : String} :
    Demands (Allowed (mapGet doc node) (keysOfGlobalFilters key)) (parseFilterKeys doc key node) := by
  refine Demands.imp (.comp (field_demands fun _ _ => parseBlacklist_kind) <|
    .comp (field_demands fun _ _ => parseU32_kind) <|
    .comp (field_demands fun _ _ => parseAllowedOpcodes_kind)
      (field_demands fun _ _ => parseWord_kind)) ?_
  rintro ⟨hlist, hsize, hopcodes, htruncated⟩
  exact .cons (fun _ => hlist) <| .cons (fun _ => hsize) <| .cons (fun _ => hopcodes) <|
    .cons (fun _ => htruncated) .nil

theorem parseCodegenKeys_demands :
    Demands (Allowed (mapGet doc node) keysOfCodegen) (parseCodegenKeys doc node) := by
  refine Demands.imp (.comp (field_demands fun _ _ => parseWord_kind) <|
    .comp (field_demands fun _ _ => parseWord_kind) (field_demands fun _ _ => parseWord_kind)) ?_
  rintro ⟨halgorithm, htables, hchecksums⟩
  exact .cons (fun _ => halgorithm) <| .cons (fun _ => htables) <| .cons (fun _ => hchecksums) .nil

/-- What the steps before the routes demand of the root and its sections. -/
structure HeadAllowed (doc : YamlDocument) (root : YamlNode) : Prop where
  global : Allowed (nestedGet doc root "global") keysOfGlobal
  flatGlobal : Allowed (mapGet doc root) keysOfGlobal
  filters : Allowed (nestedGet doc root "global_filters") (keysOfGlobalFilters "ip_blacklist")
  flatFilters : Allowed (mapGet doc root) (keysOfGlobalFilters "blacklist")
  port : OfKind [.scalar] (mapGet doc root "default_kernel_port")
  codegen : Allowed (nestedGet doc root "codegen_options") keysOfCodegen

theorem parseHead_demands : Demands (HeadAllowed doc node) (parseHead doc node) := by
  have hglobal : Demands _ fun cfg => orSay .invalidGlobal (parseGlobalSection doc node cfg) :=
    orSay_demands (.comp (subsection_demands fun _ => parseGlobalKeys_demands)
      parseGlobalKeys_demands)
  have hfilters : Demands _ fun cfg =>
      orSay .invalidGlobalFilters (parseGlobalFilters doc node cfg) :=
    orSay_demands (.comp (subsection_demands fun _ => parseFilterKeys_demands)
      parseFilterKeys_demands)
  have hpaths : Demands True (parsePaths doc node) := fun _ _ _ => trivial
  have hport : Demands _ fun cfg => orSay .invalidKernelPort (parseKernelPort doc node cfg) :=
    orSay_demands (field_demands fun _ _ => parseU16_kind)
  have hcodegen : Demands _ fun cfg =>
      orSay .invalidCodegenOptions (parseCodegenOptions doc node cfg) :=
    orSay_demands (subsection_demands fun _ => parseCodegenKeys_demands)
  refine Demands.imp (hglobal.comp (hfilters.comp (hpaths.comp (hport.comp hcodegen)))) ?_
  rintro ⟨⟨hnested, hflat⟩, ⟨hnested', hflat'⟩, -, hport, hcodegen⟩
  exact ⟨hnested, hflat, hnested', hflat', hport, hcodegen⟩

end Demands

theorem exists_of_forall₂ {α β : Type} {R : α → β → Prop} {l : List α} {l' : List β}
    (h : List.Forall₂ R l l') {a : α} (ha : a ∈ l) : ∃ b ∈ l', R a b := by
  induction h with
  | nil => cases ha
  | cons hab _ ih =>
    rcases List.mem_cons.mp ha with rfl | ha
    · exact ⟨_, List.mem_cons_self, hab⟩
    · obtain ⟨b, hb, hR⟩ := ih ha
      exact ⟨b, List.mem_cons_of_mem _ hb, hR⟩

theorem routes_allowed {doc : YamlDocument} {cfg : Config} (h : parseConfigYaml doc = .ok cfg) :
    ∀ node ∈ routeNodes doc, Allowed (mapGet doc node) keysOfRoute ∧
      FiltersAllowed doc (nestedGet doc node "filters") := by
  intro node hnode
  obtain ⟨head, hparsed⟩ := routes_parsed h
  obtain ⟨r, -, hr⟩ := exists_of_forall₂ hparsed hnode
  exact parseRoute_allowed hr

/-- **Every accepted document** has nodes of the right kinds under its checked keys. -/
theorem allowed_of_parse {doc : YamlDocument} {cfg : Config} (h : parseConfigYaml doc = .ok cfg) :
    ∀ part ∈ keySections, ∀ holder ∈ holders doc part,
      Allowed (fun name => pathGet doc holder (part.path ++ [name])) part.keys := by
  obtain ⟨pairs, head, items, routes, hroot, hhead, hitems, -, -, -⟩ := parseConfigYaml_cases h
  have hallowed := parseHead_demands _ _ hhead
  have hlist : OfKind [.sequence] (mapGet doc (.mapping pairs) "routes") := by
    intro node hnode
    rw [hitems] at hnode
    cases hnode
    exact List.mem_singleton.mpr rfl
  have hoptions : Allowed (mapGet doc (.mapping pairs)) keysOfOptions :=
    .skip rfl <| .skip rfl <| .skip rfl <| .skip rfl <| .cons (fun _ => hallowed.port) <|
      .skip rfl <| .cons (fun _ => hlist) .nil
  have hkeys : Allowed (mapGet doc (.mapping pairs)) keysOfRoot :=
    .append (.append (.skip rfl hallowed.flatGlobal) (.skip rfl hallowed.flatFilters)) hoptions
  have hholder : ∀ holder ∈ [rootNode doc], holder = .mapping pairs := fun holder hmem =>
    (List.mem_singleton.mp hmem).trans (rootNode_eq hroot)
  intro part hpart holder hmem
  simp only [keySections, List.mem_cons, List.not_mem_nil, or_false] at hpart
  rcases hpart with rfl | rfl | rfl | rfl | rfl | rfl | rfl | rfl | rfl | rfl | rfl
  · rw [hholder holder hmem]
    exact hkeys
  · rw [hholder holder hmem]
    exact hallowed.global
  · rw [hholder holder hmem]
    exact hallowed.filters
  · rw [hholder holder hmem]
    exact hallowed.codegen
  · exact (routes_allowed h holder hmem).1
  · exact (routes_allowed h holder hmem).2.keys
  · exact (routes_allowed h holder hmem).2.pow
  · exact (routes_allowed h holder hmem).2.qname
  · exact (routes_allowed h holder hmem).2.rate
  · exact (routes_allowed h holder hmem).2.types
  · exact (routes_allowed h holder hmem).2.bloom

/-! ## Keys that are not checked -/

/-- A node of another kind than the key may have. -/
def wrongNode (key : Key) : YamlNode :=
  if Kind.mapping ∈ key.kinds then .scalar (ascii "100") else .mapping []

/-- A node that the parser takes under a preferred name. -/
def goodNode (name : String) : YamlNode :=
  if name = "target_type" then .scalar (ascii "user_space")
  else if name ∈ ["allow_qnames", "seed_qnames"] then .sequence [6]
  else .scalar (ascii "1")

/-- One route for the name "a" to user space, with a node of the wrong kind under a key, and maybe
    a good one under another name beside it. -/
def misfitDocument (part : KeySection) (key : Key) (beside : Option String) : YamlDocument where
  nodes :=
    let inner := (13, 14) :: (if beside.isSome then [(15, 16)] else [])
    let outer := if part.path = [] then inner else [(9, 10)]
    [.mapping ((if part.inRoute then [] else outer) ++ [(2, 3)]),
      .scalar (ascii "routes"), .sequence [4],
      .mapping ((if part.inRoute then outer else []) ++ [(5, 6), (7, 8)]),
      .scalar (ascii "domain"), .scalar (ascii "a"),
      .scalar (ascii "target"), .scalar (ascii "user_space"),
      .scalar (ascii (part.path.headD "")),
      .mapping (if part.path.length = 2 then [(11, 12)] else inner),
      .scalar (ascii (part.path.getLastD "")), .mapping inner,
      .scalar (ascii key.name), wrongNode key,
      .scalar (ascii (beside.getD "")), goodNode (beside.getD "")]

set_option maxRecDepth 8000 in
theorem misfit_accepted : ∀ part ∈ keySections, ∀ key ∈ part.keys, key.checked = false →
    WrongAlone (misfitDocument part key none) part key ∧
      (parseConfigYaml (misfitDocument part key none)).isOk = true := by
  decide +kernel

set_option maxRecDepth 8000 in
theorem misfit_beside_accepted : ∀ part ∈ keySections, ∀ key ∈ part.keys,
    ∀ name ∈ key.preferred.head?, WrongKind (misfitDocument part key (some name)) part key ∧
      (parseConfigYaml (misfitDocument part key (some name))).isOk = true := by
  decide +kernel

theorem not_rejected_of_isOk {doc : YamlDocument} (h : (parseConfigYaml doc).isOk = true) :
    ¬ Rejected doc := by
  rintro ⟨ms, hms⟩
  rw [hms] at h
  cases h

theorem WrongAlone.wrongKind {doc : YamlDocument} {part : KeySection} {key : Key}
    (h : WrongAlone doc part key) : WrongKind doc part key := by
  obtain ⟨holder, hholder, hwrong, -⟩ := h
  exact ⟨holder, hholder, hwrong⟩

/-- A checked key that is read is rejected with a node of the wrong kind. -/
theorem rejected_of_checked {doc : YamlDocument} {part : KeySection} (hpart : part ∈ keySections)
    {key : Key} (hkey : key ∈ part.keys) (hchecked : key.checked = true)
    (h : WrongAlone doc part key) : Rejected doc := by
  obtain ⟨holder, hholder, ⟨node, hnode, hkind⟩, hnone⟩ := h
  cases hparse : parseConfigYaml doc with
  | error ms => exact ⟨ms, hparse⟩
  | ok cfg =>
    have hallowed := allowed_of_parse hparse part hpart holder hholder
    exact absurd (hallowed key hkey hchecked hnone node hnode) hkind

/-- **Which keys are checked.** For every key that the parser reads: a node of the wrong kind, where
    no preferred name of the field is present, always means a rejected document exactly when the key
    is checked; and with preferred names beside it exactly when, besides, the key has none. -/
theorem rejected_iff_checked (part : KeySection) (hpart : part ∈ keySections) (key : Key)
    (hkey : key ∈ part.keys) :
    ((∀ doc, WrongAlone doc part key → Rejected doc) ↔ key.checked = true) ∧
      ((∀ doc, WrongKind doc part key → Rejected doc) ↔
        key.checked = true ∧ key.preferred = []) := by
  have halone : (∀ doc, WrongAlone doc part key → Rejected doc) → key.checked = true := by
    intro hall
    by_contra hne
    obtain ⟨hwrong, hok⟩ := misfit_accepted part hpart key hkey (eq_false_of_ne_true hne)
    exact not_rejected_of_isOk hok (hall _ hwrong)
  refine ⟨⟨halone, fun hchecked doc => rejected_of_checked hpart hkey hchecked⟩, ?_, ?_⟩
  · intro hall
    refine ⟨halone fun doc hwrong => hall doc hwrong.wrongKind, ?_⟩
    cases hnames : key.preferred with
    | nil => rfl
    | cons name names =>
      obtain ⟨hwrong, hok⟩ := misfit_beside_accepted part hpart key hkey name (by rw [hnames]; rfl)
      exact absurd (hall _ hwrong) (not_rejected_of_isOk hok)
  · rintro ⟨hchecked, hnames⟩ doc ⟨holder, hholder, hwrong⟩
    refine rejected_of_checked hpart hkey hchecked ⟨holder, hholder, hwrong, ?_⟩
    rw [hnames]
    exact fun _ hname => absurd hname List.not_mem_nil

theorem rejected_iff_checked_difficulty :
    (∀ doc, WrongKind doc ⟨true, ["filters", "pow"], keysOfPow⟩ (.value "difficulty") →
        Rejected doc) ∧
      ¬ ∀ doc, WrongKind doc ⟨true, ["filters"], keysOfFilters⟩ (.part "rate_limit") →
        Rejected doc := by
  constructor
  · exact (rejected_iff_checked ⟨true, ["filters", "pow"], keysOfPow⟩ (by simp [keySections])
      (.value "difficulty") (by simp [keysOfPow])).2.mpr ⟨rfl, rfl⟩
  · intro hall
    have hchecked := (rejected_iff_checked ⟨true, ["filters"], keysOfFilters⟩
      (by simp [keySections]) (.part "rate_limit") (by simp [keysOfFilters])).2.mp hall
    cases hchecked.1

/-- A route with `rate_limit: 100` for `rate_limit: { qps: 100 }`. -/
def unlimitedDocument : YamlDocument where
  nodes :=
    [.mapping [(2, 3)],
      .scalar (ascii "routes"), .sequence [4],
      .mapping [(5, 6), (7, 8), (9, 10)],
      .scalar (ascii "domain"), .scalar (ascii "a"),
      .scalar (ascii "target"), .scalar (ascii "user_space"),
      .scalar (ascii "filters"), .mapping [(11, 12)],
      .scalar (ascii "rate_limit"), .scalar (ascii "100")]

set_option maxRecDepth 4000 in
/-- It is accepted, as a route without a limit. -/
theorem unlimited_accepted :
    WrongKind unlimitedDocument ⟨true, ["filters"], keysOfFilters⟩ (.part "rate_limit") ∧
      parseConfigYaml unlimitedDocument = .ok (spelledConfig "a") ∧
      (spelledConfig "a").routes.map (·.rateLimitQps) = [0] := by
  decide +kernel

end Zereh.Control
