/-
  The order of keys in a file.

  `Reordered doc doc'`: the documents have the same nodes, except that the pairs of a mapping may
  stand in another order. When no mapping has two keys of one text, each lookup finds the same pair
  on both sides. The nodes of a file are numbered as they come, so other numbers go with another
  order: `Renumbered doc doc'` says that nodes with corresponding numbers have corresponding parts.
  The parser sees neither.

  `codegen_options` and `default_kernel_port` are read before the routes wherever they stand, so that
  every route has the hash and the default port that they define.
-/
import Zereh.Control.Alike
import Zereh.Control.Provenance

namespace Zereh.Control

open Lib

/-- A node whose pairs, if it is a mapping, may stand in another order. -/
inductive SamePairs : YamlNode → YamlNode → Prop
  | scalar (value : List UInt8) : SamePairs (.scalar value) (.scalar value)
  | sequence (items : List Nat) : SamePairs (.sequence items) (.sequence items)
  | mapping {pairs pairs' : List (Nat × Nat)} (h : pairs.Perm pairs') :
      SamePairs (.mapping pairs) (.mapping pairs')

theorem SamePairs.refl (node : YamlNode) : SamePairs node node := by
  cases node with
  | scalar value => exact .scalar value
  | sequence items => exact .sequence items
  | mapping pairs => exact .mapping (.refl pairs)

/-- Any of the mappings of a document in another order. -/
def Reordered (doc doc' : YamlDocument) : Prop := List.Forall₂ SamePairs doc.nodes doc'.nodes

/-- Nodes of one kind and text, whose parts have corresponding numbers. -/
inductive SameParts (N : Nat → Nat → Prop) : YamlNode → YamlNode → Prop
  | scalar (value : List UInt8) : SameParts N (.scalar value) (.scalar value)
  | sequence {items items' : List Nat} (h : List.Forall₂ N items items') :
      SameParts N (.sequence items) (.sequence items')
  | mapping {pairs pairs' : List (Nat × Nat)}
      (h : List.Forall₂ (fun p q => N p.1 q.1 ∧ N p.2 q.2) pairs pairs') :
      SameParts N (.mapping pairs) (.mapping pairs')

/-- The nodes of a document under other numbers, from the root on. -/
def Renumbered (doc doc' : YamlDocument) : Prop :=
  ∃ N : Nat → Nat → Prop, N 1 1 ∧
    ∀ i j, N i j → Option.Rel (SameParts N) (doc.getNode i) (doc'.getNode j)

/-- The document of a file whose keys stand in another order: pairs change places, and then the
    nodes have other numbers. -/
def KeysMoved (doc doc' : YamlDocument) : Prop := ∃ mid, Reordered doc mid ∧ Renumbered mid doc'

/-- No two scalar keys of a mapping are equal. -/
def DistinctKeys (doc : YamlDocument) : Prop :=
  ∀ node ∈ doc.nodes, node.pairs.Pairwise fun p q =>
    (doc.getNode p.1).bind scalarBytes = none ∨
      (doc.getNode p.1).bind scalarBytes ≠ (doc.getNode q.1).bind scalarBytes

instance (doc : YamlDocument) : Decidable (DistinctKeys doc) :=
  inferInstanceAs (Decidable (∀ node ∈ doc.nodes, node.pairs.Pairwise fun p q =>
    (doc.getNode p.1).bind scalarBytes = none ∨
      (doc.getNode p.1).bind scalarBytes ≠ (doc.getNode q.1).bind scalarBytes))

/-! ## Lookup -/

/-- Where at most one element has a value the order does not matter. -/
theorem findSome?_perm {α β : Type} {f : α → Option β} {l l' : List α} (h : l.Perm l')
    (hone : l.Pairwise fun a b => f a = none ∨ f b = none) : l'.findSome? f = l.findSome? f := by
  induction h with
  | nil => rfl
  | cons a h ih =>
    rw [List.findSome?_cons, List.findSome?_cons, ih (List.pairwise_cons.mp hone).2]
  | swap a b l =>
    have hab := (List.pairwise_cons.mp hone).1 a List.mem_cons_self
    simp only [List.findSome?_cons]
    rcases hab with hb | ha
    · rw [hb]
    · rw [ha]
  | trans h₁ h₂ ih₁ ih₂ =>
    have hsymm : ∀ {a b : α}, f a = none ∨ f b = none → f b = none ∨ f a = none := Or.symm
    rw [ih₂ ((h₁.pairwise_iff hsymm).mp hone), ih₁ hone]

section Lookup

variable {doc doc' : YamlDocument}

theorem rel_getElem?_of_forall₂ {α β : Type} {R : α → β → Prop} {l : List α} {l' : List β}
    (h : List.Forall₂ R l l') (i : Nat) : Option.Rel R l[i]? l'[i]? := by
  induction h generalizing i with
  | nil => exact .none
  | cons hab _ ih =>
    cases i with
    | zero => exact .some hab
    | succ i => exact ih i

/-- A node of the document in the order of the other one. -/
def Moved (doc : YamlDocument) (node node' : YamlNode) : Prop :=
  node ∈ doc.nodes ∧ SamePairs node node'

theorem Reordered.rel_nodes (h : Reordered doc doc') (i : Nat) :
    Option.Rel (Moved doc) doc.nodes[i]? doc'.nodes[i]? := by
  have hrel := rel_getElem?_of_forall₂ h i
  have hmem : ∀ node, doc.nodes[i]? = some node → node ∈ doc.nodes :=
    fun _ => List.mem_of_getElem?
  generalize doc.nodes[i]? = node at hrel hmem ⊢
  generalize doc'.nodes[i]? = node' at hrel ⊢
  cases hrel with
  | none => exact .none
  | some hsame => exact .some ⟨hmem _ rfl, hsame⟩

theorem Reordered.getNode (h : Reordered doc doc') (i : Nat) :
    Option.Rel (Moved doc) (doc.getNode i) (doc'.getNode i) := by
  unfold YamlDocument.getNode
  split
  · exact .none
  · exact h.rel_nodes (i - 1)

/-- The values that two pairs have for a key are related when the nodes of the pairs are. -/
theorem rel_pairValue {R : YamlNode → YamlNode → Prop} (hscalar : ∀ node node', R node node' →
      scalarBytes node' = scalarBytes node) (key : String) {p q : Nat × Nat}
    (hkey : Option.Rel R (doc.getNode p.1) (doc'.getNode q.1))
    (hvalue : Option.Rel R (doc.getNode p.2) (doc'.getNode q.2)) :
    Option.Rel R (pairValue doc key p) (pairValue doc' key q) := by
  unfold pairValue
  generalize doc.getNode p.1 = k at hkey ⊢
  generalize doc'.getNode q.1 = k' at hkey ⊢
  generalize doc.getNode p.2 = v at hvalue ⊢
  generalize doc'.getNode q.2 = v' at hvalue ⊢
  cases hkey with
  | none => exact .none
  | @some k k' hk =>
    have htext := hscalar k k' hk
    cases hvalue with
    | none => cases k <;> cases k' <;> exact .none
    | some hv =>
      cases k with
      | scalar value =>
        cases k' with
        | scalar value' =>
          cases htext
          dsimp only
          split
          · exact .some hv
          · exact .none
        | sequence items => cases htext
        | mapping pairs => cases htext
      | sequence items =>
        cases k' with
        | scalar value => cases htext
        | sequence items' => exact .none
        | mapping pairs => exact .none
      | mapping pairs =>
        cases k' with
        | scalar value => cases htext
        | sequence items => exact .none
        | mapping pairs' => exact .none

theorem SamePairs.scalarBytes {node node' : YamlNode} (h : SamePairs node node') :
    scalarBytes node' = scalarBytes node := by
  cases h <;> rfl

theorem SameParts.scalarBytes {N : Nat → Nat → Prop} {node node' : YamlNode}
    (h : SameParts N node node') : scalarBytes node' = scalarBytes node := by
  cases h <;> rfl

theorem Reordered.pairValue (h : Reordered doc doc') (key : String) (pair : Nat × Nat) :
    Option.Rel (Moved doc) (pairValue doc key pair) (pairValue doc' key pair) :=
  rel_pairValue (fun _ _ hmoved => hmoved.2.scalarBytes) key (h.getNode pair.1) (h.getNode pair.2)

theorem pairValue_eq_some {key : String} {pair : Nat × Nat} {node : YamlNode}
    (h : pairValue doc key pair = some node) : doc.getNode pair.1 = some (.scalar (ascii key)) := by
  unfold pairValue at h
  split at h
  · rename_i value _ hkey _
    split at h
    · rename_i heq
      rw [hkey, heq]
    · cases h
  · cases h

/-- At most one pair has a value for a key. -/
theorem DistinctKeys.pairwise (hdistinct : DistinctKeys doc) {pairs : List (Nat × Nat)}
    (hmem : YamlNode.mapping pairs ∈ doc.nodes) (key : String) :
    pairs.Pairwise fun p q => pairValue doc key p = none ∨ pairValue doc key q = none := by
  have hpairs : pairs.Pairwise _ := hdistinct _ hmem
  refine hpairs.imp fun {p q} hpq => ?_
  cases hp : pairValue doc key p with
  | none => exact .inl rfl
  | some node =>
    cases hq : pairValue doc key q with
    | none => exact .inr rfl
    | some node' =>
      -- both pairs have the key
      rw [pairValue_eq_some hp, pairValue_eq_some hq] at hpq
      rcases hpq with hnone | hne
      · cases hnone
      · exact absurd rfl hne

/-- Nodes in another order have corresponding parts. -/
theorem Reordered.alike (h : Reordered doc doc') (hdistinct : DistinctKeys doc) :
    Alike (fun _ => True) doc doc' (Moved doc) := by
  rintro node node' ⟨hmem, hsame⟩
  cases hsame with
  | scalar value => exact .scalar value
  | sequence items => exact .sequence items items (List.forall₂_same.mpr fun i _ => h.getNode i)
  | mapping hperm =>
    refine .mapping _ _ fun key _ => ?_
    rw [mapGet_mapping, mapGet_mapping, ← findSome?_perm hperm (hdistinct.pairwise hmem key)]
    exact rel_findSome _ fun pair _ => h.pairValue key pair

/-- Nodes under other numbers have corresponding parts. -/
theorem alike_of_sameParts {N : Nat → Nat → Prop}
    (h : ∀ i j, N i j → Option.Rel (SameParts N) (doc.getNode i) (doc'.getNode j)) :
    Alike (fun _ => True) doc doc' (SameParts N) := by
  intro node node' hsame
  cases hsame with
  | scalar value => exact .scalar value
  | sequence hitems => exact .sequence _ _ (hitems.imp h)
  | mapping hpairs =>
    refine .mapping _ _ fun key _ => rel_findSome₂ (hpairs.imp fun p q hpq => ?_)
    exact rel_pairValue (fun _ _ => SameParts.scalarBytes) key (h _ _ hpq.1) (h _ _ hpq.2)

end Lookup

/-! ## The parser on both sides -/

section Parser

variable {doc doc' : YamlDocument} {R : YamlNode → YamlNode → Prop} {node node' : YamlNode}
  (h : Alike (fun _ => True) doc doc' R)

include h

theorem Alike.get (hnode : R node node') (key : String) :
    Option.Rel R (Control.mapGet doc node key) (Control.mapGet doc' node' key) :=
  h.mapGet hnode trivial

theorem Alike.get2 (hnode : R node node') (key key' : String) :
    Option.Rel R (Control.mapGet2 doc node key key') (Control.mapGet2 doc' node' key key') :=
  h.mapGet2 hnode trivial trivial

theorem Alike.parseRouteFlat (hnode : R node node') :
    parseRouteFlat doc' node' = parseRouteFlat doc node := by
  refine chain_congr ?_ <| chain_congr ?_ <| chain_congr ?_ <| chain_congr ?_ <| chain_congr ?_ <|
    chain_congr ?_ <| chain_congr ?_ <| chain_congr ?_ <| chain_congr ?_ <| chain_congr ?_ <|
    chain_congr ?_ ?_
  · exact h.field (h.get2 hnode _ _) parseU32_byScalar
  · exact h.field (h.get2 hnode _ _) parseU16_byScalar
  · exact h.field (h.get2 hnode _ _) parseU32_byScalar
  · exact h.textField (h.get2 hnode _ _)
  · exact h.textField (h.get hnode _)
  · exact h.textField (h.get hnode _)
  · exact h.field (h.get hnode _) parseU8_byScalar
  · exact h.field (h.get hnode _) parseU8_byScalar
  · exact h.field (h.get2 hnode _ _) parseU16_byScalar
  · exact h.field (h.get2 hnode _ _) parseU16_byScalar
  · exact h.field (h.get hnode _) parseU8_byScalar
  · exact field_congr (h.get hnode _) fun _ _ => h.parseRrtypeMask

theorem Alike.parseQnameRules (hnode : R node node') :
    parseQnameRules doc' node' = parseQnameRules doc node := by
  refine chain_congr ?_ <| chain_congr ?_ <| chain_congr ?_ <| chain_congr ?_ <| chain_congr ?_ ?_
  · exact h.textField (h.get hnode _)
  · exact h.textField (h.get hnode _)
  · exact h.field (h.get hnode _) parseU8_byScalar
  · exact h.field (h.get hnode _) parseU8_byScalar
  · exact h.field (h.get hnode _) parseU16_byScalar
  · exact h.field (h.get hnode _) parseU16_byScalar

theorem Alike.parseRouteFilters (hnode : R node node') :
    parseRouteFilters doc' node' = parseRouteFilters doc node := by
  have hall : ∀ key ∈ routeKeys, True := fun _ _ => trivial
  have hchain := chain_congr (h.subsection (h.get hnode "pow") fun _ _ => h.parsePow hall) <|
    chain_congr (h.subsection (h.get hnode "qname_rules") fun _ _ => h.parseQnameRules) <|
    chain_congr (h.subsection (h.get hnode "rate_limit") fun _ _ => h.parseRateLimit hall) <|
    chain_congr (stepField_congr (h.get hnode "dns_types") fun _ _ => h.parseRouteDnsTypes hall) <|
    h.subsection (h.get hnode "bloom_filter") fun _ _ => h.parseBloomFilter hall
  funext d
  cases h _ _ hnode with
  | scalar value => rfl
  | sequence items items' hitems => rfl
  | mapping pairs pairs' hget => exact congrFun hchain d

theorem Alike.parseRoute {v v' : Option YamlNode} (hv : Option.Rel R v v') (cfg : Config) :
    parseRoute doc' v' cfg = parseRoute doc v cfg := by
  cases hv with
  | none => rfl
  | some hnode =>
    have htarget := h.parseRouteTarget (fun _ _ => trivial) hnode cfg
    have hflat := h.parseRouteFlat hnode
    have hfilters := stepField_congr (h.get hnode "filters") fun _ _ => h.parseRouteFilters
    cases h _ _ hnode with
    | scalar value => rfl
    | sequence items items' hitems => rfl
    | mapping pairs pairs' hget => simp only [Control.parseRoute, htarget, hflat, hfilters]

theorem Alike.parseGlobalKeys (hnode : R node node') :
    parseGlobalKeys doc' node' = parseGlobalKeys doc node := by
  refine chain_congr ?_ <| chain_congr ?_ ?_
  · exact h.textField (h.get hnode _)
  · exact h.field (h.get hnode _) parseWord_byScalar
  · exact h.field (h.get hnode _) parseWord_byScalar

theorem Alike.parseFilterKeys (hnode : R node node') (key : String) :
    parseFilterKeys doc' key node' = parseFilterKeys doc key node := by
  refine chain_congr ?_ <| chain_congr ?_ <| chain_congr ?_ ?_
  · exact field_congr (h.get hnode _) fun _ _ => h.parseBlacklist trivial
  · exact h.field (h.get hnode _) parseU32_byScalar
  · exact field_congr (h.get hnode _) fun _ _ => h.parseAllowedOpcodes
  · exact h.field (h.get hnode _) parseWord_byScalar

theorem Alike.parseHead (hnode : R node node') : parseHead doc' node' = parseHead doc node := by
  have hglobal : parseGlobalSection doc' node' = parseGlobalSection doc node :=
    chain_congr (h.subsection (h.get hnode _) fun _ _ => h.parseGlobalKeys)
      (h.parseGlobalKeys hnode)
  have hfilters : parseGlobalFilters doc' node' = parseGlobalFilters doc node :=
    chain_congr (h.subsection (h.get hnode _) fun _ _ hsection => h.parseFilterKeys hsection _)
      (h.parseFilterKeys hnode _)
  have hpaths := h.parsePaths (fun _ _ => trivial) hnode
  have hport := h.parseKernelPort (fun _ _ => trivial) hnode
  have hcodegen := h.parseCodegenOptions (fun _ _ => trivial) hnode
  simp only [Control.parseHead, hglobal, hfilters, hpaths, hport, hcodegen]

theorem Alike.parseConfigYaml (hroot : Option.Rel R doc.getRootNode doc'.getRootNode) :
    parseConfigYaml doc' = parseConfigYaml doc := by
  have hroutes : ∀ node node', R node node' → ∀ cfg,
      Control.parseRoutes doc' node' cfg = Control.parseRoutes doc node cfg := by
    intro node node' hnode cfg
    exact h.parseRoutes hnode fun _ _ _ hitems => hitems.imp fun _ _ hitem => h.parseRoute hitem cfg
  rcases hr : doc.getRootNode with _ | node <;> rcases hr' : doc'.getRootNode with _ | node' <;>
    rw [hr, hr'] at hroot
  · simp only [Control.parseConfigYaml, hr, hr']
  · cases hroot
  · cases hroot
  · have hnode : R node node' := Option.rel_some_some.mp hroot
    cases h _ _ hnode with
    | scalar value => simp only [Control.parseConfigYaml, hr, hr']
    | sequence items items' hitems => simp only [Control.parseConfigYaml, hr, hr']
    | mapping pairs pairs' hget =>
      exact parseConfigYaml_congr hr hr' (h.parseHead hnode) (h.get hnode "routes")
        fun _ _ _ hsection => hroutes _ _ hsection

end Parser

theorem Reordered.parseConfigYaml {doc doc' : YamlDocument} (h : Reordered doc doc')
    (hdistinct : DistinctKeys doc) : parseConfigYaml doc' = parseConfigYaml doc := by
  refine (h.alike hdistinct).parseConfigYaml ?_
  unfold YamlDocument.getRootNode
  rw [List.head?_eq_getElem?, List.head?_eq_getElem?]
  exact h.rel_nodes 0

/-- The parser does not see the numbers of nodes. -/
theorem Renumbered.parseConfigYaml {doc doc' : YamlDocument} (h : Renumbered doc doc') :
    parseConfigYaml doc' = parseConfigYaml doc := by
  obtain ⟨N, hroot, hparts⟩ := h
  refine (alike_of_sameParts hparts).parseConfigYaml ?_
  unfold YamlDocument.getRootNode
  rw [List.head?_eq_getElem?, List.head?_eq_getElem?]
  exact hparts 1 1 hroot

/-! ## Options and routes -/

section Options

variable {doc : YamlDocument} {root : YamlNode}

/-- The hash algorithm with its name, and the default port. -/
def routeOptions (cfg : Config) : (HashAlgorithm × CStr) × UInt16 :=
  ((cfg.hashAlgo, cfg.hashAlgorithm), cfg.defaultKernelPort)

theorem parseGlobalSection_options : Leaves routeOptions (parseGlobalSection doc root) := by
  have hkeys : ∀ node, Leaves routeOptions (parseGlobalKeys doc node) := by
    intro node
    refine .comp ?_ <| .comp ?_ ?_
    · exact textField_leaves fun _ _ => rfl
    · exact field_leaves fun _ _ => rfl
    · exact field_leaves fun _ _ => rfl
  exact .comp (subsection_leaves hkeys) (hkeys root)

theorem parseGlobalFilters_options : Leaves routeOptions (parseGlobalFilters doc root) := by
  have hkeys : ∀ key node, Leaves routeOptions (parseFilterKeys doc key node) := by
    intro key node
    refine .comp ?_ <| .comp ?_ <| .comp ?_ ?_
    all_goals exact field_leaves fun _ _ => rfl
  exact .comp (subsection_leaves (hkeys _)) (hkeys _ root)

theorem parsePaths_options : Leaves routeOptions (parsePaths doc root) := by
  refine .comp ?_ <| .comp ?_ <| .comp ?_ ?_
  all_goals exact textField_leaves fun _ _ => rfl

/-- What the keys of `codegen_options` do to the hash and the port. -/
def CodegenMove (get : String → Option YamlNode)
    (x y : (HashAlgorithm × CStr) × UInt16) : Prop :=
  ∃ a, Reads (get "hash_algorithm") parseHashAlgorithm x.1 a ∧ y = (a, x.2)

theorem parseCodegenKeys_options :
    Moves routeOptions (CodegenMove (mapGet doc root)) (parseCodegenKeys doc root) := by
  refine Moves.then_leaves ?_ (.comp ?_ ?_)
  · exact field_moves Prod.fst (fun a x => (a, x.2)) (fun _ _ => rfl) fun _ => rfl
  · exact field_leaves fun _ _ => rfl
  · exact field_leaves fun _ _ => rfl

theorem parseHead_options {head : Config} (h : parseHead doc root configInitDefaults = .ok head) :
    Reads (nestedGet doc root "codegen_options" "hash_algorithm") parseHashAlgorithm
        (configInitDefaults.hashAlgo, configInitDefaults.hashAlgorithm)
        (head.hashAlgo, head.hashAlgorithm) ∧
      Reads (mapGet doc root "default_kernel_port") parseU16 configInitDefaults.defaultKernelPort
        head.defaultKernelPort := by
  have hport : Moves routeOptions _ fun cfg =>
      orSay .invalidKernelPort (parseKernelPort doc root cfg) :=
    orSay_moves (field_moves Prod.snd (fun n x => (x.1, n)) (fun _ _ => rfl) fun _ => rfl)
  have hcodegen : Moves routeOptions (CodegenMove (nestedGet doc root "codegen_options")) fun cfg =>
      orSay .invalidCodegenOptions (parseCodegenOptions doc root cfg) :=
    orSay_moves (subsection_moves (fun _ => parseCodegenKeys_options) fun _ => ⟨_, rfl, rfl⟩)
  obtain ⟨_, ⟨port, hreads, rfl⟩, algo, hreads', heq⟩ :=
    (orSay_leaves parseGlobalSection_options).then
      ((orSay_leaves parseGlobalFilters_options).then
        (parsePaths_options.then (hport.comp hcodegen))) _ _ h
  have halgo : (head.hashAlgo, head.hashAlgorithm) = algo := congrArg Prod.fst heq
  have hdefault : head.defaultKernelPort = port := congrArg Prod.snd heq
  rw [halgo, hdefault]
  exact ⟨hreads', hreads⟩

end Options

/-- The hash and the default port of the options reach every route. -/
structure OptionsReach (doc : YamlDocument) (root : YamlNode) (items : List Nat) (cfg : Config) :
    Prop where
  hash : Reads (nestedGet doc root "codegen_options" "hash_algorithm") parseHashAlgorithm
    (configInitDefaults.hashAlgo, configInitDefaults.hashAlgorithm)
    (cfg.hashAlgo, cfg.hashAlgorithm)
  port : Reads (mapGet doc root "default_kernel_port") parseU16
    configInitDefaults.defaultKernelPort cfg.defaultKernelPort
  routes : List.Forall₂ (fun item r => r.hash = hashDomain r.domain cfg.hashAlgo ∧
    ∀ node, doc.getNode item = some node →
      mapGet2 doc node "forward_port" "kernel_port" = none → r.kernelPort = cfg.defaultKernelPort)
    items cfg.routes

theorem optionsReach_of_parse {doc : YamlDocument} {cfg : Config}
    (h : parseConfigYaml doc = .ok cfg) : ∃ root items, doc.getRootNode = some root ∧
      mapGet doc root "routes" = some (.sequence items) ∧ OptionsReach doc root items cfg := by
  obtain ⟨pairs, head, items, routes, hroot, hhead, hnode, hloop, -, rfl⟩ := parseConfigYaml_cases h
  obtain ⟨hhash, hport⟩ := parseHead_options hhead
  obtain ⟨parsed, rfl, hparsed⟩ := routeLoop_forall₂ items hloop
  refine ⟨_, items, hroot, hnode, hhash, hport, hparsed.imp fun item r hr => ?_⟩
  refine ⟨(parseRoute_accepted hr).texts.hash_eq, fun node hitem hnone => ?_⟩
  obtain ⟨pairs', hpairs, htrace⟩ := parseRoute_trace hr
  rw [hitem] at hpairs
  have hkernel := htrace.kernelPort
  rw [← Option.some.inj hpairs, hnone] at hkernel
  exact hkernel

/-- **The order of keys does not matter.** For every document without repeated keys, any order of the
    pairs of its mappings gives the same result, messages included; and an accepted configuration has
    on every route the hash that `codegen_options` selects and, where the route names no port, the
    default port, wherever these keys stand. -/
theorem keyOrder_irrelevant (doc doc' : YamlDocument) (hdistinct : DistinctKeys doc)
    (h : KeysMoved doc doc') :
    parseConfigYaml doc' = parseConfigYaml doc ∧
      ∀ cfg, parseConfigYaml doc' = .ok cfg → ∃ root items, doc'.getRootNode = some root ∧
        mapGet doc' root "routes" = some (.sequence items) ∧ OptionsReach doc' root items cfg := by
  obtain ⟨mid, hreordered, hrenumbered⟩ := h
  refine ⟨hrenumbered.parseConfigYaml.trans ?_, fun _ => optionsReach_of_parse⟩
  exact hreordered.parseConfigYaml hdistinct

/-- A file with the routes before the port and the hash, its nodes in the order of the file. -/
def routesFirst : YamlDocument where
  nodes :=
    [.mapping [(2, 3), (9, 10), (11, 12)],
      .scalar (ascii "routes"), .sequence [4],
      .mapping [(5, 6), (7, 8)],
      .scalar (ascii "domain"), .scalar (ascii "a"),
      .scalar (ascii "target"), .scalar (ascii "kernel_space"),
      .scalar (ascii "default_kernel_port"), .scalar (ascii "5400"),
      .scalar (ascii "codegen_options"), .mapping [(13, 14)],
      .scalar (ascii "hash_algorithm"), .scalar (ascii "siphash")]

/-- The same with the routes last, and the target of the route before its domain. -/
def routesLast : YamlDocument where
  nodes :=
    [.mapping [(2, 3), (6, 7), (8, 9)],
      .scalar (ascii "codegen_options"), .mapping [(4, 5)],
      .scalar (ascii "hash_algorithm"), .scalar (ascii "siphash"),
      .scalar (ascii "default_kernel_port"), .scalar (ascii "5400"),
      .scalar (ascii "routes"), .sequence [10],
      .mapping [(11, 12), (13, 14)],
      .scalar (ascii "target"), .scalar (ascii "kernel_space"),
      .scalar (ascii "domain"), .scalar (ascii "a")]

/-- The numbers in the first file and those in the second. -/
def movedNumbers : List (Nat × Nat) :=
  [(1, 1), (11, 2), (12, 3), (13, 4), (14, 5), (9, 6), (10, 7), (2, 8), (3, 9), (4, 10), (7, 11),
    (8, 12), (5, 13), (6, 14)]

/-- The nodes of the first file with their numbers, the keys in the order of the second. -/
def routesMoved : YamlDocument where
  nodes := [.mapping [(11, 12), (9, 10), (2, 3)]] ++ (routesFirst.nodes.drop 1).take 2 ++
    [.mapping [(7, 8), (5, 6)]] ++ routesFirst.nodes.drop 4

theorem keysMoved_routesLast : KeysMoved routesFirst routesLast := by
  refine ⟨routesMoved, ?_, fun i j => (i, j) ∈ movedNumbers, by decide, fun i j h => ?_⟩
  · exact .cons (.mapping (by decide)) (.cons (.refl _) (.cons (.refl _) (.cons (.mapping (by decide))
      (List.forall₂_same.mpr fun node _ => .refl node))))
  · have hparts : ∀ ij ∈ movedNumbers, Option.Rel (SameParts fun i j => (i, j) ∈ movedNumbers)
        (routesMoved.getNode ij.1) (routesLast.getNode ij.2) := by
      unfold movedNumbers
      simp only [List.forall_mem_cons, List.not_mem_nil, false_imp_iff, implies_true, and_true]
      refine ⟨?_, ?_, ?_, ?_, ?_, ?_, ?_, ?_, ?_, ?_, ?_, ?_, ?_, ?_⟩
      all_goals first
        | exact .some (.scalar _)
        | exact .some (.sequence (by decide))
        | exact .some (.mapping (by decide))
    exact hparts (i, j) h

/-- The configuration of both. -/
def orderedConfig : Config :=
  { configInitDefaults with
    defaultKernelPort := 5400
    hashAlgo := .siphash
    hashAlgorithm := CStr.lit "SipHash"
    routes := [{ sampleRoute 0 with
      hash := hashDomain (CStr.lit "a") .siphash
      target := .kernelSpace
      kernelPort := 5400
      bloomEnabled := false
      bloomSize := 0
      bloomHashFunctions := 0
      bloomSeeds := [] }] }

set_option maxRecDepth 4000 in
theorem parse_routesFirst : parseConfigYaml routesFirst = .ok orderedConfig := by
  decide +kernel

theorem keyOrder_irrelevant_sample : parseConfigYaml routesLast = .ok orderedConfig := by
  rw [← parse_routesFirst]
  exact (keyOrder_irrelevant routesFirst routesLast (by decide) keysMoved_routesLast).1

end Zereh.Control
