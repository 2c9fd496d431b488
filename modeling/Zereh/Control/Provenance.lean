/-
  Where the values of a configuration come from.

  Each key is written by one step, or by two where it has a nested and a flat place, and no other
  step touches it. `Reads v parse x y` is such a write: the value `x` stays when the key is absent,
  else `y` is what the node parses to. The walk over the steps before the routes gives the interface,
  the blacklist and the opcode mask of an accepted document (`traced_of_parse`).
-/
import Mathlib.Data.List.Forall2
import Zereh.Control.Accepted

namespace Zereh.Control

open Lib

/-- The bytes of a scalar, zero bytes included. -/
def scalarBytes : YamlNode → Option (List UInt8)
  | .scalar value => some value
  | _ => none

/-! ## Steps -/

section Steps

variable {σ α β : Type} {π : σ → β} {R : β → β → Prop} {v : Option YamlNode}

/-- The value after a step that reads an optional node. -/
def Reads (v : Option YamlNode) (parse : YamlNode → Parsed β) (x y : β) : Prop :=
  match v with
  | none => y = x
  | some node => parse node = .ok y

/-- The text after a step that copies an optional scalar. -/
def textOr (n : Nat) (v : Option YamlNode) (x : CStr) : CStr :=
  match v.bind scalar with
  | none => x
  | some text => text.clip n

theorem field_leaves {parse : YamlNode → Parsed α} {set : α → σ → σ}
    (h : ∀ a s, π (set a s) = π s) : Leaves π (field v parse set) := by
  intro s s' hs
  cases v with
  | none =>
    cases hs
    rfl
  | some node =>
    obtain ⟨a, -, hs⟩ := bind_eq_ok hs
    cases hs
    exact h a s

theorem textField_leaves {n : Nat} {set : CStr → σ → σ} (h : ∀ a s, π (set a s) = π s) :
    Leaves π (textField n v set) := by
  intro s s' hs
  unfold textField at hs
  split at hs
  · cases hs
    rfl
  · cases hs
    exact h _ s

theorem subsection_leaves {body : YamlNode → σ → Parsed σ} (h : ∀ node, Leaves π (body node)) :
    Leaves π (subsection v body) := by
  intro s s' hs
  unfold subsection at hs
  split at hs
  · exact h _ s s' hs
  · cases hs
    rfl

theorem stepField_leaves {step : YamlNode → σ → Parsed σ} (h : ∀ node, Leaves π (step node)) :
    Leaves π (stepField v step) := by
  intro s s' hs
  cases v with
  | none =>
    cases hs
    rfl
  | some node => exact h node s s' hs

theorem orSay_leaves {m : Message} {f : σ → Parsed σ} (h : Leaves π f) :
    Leaves π fun s => orSay m (f s) := fun s s' hs => h s s' (orSay_eq_ok hs)

theorem orSay_moves {m : Message} {f : σ → Parsed σ} (h : Moves π R f) :
    Moves π R fun s => orSay m (f s) := fun s s' hs => h s s' (orSay_eq_ok hs)

/-- A field moves as its node parses, and the rest of the part stays. -/
theorem field_moves {parse : YamlNode → Parsed α} {set : α → σ → σ} (get : β → α) (put : α → β → β)
    (hput : ∀ a s, π (set a s) = put a (π s)) (hget : ∀ b, put (get b) b = b) :
    Moves π (fun x y => ∃ a, Reads v parse (get x) a ∧ y = put a x) (field v parse set) := by
  intro s s' hs
  cases v with
  | none =>
    cases hs
    exact ⟨get (π s), rfl, (hget _).symm⟩
  | some node =>
    obtain ⟨a, ha, hs⟩ := bind_eq_ok hs
    cases hs
    exact ⟨a, ha, hput a s⟩

/-- A field that is the whole part moves as its node parses. -/
theorem field_reads {parse : YamlNode → Parsed β} {set : β → σ → σ} (hset : ∀ b s, π (set b s) = b) :
    Moves π (Reads v parse) (field v parse set) := by
  intro s s' hs
  obtain ⟨b, hreads, heq⟩ := field_moves id (fun b _ => b) hset (fun _ => rfl) s s' hs
  rwa [heq]

theorem textField_moves {n : Nat} {set : CStr → σ → σ} (get : β → CStr) (put : CStr → β → β)
    (hput : ∀ a s, π (set a s) = put a (π s)) (hget : ∀ b, put (get b) b = b) :
    Moves π (fun x y => y = put (textOr n v (get x)) x) (textField n v set) := by
  intro s s' hs
  unfold textField at hs
  unfold textOr
  cases hv : v.bind scalar with
  | none =>
    rw [hv] at hs
    cases hs
    exact (hget _).symm
  | some text =>
    rw [hv] at hs
    cases hs
    exact hput _ s

/-- The keys of a section. -/
def nestedGet (doc : YamlDocument) (root : YamlNode) (name key : String) : Option YamlNode :=
  (mapGet doc root name).bind (mapGet doc · key)

/-- A section moves as its keys do; an absent section, or a node that is no mapping, has no keys. -/
theorem subsection_moves {doc : YamlDocument} {root : YamlNode} {name : String}
    {R : (String → Option YamlNode) → β → β → Prop} {body : YamlNode → σ → Parsed σ}
    (h : ∀ node, Moves π (R (mapGet doc node)) (body node)) (hnone : ∀ x, R (fun _ => none) x x) :
    Moves π (R (nestedGet doc root name)) (subsection (mapGet doc root name) body) := by
  intro s s' hs
  unfold nestedGet
  match hv : mapGet doc root name with
  | none =>
    rw [hv] at hs
    cases hs
    exact hnone _
  | some (.scalar value) =>
    rw [hv] at hs
    cases hs
    exact hnone _
  | some (.sequence items) =>
    rw [hv] at hs
    cases hs
    exact hnone _
  | some (.mapping pairs) =>
    rw [hv] at hs
    exact h _ s s' hs

theorem stepField_moves {doc : YamlDocument} {root : YamlNode} {name : String}
    {R : (String → Option YamlNode) → β → β → Prop} {step : YamlNode → σ → Parsed σ}
    (h : ∀ node, Moves π (R (mapGet doc node)) (step node)) (hnone : ∀ x, R (fun _ => none) x x) :
    Moves π (R (nestedGet doc root name)) (stepField (mapGet doc root name) step) := by
  intro s s' hs
  unfold nestedGet
  cases hv : mapGet doc root name with
  | none =>
    rw [hv] at hs
    cases hs
    exact hnone _
  | some node =>
    rw [hv] at hs
    exact h _ s s' hs

end Steps

/-! ## Lists -/

/-- The networks that the items of a sequence write. -/
def listedCidrs (doc : YamlDocument) (items : List Nat) : List CStr :=
  items.filterMap fun item => (doc.getNode item).bind (entryCidr doc)

theorem blacklistLoop_eq {doc : YamlDocument} (items : List Nat) : ∀ {list list' : List CStr},
    blacklistLoop doc items list = .ok list' →
      list' = list ++ (listedCidrs doc items).map (·.clip (maxCidrLen - 1)) := by
  induction items with
  | nil =>
    intro list list' h
    cases h
    simp [listedCidrs]
  | cons item items ih =>
    intro list list' h
    unfold blacklistLoop at h
    split at h
    · cases h
    · unfold listedCidrs
      split at h
      · rename_i hnode
        rw [List.filterMap_cons_none (by rw [hnode]; rfl)]
        exact ih h
      · rename_i entry hnode
        split at h
        · cases h
        · rename_i cidr hcidr
          split at h
          · cases h
          · rw [List.filterMap_cons_some (by rw [hnode]; exact hcidr), List.map_cons, ih h,
              List.append_assoc]
            rfl

theorem parseBlacklist_eq {doc : YamlDocument} {node : YamlNode} {list : List CStr}
    (h : parseBlacklist doc node = .ok list) : ∃ items, node = .sequence items ∧
      list = (listedCidrs doc items).map (·.clip (maxCidrLen - 1)) := by
  unfold parseBlacklist at h
  split at h
  · exact ⟨_, rfl, blacklistLoop_eq _ h⟩
  · cases h

/-! ## Before the routes -/

/-- The parts of a configuration that are traced back to the document. -/
structure Traced where
  interface : CStr
  blacklist : List CStr
  allowedOpcodeMask : UInt16

def traced (cfg : Config) : Traced := ⟨cfg.interface, cfg.blacklist, cfg.allowedOpcodeMask⟩

def Traced.setInterface (s : CStr) (t : Traced) : Traced := { t with interface := s }
def Traced.setBlacklist (l : List CStr) (t : Traced) : Traced := { t with blacklist := l }
def Traced.setOpcodeMask (m : UInt16) (t : Traced) : Traced := { t with allowedOpcodeMask := m }

section Head

variable {doc : YamlDocument} {root : YamlNode}

/-- What the keys of the global section do to it. -/
def GlobalKeysMove (get : String → Option YamlNode) (t t' : Traced) : Prop :=
  t' = t.setInterface (textOr (ifnamsiz - 1) (get "interface") t.interface)

theorem parseGlobalKeys_moves :
    Moves traced (GlobalKeysMove (mapGet doc root)) (parseGlobalKeys doc root) := by
  unfold parseGlobalKeys
  refine .then_leaves ?_ (.comp ?_ ?_)
  · exact textField_moves Traced.interface (fun s t => t.setInterface s) (fun _ _ => rfl) fun _ => rfl
  · exact field_leaves fun _ _ => rfl
  · exact field_leaves fun _ _ => rfl

/-- What the keys of the global filters do to a traced configuration. -/
structure FilterKeysMove (doc : YamlDocument) (blacklistKey : String)
    (get : String → Option YamlNode) (t t' : Traced) : Prop where
  interface : t'.interface = t.interface
  blacklist : Reads (get blacklistKey) (parseBlacklist doc) t.blacklist t'.blacklist
  opcodes : Reads (get "allowed_opcodes") (parseAllowedOpcodes doc) t.allowedOpcodeMask
    t'.allowedOpcodeMask

theorem parseFilterKeys_moves {key : String} :
    Moves traced (FilterKeysMove doc key (mapGet doc root)) (parseFilterKeys doc key root) := by
  have hlist : Moves traced _ (field (mapGet doc root key) (parseBlacklist doc) setBlacklist) :=
    field_moves Traced.blacklist (fun l t => t.setBlacklist l) (fun _ _ => rfl) fun _ => rfl
  have hmask : Moves traced _ (field (mapGet doc root "allowed_opcodes")
      (parseAllowedOpcodes doc) setOpcodeMask) :=
    field_moves Traced.allowedOpcodeMask (fun m t => t.setOpcodeMask m) (fun _ _ => rfl) fun _ => rfl
  have hsize : Leaves traced (field (mapGet doc root "max_packet_size") parseU32
      setMaxPacketSize) := field_leaves fun _ _ => rfl
  have hdrop : Leaves traced (field (mapGet doc root "drop_truncated") parseBool
      setDropTruncated) := field_leaves fun _ _ => rfl
  intro s s' hs
  obtain ⟨t, ⟨list, hreads, rfl⟩, mask, hreads', heq⟩ :=
    hlist.comp (hsize.then (hmask.then_leaves hdrop)) s s' hs
  rw [heq]
  exact ⟨rfl, hreads, hreads'⟩

theorem parsePaths_leaves : Leaves traced (parsePaths doc root) := by
  unfold parsePaths
  refine .comp ?_ <| .comp ?_ <| .comp ?_ ?_
  all_goals exact textField_leaves fun _ _ => rfl

theorem parseCodegenKeys_leaves : Leaves traced (parseCodegenKeys doc root) := by
  unfold parseCodegenKeys
  refine .comp ?_ <| .comp ?_ ?_
  all_goals exact field_leaves fun _ _ => rfl

/-- Where an accepted document has the interface, the blacklist and the opcodes. -/
structure Trace (doc : YamlDocument) (root : YamlNode) (t : Traced) : Prop where
  interface : t.interface = textOr (ifnamsiz - 1) (mapGet doc root "interface")
    (textOr (ifnamsiz - 1) (nestedGet doc root "global" "interface") configInitDefaults.interface)
  blacklist : ∃ nested,
    Reads (nestedGet doc root "global_filters" "ip_blacklist") (parseBlacklist doc) [] nested ∧
    Reads (mapGet doc root "blacklist") (parseBlacklist doc) nested t.blacklist
  opcodes : ∃ nested,
    Reads (nestedGet doc root "global_filters" "allowed_opcodes") (parseAllowedOpcodes doc)
      configInitDefaults.allowedOpcodeMask nested ∧
    Reads (mapGet doc root "allowed_opcodes") (parseAllowedOpcodes doc) nested t.allowedOpcodeMask

theorem parseHead_trace {head : Config} (h : parseHead doc root configInitDefaults = .ok head) :
    Trace doc root (traced head) := by
  have hglobal : Moves traced _ fun cfg =>
      orSay .invalidGlobal (parseGlobalSection doc root cfg) :=
    orSay_moves ((subsection_moves (fun _ => parseGlobalKeys_moves) fun _ => rfl).comp
      parseGlobalKeys_moves)
  have hfilters : Moves traced _ fun cfg =>
      orSay .invalidGlobalFilters (parseGlobalFilters doc root cfg) :=
    orSay_moves ((subsection_moves (fun _ => parseFilterKeys_moves)
      fun _ => ⟨rfl, rfl, rfl⟩).comp parseFilterKeys_moves)
  have hrest : Leaves traced (parsePaths doc root >=>
      (fun cfg => orSay .invalidKernelPort (parseKernelPort doc root cfg)) >=>
      fun cfg => orSay .invalidCodegenOptions (parseCodegenOptions doc root cfg)) :=
    .comp parsePaths_leaves <| .comp (orSay_leaves (field_leaves fun _ _ => rfl))
      (orSay_leaves (subsection_leaves fun _ => parseCodegenKeys_leaves))
  obtain ⟨_, ⟨_, rfl, rfl⟩, t, hnested, hflat⟩ :=
    hglobal.comp (hfilters.then_leaves hrest) _ _ h
  refine ⟨?_, ⟨t.blacklist, hnested.blacklist, hflat.blacklist⟩,
    ⟨t.allowedOpcodeMask, hnested.opcodes, hflat.opcodes⟩⟩
  rw [hflat.interface, hnested.interface]
  rfl

end Head

/-! ## Routes -/

/-- The node at the end of a path of keys. -/
def pathGet (doc : YamlDocument) (node : YamlNode) (path : List String) : Option YamlNode :=
  path.foldl (fun v key => v.bind (mapGet doc · key)) (some node)

/-- The parts of a route that are traced back to the document. -/
structure TracedRoute where
  domain : CStr
  kernelPort : UInt16
  progName : CStr
  prefixMatch : CStr
  suffixMatch : CStr
  bloomEnabled : Bool
  bloomSeeds : List CStr

def tracedRoute (r : Route) : TracedRoute :=
  ⟨r.domain, r.kernelPort, r.progName, r.prefixMatch, r.suffixMatch, r.bloomEnabled, r.bloomSeeds⟩

def TracedRoute.setKernelPort (n : UInt16) (t : TracedRoute) : TracedRoute :=
  { t with kernelPort := n }

def TracedRoute.setProgName (s : CStr) (t : TracedRoute) : TracedRoute := { t with progName := s }
def TracedRoute.setPrefix (s : CStr) (t : TracedRoute) : TracedRoute := { t with prefixMatch := s }
def TracedRoute.setSuffix (s : CStr) (t : TracedRoute) : TracedRoute := { t with suffixMatch := s }
def TracedRoute.setEnabled (b : Bool) (t : TracedRoute) : TracedRoute := { t with bloomEnabled := b }

def TracedRoute.setSeeds (l : List CStr) (t : TracedRoute) : TracedRoute :=
  { t with bloomSeeds := l }

section Routes

variable {doc : YamlDocument} {node : YamlNode}

/-- The traced part of a draft. -/
def tracedDraft (d : Draft) : TracedRoute := tracedRoute d.toRoute

-- a section of `filters` leaves every part of a draft that has none of its fields
section Sections

variable {β : Type} {π : Draft → β}

theorem parsePow_leaves
    (h : ∀ d enabled difficulty window, π { d with
      powEnabled := enabled, powDifficulty := difficulty, powTimeWindow := window } = π d) :
    Leaves π (parsePow doc node) := by
  unfold parsePow
  refine .comp ?_ <| .comp ?_ ?_
  · exact field_leaves fun enabled d => h d enabled d.powDifficulty d.powTimeWindow
  · exact field_leaves fun difficulty d => h d d.powEnabled difficulty d.powTimeWindow
  · exact field_leaves fun window d => h d d.powEnabled d.powDifficulty window

theorem parseRateLimit_leaves (h : ∀ d qps, π { d with rateLimitQps := qps } = π d) :
    Leaves π (parseRateLimit doc node) := field_leaves fun qps d => h d qps

theorem parseRouteDnsTypes_leaves (h : ∀ d mask, π (setRrtypeMask mask d) = π d) :
    Leaves π (parseRouteDnsTypes doc node) := by
  intro d d' hrun
  unfold parseRouteDnsTypes at hrun
  split at hrun
  · obtain ⟨allow, -, hrun⟩ := bind_eq_ok hrun
    obtain ⟨deny, -, hrun⟩ := bind_eq_ok hrun
    dsimp only at hrun
    split at hrun
    · cases hrun
    · cases hrun
      exact h d _
  · cases hrun

theorem parseBloomSeeds_leaves (h : ∀ d seeds, π { d with bloomSeeds := seeds } = π d) :
    Leaves π (parseBloomSeeds doc node) := by
  intro d d' hrun
  unfold parseBloomSeeds at hrun
  split at hrun
  · obtain ⟨seeds, -, hrun⟩ := bind_eq_ok hrun
    cases hrun
    exact h d seeds
  · cases hrun

theorem parseBloomFilter_leaves
    (h : ∀ d enabled size functions window seeds, π { d with
      bloomEnabled := enabled, bloomSize := size, bloomHashFunctions := functions
      bloomTimeWindow := window, bloomSeeds := seeds } = π d) :
    Leaves π (parseBloomFilter doc node) := by
  unfold parseBloomFilter
  refine .comp ?_ <| .comp ?_ <| .comp ?_ <| .comp ?_ ?_
  · exact field_leaves fun enabled d => h d enabled _ _ _ _
  · exact field_leaves fun size d => h d _ size _ _ _
  · exact field_leaves fun functions d => h d _ _ functions _ _
  · exact field_leaves fun window d => h d _ _ _ window _
  · exact stepField_leaves fun _ => parseBloomSeeds_leaves fun d seeds => h d _ _ _ _ seeds

end Sections

/-- What the flat keys do to a route. -/
def FlatMove (doc : YamlDocument) (node : YamlNode) (t t' : TracedRoute) : Prop :=
  ∃ port, Reads (mapGet2 doc node "forward_port" "kernel_port") parseU16 t.kernelPort port ∧
    t' = (((t.setKernelPort port).setProgName
      (textOr (maxProgName - 1) (mapGet2 doc node "prog_name" "xdp_prog_name") t.progName)).setPrefix
      (textOr maxPatternLen (mapGet doc node "prefix") t.prefixMatch)).setSuffix
      (textOr maxPatternLen (mapGet doc node "suffix") t.suffixMatch)

theorem parseRouteFlat_moves :
    Moves tracedDraft (FlatMove doc node) (parseRouteFlat doc node) := by
  have hqueue : Leaves tracedDraft (field (mapGet2 doc node "xsk_map_index" "xsk_queue") parseU32
      fun n d => { d with xskQueue := n }) := field_leaves fun _ _ => rfl
  have hindex : Leaves tracedDraft (field (mapGet2 doc node "prog_array_index" "prog_index") parseU32
      fun n d => { d with progIndex := n }) := field_leaves fun _ _ => rfl
  have hport : Moves tracedDraft _ (field (mapGet2 doc node "forward_port" "kernel_port") parseU16
      fun n d => { d with kernelPort := n }) :=
    field_moves TracedRoute.kernelPort (fun n t => t.setKernelPort n) (fun _ _ => rfl) fun _ => rfl
  have hname : Moves tracedDraft _ (textField (maxProgName - 1)
      (mapGet2 doc node "prog_name" "xdp_prog_name") fun s d => { d with progName := s }) :=
    textField_moves TracedRoute.progName (fun s t => t.setProgName s) (fun _ _ => rfl) fun _ => rfl
  have hpre : Moves tracedDraft _
      (textField maxPatternLen (mapGet doc node "prefix") setPrefix) :=
    textField_moves TracedRoute.prefixMatch (fun s t => t.setPrefix s) (fun _ _ => rfl) fun _ => rfl
  have hsuffix : Moves tracedDraft _
      (textField maxPatternLen (mapGet doc node "suffix") setSuffix) :=
    textField_moves TracedRoute.suffixMatch (fun s t => t.setSuffix s) (fun _ _ => rfl) fun _ => rfl
  have hrest : Leaves tracedDraft (field (mapGet doc node "min_labels") parseU8 setMinLabels >=>
      field (mapGet doc node "max_labels") parseU8 setMaxLabels >=>
      field (mapGet2 doc node "qname_min_len" "min_length") parseU16 setMinLength >=>
      field (mapGet2 doc node "qname_max_len" "max_length") parseU16 setMaxLength >=>
      field (mapGet doc node "pow_difficulty") parseU8 setPowDifficulty >=>
      field (mapGet doc node "allow_types") (parseRrtypeMask doc) setRrtypeMask) := by
    refine .comp ?_ <| .comp ?_ <| .comp ?_ <| .comp ?_ <| .comp ?_ ?_
    all_goals exact field_leaves fun _ _ => rfl
  intro d d' h
  obtain ⟨_, ⟨port, hreads, rfl⟩, _, rfl, _, rfl, heq⟩ :=
    hqueue.then (hport.comp (hindex.then
      (hname.comp (hpre.comp (hsuffix.then_leaves hrest))))) d d' h
  exact ⟨port, hreads, heq⟩

/-- What the keys of `qname_rules` do to a route. -/
def QnameRulesMove (get : String → Option YamlNode) (t t' : TracedRoute) : Prop :=
  t' = (t.setPrefix (textOr maxPatternLen (get "prefix_match") t.prefixMatch)).setSuffix
    (textOr maxPatternLen (get "suffix_match") t.suffixMatch)

theorem parseQnameRules_moves :
    Moves tracedDraft (QnameRulesMove (mapGet doc node)) (parseQnameRules doc node) := by
  have hpre : Moves tracedDraft _
      (textField maxPatternLen (mapGet doc node "prefix_match") setPrefix) :=
    textField_moves TracedRoute.prefixMatch (fun s t => t.setPrefix s) (fun _ _ => rfl) fun _ => rfl
  have hsuffix : Moves tracedDraft _
      (textField maxPatternLen (mapGet doc node "suffix_match") setSuffix) :=
    textField_moves TracedRoute.suffixMatch (fun s t => t.setSuffix s) (fun _ _ => rfl) fun _ => rfl
  have hrest : Leaves tracedDraft (field (mapGet doc node "min_labels") parseU8 setMinLabels >=>
      field (mapGet doc node "max_labels") parseU8 setMaxLabels >=>
      field (mapGet doc node "min_length") parseU16 setMinLength >=>
      field (mapGet doc node "max_length") parseU16 setMaxLength) := by
    refine .comp ?_ <| .comp ?_ <| .comp ?_ ?_
    all_goals exact field_leaves fun _ _ => rfl
  intro d d' h
  obtain ⟨_, rfl, heq⟩ := hpre.comp (hsuffix.then_leaves hrest) d d' h
  exact heq

/-- The seeds that the items of a sequence write. -/
def listedSeeds (doc : YamlDocument) (items : List Nat) : List CStr :=
  items.filterMap fun item => (doc.getNode item).bind scalar

theorem seedLoop_eq {domain : CStr} (items : List Nat) : ∀ {seeds seeds' : List CStr},
    seedLoop doc domain items seeds = .ok seeds' →
      seeds' = seeds ++ (listedSeeds doc items).map (·.clip maxDomainLen) := by
  induction items with
  | nil =>
    intro seeds seeds' h
    cases h
    simp [listedSeeds]
  | cons item items ih =>
    intro seeds seeds' h
    unfold seedLoop at h
    split at h
    · cases h
    · split at h
      · cases h
      · rename_i seed hseed
        split at h
        · cases h
        · have hlist : listedSeeds doc (item :: items) = seed :: listedSeeds doc items :=
            List.filterMap_cons_some hseed
          rw [hlist, List.map_cons, ih h, List.append_assoc]
          rfl

/-- The list of a Bloom filter as a function of its node. -/
def SeedsRead (doc : YamlDocument) (v : Option YamlNode) (x y : List CStr) : Prop :=
  match v with
  | none => y = x
  | some node => ∃ items, node = .sequence items ∧
      y = (listedSeeds doc items).map (·.clip maxDomainLen)

/-- What the keys of `bloom_filter` do to a route. -/
def BloomMove (doc : YamlDocument) (get : String → Option YamlNode) (t t' : TracedRoute) : Prop :=
  ∃ enabled seeds, Reads (get "enabled") parseBool t.bloomEnabled enabled ∧
    SeedsRead doc (((get "allow_qnames").or (get "seed_qnames")).or (get "seeds")) t.bloomSeeds
      seeds ∧
    t' = (t.setEnabled enabled).setSeeds seeds

theorem parseBloomSeeds_moves {v : Option YamlNode} :
    Moves tracedDraft (fun t t' => ∃ seeds, SeedsRead doc v t.bloomSeeds seeds ∧ t' = t.setSeeds seeds)
      (stepField v (parseBloomSeeds doc)) := by
  intro d d' h
  cases v with
  | none =>
    cases h
    exact ⟨_, rfl, rfl⟩
  | some node =>
    unfold stepField parseBloomSeeds at h
    dsimp only at h
    split at h
    · obtain ⟨seeds, hseeds, h⟩ := bind_eq_ok h
      cases h
      exact ⟨seeds, ⟨_, rfl, seedLoop_eq _ hseeds⟩, rfl⟩
    · cases h

theorem parseBloomFilter_moves :
    Moves tracedDraft (BloomMove doc (mapGet doc node)) (parseBloomFilter doc node) := by
  have henabled : Moves tracedDraft _ (field (mapGet doc node "enabled") parseBool
      fun b d => { d with bloomEnabled := b }) :=
    field_moves TracedRoute.bloomEnabled (fun b t => t.setEnabled b) (fun _ _ => rfl) fun _ => rfl
  have hsize : Leaves tracedDraft (field (mapGet doc node "size") parseU32
      fun n d => { d with bloomSize := n }) := field_leaves fun _ _ => rfl
  have hfunctions : Leaves tracedDraft (field (mapGet doc node "hash_functions") parseU8
      fun n d => { d with bloomHashFunctions := n }) := field_leaves fun _ _ => rfl
  have hwindow : Leaves tracedDraft (field (mapGet doc node "time_window") parseU16
      fun n d => { d with bloomTimeWindow := n }) := field_leaves fun _ _ => rfl
  intro d d' h
  obtain ⟨_, ⟨enabled, hreads, rfl⟩, seeds, hseeds, heq⟩ :=
    henabled.comp (hsize.then (hfunctions.then (hwindow.then parseBloomSeeds_moves))) d d' h
  exact ⟨enabled, seeds, hreads, hseeds, heq⟩

/-- What the keys of `filters` do to a route. -/
def FiltersMove (doc : YamlDocument) (get : String → Option YamlNode) (t t' : TracedRoute) : Prop :=
  ∃ t₁, QnameRulesMove (fun key => (get "qname_rules").bind (mapGet doc · key)) t t₁ ∧
    BloomMove doc (fun key => (get "bloom_filter").bind (mapGet doc · key)) t₁ t'

theorem parseRouteFilters_moves :
    Moves tracedDraft (FiltersMove doc (mapGet doc node)) (parseRouteFilters doc node) := by
  have hpow : Leaves tracedDraft (subsection (mapGet doc node "pow") (parsePow doc)) :=
    subsection_leaves fun _ => parsePow_leaves fun _ _ _ _ => rfl
  have hqname : Moves tracedDraft (QnameRulesMove (nestedGet doc node "qname_rules"))
      (subsection (mapGet doc node "qname_rules") (parseQnameRules doc)) :=
    subsection_moves (fun _ => parseQnameRules_moves) fun _ => rfl
  have hrate : Leaves tracedDraft (subsection (mapGet doc node "rate_limit") (parseRateLimit doc)) :=
    subsection_leaves fun _ => parseRateLimit_leaves fun _ _ => rfl
  have hdns : Leaves tracedDraft
      (stepField (mapGet doc node "dns_types") (parseRouteDnsTypes doc)) :=
    stepField_leaves fun _ => parseRouteDnsTypes_leaves fun _ _ => rfl
  have hbloom : Moves tracedDraft (BloomMove doc (nestedGet doc node "bloom_filter"))
      (subsection (mapGet doc node "bloom_filter") (parseBloomFilter doc)) :=
    subsection_moves (fun _ => parseBloomFilter_moves) fun _ => ⟨_, _, rfl, rfl, rfl⟩
  intro d d' h
  unfold parseRouteFilters at h
  split at h
  · exact hpow.then (hqname.comp (hrate.then (hdns.then hbloom))) d d' h
  · cases h

theorem parseRouteTarget_traced {cfg : Config} {d : Draft}
    (h : parseRouteTarget doc node cfg = .ok d) :
    ∃ text, (mapGet doc node "domain").bind scalar = some text ∧ text.bytes ≠ [] ∧
      tracedDraft d = ⟨text.clip maxDomainLen, cfg.defaultKernelPort, CStr.empty, CStr.empty,
        CStr.empty, false, []⟩ := by
  unfold parseRouteTarget at h
  split at h
  · cases h
  · rename_i text htext
    split at h
    · cases h
    · rename_i hne
      dsimp only at h
      split at h
      · cases h
      · split at h
        · cases h
        · cases h
          exact ⟨text, htext, hne, rfl⟩

/-- The draft without its bounds. -/
def Draft.unbound (d : Draft) : Draft :=
  { d with
    minLabels := 0
    maxLabels := 0
    qnameMinLen := 0
    qnameMaxLen := 0
    hasMinLabels := false
    hasMaxLabels := false
    hasMinLength := false
    hasMaxLength := false }

/-- Before the keys of a route are read it has the default types and no bound. -/
structure Draft.Fresh (d : Draft) : Prop where
  mask : d.rrtypeMask = rrtypeA ||| rrtypeAaaa ||| rrtypeTxt
  unbound : d.unbound = d

theorem parseRouteTarget_fresh {cfg : Config} {d : Draft}
    (h : parseRouteTarget doc node cfg = .ok d) : d.Fresh := by
  unfold parseRouteTarget at h
  dsimp only at h
  split at h
  · cases h
  · split at h
    · cases h
    · split at h
      · cases h
      · split at h
        · cases h
        · cases h
          exact ⟨rfl, rfl⟩

theorem pairBounds_traced (d : Draft) : tracedRoute (pairBounds d) = tracedDraft d := by
  unfold pairBounds
  dsimp only
  split_ifs <;> rfl

/-- The seeds of a route after validation: none without a filter, the domain where none is listed. -/
def finalSeeds (t : TracedRoute) : List CStr :=
  if t.bloomEnabled then
    if t.bloomSeeds = [] then [t.domain.clip maxDomainLen] else t.bloomSeeds
  else []

theorem checkBloom_traced {r r' : Route} (h : checkBloom r = .ok r') :
    tracedRoute r' = (tracedRoute r).setSeeds (finalSeeds (tracedRoute r)) := by
  unfold checkBloom at h
  split at h
  · rename_i hoff
    cases h
    rw [Bool.not_eq_true'] at hoff
    have hseeds : finalSeeds (tracedRoute r) = [] := if_neg (ne_true_of_eq_false hoff)
    rw [hseeds]
    rfl
  · rename_i hon
    rw [Bool.not_eq_true', Bool.not_eq_false] at hon
    have hseeds : finalSeeds (tracedRoute r) =
        if r.bloomSeeds = [] then [r.domain.clip maxDomainLen] else r.bloomSeeds := if_pos hon
    rw [hseeds]
    dsimp only at h
    generalize (if r.bloomSize = 0 then 1024 else r.bloomSize) = size at h
    generalize (if r.bloomHashFunctions = 0 then 3 else r.bloomHashFunctions) = functions at h
    split at h
    · cases h
    · split at h
      · cases h
      · cases h
        rfl

theorem checkRoute_traced {r r' : Route} (h : checkRoute r = .ok r') :
    tracedRoute r' = (tracedRoute r).setSeeds (finalSeeds (tracedRoute r)) := by
  have hpow : tracedRoute (clearPow r) = tracedRoute r := by
    unfold clearPow
    split_ifs <;> rfl
  rw [← hpow]
  unfold checkRoute at h
  split at h
  · cases h
  · split at h
    · cases h
    · dsimp only at h
      split at h
      · cases h
      · exact checkBloom_traced h

/-- Validation only clears or completes the parameters of the two filters. -/
theorem checkRoute_shape {r r' : Route} (h : checkRoute r = .ok r') :
    ∃ difficulty window size functions bloomWindow seeds,
      r' = { r with
        powDifficulty := difficulty, powTimeWindow := window, bloomSize := size
        bloomHashFunctions := functions, bloomTimeWindow := bloomWindow, bloomSeeds := seeds } := by
  have hpow : ∃ difficulty window,
      clearPow r = { r with powDifficulty := difficulty, powTimeWindow := window } := by
    unfold clearPow
    split_ifs
    · exact ⟨_, _, rfl⟩
    · exact ⟨_, _, rfl⟩
  obtain ⟨difficulty, window, hpow⟩ := hpow
  unfold checkRoute checkBloom at h
  rw [hpow] at h
  dsimp only at h
  split_ifs at h <;> cases h
  all_goals exact ⟨_, _, _, _, _, _, rfl⟩

/-- Where an accepted document has the domain, the port and the texts of a route. -/
structure RouteTrace (doc : YamlDocument) (node : YamlNode) (port : UInt16) (t : TracedRoute) :
    Prop where
  domain : ∃ text, (mapGet doc node "domain").bind scalar = some text ∧ text.bytes ≠ [] ∧
    t.domain = text.clip maxDomainLen
  kernelPort : Reads (mapGet2 doc node "forward_port" "kernel_port") parseU16 port t.kernelPort
  progName : t.progName =
    textOr (maxProgName - 1) (mapGet2 doc node "prog_name" "xdp_prog_name") CStr.empty
  prefixMatch : t.prefixMatch =
    textOr maxPatternLen (pathGet doc node ["filters", "qname_rules", "prefix_match"])
      (textOr maxPatternLen (mapGet doc node "prefix") CStr.empty)
  suffixMatch : t.suffixMatch =
    textOr maxPatternLen (pathGet doc node ["filters", "qname_rules", "suffix_match"])
      (textOr maxPatternLen (mapGet doc node "suffix") CStr.empty)
  bloomEnabled :
    Reads (pathGet doc node ["filters", "bloom_filter", "enabled"]) parseBool false t.bloomEnabled
  bloomSeeds : ∃ seeds,
    SeedsRead doc (((pathGet doc node ["filters", "bloom_filter", "allow_qnames"]).or
      (pathGet doc node ["filters", "bloom_filter", "seed_qnames"])).or
      (pathGet doc node ["filters", "bloom_filter", "seeds"])) [] seeds ∧
    t.bloomSeeds = finalSeeds (t.setSeeds seeds)

theorem parseRoute_trace {cfg : Config} {v : Option YamlNode} {r : Route}
    (h : parseRoute doc v cfg = .ok r) :
    ∃ pairs, v = some (.mapping pairs) ∧
      RouteTrace doc (.mapping pairs) cfg.defaultKernelPort (tracedRoute r) := by
  obtain ⟨pairs, d₁, d₂, d₃, rfl, h₁, h₂, h₃, hcheck⟩ := parseRoute_cases h
  refine ⟨pairs, rfl, ?_⟩
  obtain ⟨text, htext, hne, hstart⟩ := parseRouteTarget_traced h₁
  obtain ⟨port, hport, hflat⟩ := parseRouteFlat_moves d₁ d₂ h₂
  have hfilters : Moves tracedDraft (FiltersMove doc (nestedGet doc (.mapping pairs) "filters"))
      (stepField (mapGet doc (.mapping pairs) "filters") (parseRouteFilters doc)) :=
    stepField_moves (fun _ => parseRouteFilters_moves)
      fun _ => ⟨_, rfl, _, _, rfl, rfl, rfl⟩
  obtain ⟨_, rfl, enabled, seeds, henabled, hseeds, hend⟩ := hfilters d₂ d₃ h₃
  have hlast := checkRoute_traced hcheck
  rw [pairBounds_traced] at hlast
  rw [hlast, hend, hflat, hstart]
  rw [hflat, hstart] at henabled hseeds
  rw [hstart] at hport
  exact ⟨⟨text, htext, hne, rfl⟩, hport, rfl, rfl, rfl, henabled, seeds, hseeds, rfl⟩

theorem routeLoop_forall₂ {cfg : Config} (items : List Nat) : ∀ {routes routes' : List Route},
    routeLoop doc cfg items routes = .ok routes' → ∃ parsed, routes' = routes ++ parsed ∧
      List.Forall₂ (fun item r => parseRoute doc (doc.getNode item) cfg = .ok r) items parsed := by
  induction items with
  | nil =>
    intro routes routes' h
    cases h
    exact ⟨[], (List.append_nil _).symm, .nil⟩
  | cons item items ih =>
    intro routes routes' h
    unfold routeLoop at h
    split at h
    · cases h
    · obtain ⟨r, hr, h⟩ := bind_eq_ok h
      obtain ⟨parsed, hparsed, hall⟩ := ih h
      exact ⟨r :: parsed, by rw [hparsed, List.append_assoc]; rfl, .cons hr hall⟩

/-- The root of a document. -/
def rootNode (doc : YamlDocument) : YamlNode := doc.getRootNode.getD (.mapping [])

/-- The entries of `routes`. -/
def routeNodes (doc : YamlDocument) : List YamlNode :=
  match mapGet doc (rootNode doc) "routes" with
  | some (.sequence items) => items.filterMap doc.getNode
  | _ => []

theorem rootNode_eq {root : YamlNode} (h : doc.getRootNode = some root) : rootNode doc = root := by
  unfold rootNode
  rw [h, Option.getD_some]

theorem forall₂_filterMap_getNode {items : List Nat} {routes : List Route}
    {P : YamlNode → Route → Prop}
    (h : List.Forall₂ (fun item r => ∃ node, doc.getNode item = some node ∧ P node r) items routes) :
    List.Forall₂ P (items.filterMap doc.getNode) routes := by
  induction h with
  | nil => exact .nil
  | cons hhead _ ih =>
    obtain ⟨node, hnode, hP⟩ := hhead
    rw [List.filterMap_cons_some hnode]
    exact .cons hP ih

/-- Each entry of `routes` with the route it became. -/
theorem routes_parsed {cfg : Config} (h : parseConfigYaml doc = .ok cfg) :
    ∃ head, List.Forall₂ (fun node r => parseRoute doc (some node) head = .ok r) (routeNodes doc)
      cfg.routes := by
  obtain ⟨pairs, head, items, routes, hroot, -, hnode, hloop, -, rfl⟩ := parseConfigYaml_cases h
  obtain ⟨parsed, rfl, hparsed⟩ := routeLoop_forall₂ items hloop
  have hroutes : routeNodes doc = items.filterMap doc.getNode := by
    unfold routeNodes
    rw [rootNode_eq hroot, hnode]
  refine ⟨head, ?_⟩
  rw [hroutes]
  refine forall₂_filterMap_getNode (hparsed.imp fun item r hr => ?_)
  cases hitem : doc.getNode item with
  | none =>
    rw [hitem] at hr
    cases hr
  | some node =>
    rw [hitem] at hr
    exact ⟨node, rfl, hr⟩

end Routes

/-- **Every accepted document.** Its interface, blacklist and opcodes come from the nested places and
    then from the flat ones. -/
theorem trace_of_parse {doc : YamlDocument} {cfg : Config} (h : parseConfigYaml doc = .ok cfg) :
    ∃ root, doc.getRootNode = some root ∧ Trace doc root (traced cfg) := by
  obtain ⟨pairs, head, items, routes, hroot, hhead, -, -, -, rfl⟩ := parseConfigYaml_cases h
  have htrace := parseHead_trace hhead
  exact ⟨_, hroot, htrace⟩

end Zereh.Control
