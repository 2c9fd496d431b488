/-
  The flat and the nested schema mean the same.

  A section of the nested document has under each of its keys what the flat document has under the
  flat one, and a section that is not written has nothing to say. So the steps of the nested path are
  those of the flat path, in another order: `filters.pow` is read before `filters.qname_rules`, the
  flat `pow_difficulty` after the rules. These steps fill different fields and fail alike, so their
  order does not matter.
-/
import Zereh.Control.Accepted
import Zereh.Control.KeyOrder
import Zereh.Control.Nesting

namespace Zereh.Control

open Lib

/-! ## Steps -/

section Steps

variable {σ α β : Type} {v w : Option YamlNode}

/-- `parse` fails without a message. -/
def Silent (parse : YamlNode → Parsed α) : Prop := ∀ node ms, parse node = .error ms → ms = []

theorem parseU32_silent : Silent parseU32 := by
  intro node ms h
  unfold parseU32 at h
  split at h
  · cases h
    rfl
  · split at h
    · cases h
      rfl
    · split at h
      · cases h
        rfl
      · cases h

/-- A bound on the result is checked without a message. -/
theorem Silent.bounded {parse : YamlNode → Parsed α} (hparse : Silent parse) {large : α → Prop}
    [DecidablePred large] {narrow : α → β} :
    Silent fun node => parse node >>= fun a => if large a then reject else .ok (narrow a) := by
  intro node ms h
  beta_reduce at h
  cases hn : parse node with
  | error ms' =>
    rw [hn] at h
    cases h
    exact hparse node ms hn
  | ok a =>
    rw [hn] at h
    change (if large a then reject else .ok (narrow a)) = .error ms at h
    split at h
    · cases h
      rfl
    · cases h

theorem parseU16_silent : Silent parseU16 := parseU32_silent.bounded

theorem parseU8_silent : Silent parseU8 := parseU32_silent.bounded

theorem field_some (node : YamlNode) (parse : YamlNode → Parsed α) (set : α → σ → σ) (s : σ) :
    field (some node) parse set s = parse node >>= fun a => .ok (set a s) := rfl

theorem stepField_some (node : YamlNode) (step : YamlNode → σ → Parsed σ) :
    stepField (some node) step = step node := rfl

theorem field_comm {parse : YamlNode → Parsed α} {parse' : YamlNode → Parsed β} {set : α → σ → σ}
    {set' : β → σ → σ} (hparse : Silent parse) (hparse' : Silent parse')
    (hset : ∀ a b s, set' b (set a s) = set a (set' b s)) :
    Commutes (field v parse set) (field w parse' set') := by
  cases v with
  | none => exact commutes_pure
  | some node =>
    cases w with
    | none => exact commutes_pure.symm
    | some node' =>
      funext s
      change (field (some node) parse set s >>= field (some node') parse' set') =
        (field (some node') parse' set' s >>= field (some node) parse set)
      rw [field_some, field_some]
      cases hn : parse node with
      | error ms =>
        cases hn' : parse' node' with
        | error ms' =>
          rw [hparse node ms hn, hparse' node' ms' hn']
          rfl
        | ok b =>
          change Except.error ms = (parse node >>= fun a => .ok (set a (set' b s)))
          rw [hn]
          rfl
      | ok a =>
        cases hn' : parse' node' with
        | error ms' =>
          change (parse' node' >>= fun b => .ok (set' b (set a s))) = Except.error ms'
          rw [hn']
          rfl
        | ok b =>
          change (parse' node' >>= fun b => .ok (set' b (set a s))) =
            (parse node >>= fun a => .ok (set a (set' b s)))
          rw [hn, hn']
          exact congrArg Except.ok (hset a b s)

/-- A text is never rejected, so it may be copied before or after. -/
theorem field_comm_textField {parse : YamlNode → Parsed α} {n : Nat} {set : α → σ → σ}
    {set' : CStr → σ → σ} (hset : ∀ a b s, set' b (set a s) = set a (set' b s)) :
    Commutes (field v parse set) (textField n w set') := by
  have htext : textField n w set' = fun s => .ok ((w.bind scalar).elim s fun b => set' (b.clip n) s) := by
    funext s
    unfold textField
    cases w.bind scalar <;> rfl
  rw [htext]
  cases v with
  | none => exact commutes_pure
  | some node =>
    funext s
    change (field (some node) parse set s >>= _) = field (some node) parse set _
    rw [field_some, field_some]
    cases parse node with
    | error ms => rfl
    | ok a =>
      cases w.bind scalar with
      | none => rfl
      | some b => exact congrArg Except.ok (hset a _ s)

/-- A section with its content, where an empty section says nothing. -/
theorem subsection_sectionNode {body : YamlNode → σ → Parsed σ} (content : List (Nat × Nat))
    (hempty : body (.mapping []) = pure) :
    subsection (sectionNode content) body = body (.mapping content) := by
  unfold sectionNode
  split
  · rename_i hcontent
    rw [hcontent, hempty]
    rfl
  · rfl

theorem stepField_sectionNode {step : YamlNode → σ → Parsed σ} (content : List (Nat × Nat))
    (hempty : step (.mapping []) = pure) :
    stepField (sectionNode content) step = step (.mapping content) := by
  unfold sectionNode
  split
  · rename_i hcontent
    rw [hcontent, hempty]
    rfl
  · rfl

end Steps

/-! ## Keys -/

/-- In these sections no two flat keys move to one nested key. -/
theorem moves_sole : ∀ moves ∈ [globalMoves, filterMoves, targetMoves], ∀ m ∈ moves, ∀ m' ∈ moves,
    m' ≠ m → ascii m'.2 ≠ ascii m.2 := by
  decide +kernel

/-- In the rules for the name only the bounds of the length have two. -/
theorem qnameMoves_sole : ∀ m ∈ qnameMoves, m.2 ≠ "min_length" → m.2 ≠ "max_length" →
    ∀ m' ∈ qnameMoves, m' ≠ m → ascii m'.2 ≠ ascii m.2 := by
  decide +kernel

theorem untouched_keys : ∀ key ∈ ["domain", "routes", "cidr"] ++ optionKeys, Untouched key := by
  decide +kernel

/-! ## The global sections -/

section Root

variable {doc : YamlDocument} {pairs : List (Nat × Nat)}

/-- Where one flat key alone moves to a nested one, that key is what is found. -/
theorem movedGet_sole {node : YamlNode} {moves : List (String × String)} {m : String × String}
    (hm : m ∈ moves) (hsole : ∀ m' ∈ moves, m' ≠ m → ascii m'.2 ≠ ascii m.2) :
    movedGet doc node moves m.2 = mapGet doc node m.1 := by
  unfold movedGet
  cases hf : moves.findSome? fun m' => if ascii m'.2 = ascii m.2 then mapGet doc node m'.1 else none with
  | none =>
    have hnone := List.findSome?_eq_none_iff.mp hf m hm
    rw [if_pos rfl] at hnone
    exact hnone.symm
  | some found =>
    obtain ⟨m', hm', hfound⟩ := List.exists_of_findSome?_eq_some hf
    by_cases heq : m' = m
    · rw [heq, if_pos rfl] at hfound
      exact hfound.symm
    · rw [if_neg (hsole m' hm' heq)] at hfound
      cases hfound

/-- A section has under a nested key what the mapping had under the flat one. -/
theorem rel_section (hpairs : ClosedPairs doc pairs) {moves : List (String × String)}
    (hnew : ∀ m ∈ moves, m.2 ∈ newKeys) {m : String × String} (hm : m ∈ moves)
    (hsole : ∀ m' ∈ moves, m' ≠ m → ascii m'.2 ≠ ascii m.2) :
    Option.Rel (Nested doc) (mapGet doc (.mapping pairs) m.1)
      (mapGet (nestDocument doc) (.mapping (movedPairs doc moves pairs)) m.2) := by
  rw [← movedGet_sole hm hsole]
  exact rel_movedPairs hpairs moves hnew m.2

theorem parseGlobalKeys_section (hclosed : Closed doc) (hpairs : ClosedPairs doc pairs) :
    parseGlobalKeys (nestDocument doc) (.mapping (movedPairs doc globalMoves pairs)) =
      parseGlobalKeys doc (.mapping pairs) := by
  have halike := nest_alike hclosed
  have hsole := moves_sole globalMoves (.head _)
  have hget := fun m hm => rel_section hpairs (by decide) hm (hsole m hm)
  refine chain_congr ?_ <| chain_congr ?_ ?_
  · exact halike.textField (hget ("interface", "interface") (by decide))
  · exact halike.field (hget ("xdp_mode", "xdp_mode") (by decide)) parseWord_byScalar
  · exact halike.field (hget ("default_action", "default_action") (by decide)) parseWord_byScalar

theorem parseFilterKeys_section (hclosed : Closed doc) (hpairs : ClosedPairs doc pairs) :
    parseFilterKeys (nestDocument doc) "ip_blacklist" (.mapping (movedPairs doc filterMoves pairs)) =
      parseFilterKeys doc "blacklist" (.mapping pairs) := by
  have halike := nest_alike hclosed
  have hsole := moves_sole filterMoves (.tail _ (.head _))
  have hget := fun m hm => rel_section hpairs (by decide) hm (hsole m hm)
  refine chain_congr ?_ <| chain_congr ?_ <| chain_congr ?_ ?_
  · exact field_congr (hget ("blacklist", "ip_blacklist") (by decide))
      fun _ _ => halike.parseBlacklist (untouched_keys "cidr" (by decide))
  · exact halike.field (hget ("max_packet_size", "max_packet_size") (by decide)) parseU32_byScalar
  · exact field_congr (hget ("allowed_opcodes", "allowed_opcodes") (by decide))
      fun _ _ => halike.parseAllowedOpcodes
  · exact halike.field (hget ("drop_truncated", "drop_truncated") (by decide)) parseWord_byScalar

theorem parseGlobalKeys_absent {node : YamlNode} (h : ∀ key ∈ rootFlatKeys, mapGet doc node key = none) :
    parseGlobalKeys doc node = pure := by
  unfold parseGlobalKeys
  rw [h "interface" (by decide), h "xdp_mode" (by decide), h "default_action" (by decide)]
  rfl

theorem parseFilterKeys_absent {node : YamlNode} (h : ∀ key ∈ rootFlatKeys, mapGet doc node key = none) :
    parseFilterKeys doc "blacklist" node = pure := by
  unfold parseFilterKeys
  rw [h "blacklist" (by decide), h "max_packet_size" (by decide), h "allowed_opcodes" (by decide),
    h "drop_truncated" (by decide)]
  rfl

/-- What the root has in the place of its flat keys. -/
theorem nest_global (hclosed : Closed doc) (hflat : FlatOnly doc)
    (hroot : doc.getNode 1 = some (.mapping pairs)) :
    mapGet (nestDocument doc) (.mapping (nestPairs doc 1 pairs)) "global" =
      sectionNode (movedPairs doc globalMoves pairs) := by
  have hkey : "global" ∈ rootNestedKeys := by decide
  rw [nest_rootSection hclosed hflat hroot hkey, if_pos rfl, if_neg (by decide), Option.or_none,
    globalPairs, pairsAt_eq hroot]

theorem nest_globalFilters (hclosed : Closed doc) (hflat : FlatOnly doc)
    (hroot : doc.getNode 1 = some (.mapping pairs)) :
    mapGet (nestDocument doc) (.mapping (nestPairs doc 1 pairs)) "global_filters" =
      sectionNode (movedPairs doc filterMoves pairs) := by
  have hkey : "global_filters" ∈ rootNestedKeys := by decide
  rw [nest_rootSection hclosed hflat hroot hkey, if_neg (by decide), if_pos rfl, Option.none_or,
    globalFilterPairs, pairsAt_eq hroot]

/-- A section of the nested root does what the flat keys did, which are gone from there. -/
theorem rootSection_nested {name : String} {content : List (Nat × Nat)}
    (body flat : YamlDocument → YamlNode → Config → Parsed Config) (hclosed : Closed doc)
    (hroot : doc.getNode 1 = some (.mapping pairs)) (hnone : mapGet doc (.mapping pairs) name = none)
    (hsection : mapGet (nestDocument doc) (.mapping (nestPairs doc 1 pairs)) name =
      sectionNode content)
    (hempty : body (nestDocument doc) (.mapping []) = pure)
    (hbody : body (nestDocument doc) (.mapping content) = flat doc (.mapping pairs))
    (habsent : ∀ {node}, (∀ key ∈ rootFlatKeys, mapGet (nestDocument doc) node key = none) →
      flat (nestDocument doc) node = pure) :
    (subsection (mapGet (nestDocument doc) (.mapping (nestPairs doc 1 pairs)) name)
        (body (nestDocument doc)) >=> flat (nestDocument doc) (.mapping (nestPairs doc 1 pairs))) =
      (subsection (mapGet doc (.mapping pairs) name) (body doc) >=> flat doc (.mapping pairs)) := by
  have hgone : ∀ key ∈ rootFlatKeys,
      mapGet (nestDocument doc) (.mapping (nestPairs doc 1 pairs)) key = none :=
    fun _ hkey => nest_gone hclosed hroot (List.mem_append_left _ hkey)
  rw [hsection, hnone, subsection_sectionNode _ hempty, hbody, habsent hgone, fish_pure]
  rfl

theorem FlatOnly.root_absent (hflat : FlatOnly doc) (hroot : doc.getNode 1 = some (.mapping pairs))
    {name : String} (hname : name ∈ rootNestedKeys) : mapGet doc (.mapping pairs) name = none := by
  have hnone := hflat.root name hname
  rwa [pairsAt_eq hroot] at hnone

theorem parseGlobalSection_nested (hclosed : Closed doc) (hflat : FlatOnly doc)
    (hroot : doc.getNode 1 = some (.mapping pairs)) :
    parseGlobalSection (nestDocument doc) (.mapping (nestPairs doc 1 pairs)) =
      parseGlobalSection doc (.mapping pairs) :=
  rootSection_nested parseGlobalKeys parseGlobalKeys hclosed hroot
    (hflat.root_absent hroot (by decide)) (nest_global hclosed hflat hroot) rfl
    (parseGlobalKeys_section hclosed (hclosed.closedPairs hroot)) parseGlobalKeys_absent

theorem parseGlobalFilters_nested (hclosed : Closed doc) (hflat : FlatOnly doc)
    (hroot : doc.getNode 1 = some (.mapping pairs)) :
    parseGlobalFilters (nestDocument doc) (.mapping (nestPairs doc 1 pairs)) =
      parseGlobalFilters doc (.mapping pairs) :=
  rootSection_nested (fun doc => parseFilterKeys doc "ip_blacklist")
    (fun doc => parseFilterKeys doc "blacklist") hclosed hroot
    (hflat.root_absent hroot (by decide)) (nest_globalFilters hclosed hflat hroot) rfl
    (parseFilterKeys_section hclosed (hclosed.closedPairs hroot)) parseFilterKeys_absent

theorem parseHead_nested (hclosed : Closed doc) (hflat : FlatOnly doc)
    (hroot : doc.getNode 1 = some (.mapping pairs)) :
    parseHead (nestDocument doc) (.mapping (nestPairs doc 1 pairs)) =
      parseHead doc (.mapping pairs) := by
  have halike := nest_alike hclosed
  have hnested : Nested doc (.mapping pairs) (.mapping (nestPairs doc 1 pairs)) := ⟨1, hroot, rfl⟩
  have hkeys : ∀ key ∈ optionKeys, Untouched key := fun key hkey =>
    untouched_keys key (List.mem_append_right _ hkey)
  simp only [parseHead, parseGlobalSection_nested hclosed hflat hroot,
    parseGlobalFilters_nested hclosed hflat hroot, halike.parsePaths hkeys hnested,
    halike.parseKernelPort hkeys hnested, halike.parseCodegenOptions hkeys hnested]

end Root

/-! ## Routes -/

section Routes

variable {doc : YamlDocument} {pairs : List (Nat × Nat)} {i : Nat}

/-- The steps of a route after its target and its numbers, under flat keys. -/
def flatRules (doc : YamlDocument) (node : YamlNode) : Draft → Parsed Draft :=
  textField maxPatternLen (mapGet doc node "prefix") setPrefix >=>
    textField maxPatternLen (mapGet doc node "suffix") setSuffix >=>
    field (mapGet doc node "min_labels") parseU8 setMinLabels >=>
    field (mapGet doc node "max_labels") parseU8 setMaxLabels >=>
    field (mapGet2 doc node "qname_min_len" "min_length") parseU16 setMinLength >=>
    field (mapGet2 doc node "qname_max_len" "max_length") parseU16 setMaxLength

def flatPow (doc : YamlDocument) (node : YamlNode) : Draft → Parsed Draft :=
  field (mapGet doc node "pow_difficulty") parseU8 setPowDifficulty

def flatTypes (doc : YamlDocument) (node : YamlNode) : Draft → Parsed Draft :=
  field (mapGet doc node "allow_types") (parseRrtypeMask doc) setRrtypeMask

theorem flatPow_commutes (node : YamlNode) : Commutes (flatPow doc node) (flatRules doc node) := by
  refine .comp ?_ <| .comp ?_ <| .comp ?_ <| .comp ?_ <| .comp ?_ ?_
  · exact field_comm_textField fun _ _ _ => rfl
  · exact field_comm_textField fun _ _ _ => rfl
  · exact field_comm parseU8_silent parseU8_silent fun _ _ _ => rfl
  · exact field_comm parseU8_silent parseU8_silent fun _ _ _ => rfl
  · exact field_comm parseU8_silent parseU16_silent fun _ _ _ => rfl
  · exact field_comm parseU8_silent parseU16_silent fun _ _ _ => rfl

theorem eq_none_of_rel {α β : Type} {R : α → β → Prop} {v : Option β}
    (h : Option.Rel R none v) : v = none := by
  cases h
  rfl

theorem parsePow_section (hclosed : Closed doc) (hpairs : ClosedPairs doc pairs) :
    parsePow (nestDocument doc) (.mapping (movedPairs doc powMoves pairs)) =
      flatPow doc (.mapping pairs) := by
  have hnew : ∀ m ∈ powMoves, m.2 ∈ newKeys := by decide
  have hnone : ∀ key, (∀ m ∈ powMoves, ascii m.2 ≠ ascii key) →
      mapGet (nestDocument doc) (.mapping (movedPairs doc powMoves pairs)) key = none := by
    intro key hkey
    have hrel := rel_movedPairs hpairs powMoves hnew key
    rw [movedGet_none hkey] at hrel
    exact eq_none_of_rel hrel
  have hdifficulty := rel_section hpairs hnew (m := ("pow_difficulty", "difficulty")) (by decide)
    (by decide)
  unfold parsePow
  rw [hnone "enabled" (by decide), hnone "time_window" (by decide),
    (nest_alike hclosed).field hdifficulty parseU8_byScalar]
  exact (fish_pipe _).trans (fish_pure _)

/-- The two flat names of a bound, the preferred one first. -/
theorem movedGet_length (node : YamlNode) :
    movedGet doc node qnameMoves "min_length" = mapGet2 doc node "qname_min_len" "min_length" ∧
      movedGet doc node qnameMoves "max_length" = mapGet2 doc node "qname_max_len" "max_length" := by
  simp +decide [qnameMoves, movedGet_cons, movedGet_nil, mapGet2]

theorem parseQnameRules_section (hclosed : Closed doc) (hpairs : ClosedPairs doc pairs) :
    parseQnameRules (nestDocument doc) (.mapping (movedPairs doc qnameMoves pairs)) =
      flatRules doc (.mapping pairs) := by
  have halike := nest_alike hclosed
  have hnew : ∀ m ∈ qnameMoves, m.2 ∈ newKeys := by decide
  have hget := fun m hm hmin hmax => rel_section hpairs hnew hm (qnameMoves_sole m hm hmin hmax)
  have hminLength := rel_movedPairs hpairs qnameMoves hnew "min_length"
  have hmaxLength := rel_movedPairs hpairs qnameMoves hnew "max_length"
  rw [(movedGet_length _).1] at hminLength
  rw [(movedGet_length _).2] at hmaxLength
  refine chain_congr ?_ <| chain_congr ?_ <| chain_congr ?_ <| chain_congr ?_ <| chain_congr ?_ ?_
  · exact halike.textField (hget ("prefix", "prefix_match") (by decide) (by decide) (by decide))
  · exact halike.textField (hget ("suffix", "suffix_match") (by decide) (by decide) (by decide))
  · exact halike.field (hget ("min_labels", "min_labels") (by decide) (by decide) (by decide))
      parseU8_byScalar
  · exact halike.field (hget ("max_labels", "max_labels") (by decide) (by decide) (by decide))
      parseU8_byScalar
  · exact halike.field hminLength parseU16_byScalar
  · exact halike.field hmaxLength parseU16_byScalar

/-- An allow list without a deny list is the mask itself. -/
theorem parseRouteDnsTypes_allow {node : YamlNode} {content : List (Nat × Nat)}
    (hallow : mapGet doc (.mapping content) "allow" = some node)
    (hdeny : mapGet doc (.mapping content) "deny" = none) :
    parseRouteDnsTypes doc (.mapping content) =
      field (some node) (parseRrtypeMask doc) setRrtypeMask := by
  funext d
  unfold parseRouteDnsTypes
  rw [hallow, hdeny, field_some]
  cases hmask : parseRrtypeMask doc node with
  | error ms =>
    simp only [field_some, hmask]
    rfl
  | ok mask =>
    simp only [field_some, hmask]
    change (if mask &&& ~~~(0 : UInt32) = 0 then reject
      else .ok (setRrtypeMask (mask &&& ~~~(0 : UInt32)) d)) = .ok (setRrtypeMask mask d)
    have hkeep : mask &&& ~~~(0 : UInt32) = mask := by simp
    rw [hkeep, if_neg (parseRrtypeMask_ok hmask).1]

/-- The pairs of one flat key have a value if there are any. -/
theorem movedPairs_get_isSome (hpairs : ClosedPairs doc pairs) {flat nested : String}
    (hnew : nested ∈ newKeys) (hne : movedPairs doc [(flat, nested)] pairs ≠ []) :
    (mapGet (nestDocument doc) (.mapping (movedPairs doc [(flat, nested)] pairs)) nested).isSome := by
  obtain ⟨pair, rest, hcons⟩ := List.exists_cons_of_ne_nil hne
  have hmem : pair ∈ movedPairs doc [(flat, nested)] pairs := by
    rw [hcons]
    exact List.mem_cons_self
  obtain ⟨m, hm, hpair⟩ := List.mem_flatMap.mp hmem
  rw [List.mem_singleton.mp hm] at hpair
  obtain ⟨old, hold, rfl⟩ := List.mem_map.mp hpair
  obtain ⟨node, hnode⟩ :=
    Option.isSome_iff_exists.mp (hpairs old (List.mem_of_mem_filter hold)).2
  rw [hcons, mapGet_mapping, List.findSome?_cons, pairValue_eq_ite, nest_hasKey_keyNumber hnew,
    decide_eq_true rfl, if_pos rfl, nest_getNode hnode]
  rfl

theorem parseRouteDnsTypes_section (hclosed : Closed doc) (hpairs : ClosedPairs doc pairs) :
    stepField (sectionNode (movedPairs doc typeMoves pairs)) (parseRouteDnsTypes (nestDocument doc)) =
      flatTypes doc (.mapping pairs) := by
  have hnew : ∀ m ∈ typeMoves, m.2 ∈ newKeys := by decide
  have hallow := rel_section hpairs hnew (m := ("allow_types", "allow")) (by decide) (by decide)
  have hdeny := rel_movedPairs hpairs typeMoves hnew "deny"
  rw [movedGet_none (by decide)] at hdeny
  unfold flatTypes
  rw [← field_congr hallow fun _ _ => (nest_alike hclosed).parseRrtypeMask]
  by_cases hempty : movedPairs doc typeMoves pairs = []
  · rw [hempty]
    rfl
  · have hsome : (mapGet (nestDocument doc) (.mapping (movedPairs doc typeMoves pairs))
        "allow").isSome := movedPairs_get_isSome hpairs (by decide) hempty
    obtain ⟨node, hnode⟩ := Option.isSome_iff_exists.mp hsome
    have hsection : sectionNode (movedPairs doc typeMoves pairs) =
        some (.mapping (movedPairs doc typeMoves pairs)) := if_neg hempty
    rw [hsection, stepField_some, parseRouteDnsTypes_allow hnode (eq_none_of_rel hdeny), hnode]

/-- The sections of `filters`; those that no flat key moves to are absent. -/
theorem filtersPairs_sections (hi : i ∈ routeItems doc) :
    (mapGet (nestDocument doc) (.mapping (filtersPairs doc i)) "pow" = sectionNode (powPairs doc i) ∧
      mapGet (nestDocument doc) (.mapping (filtersPairs doc i)) "qname_rules" =
        sectionNode (qnamePairs doc i) ∧
      mapGet (nestDocument doc) (.mapping (filtersPairs doc i)) "dns_types" =
        sectionNode (typePairs doc i)) ∧
    mapGet (nestDocument doc) (.mapping (filtersPairs doc i)) "rate_limit" = none ∧
    mapGet (nestDocument doc) (.mapping (filtersPairs doc i)) "bloom_filter" = none := by
  simp only [filtersPairs_get hi]
  simp +decide

theorem parseRouteFilters_section (hclosed : Closed doc) (hi : i ∈ routeItems doc)
    (hnode : doc.getNode i = some (.mapping pairs)) :
    stepField (sectionNode (filtersPairs doc i)) (parseRouteFilters (nestDocument doc)) =
      flatPow doc (.mapping pairs) >=> flatRules doc (.mapping pairs) >=>
        flatTypes doc (.mapping pairs) := by
  have hpairs := hclosed.closedPairs hnode
  obtain ⟨⟨hpow, hqname, htypes⟩, hrate, hbloom⟩ := filtersPairs_sections hi
  have hmapping : parseRouteFilters (nestDocument doc) (.mapping (filtersPairs doc i)) =
      subsection (mapGet (nestDocument doc) (.mapping (filtersPairs doc i)) "pow")
          (parsePow (nestDocument doc)) >=>
        subsection (mapGet (nestDocument doc) (.mapping (filtersPairs doc i)) "qname_rules")
          (parseQnameRules (nestDocument doc)) >=>
        subsection (mapGet (nestDocument doc) (.mapping (filtersPairs doc i)) "rate_limit")
          (parseRateLimit (nestDocument doc)) >=>
        stepField (mapGet (nestDocument doc) (.mapping (filtersPairs doc i)) "dns_types")
          (parseRouteDnsTypes (nestDocument doc)) >=>
        subsection (mapGet (nestDocument doc) (.mapping (filtersPairs doc i)) "bloom_filter")
          (parseBloomFilter (nestDocument doc)) := rfl
  rw [stepField_sectionNode _ rfl, hmapping, hpow, hqname, htypes, hrate, hbloom,
    subsection_sectionNode _ rfl, subsection_sectionNode _ rfl, powPairs, qnamePairs, typePairs,
    pairsAt_eq hnode, parsePow_section hclosed hpairs, parseQnameRules_section hclosed hpairs,
    parseRouteDnsTypes_section hclosed hpairs]
  have hskip : ∀ body : YamlNode → Draft → Parsed Draft, subsection none body = pure := fun _ => rfl
  rw [hskip, hskip, fish_pipe, fish_pure]

/-- The numbers of a route and the name of its program. -/
def flatNumbers (doc : YamlDocument) (node : YamlNode) : Draft → Parsed Draft :=
  field (mapGet2 doc node "xsk_map_index" "xsk_queue") parseU32
      (fun n d => { d with xskQueue := n }) >=>
    field (mapGet2 doc node "forward_port" "kernel_port") parseU16
      (fun n d => { d with kernelPort := n }) >=>
    field (mapGet2 doc node "prog_array_index" "prog_index") parseU32
      (fun n d => { d with progIndex := n }) >=>
    textField (maxProgName - 1) (mapGet2 doc node "prog_name" "xdp_prog_name")
      (fun s d => { d with progName := s })

theorem parseRouteFlat_eq (doc : YamlDocument) (node : YamlNode) :
    parseRouteFlat doc node =
      flatNumbers doc node >=> flatRules doc node >=> flatPow doc node >=> flatTypes doc node := by
  simp only [parseRouteFlat, flatNumbers, flatRules, flatPow, flatTypes, fish_assoc]

/-- A key under either of its names. -/
theorem rel_mapGet2 (hclosed : Closed doc) (hflat : FlatOnly doc) (hi : i ∈ routeItems doc)
    (hnode : doc.getNode i = some (.mapping pairs)) {m : String × String} (hm : m ∈ targetMoves) :
    Option.Rel (Nested doc) (mapGet2 doc (.mapping pairs) m.2 m.1)
      (mapGet2 (nestDocument doc) (.mapping (nestPairs doc i pairs)) m.2 m.1) := by
  have hsole := moves_sole targetMoves (.tail _ (.tail _ (.head _)))
  have hleaves : ∀ m ∈ targetMoves, m.1 ∈ routeFlatKeys := by decide
  have hnested : m.2 ∈ targetMoves.map Prod.snd := List.mem_map_of_mem hm
  have hgone : m.1 ∈ leaving doc i := by
    unfold leaving
    rw [if_pos hi]
    exact List.mem_append_right _ (hleaves m hm)
  have hnone := hflat.routes i hi m.2 (List.mem_append_left _ hnested)
  have htarget := nest_target hclosed hflat hi hnode hnested
  rw [movedGet_sole hm (hsole m hm)] at htarget
  rw [pairsAt_eq hnode] at hnone
  unfold mapGet2
  rw [hnone, nest_gone hclosed hnode hgone, Option.none_or, Option.or_none]
  exact htarget

theorem flatNumbers_nested (hclosed : Closed doc) (hflat : FlatOnly doc) (hi : i ∈ routeItems doc)
    (hnode : doc.getNode i = some (.mapping pairs)) :
    flatNumbers (nestDocument doc) (.mapping (nestPairs doc i pairs)) =
      flatNumbers doc (.mapping pairs) := by
  have halike := nest_alike hclosed
  have hget := fun m hm => rel_mapGet2 hclosed hflat hi hnode (m := m) hm
  refine chain_congr ?_ <| chain_congr ?_ <| chain_congr ?_ ?_
  · exact halike.field (hget ("xsk_queue", "xsk_map_index") (by decide)) parseU32_byScalar
  · exact halike.field (hget ("kernel_port", "forward_port") (by decide)) parseU16_byScalar
  · exact halike.field (hget ("prog_index", "prog_array_index") (by decide)) parseU32_byScalar
  · exact halike.textField (hget ("xdp_prog_name", "prog_name") (by decide))

theorem flat_absent {node : YamlNode} (h : ∀ key ∈ routeFlatKeys, mapGet doc node key = none) :
    flatRules doc node >=> flatPow doc node >=> flatTypes doc node = pure := by
  unfold flatRules flatPow flatTypes mapGet2
  rw [h "prefix" (by decide), h "suffix" (by decide), h "min_labels" (by decide),
    h "max_labels" (by decide), h "qname_min_len" (by decide), h "min_length" (by decide),
    h "qname_max_len" (by decide), h "max_length" (by decide), h "pow_difficulty" (by decide),
    h "allow_types" (by decide)]
  rfl

theorem parseRouteTarget_nested (hclosed : Closed doc) (hflat : FlatOnly doc)
    (hi : i ∈ routeItems doc) (hnode : doc.getNode i = some (.mapping pairs)) (cfg : Config) :
    parseRouteTarget (nestDocument doc) (.mapping (nestPairs doc i pairs)) cfg =
      parseRouteTarget doc (.mapping pairs) cfg := by
  have halike := nest_alike hclosed
  have hnested : Nested doc (.mapping pairs) (.mapping (nestPairs doc i pairs)) := ⟨i, hnode, rfl⟩
  have hkey : Untouched "domain" := untouched_keys "domain" (by decide)
  have hdomain := halike.bind_scalar (halike.mapGet hnested hkey)
  have htarget := halike.bind_scalar
    (rel_mapGet2 hclosed hflat hi hnode (m := ("target", "target_type")) (by decide))
  simp only [parseRouteTarget, hdomain, htarget]

/-- The flat keys and `filters` of a route, on both sides. -/
theorem routeSteps_nested (hclosed : Closed doc) (hflat : FlatOnly doc) (hi : i ∈ routeItems doc)
    (hnode : doc.getNode i = some (.mapping pairs)) :
    parseRouteFlat (nestDocument doc) (.mapping (nestPairs doc i pairs)) >=>
        stepField (mapGet (nestDocument doc) (.mapping (nestPairs doc i pairs)) "filters")
          (parseRouteFilters (nestDocument doc)) =
      parseRouteFlat doc (.mapping pairs) >=>
        stepField (mapGet doc (.mapping pairs) "filters") (parseRouteFilters doc) := by
  have hgone : ∀ key ∈ routeFlatKeys,
      mapGet (nestDocument doc) (.mapping (nestPairs doc i pairs)) key = none := by
    intro key hkey
    refine nest_gone hclosed hnode ?_
    unfold leaving
    rw [if_pos hi]
    exact List.mem_append_right _ hkey
  have hnone := hflat.routes i hi "filters" (by decide)
  rw [pairsAt_eq hnode] at hnone
  have hskip : stepField none (parseRouteFilters doc) = pure := rfl
  have hcomm : flatPow doc (.mapping pairs) >=> flatRules doc (.mapping pairs) =
      flatRules doc (.mapping pairs) >=> flatPow doc (.mapping pairs) := flatPow_commutes _
  rw [parseRouteFlat_eq, parseRouteFlat_eq, flat_absent hgone, fish_pure,
    flatNumbers_nested hclosed hflat hi hnode, nest_filters hclosed hflat hi hnode,
    parseRouteFilters_section hclosed hi hnode, hnone, hskip, fish_pure, ← fish_assoc (flatPow _ _),
    hcomm, fish_assoc (flatRules _ _)]

theorem parseRoute_nested (hclosed : Closed doc) (hflat : FlatOnly doc) (hi : i ∈ routeItems doc)
    (hsome : (doc.getNode i).isSome) (cfg : Config) :
    parseRoute (nestDocument doc) ((nestDocument doc).getNode i) cfg =
      parseRoute doc (doc.getNode i) cfg := by
  obtain ⟨node, hnode⟩ := Option.isSome_iff_exists.mp hsome
  rw [nest_getNode hnode, hnode]
  cases node with
  | scalar value => rfl
  | sequence items => rfl
  | mapping pairs =>
    rw [nestNode, parseRoute_mapping, parseRoute_mapping,
      parseRouteTarget_nested hclosed hflat hi hnode, routeSteps_nested hclosed hflat hi hnode]

end Routes

theorem getRootNode_eq (doc : YamlDocument) : doc.getRootNode = doc.getNode 1 :=
  List.head?_eq_getElem?

theorem routeItems_eq {doc : YamlDocument} {pairs : List (Nat × Nat)} {items : List Nat}
    (hroot : doc.getNode 1 = some (.mapping pairs))
    (hroutes : mapGet doc (.mapping pairs) "routes" = some (.sequence items)) :
    routeItems doc = items := by
  unfold routeItems
  rw [pairsAt_eq hroot, hroutes]

/-- **The flat and the nested schema mean the same.** For every document with flat keys only, the
    document with each value moved to its nested key gives the same result: the same configuration, or
    the same messages. So does every document that differs from it in the numbers of nodes, as that of
    the nested file does. -/
theorem nestDocument_parse (doc : YamlDocument) (hclosed : Closed doc) (hflat : FlatOnly doc) :
    parseConfigYaml (nestDocument doc) = parseConfigYaml doc ∧
      ∀ doc', Renumbered (nestDocument doc) doc' → parseConfigYaml doc' = parseConfigYaml doc := by
  suffices hnested : parseConfigYaml (nestDocument doc) = parseConfigYaml doc from
    ⟨hnested, fun doc' h => h.parseConfigYaml.trans hnested⟩
  rcases hroot : doc.getNode 1 with _ | node
  · -- no root: the new document starts with the text of a key
    have hlen : doc.nodes.length ≤ 0 := List.getElem?_eq_none_iff.mp hroot
    have hempty : doc.nodes = [] := List.eq_nil_of_length_eq_zero (Nat.le_zero.mp hlen)
    have hnest : (nestDocument doc).getRootNode = some (.scalar (ascii "global")) := by
      rw [getRootNode_eq, getNode_succ, nestDocument, hempty]
      rfl
    simp only [parseConfigYaml, hnest, getRootNode_eq doc, hroot]
  · have hnest := nest_getNode hroot
    rw [← getRootNode_eq] at hnest
    have hdoc := getRootNode_eq doc
    rw [hroot] at hdoc
    cases node with
    | scalar value => simp only [parseConfigYaml, hnest, hdoc, nestNode]
    | sequence items => simp only [parseConfigYaml, hnest, hdoc, nestNode]
    | mapping pairs =>
      have halike := nest_alike hclosed
      have hnested : Nested doc (.mapping pairs) (.mapping (nestPairs doc 1 pairs)) :=
        ⟨1, hroot, rfl⟩
      have hkey : Untouched "routes" := untouched_keys "routes" (by decide)
      refine parseConfigYaml_congr hdoc hnest (parseHead_nested hclosed hflat hroot)
        (halike.mapGet hnested hkey) fun node node' hroutes hnode cfg => ?_
      obtain ⟨j, hj, rfl⟩ := hnode
      cases node with
      | scalar value => rfl
      | mapping pairs => rfl
      | sequence items =>
        refine congrArg (· >>= _) (routeLoop_congr (List.forall₂_same.mpr fun i hi => ?_) [])
        have hitem : i ∈ routeItems doc := by rwa [routeItems_eq hroot hroutes]
        exact parseRoute_nested hclosed hflat hitem (hclosed _ (getNode_mem hj) i hi) cfg

/-- A flat document: an interface and a network at the root, and a route with both names of its least
    length, a proof of work and its types. -/
def flatDocument : YamlDocument where
  nodes :=
    [.mapping [(2, 3), (4, 5), (7, 8)],
      .scalar (ascii "interface"), .scalar (ascii "eth1"),
      .scalar (ascii "blacklist"), .sequence [6], .scalar (ascii "10.0.0.0/8"),
      .scalar (ascii "routes"), .sequence [9],
      .mapping [(10, 11), (12, 13), (14, 15), (16, 17), (18, 19), (20, 21)],
      .scalar (ascii "domain"), .scalar (ascii "a"),
      .scalar (ascii "target"), .scalar (ascii "user_space"),
      .scalar (ascii "min_length"), .scalar (ascii "9"),
      .scalar (ascii "qname_min_len"), .scalar (ascii "4"),
      .scalar (ascii "pow_difficulty"), .scalar (ascii "12"),
      .scalar (ascii "allow_types"), .scalar (ascii "AAAA")]

/-- Its configuration; the missing bound is that of its pair. -/
def flatConfig : Config :=
  { configInitDefaults with
    interface := CStr.lit "eth1"
    blacklist := [CStr.lit "10.0.0.0/8"]
    routes := [{ sampleRoute 0 with
      qnameMinLen := 4
      qnameMaxLen := 4
      rrtypeMask := rrtypeAaaa
      powDifficulty := 12
      bloomEnabled := false
      bloomSize := 0
      bloomHashFunctions := 0
      bloomSeeds := [] }] }

set_option maxRecDepth 4000 in
theorem parse_flatDocument : parseConfigYaml flatDocument = .ok flatConfig := by decide +kernel

theorem nestDocument_parse_sample : parseConfigYaml (nestDocument flatDocument) = .ok flatConfig := by
  rw [← parse_flatDocument]
  exact (nestDocument_parse flatDocument (by decide +kernel)
    ⟨by decide +kernel, by decide +kernel⟩).1

end Zereh.Control
