/-
  From the flat schema to the nested one.

  `nestDocument` moves every flat value to its nested key: those of the root into `global` and
  `global_filters`, those of a route to their new names beside it or into `filters`. The nodes of the
  document keep their numbers. The texts of the new keys and the new sections stand after them, and a
  section is written only where a value moves into it. Where two flat names share a nested one
  (`qname_min_len` and `min_length`), the one that the parser prefers comes first.

  The lookups in the new document (`rel_movedPairs`, `rel_kept`) are all that the parser sees of it.
-/
import Mathlib.Data.List.Basic
import Zereh.Control.Alike

namespace Zereh.Control

open Lib

/-! ## Which keys move -/

/-- Flat keys of the root with their names in `global`. -/
def globalMoves : List (String × String) :=
  [("interface", "interface"), ("xdp_mode", "xdp_mode"), ("default_action", "default_action")]

/-- Flat keys of the root with their names in `global_filters`. -/
def filterMoves : List (String × String) :=
  [("blacklist", "ip_blacklist"), ("max_packet_size", "max_packet_size"),
    ("allowed_opcodes", "allowed_opcodes"), ("drop_truncated", "drop_truncated")]

/-- Flat keys of a route with their other names in the route. -/
def targetMoves : List (String × String) :=
  [("target", "target_type"), ("xsk_queue", "xsk_map_index"), ("kernel_port", "forward_port"),
    ("prog_index", "prog_array_index"), ("xdp_prog_name", "prog_name")]

/-- Flat keys of a route with their names in `filters.qname_rules`. -/
def qnameMoves : List (String × String) :=
  [("prefix", "prefix_match"), ("suffix", "suffix_match"), ("min_labels", "min_labels"),
    ("max_labels", "max_labels"), ("qname_min_len", "min_length"), ("min_length", "min_length"),
    ("qname_max_len", "max_length"), ("max_length", "max_length")]

/-- The flat key of a route that moves to `filters.pow`. -/
def powMoves : List (String × String) := [("pow_difficulty", "difficulty")]

/-- The flat key of a route that moves to `filters.dns_types`. -/
def typeMoves : List (String × String) := [("allow_types", "allow")]

def rootFlatKeys : List String := (globalMoves ++ filterMoves).map Prod.fst

def routeFlatKeys : List String :=
  (targetMoves ++ qnameMoves ++ powMoves ++ typeMoves).map Prod.fst

def rootNestedKeys : List String := ["global", "global_filters"]

def routeNestedKeys : List String := targetMoves.map Prod.snd ++ ["filters"]

/-- The texts of all keys that a nested document may need. -/
def newKeys : List String :=
  rootNestedKeys ++ routeNestedKeys ++ ["qname_rules", "pow", "dns_types"] ++
    (globalMoves ++ filterMoves ++ qnameMoves ++ powMoves ++ typeMoves).map Prod.snd

/-! ## The new document -/

section Document

variable (doc : YamlDocument)

/-- A pair with this key. -/
def hasKey (key : String) (pair : Nat × Nat) : Bool :=
  doc.getNode pair.1 = some (.scalar (ascii key))

/-- The pairs of a node that is a mapping. -/
def pairsAt (i : Nat) : List (Nat × Nat) := ((doc.getNode i).map YamlNode.pairs).getD []

/-- The node numbers of the routes. -/
def routeItems : List Nat :=
  match mapGet doc (.mapping (pairsAt doc 1)) "routes" with
  | some (.sequence items) => items
  | _ => []

/-- Where the new document has the text of a key. -/
def keyNumber (key : String) : Nat := doc.nodes.length + newKeys.idxOf key + 1

/-- Where the new document has a section: two for the root, then four for each route. -/
def sectionNumber (k : Nat) : Nat := doc.nodes.length + newKeys.length + k + 1

def routeSection (i : Nat) : Nat := 4 * (routeItems doc).idxOf i + 2

/-- The pairs under flat keys, with their nested keys. -/
def movedPairs (moves : List (String × String)) (pairs : List (Nat × Nat)) : List (Nat × Nat) :=
  moves.flatMap fun m => (pairs.filter (hasKey doc m.1)).map fun pair => (keyNumber doc m.2, pair.2)

/-- The pairs whose keys are none of these. -/
def kept (names : List String) (pairs : List (Nat × Nat)) : List (Nat × Nat) :=
  pairs.filter fun pair => names.all fun key => !hasKey doc key pair

/-- The pair for a section, if it has any content. -/
def sectionPair (name : String) (k : Nat) (content : List (Nat × Nat)) : List (Nat × Nat) :=
  if content = [] then [] else [(keyNumber doc name, sectionNumber doc k)]

def globalPairs : List (Nat × Nat) := movedPairs doc globalMoves (pairsAt doc 1)

def globalFilterPairs : List (Nat × Nat) := movedPairs doc filterMoves (pairsAt doc 1)

def qnamePairs (i : Nat) : List (Nat × Nat) := movedPairs doc qnameMoves (pairsAt doc i)

def powPairs (i : Nat) : List (Nat × Nat) := movedPairs doc powMoves (pairsAt doc i)

def typePairs (i : Nat) : List (Nat × Nat) := movedPairs doc typeMoves (pairsAt doc i)

/-- `filters` of a route. -/
def filtersPairs (i : Nat) : List (Nat × Nat) :=
  sectionPair doc "qname_rules" (routeSection doc i + 1) (qnamePairs doc i) ++
    sectionPair doc "pow" (routeSection doc i + 2) (powPairs doc i) ++
    sectionPair doc "dns_types" (routeSection doc i + 3) (typePairs doc i)

/-- What the root gets. -/
def rootAdded : List (Nat × Nat) :=
  sectionPair doc "global" 0 (globalPairs doc) ++
    sectionPair doc "global_filters" 1 (globalFilterPairs doc)

/-- What a route gets. -/
def routeAdded (i : Nat) : List (Nat × Nat) :=
  movedPairs doc targetMoves (pairsAt doc i) ++
    sectionPair doc "filters" (routeSection doc i) (filtersPairs doc i)

/-- The keys that leave a node. -/
def leaving (i : Nat) : List String :=
  (if i = 1 then rootFlatKeys else []) ++ (if i ∈ routeItems doc then routeFlatKeys else [])

/-- The pairs of a mapping without those that leave, and with those that it gets. -/
def nestPairs (i : Nat) (pairs : List (Nat × Nat)) : List (Nat × Nat) :=
  kept doc (leaving doc i) pairs ++
    (if i = 1 then rootAdded doc else []) ++ (if i ∈ routeItems doc then routeAdded doc i else [])

def nestNode (i : Nat) : YamlNode → YamlNode
  | .mapping pairs => .mapping (nestPairs doc i pairs)
  | node => node

/-- The sections, in the order of their numbers. -/
def newSections : List YamlNode :=
  [.mapping (globalPairs doc), .mapping (globalFilterPairs doc)] ++
    (routeItems doc).flatMap fun i => [.mapping (filtersPairs doc i), .mapping (qnamePairs doc i),
      .mapping (powPairs doc i), .mapping (typePairs doc i)]

/-- **The nested document.** -/
def nestDocument : YamlDocument where
  nodes := doc.nodes.mapIdx (fun k node => nestNode doc (k + 1) node) ++
    newKeys.map (fun key => .scalar (ascii key)) ++ newSections doc

end Document

/-! ## Numbers -/

section Numbers

variable {doc : YamlDocument}

/-- The numbers that a node holds. -/
def YamlNode.numbers : YamlNode → List Nat
  | .scalar _ => []
  | .sequence items => items
  | .mapping pairs => pairs.flatMap fun pair => [pair.1, pair.2]

/-- Every number in a document is that of one of its nodes, as in every document that libyaml
    loads. -/
def Closed (doc : YamlDocument) : Prop :=
  ∀ node ∈ doc.nodes, ∀ i ∈ node.numbers, (doc.getNode i).isSome

instance (doc : YamlDocument) : Decidable (Closed doc) :=
  inferInstanceAs (Decidable (∀ node ∈ doc.nodes, ∀ i ∈ node.numbers, (doc.getNode i).isSome))

theorem getNode_succ (doc : YamlDocument) (k : Nat) : doc.getNode (k + 1) = doc.nodes[k]? := rfl

theorem getNode_eq_some {i : Nat} {node : YamlNode} (h : doc.getNode i = some node) :
    ∃ k, i = k + 1 ∧ doc.nodes[k]? = some node := by
  cases i with
  | zero => cases h
  | succ k => exact ⟨k, rfl, h⟩

theorem getNode_mem {i : Nat} {node : YamlNode} (h : doc.getNode i = some node) :
    node ∈ doc.nodes := by
  obtain ⟨k, -, hk⟩ := getNode_eq_some h
  exact List.mem_of_getElem? hk

/-- The nodes keep their numbers. -/
theorem nest_getNode {i : Nat} {node : YamlNode} (h : doc.getNode i = some node) :
    (nestDocument doc).getNode i = some (nestNode doc i node) := by
  obtain ⟨k, rfl, hk⟩ := getNode_eq_some h
  have hlt : k < doc.nodes.length := (List.getElem?_eq_some_iff.mp hk).1
  rw [getNode_succ, nestDocument, List.append_assoc, List.getElem?_append_left (by simpa using hlt),
    List.getElem?_mapIdx, hk]
  rfl

theorem nest_keyNumber {key : String} (hkey : key ∈ newKeys) :
    (nestDocument doc).getNode (keyNumber doc key) = some (.scalar (ascii key)) := by
  have hlt : newKeys.idxOf key < newKeys.length := List.idxOf_lt_length_of_mem hkey
  unfold keyNumber
  rw [getNode_succ, nestDocument, List.append_assoc, List.getElem?_append_right (by simp),
    List.getElem?_append_left (by simpa using hlt), List.getElem?_map]
  simp [List.getElem?_idxOf hkey]

theorem nest_sectionNumber (k : Nat) :
    (nestDocument doc).getNode (sectionNumber doc k) = (newSections doc)[k]? := by
  unfold sectionNumber
  rw [getNode_succ, nestDocument, List.getElem?_append_right (by simp)]
  simp

/-- Equal pieces laid end to end. -/
theorem getElem?_flatMap_of_length {α β : Type} {f : α → List β} {m : Nat}
    (hf : ∀ a, (f a).length = m) (l : List α) (k : Nat) {j : Nat} (hj : j < m) :
    (l.flatMap f)[m * k + j]? = l[k]?.bind fun a => (f a)[j]? := by
  induction l generalizing k with
  | nil => rfl
  | cons a l ih =>
    rw [List.flatMap_cons]
    cases k with
    | zero =>
      rw [Nat.mul_zero, Nat.zero_add, List.getElem?_append_left (by rw [hf]; exact hj)]
      rfl
    | succ k =>
      rw [List.getElem?_append_right (by rw [hf, Nat.mul_succ]; omega), hf,
        show m * (k + 1) + j - m = m * k + j by rw [Nat.mul_succ]; omega, ih]
      rfl

theorem nest_routeSection {i : Nat} (hi : i ∈ routeItems doc) {j : Nat} (hj : j < 4) :
    (nestDocument doc).getNode (sectionNumber doc (routeSection doc i + j)) =
      [YamlNode.mapping (filtersPairs doc i), .mapping (qnamePairs doc i),
        .mapping (powPairs doc i), .mapping (typePairs doc i)][j]? := by
  have hfour := getElem?_flatMap_of_length (m := 4)
    (f := fun i => [YamlNode.mapping (filtersPairs doc i), .mapping (qnamePairs doc i),
      .mapping (powPairs doc i), .mapping (typePairs doc i)]) (fun _ => rfl) (routeItems doc)
    ((routeItems doc).idxOf i) hj
  have hslot : routeSection doc i + j = 2 + (4 * (routeItems doc).idxOf i + j) := by
    unfold routeSection
    omega
  rw [nest_sectionNumber, newSections, hslot, List.getElem?_append_right (by simp)]
  simpa [List.getElem?_idxOf hi] using hfour

end Numbers

/-! ## Lookup -/

section Lookup

variable {doc : YamlDocument} {key : String} {pairs : List (Nat × Nat)}

/-- A node of the document and the one in its place. -/
def Nested (doc : YamlDocument) (node node' : YamlNode) : Prop :=
  ∃ i, doc.getNode i = some node ∧ node' = nestNode doc i node

theorem rel_getNode {i : Nat} (h : (doc.getNode i).isSome) :
    Option.Rel (Nested doc) (doc.getNode i) ((nestDocument doc).getNode i) := by
  obtain ⟨node, hnode⟩ := Option.isSome_iff_exists.mp h
  rw [hnode, nest_getNode hnode]
  exact .some ⟨i, hnode, rfl⟩

theorem pairValue_eq_ite (doc : YamlDocument) (key : String) (pair : Nat × Nat) :
    pairValue doc key pair = if hasKey doc key pair then doc.getNode pair.2 else none := by
  unfold pairValue hasKey
  rcases doc.getNode pair.1 with _ | (value | items | ps)
  · simp
  · by_cases hvalue : value = ascii key
    · cases doc.getNode pair.2 <;> simp [hvalue]
    · cases doc.getNode pair.2 <;> simp [hvalue]
  · simp
  · simp

theorem nest_hasKey {pair : Nat × Nat} (h : (doc.getNode pair.1).isSome) :
    hasKey (nestDocument doc) key pair = hasKey doc key pair := by
  obtain ⟨node, hnode⟩ := Option.isSome_iff_exists.mp h
  unfold hasKey
  rw [nest_getNode hnode, hnode]
  cases node <;> simp [nestNode]

/-- A pair of the document under a nested key. -/
theorem nest_hasKey_keyNumber {name : String} (hname : name ∈ newKeys) (v : Nat) :
    hasKey (nestDocument doc) key (keyNumber doc name, v) = decide (ascii name = ascii key) := by
  unfold hasKey
  rw [nest_keyNumber hname]
  simp

/-- The pairs of a document whose numbers are those of nodes. -/
def ClosedPairs (doc : YamlDocument) (pairs : List (Nat × Nat)) : Prop :=
  ∀ pair ∈ pairs, (doc.getNode pair.1).isSome ∧ (doc.getNode pair.2).isSome

theorem Closed.closedPairs (h : Closed doc) {i : Nat} (hnode : doc.getNode i = some (.mapping pairs)) :
    ClosedPairs doc pairs := by
  intro pair hpair
  have hall := h _ (getNode_mem hnode)
  refine ⟨hall pair.1 (List.mem_flatMap.mpr ⟨pair, hpair, by simp⟩),
    hall pair.2 (List.mem_flatMap.mpr ⟨pair, hpair, by simp⟩)⟩

theorem nest_pairValue {pair : Nat × Nat}
    (h : (doc.getNode pair.1).isSome ∧ (doc.getNode pair.2).isSome) :
    Option.Rel (Nested doc) (pairValue doc key pair) (pairValue (nestDocument doc) key pair) := by
  rw [pairValue_eq_ite, pairValue_eq_ite, nest_hasKey h.1]
  split
  · exact rel_getNode h.2
  · exact .none

theorem findSome?_filter_of {α β : Type} {f : α → Option β} {p : α → Bool} (l : List α)
    (h : ∀ a ∈ l, p a = false → f a = none) : (l.filter p).findSome? f = l.findSome? f := by
  induction l with
  | nil => rfl
  | cons a l ih =>
    have htail := ih fun b hb => h b (List.mem_cons_of_mem _ hb)
    cases hp : p a with
    | false => rw [List.filter_cons_of_neg (by simp [hp]), List.findSome?_cons,
        h a List.mem_cons_self hp, htail]
    | true => rw [List.filter_cons_of_pos hp, List.findSome?_cons, List.findSome?_cons, htail]

theorem hasKey_unique {name : String} {pair : Nat × Nat} (h : hasKey doc name pair = true)
    (hne : ascii name ≠ ascii key) : hasKey doc key pair = false := by
  have h := of_decide_eq_true h
  unfold hasKey
  rw [h]
  simpa using hne

/-- Taking pairs out does not change what the other keys have. -/
theorem findSome?_kept {names : List String} (hkey : ∀ name ∈ names, ascii name ≠ ascii key) :
    (kept doc names pairs).findSome? (pairValue doc key) = mapGet doc (.mapping pairs) key := by
  refine findSome?_filter_of pairs fun pair _ hleaves => ?_
  obtain ⟨name, hname, hhas⟩ := List.all_eq_false.mp hleaves
  rw [pairValue_eq_ite, hasKey_unique (by simpa using hhas) (hkey name hname)]
  rfl

/-- A key that does not leave is found among the pairs that stay. -/
theorem rel_kept (hclosed : ClosedPairs doc pairs) {names : List String}
    (hkey : ∀ name ∈ names, ascii name ≠ ascii key) :
    Option.Rel (Nested doc) (mapGet doc (.mapping pairs) key)
      ((kept doc names pairs).findSome? (pairValue (nestDocument doc) key)) := by
  rw [← findSome?_kept hkey]
  exact rel_findSome _ fun pair hpair => nest_pairValue (hclosed pair (List.mem_of_mem_filter hpair))

/-- A key that leaves is not. -/
theorem kept_findSome?_none (hclosed : ClosedPairs doc pairs) {names : List String}
    (hkey : key ∈ names) :
    (kept doc names pairs).findSome? (pairValue (nestDocument doc) key) = none := by
  rw [List.findSome?_eq_none_iff]
  intro pair hpair
  have hstays := List.all_eq_true.mp (List.mem_filter.mp hpair).2 key hkey
  have hfalse : hasKey doc key pair = false := by simpa using hstays
  rw [pairValue_eq_ite, nest_hasKey (hclosed pair (List.mem_of_mem_filter hpair)).1, hfalse]
  rfl

/-- What flat keys have for a nested one. -/
def movedGet (doc : YamlDocument) (node : YamlNode) (moves : List (String × String))
    (key : String) : Option YamlNode :=
  moves.findSome? fun m => if ascii m.2 = ascii key then mapGet doc node m.1 else none

theorem movedGet_nil (doc : YamlDocument) (node : YamlNode) (key : String) :
    movedGet doc node [] key = none := rfl

theorem movedGet_cons (node : YamlNode) (m : String × String) (moves : List (String × String)) :
    movedGet doc node (m :: moves) key =
      (if ascii m.2 = ascii key then mapGet doc node m.1 else none).or
        (movedGet doc node moves key) := by
  unfold movedGet
  rw [List.findSome?_cons]
  cases (if ascii m.2 = ascii key then mapGet doc node m.1 else none) <;> rfl

/-- The pairs of one flat key under its nested one. -/
theorem rel_renamed (hclosed : ClosedPairs doc pairs) {m : String × String}
    (hnew : m.2 ∈ newKeys) :
    Option.Rel (Nested doc)
      (if ascii m.2 = ascii key then mapGet doc (.mapping pairs) m.1 else none)
      (((pairs.filter (hasKey doc m.1)).map fun pair => (keyNumber doc m.2, pair.2)).findSome?
        (pairValue (nestDocument doc) key)) := by
  rw [List.findSome?_map]
  split
  · rename_i hkey
    have hsame : (pairs.filter (hasKey doc m.1)).findSome? (pairValue doc m.1) =
        mapGet doc (.mapping pairs) m.1 := by
      refine findSome?_filter_of pairs fun pair _ hother => ?_
      rw [pairValue_eq_ite, hother]
      rfl
    rw [← hsame]
    refine rel_findSome _ fun pair hpair => ?_
    obtain ⟨hmem, hhas⟩ := List.mem_filter.mp hpair
    rw [Function.comp_apply, pairValue_eq_ite, pairValue_eq_ite, nest_hasKey_keyNumber hnew, hhas,
      decide_eq_true hkey]
    exact rel_getNode (hclosed pair hmem).2
  · rename_i hkey
    rw [List.findSome?_eq_none_iff.mpr fun pair _ => ?_]
    · exact .none
    · rw [Function.comp_apply, pairValue_eq_ite, nest_hasKey_keyNumber hnew, decide_eq_false hkey]
      rfl

theorem rel_movedPairs (hclosed : ClosedPairs doc pairs) (moves : List (String × String))
    (hnew : ∀ m ∈ moves, m.2 ∈ newKeys) (key : String) :
    Option.Rel (Nested doc) (movedGet doc (.mapping pairs) moves key)
      ((movedPairs doc moves pairs).findSome? (pairValue (nestDocument doc) key)) := by
  induction moves with
  | nil => exact .none
  | cons m moves ih =>
    have htail := ih fun m' hm' => hnew m' (List.mem_cons_of_mem _ hm')
    rw [movedGet_cons, movedPairs, List.flatMap_cons, List.findSome?_append]
    exact rel_or (rel_renamed hclosed (hnew m List.mem_cons_self)) htail

/-- A section that is there when it has any content. -/
def sectionNode (content : List (Nat × Nat)) : Option YamlNode :=
  if content = [] then none else some (.mapping content)

theorem sectionPair_get {name : String} (hname : name ∈ newKeys) {k : Nat}
    {content : List (Nat × Nat)}
    (hsection : (nestDocument doc).getNode (sectionNumber doc k) = some (.mapping content)) :
    (sectionPair doc name k content).findSome? (pairValue (nestDocument doc) key) =
      if ascii name = ascii key then sectionNode content else none := by
  unfold sectionPair sectionNode
  by_cases hcontent : content = []
  · simp [hcontent]
  · rw [if_neg hcontent, if_neg hcontent, List.findSome?_cons, List.findSome?_nil, pairValue_eq_ite,
      nest_hasKey_keyNumber hname, hsection]
    by_cases hkey : ascii name = ascii key
    · simp [hkey]
    · simp [hkey]

/-! ## The root and the routes -/

/-- The keys that come or go. -/
def touchedKeys : List String :=
  rootFlatKeys ++ routeFlatKeys ++ rootNestedKeys ++ routeNestedKeys

def Untouched (key : String) : Prop := ∀ name ∈ touchedKeys, ascii name ≠ ascii key

instance : DecidablePred Untouched := fun key =>
  inferInstanceAs (Decidable (∀ name ∈ touchedKeys, ascii name ≠ ascii key))

theorem Closed.pairsAt (h : Closed doc) (i : Nat) : ClosedPairs doc (pairsAt doc i) := by
  unfold Control.pairsAt
  rcases hnode : doc.getNode i with _ | (value | items | ps)
  · exact fun pair hpair => absurd hpair List.not_mem_nil
  · exact fun pair hpair => absurd hpair List.not_mem_nil
  · exact fun pair hpair => absurd hpair List.not_mem_nil
  · exact h.closedPairs hnode

theorem nest_section_global :
    (nestDocument doc).getNode (sectionNumber doc 0) = some (.mapping (globalPairs doc)) := by
  rw [nest_sectionNumber]
  rfl

theorem nest_section_globalFilters :
    (nestDocument doc).getNode (sectionNumber doc 1) =
      some (.mapping (globalFilterPairs doc)) := by
  rw [nest_sectionNumber]
  rfl

theorem rootAdded_get (doc : YamlDocument) (key : String) :
    (rootAdded doc).findSome? (pairValue (nestDocument doc) key) =
      (if ascii "global" = ascii key then sectionNode (globalPairs doc) else none).or
        (if ascii "global_filters" = ascii key then sectionNode (globalFilterPairs doc) else none) := by
  rw [rootAdded, List.findSome?_append, sectionPair_get (by decide) nest_section_global,
    sectionPair_get (by decide) nest_section_globalFilters]

theorem targetMoves_new : ∀ m ∈ targetMoves, m.2 ∈ newKeys := by decide

theorem rel_routeAdded (hclosed : Closed doc) {i : Nat} (hi : i ∈ routeItems doc) (key : String) :
    ∃ v, Option.Rel (Nested doc) (movedGet doc (.mapping (pairsAt doc i)) targetMoves key) v ∧
      (routeAdded doc i).findSome? (pairValue (nestDocument doc) key) =
        v.or (if ascii "filters" = ascii key then sectionNode (filtersPairs doc i) else none) := by
  have hsection : (nestDocument doc).getNode (sectionNumber doc (routeSection doc i)) =
      some (.mapping (filtersPairs doc i)) := nest_routeSection hi (j := 0) (by decide)
  refine ⟨_, rel_movedPairs (hclosed.pairsAt i) targetMoves targetMoves_new key, ?_⟩
  rw [routeAdded, List.findSome?_append, sectionPair_get (by decide) hsection]

/-- The lookups in a mapping of the new document. -/
theorem nest_mapGet (doc : YamlDocument) (i : Nat) (pairs : List (Nat × Nat)) (key : String) :
    mapGet (nestDocument doc) (.mapping (nestPairs doc i pairs)) key =
      ((kept doc (leaving doc i) pairs).findSome? (pairValue (nestDocument doc) key)).or
        ((if i = 1 then (rootAdded doc).findSome? (pairValue (nestDocument doc) key) else none).or
          (if i ∈ routeItems doc then
            (routeAdded doc i).findSome? (pairValue (nestDocument doc) key) else none)) := by
  rw [mapGet_mapping, nestPairs, List.findSome?_append, List.findSome?_append, Option.or_assoc]
  congr 2
  · split <;> rfl
  · split <;> rfl

theorem rootAdded_none (h : ∀ name ∈ rootNestedKeys, ascii name ≠ ascii key) :
    (rootAdded doc).findSome? (pairValue (nestDocument doc) key) = none := by
  rw [rootAdded_get, if_neg (h _ (by decide)), if_neg (h _ (by decide))]
  rfl

theorem movedGet_none {node : YamlNode} {moves : List (String × String)}
    (h : ∀ m ∈ moves, ascii m.2 ≠ ascii key) : movedGet doc node moves key = none := by
  unfold movedGet
  rw [List.findSome?_eq_none_iff]
  exact fun m hm => if_neg (h m hm)

theorem routeAdded_none (hclosed : Closed doc) {i : Nat} (hi : i ∈ routeItems doc)
    (h : ∀ name ∈ routeNestedKeys, ascii name ≠ ascii key) :
    (routeAdded doc i).findSome? (pairValue (nestDocument doc) key) = none := by
  obtain ⟨v, hrel, heq⟩ := rel_routeAdded hclosed hi key
  have hmoves : ∀ m ∈ targetMoves, ascii m.2 ≠ ascii key := fun m hm =>
    h m.2 (List.mem_append_left _ (List.mem_map_of_mem hm))
  rw [movedGet_none hmoves] at hrel
  cases hrel
  rw [heq, if_neg (h _ (by decide))]
  rfl

theorem leaving_subset (doc : YamlDocument) (i : Nat) :
    ∀ name ∈ leaving doc i, name ∈ rootFlatKeys ++ routeFlatKeys := by
  intro name hname
  unfold leaving at hname
  rcases List.mem_append.mp hname with hname | hname
  · split at hname
    · exact List.mem_append_left _ hname
    · cases hname
  · split at hname
    · exact List.mem_append_right _ hname
    · cases hname

/-- Keys that neither come nor go are found as before. -/
theorem nest_alike (hclosed : Closed doc) :
    Alike Untouched doc (nestDocument doc) (Nested doc) := by
  rintro node node' ⟨i, hnode, rfl⟩
  cases node with
  | scalar value => exact .scalar value
  | sequence items =>
    exact .sequence items items (List.forall₂_same.mpr fun j hj =>
      rel_getNode (hclosed _ (getNode_mem hnode) j hj))
  | mapping pairs =>
    refine .mapping pairs _ fun key hkey => ?_
    have hleaving : ∀ name ∈ leaving doc i, ascii name ≠ ascii key := fun name hname =>
      hkey name (List.mem_append_left _ (List.mem_append_left _ (leaving_subset doc i name hname)))
    have hroot : ∀ name ∈ rootNestedKeys, ascii name ≠ ascii key := fun name hname =>
      hkey name (List.mem_append_left _ (List.mem_append_right _ hname))
    have hroute : ∀ name ∈ routeNestedKeys, ascii name ≠ ascii key := fun name hname =>
      hkey name (List.mem_append_right _ hname)
    have hkept := rel_kept (hclosed.closedPairs hnode) hleaving
    rw [nest_mapGet, rootAdded_none hroot, ite_self, Option.none_or]
    split
    · rename_i hi
      rw [routeAdded_none hclosed hi hroute, Option.or_none]
      exact hkept
    · rw [Option.or_none]
      exact hkept

/-- Flat keys are other keys than nested ones, and those of the root others than those of a route. -/
theorem keys_apart :
    (∀ flat ∈ rootFlatKeys ++ routeFlatKeys, ∀ name ∈ rootNestedKeys ++ routeNestedKeys,
      ascii name ≠ ascii flat) ∧
    ∀ key ∈ rootNestedKeys, ∀ name ∈ routeNestedKeys, ascii name ≠ ascii key := by
  decide +kernel

/-- Flat keys are gone. -/
theorem nest_gone (hclosed : Closed doc) {i : Nat} (hnode : doc.getNode i = some (.mapping pairs))
    (hkey : key ∈ leaving doc i) :
    mapGet (nestDocument doc) (.mapping (nestPairs doc i pairs)) key = none := by
  have hnew := keys_apart.1 key (leaving_subset doc i key hkey)
  rw [nest_mapGet, kept_findSome?_none (hclosed.closedPairs hnode) hkey,
    rootAdded_none fun name hname => hnew name (List.mem_append_left _ hname), ite_self]
  split
  · rename_i hi
    rw [routeAdded_none hclosed hi fun name hname => hnew name (List.mem_append_right _ hname)]
    rfl
  · rfl

/-- Nested keys are found among what was added, where the flat document has none. -/
theorem nest_added (hclosed : Closed doc) {i : Nat} (hnode : doc.getNode i = some (.mapping pairs))
    (hkey : key ∈ rootNestedKeys ++ routeNestedKeys)
    (hflat : mapGet doc (.mapping pairs) key = none) :
    mapGet (nestDocument doc) (.mapping (nestPairs doc i pairs)) key =
      (if i = 1 then (rootAdded doc).findSome? (pairValue (nestDocument doc) key) else none).or
        (if i ∈ routeItems doc then
          (routeAdded doc i).findSome? (pairValue (nestDocument doc) key) else none) := by
  have hnew : ∀ key ∈ rootNestedKeys ++ routeNestedKeys, ∀ name ∈ rootFlatKeys ++ routeFlatKeys,
      ascii name ≠ ascii key := fun key hkey name hname => (keys_apart.1 name hname key hkey).symm
  have hkept : Option.Rel (Nested doc) (mapGet doc (.mapping pairs) key)
      ((kept doc (leaving doc i) pairs).findSome? (pairValue (nestDocument doc) key)) :=
    rel_kept (hclosed.closedPairs hnode)
      fun name hname => hnew key hkey name (leaving_subset doc i name hname)
  rw [hflat] at hkept
  cases hnone : (kept doc (leaving doc i) pairs).findSome? (pairValue (nestDocument doc) key) with
  | none => rw [nest_mapGet, hnone, Option.none_or]
  | some node =>
    rw [hnone] at hkept
    cases hkept

end Lookup

/-! ## Sections -/

section Sections

variable {doc : YamlDocument} {pairs : List (Nat × Nat)} {i : Nat}

/-- A document that has flat keys only. -/
structure FlatOnly (doc : YamlDocument) : Prop where
  root : ∀ key ∈ rootNestedKeys, mapGet doc (.mapping (pairsAt doc 1)) key = none
  routes : ∀ i ∈ routeItems doc, ∀ key ∈ routeNestedKeys,
    mapGet doc (.mapping (pairsAt doc i)) key = none

theorem pairsAt_eq (hnode : doc.getNode i = some (.mapping pairs)) : pairsAt doc i = pairs := by
  unfold pairsAt
  rw [hnode]
  rfl

theorem nest_rootSection (hclosed : Closed doc) (hflat : FlatOnly doc)
    (hroot : doc.getNode 1 = some (.mapping pairs)) {key : String} (hkey : key ∈ rootNestedKeys) :
    mapGet (nestDocument doc) (.mapping (nestPairs doc 1 pairs)) key =
      (if ascii "global" = ascii key then sectionNode (globalPairs doc) else none).or
        (if ascii "global_filters" = ascii key then sectionNode (globalFilterPairs doc)
          else none) := by
  have hother := keys_apart.2
  have hnone := hflat.root key hkey
  rw [pairsAt_eq hroot] at hnone
  rw [nest_added hclosed hroot (List.mem_append_left _ hkey) hnone, if_pos rfl, rootAdded_get]
  by_cases hi : 1 ∈ routeItems doc
  · rw [if_pos hi, routeAdded_none hclosed hi (hother key hkey), Option.or_none]
  · rw [if_neg hi, Option.or_none]

/-- A route under its nested keys. -/
theorem nest_route (hclosed : Closed doc) (hflat : FlatOnly doc) (hi : i ∈ routeItems doc)
    (hnode : doc.getNode i = some (.mapping pairs)) {key : String} (hkey : key ∈ routeNestedKeys) :
    ∃ v, Option.Rel (Nested doc) (movedGet doc (.mapping pairs) targetMoves key) v ∧
      mapGet (nestDocument doc) (.mapping (nestPairs doc i pairs)) key =
        v.or (if ascii "filters" = ascii key then sectionNode (filtersPairs doc i) else none) := by
  have hother : ∀ key ∈ routeNestedKeys, ∀ name ∈ rootNestedKeys, ascii name ≠ ascii key :=
    fun key hkey name hname => (keys_apart.2 name hname key hkey).symm
  have hnone := hflat.routes i hi key hkey
  obtain ⟨v, hrel, heq⟩ := rel_routeAdded hclosed hi key
  rw [pairsAt_eq hnode] at hnone hrel
  refine ⟨v, hrel, ?_⟩
  rw [nest_added hclosed hnode (List.mem_append_right _ hkey) hnone,
    rootAdded_none (hother key hkey), ite_self, if_pos hi, heq, Option.none_or]

theorem nest_target (hclosed : Closed doc) (hflat : FlatOnly doc) (hi : i ∈ routeItems doc)
    (hnode : doc.getNode i = some (.mapping pairs)) {key : String}
    (hkey : key ∈ targetMoves.map Prod.snd) :
    Option.Rel (Nested doc) (movedGet doc (.mapping pairs) targetMoves key)
      (mapGet (nestDocument doc) (.mapping (nestPairs doc i pairs)) key) := by
  have hfilters : ∀ key ∈ targetMoves.map Prod.snd, ascii "filters" ≠ ascii key := by decide
  obtain ⟨v, hrel, heq⟩ := nest_route hclosed hflat hi hnode (List.mem_append_left _ hkey)
  rw [heq, if_neg (hfilters key hkey), Option.or_none]
  exact hrel

theorem nest_filters (hclosed : Closed doc) (hflat : FlatOnly doc) (hi : i ∈ routeItems doc)
    (hnode : doc.getNode i = some (.mapping pairs)) :
    mapGet (nestDocument doc) (.mapping (nestPairs doc i pairs)) "filters" =
      sectionNode (filtersPairs doc i) := by
  have hkey : "filters" ∈ routeNestedKeys := by decide
  obtain ⟨v, hrel, heq⟩ := nest_route hclosed hflat hi hnode hkey
  rw [movedGet_none (by decide)] at hrel
  cases hrel
  rw [heq, if_pos rfl, Option.none_or]

theorem filtersPairs_get (hi : i ∈ routeItems doc) (key : String) :
    mapGet (nestDocument doc) (.mapping (filtersPairs doc i)) key =
      ((if ascii "qname_rules" = ascii key then sectionNode (qnamePairs doc i) else none).or
        (if ascii "pow" = ascii key then sectionNode (powPairs doc i) else none)).or
        (if ascii "dns_types" = ascii key then sectionNode (typePairs doc i) else none) := by
  rw [mapGet_mapping, filtersPairs, List.findSome?_append, List.findSome?_append,
    sectionPair_get (by decide) (nest_routeSection hi (j := 1) (by decide)),
    sectionPair_get (by decide) (nest_routeSection hi (j := 2) (by decide)),
    sectionPair_get (by decide) (nest_routeSection hi (j := 3) (by decide))]

end Sections

end Zereh.Control
