/-
  A route apart from its bounds.

  `withoutBounds` takes the keys of the bounds out of a document. The other keys are found as before
  (`withoutBounds_alike`), so every step of the parser goes as in the document without bounds, on
  a draft without bounds. The steps that read a bound do nothing there, and fail here where the
  bound is no number of its type (`parseRouteFlat_mirrors`, `parseRouteFilters_mirrors`).
-/
import Zereh.Control.Nesting
import Zereh.Control.Provenance

namespace Zereh.Control

open Lib

/-! ## The document without bounds -/

def boundKeys : List String :=
  ["min_labels", "max_labels", "qname_min_len", "qname_max_len", "min_length", "max_length"]

/-- A node without its bound keys. -/
def dropBounds (doc : YamlDocument) : YamlNode → YamlNode
  | .mapping pairs => .mapping (kept doc boundKeys pairs)
  | node => node

/-- The document without bound keys. -/
def withoutBounds (doc : YamlDocument) : YamlDocument where
  nodes := doc.nodes.map (dropBounds doc)

section Without

variable {doc : YamlDocument} {node : YamlNode} {key : String}

theorem withoutBounds_getNode (i : Nat) :
    (withoutBounds doc).getNode i = (doc.getNode i).map (dropBounds doc) := by
  unfold YamlDocument.getNode
  split
  · rfl
  · exact List.getElem?_map

theorem withoutBounds_hasKey (pair : Nat × Nat) :
    hasKey (withoutBounds doc) key pair = hasKey doc key pair := by
  unfold hasKey
  rw [withoutBounds_getNode]
  cases doc.getNode pair.1 with
  | none => rfl
  | some node => cases node <;> simp [dropBounds]

theorem withoutBounds_pairValue (pair : Nat × Nat) :
    pairValue (withoutBounds doc) key pair = (pairValue doc key pair).map (dropBounds doc) := by
  rw [pairValue_eq_ite, pairValue_eq_ite, withoutBounds_hasKey, withoutBounds_getNode]
  split <;> rfl

/-- A key that is no bound. -/
def NoBound (key : String) : Prop := ∀ name ∈ boundKeys, ascii name ≠ ascii key

instance (key : String) : Decidable (NoBound key) := inferInstanceAs (Decidable (∀ _ ∈ _, _))

/-- The other keys are found as before. -/
theorem withoutBounds_alike (doc : YamlDocument) :
    Alike NoBound doc (withoutBounds doc) fun node node' => node' = dropBounds doc node := by
  rintro node _ rfl
  have hrel : ∀ v : Option YamlNode,
      Option.Rel (fun node node' => node' = dropBounds doc node) v (v.map (dropBounds doc)) := by
    intro v
    cases v with
    | none => exact .none
    | some node => exact .some rfl
  cases node with
  | scalar value => exact .scalar value
  | sequence items =>
    refine .sequence items items (List.forall₂_same.mpr fun i _ => ?_)
    rw [withoutBounds_getNode]
    exact hrel _
  | mapping pairs =>
    refine .mapping pairs _ fun key hkey => ?_
    rw [← findSome?_kept hkey, mapGet_mapping]
    refine rel_findSome _ fun pair _ => ?_
    rw [withoutBounds_pairValue]
    exact hrel _

/-- The bound keys are gone. -/
theorem withoutBounds_bound (hkey : key ∈ boundKeys) :
    mapGet (withoutBounds doc) (dropBounds doc node) key = none := by
  cases node with
  | scalar value => rfl
  | sequence items => rfl
  | mapping pairs =>
    refine List.findSome?_eq_none_iff.mpr fun pair hpair => ?_
    have hstays := List.all_eq_true.mp (List.mem_filter.mp hpair).2 key hkey
    have hfalse : hasKey doc key pair = false := by simpa using hstays
    change pairValue (withoutBounds doc) key pair = none
    rw [pairValue_eq_ite, withoutBounds_hasKey, hfalse]
    rfl

end Without

/-! ## Apart from the bounds -/

section Steps

variable {σ α : Type} {π : σ → σ} {v v' : Option YamlNode} {parse : YamlNode → Parsed α}
  {set : α → σ → σ} {keys : String → Prop} {doc doc' : YamlDocument}
  {R : YamlNode → YamlNode → Prop}

/-- An optional node is absent, or it parses. -/
def Parses (v : Option YamlNode) (parse : YamlNode → Parsed α) : Prop :=
  ∀ node, v = some node → ∃ a, parse node = .ok a

/-- A step that gives on the part what it gives on the whole. -/
theorem mirrors_of_map {f g : σ → Parsed σ} (h : ∀ s, g (π s) = (f s).map π) :
    Mirrors π True f g := by
  intro s t
  rw [h s]
  cases f s with
  | error ms => exact iff_of_false (by rintro ⟨s', hs', -⟩; cases hs') (by rintro ⟨-, hs⟩; cases hs)
  | ok s' =>
    constructor
    · rintro ⟨_, hs, rfl⟩
      cases hs
      exact ⟨trivial, rfl⟩
    · rintro ⟨-, hs⟩
      cases hs
      exact ⟨s', rfl, rfl⟩

theorem reject_mirrors {Q : Prop} :
    Mirrors (ε := List Message) π Q (fun _ => reject) fun _ => reject := by
  intro s t
  exact iff_of_false (by rintro ⟨s', hs', -⟩; cases hs') (by rintro ⟨-, hs⟩; cases hs)

theorem parses_none : Parses none parse := fun _ hnode => absurd hnode.symm (Option.some_ne_none _)

theorem field_mirrors (hset : ∀ a s, π (set a s) = set a (π s)) :
    Mirrors π True (field v parse set) (field v parse set) := by
  refine mirrors_of_map fun s => ?_
  cases v with
  | none => rfl
  | some node =>
    unfold field
    dsimp only
    cases parse node with
    | error ms => rfl
    | ok a => exact congrArg Except.ok (hset a s).symm

theorem Alike.field_mirrors (h : Alike keys doc doc' R) (hv : Option.Rel R v v')
    (hparse : ByScalar parse) (hset : ∀ a s, π (set a s) = set a (π s)) :
    Mirrors π True (Control.field v parse set) (Control.field v' parse set) := by
  rw [h.field hv hparse]
  exact Control.field_mirrors hset

theorem Alike.textField_mirrors (h : Alike keys doc doc' R) (hv : Option.Rel R v v') {n : Nat}
    {set : CStr → σ → σ} (hset : ∀ a s, π (set a s) = set a (π s)) :
    Mirrors π True (Control.textField n v set) (Control.textField n v' set) := by
  rw [h.textField hv]
  refine mirrors_of_map fun s => ?_
  unfold Control.textField
  cases v.bind scalar with
  | none => rfl
  | some text => exact congrArg Except.ok (hset _ s).symm

/-- A bound on the one side, nothing on the other. -/
theorem bound_mirrors (hset : ∀ a s, π (set a s) = π s) (hnone : v' = none) :
    Mirrors π (Parses v parse) (field v parse set) (field v' parse set) := by
  subst hnone
  intro s t
  constructor
  · rintro ⟨s', hs', rfl⟩
    cases v with
    | none =>
      cases hs'
      exact ⟨parses_none, rfl⟩
    | some node =>
      obtain ⟨a, ha, hs'⟩ := bind_eq_ok hs'
      cases hs'
      refine ⟨fun node' hnode => ?_, congrArg Except.ok (hset a s).symm⟩
      cases hnode
      exact ⟨a, ha⟩
  · rintro ⟨hparses, hs⟩
    cases hs
    cases v with
    | none => exact ⟨s, rfl, rfl⟩
    | some node =>
      obtain ⟨a, ha⟩ := hparses node rfl
      exact ⟨set a s, bind_eq_ok_iff.mpr ⟨a, ha, rfl⟩, hset a s⟩

end Steps

section Mirrored

variable {doc : YamlDocument} {node : YamlNode}

/-- What the bounds of a place need so that none of them fails. -/
structure Fit (minLabels maxLabels minLength maxLength : Option YamlNode) : Prop where
  minLabels : Parses minLabels parseU8
  maxLabels : Parses maxLabels parseU8
  minLength : Parses minLength parseU16
  maxLength : Parses maxLength parseU16

def FlatFit (doc : YamlDocument) (node : YamlNode) : Prop :=
  Fit (mapGet doc node "min_labels") (mapGet doc node "max_labels")
    (mapGet2 doc node "qname_min_len" "min_length") (mapGet2 doc node "qname_max_len" "max_length")

def RulesFit (get : String → Option YamlNode) : Prop :=
  Fit (get "min_labels") (get "max_labels") (get "min_length") (get "max_length")

theorem fit_iff {a b c d : Option YamlNode} :
    Parses a parseU8 ∧ Parses b parseU8 ∧ Parses c parseU16 ∧ Parses d parseU16 ↔ Fit a b c d :=
  ⟨fun h => ⟨h.1, h.2.1, h.2.2.1, h.2.2.2⟩, fun h => ⟨h.1, h.2, h.3, h.4⟩⟩

theorem other_rel (doc : YamlDocument) (node : YamlNode) {key : String} (hkey : NoBound key) :
    Option.Rel (fun node node' => node' = dropBounds doc node) (mapGet doc node key)
      (mapGet (withoutBounds doc) (dropBounds doc node) key) :=
  (withoutBounds_alike doc).mapGet rfl hkey

theorem other_rel2 (doc : YamlDocument) (node : YamlNode) {key key' : String} (hkey : NoBound key)
    (hkey' : NoBound key') :
    Option.Rel (fun node node' => node' = dropBounds doc node) (mapGet2 doc node key key')
      (mapGet2 (withoutBounds doc) (dropBounds doc node) key key') :=
  (withoutBounds_alike doc).mapGet2 rfl hkey hkey'

theorem withoutBounds_bound2 {key key' : String} (hkey : key ∈ boundKeys)
    (hkey' : key' ∈ boundKeys) :
    mapGet2 (withoutBounds doc) (dropBounds doc node) key key' = none := by
  unfold mapGet2
  rw [withoutBounds_bound hkey, withoutBounds_bound hkey', Option.none_or]

theorem parseRouteFlat_mirrors :
    Mirrors Draft.unbound (FlatFit doc node) (parseRouteFlat doc node)
      (parseRouteFlat (withoutBounds doc) (dropBounds doc node)) := by
  have h := withoutBounds_alike doc
  refine Mirrors.congr (Mirrors.then ?_ <| .then ?_ <| .then ?_ <| .then ?_ <| .then ?_ <|
    .then ?_ <| .comp ?_ <| .comp ?_ <| .comp ?_ <| .before ?_ <| .then ?_ ?_) fit_iff
  · exact h.field_mirrors (other_rel2 doc node (by decide) (by decide)) parseU32_byScalar
      fun _ _ => rfl
  · exact h.field_mirrors (other_rel2 doc node (by decide) (by decide)) parseU16_byScalar
      fun _ _ => rfl
  · exact h.field_mirrors (other_rel2 doc node (by decide) (by decide)) parseU32_byScalar
      fun _ _ => rfl
  · exact h.textField_mirrors (other_rel2 doc node (by decide) (by decide)) fun _ _ => rfl
  · exact h.textField_mirrors (other_rel doc node (by decide)) fun _ _ => rfl
  · exact h.textField_mirrors (other_rel doc node (by decide)) fun _ _ => rfl
  · exact bound_mirrors (fun _ _ => rfl) (withoutBounds_bound (by decide))
  · exact bound_mirrors (fun _ _ => rfl) (withoutBounds_bound (by decide))
  · exact bound_mirrors (fun _ _ => rfl) (withoutBounds_bound2 (by decide) (by decide))
  · exact bound_mirrors (fun _ _ => rfl) (withoutBounds_bound2 (by decide) (by decide))
  · exact h.field_mirrors (other_rel doc node (by decide)) parseU8_byScalar fun _ _ => rfl
  · rw [field_congr (other_rel doc node (by decide)) fun _ _ => h.parseRrtypeMask]
    exact field_mirrors fun _ _ => rfl

theorem parseQnameRules_mirrors :
    Mirrors Draft.unbound (RulesFit (mapGet doc node)) (parseQnameRules doc node)
      (parseQnameRules (withoutBounds doc) (dropBounds doc node)) := by
  have h := withoutBounds_alike doc
  refine Mirrors.congr (Mirrors.then ?_ <| .then ?_ <| .comp ?_ <| .comp ?_ <| .comp ?_ ?_) fit_iff
  · exact h.textField_mirrors (other_rel doc node (by decide)) fun _ _ => rfl
  · exact h.textField_mirrors (other_rel doc node (by decide)) fun _ _ => rfl
  · exact bound_mirrors (fun _ _ => rfl) (withoutBounds_bound (by decide))
  · exact bound_mirrors (fun _ _ => rfl) (withoutBounds_bound (by decide))
  · exact bound_mirrors (fun _ _ => rfl) (withoutBounds_bound (by decide))
  · exact bound_mirrors (fun _ _ => rfl) (withoutBounds_bound (by decide))

/-- A section mirrors as its keys do. An absent section has no keys, nor has a node that is no
    mapping. -/
theorem subsection_mirrors (doc : YamlDocument) (node : YamlNode) {name : String}
    (hname : NoBound name) {Q : (String → Option YamlNode) → Prop}
    {body body' : YamlNode → Draft → Parsed Draft} (h : ∀ node, Mirrors Draft.unbound
      (Q (mapGet doc node)) (body node) (body' (dropBounds doc node)))
    (hnone : Q fun _ => none) :
    Mirrors Draft.unbound (Q (nestedGet doc node name)) (subsection (mapGet doc node name) body)
      (subsection (mapGet (withoutBounds doc) (dropBounds doc node) name) body') := by
  have hskip : Mirrors (ε := List Message) Draft.unbound (Q fun _ => none) .ok .ok :=
    (mirrors_of_map fun _ => rfl).congr (iff_of_true trivial hnone)
  have hrel := other_rel doc node hname
  unfold nestedGet
  generalize mapGet (withoutBounds doc) (dropBounds doc node) name = v' at hrel ⊢
  generalize mapGet doc node name = v at hrel ⊢
  cases hrel with
  | none => exact hskip
  | @some child _ heq =>
    subst heq
    cases child with
    | scalar value => exact hskip
    | sequence items => exact hskip
    | mapping pairs => exact h (.mapping pairs)

theorem stepField_mirrors (doc : YamlDocument) (node : YamlNode) {name : String}
    (hname : NoBound name) {Q : (String → Option YamlNode) → Prop}
    {step step' : YamlNode → Draft → Parsed Draft} (h : ∀ node, Mirrors Draft.unbound
      (Q (mapGet doc node)) (step node) (step' (dropBounds doc node)))
    (hnone : Q fun _ => none) :
    Mirrors Draft.unbound (Q (nestedGet doc node name)) (stepField (mapGet doc node name) step)
      (stepField (mapGet (withoutBounds doc) (dropBounds doc node) name) step') := by
  have hrel := other_rel doc node hname
  unfold nestedGet
  generalize mapGet (withoutBounds doc) (dropBounds doc node) name = v' at hrel ⊢
  generalize mapGet doc node name = v at hrel ⊢
  cases hrel with
  | none => exact (mirrors_of_map fun _ => rfl).congr (iff_of_true trivial hnone)
  | @some child _ heq =>
    subst heq
    exact h child

theorem routeKeys_noBound : ∀ key ∈ routeKeys, NoBound key := by decide

theorem parsePow_mirrors :
    Mirrors Draft.unbound True (parsePow doc node)
      (parsePow (withoutBounds doc) (dropBounds doc node)) := by
  rw [(withoutBounds_alike doc).parsePow routeKeys_noBound rfl]
  refine .then ?_ <| .then ?_ ?_
  all_goals exact field_mirrors fun _ _ => rfl

theorem parseRateLimit_mirrors :
    Mirrors Draft.unbound True (parseRateLimit doc node)
      (parseRateLimit (withoutBounds doc) (dropBounds doc node)) := by
  rw [(withoutBounds_alike doc).parseRateLimit routeKeys_noBound rfl]
  exact field_mirrors fun _ _ => rfl

theorem parseRouteDnsTypes_mirrors :
    Mirrors Draft.unbound True (parseRouteDnsTypes doc node)
      (parseRouteDnsTypes (withoutBounds doc) (dropBounds doc node)) := by
  rw [(withoutBounds_alike doc).parseRouteDnsTypes routeKeys_noBound rfl]
  refine mirrors_of_map fun d => ?_
  unfold parseRouteDnsTypes
  split
  · rename_i pairs
    rw [show d.unbound.rrtypeMask = d.rrtypeMask from rfl]
    cases field (mapGet doc (.mapping pairs) "allow") (parseRrtypeMask doc) (fun m _ => m)
        d.rrtypeMask with
    | error ms => rfl
    | ok allow =>
      cases field (σ := UInt32) (mapGet doc (.mapping pairs) "deny") (parseRrtypeMask doc)
          (fun m _ => m) 0 with
      | error ms => rfl
      | ok deny =>
        change (if allow &&& ~~~deny = 0 then reject else
            Except.ok (setRrtypeMask (allow &&& ~~~deny) d.unbound)) =
          Except.map _ (if allow &&& ~~~deny = 0 then reject else
            Except.ok (setRrtypeMask (allow &&& ~~~deny) d))
        split_ifs <;> rfl
  · rfl

theorem parseBloomFilter_mirrors :
    Mirrors Draft.unbound True (parseBloomFilter doc node)
      (parseBloomFilter (withoutBounds doc) (dropBounds doc node)) := by
  have hseeds : ∀ node, Mirrors Draft.unbound True (parseBloomSeeds doc node)
      (parseBloomSeeds doc node) := by
    intro node
    refine mirrors_of_map fun d => ?_
    unfold parseBloomSeeds
    split
    · rename_i items
      rw [show d.unbound.domain = d.domain from rfl]
      cases seedLoop doc d.domain items [] <;> rfl
    · rfl
  rw [(withoutBounds_alike doc).parseBloomFilter routeKeys_noBound rfl]
  refine .then ?_ <| .then ?_ <| .then ?_ <| .then ?_ ?_
  · exact field_mirrors fun _ _ => rfl
  · exact field_mirrors fun _ _ => rfl
  · exact field_mirrors fun _ _ => rfl
  · exact field_mirrors fun _ _ => rfl
  · generalize (mapGet2 doc node "allow_qnames" "seed_qnames").or (mapGet doc node "seeds") = v
    cases v with
    | none => exact mirrors_of_map fun _ => rfl
    | some list => exact hseeds list

theorem parseRouteFilters_mirrors :
    Mirrors Draft.unbound (RulesFit (nestedGet doc node "qname_rules")) (parseRouteFilters doc node)
      (parseRouteFilters (withoutBounds doc) (dropBounds doc node)) := by
  have hall : ∀ {f g : YamlNode → Draft → Parsed Draft},
      (∀ node, Mirrors Draft.unbound True (f node) (g (dropBounds doc node))) →
      ∀ {name}, NoBound name → Mirrors Draft.unbound True (subsection (mapGet doc node name) f)
        (subsection (mapGet (withoutBounds doc) (dropBounds doc node) name) g) :=
    fun h _ hname => subsection_mirrors doc node (Q := fun _ => True) hname h trivial
  have hrules := subsection_mirrors doc node (by decide : NoBound "qname_rules")
    (fun _ => parseQnameRules_mirrors) ⟨parses_none, parses_none, parses_none, parses_none⟩
  have htypes := stepField_mirrors doc node (Q := fun _ => True) (by decide : NoBound "dns_types")
    (fun _ => parseRouteDnsTypes_mirrors) trivial
  cases node with
  | scalar value => exact reject_mirrors
  | sequence items => exact reject_mirrors
  | mapping pairs =>
    refine Mirrors.then (hall (fun _ => parsePow_mirrors) (by decide)) <| .before hrules <|
      .then (hall (fun _ => parseRateLimit_mirrors) (by decide)) <|
      .then htypes (hall (fun _ => parseBloomFilter_mirrors) (by decide))

end Mirrored

end Zereh.Control
