/-
  Documents that the parser cannot tell apart.

  `Alike keys doc doc' R`: nodes related by `R` are of one kind, scalars are equal, the items of a
  sequence are related one by one, and so are the values that a mapping has under `keys`. The parser
  reads a node by its kind, its text, its items and its keys only, so each of its functions gives the
  same on both sides as long as it looks up nothing but `keys`. The numbers of the nodes do not matter.
-/
import Mathlib.Data.List.Forall2
import Zereh.Control.YamlParser

namespace Zereh.Control

open Lib

/-- The nodes with these numbers are related one by one. -/
abbrev ItemsMatch (doc doc' : YamlDocument) (R : YamlNode → YamlNode → Prop) :
    List Nat → List Nat → Prop :=
  List.Forall₂ fun i j => Option.Rel R (doc.getNode i) (doc'.getNode j)

/-- Nodes of one kind with related parts. -/
inductive Matches (keys : String → Prop) (doc doc' : YamlDocument)
    (R : YamlNode → YamlNode → Prop) : YamlNode → YamlNode → Prop
  | scalar (value : List UInt8) : Matches keys doc doc' R (.scalar value) (.scalar value)
  | sequence (items items' : List Nat) (h : ItemsMatch doc doc' R items items') :
      Matches keys doc doc' R (.sequence items) (.sequence items')
  | mapping (pairs pairs' : List (Nat × Nat))
      (h : ∀ key, keys key →
        Option.Rel R (mapGet doc (.mapping pairs) key) (mapGet doc' (.mapping pairs') key)) :
      Matches keys doc doc' R (.mapping pairs) (.mapping pairs')

/-- Related nodes have related parts. -/
def Alike (keys : String → Prop) (doc doc' : YamlDocument) (R : YamlNode → YamlNode → Prop) : Prop :=
  ∀ node node', R node node' → Matches keys doc doc' R node node'

/-! ## Lookup -/

def YamlNode.pairs : YamlNode → List (Nat × Nat)
  | .mapping pairs => pairs
  | _ => []

/-- What a pair has for a key: its value, when its key is this scalar. -/
def pairValue (doc : YamlDocument) (key : String) (pair : Nat × Nat) : Option YamlNode :=
  match doc.getNode pair.1, doc.getNode pair.2 with
  | some (.scalar value), some node => if value = ascii key then some node else none
  | _, _ => none

theorem mapGet_mapping (doc : YamlDocument) (pairs : List (Nat × Nat)) (key : String) :
    mapGet doc (.mapping pairs) key = pairs.findSome? (pairValue doc key) := rfl

theorem rel_findSome₂ {α α' β γ : Type} {R : β → γ → Prop} {f : α → Option β} {g : α' → Option γ}
    {l : List α} {l' : List α'} (h : List.Forall₂ (fun a b => Option.Rel R (f a) (g b)) l l') :
    Option.Rel R (l.findSome? f) (l'.findSome? g) := by
  induction h with
  | nil => exact .none
  | @cons a b _ _ hhead _ ih =>
    rw [List.findSome?_cons, List.findSome?_cons]
    generalize f a = x at hhead ⊢
    generalize g b = y at hhead ⊢
    cases hhead with
    | none => exact ih
    | some hxy => exact .some hxy

theorem rel_findSome {α β γ : Type} {R : β → γ → Prop} {f : α → Option β} {g : α → Option γ}
    (l : List α) (h : ∀ a ∈ l, Option.Rel R (f a) (g a)) :
    Option.Rel R (l.findSome? f) (l.findSome? g) := rel_findSome₂ (List.forall₂_same.mpr h)

/-! ## Steps -/

section Steps

variable {σ α : Type} {R : YamlNode → YamlNode → Prop} {v v' w w' : Option YamlNode}

theorem rel_or (hv : Option.Rel R v v') (hw : Option.Rel R w w') :
    Option.Rel R (v.or w) (v'.or w') := by
  cases hv with
  | none => exact hw
  | some h => exact .some h

theorem chain_congr {f f' g g' : σ → Parsed σ} (hf : f' = f) (hg : g' = g) :
    f' >=> g' = f >=> g := by
  rw [hf, hg]

theorem field_congr {parse parse' : YamlNode → Parsed α} {set : α → σ → σ}
    (hv : Option.Rel R v v') (h : ∀ node node', R node node' → parse' node' = parse node) :
    field v' parse' set = field v parse set := by
  cases hv with
  | none => rfl
  | some hnode =>
    funext s
    simp only [field, h _ _ hnode]

theorem stepField_congr {step step' : YamlNode → σ → Parsed σ} (hv : Option.Rel R v v')
    (h : ∀ node node', R node node' → step' node' = step node) :
    stepField v' step' = stepField v step := by
  cases hv with
  | none => rfl
  | some hnode =>
    funext s
    simp only [stepField, h _ _ hnode]

end Steps

/-! ## Nodes -/

section Nodes

variable {keys : String → Prop} {doc doc' : YamlDocument} {R : YamlNode → YamlNode → Prop}
  {node node' : YamlNode} {v v' : Option YamlNode} {σ α : Type}

theorem Alike.scalar_eq (h : Alike keys doc doc' R) (hnode : R node node') :
    scalar node' = scalar node := by
  cases h _ _ hnode <;> rfl

theorem Alike.bind_scalar (h : Alike keys doc doc' R) (hv : Option.Rel R v v') :
    v'.bind scalar = v.bind scalar := by
  cases hv with
  | none => rfl
  | some hnode => exact h.scalar_eq hnode

theorem Alike.mapGet (h : Alike keys doc doc' R) (hnode : R node node') {key : String}
    (hkey : keys key) : Option.Rel R (mapGet doc node key) (mapGet doc' node' key) := by
  cases h _ _ hnode with
  | scalar value => exact .none
  | sequence items items' hitems => exact .none
  | mapping pairs pairs' hget => exact hget key hkey

theorem Alike.mapGet2 (h : Alike keys doc doc' R) (hnode : R node node') {key key' : String}
    (hkey : keys key) (hkey' : keys key') :
    Option.Rel R (mapGet2 doc node key key') (mapGet2 doc' node' key key') :=
  rel_or (h.mapGet hnode hkey) (h.mapGet hnode hkey')

theorem Alike.textField (h : Alike keys doc doc' R) (hv : Option.Rel R v v') {n : Nat}
    {set : CStr → σ → σ} : textField n v' set = textField n v set := by
  funext s
  simp only [Control.textField, h.bind_scalar hv]

theorem Alike.subsection (h : Alike keys doc doc' R) (hv : Option.Rel R v v')
    {body body' : YamlNode → σ → Parsed σ}
    (hbody : ∀ node node', R node node' → body' node' = body node) :
    subsection v' body' = subsection v body := by
  cases hv with
  | none => rfl
  | some hnode =>
    funext s
    have hsame := hbody _ _ hnode
    cases h _ _ hnode with
    | scalar value => rfl
    | sequence items items' hitems => rfl
    | mapping pairs pairs' hget => exact congrFun hsame s

/-- A function that reads no more of a node than its text. -/
def ByScalar (parse : YamlNode → Parsed α) : Prop :=
  ∀ node node', scalar node' = scalar node → parse node' = parse node

theorem parseU32_byScalar : ByScalar parseU32 := by
  intro node node' h
  unfold parseU32
  rw [h]

theorem parseU16_byScalar : ByScalar parseU16 := by
  intro node node' h
  unfold parseU16
  rw [parseU32_byScalar _ _ h]

theorem parseU8_byScalar : ByScalar parseU8 := by
  intro node node' h
  unfold parseU8
  rw [parseU32_byScalar _ _ h]

theorem parseWord_byScalar {table : List (List String × α)} : ByScalar (parseWord table) := by
  intro node node' h
  unfold parseWord
  rw [h]

theorem Alike.field (h : Alike keys doc doc' R) (hv : Option.Rel R v v')
    {parse : YamlNode → Parsed α} {set : α → σ → σ} (hparse : ByScalar parse) :
    field v' parse set = field v parse set :=
  field_congr hv fun _ _ hnode => hparse _ _ (h.scalar_eq hnode)

/-! ## Lists -/

theorem Alike.rrtypeLoop (h : Alike keys doc doc' R) {items items' : List Nat}
    (hitems : ItemsMatch doc doc' R items items') (mask : UInt32) :
    rrtypeLoop doc' items' mask = rrtypeLoop doc items mask := by
  induction hitems generalizing mask with
  | nil => rfl
  | cons hitem _ ih => simp only [Control.rrtypeLoop, h.bind_scalar hitem, ih]

theorem Alike.parseRrtypeMask (h : Alike keys doc doc' R) (hnode : R node node') :
    parseRrtypeMask doc' node' = parseRrtypeMask doc node := by
  cases h _ _ hnode with
  | scalar value => rfl
  | sequence items items' hitems => simp only [Control.parseRrtypeMask, h.rrtypeLoop hitems]
  | mapping pairs pairs' hget => rfl

theorem Alike.opcodeLoop (h : Alike keys doc doc' R) {items items' : List Nat}
    (hitems : ItemsMatch doc doc' R items items') (mask : UInt16) :
    opcodeLoop doc' items' mask = opcodeLoop doc items mask := by
  induction hitems generalizing mask with
  | nil => rfl
  | @cons item item' items items' hitem _ ih =>
    unfold Control.opcodeLoop
    generalize doc.getNode item = entry at hitem ⊢
    generalize doc'.getNode item' = entry' at hitem ⊢
    cases hitem with
    | none => rfl
    | some hentry => simp only [opcodeBit, parseU32_byScalar _ _ (h.scalar_eq hentry), ih]

theorem Alike.parseAllowedOpcodes (h : Alike keys doc doc' R) (hnode : R node node') :
    parseAllowedOpcodes doc' node' = parseAllowedOpcodes doc node := by
  cases h _ _ hnode with
  | scalar value => rfl
  | sequence items items' hitems => simp only [Control.parseAllowedOpcodes, h.opcodeLoop hitems]
  | mapping pairs pairs' hget => rfl

theorem Alike.entryCidr (h : Alike keys doc doc' R) (hcidr : keys "cidr") (hnode : R node node') :
    entryCidr doc' node' = entryCidr doc node := by
  cases h _ _ hnode with
  | scalar value => rfl
  | sequence items items' hitems => rfl
  | mapping pairs pairs' hget => exact h.bind_scalar (hget "cidr" hcidr)

theorem Alike.blacklistLoop (h : Alike keys doc doc' R) (hcidr : keys "cidr")
    {items items' : List Nat} (hitems : ItemsMatch doc doc' R items items') (list : List CStr) :
    blacklistLoop doc' items' list = blacklistLoop doc items list := by
  induction hitems generalizing list with
  | nil => rfl
  | @cons item item' items items' hitem _ ih =>
    unfold Control.blacklistLoop
    generalize doc.getNode item = entry at hitem ⊢
    generalize doc'.getNode item' = entry' at hitem ⊢
    cases hitem with
    | none => simp only [ih]
    | some hentry => simp only [h.entryCidr hcidr hentry, ih]

theorem Alike.parseBlacklist (h : Alike keys doc doc' R) (hcidr : keys "cidr")
    (hnode : R node node') : parseBlacklist doc' node' = parseBlacklist doc node := by
  cases h _ _ hnode with
  | scalar value => rfl
  | sequence items items' hitems => simp only [Control.parseBlacklist, h.blacklistLoop hcidr hitems]
  | mapping pairs pairs' hget => rfl

/-! ## Root keys without a section of their own -/

/-- The keys of the steps between the global filters and the routes. -/
def optionKeys : List String :=
  ["template_path", "generated_source", "generated_object", "xdp_section", "default_kernel_port",
    "codegen_options", "hash_algorithm", "optimize_jump_tables", "inline_checksums"]

theorem Alike.parsePaths (h : Alike keys doc doc' R) (hkeys : ∀ key ∈ optionKeys, keys key)
    (hnode : R node node') : parsePaths doc' node' = parsePaths doc node := by
  have hget := fun key hkey => h.mapGet hnode (hkeys key hkey)
  refine chain_congr ?_ <| chain_congr ?_ <| chain_congr ?_ ?_
  all_goals exact h.textField (hget _ (by decide))

theorem Alike.parseKernelPort (h : Alike keys doc doc' R) (hkeys : ∀ key ∈ optionKeys, keys key)
    (hnode : R node node') : parseKernelPort doc' node' = parseKernelPort doc node :=
  h.field (h.mapGet hnode (hkeys _ (by decide))) parseU16_byScalar

theorem Alike.parseCodegenKeys (h : Alike keys doc doc' R) (hkeys : ∀ key ∈ optionKeys, keys key)
    (hnode : R node node') : parseCodegenKeys doc' node' = parseCodegenKeys doc node := by
  have hget := fun key hkey => h.mapGet hnode (hkeys key hkey)
  refine chain_congr ?_ <| chain_congr ?_ ?_
  all_goals exact h.field (hget _ (by decide)) parseWord_byScalar

theorem Alike.parseCodegenOptions (h : Alike keys doc doc' R)
    (hkeys : ∀ key ∈ optionKeys, keys key) (hnode : R node node') :
    parseCodegenOptions doc' node' = parseCodegenOptions doc node :=
  h.subsection (h.mapGet hnode (hkeys _ (by decide))) fun _ _ => h.parseCodegenKeys hkeys

/-! ## Sections of a route -/

/-- The keys of a route and of its filters, other than those of the name rules. -/
def routeKeys : List String :=
  ["domain", "target_type", "target", "enabled", "difficulty", "time_window", "qps", "allow", "deny",
    "size", "hash_functions", "allow_qnames", "seed_qnames", "seeds"]

section Route

variable (h : Alike keys doc doc' R) (hkeys : ∀ key ∈ routeKeys, keys key)

include h hkeys

theorem Alike.routeGet (hnode : R node node') {key : String} (hkey : key ∈ routeKeys) :
    Option.Rel R (Control.mapGet doc node key) (Control.mapGet doc' node' key) :=
  h.mapGet hnode (hkeys key hkey)

theorem Alike.parseRouteTarget (hnode : R node node') (cfg : Config) :
    parseRouteTarget doc' node' cfg = parseRouteTarget doc node cfg := by
  have hdomain := h.bind_scalar (h.mapGet hnode (hkeys "domain" (by decide)))
  have htarget := h.bind_scalar (rel_or (h.mapGet hnode (hkeys "target_type" (by decide)))
    (h.mapGet hnode (hkeys "target" (by decide))))
  simp only [Control.parseRouteTarget, Control.mapGet2, hdomain, htarget]

theorem Alike.parsePow (hnode : R node node') : parsePow doc' node' = parsePow doc node := by
  refine chain_congr ?_ <| chain_congr ?_ ?_
  · exact h.field (h.routeGet hkeys hnode (by decide)) parseWord_byScalar
  · exact h.field (h.routeGet hkeys hnode (by decide)) parseU8_byScalar
  · exact h.field (h.routeGet hkeys hnode (by decide)) parseU16_byScalar

theorem Alike.parseRateLimit (hnode : R node node') :
    parseRateLimit doc' node' = parseRateLimit doc node :=
  h.field (h.routeGet hkeys hnode (by decide)) parseU32_byScalar

theorem Alike.parseRouteDnsTypes (hnode : R node node') :
    parseRouteDnsTypes doc' node' = parseRouteDnsTypes doc node := by
  funext d
  cases h _ _ hnode with
  | scalar value => rfl
  | sequence items items' hitems => rfl
  | mapping pairs pairs' hget =>
    have hmask : ∀ key ∈ routeKeys, Control.field (Control.mapGet doc' (.mapping pairs') key)
        (Control.parseRrtypeMask doc') (fun m _ => m) =
          Control.field (σ := UInt32) (Control.mapGet doc (.mapping pairs) key)
            (Control.parseRrtypeMask doc) fun m _ => m :=
      fun key hkey => field_congr (hget key (hkeys key hkey)) fun _ _ => h.parseRrtypeMask
    simp only [Control.parseRouteDnsTypes, hmask "allow" (by decide), hmask "deny" (by decide)]

omit hkeys in
theorem Alike.seedLoop (domain : CStr) {items items' : List Nat}
    (hitems : ItemsMatch doc doc' R items items') (seeds : List CStr) :
    seedLoop doc' domain items' seeds = seedLoop doc domain items seeds := by
  induction hitems generalizing seeds with
  | nil => rfl
  | cons hitem _ ih => simp only [Control.seedLoop, h.bind_scalar hitem, ih]

omit hkeys in
theorem Alike.parseBloomSeeds (hnode : R node node') :
    parseBloomSeeds doc' node' = parseBloomSeeds doc node := by
  funext d
  cases h _ _ hnode with
  | scalar value => rfl
  | sequence items items' hitems => simp only [Control.parseBloomSeeds, h.seedLoop d.domain hitems]
  | mapping pairs pairs' hget => rfl

theorem Alike.parseBloomFilter (hnode : R node node') :
    parseBloomFilter doc' node' = parseBloomFilter doc node := by
  refine chain_congr ?_ <| chain_congr ?_ <| chain_congr ?_ <| chain_congr ?_ ?_
  · exact h.field (h.routeGet hkeys hnode (by decide)) parseWord_byScalar
  · exact h.field (h.routeGet hkeys hnode (by decide)) parseU32_byScalar
  · exact h.field (h.routeGet hkeys hnode (by decide)) parseU8_byScalar
  · exact h.field (h.routeGet hkeys hnode (by decide)) parseU16_byScalar
  · refine stepField_congr (rel_or (rel_or ?_ ?_) ?_) fun _ _ => h.parseBloomSeeds
    all_goals exact h.routeGet hkeys hnode (by decide)

end Route

/-! ## Documents -/

/-- The items are parsed alike as routes. -/
abbrev RoutesMatch (doc doc' : YamlDocument) (cfg : Config) : List Nat → List Nat → Prop :=
  List.Forall₂ fun i j => parseRoute doc' (doc'.getNode j) cfg = parseRoute doc (doc.getNode i) cfg

theorem routeLoop_congr {cfg : Config} {items items' : List Nat}
    (h : RoutesMatch doc doc' cfg items items') (routes : List Route) :
    routeLoop doc' cfg items' routes = routeLoop doc cfg items routes := by
  induction h generalizing routes with
  | nil => rfl
  | cons hroute _ ih => simp only [routeLoop, hroute, ih]

theorem Alike.parseRoutes (h : Alike keys doc doc' R) (hnode : R node node') {cfg : Config}
    (hroute : ∀ items items', node = .sequence items → ItemsMatch doc doc' R items items' →
      RoutesMatch doc doc' cfg items items') :
    parseRoutes doc' node' cfg = parseRoutes doc node cfg := by
  cases h _ _ hnode with
  | scalar value => rfl
  | sequence items items' hitems =>
    simp only [Control.parseRoutes, routeLoop_congr (hroute items items' rfl hitems)]
  | mapping pairs pairs' hget => rfl

/-- Two documents are parsed alike when the steps before the routes are, and the routes. -/
theorem parseConfigYaml_congr {pairs pairs' : List (Nat × Nat)}
    (hroot : doc.getRootNode = some (.mapping pairs))
    (hroot' : doc'.getRootNode = some (.mapping pairs'))
    (hhead : parseHead doc' (.mapping pairs') = parseHead doc (.mapping pairs))
    (hget : Option.Rel R (mapGet doc (.mapping pairs) "routes")
      (mapGet doc' (.mapping pairs') "routes"))
    (hroutes : ∀ node node', mapGet doc (.mapping pairs) "routes" = some node → R node node' →
      ∀ cfg, parseRoutes doc' node' cfg = parseRoutes doc node cfg) :
    parseConfigYaml doc' = parseConfigYaml doc := by
  simp only [parseConfigYaml, hroot, hroot', hhead]
  generalize mapGet doc (.mapping pairs) "routes" = v at hget hroutes ⊢
  generalize mapGet doc' (.mapping pairs') "routes" = v' at hget ⊢
  cases hget with
  | none => rfl
  | some hnode => simp only [hroutes _ _ rfl hnode]

end Nodes

end Zereh.Control
