/-
  Which texts of a document arrive unaltered.

  Every text goes through `snprintf` into a buffer of its own size, from a scalar that is read as a
  C string. A byte zero in it ends the text, a long one is cut, and nothing reports either. The flat
  `blacklist` replaces the one of `global_filters`, so that networks listed there alone are lost.

  `Verbatim doc cfg`: the configuration has the bytes of the document. `Fitting doc`: every scalar in
  use fits its buffer and the second list repeats the first. For every accepted document the one holds
  exactly when the other does (`verbatim_iff_fitting`).
-/
import Zereh.Control.Provenance

namespace Zereh.Control

open Lib

/-! ## Copies -/

/-- A text that `snprintf` copies into `n + 1` bytes without change. -/
def Fits (n : Nat) (bytes : List UInt8) : Prop := (0 : UInt8) ∉ bytes ∧ bytes.length ≤ n

instance (n : Nat) (bytes : List UInt8) : Decidable (Fits n bytes) :=
  inferInstanceAs (Decidable ((0 : UInt8) ∉ bytes ∧ bytes.length ≤ n))

theorem clip_eq_iff_fits (n : Nat) (bytes : List UInt8) :
    ((CStr.ofBytes bytes).clip n).bytes = bytes ↔ Fits n bytes := by
  constructor
  · intro h
    refine ⟨?_, ?_⟩
    · rw [← h]
      exact ((CStr.ofBytes bytes).clip n).nulFree
    · rw [← h]
      exact CStr.len_clip_le n _
  · rintro ⟨hnul, hlen⟩
    change (CStr.ofBytes bytes).bytes.take n = bytes
    rw [CStr.bytes_ofBytes hnul, List.take_of_length_le hlen]

theorem scalar_eq_map (node : YamlNode) : scalar node = (scalarBytes node).map CStr.ofBytes := by
  cases node <;> rfl

theorem bind_scalar_eq_map (v : Option YamlNode) :
    v.bind scalar = (v.bind scalarBytes).map CStr.ofBytes := by
  cases v with
  | none => rfl
  | some node => exact scalar_eq_map node

/-- The scalar in use, of the places that may hold it. -/
def effective (places : List (Option YamlNode)) : Option (List UInt8) :=
  places.findSome? (·.bind scalarBytes)

/-- A text that is read from several places, the first of them preferred. -/
theorem foldr_textOr {n : Nat} {places : List (Option YamlNode)} {x : CStr} {bytes : List UInt8}
    (h : effective places = some bytes) :
    places.foldr (textOr n) x = (CStr.ofBytes bytes).clip n := by
  induction places with
  | nil => cases h
  | cons v places ih =>
    unfold effective at h
    rw [List.findSome?_cons] at h
    rw [List.foldr_cons, textOr, bind_scalar_eq_map]
    cases hv : v.bind scalarBytes with
    | some value =>
      rw [hv] at h
      cases h
      rfl
    | none =>
      rw [hv] at h
      exact ih h

/-- A stored text is that of the document exactly when it fits. -/
theorem stored_iff_fits {n : Nat} {places : List (Option YamlNode)} {stored : CStr}
    (h : ∀ bytes ∈ effective places, stored = (CStr.ofBytes bytes).clip n) :
    (∀ bytes ∈ effective places, stored.bytes = bytes) ↔
      ∀ bytes ∈ effective places, Fits n bytes := by
  refine forall_congr' fun bytes => forall_congr' fun hbytes => ?_
  rw [h bytes hbytes]
  exact clip_eq_iff_fits n bytes

/-- A list of texts is copied without change exactly when each of them is. -/
theorem map_clip_eq_iff (n : Nat) (texts : List (List UInt8)) :
    (texts.map fun bytes => ((CStr.ofBytes bytes).clip n).bytes) = texts ↔
      ∀ bytes ∈ texts, Fits n bytes := by
  induction texts with
  | nil => simp
  | cons text texts ih =>
    rw [List.map_cons, List.cons.injEq, clip_eq_iff_fits, ih, List.forall_mem_cons]

/-! ## One route -/

section Route

variable (doc : YamlDocument) (node : YamlNode)

def domainPlaces : List (Option YamlNode) := [mapGet doc node "domain"]

def progNamePlaces : List (Option YamlNode) := [mapGet2 doc node "prog_name" "xdp_prog_name"]

def prefixPlaces : List (Option YamlNode) :=
  [pathGet doc node ["filters", "qname_rules", "prefix_match"], mapGet doc node "prefix"]

def suffixPlaces : List (Option YamlNode) :=
  [pathGet doc node ["filters", "qname_rules", "suffix_match"], mapGet doc node "suffix"]

/-- The seed list under one of its three names. -/
def seedsNode : Option YamlNode :=
  ((pathGet doc node ["filters", "bloom_filter", "allow_qnames"]).or
    (pathGet doc node ["filters", "bloom_filter", "seed_qnames"])).or
    (pathGet doc node ["filters", "bloom_filter", "seeds"])

/-- The scalars of the seed list. -/
def seedBytes : List (List UInt8) :=
  match seedsNode doc node with
  | some (.sequence items) => items.filterMap fun item => (doc.getNode item).bind scalarBytes
  | _ => []

/-- `filters.bloom_filter.enabled`. -/
def bloomOn : Bool :=
  match (pathGet doc node ["filters", "bloom_filter", "enabled"]).map parseBool with
  | some (.ok b) => b
  | _ => false

/-- The scalars that the seeds of a route come from: the list, the domain where it has none. -/
def writtenSeeds : List (List UInt8) :=
  if bloomOn doc node then
    if seedBytes doc node = [] then (effective (domainPlaces doc node)).toList
    else seedBytes doc node
  else []

/-- The texts of a route are those of the document. -/
structure RouteVerbatim (r : Route) : Prop where
  domain : ∀ bytes ∈ effective (domainPlaces doc node), r.domain.bytes = bytes
  progName : ∀ bytes ∈ effective (progNamePlaces doc node), r.progName.bytes = bytes
  prefixMatch : ∀ bytes ∈ effective (prefixPlaces doc node), r.prefixMatch.bytes = bytes
  suffixMatch : ∀ bytes ∈ effective (suffixPlaces doc node), r.suffixMatch.bytes = bytes
  bloomSeeds : r.bloomSeeds.map CStr.bytes = writtenSeeds doc node

/-- The texts of a route fit their buffers; seeds count where the filter is on. -/
structure RouteFitting : Prop where
  domain : ∀ bytes ∈ effective (domainPlaces doc node), Fits maxDomainLen bytes
  progName : ∀ bytes ∈ effective (progNamePlaces doc node), Fits (maxProgName - 1) bytes
  prefixMatch : ∀ bytes ∈ effective (prefixPlaces doc node), Fits maxPatternLen bytes
  suffixMatch : ∀ bytes ∈ effective (suffixPlaces doc node), Fits maxPatternLen bytes
  bloomSeeds : bloomOn doc node = true → ∀ bytes ∈ seedBytes doc node, Fits maxDomainLen bytes

instance : Decidable (RouteFitting doc node) :=
  decidable_of_iff
    ((∀ bytes ∈ effective (domainPlaces doc node), Fits maxDomainLen bytes) ∧
      (∀ bytes ∈ effective (progNamePlaces doc node), Fits (maxProgName - 1) bytes) ∧
      (∀ bytes ∈ effective (prefixPlaces doc node), Fits maxPatternLen bytes) ∧
      (∀ bytes ∈ effective (suffixPlaces doc node), Fits maxPatternLen bytes) ∧
      (bloomOn doc node = true → ∀ bytes ∈ seedBytes doc node, Fits maxDomainLen bytes))
    ⟨fun ⟨h₁, h₂, h₃, h₄, h₅⟩ => ⟨h₁, h₂, h₃, h₄, h₅⟩, fun ⟨h₁, h₂, h₃, h₄, h₅⟩ => ⟨h₁, h₂, h₃, h₄, h₅⟩⟩

variable {doc node}

theorem bloomOn_eq {b : Bool}
    (h : Reads (pathGet doc node ["filters", "bloom_filter", "enabled"]) parseBool false b) :
    bloomOn doc node = b := by
  unfold bloomOn
  cases hv : pathGet doc node ["filters", "bloom_filter", "enabled"] with
  | none =>
    rw [hv] at h
    exact h.symm
  | some v =>
    rw [hv] at h
    have hparse : parseBool v = .ok b := h
    rw [Option.map_some, hparse]

theorem seeds_eq {seeds : List CStr} (h : SeedsRead doc (seedsNode doc node) [] seeds) :
    seeds = (seedBytes doc node).map fun bytes => (CStr.ofBytes bytes).clip maxDomainLen := by
  unfold seedBytes
  cases hv : seedsNode doc node with
  | none =>
    rw [hv] at h
    exact h
  | some v =>
    rw [hv] at h
    obtain ⟨items, rfl, rfl⟩ := h
    have hlisted : listedSeeds doc items =
        (items.filterMap fun item => (doc.getNode item).bind scalarBytes).map CStr.ofBytes := by
      unfold listedSeeds
      rw [List.map_filterMap]
      exact List.filterMap_congr fun item _ => bind_scalar_eq_map _
    rw [hlisted, List.map_map]
    rfl

theorem effective_domain {text : CStr} (h : (mapGet doc node "domain").bind scalar = some text) :
    ∃ bytes, effective (domainPlaces doc node) = some bytes ∧ text = CStr.ofBytes bytes := by
  rw [bind_scalar_eq_map] at h
  obtain ⟨bytes, hbytes, rfl⟩ := Option.map_eq_some_iff.mp h
  refine ⟨bytes, ?_, rfl⟩
  unfold effective domainPlaces
  rw [List.findSome?_cons, hbytes]

/-- The domain of a route, where its scalar fits. -/
theorem RouteTrace.domain_bytes {port : UInt16} {t : TracedRoute} (h : RouteTrace doc node port t)
    (hfits : ∀ bytes ∈ effective (domainPlaces doc node), Fits maxDomainLen bytes) :
    ∃ bytes, effective (domainPlaces doc node) = some bytes ∧
      (t.domain.clip maxDomainLen).bytes = bytes := by
  obtain ⟨text, htext, -, hdomain⟩ := h.domain
  obtain ⟨bytes, hbytes, rfl⟩ := effective_domain htext
  refine ⟨bytes, hbytes, ?_⟩
  have hcopy := (clip_eq_iff_fits maxDomainLen bytes).mpr (hfits bytes hbytes)
  have hlen : t.domain.bytes.length ≤ maxDomainLen := by
    rw [hdomain]
    exact CStr.len_clip_le _ _
  calc (t.domain.clip maxDomainLen).bytes = t.domain.bytes := List.take_of_length_le hlen
    _ = bytes := by rw [hdomain, hcopy]

/-- Seeds are those of the list exactly when each of them fits; the domain as a seed is no concern
    of its own. -/
theorem RouteTrace.seeds_iff {port : UInt16} {t : TracedRoute} (h : RouteTrace doc node port t)
    (hfits : ∀ bytes ∈ effective (domainPlaces doc node), Fits maxDomainLen bytes) :
    t.bloomSeeds.map CStr.bytes = writtenSeeds doc node ↔
      (bloomOn doc node = true → ∀ bytes ∈ seedBytes doc node, Fits maxDomainLen bytes) := by
  obtain ⟨seeds, hread, hfinal⟩ := h.bloomSeeds
  have hseeds := seeds_eq hread
  rw [hfinal, finalSeeds, writtenSeeds, bloomOn_eq h.bloomEnabled]
  change (if t.bloomEnabled = true then if seeds = [] then [t.domain.clip maxDomainLen] else seeds
    else []).map CStr.bytes = _ ↔ _
  cases t.bloomEnabled with
  | false => simp
  | true =>
    rw [if_pos rfl, if_pos rfl]
    by_cases hempty : seedBytes doc node = []
    · obtain ⟨bytes, hbytes, hdomain⟩ := h.domain_bytes hfits
      rw [if_pos hempty, if_pos (by rw [hseeds, hempty]; rfl), hbytes, hempty]
      simp [hdomain]
    · have hne : seeds ≠ [] := by
        rw [hseeds]
        simpa using hempty
      rw [if_neg hempty, if_neg hne, hseeds, List.map_map]
      have hiff := map_clip_eq_iff maxDomainLen (seedBytes doc node)
      exact hiff.trans ⟨fun hall _ => hall, fun hall => hall rfl⟩

/-- The texts of a route are those of the document exactly when they fit. -/
theorem routeVerbatim_iff {port : UInt16} {r : Route}
    (h : RouteTrace doc node port (tracedRoute r)) :
    RouteVerbatim doc node r ↔ RouteFitting doc node := by
  have hdomain : (∀ bytes ∈ effective (domainPlaces doc node), r.domain.bytes = bytes) ↔
      ∀ bytes ∈ effective (domainPlaces doc node), Fits maxDomainLen bytes := by
    refine stored_iff_fits fun bytes hbytes => ?_
    obtain ⟨text, htext, -, heq⟩ := h.domain
    obtain ⟨bytes', hbytes', rfl⟩ := effective_domain htext
    rw [Option.some.inj (hbytes.symm.trans hbytes')]
    exact heq
  have hname : (∀ bytes ∈ effective (progNamePlaces doc node), r.progName.bytes = bytes) ↔
      ∀ bytes ∈ effective (progNamePlaces doc node), Fits (maxProgName - 1) bytes :=
    stored_iff_fits fun bytes hbytes => h.progName.trans (foldr_textOr hbytes)
  have hpre : (∀ bytes ∈ effective (prefixPlaces doc node), r.prefixMatch.bytes = bytes) ↔
      ∀ bytes ∈ effective (prefixPlaces doc node), Fits maxPatternLen bytes :=
    stored_iff_fits fun bytes hbytes => h.prefixMatch.trans (foldr_textOr hbytes)
  have hsuffix : (∀ bytes ∈ effective (suffixPlaces doc node), r.suffixMatch.bytes = bytes) ↔
      ∀ bytes ∈ effective (suffixPlaces doc node), Fits maxPatternLen bytes :=
    stored_iff_fits fun bytes hbytes => h.suffixMatch.trans (foldr_textOr hbytes)
  constructor
  · intro hv
    have hfits := hdomain.mp hv.domain
    exact ⟨hfits, hname.mp hv.progName, hpre.mp hv.prefixMatch, hsuffix.mp hv.suffixMatch,
      (h.seeds_iff hfits).mp hv.bloomSeeds⟩
  · intro hf
    exact ⟨hdomain.mpr hf.domain, hname.mpr hf.progName, hpre.mpr hf.prefixMatch,
      hsuffix.mpr hf.suffixMatch, (h.seeds_iff hf.domain).mpr hf.bloomSeeds⟩

end Route

/-! ## The configuration -/

section Document

variable (doc : YamlDocument)

def interfacePlaces : List (Option YamlNode) :=
  [mapGet doc (rootNode doc) "interface", nestedGet doc (rootNode doc) "global" "interface"]

/-- The scalar of a blacklist entry. -/
def entryBytes (entry : YamlNode) : Option (List UInt8) :=
  match entry with
  | .scalar value => some value
  | .mapping _ => (mapGet doc entry "cidr").bind scalarBytes
  | .sequence _ => none

/-- The scalars of a list of networks. -/
def cidrBytes (v : Option YamlNode) : List (List UInt8) :=
  match v with
  | some (.sequence items) => items.filterMap fun item => (doc.getNode item).bind (entryBytes doc)
  | _ => []

def flatCidrs : List (List UInt8) := cidrBytes doc (mapGet doc (rootNode doc) "blacklist")

def nestedCidrs : List (List UInt8) :=
  cidrBytes doc (nestedGet doc (rootNode doc) "global_filters" "ip_blacklist")

/-- The list in use: the flat one if there is one. -/
def writtenCidrs : List (List UInt8) :=
  cidrBytes doc ((mapGet doc (rootNode doc) "blacklist").or
    (nestedGet doc (rootNode doc) "global_filters" "ip_blacklist"))

/-- No text of the document is altered, and no network that it lists is lost. -/
structure Verbatim (cfg : Config) : Prop where
  interface : ∀ bytes ∈ effective (interfacePlaces doc), cfg.interface.bytes = bytes
  blacklist : cfg.blacklist.map CStr.bytes = writtenCidrs doc
  listed : ∀ bytes ∈ nestedCidrs doc ++ flatCidrs doc, bytes ∈ cfg.blacklist.map CStr.bytes
  routes : List.Forall₂ (RouteVerbatim doc) (routeNodes doc) cfg.routes

/-- Every scalar in use fits its buffer, and a flat list repeats the nested one. -/
structure Fitting : Prop where
  interface : ∀ bytes ∈ effective (interfacePlaces doc), Fits (ifnamsiz - 1) bytes
  blacklist : ∀ bytes ∈ writtenCidrs doc, Fits (maxCidrLen - 1) bytes
  listed : (mapGet doc (rootNode doc) "blacklist").isSome →
    ∀ bytes ∈ nestedCidrs doc, bytes ∈ flatCidrs doc
  routes : ∀ node ∈ routeNodes doc, RouteFitting doc node

instance : Decidable (Fitting doc) :=
  decidable_of_iff
    ((∀ bytes ∈ effective (interfacePlaces doc), Fits (ifnamsiz - 1) bytes) ∧
      (∀ bytes ∈ writtenCidrs doc, Fits (maxCidrLen - 1) bytes) ∧
      ((mapGet doc (rootNode doc) "blacklist").isSome →
        ∀ bytes ∈ nestedCidrs doc, bytes ∈ flatCidrs doc) ∧
      ∀ node ∈ routeNodes doc, RouteFitting doc node)
    ⟨fun ⟨h₁, h₂, h₃, h₄⟩ => ⟨h₁, h₂, h₃, h₄⟩, fun ⟨h₁, h₂, h₃, h₄⟩ => ⟨h₁, h₂, h₃, h₄⟩⟩

end Document

section Config

variable {doc : YamlDocument}

theorem entryCidr_eq_map (entry : YamlNode) :
    entryCidr doc entry = (entryBytes doc entry).map CStr.ofBytes := by
  cases entry with
  | scalar value => rfl
  | sequence items => rfl
  | mapping pairs => exact bind_scalar_eq_map _

/-- What a blacklist step leaves: the list of its node, else the one before. -/
theorem reads_blacklist {v : Option YamlNode} {x y : List CStr}
    (h : Reads v (parseBlacklist doc) x y) :
    y = if v.isSome then
      (cidrBytes doc v).map fun bytes => (CStr.ofBytes bytes).clip (maxCidrLen - 1) else x := by
  cases v with
  | none => exact h
  | some node =>
    obtain ⟨items, rfl, rfl⟩ := parseBlacklist_eq h
    have hlisted : listedCidrs doc items = (cidrBytes doc (some (.sequence items))).map CStr.ofBytes := by
      unfold listedCidrs cidrBytes
      rw [List.map_filterMap]
      refine List.filterMap_congr fun item _ => ?_
      cases doc.getNode item with
      | none => rfl
      | some entry => exact entryCidr_eq_map entry
    rw [hlisted, List.map_map]
    rfl

theorem Trace.blacklist_eq {t : Traced} (h : Trace doc (rootNode doc) t) :
    t.blacklist =
      (writtenCidrs doc).map fun bytes => (CStr.ofBytes bytes).clip (maxCidrLen - 1) := by
  obtain ⟨nested, hnested, hflat⟩ := h.blacklist
  rw [reads_blacklist hflat, reads_blacklist hnested, writtenCidrs]
  cases mapGet doc (rootNode doc) "blacklist" with
  | some node => rfl
  | none =>
    cases nestedGet doc (rootNode doc) "global_filters" "ip_blacklist" with
    | some node => rfl
    | none => rfl

/-- Where the list in use arrives, nothing is lost exactly when it has all the networks. -/
theorem listed_iff :
    (∀ bytes ∈ nestedCidrs doc ++ flatCidrs doc, bytes ∈ writtenCidrs doc) ↔
      ((mapGet doc (rootNode doc) "blacklist").isSome →
        ∀ bytes ∈ nestedCidrs doc, bytes ∈ flatCidrs doc) := by
  unfold flatCidrs writtenCidrs
  cases mapGet doc (rootNode doc) "blacklist" with
  | none =>
    constructor
    · intro _ hsome
      cases hsome
    · intro _ bytes hbytes
      rwa [Option.none_or, ← List.append_nil (cidrBytes doc _)]
  | some node =>
    rw [Option.some_or]
    constructor
    · exact fun h _ bytes hbytes => h bytes (List.mem_append_left _ hbytes)
    · intro h bytes hbytes
      rcases List.mem_append.mp hbytes with hbytes | hbytes
      · exact h rfl bytes hbytes
      · exact hbytes

/-- Each entry of `routes` with the route it became. -/
theorem routes_trace {cfg : Config} (h : parseConfigYaml doc = .ok cfg) :
    List.Forall₂ (fun node r => ∃ port, RouteTrace doc node port (tracedRoute r)) (routeNodes doc)
      cfg.routes := by
  obtain ⟨head, hparsed⟩ := routes_parsed h
  refine hparsed.imp fun node r hr => ?_
  obtain ⟨pairs, hnode, htrace⟩ := parseRoute_trace hr
  rw [Option.some.inj hnode]
  exact ⟨_, htrace⟩

theorem forall₂_congr_left {α β : Type} {R : α → β → Prop} {P : α → Prop} {l : List α} {l' : List β}
    (h : List.Forall₂ (fun a b => R a b ↔ P a) l l') : List.Forall₂ R l l' ↔ ∀ a ∈ l, P a := by
  induction h with
  | nil => simp
  | cons hab _ ih => rw [List.forall₂_cons, hab, ih, List.forall_mem_cons]

end Config

/-- **What arrives unaltered.** For every accepted document, the stored texts are those of the
    document and no listed network is lost exactly when every scalar in use is free of zero bytes and
    no longer than its buffer, and a flat blacklist has all entries of a nested one. -/
theorem verbatim_iff_fitting (doc : YamlDocument) (cfg : Config)
    (h : parseConfigYaml doc = .ok cfg) : Verbatim doc cfg ↔ Fitting doc := by
  obtain ⟨root, hroot, htrace⟩ := trace_of_parse h
  rw [← rootNode_eq hroot] at htrace
  have hinterface : (∀ bytes ∈ effective (interfacePlaces doc), cfg.interface.bytes = bytes) ↔
      ∀ bytes ∈ effective (interfacePlaces doc), Fits (ifnamsiz - 1) bytes :=
    stored_iff_fits fun bytes hbytes => htrace.interface.trans (foldr_textOr hbytes)
  have hblacklist : cfg.blacklist.map CStr.bytes = writtenCidrs doc ↔
      ∀ bytes ∈ writtenCidrs doc, Fits (maxCidrLen - 1) bytes := by
    have hstored : cfg.blacklist = _ := htrace.blacklist_eq
    rw [hstored, List.map_map]
    exact map_clip_eq_iff _ _
  have hroutes : List.Forall₂ (RouteVerbatim doc) (routeNodes doc) cfg.routes ↔
      ∀ node ∈ routeNodes doc, RouteFitting doc node :=
    forall₂_congr_left ((routes_trace h).imp fun _ _ ⟨_, hroute⟩ => routeVerbatim_iff hroute)
  constructor
  · intro hv
    have hlisted := hv.listed
    rw [hv.blacklist] at hlisted
    exact ⟨hinterface.mp hv.interface, hblacklist.mp hv.blacklist, listed_iff.mp hlisted,
      hroutes.mp hv.routes⟩
  · intro hf
    have hstored := hblacklist.mpr hf.blacklist
    refine ⟨hinterface.mpr hf.interface, hstored, ?_, hroutes.mpr hf.routes⟩
    rw [hstored]
    exact listed_iff.mpr hf.listed

theorem verbatim_spelled : Verbatim (spelledDocument "a") (spelledConfig "a") :=
  (verbatim_iff_fitting (spelledDocument "a") _ parse_spelledDocument.1).mpr (by decide)

/-- An interface name of 17 bytes, and another network in each of the two lists. -/
def alteredDocument : YamlDocument where
  nodes :=
    [.mapping [(2, 3), (4, 5), (9, 10), (12, 13)],
      .scalar (ascii "interface"), .scalar (ascii "wlx00c0caabcdef01"),
      .scalar (ascii "global_filters"), .mapping [(6, 7)],
      .scalar (ascii "ip_blacklist"), .sequence [8], .scalar (ascii "10.0.0.0/8"),
      .scalar (ascii "blacklist"), .sequence [11], .scalar (ascii "192.0.2.0/24"),
      .scalar (ascii "routes"), .sequence [14],
      .mapping [(15, 16), (17, 18)],
      .scalar (ascii "domain"), .scalar (ascii "a"),
      .scalar (ascii "target"), .scalar (ascii "user_space")]

/-- The name is cut to 15 bytes and the nested list is gone. -/
def alteredConfig : Config :=
  { spelledConfig "a" with
    interface := CStr.lit "wlx00c0caabcdef"
    blacklist := [CStr.lit "192.0.2.0/24"] }

set_option maxRecDepth 4000 in
theorem parse_alteredDocument : parseConfigYaml alteredDocument = .ok alteredConfig := by
  decide +kernel

theorem altered_not_verbatim :
    parseConfigYaml alteredDocument = .ok alteredConfig ∧
      ¬ (∀ bytes ∈ effective (interfacePlaces alteredDocument), alteredConfig.interface.bytes = bytes) ∧
      ¬ (∀ bytes ∈ nestedCidrs alteredDocument, bytes ∈ alteredConfig.blacklist.map CStr.bytes) ∧
      ¬ Verbatim alteredDocument alteredConfig := by
  have hinterface : ¬ ∀ bytes ∈ effective (interfacePlaces alteredDocument),
      alteredConfig.interface.bytes = bytes := by decide
  have hlost : ¬ ∀ bytes ∈ nestedCidrs alteredDocument,
      bytes ∈ alteredConfig.blacklist.map CStr.bytes := by decide
  exact ⟨parse_alteredDocument, hinterface, hlost, fun hv => hinterface hv.interface⟩

end Zereh.Control
