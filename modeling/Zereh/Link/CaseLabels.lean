/-
  The case labels of the generated `switch`.

  The parser reads one route after the other and compares none with another, so a document may
  name a domain twice. `writtenDomains` are the names as the document has them. The labels are
  pairwise distinct, and the text is a C function, exactly when no two names are equal after
  normalization and no two others collide under the configured hash (`labels_nodup_iff`).
-/
import Zereh.Control.Provenance
import Zereh.Link.DispatchParse

namespace Zereh.Link

open Lib CText Control

/-! ## The names of a document -/

/-- The value of `domain` in an entry of `routes`, as `snprintf` copies it. -/
def writtenDomain (doc : YamlDocument) (item : Nat) : CStr :=
  match ((doc.getNode item).bind (mapGet doc · "domain")).bind scalar with
  | some text => text.clip maxDomainLen
  | none => CStr.empty

/-- The domains in the order of `routes`. -/
def writtenDomains (doc : YamlDocument) : List CStr :=
  match doc.getRootNode.bind (mapGet doc · "routes") with
  | some (.sequence items) => items.map (writtenDomain doc)
  | _ => []

theorem parseRoute_domain {doc : YamlDocument} {item : Nat} {cfg : Config} {r : Route}
    (h : parseRoute doc (doc.getNode item) cfg = .ok r) : r.domain = writtenDomain doc item := by
  obtain ⟨pairs, hnode, htrace⟩ := parseRoute_trace h
  obtain ⟨text, htext, -, hdomain⟩ := htrace.domain
  unfold writtenDomain
  rw [hnode, Option.bind_some, htext]
  exact hdomain

theorem map_domain_of_forall₂ {doc : YamlDocument} {cfg : Config} {items : List Nat}
    {routes : List Route}
    (h : List.Forall₂ (fun item r => parseRoute doc (doc.getNode item) cfg = .ok r) items routes) :
    routes.map (·.domain) = items.map (writtenDomain doc) := by
  induction h with
  | nil => rfl
  | cons hr _ ih => rw [List.map_cons, List.map_cons, parseRoute_domain hr, ih]

/-- The parser keeps the names and their order. -/
theorem map_domain_of_parse {doc : YamlDocument} {cfg : Config}
    (h : parseConfigYaml doc = .ok cfg) : cfg.routes.map (·.domain) = writtenDomains doc := by
  obtain ⟨pairs, head, items, routes, hroot, -, hnode, hloop, -, rfl⟩ := parseConfigYaml_cases h
  obtain ⟨parsed, rfl, hparsed⟩ := routeLoop_forall₂ items hloop
  unfold writtenDomains
  rw [hroot, Option.bind_some, hnode]
  exact map_domain_of_forall₂ hparsed

/-! ## Distinct labels -/

/-- A hash sees only the normalized name. -/
theorem hashDomain_congr {a b : CStr} (h : normalizeDomain a = normalizeDomain b)
    (algo : HashAlgorithm) : hashDomain a algo = hashDomain b algo := by
  cases algo with
  | fnv1a => simp only [hashDomain, fnv1a64Domain, h]
  | siphash => simp only [hashDomain, siphash24Domain, h]

/-- The labels are the hashes of the names as written. -/
theorem map_hash_of_parse {doc : YamlDocument} {cfg : Config}
    (h : parseConfigYaml doc = .ok cfg) :
    cfg.routes.map (·.hash) = (writtenDomains doc).map (hashDomain · cfg.hashAlgo) := by
  rw [← map_domain_of_parse h, List.map_map]
  exact List.map_congr_left fun r hr => ((accepted_of_parse h).routes r hr).texts.hash_eq

/-- Distinct values of a function that factors through another. -/
theorem nodup_map_hash_iff (names : List CStr) (algo : HashAlgorithm) :
    (names.map (hashDomain · algo)).Nodup ↔
      (names.map normalizeDomain).Nodup ∧
        ∀ a ∈ names, ∀ b ∈ names, normalizeDomain a ≠ normalizeDomain b →
          hashDomain a algo ≠ hashDomain b algo := by
  induction names with
  | nil => simp
  | cons name names ih =>
    simp only [List.map_cons, List.nodup_cons, List.mem_map, not_exists, not_and, ih]
    constructor
    · rintro ⟨hnew, hnodup, hinj⟩
      refine ⟨⟨fun b hb heq => hnew b hb (hashDomain_congr heq algo), hnodup⟩, ?_⟩
      intro a ha b hb hne
      rcases List.mem_cons.mp ha with rfl | ha'
      · rcases List.mem_cons.mp hb with rfl | hb'
        · exact absurd rfl hne
        · exact fun heq => hnew b hb' heq.symm
      · rcases List.mem_cons.mp hb with rfl | hb'
        · exact hnew a ha'
        · exact hinj a ha' b hb' hne
    · rintro ⟨⟨hnew, hnodup⟩, hinj⟩
      refine ⟨fun b hb => hinj b (.tail _ hb) name (.head _) (hnew b hb), hnodup, ?_⟩
      exact fun a ha b hb => hinj a (.tail _ ha) b (.tail _ hb)

/-- **When an accepted document compiles.** The labels of the `switch` are pairwise distinct, and
    the emitted function is C, exactly when the document names no domain twice, letter case and one
    trailing dot aside, and no two of its names collide under the hash it selects. -/
theorem labels_nodup_iff (doc : YamlDocument) (cfg : Config) (h : parseConfigYaml doc = .ok cfg) :
    ((cfg.routes.map (·.hash)).Nodup ↔
      ((writtenDomains doc).map normalizeDomain).Nodup ∧
        ∀ a ∈ writtenDomains doc, ∀ b ∈ writtenDomains doc,
          normalizeDomain a ≠ normalizeDomain b →
            hashDomain a cfg.hashAlgo ≠ hashDomain b cfg.hashAlgo) ∧
    ((readDispatch cfg).isSome ↔ (cfg.routes.map (·.hash)).Nodup) := by
  refine ⟨?_, readDispatch_isSome_iff cfg⟩
  rw [map_hash_of_parse h]
  exact nodup_map_hash_iff (writtenDomains doc) cfg.hashAlgo

/-- Two routes to user space, for the name "a" and another one. -/
def twinDocument (second : String) : YamlDocument where
  nodes :=
    [.mapping [(2, 3)],
      .scalar (ascii "routes"), .sequence [4, 9],
      .mapping [(5, 6), (7, 8)],
      .scalar (ascii "domain"), .scalar (ascii "a"),
      .scalar (ascii "target"), .scalar (ascii "user_space"),
      .mapping [(5, 10), (7, 8)],
      .scalar (ascii second)]

def twinConfig (second : String) : Config :=
  let route : Route := { sampleRoute 0 with
    bloomEnabled := false
    bloomSize := 0
    bloomHashFunctions := 0
    bloomSeeds := [] }
  { configInitDefaults with
    routes := [route, { route with
      domain := CStr.lit second
      hash := hashDomain (CStr.lit second) .fnv1a }] }

set_option maxRecDepth 4000 in
theorem parse_twinDocument :
    parseConfigYaml (twinDocument "b") = .ok (twinConfig "b") ∧
      parseConfigYaml (twinDocument "A.") = .ok (twinConfig "A.") := by decide +kernel

theorem labels_nodup_sample : ((twinConfig "b").routes.map (·.hash)).Nodup := by
  refine (labels_nodup_iff (twinDocument "b") _ parse_twinDocument.1).1.mpr ?_
  decide

/-- "a" and "A." are one name: the document is accepted, both cases have one label. -/
theorem labels_repeated :
    ¬ ∀ (doc : YamlDocument) (cfg : Config), parseConfigYaml doc = .ok cfg →
      (cfg.routes.map (·.hash)).Nodup := by
  intro hall
  have hnodup := hall (twinDocument "A.") (twinConfig "A.") parse_twinDocument.2
  rw [map_hash_of_parse parse_twinDocument.2, nodup_map_hash_iff] at hnodup
  exact absurd hnodup.1 (by decide)

end Zereh.Link
