/-
  All routes share one Bloom map.

  `zereh_seed_bloom_map` sets the bits of every seed of every route in one array, and
  `zereh_bloom_allow` asks for the bits of a query under the parameters of its route, whoever set
  them. `Admits keys r ns hash` says that some bucket tested at clock value `ns` is covered by bits of
  `keys`. The answer is `Admits` over the keys of all routes (`bloomAllow_iff_admits`); what a route's
  own seeds admit is admitted whatever the other routes list, and the rest is decided by foreign bits
  (`bloom_shared`).
-/
import Zereh.Link.BloomSeed
import Zereh.Xdp.Safety

namespace Zereh.Link

open Lib Control

/-! ## Keys that admit a query -/

/-- The buckets that `zereh_bloom_allow` tests at clock value `ns`. -/
def testedBuckets (r : Route) (ns : UInt64) : List UInt64 :=
  if r.bloomTimeWindow = 0 then [0]
  else
    let bucket := Xdp.nowSec ns / r.bloomTimeWindow.toUInt64
    if bucket > 0 then [bucket, bucket - 1] else [bucket]

/-- In some tested bucket each bit of the query is a bit of one of the keys. -/
def Admits (keys : List BloomKey) (r : Route) (ns hash : UInt64) : Prop :=
  ∃ bucket ∈ testedBuckets r ns, ∀ c ∈ positions (routeKey r hash bucket),
    ∃ key ∈ keys, c ∈ positions key

theorem Admits.mono {keys keys' : List BloomKey} {r : Route} {ns hash : UInt64}
    (h : Admits keys r ns hash) (hsub : ∀ key ∈ keys, key ∈ keys') : Admits keys' r ns hash := by
  obtain ⟨bucket, hbucket, hcover⟩ := h
  refine ⟨bucket, hbucket, fun c hc => ?_⟩
  obtain ⟨key, hkey, hmem⟩ := hcover c hc
  exact ⟨key, hsub key hkey, hmem⟩

section Accepted

variable {cfg : Config} (hacc : cfg.Accepted) {r : Route} (hr : r ∈ cfg.routes)
  (hon : r.bloomEnabled = true)

include hacc hr hon

theorem bloomAllow_iff_admits (now : UInt64) (maps : Xdp.Maps) (ns hash : UInt64) :
    Xdp.bloomAllow (seedBloomMap cfg now maps) ns hash r.bloomSize r.bloomHashFunctions
        r.bloomTimeWindow = .ok true ↔ Admits (configKeys cfg now) r ns hash := by
  rw [bloomAllow_eq (hacc.routes r hr) hon, Except.ok.injEq]
  unfold Admits testedBuckets
  by_cases hw : r.bloomTimeWindow = 0
  · rw [if_pos hw, if_pos hw, covers_seedBloomMap hacc now maps hr hon]
    simp
  · rw [if_neg hw, if_neg hw]
    dsimp only
    rw [Bool.or_eq_true, Bool.and_eq_true, decide_eq_true_eq,
      covers_seedBloomMap hacc now maps hr hon, covers_seedBloomMap hacc now maps hr hon]
    split_ifs with hpos
    · simp [hpos]
    · simp [hpos]

end Accepted

/-- The keys of a route are among those of the configuration. -/
theorem mem_configKeys_of_route {cfg : Config} {r : Route} (hr : r ∈ cfg.routes) {now : UInt64} :
    ∀ key ∈ routeKeys cfg.hashAlgo now r, key ∈ configKeys cfg now := fun _ hkey =>
  List.mem_flatMap.mpr ⟨r, hr, hkey⟩

/-! ## Other routes -/

/-- The second configuration has other Bloom parameters and seeds on the routes other than `i`, or
    their filters turned off. -/
structure ReplacesOthers (i : Nat) (cfg cfg' : Config) : Prop where
  rest : { cfg with routes := cfg'.routes } = cfg'
  length : cfg'.routes.length = cfg.routes.length
  same : cfg'.routes[i]? = cfg.routes[i]?
  others : ∀ (j : Nat) (r r' : Route), cfg.routes[j]? = some r → cfg'.routes[j]? = some r' →
    r' = { r with
      bloomEnabled := r'.bloomEnabled
      bloomSize := r'.bloomSize
      bloomHashFunctions := r'.bloomHashFunctions
      bloomTimeWindow := r'.bloomTimeWindow
      bloomSeeds := r'.bloomSeeds }

/-- The query is admitted at a route, but not by the bits of the route's own seeds. -/
def Borrows (cfg : Config) (now : UInt64) (r : Route) (ns hash : UInt64) : Prop :=
  Admits (configKeys cfg now) r ns hash ∧ ¬ Admits (routeKeys cfg.hashAlgo now r) r ns hash

theorem admits_iff_borrows {cfg : Config} {now : UInt64} {r : Route} {ns hash : UInt64}
    (hown : ∀ key ∈ routeKeys cfg.hashAlgo now r, key ∈ configKeys cfg now) :
    Admits (configKeys cfg now) r ns hash ↔
      Admits (routeKeys cfg.hashAlgo now r) r ns hash ∨ Borrows cfg now r ns hash := by
  constructor
  · intro hall
    by_cases hadmits : Admits (routeKeys cfg.hashAlgo now r) r ns hash
    · exact .inl hadmits
    · exact .inr ⟨hall, hadmits⟩
  · rintro (hadmits | hborrows)
    · exact hadmits.mono hown
    · exact hborrows.1

theorem or_iff_or_of_disjoint {a b c : Prop} (hb : b → ¬ a) (hc : c → ¬ a) :
    (a ∨ b ↔ a ∨ c) ↔ (b ↔ c) := by
  tauto

/-- The filter answers with a truth value, so two answers agree when both or neither admit. -/
theorem bloomAllow_eq_iff (maps maps' : Xdp.Maps) (ns hash : UInt64) (bits : UInt32)
    (functions : UInt8) (window : UInt16) :
    Xdp.bloomAllow maps' ns hash bits functions window =
        Xdp.bloomAllow maps ns hash bits functions window ↔
      (Xdp.bloomAllow maps' ns hash bits functions window = .ok true ↔
        Xdp.bloomAllow maps ns hash bits functions window = .ok true) := by
  obtain ⟨b, hb, -⟩ := Xdp.bloomAllow_safe maps ns hash bits functions window
  obtain ⟨b', hb', -⟩ := Xdp.bloomAllow_safe maps' ns hash bits functions window
  rw [hb, hb', Except.ok.injEq, Except.ok.injEq, Except.ok.injEq, Bool.eq_iff_iff]

/-- With every other filter off only the route's own keys are left. -/
theorem mem_configKeys_of_alone {cfg : Config} {i : Nat} {r : Route} {now : UInt64}
    (halone : ∀ j r', cfg.routes[j]? = some r' → j ≠ i → r'.bloomEnabled = false)
    (hr : cfg.routes[i]? = some r) :
    ∀ key ∈ configKeys cfg now, key ∈ routeKeys cfg.hashAlgo now r := by
  intro key hkey
  obtain ⟨r', hr', hkey⟩ := List.mem_flatMap.mp hkey
  obtain ⟨j, hj⟩ := List.mem_iff_getElem?.mp hr'
  by_cases hij : j = i
  · subst hij
    rwa [Option.some.inj (hr.symm.trans hj)]
  · rw [routeKeys, halone j r' hj hij] at hkey
    cases hkey

/-- **One map for all routes.** For every accepted configuration, route with a filter, query hash and
    clock value: a query is admitted exactly when its bits in a tested bucket come from seeds of any
    routes. What the route's own seeds admit stays admitted whatever the other routes list, with the
    other filters off nothing else is admitted, and another choice of the other routes' seeds gives
    the same answer exactly when both choices, or neither, lend the route the bits it lacks. -/
theorem bloom_shared (doc : YamlDocument) (cfg : Config) (hparse : parseConfigYaml doc = .ok cfg)
    (i : Nat) (r : Route) (hr : cfg.routes[i]? = some r) (hon : r.bloomEnabled = true)
    (now : UInt64) (maps : Xdp.Maps) (ns hash : UInt64) :
    (Xdp.bloomAllow (seedBloomMap cfg now maps) ns hash r.bloomSize r.bloomHashFunctions
        r.bloomTimeWindow = .ok true ↔ Admits (configKeys cfg now) r ns hash) ∧
    ∀ cfg' : Config, cfg'.Accepted → ReplacesOthers i cfg cfg' →
      (Admits (routeKeys cfg.hashAlgo now r) r ns hash →
        Xdp.bloomAllow (seedBloomMap cfg' now maps) ns hash r.bloomSize r.bloomHashFunctions
          r.bloomTimeWindow = .ok true) ∧
      ((∀ j r', cfg'.routes[j]? = some r' → j ≠ i → r'.bloomEnabled = false) →
        (Xdp.bloomAllow (seedBloomMap cfg' now maps) ns hash r.bloomSize r.bloomHashFunctions
          r.bloomTimeWindow = .ok true ↔ Admits (routeKeys cfg.hashAlgo now r) r ns hash)) ∧
      (Xdp.bloomAllow (seedBloomMap cfg' now maps) ns hash r.bloomSize r.bloomHashFunctions
          r.bloomTimeWindow =
        Xdp.bloomAllow (seedBloomMap cfg now maps) ns hash r.bloomSize r.bloomHashFunctions
          r.bloomTimeWindow ↔ (Borrows cfg' now r ns hash ↔ Borrows cfg now r ns hash)) := by
  have hmem := List.mem_of_getElem? hr
  have hown : ∀ key ∈ routeKeys cfg.hashAlgo now r, key ∈ configKeys cfg now :=
    mem_configKeys_of_route hmem
  have hallow := bloomAllow_iff_admits (accepted_of_parse hparse) hmem hon now maps ns hash
  refine ⟨hallow, fun cfg' hacc' hreplaces => ?_⟩
  have hr' : cfg'.routes[i]? = some r := hreplaces.same.trans hr
  have hmem' := List.mem_of_getElem? hr'
  have halgo : cfg'.hashAlgo = cfg.hashAlgo := by rw [← hreplaces.rest]
  have hown' : ∀ key ∈ routeKeys cfg'.hashAlgo now r, key ∈ configKeys cfg' now :=
    mem_configKeys_of_route hmem'
  have hallow' := bloomAllow_iff_admits hacc' hmem' hon now maps ns hash
  rw [halgo] at hown'
  refine ⟨fun hadmits => hallow'.mpr (hadmits.mono hown'), fun halone => ?_, ?_⟩
  · have honly : ∀ key ∈ configKeys cfg' now, key ∈ routeKeys cfg'.hashAlgo now r :=
      mem_configKeys_of_alone halone hr'
    rw [halgo] at honly
    exact hallow'.trans ⟨fun hall => hall.mono honly, fun hadmits => hadmits.mono hown'⟩
  · have hsplit : Admits (configKeys cfg now) r ns hash ↔
        Admits (routeKeys cfg.hashAlgo now r) r ns hash ∨ Borrows cfg now r ns hash :=
      admits_iff_borrows hown
    have hsplit' : Admits (configKeys cfg' now) r ns hash ↔
        Admits (routeKeys cfg.hashAlgo now r) r ns hash ∨ Borrows cfg' now r ns hash := by
      rw [← halgo]
      exact admits_iff_borrows (halgo ▸ hown')
    have hborrows : Borrows cfg now r ns hash → ¬ Admits (routeKeys cfg.hashAlgo now r) r ns hash :=
      And.right
    have hborrows' : Borrows cfg' now r ns hash →
        ¬ Admits (routeKeys cfg.hashAlgo now r) r ns hash := halgo ▸ And.right
    rw [bloomAllow_eq_iff, hallow, hallow', hsplit, hsplit']
    exact or_iff_or_of_disjoint hborrows' hborrows

/-- Two routes, for "a" and for "b", the first behind a Bloom filter with its domain as seed, the
    second with the given pairs. -/
def neighbourDocument (pairs : List (Nat × Nat)) : YamlDocument where
  nodes :=
    [.mapping [(2, 3)],
      .scalar (ascii "routes"), .sequence [4, 9],
      .mapping [(5, 6), (7, 8), (11, 12)],
      .scalar (ascii "domain"), .scalar (ascii "a"),
      .scalar (ascii "target"), .scalar (ascii "user_space"),
      .mapping pairs,
      .scalar (ascii "b"),
      .scalar (ascii "filters"), .mapping [(13, 14)],
      .scalar (ascii "bloom_filter"), .mapping [(15, 16)],
      .scalar (ascii "enabled"), .scalar (ascii "true")]

def neighbourRoute : Route :=
  { (sampleRoute 0) with
    domain := CStr.lit "b"
    hash := hashDomain (CStr.lit "b") .fnv1a
    bloomSeeds := [CStr.lit "b"] }

/-- The neighbour has a filter too. -/
def neighbourConfig : Config :=
  { configInitDefaults with routes := [sampleRoute 0, neighbourRoute] }

/-- The neighbour has none. -/
def aloneConfig : Config :=
  { configInitDefaults with
    routes := [sampleRoute 0, { neighbourRoute with
      bloomEnabled := false
      bloomSize := 0
      bloomHashFunctions := 0
      bloomSeeds := [] }] }

set_option maxRecDepth 4000 in
theorem parse_neighbourDocument :
    parseConfigYaml (neighbourDocument [(5, 10), (7, 8), (11, 12)]) = .ok neighbourConfig ∧
      parseConfigYaml (neighbourDocument [(5, 10), (7, 8)]) = .ok aloneConfig := by decide +kernel

theorem replacesOthers_alone : ReplacesOthers 0 neighbourConfig aloneConfig where
  rest := rfl
  length := rfl
  same := rfl
  others := by
    intro j r r' hr hr'
    match j with
    | 0 =>
      cases hr
      cases hr'
      rfl
    | 1 =>
      cases hr
      cases hr'
      rfl
    | j + 2 => cases hr

/-- The route's own seed passes with and without the neighbour's. -/
theorem bloom_shared_sample :
    Xdp.bloomAllow (seedBloomMap aloneConfig 0 .created) 0 (hashDomain (CStr.lit "a") .fnv1a) 1024 3
      0 = .ok true := by
  have hshared := bloom_shared _ _ parse_neighbourDocument.1 0 (sampleRoute 0) rfl rfl 0 .created 0
    (hashDomain (CStr.lit "a") .fnv1a)
  refine (hshared.2 aloneConfig (accepted_of_parse parse_neighbourDocument.2)
    replacesOthers_alone).1 ⟨0, List.mem_singleton_self _, fun c hc => ?_⟩
  exact ⟨_, List.mem_singleton_self _, hc⟩

/-- "b" is admitted at the route for "a" as long as the neighbour lists it. -/
theorem foreign_seed_admits :
    ¬ ∀ (doc : YamlDocument) (cfg : Config), parseConfigYaml doc = .ok cfg →
      ∀ (i : Nat) (r : Route), cfg.routes[i]? = some r → r.bloomEnabled = true →
      ∀ (now : UInt64) (maps : Xdp.Maps) (ns hash : UInt64) (cfg' : Config), cfg'.Accepted →
        ReplacesOthers i cfg cfg' →
          Xdp.bloomAllow (seedBloomMap cfg' now maps) ns hash r.bloomSize r.bloomHashFunctions
              r.bloomTimeWindow =
            Xdp.bloomAllow (seedBloomMap cfg now maps) ns hash r.bloomSize r.bloomHashFunctions
              r.bloomTimeWindow := by
  intro hall
  have hsame := hall _ _ parse_neighbourDocument.1 0 (sampleRoute 0) rfl rfl 0 .created 0
    (hashDomain (CStr.lit "b") .fnv1a) aloneConfig (accepted_of_parse parse_neighbourDocument.2)
    replacesOthers_alone
  have hadmitted : Xdp.bloomAllow (seedBloomMap neighbourConfig 0 .created) 0
      (hashDomain (CStr.lit "b") .fnv1a) 1024 3 0 = .ok true := by decide +kernel
  have hrejected : Xdp.bloomAllow (seedBloomMap aloneConfig 0 .created) 0
      (hashDomain (CStr.lit "b") .fnv1a) 1024 3 0 = .ok false := by decide +kernel
  cases hrejected.symm.trans (hsame.trans hadmitted)

end Zereh.Link
