/-
  Bloom entries with a time window, and the two clocks they hang on.

  `zereh_seed_bloom_map` takes its bucket from `time (NULL)` and inserts a seed for that bucket and
  the one before it. `zereh_bloom_allow` takes its bucket from `bpf_ktime_get_ns` and tests that one
  and the one before it.

  * One configuration: a seed is valid as loaded when what is tested is covered at both ends of the
    window (`validWhenLoaded_iff`), and so if the loader's bucket is that of the data plane or the
    next one (`testedCovered_of_bucket`).
  * All configurations: for every other pair of clocks there is an accepted configuration whose seed
    is rejected within the window (`seeded_window_iff`). Words of different buckets differ
    (`bloomMixed_injective`), and some size of the filter leaves them different remainders
    (`Lib.Moduli`).
-/
import Zereh.Lib.Moduli
import Zereh.Control.Numbers
import Zereh.Xdp.ProofOfWork
import Zereh.Link.BloomSeed

namespace Zereh.Link

open Lib Control

/-- The seed passes at clock value `loaded` and at every later one up to the window's length. -/
def ValidWhenLoaded (cfg : Config) (now : UInt64) (maps : Xdp.Maps) (r : Route) (seed : CStr)
    (loaded : UInt64) : Prop :=
  ∀ ns : UInt64, loaded ≤ ns → ns.toNat ≤ loaded.toNat + r.bloomTimeWindow.toNat * 1000000000 →
    Xdp.bloomAllow (seedBloomMap cfg now maps) ns (hashDomain seed cfg.hashAlgo) r.bloomSize
      r.bloomHashFunctions r.bloomTimeWindow = .ok true

/-! ## Buckets -/

/-- The number of a time bucket, from seconds. -/
def bucketOf (seconds : Nat) (window : UInt16) : Nat := seconds / window.toNat

/-- A bucket and the one before it, if there is one. -/
def recent (b : Nat) : List Nat := if b = 0 then [0] else [b, b - 1]

theorem mem_recent {b x : Nat} : x ∈ recent b ↔ x = b ∨ x + 1 = b := by
  unfold recent
  split_ifs with hb
  · simp [hb]
  · simp only [List.mem_cons, List.not_mem_nil, or_false]
    omega

theorem length_recent_le (b : Nat) : (recent b).length ≤ 2 := by
  unfold recent
  split_ifs <;> simp

/-- Buckets that are more than one apart have no recent bucket in common. -/
theorem recent_ne {b s : Nat} (hfar : b + 1 < s ∨ s + 1 < b) :
    ∀ x ∈ recent b, ∀ y ∈ recent s, x ≠ y := by
  intro x hx y hy
  rw [mem_recent] at hx hy
  omega

theorem toNat_routeBucket {r : Route} {now : UInt64} (hw : 0 < r.bloomTimeWindow) :
    (routeBucket r now).toNat = bucketOf now.toNat r.bloomTimeWindow := by
  rw [routeBucket, if_pos hw, UInt64.toNat_div, UInt16.toNat_toUInt64, bucketOf]

theorem toNat_bucket (window : UInt16) (ns : UInt64) :
    (Xdp.nowSec ns / window.toUInt64).toNat = bucketOf (ns.toNat / 1000000000) window := by
  rw [UInt64.toNat_div, UInt16.toNat_toUInt64, Xdp.nowSec, UInt64.toNat_div, bucketOf]
  rfl

theorem toNat_sub_one {b : UInt64} (hpos : 0 < b.toNat) : (b - 1).toNat = b.toNat - 1 :=
  UInt64.toNat_sub_of_le _ _ (by
    rw [UInt64.le_iff_toNat_le, UInt64.toNat_one]
    omega)

/-- The loader inserts a seed for its bucket and for the one before. -/
theorem mem_seedKeys {algo : HashAlgorithm} {r : Route} {now : UInt64} {seed : CStr}
    {key : BloomKey} (hw : 0 < r.bloomTimeWindow) (hz : hashDomain seed algo ≠ 0) :
    key ∈ seedKeys algo r now seed ↔ ∃ b : UInt64,
      b.toNat ∈ recent (bucketOf now.toNat r.bloomTimeWindow) ∧
        key = routeKey r (hashDomain seed algo) b := by
  have hbucket : (routeBucket r now).toNat = bucketOf now.toNat r.bloomTimeWindow :=
    toNat_routeBucket hw
  have hpos : routeBucket r now > 0 ↔ 0 < (routeBucket r now).toNat := UInt64.lt_iff_toNat_lt
  unfold seedKeys
  rw [if_neg hz, ← hbucket]
  simp only [mem_recent, List.mem_cons]
  constructor
  · rintro (rfl | hkey)
    · exact ⟨_, .inl rfl, rfl⟩
    · split_ifs at hkey with hprev
      · have hprev := hpos.mp hprev.2
        refine ⟨routeBucket r now - 1, .inr ?_, List.mem_singleton.mp hkey⟩
        rw [toNat_sub_one hprev]
        omega
      · cases hkey
  · rintro ⟨b, hb | hb, rfl⟩
    · rw [UInt64.toNat_inj.mp hb]
      exact .inl rfl
    · have hprev : 0 < (routeBucket r now).toNat := by omega
      have hsub : b = routeBucket r now - 1 := UInt64.toNat_inj.mp (by
        rw [toNat_sub_one hprev]
        omega)
      rw [if_pos ⟨hw, hpos.mpr hprev⟩, hsub]
      exact .inr (.head _)

/-! ## One configuration -/

/-- All positions of the seed in some bucket that is tested during bucket `b` belong to keys
    that were loaded. -/
def TestedCovered (cfg : Config) (now : UInt64) (r : Route) (hash : UInt64) (b : Nat) : Prop :=
  ∃ b' : UInt64, b'.toNat ∈ recent b ∧
    ∀ c ∈ positions (routeKey r hash b'), ∃ key ∈ configKeys cfg now, c ∈ positions key

section Window

variable {cfg : Config} {r : Route} {seed : CStr} {now : UInt64}

theorem testedCovered_of_bucket (hr : r ∈ cfg.routes) (hon : r.bloomEnabled = true)
    (hw : 0 < r.bloomTimeWindow) (hs : seed ∈ r.bloomSeeds) (hz : hashDomain seed cfg.hashAlgo ≠ 0)
    {b : Nat} (hb : b ≤ bucketOf now.toNat r.bloomTimeWindow + 1)
    (hb' : bucketOf now.toNat r.bloomTimeWindow ≤ b + 1) :
    TestedCovered cfg now r (hashDomain seed cfg.hashAlgo) b := by
  have hlt : bucketOf now.toNat r.bloomTimeWindow < 2 ^ 64 := by
    rw [← toNat_routeBucket hw]
    exact (routeBucket r now).toNat_lt
  -- of two buckets at most one apart the smaller is recent at both
  obtain ⟨x, hx, hmine⟩ : ∃ x, x ∈ recent b ∧ x ∈ recent (bucketOf now.toNat r.bloomTimeWindow) := by
    refine ⟨min b (bucketOf now.toNat r.bloomTimeWindow), ?_, ?_⟩ <;> (rw [mem_recent]; omega)
  have hnat : (UInt64.ofNat x).toNat = x := by
    rw [UInt64.toNat_ofNat', Nat.mod_eq_of_lt]
    rw [mem_recent] at hmine
    omega
  refine ⟨UInt64.ofNat x, by rwa [hnat], fun c hc => ⟨_, ?_, hc⟩⟩
  refine List.mem_flatMap.mpr ⟨r, hr, ?_⟩
  rw [routeKeys, if_pos hon]
  exact List.mem_flatMap.mpr ⟨seed, hs, (mem_seedKeys hw hz).mpr ⟨_, by rwa [hnat], rfl⟩⟩

/-- One evaluation of `zereh_bloom_allow`: the current bucket and the one before are tested. -/
theorem bloomAllow_window_iff (hacc : cfg.Accepted) (hr : r ∈ cfg.routes)
    (hon : r.bloomEnabled = true) (hw : 0 < r.bloomTimeWindow) (maps : Xdp.Maps)
    (ns hash : UInt64) :
    Xdp.bloomAllow (seedBloomMap cfg now maps) ns hash r.bloomSize r.bloomHashFunctions
        r.bloomTimeWindow = .ok true ↔
      TestedCovered cfg now r hash (bucketOf (ns.toNat / 1000000000) r.bloomTimeWindow) := by
  have hne : r.bloomTimeWindow ≠ 0 := UInt16.pos_iff_ne_zero.mp hw
  have hb := toNat_bucket r.bloomTimeWindow ns
  unfold TestedCovered
  rw [bloomAllow_eq (hacc.routes r hr) hon, if_neg hne, Except.ok.injEq]
  dsimp only
  rw [Bool.or_eq_true, Bool.and_eq_true, decide_eq_true_eq,
    covers_seedBloomMap hacc now maps hr hon, covers_seedBloomMap hacc now maps hr hon,
    gt_iff_lt, UInt64.lt_iff_toNat_lt, UInt64.toNat_zero]
  generalize Xdp.nowSec ns / r.bloomTimeWindow.toUInt64 = bucket at hb
  simp only [mem_recent]
  constructor
  · rintro (hcov | ⟨hpos, hcov⟩)
    · exact ⟨bucket, .inl hb, hcov⟩
    · exact ⟨bucket - 1, .inr (by rw [toNat_sub_one hpos]; omega), hcov⟩
  · rintro ⟨b', hb' | hb', hcov⟩
    · rw [UInt64.toNat_inj.mp (hb'.trans hb.symm)] at hcov
      exact .inl hcov
    · have hpos : 0 < bucket.toNat := by omega
      refine .inr ⟨hpos, ?_⟩
      rwa [UInt64.toNat_inj.mp (show (bucket - 1).toNat = b'.toNat by
        rw [toNat_sub_one hpos]
        omega)]

/-- A window spans two buckets, so two tests decide. -/
theorem validWhenLoaded_iff (hacc : cfg.Accepted) (hr : r ∈ cfg.routes)
    (hon : r.bloomEnabled = true) (hw : 0 < r.bloomTimeWindow) (maps : Xdp.Maps) {loaded : UInt64}
    (hclock : loaded.toNat + r.bloomTimeWindow.toNat * 1000000000 < 2 ^ 64) :
    ValidWhenLoaded cfg now maps r seed loaded ↔
      TestedCovered cfg now r (hashDomain seed cfg.hashAlgo)
          (bucketOf (loaded.toNat / 1000000000) r.bloomTimeWindow) ∧
        TestedCovered cfg now r (hashDomain seed cfg.hashAlgo)
          (bucketOf (loaded.toNat / 1000000000) r.bloomTimeWindow + 1) := by
  have hwpos : 0 < r.bloomTimeWindow.toNat := UInt16.lt_iff_toNat_lt.mp hw
  -- `w` seconds later the bucket is the next one
  have hlast : (loaded.toNat + r.bloomTimeWindow.toNat * 1000000000) / 1000000000 =
      loaded.toNat / 1000000000 + r.bloomTimeWindow.toNat :=
    Nat.add_mul_div_right _ _ (by decide)
  have hnext : bucketOf (loaded.toNat / 1000000000 + r.bloomTimeWindow.toNat) r.bloomTimeWindow =
      bucketOf (loaded.toNat / 1000000000) r.bloomTimeWindow + 1 := Nat.add_div_right _ hwpos
  constructor
  · intro hvalid
    refine ⟨?_, ?_⟩
    · exact (bloomAllow_window_iff hacc hr hon hw maps loaded _).mp
        (hvalid loaded (UInt64.le_refl _) (by omega))
    · have hto : (UInt64.ofNat (loaded.toNat + r.bloomTimeWindow.toNat * 1000000000)).toNat =
          loaded.toNat + r.bloomTimeWindow.toNat * 1000000000 := by
        rw [UInt64.toNat_ofNat', Nat.mod_eq_of_lt hclock]
      have h := (bloomAllow_window_iff hacc hr hon hw maps _ _).mp
        (hvalid (UInt64.ofNat (loaded.toNat + r.bloomTimeWindow.toNat * 1000000000))
          (by rw [UInt64.le_iff_toNat_le, hto]; omega) (by rw [hto]))
      rwa [hto, hlast, hnext] at h
  · rintro ⟨h1, h2⟩ ns hle hlen
    rw [bloomAllow_window_iff hacc hr hon hw]
    rw [UInt64.le_iff_toNat_le] at hle
    have hlo : bucketOf (loaded.toNat / 1000000000) r.bloomTimeWindow ≤
        bucketOf (ns.toNat / 1000000000) r.bloomTimeWindow :=
      Nat.div_le_div_right (Nat.div_le_div_right hle)
    have hhi : bucketOf (ns.toNat / 1000000000) r.bloomTimeWindow ≤
        bucketOf (loaded.toNat / 1000000000) r.bloomTimeWindow + 1 := by
      rw [← hnext, ← hlast]
      exact Nat.div_le_div_right (Nat.div_le_div_right hlen)
    rcases Nat.lt_or_ge (bucketOf (loaded.toNat / 1000000000) r.bloomTimeWindow)
      (bucketOf (ns.toNat / 1000000000) r.bloomTimeWindow) with hlt | hge
    · rwa [Nat.le_antisymm hhi hlt]
    · rwa [Nat.le_antisymm hge hlo]

end Window

/-! ## A configuration for every size and window -/

/-- One route for the name "a" behind a Bloom filter with one hash function. -/
def windowDocument (size : UInt32) (window : UInt16) : YamlDocument where
  nodes :=
    [.mapping [(2, 3)],
      .scalar (ascii "routes"), .sequence [4],
      .mapping [(5, 6), (7, 8), (9, 10)],
      .scalar (ascii "domain"), .scalar (ascii "a"),
      .scalar (ascii "target"), .scalar (ascii "user_space"),
      .scalar (ascii "filters"), .mapping [(11, 12)],
      .scalar (ascii "bloom_filter"), .mapping [(13, 14), (15, 16), (17, 18), (19, 20)],
      .scalar (ascii "enabled"), .scalar (ascii "true"),
      .scalar (ascii "size"), .scalar (CText.decimal size.toNat),
      .scalar (ascii "hash_functions"), .scalar (ascii "1"),
      .scalar (ascii "time_window"), .scalar (CText.decimal window.toNat)]

def windowRoute (size : UInt32) (window : UInt16) : Route :=
  { sampleRoute window with bloomSize := size, bloomHashFunctions := 1 }

def windowConfig (size : UInt32) (window : UInt16) : Config :=
  { configInitDefaults with routes := [windowRoute size window] }

/-- The route before its Bloom filter is read. -/
def windowDraft : Draft where
  toRoute :=
    { sampleRoute 0 with
      minLabels := 0
      maxLabels := 0
      qnameMinLen := 0
      qnameMaxLen := 0
      bloomEnabled := false
      bloomSeeds := [] }
  hasMinLabels := false
  hasMaxLabels := false
  hasMinLength := false
  hasMaxLength := false

theorem field_ok {σ α : Type} {node : YamlNode} {parse : YamlNode → Parsed α} {a : α}
    (h : parse node = .ok a) (set : α → σ → σ) (s : σ) :
    field (some node) parse set s = .ok (set a s) := by
  rw [field, h]
  rfl

section Parse

variable (size : UInt32) (window : UInt16)

/-- The route after its Bloom filter has been read. -/
def filteredDraft : Draft :=
  { windowDraft with
    bloomEnabled := true
    bloomSize := size
    bloomHashFunctions := 1
    bloomTimeWindow := window }

theorem parseBloomFilter_window :
    parseBloomFilter (windowDocument size window)
      (.mapping [(13, 14), (15, 16), (17, 18), (19, 20)]) windowDraft =
      .ok (filteredDraft size window) := by
  have htrue : parseBool (.scalar (ascii "true")) = .ok true := by decide +kernel
  have hone : parseU8 (.scalar (ascii "1")) = .ok 1 := by decide +kernel
  refine (fish_ok (field_ok htrue _ _)).trans ?_
  refine (fish_ok (field_ok (parseU32_decimal size) _ _)).trans ?_
  refine (fish_ok (field_ok hone _ _)).trans ?_
  exact (fish_ok (field_ok (parseU16_decimal window) _ _)).trans rfl

variable {size}

theorem checkRoute_window (hmin : 64 ≤ size) (hmax : size ≤ 65536) :
    checkRoute (pairBounds (filteredDraft size window)) = .ok (windowRoute size window) := by
  have hzero : size ≠ 0 := by
    rintro rfl
    exact absurd hmin (by decide)
  have hrange : ¬ (size > 65536 ∨ size < 64) :=
    not_or.mpr ⟨UInt32.not_lt.mpr hmax, UInt32.not_lt.mpr hmin⟩
  have hbloom : checkRoute (pairBounds (filteredDraft size window)) =
      if (if size = 0 then 1024 else size) > 65536 ∨ (if size = 0 then 1024 else size) < 64 then
        reject
      else .ok { windowRoute size window with bloomSize := if size = 0 then 1024 else size } := rfl
  rw [hbloom, if_neg hzero, if_neg hrange]
  rfl

theorem parseRoute_window (hmin : 64 ≤ size) (hmax : size ≤ 65536) :
    parseRoute (windowDocument size window) ((windowDocument size window).getNode 4)
      configInitDefaults = .ok (windowRoute size window) := by
  have hfilters : parseRouteFilters (windowDocument size window) (.mapping [(11, 12)]) windowDraft =
      .ok (filteredDraft size window) := parseBloomFilter_window size window
  have hroute : parseRoute (windowDocument size window) ((windowDocument size window).getNode 4)
      configInitDefaults =
      parseRouteFilters (windowDocument size window) (.mapping [(11, 12)]) windowDraft >>=
        fun d => checkRoute (pairBounds d) := rfl
  rw [hroute, hfilters]
  exact checkRoute_window window hmin hmax

theorem parse_windowDocument (hmin : 64 ≤ size) (hmax : size ≤ 65536) :
    parseConfigYaml (windowDocument size window) = .ok (windowConfig size window) := by
  have hroot : (windowDocument size window).getRootNode = some (.mapping [(2, 3)]) := rfl
  have hhead : parseHead (windowDocument size window) (.mapping [(2, 3)]) configInitDefaults =
      .ok configInitDefaults := rfl
  have hnode : mapGet (windowDocument size window) (.mapping [(2, 3)]) "routes" =
      some (.sequence [4]) := rfl
  have hroutes : parseRoutes (windowDocument size window) (.sequence [4]) configInitDefaults =
      .ok (windowConfig size window) := by
    rw [parseRoutes, routeLoop, if_neg (by decide), parseRoute_window window hmin hmax]
    rfl
  unfold parseConfigYaml
  rw [hroot]
  dsimp only
  rw [hhead, hnode]
  change (orSay .invalidRoutes (parseRoutes (windowDocument size window) (.sequence [4])
    configInitDefaults) >>= _) = _
  rw [hroutes]
  rfl

end Parse

/-! ## All configurations -/

theorem bloomMixed_injective (hash : UInt64) (k : Nat) :
    Function.Injective (Xdp.bloomMixed hash k) := by
  have hmul : Function.Bijective fun x : UInt64 => x * 0x517cc1b727220a95 :=
    mul_bijective (d := 0x2040003d780970bd) (by decide)
  have heq : Xdp.bloomMixed hash k = fun b => Xdp.mix64 (b * 0x517cc1b727220a95 ^^^
      (hash ^^^ ((UInt64.ofNat k + 1) * 0x9e3779b97f4a7c15))) := by
    funext b
    rw [Xdp.bloomMixed, UInt64.xor_comm]
  rw [heq]
  exact (Xdp.mix64_bijective.comp ((xor_bijective _).comp hmul)).injective

/-- The word that decides for the seed "a" in a bucket. -/
def seedWord (b : Nat) : Nat :=
  (Xdp.bloomMixed (hashDomain (CStr.lit "a") .fnv1a) 0 (UInt64.ofNat b)).toNat

theorem seedWord_ne {x y : Nat} (hx : x < 2 ^ 64) (hy : y < 2 ^ 64) (hne : x ≠ y) :
    seedWord x ≠ seedWord y := by
  intro h
  have heq := bloomMixed_injective _ _ (UInt64.toNat_inj.mp h)
  have hnat := congrArg UInt64.toNat heq
  rw [UInt64.toNat_ofNat', UInt64.toNat_ofNat', Nat.mod_eq_of_lt hx, Nat.mod_eq_of_lt hy] at hnat
  exact hne hnat

/-- Filter sizes, primes: four differences of words are too small for all of them to divide one. -/
def sizes : List Nat :=
  [65521, 65519, 65497, 65479, 65449, 65447, 65437, 65423, 65419, 65413, 65407, 65393, 65381,
    65371, 65357, 65353, 65327]

theorem sizes_coprime : sizes.Pairwise Nat.Coprime := by decide +kernel

theorem sizes_bounds : ∀ p ∈ sizes, 64 ≤ p ∧ p ≤ 65536 := by decide

/-- Some size tells the words of two buckets that are far apart from each other. -/
theorem exists_size_apart {b s : Nat} (hb : b < 2 ^ 64) (hs : s < 2 ^ 64)
    (hfar : b + 1 < s ∨ s + 1 < b) :
    ∃ p ∈ sizes, ∀ x ∈ recent b, ∀ y ∈ recent s, seedWord x % p ≠ seedWord y % p := by
  have hbound : ∀ c, ∀ x ∈ (recent c).map seedWord, x ≤ 2 ^ 64 := by
    intro c x hx
    obtain ⟨c', -, rfl⟩ := List.mem_map.mp hx
    exact Nat.le_of_lt (UInt64.toNat_lt _)
  have hne : ∀ x ∈ (recent b).map seedWord, ∀ y ∈ (recent s).map seedWord, x ≠ y := by
    intro x hx y hy
    obtain ⟨b', hb', rfl⟩ := List.mem_map.mp hx
    obtain ⟨s', hs', rfl⟩ := List.mem_map.mp hy
    have hdiff := recent_ne hfar b' hb' s' hs'
    rw [mem_recent] at hb' hs'
    exact seedWord_ne (by omega) (by omega) hdiff
  have hlarge : (2 ^ 64) ^ (((recent b).map seedWord).length * ((recent s).map seedWord).length) <
      sizes.prod := by
    have hfour : ((recent b).map seedWord).length * ((recent s).map seedWord).length ≤ 4 := by
      rw [List.length_map, List.length_map]
      exact Nat.mul_le_mul (length_recent_le b) (length_recent_le s)
    exact Nat.lt_of_le_of_lt (Nat.pow_le_pow_right (by decide) hfour) (by decide +kernel)
  obtain ⟨p, hp, hapart⟩ :=
    Moduli.exists_modulus_apart sizes_coprime (hbound b) (hbound s) hne hlarge
  exact ⟨p, hp, fun x hx y hy =>
    hapart _ (List.mem_map_of_mem hx) _ (List.mem_map_of_mem hy)⟩

section Rejected

variable {size : UInt32} {window : UInt16} {now : UInt64}

theorem hash_seed_ne_zero : hashDomain (CStr.lit "a") .fnv1a ≠ 0 := by decide +kernel

/-- With one hash function a key has one position. -/
theorem positions_window (bucket : UInt64) :
    positions (routeKey (windowRoute size window) (hashDomain (CStr.lit "a") .fnv1a) bucket) =
      [seedWord bucket.toNat % size.toNat] := by
  rw [seedWord, UInt64.ofNat_toNat]
  rfl

/-- What is covered has the remainder of a word that was loaded. -/
theorem exists_remainder_eq (hw : 0 < window) {b : Nat}
    (h : TestedCovered (windowConfig size window) now (windowRoute size window)
      (hashDomain (CStr.lit "a") .fnv1a) b) :
    ∃ x ∈ recent b, ∃ y ∈ recent (bucketOf now.toNat window),
      seedWord x % size.toNat = seedWord y % size.toNat := by
  obtain ⟨b', hb', hcov⟩ := h
  rw [positions_window] at hcov
  obtain ⟨key, hkey, hc⟩ := hcov _ (.head _)
  have hkeys : configKeys (windowConfig size window) now =
      seedKeys .fnv1a (windowRoute size window) now (CStr.lit "a") := by
    change (seedKeys .fnv1a (windowRoute size window) now (CStr.lit "a") ++ []) ++ [] = _
    rw [List.append_nil, List.append_nil]
  rw [hkeys, mem_seedKeys hw hash_seed_ne_zero] at hkey
  obtain ⟨s, hs, rfl⟩ := hkey
  rw [positions_window, List.mem_singleton] at hc
  exact ⟨b'.toNat, hb', s.toNat, hs, hc⟩

/-- Away from the loader's bucket some configuration rejects its seed. -/
theorem exists_not_covered (hw : 0 < window) {b : Nat} (hb : b < 2 ^ 64)
    (hfar : b + 1 < bucketOf now.toNat window ∨ bucketOf now.toNat window + 1 < b) :
    ∃ size : UInt32, 64 ≤ size ∧ size ≤ 65536 ∧
      ¬ TestedCovered (windowConfig size window) now (windowRoute size window)
        (hashDomain (CStr.lit "a") .fnv1a) b := by
  have hs : bucketOf now.toNat window < 2 ^ 64 :=
    Nat.lt_of_le_of_lt (Nat.div_le_self _ _) now.toNat_lt
  obtain ⟨p, hp, hapart⟩ := exists_size_apart hb hs hfar
  obtain ⟨hmin, hmax⟩ := sizes_bounds p hp
  have hnat : (UInt32.ofNat p).toNat = p := by
    rw [UInt32.toNat_ofNat', Nat.mod_eq_of_lt (by omega)]
  refine ⟨UInt32.ofNat p, ?_, ?_, fun hcov => ?_⟩
  · rw [UInt32.le_iff_toNat_le, hnat]
    exact hmin
  · rw [UInt32.le_iff_toNat_le, hnat]
    exact hmax
  · obtain ⟨x, hx, y, hy, heq⟩ := exists_remainder_eq hw hcov
    rw [hnat] at heq
    exact hapart x hx y hy heq

end Rejected

/-- Every seed of every route with this window, in every accepted configuration, is valid as it is
    loaded when `time (NULL)` reads `now` seconds and `bpf_ktime_get_ns` reads `loaded`. -/
def SeedsValid (window : UInt16) (now loaded : UInt64) : Prop :=
  ∀ (doc : YamlDocument) (cfg : Config), parseConfigYaml doc = .ok cfg →
    ∀ r ∈ cfg.routes, r.bloomEnabled = true → r.bloomTimeWindow = window → ∀ seed ∈ r.bloomSeeds,
      hashDomain seed cfg.hashAlgo ≠ 0 → ∀ maps : Xdp.Maps,
        ValidWhenLoaded cfg now maps r seed loaded

/-- **The clocks for which windowed entries are valid as they are loaded.** They are those where
    `time (NULL)` lies in the bucket of `bpf_ktime_get_ns` or in the next one. For any other two
    clock values some accepted configuration loads a seed that is rejected within its window. -/
theorem seeded_window_iff (window : UInt16) (hw : 0 < window) (now loaded : UInt64)
    (hclock : loaded.toNat + window.toNat * 1000000000 < 2 ^ 64) :
    SeedsValid window now loaded ↔
      loaded.toNat / 1000000000 / window.toNat ≤ now.toNat / window.toNat ∧
        now.toNat / window.toNat ≤ loaded.toNat / 1000000000 / window.toNat + 1 := by
  change _ ↔ bucketOf (loaded.toNat / 1000000000) window ≤ bucketOf now.toNat window ∧
    bucketOf now.toNat window ≤ bucketOf (loaded.toNat / 1000000000) window + 1
  constructor
  · intro hvalid
    have hcovered : ∀ size : UInt32, 64 ≤ size → size ≤ 65536 → ∀ b,
        b = bucketOf (loaded.toNat / 1000000000) window ∨
          b = bucketOf (loaded.toNat / 1000000000) window + 1 →
        TestedCovered (windowConfig size window) now (windowRoute size window)
          (hashDomain (CStr.lit "a") .fnv1a) b := by
      intro size hmin hmax b hb
      have hparse := parse_windowDocument window hmin hmax
      have hmem : windowRoute size window ∈ (windowConfig size window).routes :=
        List.mem_singleton.mpr rfl
      have hboth := (validWhenLoaded_iff (accepted_of_parse hparse) hmem rfl hw .created hclock).mp
        (hvalid _ _ hparse _ hmem rfl rfl (CStr.lit "a") (List.mem_singleton.mpr rfl)
          hash_seed_ne_zero .created)
      rcases hb with rfl | rfl
      · exact hboth.1
      · exact hboth.2
    have hlt : bucketOf (loaded.toNat / 1000000000) window + 1 < 2 ^ 64 := by
      have hle : bucketOf (loaded.toNat / 1000000000) window ≤ loaded.toNat / 1000000000 :=
        Nat.div_le_self _ _
      have := loaded.toNat_lt
      omega
    -- a bucket that is too far away is tested at the start of the window or at its end
    by_contra hcond
    obtain ⟨b, hb, hfar⟩ : ∃ b, (b = bucketOf (loaded.toNat / 1000000000) window ∨
        b = bucketOf (loaded.toNat / 1000000000) window + 1) ∧
        (b + 1 < bucketOf now.toNat window ∨ bucketOf now.toNat window + 1 < b) := by
      rcases Nat.lt_or_ge (bucketOf now.toNat window) (bucketOf (loaded.toNat / 1000000000) window)
        with hbehind | hahead
      · exact ⟨_, .inr rfl, by omega⟩
      · exact ⟨_, .inl rfl, by omega⟩
    obtain ⟨size, hmin, hmax, hnot⟩ := exists_not_covered hw (by omega) hfar
    exact hnot (hcovered size hmin hmax b hb)
  · rintro ⟨hlow, hhigh⟩ doc cfg hparse r hr hon rfl seed hs hz maps
    rw [validWhenLoaded_iff (accepted_of_parse hparse) hr hon hw maps hclock]
    exact ⟨testedCovered_of_bucket hr hon hw hs hz (by omega) (by omega),
      testedCovered_of_bucket hr hon hw hs hz (by omega) (by omega)⟩

/-- Both clocks at second 3600: the seed of the small document is valid. -/
theorem seeded_window_sample :
    ValidWhenLoaded (sampleConfig 60) 3600 .created (sampleRoute 60) (CStr.lit "a")
      3600000000000 :=
  (seeded_window_iff 60 (by decide) 3600 3600000000000 (by decide)).mpr (by decide)
    (sampleDocument "60") (sampleConfig 60) parse_sampleDocument_sixty (sampleRoute 60)
    (by simp [sampleConfig]) rfl rfl (CStr.lit "a") (by simp [sampleRoute]) (by decide +kernel)
    .created

/-- An hour after boot, with the time of day past 2023, the seed is rejected as it is loaded. -/
theorem seeded_window_wall_clock :
    ¬ ∀ (doc : YamlDocument) (cfg : Config), parseConfigYaml doc = .ok cfg →
      ∀ r ∈ cfg.routes, r.bloomEnabled = true → 0 < r.bloomTimeWindow → ∀ seed ∈ r.bloomSeeds,
        hashDomain seed cfg.hashAlgo ≠ 0 → ∀ (now loaded : UInt64) (maps : Xdp.Maps),
          ValidWhenLoaded cfg now maps r seed loaded := by
  intro h
  have hvalid := h (sampleDocument "60") (sampleConfig 60) parse_sampleDocument_sixty
    (sampleRoute 60) (by simp [sampleConfig]) rfl (by decide) (CStr.lit "a")
    (by simp [sampleRoute]) (by decide +kernel) 1700000000 3600000000000 .created
    3600000000000 (UInt64.le_refl _) (by decide)
  have hfalse : Xdp.bloomAllow (seedBloomMap (sampleConfig 60) 1700000000 .created) 3600000000000
      (hashDomain (CStr.lit "a") (sampleConfig 60).hashAlgo) (sampleRoute 60).bloomSize
      (sampleRoute 60).bloomHashFunctions (sampleRoute 60).bloomTimeWindow = .ok false := by
    decide +kernel
  rw [hfalse] at hvalid
  cases hvalid

end Zereh.Link
