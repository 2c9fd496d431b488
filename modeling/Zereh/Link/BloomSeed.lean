/-
  The Bloom words that the loader writes and the data plane reads.

  Both sides are brought to `Lib.Bloom` over the keys `BloomKey` (hash, size, number of hash
  functions, bucket):

  * the loader inserts the keys `configKeys` (`routesLoop_eq`), whose sizes are the configured
    ones, since clamping changes no accepted route (`routeBloomBits_eq`);
  * `zereh_bloom_bucket_match` asks whether the words cover a key (`bloomBucketMatch_eq`).

  Without a time window the two agree: a seed passes, a bit that is set comes from a seed
  (`bloom_seeded_exact`). Windows are in `Link.BloomWindow`.
-/
import Zereh.Control.Accepted
import Zereh.Control.Loader

namespace Zereh.Link

open Lib Control

/-! ## Keys -/

/-- What one call of the Bloom functions is about. -/
structure BloomKey where
  hash : UInt64
  bits : UInt32
  functions : UInt8
  bucket : UInt64

/-- The bit of hash function `k`. -/
def position (key : BloomKey) (k : Nat) : Nat :=
  (Xdp.bloomMixed key.hash k key.bucket).toNat % key.bits.toNat

/-- The bits of all hash functions. -/
def positions (key : BloomKey) : List Nat := (List.range key.functions.toNat).map (position key)

theorem mem_positions {key : BloomKey} {b : Nat} :
    b ∈ positions key ↔ ∃ k < key.functions.toNat, position key k = b := by
  simp only [positions, List.mem_map, List.mem_range]

/-- Sizes that fit the words, and no more hash functions than the data plane runs. -/
structure BloomKey.Fits (key : BloomKey) : Prop where
  bits_pos : 0 < key.bits.toNat
  bits_le : key.bits.toNat ≤ 65536
  functions_le : key.functions.toNat ≤ 8

section Key

variable {key : BloomKey} (h : key.Fits)
include h

theorem position_lt (k : Nat) : position key k < key.bits.toNat := Nat.mod_lt _ h.bits_pos

/-- The 32-bit position that both programs compute. -/
theorem toNat_bit (k : Nat) :
    ((Xdp.bloomMixed key.hash k key.bucket % key.bits.toUInt64).toUInt32).toNat =
      position key k := by
  have hlt := position_lt h k
  have hle := h.bits_le
  rw [UInt64.toNat_toUInt32, UInt64.toNat_mod, UInt32.toNat_toUInt64]
  exact Nat.mod_eq_of_lt (by unfold position at hlt; omega)

end Key

/-- Word and offset of a bit, as both programs compute them. -/
theorem toNat_shiftRight_six (bit : UInt32) : (bit >>> 6).toNat = bit.toNat / 64 := by
  rw [UInt32.toNat_shiftRight]
  exact Nat.shiftRight_eq_div_pow _ _

theorem toNat_and_63 (bit : UInt32) : (bit &&& 63).toNat = bit.toNat % 64 := by
  rw [UInt32.toNat_and]
  exact Nat.and_two_pow_sub_one_eq_mod bit.toNat 6

/-! ## The writer -/

theorem bloomMixed_eq (h : UInt64) (k : Nat) (b : UInt64) :
    Control.bloomMixed h k b = Xdp.bloomMixed h k b := by
  have hmix : ∀ x, Control.mix64 x = Xdp.mix64 x := fun _ => rfl
  unfold Control.bloomMixed Xdp.bloomMixed
  exact hmix _

theorem setWordBit_eq (words : Nat → UInt64) {bit : UInt32} (hlt : bit.toNat < 65536) :
    setWordBit words bit = Bloom.setBit words bit.toNat := by
  have hoff : (bit &&& 63).toUInt64 = UInt64.ofNat (bit.toNat % 64) := by
    rw [← toNat_and_63]
    exact (UInt64.ofNat_uInt32ToNat ..).symm
  have hwords : bloomWords.toNat = 1024 := rfl
  unfold setWordBit
  dsimp only
  rw [if_pos, Bloom.setBit, toNat_shiftRight_six, hoff]
  rw [UInt32.lt_iff_toNat_lt, toNat_shiftRight_six]
  omega

theorem bloomSetBitsForSeed_eq {key : BloomKey} (h : key.Fits) (words : Nat → UInt64) :
    bloomSetBitsForSeed words key.hash key.bits key.functions key.bucket =
      Bloom.insert positions words key := by
  have hle := h.bits_le
  rw [bloomSetBitsForSeed, Bloom.insert, positions, List.foldl_map]
  congr 1
  funext w k
  have hlt := position_lt h k
  rw [bloomMixed_eq, setWordBit_eq w (by rw [toNat_bit h]; omega), toNat_bit h]

/-! ## The reader -/

theorem and_one_ne_zero_iff (w : UInt64) {i : Nat} (hi : i < 64) :
    (w >>> UInt64.ofNat i) &&& 1 ≠ 0 ↔ w.toNat.testBit i = true := by
  have hsh : (UInt64.ofNat i).toNat % 64 = i := by
    rw [UInt64.toNat_ofNat']
    omega
  rw [ne_eq, ← UInt64.toNat_inj, UInt64.toNat_and, UInt64.toNat_shiftRight, hsh, UInt64.toNat_one,
    UInt64.toNat_zero, Nat.and_one_is_mod, Nat.testBit_eq_decide_div_mod_eq,
    Nat.shiftRight_eq_div_pow, decide_eq_true_eq]
  omega

theorem bloomTestBit_eq (maps : Xdp.Maps) {bit bits : UInt32} (hlt : bit.toNat < bits.toNat)
    (hle : bits.toNat ≤ 65536) :
    Xdp.bloomTestBit maps bit bits = Bloom.testBit maps.powBloom bit.toNat := by
  have hbits : Xdp.bloomBits.toNat = 65536 := rfl
  have hwords : Xdp.bloomWords.toNat = 1024 := rfl
  have hoff : (bit &&& 63).toUInt64 = UInt64.ofNat (bit.toNat % 64) := by
    rw [← toNat_and_63]
    exact (UInt64.ofNat_uInt32ToNat ..).symm
  unfold Xdp.bloomTestBit Bloom.testBit
  dsimp only
  rw [if_neg, if_neg, hoff, toNat_shiftRight_six, Bool.eq_iff_iff, decide_eq_true_eq,
    and_one_ne_zero_iff _ (Nat.mod_lt _ (by decide))]
  · rw [ge_iff_le, UInt32.le_iff_toNat_le, toNat_shiftRight_six]
    omega
  · rw [← UInt32.toNat_inj, gt_iff_lt, ge_iff_le, UInt32.lt_iff_toNat_lt, UInt32.le_iff_toNat_le,
      UInt32.toNat_zero]
    omega

theorem bucketLoop_eq {key : BloomKey} (h : key.Fits) (maps : Xdp.Maps) (n k : Nat) :
    Xdp.bucketLoop maps key.hash key.bits key.functions key.bucket n k =
      .ok (((List.range' k (min n (key.functions.toNat - k))).map (position key)).all
        (Bloom.testBit maps.powBloom)) := by
  induction n generalizing k with
  | zero => simp [Xdp.bucketLoop]
  | succ n ih =>
    unfold Xdp.bucketLoop
    by_cases hk : k ≥ key.functions.toNat
    · rw [if_pos hk, show min (n + 1) (key.functions.toNat - k) = 0 by omega]
      rfl
    · have hbits : key.bits.toUInt64 ≠ 0 := by
        have := h.bits_pos
        rw [ne_eq, ← UInt64.toNat_inj, UInt32.toNat_toUInt64, UInt64.toNat_zero]
        omega
      have hlt := position_lt h k
      rw [if_neg hk, modAt_ok _ hbits, ok_bind]
      dsimp only
      rw [bloomTestBit_eq maps (by rw [toNat_bit h]; exact hlt) h.bits_le, toNat_bit h,
        show min (n + 1) (key.functions.toNat - k) = min n (key.functions.toNat - (k + 1)) + 1 by
          omega,
        List.range'_succ, List.map_cons, List.all_cons, ih]
      cases Bloom.testBit maps.powBloom (position key k) <;> simp

/-- `zereh_bloom_bucket_match` asks whether the words cover the key. -/
theorem bloomBucketMatch_eq {key : BloomKey} (h : key.Fits) (maps : Xdp.Maps) :
    Xdp.bloomBucketMatch maps key.hash key.bits key.functions key.bucket =
      .ok (Bloom.covers positions maps.powBloom key) := by
  have hle := h.functions_le
  have hmax : Xdp.maxHashFunctions = 8 := rfl
  rw [Xdp.bloomBucketMatch, bucketLoop_eq h, Bloom.covers, positions, List.range_eq_range',
    show min Xdp.maxHashFunctions (key.functions.toNat - 0) = key.functions.toNat by omega]

/-- The key of a hash under the parameters of a route. -/
def routeKey (r : Route) (hash bucket : UInt64) : BloomKey :=
  ⟨hash, r.bloomSize, r.bloomHashFunctions, bucket⟩

section Route

variable {algo : HashAlgorithm} {r : Route}

theorem fits_routeKey (h : r.Accepted algo) (hon : r.bloomEnabled = true) (hash bucket : UInt64) :
    (routeKey r hash bucket).Fits := by
  obtain ⟨h1, h2, -, h4, -⟩ := h.bloom.on hon
  rw [UInt32.le_iff_toNat_le] at h1 h2
  exact ⟨Nat.lt_of_lt_of_le (by decide) h1, h2, UInt8.le_iff_toNat_le.mp h4⟩

/-- `zereh_bloom_allow` with the parameters of a route: the key of the current bucket or of the
    one before it is covered; without a window the bucket is 0. -/
theorem bloomAllow_eq (h : r.Accepted algo) (hon : r.bloomEnabled = true) (maps : Xdp.Maps)
    (ns hash : UInt64) (window : UInt16) :
    Xdp.bloomAllow maps ns hash r.bloomSize r.bloomHashFunctions window =
      .ok (if window = 0 then Bloom.covers positions maps.powBloom (routeKey r hash 0)
        else
          let bucket := Xdp.nowSec ns / window.toUInt64
          Bloom.covers positions maps.powBloom (routeKey r hash bucket) ||
            (decide (bucket > 0) &&
              Bloom.covers positions maps.powBloom (routeKey r hash (bucket - 1)))) := by
  obtain ⟨h1, h2, h3, -, -⟩ := h.bloom.on hon
  have hmatch : ∀ b, Xdp.bloomBucketMatch maps hash r.bloomSize r.bloomHashFunctions b =
      .ok (Bloom.covers positions maps.powBloom (routeKey r hash b)) := fun b =>
    bloomBucketMatch_eq (fits_routeKey h hon hash b) maps
  have hguard : ¬ (r.bloomHashFunctions = 0 ∨ r.bloomSize < 64 ∨ r.bloomSize > Xdp.bloomBits) := by
    rintro (hz | hlt | hgt)
    · rw [hz] at h3
      exact absurd h3 (by decide)
    · exact UInt32.not_le.mpr hlt h1
    · exact UInt32.not_le.mpr hgt h2
  unfold Xdp.bloomAllow
  rw [if_neg hguard]
  by_cases hw : window = 0
  · rw [if_pos hw, if_pos hw, hmatch]
  · have hdiv : window.toUInt64 ≠ 0 := by
      intro hz
      apply hw
      rw [← UInt64.toNat_inj, UInt16.toNat_toUInt64, UInt64.toNat_zero] at hz
      exact UInt16.toNat_inj.mp hz
    rw [if_neg hw, if_neg hw, divAt_ok _ hdiv, ok_bind, hmatch, ok_bind]
    dsimp only
    rw [hmatch, ok_bind]
    cases Bloom.covers positions maps.powBloom (routeKey r hash (Xdp.nowSec ns / window.toUInt64))
    · cases Bloom.covers positions maps.powBloom
        (routeKey r hash (Xdp.nowSec ns / window.toUInt64 - 1)) <;>
      by_cases hb : Xdp.nowSec ns / window.toUInt64 > 0 <;> simp [hb]
    · simp

/-- Clamping changes no accepted route. -/
theorem routeBloomBits_eq (h : r.Accepted algo) : routeBloomBits r = r.bloomSize := by
  unfold routeBloomBits
  cases hon : r.bloomEnabled with
  | false => simp [(h.bloom.off hon).1]
  | true =>
    obtain ⟨h1, h2, -⟩ := h.bloom.on hon
    have hmin : ¬ r.bloomSize < 64 := UInt32.not_lt.mpr h1
    have hmax : ¬ r.bloomSize > bloomBits := UInt32.not_lt.mpr h2
    simp only [Bool.not_true, Bool.false_eq_true, if_false]
    rw [if_neg hmin, if_neg hmax]

theorem routeBloomHashFunctions_eq (h : r.Accepted algo) :
    routeBloomHashFunctions r = r.bloomHashFunctions := by
  unfold routeBloomHashFunctions
  cases hon : r.bloomEnabled with
  | false => simp [(h.bloom.off hon).2.1]
  | true =>
    obtain ⟨-, -, h3, h4, -⟩ := h.bloom.on hon
    have hne : ¬ r.bloomHashFunctions = 0 := UInt8.pos_iff_ne_zero.mp h3
    have hmax : ¬ r.bloomHashFunctions > maxHashFunctions := UInt8.not_lt.mpr h4
    simp only [Bool.not_true, Bool.false_eq_true, if_false]
    rw [if_neg hne, if_neg hmax]

end Route

/-! ## What the loader inserts -/

/-- The keys of one seed: the current bucket and, with a window, the one before it. -/
def seedKeys (algo : HashAlgorithm) (r : Route) (now : UInt64) (seed : CStr) : List BloomKey :=
  if hashDomain seed algo = 0 then []
  else
    routeKey r (hashDomain seed algo) (routeBucket r now) ::
      if r.bloomTimeWindow > 0 ∧ routeBucket r now > 0 then
        [routeKey r (hashDomain seed algo) (routeBucket r now - 1)]
      else []

/-- The keys of a route. -/
def routeKeys (algo : HashAlgorithm) (now : UInt64) (r : Route) : List BloomKey :=
  if r.bloomEnabled then r.bloomSeeds.flatMap (seedKeys algo r now) else []

/-- The keys of a configuration. -/
def configKeys (cfg : Config) (now : UInt64) : List BloomKey :=
  cfg.routes.flatMap (routeKeys cfg.hashAlgo now)

theorem seedsLoop_eq {algo : HashAlgorithm} {r : Route} (h : r.Accepted algo)
    (hon : r.bloomEnabled = true) (now : UInt64) (seeds : List CStr) (words : Nat → UInt64) :
    seedsLoop algo r.bloomSize r.bloomHashFunctions r.bloomTimeWindow (routeBucket r now) seeds
      words = Bloom.insertAll positions words (seeds.flatMap (seedKeys algo r now)) := by
  have hset : ∀ (w : Nat → UInt64) (x b : UInt64),
      bloomSetBitsForSeed w x r.bloomSize r.bloomHashFunctions b =
        Bloom.insert positions w (routeKey r x b) := fun w x b =>
    bloomSetBitsForSeed_eq (fits_routeKey h hon x b) w
  induction seeds generalizing words with
  | nil => rfl
  | cons seed seeds ih =>
    rw [List.flatMap_cons, Bloom.insertAll_append, seedsLoop]
    dsimp only
    rw [ih, ih, hset, hset]
    unfold seedKeys
    split_ifs <;> rfl

theorem routesLoop_eq {algo : HashAlgorithm} (now : UInt64) (routes : List Route)
    (h : ∀ r ∈ routes, r.Accepted algo) (words : Nat → UInt64) :
    routesLoop algo now routes words =
      Bloom.insertAll positions words (routes.flatMap (routeKeys algo now)) := by
  induction routes generalizing words with
  | nil => rfl
  | cons r routes ih =>
    have hr := h r (by simp)
    have hrest := ih fun r' hr' => h r' (by simp [hr'])
    rw [List.flatMap_cons, Bloom.insertAll_append, ← hrest, routesLoop, routeKeys]
    cases hon : r.bloomEnabled with
    | false => rfl
    | true =>
      obtain ⟨h1, -, h3, -⟩ := hr.bloom.on hon
      simp only [Bool.not_true, Bool.false_eq_true, if_false, if_true]
      rw [routeBloomBits_eq hr, routeBloomHashFunctions_eq hr, if_neg, seedsLoop_eq hr hon]
      rintro (hz | hz)
      · rw [hz] at h1
        exact absurd h1 (by decide)
      · rw [hz] at h3
        exact absurd h3 (by decide)

/-- A bit of the seeded map. -/
theorem testBit_seedBloomMap {cfg : Config} (h : cfg.Accepted) (now : UInt64) (maps : Xdp.Maps)
    {b : Nat} (hb : b < 65536) :
    Bloom.testBit (seedBloomMap cfg now maps).powBloom b =
      Bloom.testBit (Bloom.insertAll positions Bloom.zero (configKeys cfg now)) b := by
  have hwords : bloomWords.toNat = 1024 := rfl
  unfold seedBloomMap Bloom.testBit
  dsimp only
  rw [if_pos (by omega), routesLoop_eq now cfg.routes h.routes]
  rfl

/-- The seeded map covers a key of a route when the keys of the configuration do. -/
theorem covers_seedBloomMap {cfg : Config} (h : cfg.Accepted) (now : UInt64) (maps : Xdp.Maps)
    {r : Route} (hr : r ∈ cfg.routes) (hon : r.bloomEnabled = true) (hash bucket : UInt64) :
    Bloom.covers positions (seedBloomMap cfg now maps).powBloom (routeKey r hash bucket) = true ↔
      ∀ c ∈ positions (routeKey r hash bucket), ∃ key ∈ configKeys cfg now, c ∈ positions key := by
  have hfits := fits_routeKey (h.routes r hr) hon hash bucket
  rw [← Bloom.covers_insertAll_iff]
  unfold Bloom.covers
  rw [List.all_eq_true, List.all_eq_true]
  refine forall₂_congr fun b hb => ?_
  obtain ⟨k, -, rfl⟩ := mem_positions.mp hb
  have hlt := position_lt hfits k
  rw [testBit_seedBloomMap h now maps (Nat.lt_of_lt_of_le hlt hfits.bits_le)]

/-! ## Without a time window -/

/-- Bit `b` is one of the positions of a seed with nonzero hash of a Bloom-enabled route,
    computed with that route's size and number of hash functions. -/
def SeedBit (cfg : Config) (b : Nat) : Prop :=
  ∃ r ∈ cfg.routes, r.bloomEnabled = true ∧ ∃ s ∈ r.bloomSeeds, hashDomain s cfg.hashAlgo ≠ 0 ∧
    ∃ k < r.bloomHashFunctions.toNat,
      (Xdp.bloomMixed (hashDomain s cfg.hashAlgo) k 0).toNat % r.bloomSize.toNat = b

/-- Without windows the keys of a configuration are those of its seeds in bucket 0. -/
theorem exists_mem_configKeys {cfg : Config}
    (hwindow : ∀ r ∈ cfg.routes, r.bloomEnabled = true → r.bloomTimeWindow = 0) (now : UInt64)
    (b : Nat) : (∃ key ∈ configKeys cfg now, b ∈ positions key) ↔ SeedBit cfg b := by
  have hone : ∀ r ∈ cfg.routes, r.bloomEnabled = true → ∀ s,
      seedKeys cfg.hashAlgo r now s = if hashDomain s cfg.hashAlgo = 0 then []
        else [routeKey r (hashDomain s cfg.hashAlgo) 0] := by
    intro r hr hon s
    have hz := hwindow r hr hon
    have hb : routeBucket r now = 0 := by rw [routeBucket, hz, if_neg (by decide)]
    unfold seedKeys
    rw [hb, hz, if_neg (by decide : ¬ ((0 : UInt16) > 0 ∧ (0 : UInt64) > 0))]
  constructor
  · rintro ⟨key, hkey, hb⟩
    obtain ⟨r, hr, hkey⟩ := List.mem_flatMap.mp hkey
    unfold routeKeys at hkey
    split_ifs at hkey with hon
    · obtain ⟨s, hs, hkey⟩ := List.mem_flatMap.mp hkey
      rw [hone r hr hon] at hkey
      split_ifs at hkey with hz
      · cases hkey
      · rw [List.mem_singleton.mp hkey] at hb
        exact ⟨r, hr, hon, s, hs, hz, mem_positions.mp hb⟩
    · cases hkey
  · rintro ⟨r, hr, hon, s, hs, hz, hb⟩
    refine ⟨routeKey r (hashDomain s cfg.hashAlgo) 0, List.mem_flatMap.mpr ⟨r, hr, ?_⟩,
      mem_positions.mpr hb⟩
    rw [routeKeys, if_pos hon]
    refine List.mem_flatMap.mpr ⟨s, hs, ?_⟩
    rw [hone r hr hon, if_neg hz]
    exact List.mem_singleton.mpr rfl

/-- **Without a time window the filter has no false negatives and no stray bits.** After the
    loader has run, a bit of the map is set exactly when it is a position of a seed of some
    Bloom-enabled route; every such seed passes `zereh_bloom_allow` with its route's own
    parameters; a hash passes exactly when all its positions are covered by seeds; and the sizes
    the loader clamps are the configured ones. -/
theorem bloom_seeded_exact (doc : YamlDocument) (cfg : Config)
    (hparse : parseConfigYaml doc = .ok cfg)
    (hwindow : ∀ r ∈ cfg.routes, r.bloomEnabled = true → r.bloomTimeWindow = 0)
    (now : UInt64) (maps : Xdp.Maps) :
    (∀ b < 65536, ((seedBloomMap cfg now maps).powBloom (b / 64)).toNat.testBit (b % 64) = true ↔
      SeedBit cfg b) ∧
    (∀ r ∈ cfg.routes, r.bloomEnabled = true → ∀ s ∈ r.bloomSeeds,
      hashDomain s cfg.hashAlgo ≠ 0 → ∀ ns,
        Xdp.bloomAllow (seedBloomMap cfg now maps) ns (hashDomain s cfg.hashAlgo) r.bloomSize
          r.bloomHashFunctions r.bloomTimeWindow = .ok true) ∧
    (∀ r ∈ cfg.routes, r.bloomEnabled = true → ∀ ns hash,
      Xdp.bloomAllow (seedBloomMap cfg now maps) ns hash r.bloomSize r.bloomHashFunctions
          r.bloomTimeWindow = .ok true ↔
        ∀ k < r.bloomHashFunctions.toNat,
          SeedBit cfg ((Xdp.bloomMixed hash k 0).toNat % r.bloomSize.toNat)) ∧
    ∀ r ∈ cfg.routes, routeBloomBits r = r.bloomSize ∧
      routeBloomHashFunctions r = r.bloomHashFunctions := by
  have hacc := accepted_of_parse hparse
  have hallow : ∀ r ∈ cfg.routes, r.bloomEnabled = true → ∀ ns hash,
      Xdp.bloomAllow (seedBloomMap cfg now maps) ns hash r.bloomSize r.bloomHashFunctions
          r.bloomTimeWindow = .ok true ↔
        ∀ c ∈ positions (routeKey r hash 0), SeedBit cfg c := by
    intro r hr hon ns hash
    rw [bloomAllow_eq (hacc.routes r hr) hon, if_pos (hwindow r hr hon), Except.ok.injEq,
      covers_seedBloomMap hacc now maps hr hon]
    exact forall₂_congr fun c _ => exists_mem_configKeys hwindow now c
  refine ⟨fun b hb => ?_, fun r hr hon s hs hz ns => ?_, fun r hr hon ns hash => ?_, fun r hr => ?_⟩
  · rw [← exists_mem_configKeys hwindow now]
    change Bloom.testBit (seedBloomMap cfg now maps).powBloom b = true ↔ _
    rw [testBit_seedBloomMap hacc now maps hb, Bloom.testBit_insertAll, Bloom.testBit_zero]
    simp
  · rw [hallow r hr hon]
    exact fun c hc => ⟨r, hr, hon, s, hs, hz, mem_positions.mp hc⟩
  · rw [hallow r hr hon]
    constructor
    · exact fun h k hk => h _ (mem_positions.mpr ⟨k, hk, rfl⟩)
    · intro h c hc
      obtain ⟨k, hk, rfl⟩ := mem_positions.mp hc
      exact h k hk
  · exact ⟨routeBloomBits_eq (hacc.routes r hr), routeBloomHashFunctions_eq (hacc.routes r hr)⟩

/-- The seed of the small document passes. -/
theorem bloom_seeded_sample :
    Xdp.bloomAllow (seedBloomMap (sampleConfig 0) 0 .created) 0
      (hashDomain (CStr.lit "a") .fnv1a) 1024 3 0 = .ok true :=
  (bloom_seeded_exact (sampleDocument "0") (sampleConfig 0) parse_sampleDocument_zero
    (by
      intro r hr _
      rw [List.mem_singleton.mp hr]
      rfl) 0 .created).2.1 (sampleRoute 0) (by simp [sampleConfig]) rfl (CStr.lit "a")
    (by simp [sampleRoute]) (by decide +kernel) 0

end Zereh.Link
