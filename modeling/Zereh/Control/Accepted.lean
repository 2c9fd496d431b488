/-
  What every accepted configuration satisfies.

  `Config.Accepted` is what the generator, the loader and the data plane rely on, and
  `accepted_of_parse` proves it of every document that `zereh_parse_config_yaml` accepts.

  * `Texts` speaks of the fields that several keys of a route may set (names, patterns, type
    mask, seeds); each step of the parser keeps it.
  * The bounds, the proof of work and the Bloom parameters come from the validation at the
    end, whatever the steps before it stored (`checkRoute_ok`).
-/
import Zereh.Control.YamlParser

namespace Zereh

open Lib Control

/-- The texts of a route and its type mask. -/
structure Texts (algo : HashAlgorithm) (domain : CStr) (hash : UInt64) (pfx sfx : CStr)
    (mask : UInt32) (seeds : List CStr) : Prop where
  domain_ne : domain.bytes ≠ []
  domain_len : domain.len ≤ maxDomainLen
  hash_eq : hash = hashDomain domain algo
  prefix_len : pfx.len ≤ maxPatternLen
  suffix_len : sfx.len ≤ maxPatternLen
  mask_ne : mask ≠ 0
  mask_le : mask ≤ 15
  seed_count : seeds.length ≤ maxBloomSeeds
  seed_ne : ∀ s ∈ seeds, s.bytes ≠ []

/-- The Bloom parameters of a route after validation. -/
structure BloomOk (enabled : Bool) (size : UInt32) (hashFunctions : UInt8) (window : UInt16)
    (seeds : List CStr) : Prop where
  on : enabled = true → 64 ≤ size ∧ size ≤ 65536 ∧ 1 ≤ hashFunctions ∧ hashFunctions ≤ 8 ∧ seeds ≠ []
  off : enabled = false → size = 0 ∧ hashFunctions = 0 ∧ window = 0 ∧ seeds = []

/-- A route that `zereh_parse_route` accepted. -/
structure Route.Accepted (algo : HashAlgorithm) (r : Route) : Prop where
  texts : Texts algo r.domain r.hash r.prefixMatch r.suffixMatch r.rrtypeMask r.bloomSeeds
  labels : 1 ≤ r.minLabels ∧ r.minLabels ≤ r.maxLabels ∧ r.maxLabels ≤ 127
  lengths : 1 ≤ r.qnameMinLen ∧ r.qnameMinLen ≤ r.qnameMaxLen ∧ r.qnameMaxLen ≤ 255
  pow_le : r.powDifficulty ≤ 63
  pow_off : r.powEnabled = false → r.powDifficulty = 0 ∧ r.powTimeWindow = 0
  bloom : BloomOk r.bloomEnabled r.bloomSize r.bloomHashFunctions r.bloomTimeWindow r.bloomSeeds

/-- The global filters of a configuration. -/
structure FiltersOk (blacklist : List CStr) (opcodeMask : UInt16) : Prop where
  blacklist_count : blacklist.length ≤ maxBlacklist
  blacklist_ne : ∀ c ∈ blacklist, c.bytes ≠ []
  opcode_ne : opcodeMask ≠ 0

/-- A configuration that `zereh_parse_config_yaml` accepted. -/
structure Config.Accepted (cfg : Config) : Prop where
  routes_ne : cfg.routes ≠ []
  route_count : cfg.routes.length ≤ maxRoutes
  routes : ∀ r ∈ cfg.routes, r.Accepted cfg.hashAlgo
  filters : FiltersOk cfg.blacklist cfg.allowedOpcodeMask

namespace Control

/-! ## Steps -/

section Steps

variable {σ α : Type} {P : σ → Prop} {v : Option YamlNode}

theorem field_keeps {parse : YamlNode → Parsed α} {set : α → σ → σ}
    (h : ∀ node a s, parse node = .ok a → P s → P (set a s)) : Keeps P (field v parse set) := by
  intro s s' hrun hs
  unfold field at hrun
  cases v with
  | none => cases hrun; exact hs
  | some node =>
    obtain ⟨a, ha, hb⟩ := bind_eq_ok hrun
    cases hb
    exact h node a s ha hs

theorem textField_keeps {n : Nat} {set : CStr → σ → σ}
    (h : ∀ text s, P s → P (set (CStr.clip n text) s)) : Keeps P (textField n v set) := by
  intro s s' hrun hs
  unfold textField at hrun
  split at hrun
  · cases hrun; exact hs
  · cases hrun; exact h _ _ hs

theorem subsection_keeps {body : YamlNode → σ → Parsed σ} (h : ∀ node, Keeps P (body node)) :
    Keeps P (subsection v body) := by
  intro s s' hrun hs
  unfold subsection at hrun
  split at hrun
  · exact h _ s s' hrun hs
  · cases hrun; exact hs

theorem stepField_keeps {step : YamlNode → σ → Parsed σ} (h : ∀ node, Keeps P (step node)) :
    Keeps P (stepField v step) := by
  intro s s' hrun hs
  unfold stepField at hrun
  cases v with
  | none => cases hrun; exact hs
  | some node => exact h node s s' hrun hs

theorem orSay_eq_ok {m : Message} {x : Parsed α} {a : α} (h : orSay m x = .ok a) : x = .ok a := by
  cases x with
  | ok b => exact h
  | error ms => cases h

theorem orSay_keeps {m : Message} {f : σ → Parsed σ} (h : Keeps P f) :
    Keeps P fun s => orSay m (f s) :=
  fun s s' hrun hs => h s s' (orSay_eq_ok hrun) hs

end Steps

theorem clip_bytes_ne {n : Nat} {s : CStr} (hn : 0 < n) (hs : s.bytes ≠ []) :
    (s.clip n).bytes ≠ [] := by
  simp only [CStr.clip, ne_eq, List.take_eq_nil_iff, not_or]
  exact ⟨by omega, hs⟩

/-! ## Type masks and opcodes -/

theorem rrtypeToMask_le (rr : Option CStr) : rrtypeToMask rr ≤ 15 := by
  unfold rrtypeToMask
  split
  · decide
  · split_ifs <;> decide

theorem or_le_fifteen {a b : UInt32} (ha : a ≤ 15) (hb : b ≤ 15) : a ||| b ≤ 15 := by
  rw [UInt32.le_iff_toNat_le] at *
  rw [UInt32.toNat_or]
  have h15 : (15 : UInt32).toNat = 15 := rfl
  have := Nat.or_lt_two_pow (x := a.toNat) (y := b.toNat) (n := 4) (by omega) (by omega)
  omega

theorem and_le_fifteen {a : UInt32} (ha : a ≤ 15) (b : UInt32) : a &&& b ≤ 15 := by
  rw [UInt32.le_iff_toNat_le] at *
  rw [UInt32.toNat_and]
  exact Nat.and_le_left.trans ha

theorem rrtypeLoop_le {doc : YamlDocument} (items : List Nat) : ∀ {mask mask' : UInt32},
    rrtypeLoop doc items mask = .ok mask' → mask ≤ 15 → mask' ≤ 15 := by
  induction items with
  | nil =>
    intro mask mask' h hm
    cases h
    exact hm
  | cons item items ih =>
    intro mask mask' h hm
    unfold rrtypeLoop at h
    dsimp only at h
    split at h
    · cases h
    · exact ih h (or_le_fifteen hm (rrtypeToMask_le _))

/-- A type list that is accepted is not empty and has only known types. -/
theorem parseRrtypeMask_ok {doc : YamlDocument} {node : YamlNode} {mask : UInt32}
    (h : parseRrtypeMask doc node = .ok mask) : mask ≠ 0 ∧ mask ≤ 15 := by
  unfold parseRrtypeMask at h
  split at h
  · dsimp only at h
    split at h
    · cases h
    · cases h
      exact ⟨‹_›, rrtypeToMask_le _⟩
  · obtain ⟨m, hm, h⟩ := bind_eq_ok h
    split at h
    · cases h
    · cases h
      exact ⟨‹_›, rrtypeLoop_le _ hm (by decide)⟩
  · cases h

theorem opcodeBit_ne {node : YamlNode} {mask : UInt16} (h : opcodeBit node = .ok mask) :
    mask ≠ 0 := by
  obtain ⟨op, -, h⟩ := bind_eq_ok h
  split at h
  · cases h
  · cases h
    rename_i hle
    have hop : op.toNat < 16 := by
      rw [gt_iff_lt, UInt32.not_lt, UInt32.le_iff_toNat_le] at hle
      exact Nat.lt_succ_of_le hle
    have hbit : ∀ i : Fin 16, ((1 : UInt32) <<< UInt32.ofNat i).toUInt16 ≠ 0 := by decide
    have := hbit ⟨op.toNat, hop⟩
    rwa [UInt32.ofNat_toNat] at this

/-- An opcode list never leaves the mask empty. -/
theorem parseAllowedOpcodes_ne {doc : YamlDocument} {node : YamlNode} {mask : UInt16}
    (h : parseAllowedOpcodes doc node = .ok mask) : mask ≠ 0 := by
  unfold parseAllowedOpcodes at h
  split at h
  · exact opcodeBit_ne h
  · obtain ⟨m, -, h⟩ := bind_eq_ok h
    cases h
    split_ifs with hm
    · decide
    · exact hm
  · cases h

/-! ## Lists -/

/-- A list of texts with room takes another one. -/
theorem append_clip_ok {n max : Nat} {list : List CStr} {text : CStr} (hn : 0 < n)
    (hroom : list.length < max) (hne : ∀ c ∈ list, c.bytes ≠ []) (htext : text.bytes ≠ []) :
    (list ++ [text.clip n]).length ≤ max ∧ ∀ c ∈ list ++ [text.clip n], c.bytes ≠ [] := by
  refine ⟨by rw [List.length_append, List.length_singleton]; omega, ?_⟩
  intro c hc
  rcases List.mem_append.mp hc with hc | hc
  · exact hne c hc
  · rw [List.mem_singleton.mp hc]
    exact clip_bytes_ne hn htext

theorem blacklistLoop_ok {doc : YamlDocument} (items : List Nat) : ∀ {list list' : List CStr},
    blacklistLoop doc items list = .ok list' → list.length ≤ maxBlacklist →
      (∀ c ∈ list, c.bytes ≠ []) → list'.length ≤ maxBlacklist ∧ ∀ c ∈ list', c.bytes ≠ [] := by
  induction items with
  | nil =>
    intro list list' h hlen hne
    cases h
    exact ⟨hlen, hne⟩
  | cons item items ih =>
    intro list list' h hlen hne
    unfold blacklistLoop at h
    split at h
    · cases h
    · rename_i hroom
      split at h
      · exact ih h hlen hne
      · split at h
        · cases h
        · split at h
          · cases h
          · rename_i hcidr
            have htexts := append_clip_ok (n := maxCidrLen - 1) (by decide) (not_le.mp hroom) hne hcidr
            exact ih h htexts.1 htexts.2

theorem seedLoop_ok {doc : YamlDocument} {domain : CStr} (items : List Nat) :
    ∀ {seeds seeds' : List CStr}, seedLoop doc domain items seeds = .ok seeds' →
      seeds.length ≤ maxBloomSeeds → (∀ s ∈ seeds, s.bytes ≠ []) →
        seeds'.length ≤ maxBloomSeeds ∧ ∀ s ∈ seeds', s.bytes ≠ [] := by
  induction items with
  | nil =>
    intro seeds seeds' h hlen hne
    cases h
    exact ⟨hlen, hne⟩
  | cons item items ih =>
    intro seeds seeds' h hlen hne
    unfold seedLoop at h
    split at h
    · cases h
    · rename_i hroom
      split at h
      · cases h
      · split at h
        · cases h
        · rename_i hseed
          have htexts := append_clip_ok (n := maxDomainLen) (by decide) (not_le.mp hroom) hne hseed
          exact ih h htexts.1 htexts.2

/-! ## One route -/

/-- What the steps of a route keep. -/
def Draft.Kept (algo : HashAlgorithm) (d : Draft) : Prop :=
  Texts algo d.domain d.hash d.prefixMatch d.suffixMatch d.rrtypeMask d.bloomSeeds

theorem parseRouteTarget_kept {doc : YamlDocument} {node : YamlNode} {cfg : Config} {d : Draft}
    (h : parseRouteTarget doc node cfg = .ok d) : d.Kept cfg.hashAlgo := by
  unfold parseRouteTarget at h
  split at h
  · cases h
  · split at h
    · cases h
    · rename_i hne
      dsimp only at h
      split at h
      · cases h
      · split at h
        · cases h
        · cases h
          exact {
            domain_ne := clip_bytes_ne (by decide) hne
            domain_len := CStr.len_clip_le _ _
            hash_eq := rfl
            prefix_len := by simp [CStr.empty, CStr.len]
            suffix_len := by simp [CStr.empty, CStr.len]
            mask_ne := show rrtypeA ||| rrtypeAaaa ||| rrtypeTxt ≠ 0 by decide
            mask_le := show rrtypeA ||| rrtypeAaaa ||| rrtypeTxt ≤ 15 by decide
            seed_count := by simp
            seed_ne := by simp }

section Kept

variable {algo : HashAlgorithm} {doc : YamlDocument} {node : YamlNode}

theorem setPrefix_kept (text : CStr) (d : Draft) (h : d.Kept algo) :
    (setPrefix (text.clip maxPatternLen) d).Kept algo :=
  { h with prefix_len := CStr.len_clip_le _ _ }

theorem setSuffix_kept (text : CStr) (d : Draft) (h : d.Kept algo) :
    (setSuffix (text.clip maxPatternLen) d).Kept algo :=
  { h with suffix_len := CStr.len_clip_le _ _ }

theorem setRrtypeMask_kept {mask : UInt32} (d : Draft) (hm : mask ≠ 0 ∧ mask ≤ 15)
    (h : d.Kept algo) : (setRrtypeMask mask d).Kept algo :=
  { h with mask_ne := hm.1, mask_le := hm.2 }

theorem parseRouteFlat_kept : Keeps (Draft.Kept algo) (parseRouteFlat doc node) := by
  unfold parseRouteFlat
  refine .comp ?_ <| .comp ?_ <| .comp ?_ <| .comp ?_ <| .comp ?_ <| .comp ?_ <| .comp ?_ <|
    .comp ?_ <| .comp ?_ <| .comp ?_ <| .comp ?_ <| ?_
  all_goals first
    | exact textField_keeps setPrefix_kept
    | exact textField_keeps setSuffix_kept
    | exact field_keeps fun _ _ d hm h => setRrtypeMask_kept d (parseRrtypeMask_ok hm) h
    -- the other fields are none of the texts
    | exact field_keeps fun _ _ _ _ h => h
    | exact textField_keeps fun _ _ h => h

theorem parsePow_kept : Keeps (Draft.Kept algo) (parsePow doc node) := by
  unfold parsePow
  refine .comp ?_ <| .comp ?_ <| ?_
  all_goals exact field_keeps fun _ _ _ _ h => h

theorem parseQnameRules_kept : Keeps (Draft.Kept algo) (parseQnameRules doc node) := by
  unfold parseQnameRules
  refine .comp ?_ <| .comp ?_ <| .comp ?_ <| .comp ?_ <| .comp ?_ <| ?_
  all_goals first
    | exact textField_keeps setPrefix_kept
    | exact textField_keeps setSuffix_kept
    | exact field_keeps fun _ _ _ _ h => h

theorem parseRateLimit_kept : Keeps (Draft.Kept algo) (parseRateLimit doc node) :=
  field_keeps fun _ _ _ _ h => h

theorem parseRouteDnsTypes_kept : Keeps (Draft.Kept algo) (parseRouteDnsTypes doc node) := by
  intro d d' hrun hd
  unfold parseRouteDnsTypes at hrun
  split at hrun
  · obtain ⟨allow, hallow, hrun⟩ := bind_eq_ok hrun
    obtain ⟨deny, -, hrun⟩ := bind_eq_ok hrun
    dsimp only at hrun
    split at hrun
    · cases hrun
    · rename_i hne
      cases hrun
      -- the deny list only clears bits of the allow list
      have hle : allow ≤ 15 :=
        field_keeps (P := fun m => m ≤ 15) (fun _ _ _ hm _ => (parseRrtypeMask_ok hm).2) _ _
          hallow hd.mask_le
      exact setRrtypeMask_kept d ⟨hne, and_le_fifteen hle _⟩ hd
  · cases hrun

theorem parseBloomSeeds_kept : Keeps (Draft.Kept algo) (parseBloomSeeds doc node) := by
  intro d d' hrun hd
  unfold parseBloomSeeds at hrun
  split at hrun
  · obtain ⟨seeds, hseeds, hrun⟩ := bind_eq_ok hrun
    cases hrun
    obtain ⟨hcount, hne⟩ := seedLoop_ok _ hseeds (by simp) (by simp)
    exact { hd with seed_count := hcount, seed_ne := hne }
  · cases hrun

theorem parseBloomFilter_kept : Keeps (Draft.Kept algo) (parseBloomFilter doc node) := by
  unfold parseBloomFilter
  refine .comp ?_ <| .comp ?_ <| .comp ?_ <| .comp ?_ <| ?_
  all_goals first
    | exact field_keeps fun _ _ _ _ h => h
    | exact stepField_keeps fun _ => parseBloomSeeds_kept

theorem parseRouteFilters_kept : Keeps (Draft.Kept algo) (parseRouteFilters doc node) := by
  intro d d' hrun hd
  unfold parseRouteFilters at hrun
  split at hrun
  · refine Keeps.comp (P := Draft.Kept algo) ?_
      (.comp ?_ <| .comp ?_ <| .comp ?_ ?_) d d' hrun hd
    · exact subsection_keeps fun _ => parsePow_kept
    · exact subsection_keeps fun _ => parseQnameRules_kept
    · exact subsection_keeps fun _ => parseRateLimit_kept
    · exact stepField_keeps fun _ => parseRouteDnsTypes_kept
    · exact subsection_keeps fun _ => parseBloomFilter_kept
  · cases hrun

end Kept

/-- Pairing the bounds changes nothing else. -/
theorem pairBounds_texts {algo : HashAlgorithm} {d : Draft} (h : d.Kept algo) :
    Texts algo (pairBounds d).domain (pairBounds d).hash (pairBounds d).prefixMatch
      (pairBounds d).suffixMatch (pairBounds d).rrtypeMask (pairBounds d).bloomSeeds := by
  unfold pairBounds
  dsimp only
  split_ifs <;> exact h

theorem clearPow_off (r : Route) (h : (clearPow r).powEnabled = false) :
    (clearPow r).powDifficulty = 0 ∧ (clearPow r).powTimeWindow = 0 := by
  unfold clearPow at h ⊢
  split_ifs at h ⊢ with hp
  · exact ⟨rfl, rfl⟩
  · rw [h] at hp
    exact absurd rfl hp

/-- A filter without seeds is seeded with the domain. -/
theorem defaultSeeds_texts {algo : HashAlgorithm} {r : Route}
    (ht : Texts algo r.domain r.hash r.prefixMatch r.suffixMatch r.rrtypeMask r.bloomSeeds) :
    Texts algo r.domain r.hash r.prefixMatch r.suffixMatch r.rrtypeMask
      (if r.bloomSeeds = [] then [r.domain.clip maxDomainLen] else r.bloomSeeds) ∧
    (if r.bloomSeeds = [] then [r.domain.clip maxDomainLen] else r.bloomSeeds) ≠ [] := by
  split_ifs with hnil
  · have hseed : ∀ s ∈ [r.domain.clip maxDomainLen], s.bytes ≠ [] := by
      intro s hs
      rw [List.mem_singleton.mp hs]
      exact clip_bytes_ne (by decide) ht.domain_ne
    exact ⟨{ ht with seed_count := by simp [maxBloomSeeds], seed_ne := hseed }, by simp⟩
  · exact ⟨ht, hnil⟩

/-- The Bloom check, from the texts of the route and what was checked before. -/
theorem checkBloom_ok {algo : HashAlgorithm} {r r' : Route} (h : checkBloom r = .ok r')
    (ht : Texts algo r.domain r.hash r.prefixMatch r.suffixMatch r.rrtypeMask r.bloomSeeds)
    (hlabels : 1 ≤ r.minLabels ∧ r.minLabels ≤ r.maxLabels ∧ r.maxLabels ≤ 127)
    (hlengths : 1 ≤ r.qnameMinLen ∧ r.qnameMinLen ≤ r.qnameMaxLen ∧ r.qnameMaxLen ≤ 255)
    (hpow : r.powDifficulty ≤ 63)
    (hoff : r.powEnabled = false → r.powDifficulty = 0 ∧ r.powTimeWindow = 0) :
    r'.Accepted algo := by
  unfold checkBloom at h
  split at h
  · rename_i hdis
    cases h
    rw [Bool.not_eq_true'] at hdis
    refine ⟨{ ht with seed_count := by simp, seed_ne := by simp }, hlabels, hlengths, hpow, hoff,
      ⟨fun hon => ?_, fun _ => ⟨rfl, rfl, rfl, rfl⟩⟩⟩
    rw [show r.bloomEnabled = true from hon] at hdis
    cases hdis
  · rename_i hen
    rw [Bool.not_eq_true', Bool.not_eq_false] at hen
    dsimp only at h
    obtain ⟨hseeds, hne⟩ := defaultSeeds_texts ht
    have hpos : 1 ≤ (if r.bloomHashFunctions = 0 then 3 else r.bloomHashFunctions) := by
      split_ifs with hz
      · decide
      · exact UInt8.pos_iff_ne_zero.mpr hz
    generalize (if r.bloomSize = 0 then 1024 else r.bloomSize) = size at h
    generalize (if r.bloomHashFunctions = 0 then 3 else r.bloomHashFunctions) = functions at h hpos
    generalize (if r.bloomSeeds = [] then [r.domain.clip maxDomainLen] else r.bloomSeeds) = seeds
      at h hseeds hne
    split at h
    · cases h
    · rename_i hsize
      split at h
      · cases h
      · rename_i hfun
        cases h
        rw [not_or, gt_iff_lt, UInt32.not_lt, UInt32.not_lt] at hsize
        rw [gt_iff_lt, UInt8.not_lt] at hfun
        refine ⟨hseeds, hlabels, hlengths, hpow, hoff,
          ⟨fun _ => ⟨hsize.2, hsize.1, hpos, hfun, hne⟩, fun hdis => ?_⟩⟩
        rw [show r.bloomEnabled = false from hdis] at hen
        cases hen

theorem checkRoute_ok {algo : HashAlgorithm} {r r' : Route} (h : checkRoute r = .ok r')
    (ht : Texts algo r.domain r.hash r.prefixMatch r.suffixMatch r.rrtypeMask r.bloomSeeds) :
    r'.Accepted algo := by
  unfold checkRoute at h
  split at h
  · cases h
  · rename_i hlabels
    split at h
    · cases h
    · rename_i hlengths
      dsimp only at h
      split at h
      · cases h
      · rename_i hpow
        simp only [not_or, gt_iff_lt, UInt8.not_lt, UInt16.not_lt] at hlabels hlengths hpow
        have hsame : Texts algo (clearPow r).domain (clearPow r).hash (clearPow r).prefixMatch
            (clearPow r).suffixMatch (clearPow r).rrtypeMask (clearPow r).bloomSeeds ∧
            (clearPow r).minLabels = r.minLabels ∧ (clearPow r).maxLabels = r.maxLabels ∧
            (clearPow r).qnameMinLen = r.qnameMinLen ∧
            (clearPow r).qnameMaxLen = r.qnameMaxLen := by
          unfold clearPow
          split_ifs <;> exact ⟨ht, rfl, rfl, rfl, rfl⟩
        obtain ⟨ht', e1, e2, e3, e4⟩ := hsame
        refine checkBloom_ok h ht' ?_ ?_ hpow (clearPow_off r)
        · rw [e1, e2]
          exact ⟨UInt8.pos_iff_ne_zero.mpr hlabels.1, hlabels.2.2.1, hlabels.2.2.2⟩
        · rw [e3, e4]
          exact ⟨UInt16.pos_iff_ne_zero.mpr hlengths.1, hlengths.2.2, hlengths.2.1⟩

/-- A route that is a mapping, as a chain of steps. -/
theorem parseRoute_mapping (doc : YamlDocument) (pairs : List (Nat × Nat)) (cfg : Config) :
    parseRoute doc (some (.mapping pairs)) cfg =
      parseRouteTarget doc (.mapping pairs) cfg >>=
        ((parseRouteFlat doc (.mapping pairs) >=>
          stepField (mapGet doc (.mapping pairs) "filters") (parseRouteFilters doc)) >=>
          fun d => checkRoute (pairBounds d)) := by
  rw [fish_assoc]
  rfl

/-- What an accepted route went through. -/
theorem parseRoute_cases {doc : YamlDocument} {node : Option YamlNode} {cfg : Config} {r : Route}
    (h : parseRoute doc node cfg = .ok r) :
    ∃ pairs d₁ d₂ d₃, node = some (.mapping pairs) ∧
      parseRouteTarget doc (.mapping pairs) cfg = .ok d₁ ∧
      parseRouteFlat doc (.mapping pairs) d₁ = .ok d₂ ∧
      stepField (mapGet doc (.mapping pairs) "filters") (parseRouteFilters doc) d₂ = .ok d₃ ∧
      checkRoute (pairBounds d₃) = .ok r := by
  unfold parseRoute at h
  split at h
  · obtain ⟨d₁, h₁, h⟩ := bind_eq_ok h
    obtain ⟨d₂, h₂, h⟩ := bind_eq_ok h
    obtain ⟨d₃, h₃, h⟩ := bind_eq_ok h
    exact ⟨_, d₁, d₂, d₃, rfl, h₁, h₂, h₃, h⟩
  · cases h

theorem parseRoute_accepted {doc : YamlDocument} {node : Option YamlNode} {cfg : Config}
    {r : Route} (h : parseRoute doc node cfg = .ok r) : r.Accepted cfg.hashAlgo := by
  obtain ⟨pairs, d₁, d₂, d₃, -, h₁, h₂, h₃, hcheck⟩ := parseRoute_cases h
  have k₂ := parseRouteFlat_kept d₁ d₂ h₂ (parseRouteTarget_kept h₁)
  have k₃ := stepField_keeps (fun _ => parseRouteFilters_kept) d₂ d₃ h₃ k₂
  exact checkRoute_ok hcheck (pairBounds_texts k₃)

theorem routeLoop_accepted {doc : YamlDocument} {cfg : Config} (items : List Nat) :
    ∀ {routes routes' : List Route}, routeLoop doc cfg items routes = .ok routes' →
      routes.length ≤ maxRoutes → (∀ r ∈ routes, r.Accepted cfg.hashAlgo) →
        routes'.length ≤ maxRoutes ∧ ∀ r ∈ routes', r.Accepted cfg.hashAlgo := by
  induction items with
  | nil =>
    intro routes routes' h hlen hacc
    cases h
    exact ⟨hlen, hacc⟩
  | cons item items ih =>
    intro routes routes' h hlen hacc
    unfold routeLoop at h
    split at h
    · cases h
    · rename_i hroom
      obtain ⟨r, hr, h⟩ := bind_eq_ok h
      refine ih h (by rw [List.length_append, List.length_singleton]; omega) ?_
      intro r' hr'
      rcases List.mem_append.mp hr' with hr' | hr'
      · exact hacc r' hr'
      · rw [List.mem_singleton.mp hr']
        exact parseRoute_accepted hr

/-! ## The configuration -/

/-- What the steps before the routes keep. -/
def HeadKept (cfg : Config) : Prop := FiltersOk cfg.blacklist cfg.allowedOpcodeMask

section HeadKept

variable {doc : YamlDocument} {root : YamlNode}

theorem parseGlobalKeys_kept : Keeps HeadKept (parseGlobalKeys doc root) := by
  unfold parseGlobalKeys
  refine .comp ?_ <| .comp ?_ ?_
  · exact textField_keeps fun _ _ h => h
  · exact field_keeps fun _ _ _ _ h => h
  · exact field_keeps fun _ _ _ _ h => h

theorem parseFilterKeys_kept {key : String} : Keeps HeadKept (parseFilterKeys doc key root) := by
  unfold parseFilterKeys
  refine .comp ?_ <| .comp ?_ <| .comp ?_ ?_
  · refine field_keeps fun node list cfg hlist h => ?_
    unfold parseBlacklist at hlist
    split at hlist
    · obtain ⟨hcount, hne⟩ := blacklistLoop_ok _ hlist (by simp) (by simp)
      exact { h with blacklist_count := hcount, blacklist_ne := hne }
    · cases hlist
  · exact field_keeps fun _ _ _ _ h => h
  · exact field_keeps fun _ _ _ hm h => { h with opcode_ne := parseAllowedOpcodes_ne hm }
  · exact field_keeps fun _ _ _ _ h => h

theorem parsePaths_kept : Keeps HeadKept (parsePaths doc root) := by
  unfold parsePaths
  refine .comp ?_ <| .comp ?_ <| .comp ?_ ?_
  all_goals exact textField_keeps fun _ _ h => h

theorem parseCodegenKeys_kept : Keeps HeadKept (parseCodegenKeys doc root) := by
  unfold parseCodegenKeys
  refine .comp ?_ <| .comp ?_ ?_
  all_goals exact field_keeps fun _ _ _ _ h => h

theorem parseHead_kept : Keeps HeadKept (parseHead doc root) := by
  unfold parseHead
  refine .comp ?_ <| .comp ?_ <| .comp ?_ <| .comp ?_ ?_
  · exact orSay_keeps (.comp (subsection_keeps fun _ => parseGlobalKeys_kept) parseGlobalKeys_kept)
  · exact orSay_keeps (.comp (subsection_keeps fun _ => parseFilterKeys_kept) parseFilterKeys_kept)
  · exact parsePaths_kept
  · exact orSay_keeps (field_keeps fun _ _ _ _ h => h)
  · exact orSay_keeps (subsection_keeps fun _ => parseCodegenKeys_kept)

end HeadKept

theorem configInitDefaults_kept : HeadKept configInitDefaults :=
  ⟨by simp [configInitDefaults], by simp [configInitDefaults], by decide⟩

/-- An accepted document, step by step. -/
theorem parseConfigYaml_cases {doc : YamlDocument} {cfg : Config}
    (h : parseConfigYaml doc = .ok cfg) :
    ∃ pairs head items routes, doc.getRootNode = some (.mapping pairs) ∧
      parseHead doc (.mapping pairs) configInitDefaults = .ok head ∧
      mapGet doc (.mapping pairs) "routes" = some (.sequence items) ∧
      routeLoop doc head items [] = .ok routes ∧ routes ≠ [] ∧
      cfg = { head with routes := routes } := by
  unfold parseConfigYaml at h
  split at h
  · rename_i pairs hroot
    obtain ⟨head, hhead, h⟩ := bind_eq_ok h
    split at h
    · cases h
    · rename_i node hnode
      obtain ⟨cfg', hcfg, h⟩ := bind_eq_ok h
      have hroutes := orSay_eq_ok hcfg
      unfold parseRoutes at hroutes
      split at hroutes
      · obtain ⟨routes, hloop, hroutes⟩ := bind_eq_ok hroutes
        cases hroutes
        split at h
        · cases h
        · rename_i hne
          cases h
          exact ⟨pairs, head, _, routes, hroot, hhead, hnode, hloop, fun hnil => hne (by rw [hnil]; rfl),
            rfl⟩
      · cases hroutes
  · cases h

/-- **Every accepted configuration satisfies what the other parts rely on.** -/
theorem accepted_of_parse {doc : YamlDocument} {cfg : Config}
    (h : parseConfigYaml doc = .ok cfg) : cfg.Accepted := by
  obtain ⟨pairs, head, items, routes, -, hhead, -, hloop, hne, rfl⟩ := parseConfigYaml_cases h
  have hkept := parseHead_kept _ _ hhead configInitDefaults_kept
  obtain ⟨hcount, hacc⟩ := routeLoop_accepted _ hloop (by simp) (by simp)
  exact ⟨hne, hcount, hacc, hkept⟩

/-! ## A small document -/

/-- One route for the name "a" to user space, behind a Bloom filter with this time window. -/
def sampleDocument (window : String) : YamlDocument where
  nodes :=
    [.mapping [(2, 3)],
      .scalar (ascii "routes"), .sequence [4],
      .mapping [(5, 6), (7, 8), (9, 10)],
      .scalar (ascii "domain"), .scalar (ascii "a"),
      .scalar (ascii "target"), .scalar (ascii "user_space"),
      .scalar (ascii "filters"), .mapping [(11, 12)],
      .scalar (ascii "bloom_filter"), .mapping [(13, 14), (15, 16)],
      .scalar (ascii "enabled"), .scalar (ascii "true"),
      .scalar (ascii "time_window"), .scalar (ascii window)]

/-- Its route: the seed list is the domain. -/
def sampleRoute (window : UInt16) : Route where
  domain := CStr.lit "a"
  hash := 4953267810257967366
  target := .userSpace
  xskQueue := 0
  kernelPort := 5302
  progIndex := 0
  progName := CStr.empty
  prefixMatch := CStr.empty
  suffixMatch := CStr.empty
  minLabels := 1
  maxLabels := 127
  qnameMinLen := 1
  qnameMaxLen := 255
  rrtypeMask := 7
  powEnabled := true
  powDifficulty := 0
  powTimeWindow := 0
  bloomEnabled := true
  bloomSize := 1024
  bloomHashFunctions := 3
  bloomTimeWindow := window
  bloomSeeds := [CStr.lit "a"]
  rateLimitQps := 0

def sampleConfig (window : UInt16) : Config :=
  { configInitDefaults with routes := [sampleRoute window] }

set_option maxRecDepth 4000 in
theorem parse_sampleDocument_zero :
    parseConfigYaml (sampleDocument "0") = .ok (sampleConfig 0) := by decide +kernel

set_option maxRecDepth 4000 in
theorem parse_sampleDocument_sixty :
    parseConfigYaml (sampleDocument "60") = .ok (sampleConfig 60) := by decide +kernel

/-- One route to user space for a domain. -/
def spelledDocument (domain : String) : YamlDocument where
  nodes :=
    [.mapping [(2, 3)],
      .scalar (ascii "routes"), .sequence [4],
      .mapping [(5, 6), (7, 8)],
      .scalar (ascii "domain"), .scalar (ascii domain),
      .scalar (ascii "target"), .scalar (ascii "user_space")]

def spelledConfig (domain : String) : Config :=
  { configInitDefaults with
    routes := [{ sampleRoute 0 with
      domain := CStr.lit domain
      hash := hashDomain (CStr.lit domain) .fnv1a
      bloomEnabled := false
      bloomSize := 0
      bloomHashFunctions := 0
      bloomSeeds := [] }] }

set_option maxRecDepth 4000 in
theorem parse_spelledDocument :
    parseConfigYaml (spelledDocument "a") = .ok (spelledConfig "a") ∧
      parseConfigYaml (spelledDocument "A.") = .ok (spelledConfig "A.") ∧
      parseConfigYaml (spelledDocument "__ZEREH_HASH_ALGO__") =
        .ok (spelledConfig "__ZEREH_HASH_ALGO__") := by decide +kernel

/-! ## The invariants, field by field -/

theorem mask_known_bits {mask : UInt32} (h : mask ≤ 15) :
    mask &&& ~~~(rrtypeA ||| rrtypeAaaa ||| rrtypeTxt ||| rrtypeAny) = 0 := by
  have hall : ∀ m : Fin 16,
      UInt32.ofNat m &&& ~~~(rrtypeA ||| rrtypeAaaa ||| rrtypeTxt ||| rrtypeAny) = 0 := by decide
  have hlt : mask.toNat < 16 := Nat.lt_succ_of_le (UInt32.le_iff_toNat_le.mp h)
  have := hall ⟨mask.toNat, hlt⟩
  rwa [UInt32.ofNat_toNat] at this

/-- **Every accepted document.** Whatever keys it has, in flat or nested form, the counts, the
    bounds and the parameters of the filters are in the ranges that the generator, the loader and
    the data plane take for granted. -/
theorem parseConfigYaml_invariants (doc : YamlDocument) (cfg : Config)
    (h : parseConfigYaml doc = .ok cfg) :
    (1 ≤ cfg.routes.length ∧ cfg.routes.length ≤ 1024) ∧
    (cfg.blacklist.length ≤ 1024 ∧ ∀ cidr ∈ cfg.blacklist, cidr.bytes ≠ []) ∧
    cfg.allowedOpcodeMask ≠ 0 ∧
    ∀ r ∈ cfg.routes,
      (r.domain.bytes ≠ [] ∧ r.hash = hashDomain r.domain cfg.hashAlgo) ∧
      (1 ≤ r.minLabels ∧ r.minLabels ≤ r.maxLabels ∧ r.maxLabels ≤ 127) ∧
      (1 ≤ r.qnameMinLen ∧ r.qnameMinLen ≤ r.qnameMaxLen ∧ r.qnameMaxLen ≤ 255) ∧
      (r.rrtypeMask ≠ 0 ∧
        r.rrtypeMask &&& ~~~(rrtypeA ||| rrtypeAaaa ||| rrtypeTxt ||| rrtypeAny) = 0) ∧
      r.powDifficulty ≤ 63 ∧
      (r.powEnabled = false → r.powDifficulty = 0 ∧ r.powTimeWindow = 0) ∧
      (r.bloomEnabled = true →
        (64 ≤ r.bloomSize ∧ r.bloomSize ≤ 65536) ∧
        (1 ≤ r.bloomHashFunctions ∧ r.bloomHashFunctions ≤ 8) ∧
        (1 ≤ r.bloomSeeds.length ∧ r.bloomSeeds.length ≤ 32) ∧
        ∀ seed ∈ r.bloomSeeds, seed.bytes ≠ []) ∧
      (r.bloomEnabled = false →
        r.bloomSize = 0 ∧ r.bloomHashFunctions = 0 ∧ r.bloomTimeWindow = 0 ∧
          r.bloomSeeds.length = 0) := by
  have hcfg := accepted_of_parse h
  refine ⟨⟨List.length_pos_iff.mpr hcfg.routes_ne, hcfg.route_count⟩,
    ⟨hcfg.filters.blacklist_count, hcfg.filters.blacklist_ne⟩, hcfg.filters.opcode_ne, ?_⟩
  intro r hr
  obtain ⟨texts, labels, lengths, powLe, powOff, bloom⟩ := hcfg.routes r hr
  refine ⟨⟨texts.domain_ne, texts.hash_eq⟩, labels, lengths,
    ⟨texts.mask_ne, mask_known_bits texts.mask_le⟩, powLe, powOff, ?_, ?_⟩
  · intro hon
    obtain ⟨hmin, hmax, hfunMin, hfunMax, hne⟩ := bloom.on hon
    exact ⟨⟨hmin, hmax⟩, ⟨hfunMin, hfunMax⟩,
      ⟨List.length_pos_iff.mpr hne, texts.seed_count⟩, texts.seed_ne⟩
  · intro hoff
    obtain ⟨hsize, hfun, hwindow, hseeds⟩ := bloom.off hoff
    exact ⟨hsize, hfun, hwindow, by rw [hseeds]; rfl⟩

theorem parseConfigYaml_invariants_sample :
    1 ≤ (sampleConfig 60).routes.length ∧ (sampleConfig 60).allowedOpcodeMask ≠ 0 :=
  have h := parseConfigYaml_invariants (sampleDocument "60") (sampleConfig 60)
    parse_sampleDocument_sixty
  ⟨h.1.1, h.2.2.1⟩

end Control

end Zereh
