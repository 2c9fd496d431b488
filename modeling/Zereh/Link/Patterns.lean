/-
  The patterns of a route against the names they are meant for.

  `zereh_match_prefix` and `zereh_match_suffix` are exact for every pattern of at most 127 bytes and
  for no longer one (`matchers_exact_iff`): the configuration admits 128 bytes for a pattern and 255
  for a domain, and the loop of 128 rounds never gets to the round that would notice their end.

  The suffix filter and the suffix fallback look at the same end of the name. For a name `host`,
  `suffix_match`, ".", `domain` the filter succeeds exactly when the pattern ends a repetition of
  "." and the domain (`hostSuffix_iff`), whatever the host is. So "-data" admits no name below
  "t.example.com".
-/
import Zereh.Link.Spelling

namespace Zereh.Link

open Lib CText Control Xdp

/-! ## The length of a pattern -/

/-- `zereh_match_prefix` with a pattern and its length. -/
def prefixMatches (qname : List UInt8) (pat : CStr) : Checked Bool :=
  matchPrefix qname qname.length pat.bytes (UInt16.ofNat pat.len)

/-- `zereh_match_suffix` with a pattern and its length. -/
def suffixMatches (qname : List UInt8) (pat : CStr) : Checked Bool :=
  matchSuffix qname qname.length pat.bytes (UInt16.ofNat pat.len)

/-- A test that gives up on long patterns is exact where the pattern is short or does not match. -/
theorem exact_iff {nil matched short : Prop} [Decidable nil] [Decidable matched] [Decidable short]
    (hnil : nil → short ∧ matched) :
    (Except.ok (decide (nil ∨ short ∧ matched)) : Checked Bool) = .ok (decide matched) ↔
      short ∨ ¬ matched := by
  rw [Except.ok.injEq, decide_eq_decide]
  tauto

theorem nil_short {pat : CStr} (h : pat.bytes = []) : pat.len < 128 := by
  rw [CStr.len, h]
  decide

theorem prefixMatches_exact_iff {pat : CStr} (hpat : pat.len ≤ maxDomainLen) (qname : List UInt8) :
    prefixMatches qname pat = .ok (decide (pat.bytes <+: qname)) ↔
      pat.len < 128 ∨ ¬ pat.bytes <+: qname := by
  rw [prefixMatches, CStr.len, matchPrefix_eq qname hpat]
  exact exact_iff fun h => ⟨nil_short h, h ▸ List.nil_prefix⟩

theorem suffixMatches_exact_iff {pat : CStr} (hpat : pat.len ≤ maxDomainLen) (qname : List UInt8) :
    suffixMatches qname pat = .ok (decide (pat.bytes <:+ qname)) ↔
      pat.len < 128 ∨ ¬ pat.bytes <:+ qname := by
  rw [suffixMatches, CStr.len, matchSuffix_eq qname hpat]
  exact exact_iff fun h => ⟨nil_short h, h ▸ List.nil_suffix⟩

/-- **How long a pattern may be.** On a name the two matchers compute "is a prefix" and "is a suffix"
    exactly when the pattern is shorter than 128 bytes or does not match; so on all names exactly
    when it is shorter than 128 bytes. -/
theorem matchers_exact_iff (pat : CStr) (hpat : pat.len ≤ maxDomainLen) :
    (∀ qname, (prefixMatches qname pat = .ok (decide (pat.bytes <+: qname)) ↔
        pat.len < 128 ∨ ¬ pat.bytes <+: qname) ∧
      (suffixMatches qname pat = .ok (decide (pat.bytes <:+ qname)) ↔
        pat.len < 128 ∨ ¬ pat.bytes <:+ qname)) ∧
    ((∀ qname : List UInt8, qname.length ≤ dnsMaxQname →
        prefixMatches qname pat = .ok (decide (pat.bytes <+: qname)) ∧
          suffixMatches qname pat = .ok (decide (pat.bytes <:+ qname))) ↔ pat.len < 128) := by
  have hpre := prefixMatches_exact_iff hpat
  have hsuf := suffixMatches_exact_iff hpat
  refine ⟨fun qname => ⟨hpre qname, hsuf qname⟩, ?_, ?_⟩
  · -- the pattern itself is a name that it matches
    intro hall
    have hself := (hpre pat.bytes).mp (hall pat.bytes hpat).1
    exact hself.resolve_right (not_not.mpr List.prefix_rfl)
  · intro hshort qname _
    exact ⟨(hpre qname).mpr (.inl hshort), (hsuf qname).mpr (.inl hshort)⟩

theorem matchers_exact_sample :
    prefixMatches (ascii "dev-1") (CStr.lit "dev-") =
      .ok (decide ((CStr.lit "dev-").bytes <+: ascii "dev-1")) :=
  (((matchers_exact_iff (CStr.lit "dev-") (by decide)).2.mpr (by decide)) (ascii "dev-1")
    (by decide)).1

/-- A route to user space for a domain, with both patterns in `filters.qname_rules`. -/
def patternDocument (domain pfx sfx : List UInt8) : YamlDocument where
  nodes :=
    [.mapping [(2, 3)],
      .scalar (ascii "routes"), .sequence [4],
      .mapping [(5, 6), (7, 8), (9, 10)],
      .scalar (ascii "domain"), .scalar domain,
      .scalar (ascii "target_type"), .scalar (ascii "user_space"),
      .scalar (ascii "filters"), .mapping [(11, 12)],
      .scalar (ascii "qname_rules"), .mapping [(13, 14), (15, 16)],
      .scalar (ascii "prefix_match"), .scalar pfx,
      .scalar (ascii "suffix_match"), .scalar sfx]

def patternRoute (domain pfx sfx : List UInt8) : Route :=
  { sampleRoute 0 with
    domain := .ofBytes domain
    hash := hashDomain (.ofBytes domain) .fnv1a
    prefixMatch := .ofBytes pfx
    suffixMatch := .ofBytes sfx
    bloomEnabled := false
    bloomSize := 0
    bloomHashFunctions := 0
    bloomSeeds := [] }

def patternConfig (domain pfx sfx : List UInt8) : Config :=
  { configInitDefaults with routes := [patternRoute domain pfx sfx] }

/-- A name of 129 bytes in three labels. -/
def longName : List UInt8 :=
  List.replicate 63 97 ++ 46 :: (List.replicate 63 98 ++ [46, 99])

set_option maxRecDepth 8000 in
/-- Accepted patterns of 128 bytes, and an accepted domain of 129, do not match a name that they
    begin, end and are. -/
theorem long_patterns_fail :
    parseConfigYaml (patternDocument longName (longName.take 128) (longName.drop 1)) =
        .ok (patternConfig longName (longName.take 128) (longName.drop 1)) ∧
      (CStr.ofBytes (longName.take 128)).bytes <+: longName ∧
      prefixMatches longName (.ofBytes (longName.take 128)) = .ok false ∧
      (CStr.ofBytes (longName.drop 1)).bytes <:+ longName ∧
      suffixMatches longName (.ofBytes (longName.drop 1)) = .ok false ∧
      (CStr.ofBytes longName).bytes <:+ longName ∧
      suffixMatches longName (.ofBytes longName) = .ok false := by
  decide +kernel

/-! ## The host part -/

/-- `n` times "." and the domain. -/
def repeated (domain : List UInt8) (n : Nat) : List UInt8 :=
  (List.replicate n (46 :: domain)).flatten

theorem repeated_succ (domain : List UInt8) (n : Nat) :
    repeated domain (n + 1) = repeated domain n ++ 46 :: domain := by
  rw [repeated, List.replicate_succ', List.flatten_append, repeated]
  simp

/-- A text that comes back at the end after "." and the domain ends a repetition of them. -/
theorem suffix_repeated_of_suffix {sfx domain : List UInt8} (h : sfx <:+ sfx ++ 46 :: domain) :
    ∃ n, sfx <:+ repeated domain n := by
  induction hlen : sfx.length using Nat.strong_induction_on generalizing sfx with
  | _ k ih =>
    by_cases hshort : sfx.length ≤ (46 :: domain).length
    · have hlast := List.suffix_of_suffix_length_le h (List.suffix_append sfx _) hshort
      exact ⟨1, by rw [repeated_succ]; exact hlast⟩
    · -- the text ends with "." and the domain itself; what is before them comes back too
      obtain ⟨front, hfront⟩ :=
        List.suffix_of_suffix_length_le (List.suffix_append sfx (46 :: domain)) h (by omega)
      have hagain : front <:+ front ++ 46 :: domain := by
        rw [← hfront] at h
        exact List.suffix_append_self_iff.mp h
      have hfewer : front.length < k := by
        rw [← hlen, ← hfront, List.length_append, List.length_cons]
        omega
      obtain ⟨n, hn⟩ := ih front.length hfewer hagain rfl
      refine ⟨n + 1, ?_⟩
      rw [repeated_succ, ← hfront]
      exact List.suffix_append_self_iff.mpr hn

theorem suffix_of_suffix_repeated {sfx domain : List UInt8} {n : Nat}
    (h : sfx <:+ repeated domain n) : sfx <:+ sfx ++ 46 :: domain := by
  have hlonger : sfx ++ 46 :: domain <:+ repeated domain (n + 1) := by
    rw [repeated_succ]
    exact List.suffix_append_self_iff.mpr h
  have hend : sfx <:+ repeated domain (n + 1) := by
    refine h.trans ⟨46 :: domain, ?_⟩
    rw [repeated, repeated, List.replicate_succ, List.flatten_cons]
  exact List.suffix_of_suffix_length_le hend hlonger (by simp)

/-- What stands before a text does not matter for its end. -/
theorem suffix_host_iff (host sfx domain : List UInt8) :
    sfx <:+ host ++ sfx ++ 46 :: domain ↔ ∃ n, sfx <:+ repeated domain n := by
  rw [List.append_assoc]
  constructor
  · intro h
    exact suffix_repeated_of_suffix
      (List.suffix_of_suffix_length_le h (List.suffix_append host _) (by simp))
  · rintro ⟨n, hn⟩
    exact (suffix_of_suffix_repeated hn).trans (List.suffix_append host _)

/-- **Which suffix patterns admit the names they are meant for.** On a name made of a host, the
    pattern, "." and the domain of the route, the suffix check succeeds exactly when the pattern is
    shorter than 128 bytes and ends a repetition of "." and the domain. -/
theorem hostSuffix_iff (doc : YamlDocument) (cfg : Config) (hparse : parseConfigYaml doc = .ok cfg)
    (r : Route) (hr : r ∈ cfg.routes) (hne : r.suffixMatch.bytes ≠ []) (qmeta : DnsQueryMeta)
    (host : List UInt8)
    (hname : qmeta.qname = host ++ r.suffixMatch.bytes ++ 46 :: r.domain.bytes) :
    matchSuffix qmeta.qname qmeta.qnameLen r.suffixMatch.bytes (UInt16.ofNat r.suffixMatch.len) =
        .ok true ↔
      r.suffixMatch.len < 128 ∧ ∃ n, r.suffixMatch.bytes <:+ repeated r.domain.bytes n := by
  have hlen : r.suffixMatch.len ≤ 255 :=
    Nat.le_trans ((accepted_of_parse hparse).routes r hr).texts.suffix_len (by decide)
  rw [← suffix_host_iff host, ← hname]
  exact (matchSuffix_iff qmeta.qname hlen).trans (or_iff_right hne)

set_option maxRecDepth 8000 in
/-- The pattern "com" of the route for "example.com" admits "www.com.example.com". -/
theorem hostSuffix_sample :
    matchSuffix (ascii "www.com.example.com") 19 (ascii "com") 3 = .ok true := by
  have hdoc : parseConfigYaml (patternDocument (ascii "example.com") [] (ascii "com")) =
      .ok (patternConfig (ascii "example.com") [] (ascii "com")) := by decide +kernel
  exact (hostSuffix_iff _ _ hdoc (patternRoute (ascii "example.com") [] (ascii "com"))
    (List.mem_singleton_self _) (by decide)
    { sampleQuery with qname := ascii "www.com.example.com" } (ascii "www.") (by decide)).mpr
    ⟨by decide, 1, by decide⟩

/-- The sample configuration's route for "t.example.com" with the suffix "-data". -/
def dataRoute : Route := patternRoute (ascii "t.example.com") [] (ascii "-data")

def dataConfig : Config := patternConfig (ascii "t.example.com") [] (ascii "-data")

/-- The query for "sensor1-data.t.example.com". -/
def dataFrame : List UInt8 :=
  questionFrame (12 :: ascii "sensor1-data" ++ 1 :: ascii "t" ++ 7 :: ascii "example" ++
    3 :: ascii "com")

def dataQuery : DnsQueryMeta :=
  decode dataFrame 34 [ascii "sensor1-data", ascii "t", ascii "example", ascii "com"]

set_option maxRecDepth 8000 in
theorem parse_dataDocument :
    parseConfigYaml (patternDocument (ascii "t.example.com") [] (ascii "-data")) =
      .ok dataConfig := by decide +kernel

set_option maxRecDepth 8000 in
theorem dispatched_dataFrame :
    dispatched (macros dataConfig) .created dataFrame = .ok (some (⟨14, 34⟩, dataQuery)) := by
  decide +kernel

/-- The name that the sample configuration gives as an example is routed by the fallback, fails the
    suffix check and is dropped. -/
theorem documented_host_dropped :
    parseConfigYaml (patternDocument (ascii "t.example.com") [] (ascii "-data")) =
        .ok dataConfig ∧
      dataQuery.qname = ascii "sensor1" ++ dataRoute.suffixMatch.bytes ++ 46 :: dataRoute.domain.bytes ∧
      dataConfig.routes.find? (·.hash = dataQuery.qnameHash) = none ∧
      suffixRoute dataQuery dataConfig.routes.zipIdx = .ok (some (dataRoute, 0)) ∧
      matchSuffix dataQuery.qname dataQuery.qnameLen dataRoute.suffixMatch.bytes
        (UInt16.ofNat dataRoute.suffixMatch.len) = .ok false ∧
      router dataConfig ⟨0, 0, 0⟩ ⟨dataFrame, .created, none⟩ =
        .ok (.val .drop, ⟨dataFrame, .created, none⟩) := by
  refine ⟨parse_dataDocument, ?_, ?_, ?_, ?_, ?_⟩
  · decide +kernel
  · decide +kernel
  · decide +kernel
  · decide +kernel
  · have hnodup : (dataConfig.routes.map (·.hash)).Nodup := List.nodup_singleton _
    exact (router_eq_refDispatch hnodup dispatched_dataFrame _).trans rfl

end Zereh.Link
