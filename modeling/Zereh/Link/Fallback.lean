/-
  The suffix fallback against the ancestry of names.

  `zereh_match_prefix` and `zereh_match_suffix` compare bytes, at most 127 of them: the loop ends
  after 128 rounds, and the round that finds the end of the pattern is one of them. So a domain
  matches every name that ends with its bytes, whether or not a label starts there
  (`fallback_sound_iff`), and a pattern of 128 bytes or more matches nothing.
-/
import Zereh.Link.Generated

namespace Zereh.Link

open Lib CText Control Xdp

/-! ## The matchers -/

/-- From position `i` on the loop compares the rest of the pattern, if the rounds left reach its
    end. -/
theorem matchLoop_eq {qname pat : List UInt8} {start : Nat}
    (hname : start + pat.length ≤ qname.length) (n i : Nat) (hi : i ≤ pat.length) :
    matchLoop qname start pat pat.length n i =
      .ok (decide (pat.length < i + n ∧
        slice qname (start + i) (pat.length - i) = slice pat i (pat.length - i))) := by
  induction n generalizing i with
  | zero =>
    rw [matchLoop, decide_eq_false]
    omega
  | succ n ih =>
    rw [matchLoop]
    by_cases hend : i ≥ pat.length
    · obtain rfl : i = pat.length := by omega
      rw [if_pos hend, Nat.sub_self, slice_zero, slice_zero, decide_eq_true ⟨by omega, rfl⟩]
    · rw [if_neg hend, readAt_ok (by omega), ok_bind, readAt_ok (by omega), ok_bind]
      obtain ⟨k, hk⟩ : ∃ k, pat.length - i = k + 1 := ⟨pat.length - i - 1, by omega⟩
      have hk' : pat.length - (i + 1) = k := by omega
      rw [hk, slice_succ (by omega), slice_succ (by omega)]
      split_ifs with hne
      · rw [decide_eq_false fun h => hne (List.cons_eq_cons.mp h.2).1]
      · rw [ih (i + 1) (by omega), hk', Nat.add_right_comm i 1 n, not_not.mp hne]
        congr 1
        refine decide_eq_decide.mpr (and_congr_right fun _ => ?_)
        exact ⟨fun h => List.cons_eq_cons.mpr ⟨rfl, h⟩, fun h => (List.cons_eq_cons.mp h).2⟩

/-- The length that the generator prints next to a pattern. -/
theorem toNat_ofNat_length {pat : List UInt8} (h : pat.length ≤ 255) :
    (UInt16.ofNat pat.length).toNat = pat.length := by
  rw [UInt16.toNat_ofNat']
  exact Nat.mod_eq_of_lt (by omega)

theorem ofNat_length_eq_zero_iff {pat : List UInt8} (h : pat.length ≤ 255) :
    UInt16.ofNat pat.length = 0 ↔ pat = [] := by
  rw [← UInt16.toNat_inj, toNat_ofNat_length h]
  exact List.length_eq_zero_iff

/-- Both matchers: no pattern, a pattern that is longer than the name, and the loop from `start`. -/
theorem matcher_eq {qname pat : List UInt8} (h : pat.length ≤ 255) {start : Nat} {Q : Prop}
    [Decidable Q] (hlen : Q → pat.length ≤ qname.length)
    (hname : pat.length ≤ qname.length → start + pat.length ≤ qname.length)
    (hQ : pat.length ≤ qname.length → (slice qname start pat.length = pat ↔ Q)) :
    (if UInt16.ofNat pat.length = 0 then .ok true
      else if pat.length > qname.length then .ok false
      else matchLoop qname start pat pat.length 128 0) =
      (.ok (decide (pat = [] ∨ pat.length < 128 ∧ Q)) : Checked Bool) := by
  by_cases hnil : pat = []
  · rw [if_pos ((ofNat_length_eq_zero_iff h).mpr hnil), decide_eq_true (.inl hnil)]
  · rw [if_neg fun h0 => hnil ((ofNat_length_eq_zero_iff h).mp h0)]
    by_cases hlong : pat.length > qname.length
    · rw [if_pos hlong, decide_eq_false]
      rintro (h0 | ⟨-, hq⟩)
      · exact hnil h0
      · exact absurd (hlen hq) (Nat.not_le.mpr hlong)
    · have hle := Nat.not_lt.mp hlong
      rw [if_neg hlong, matchLoop_eq (hname hle) 128 0 (Nat.zero_le _)]
      congr 1
      refine decide_eq_decide.mpr ?_
      have hpat : slice pat 0 pat.length = pat := List.take_length
      rw [Nat.zero_add, Nat.add_zero, Nat.sub_zero, hpat, hQ hle]
      exact (or_iff_right hnil).symm

/-- The bytes that the prefix loop compares. -/
theorem matchPrefix_eq (qname : List UInt8) {pat : List UInt8} (h : pat.length ≤ 255) :
    matchPrefix qname qname.length pat (UInt16.ofNat pat.length) =
      .ok (decide (pat = [] ∨ pat.length < 128 ∧ pat <+: qname)) := by
  unfold matchPrefix
  rw [toNat_ofNat_length h]
  refine matcher_eq h List.IsPrefix.length_le (fun hle => by omega) fun _ => ?_
  rw [List.prefix_iff_eq_take]
  exact eq_comm

/-- The bytes that the suffix loop compares. -/
theorem matchSuffix_eq (qname : List UInt8) {pat : List UInt8} (h : pat.length ≤ 255) :
    matchSuffix qname qname.length pat (UInt16.ofNat pat.length) =
      .ok (decide (pat = [] ∨ pat.length < 128 ∧ pat <:+ qname)) := by
  unfold matchSuffix
  rw [toNat_ofNat_length h]
  refine matcher_eq h List.IsSuffix.length_le (fun hle => by omega) fun hle => ?_
  have htail : slice qname (qname.length - pat.length) pat.length =
      qname.drop (qname.length - pat.length) :=
    List.take_of_length_le (by rw [List.length_drop]; omega)
  rw [List.suffix_iff_eq_drop, htail]
  exact eq_comm

theorem ok_true_iff {x : Checked Bool} {p : Prop} [Decidable p] (h : x = .ok (decide p)) :
    x = .ok true ↔ p := by
  rw [h, Except.ok.injEq, decide_eq_true_iff]

theorem matchPrefix_iff (qname : List UInt8) {pat : CStr} (h : pat.len ≤ 255) :
    matchPrefix qname qname.length pat.bytes (UInt16.ofNat pat.len) = .ok true ↔
      pat.bytes = [] ∨ pat.len < 128 ∧ pat.bytes <+: qname := ok_true_iff (matchPrefix_eq qname h)

theorem matchSuffix_iff (qname : List UInt8) {pat : CStr} (h : pat.len ≤ 255) :
    matchSuffix qname qname.length pat.bytes (UInt16.ofNat pat.len) = .ok true ↔
      pat.bytes = [] ∨ pat.len < 128 ∧ pat.bytes <:+ qname := ok_true_iff (matchSuffix_eq qname h)

/-! ## Label boundaries -/

/-- The queried name is the domain or a subdomain of it. -/
def Below (domain qname : List UInt8) : Prop := qname = domain ∨ (46 :: domain) <:+ qname

/-- A name that ends with the domain is the domain, or has one more byte before it. -/
theorem suffix_cases {domain qname : List UInt8} (h : domain <:+ qname) :
    qname = domain ∨ ∃ x c, qname = x ++ c :: domain := by
  obtain ⟨front, rfl⟩ := h
  rcases List.eq_nil_or_concat front with rfl | ⟨x, c, rfl⟩
  · exact .inl rfl
  · exact .inr ⟨x, c, by simp⟩

/-- The byte before the domain is a dot exactly when the name is a subdomain. -/
theorem below_append_cons_iff (x : List UInt8) (c : UInt8) (domain : List UInt8) :
    Below domain (x ++ c :: domain) ↔ c = 46 := by
  constructor
  · rintro (h | h)
    · have := congrArg List.length h
      simp only [List.length_append, List.length_cons] at this
      omega
    · have heq := List.suffix_of_suffix_length_le h (List.suffix_append x (c :: domain)) (by simp)
      exact (List.cons_eq_cons.mp (heq.eq_of_length (by simp))).1.symm
  · rintro rfl
    exact .inr (List.suffix_append x _)

/-- **The fallback is sound at label boundaries exactly off the names that continue a label.**
    The test selects names outside the domain's subtree when they end with its bytes right after a
    byte other than a dot; a domain of 128 bytes or more is never selected this way. -/
theorem fallback_sound_iff (doc : YamlDocument) (cfg : Config) (hcfg : parseConfigYaml doc = .ok cfg)
    (r : Route) (hr : r ∈ cfg.routes) (qmeta : DnsQueryMeta) :
    (matchSuffix qmeta.qname qmeta.qnameLen r.domain.bytes (UInt16.ofNat r.domain.len) = .ok true →
      Below r.domain.bytes qmeta.qname) ↔
    (128 ≤ r.domain.len ∨ ∀ x c, qmeta.qname = x ++ c :: r.domain.bytes → c = 46) := by
  have htexts := ((accepted_of_parse hcfg).routes r hr).texts
  have hmatch : matchSuffix qmeta.qname qmeta.qnameLen r.domain.bytes
      (UInt16.ofNat r.domain.len) = .ok true ↔
      r.domain.len < 128 ∧ r.domain.bytes <:+ qmeta.qname :=
    (matchSuffix_iff qmeta.qname htexts.domain_len).trans (or_iff_right htexts.domain_ne)
  rw [hmatch]
  constructor
  · intro hsound
    rw [or_iff_not_imp_left, Nat.not_le]
    intro hshort x c hq
    have hsuffix : r.domain.bytes <:+ qmeta.qname := ⟨x ++ [c], by simp [hq]⟩
    have hbelow := hsound ⟨hshort, hsuffix⟩
    rwa [hq, below_append_cons_iff] at hbelow
  · rintro hcond ⟨hshort, hsuffix⟩
    have hdot := hcond.resolve_left (Nat.not_le.mpr hshort)
    rcases suffix_cases hsuffix with heq | ⟨x, c, hq⟩
    · exact .inl heq
    · rw [hq, below_append_cons_iff]
      exact hdot x c hq

/-- The question "ba" of type A. -/
def neighbourQuestion : List UInt8 :=
  [18, 52, 1, 0, 0, 1, 0, 0, 0, 0, 0, 0, 2, 98, 97, 0, 0, 1, 0, 1]

def neighbourQuery : DnsQueryMeta :=
  { sampleQuery with qnameHash := fnv1a64 [98, 97], qname := [98, 97] }

/-- The name "b.a" as the data plane sees it. -/
def subdomainQuery : DnsQueryMeta :=
  { sampleQuery with qnameHash := fnv1a64 [98, 46, 97], labelDepth := 2, qname := [98, 46, 97] }

/-- "b.a" is sent to the route of "a", and is below it. -/
theorem fallback_sound_sample :
    matchSuffix subdomainQuery.qname subdomainQuery.qnameLen (sampleRoute 0).domain.bytes
        (UInt16.ofNat (sampleRoute 0).domain.len) = .ok true ∧
      Below (sampleRoute 0).domain.bytes subdomainQuery.qname := by
  refine ⟨rfl, (fallback_sound_iff (sampleDocument "0") (sampleConfig 0) parse_sampleDocument_zero
    (sampleRoute 0) (List.mem_singleton_self _) subdomainQuery).mpr (.inr fun x c h => ?_) rfl⟩
  have hsplit : [98] ++ [46, 97] = x ++ [c, 97] := h
  obtain ⟨-, hend⟩ := List.append_inj' hsplit rfl
  exact (List.cons.inj hend).1.symm

/-- "ba" is sent to the route of "a". -/
theorem fallback_takes_neighbour :
    ¬ ∀ (doc : YamlDocument) (cfg : Config), parseConfigYaml doc = .ok cfg →
      ∀ r ∈ cfg.routes, lower r.domain.bytes = r.domain.bytes →
        r.domain.bytes.getLast? ≠ some 46 →
        ∀ (pkt : List UInt8) (udp : Nat) (qmeta : DnsQueryMeta),
          parseDnsQuery pkt udp = .ok (some qmeta) →
          matchSuffix qmeta.qname qmeta.qnameLen r.domain.bytes (UInt16.ofNat r.domain.len) =
            .ok true → Below r.domain.bytes qmeta.qname := by
  intro hall
  have hbelow := hall (sampleDocument "0") (sampleConfig 0) parse_sampleDocument_zero (sampleRoute 0)
    (List.mem_singleton_self _) rfl (by decide) (sampleFrame [192, 0, 2, 1] neighbourQuestion) 34
    neighbourQuery rfl rfl
  exact absurd ((below_append_cons_iff [] 98 [97]).mp hbelow) (by decide)

end Zereh.Link
