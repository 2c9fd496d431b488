/-
  The control plane and the data plane compute the same route hash.

  `absorb data k off s` runs `k` blocks from `off`. Both block loops are `absorb` over the
  `len / 8` whole blocks (`control_blockLoop_eq`, `xdp_blockLoop_eq`), both tail loops are
  `Control.tailLoop` (`xdp_tailLoop_eq`), so `siphash24Qname_eq` holds up to 255 bytes, where
  the XDP cap of 31 blocks is not reached early. `normalizeDomain_eq` undoes the letter case
  and the trailing dot of a configured name.
-/
import Zereh.Xdp.RouteHash
import Zereh.Xdp.DnsGrammar

namespace Zereh.Link

open Lib
open Zereh.Control (SipState)
open Zereh.Xdp (DnsQueryMeta parseDnsQuery routeHash)

/-! ## SipHash -/

theorem sipround_eq (s : SipState) : Xdp.sipround s = Control.sipround s := rfl

theorem compress_eq (s : SipState) (m : UInt64) : Xdp.compress s m = Control.compress s m := rfl

theorem sipInit_eq : Xdp.sipInit = Control.sipInit := rfl

theorem sipFinish_eq (s : SipState) (b : UInt64) : Xdp.sipFinish s b = Control.sipFinish s b := by
  simp only [Xdp.sipFinish, Control.sipFinish, compress_eq, sipround_eq]

/-- `k` blocks of `data` from `off`. -/
def absorb (data : List UInt8) : Nat → Nat → SipState → SipState
  | 0, _, s => s
  | k + 1, off, s => absorb data k (off + 8) (Control.compress s (Control.messageWord data off))

theorem control_blockLoop_eq (data : List UInt8) (k n off : Nat) (s : SipState)
    (hkn : k ≤ n) (hk : off + 8 * k ≤ data.length) (hk' : data.length < off + 8 * k + 8) :
    Control.blockLoop data n off s = (off + 8 * k, absorb data k off s) := by
  induction k generalizing n off s with
  | zero =>
    cases n with
    | zero => rfl
    | succ n =>
      rw [Control.blockLoop, if_neg (by omega)]
      rfl
  | succ k ih =>
    obtain ⟨n, rfl⟩ : ∃ n', n = n' + 1 := ⟨n - 1, by omega⟩
    rw [Control.blockLoop, if_pos (by omega), ih n (off + 8) _ (by omega) (by omega) (by omega),
      absorb, show off + 8 + 8 * k = off + 8 * (k + 1) by omega]

theorem wordLoop_eq (data : List UInt8) (off n j : Nat) (m : UInt64)
    (h : off + j + n ≤ data.length) :
    Xdp.wordLoop data off n j m = .ok (Control.tailLoop data off n j m) := by
  induction n generalizing j m with
  | zero => rfl
  | succ n ih =>
    rw [Xdp.wordLoop, readAt_ok (by omega), ok_bind, ih (j + 1) _ (by omega)]
    rfl

theorem tailLoop_eight (data : List UInt8) (off : Nat) :
    Control.tailLoop data off 8 0 0 = Control.messageWord data off := by
  simp only [Control.tailLoop, Control.messageWord, UInt64.zero_or, Nat.add_zero, Nat.zero_add]

theorem xdp_blockLoop_eq (data : List UInt8) (k n blk : Nat) (s : SipState)
    (hkn : k ≤ n) (hk : blk * 8 + 8 * k ≤ data.length)
    (hk' : k < n → data.length < blk * 8 + 8 * k + 8) :
    Xdp.blockLoop data data.length n blk s = .ok (absorb data k (blk * 8) s) := by
  induction k generalizing n blk s with
  | zero =>
    cases n with
    | zero => rfl
    | succ n =>
      have := hk' (by omega)
      rw [Xdp.blockLoop, if_pos (by omega)]
      rfl
  | succ k ih =>
    obtain ⟨n, rfl⟩ : ∃ n', n = n' + 1 := ⟨n - 1, by omega⟩
    rw [Xdp.blockLoop, if_neg (by omega), wordLoop_eq data _ 8 0 0 (by omega), ok_bind, tailLoop_eight,
      ih n (blk + 1) _ (by omega) (by omega) (by omega), compress_eq, absorb, Nat.succ_mul]

theorem xdp_tailLoop_eq (data : List UInt8) (off n i : Nat) (b : UInt64)
    (h : data.length - off - i ≤ n) :
    Xdp.tailLoop data data.length off n i b =
      .ok (Control.tailLoop data off (data.length - off - i) i b) := by
  induction n generalizing i b with
  | zero =>
    rw [show data.length - off - i = 0 by omega]
    rfl
  | succ n ih =>
    rw [Xdp.tailLoop]
    by_cases hge : off + i ≥ data.length
    · rw [if_pos hge, show data.length - off - i = 0 by omega]
      rfl
    · obtain ⟨k, hk⟩ : ∃ k, data.length - off - i = k + 1 := ⟨data.length - off - i - 1, by omega⟩
      rw [if_neg hge, readAt_ok (by omega), ok_bind, ih (i + 1) _ (by omega),
        show data.length - off - (i + 1) = k by omega, hk, Control.tailLoop]
      rfl

/-- Up to 255 bytes the two SipHash loops agree: 31 blocks and 7 tail bytes are enough. -/
theorem siphash24Qname_eq (data : List UInt8) (h : data.length ≤ 255) :
    Xdp.siphash24Qname data data.length = .ok (Control.siphash24Bytes data) := by
  have hxdp := fun s => xdp_blockLoop_eq data (data.length / 8) 31 0 s (by omega) (by omega)
    (by omega)
  have hctl := control_blockLoop_eq data (data.length / 8) data.length 0 Control.sipInit (by omega)
    (by omega) (by omega)
  have htail := fun b => xdp_tailLoop_eq data (data.length / 8 * 8) 7 0 b (by omega)
  unfold Xdp.siphash24Qname Control.siphash24Bytes
  simp only [hxdp, hctl, htail, ok_bind, Nat.zero_mul, Nat.zero_add, Nat.sub_zero,
    Nat.mul_comm 8 (data.length / 8), sipInit_eq, sipFinish_eq]

/-! ## Normalization -/

theorem normalizeLoop_of_getLast (s : List UInt8) (n : Nat) (hn : s.length ≤ n)
    (hdot : s.getLast? ≠ some 46) : Control.normalizeLoop n s = lower s := by
  induction s generalizing n with
  | nil => cases n <;> rfl
  | cons c s ih =>
    rw [List.length_cons] at hn
    obtain ⟨n, rfl⟩ : ∃ n', n = n' + 1 := ⟨n - 1, by omega⟩
    have hlast : ¬ (c = 46 ∧ s = []) := by
      rintro ⟨rfl, rfl⟩
      exact hdot rfl
    rw [Control.normalizeLoop, if_neg hlast]
    by_cases hs : s = []
    · subst hs
      cases n <;> rfl
    · rw [ih n (by omega) (by rwa [List.getLast?_cons_of_ne_nil hs] at hdot)]
      rfl

theorem normalizeLoop_dot (s : List UInt8) (n : Nat) (hn : s.length ≤ n) :
    Control.normalizeLoop n (s ++ [46]) = lower s := by
  induction s generalizing n with
  | nil => cases n <;> rfl
  | cons c s ih =>
    rw [List.length_cons] at hn
    obtain ⟨n, rfl⟩ : ∃ n', n = n' + 1 := ⟨n - 1, by omega⟩
    rw [List.cons_append, Control.normalizeLoop, if_neg (by simp), ih n (by omega)]
    rfl

theorem getLast?_lower (s : List UInt8) : (lower s).getLast? = s.getLast?.map tolower :=
  List.getLast?_map ..

/-- A name up to letter case and one trailing dot normalizes to its lower case. -/
theorem normalizeDomain_eq (domain : CStr) (name : List UInt8) (hlen : name.length ≤ 255)
    (hdot : name.getLast? ≠ some 46)
    (hd : lower domain.bytes = lower name ∨ lower domain.bytes = lower name ++ [46]) :
    Control.normalizeDomain domain = lower name := by
  unfold Control.normalizeDomain
  have hlenLower := length_lower domain.bytes
  rcases hd with hd | hd
  · rw [hd, length_lower] at hlenLower
    rw [normalizeLoop_of_getLast _ _ (by unfold maxDomainLen; omega), hd]
    intro hlast
    have h1 := getLast?_lower domain.bytes
    rw [hd, getLast?_lower, hlast, Option.map_some, show tolower 46 = 46 from rfl] at h1
    obtain ⟨c, hc, hc'⟩ := Option.map_eq_some_iff.mp h1
    exact hdot (tolower_eq_dot.mp hc' ▸ hc)
  · rw [hd, List.length_append, length_lower, List.length_singleton] at hlenLower
    -- the last byte of the domain lowers to a dot, so it is one
    obtain ⟨t, u, htu⟩ : ∃ t u, domain.bytes = t ++ [u] := by
      refine ⟨domain.bytes.dropLast, domain.bytes.getLast ?_, (List.dropLast_append_getLast _).symm⟩
      intro hnil
      rw [hnil] at hlenLower
      simp at hlenLower
    rw [htu, lower_append] at hd
    obtain ⟨ht, hu⟩ := List.append_inj' hd rfl
    have hu46 : u = 46 := tolower_eq_dot.mp (List.cons.inj hu).1
    rw [htu, hu46, normalizeLoop_dot t _ ?_, ht]
    have := congrArg List.length ht
    rw [length_lower, length_lower] at this
    unfold maxDomainLen
    omega

/-! ## Agreement -/

/-- The hash that the data plane routes by, as the control plane's hash of the bytes. -/
def hashBytes (data : List UInt8) : HashAlgorithm → UInt64
  | .siphash => Control.siphash24Bytes data
  | .fnv1a => Control.fnv1a64Bytes data

/-- A parsed name is nonempty, within the limit, lower case, and hashed by FNV-1a. -/
theorem parsed_qname {pkt : List UInt8} {udp : Nat} {m : DnsQueryMeta}
    (h : parseDnsQuery pkt udp = .ok (some m)) :
    1 ≤ m.qname.length ∧ m.qname.length ≤ 255 ∧ lower m.qname = m.qname ∧
      m.qnameHash = Control.fnv1a64Bytes m.qname := by
  refine ⟨?_, Xdp.length_qname_le h, ?_⟩
  all_goals obtain ⟨ls, hls, rfl⟩ := (Xdp.parseDnsQuery_iff pkt udp m).mp h
  · obtain ⟨l, ls, rfl⟩ := List.exists_cons_of_length_pos (Nat.lt_of_lt_of_le Nat.zero_lt_one hls.count.1)
    have := (hls.labels l (by simp)).1
    simp only [Xdp.decode, length_lower, Xdp.length_dotted, List.map_cons, List.sum_cons]
    omega
  · exact ⟨lower_lower _, rfl⟩

theorem routeHash_eq {qmeta : DnsQueryMeta} (algo : HashAlgorithm)
    (hlen : qmeta.qname.length ≤ 255)
    (hfnv : qmeta.qnameHash = Control.fnv1a64Bytes qmeta.qname) :
    routeHash algo qmeta = .ok (hashBytes qmeta.qname algo) := by
  cases algo with
  | siphash => exact siphash24Qname_eq _ hlen
  | fnv1a => rw [routeHash, hfnv]; rfl

theorem hashDomain_eq (domain : CStr) (algo : HashAlgorithm)
    (h : (Control.normalizeDomain domain).length ≠ 0) :
    Control.hashDomain domain algo = hashBytes (Control.normalizeDomain domain) algo := by
  cases algo with
  | siphash => exact if_neg h
  | fnv1a => exact if_neg h

/-- **Both planes hash a name alike.** Whatever the algorithm, a query name without NUL and
    without a final dot that the parser accepts has, in the data plane, the hash that the
    control plane gives every domain string equal to it up to ASCII case and one trailing
    dot. -/
theorem routeHash_eq_hashDomain (algo : HashAlgorithm) (pkt : List UInt8) (udp : Nat)
    (qmeta : DnsQueryMeta) (hparse : parseDnsQuery pkt udp = .ok (some qmeta))
    (_hnul : (0 : UInt8) ∉ qmeta.qname) (hdot : qmeta.qname.getLast? ≠ some 46) (domain : CStr)
    (hd : lower domain.bytes = lower qmeta.qname ∨
      lower domain.bytes = lower qmeta.qname ++ [46]) :
    routeHash algo qmeta = .ok (Control.hashDomain domain algo) := by
  obtain ⟨hpos, hlen, hlow, hfnv⟩ := parsed_qname hparse
  have hnorm := normalizeDomain_eq domain qmeta.qname hlen hdot hd
  rw [hlow] at hnorm
  rw [routeHash_eq algo hlen hfnv, hashDomain_eq domain algo (by rw [hnorm]; omega), hnorm]

/-- The query for `A.bc` hashes like the configured name `a.BC.`. -/
theorem routeHash_sampleDatagram :
    routeHash .siphash (Xdp.decode Xdp.sampleDatagram 0 [[65], [98, 99]]) =
      .ok (Control.hashDomain (CStr.ofBytes [97, 46, 66, 67, 46]) .siphash) ∧
    routeHash .fnv1a (Xdp.decode Xdp.sampleDatagram 0 [[65], [98, 99]]) =
      .ok (Control.hashDomain (CStr.ofBytes [97, 46, 66, 67, 46]) .fnv1a) := by
  have hparse := Xdp.parseDnsQuery_of_isQuery Xdp.isQuery_sampleDatagram
  have hname : lower (CStr.ofBytes [97, 46, 66, 67, 46]).bytes =
      lower (Xdp.decode Xdp.sampleDatagram 0 [[65], [98, 99]]).qname ++ [46] := by decide
  exact ⟨routeHash_eq_hashDomain _ _ _ _ hparse (by decide) (by decide) _ (Or.inr hname),
    routeHash_eq_hashDomain _ _ _ _ hparse (by decide) (by decide) _ (Or.inr hname)⟩

end Zereh.Link
