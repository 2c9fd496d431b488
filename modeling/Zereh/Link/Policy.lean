/-
  The filter before routing decides the configured policy.

  The policy is stated on the text: `CidrText` is an IPv4 network as written, with host bits or
  without a length, `effectiveOpcodes` the list of the document. On the way to the data plane the
  networks become trie keys and the list a mask.

  * `samePrefix_iff`: the comparison of two quotients is that of the first bits.
  * `testBit_opcodeLoop`: a bit of the mask is set exactly when its opcode is listed.
  * `globalPreRoute_policy`: -1 exactly on what the policy forbids.
-/
import Zereh.Control.Provenance
import Zereh.Link.PreRoute

namespace Zereh.Link

open Lib CText Control Xdp

/-! ## Networks -/

/-- A network as text: a dotted quad, and a length up to 32 behind a slash or none for 32. -/
def CidrText (text : List UInt8) (addr : UInt32) (n : Nat) : Prop :=
  ∃ quad rest a b c d, text = quad ++ rest ∧ (47 : UInt8) ∉ quad ∧
    inetPton quad = some [a, b, c, d] ∧ addr = be32 a b c d ∧
    (rest = [] ∧ n = 32 ∨ ∃ digits, rest = 47 :: digits ∧ strtol digits = some ((n : Int), []) ∧ n ≤ 32)

theorem CidrText.le {text : List UInt8} {addr : UInt32} {n : Nat} (h : CidrText text addr n) :
    n ≤ 32 := by
  obtain ⟨-, -, -, -, -, -, -, -, -, -, ⟨-, rfl⟩ | ⟨-, -, -, hle⟩⟩ := h
  · exact Nat.le_refl _
  · exact hle

/-- The first `n` bits of two addresses agree, host bits aside. -/
def SameFirstBits (n : Nat) (a b : UInt32) : Prop :=
  ∀ i < n, a.toNat.testBit (31 - i) = b.toNat.testBit (31 - i)

theorem samePrefix_iff {n : Nat} (hn : n ≤ 32) (a b : UInt32) :
    a.toNat / 2 ^ (32 - n) = b.toNat / 2 ^ (32 - n) ↔ SameFirstBits n a b := by
  constructor
  · intro heq i hi
    have hbit := congrArg (Nat.testBit · (n - 1 - i)) heq
    simp only [Nat.testBit_div_two_pow] at hbit
    rwa [show n - 1 - i + (32 - n) = 31 - i by omega] at hbit
  · intro hsame
    refine Nat.eq_of_testBit_eq fun k => ?_
    rw [Nat.testBit_div_two_pow, Nat.testBit_div_two_pow]
    by_cases hk : k < n
    · have hbit := hsame (n - 1 - k) (by omega)
      rwa [show 31 - (n - 1 - k) = k + (32 - n) by omega] at hbit
    · have hlt : ∀ x : UInt32, x.toNat < 2 ^ (k + (32 - n)) := fun x =>
        Nat.lt_of_lt_of_le x.toNat_lt (Nat.pow_le_pow_right (by decide) (by omega))
      rw [Nat.testBit_lt_two_pow (hlt a), Nat.testBit_lt_two_pow (hlt b)]

/-- A text is cut at its first slash in one way. -/
theorem split_slash {quad rest : List UInt8} (hquad : (47 : UInt8) ∉ quad)
    (hrest : rest = [] ∨ ∃ digits, rest = 47 :: digits) :
    (quad ++ rest).takeWhile (· ≠ 47) = quad ∧ (quad ++ rest).dropWhile (· ≠ 47) = rest := by
  have hall : ∀ c ∈ quad, decide (c ≠ 47) = true := fun c hc =>
    decide_eq_true fun heq => hquad (heq ▸ hc)
  rw [List.takeWhile_append_of_pos hall, List.dropWhile_append_of_pos hall]
  rcases hrest with rfl | ⟨digits, rfl⟩
  · simp
  · simp

theorem exists_split_slash (text : List UInt8) :
    ∃ quad rest, text = quad ++ rest ∧ (47 : UInt8) ∉ quad ∧
      (rest = [] ∨ ∃ digits, rest = 47 :: digits) := by
  induction text with
  | nil => exact ⟨[], [], rfl, by simp, .inl rfl⟩
  | cons c text ih =>
    by_cases hc : c = 47
    · exact ⟨[], c :: text, rfl, by simp, .inr ⟨text, by rw [hc]⟩⟩
    · obtain ⟨quad, rest, rfl, hquad, hrest⟩ := ih
      exact ⟨c :: quad, rest, rfl, by simp [hquad, Ne.symm hc], hrest⟩

/-- The prefix length of the part behind the quad. -/
theorem cidrPrefix_iff {quad rest : List UInt8} (hquad : (47 : UInt8) ∉ quad)
    (hrest : rest = [] ∨ ∃ digits, rest = 47 :: digits) {n : Nat} :
    (∃ pfx, cidrPrefix (quad ++ rest) = some pfx ∧ pfx.getD 32 = n) ↔
      rest = [] ∧ n = 32 ∨
        ∃ digits, rest = 47 :: digits ∧ strtol digits = some ((n : Int), []) ∧ n ≤ 32 := by
  unfold cidrPrefix
  rw [(split_slash hquad hrest).2]
  rcases hrest with rfl | ⟨digits, rfl⟩
  · constructor
    · rintro ⟨pfx, hpfx, rfl⟩
      cases hpfx
      exact .inl ⟨rfl, rfl⟩
    · rintro (⟨-, rfl⟩ | ⟨digits, hnil, -⟩)
      · exact ⟨none, rfl, rfl⟩
      · cases hnil
  · constructor
    · rintro ⟨pfx, hpfx, rfl⟩
      refine .inr ⟨digits, rfl, ?_⟩
      dsimp only at hpfx
      split at hpfx
      · cases hpfx
      · rename_i value tail hstrtol
        split_ifs at hpfx with hbad
        cases hpfx
        simp only [not_or, not_not, Int.not_lt] at hbad
        obtain ⟨rfl, hneg, hbig⟩ := hbad
        rw [hstrtol, Option.getD_some]
        refine ⟨?_, by omega⟩
        rw [Int.toNat_of_nonneg hneg]
    · rintro (⟨hnil, -⟩ | ⟨digits', heq, hstrtol, hn⟩)
      · cases hnil
      · cases heq
        refine ⟨some n, ?_, rfl⟩
        dsimp only
        rw [hstrtol]
        have hok : ¬ (([] : List UInt8) ≠ [] ∨ (n : Int) < 0 ∨ (n : Int) > 32) := by
          rintro (hne | hneg | hbig)
          · exact hne rfl
          · omega
          · omega
        simp only [if_neg hok, Int.toNat_natCast]

/-- The loader reads a network as it is written, unless the text is too long for its buffer. -/
theorem parseCidrV4_iff {cidr : CStr} (hlen : cidr.len ≤ maxCidrLen - 1) (key : LpmV4Key) :
    parseCidrV4 cidr = some key ↔ CidrText cidr.bytes key.addr key.prefixlen.toNat := by
  have htmp : (cidr.clip (maxCidrLen - 1)).bytes = cidr.bytes := List.take_of_length_le hlen
  obtain ⟨quad, rest, htext, hquad, hrest⟩ := exists_split_slash cidr.bytes
  unfold parseCidrV4
  rw [htmp, htext]
  constructor
  · intro hparse
    dsimp only at hparse
    split at hparse
    · cases hparse
    · rename_i pfx hpfx
      rw [(split_slash hquad hrest).1] at hparse
      split at hparse
      · rename_i a b c d hpton
        cases hparse
        have hlength := (cidrPrefix_iff hquad hrest).mp ⟨pfx, hpfx, rfl⟩
        have hle : pfx.getD 32 ≤ 32 := by
          rcases hlength with ⟨-, h32⟩ | ⟨-, -, -, h32⟩ <;> omega
        have hsize : (UInt32.ofNat (pfx.getD 32)).toNat = pfx.getD 32 := by
          rw [UInt32.toNat_ofNat']
          omega
        exact ⟨quad, rest, a, b, c, d, rfl, hquad, hpton, rfl, by rwa [hsize]⟩
      · cases hparse
  · rintro ⟨quad', rest', a, b, c, d, heq, hquad', hpton, haddr, hlength⟩
    have hrest' : rest' = [] ∨ ∃ digits, rest' = 47 :: digits :=
      hlength.imp And.left (Exists.imp fun _ => And.left)
    have hsplit := split_slash hquad hrest
    have hsplit' := split_slash hquad' hrest'
    rw [← heq, hsplit.1, hsplit.2] at hsplit'
    obtain ⟨rfl, rfl⟩ := hsplit'
    obtain ⟨pfx, hpfx, hn⟩ := (cidrPrefix_iff hquad hrest).mpr hlength
    simp only [hpfx, hsplit.1, hpton, hn, UInt32.ofNat_toNat, ← haddr]

/-! ## Opcodes -/

/-- The number that a node holds. -/
def opcodeValue (node : YamlNode) : Option Nat :=
  match parseU32 node with
  | .ok v => some v.toNat
  | .error _ => none

def itemOpcode (doc : YamlDocument) (item : Nat) : Option Nat :=
  (doc.getNode item).bind opcodeValue

/-- The opcodes that a node lists: one number, or a sequence of them. -/
def listedOpcodes (doc : YamlDocument) : YamlNode → List Nat
  | .scalar value => (opcodeValue (.scalar value)).toList
  | .sequence items => items.filterMap (itemOpcode doc)
  | .mapping _ => []

/-- An empty list stands for the opcode 0. -/
def orZero : List Nat → List Nat
  | [] => [0]
  | listed => listed

/-- The list in force: the one at the root, else the one of `global_filters`. -/
def effectiveOpcodes (doc : YamlDocument) : List Nat :=
  let node := doc.getRootNode.bind fun root =>
    (mapGet doc root "allowed_opcodes").or (nestedGet doc root "global_filters" "allowed_opcodes")
  orZero (node.elim [] (listedOpcodes doc))

/-- The bit of an opcode. -/
theorem opcodeBit_ok {node : YamlNode} {bit : UInt16} (h : opcodeBit node = .ok bit) :
    ∃ v, v ≤ 15 ∧ opcodeValue node = some v ∧ ∀ k, bit.toNat.testBit k = true ↔ k = v := by
  obtain ⟨opcode, hopcode, h⟩ := bind_eq_ok h
  split_ifs at h with hbig
  · cases h
  · cases h
    have hle : opcode.toNat ≤ 15 := UInt32.le_iff_toNat_le.mp (UInt32.not_lt.mp hbig)
    refine ⟨opcode.toNat, hle, by rw [opcodeValue, hopcode], fun k => ?_⟩
    have hpow : ((1 : UInt32) <<< opcode).toUInt16.toNat = 2 ^ opcode.toNat := by
      have hall : ∀ i : Fin 16, ((1 : UInt32) <<< UInt32.ofNat i).toUInt16.toNat = 2 ^ i.val := by
        decide
      have hthis := hall ⟨opcode.toNat, Nat.lt_succ_of_le hle⟩
      rwa [UInt32.ofNat_toNat] at hthis
    rw [hpow, Nat.testBit_two_pow, decide_eq_true_eq, eq_comm]

theorem testBit_opcodeLoop {doc : YamlDocument} (items : List Nat) : ∀ {mask mask' : UInt16},
    opcodeLoop doc items mask = .ok mask' → ∀ k, mask'.toNat.testBit k = true ↔
      mask.toNat.testBit k = true ∨ k ∈ items.filterMap (itemOpcode doc) := by
  induction items with
  | nil =>
    intro mask mask' h k
    cases h
    simp
  | cons item items ih =>
    intro mask mask' h k
    unfold opcodeLoop at h
    split at h
    · cases h
    · rename_i entry hentry
      obtain ⟨bit, hbit, h⟩ := bind_eq_ok h
      obtain ⟨v, -, hv, hbits⟩ := opcodeBit_ok hbit
      have hfirst : itemOpcode doc item = some v := by
        rw [itemOpcode, hentry, Option.bind_some, hv]
      rw [ih h k, UInt16.toNat_or, Nat.testBit_or, Bool.or_eq_true, hbits k,
        List.filterMap_cons_some hfirst, List.mem_cons, or_assoc]

/-- A bit of the mask is set exactly when its opcode is listed, 0 in an empty list. -/
theorem testBit_parseAllowedOpcodes {doc : YamlDocument} {node : YamlNode} {mask : UInt16}
    (h : parseAllowedOpcodes doc node = .ok mask) (k : Nat) :
    mask.toNat.testBit k = true ↔ k ∈ orZero (listedOpcodes doc node) := by
  unfold parseAllowedOpcodes at h
  split at h
  · obtain ⟨v, -, hv, hbits⟩ := opcodeBit_ok h
    rw [listedOpcodes, hv, hbits k, Option.toList_some, orZero, List.mem_singleton]
    simp
  · rename_i items
    obtain ⟨m, hloop, h⟩ := bind_eq_ok h
    cases h
    have hbits := testBit_opcodeLoop items hloop
    simp only [UInt16.toNat_zero, Nat.zero_testBit, Bool.false_eq_true, false_or] at hbits
    rw [listedOpcodes]
    cases hlisted : items.filterMap (itemOpcode doc) with
    | nil =>
      have hzero : m = 0 := by
        refine UInt16.toNat_inj.mp (Nat.eq_of_testBit_eq fun j => ?_)
        have hj := hbits j
        rw [hlisted] at hj
        rw [UInt16.toNat_zero, Nat.zero_testBit]
        exact Bool.eq_false_iff.mpr fun hset => absurd (hj.mp hset) (by simp)
      rw [if_pos hzero, orZero, List.mem_singleton]
      exact Nat.testBit_one_eq_true_iff_self_eq_zero
    | cons v listed =>
      have hne : m ≠ 0 := by
        rintro rfl
        have hv := (hbits v).mpr (by rw [hlisted]; exact .head _)
        rw [UInt16.toNat_zero, Nat.zero_testBit] at hv
        cases hv
      rw [if_neg hne, hbits k, hlisted]
      rfl
  · cases h

/-- The mask of an accepted document is its list in force. -/
theorem testBit_allowedOpcodeMask {doc : YamlDocument} {cfg : Config}
    (h : parseConfigYaml doc = .ok cfg) (k : Nat) :
    cfg.allowedOpcodeMask.toNat.testBit k = true ↔ k ∈ effectiveOpcodes doc := by
  obtain ⟨root, hroot, htrace⟩ := trace_of_parse h
  obtain ⟨nested, hnested, hflat⟩ := htrace.opcodes
  unfold effectiveOpcodes
  rw [hroot, Option.bind_some]
  cases hv : mapGet doc root "allowed_opcodes" with
  | some node =>
    rw [hv] at hflat
    exact testBit_parseAllowedOpcodes hflat k
  | none =>
    rw [hv] at hflat
    obtain rfl : cfg.allowedOpcodeMask = nested := hflat
    rw [Option.none_or]
    cases hw : nestedGet doc root "global_filters" "allowed_opcodes" with
    | some node =>
      rw [hw] at hnested
      exact testBit_parseAllowedOpcodes hnested k
    | none =>
      rw [hw] at hnested
      have hdefault : cfg.allowedOpcodeMask = 1 := hnested
      rw [hdefault]
      exact Nat.testBit_one_eq_true_iff_self_eq_zero.trans List.mem_singleton.symm

/-- An accepted blacklist holds no text longer than its buffer. -/
theorem blacklist_len {doc : YamlDocument} {cfg : Config} (h : parseConfigYaml doc = .ok cfg) :
    ∀ cidr ∈ cfg.blacklist, cidr.len ≤ maxCidrLen - 1 := by
  have hclip : ∀ {node : YamlNode} {list : List CStr}, parseBlacklist doc node = .ok list →
      ∀ cidr ∈ list, cidr.len ≤ maxCidrLen - 1 := by
    intro node list hlist cidr hcidr
    obtain ⟨items, -, rfl⟩ := parseBlacklist_eq hlist
    obtain ⟨text, -, rfl⟩ := List.mem_map.mp hcidr
    exact CStr.len_clip_le _ _
  obtain ⟨root, hroot, htrace⟩ := trace_of_parse h
  obtain ⟨nested, hnested, hflat⟩ := htrace.blacklist
  unfold Control.Reads at hnested hflat
  split at hflat
  · obtain rfl : cfg.blacklist = nested := hflat
    split at hnested
    · rw [hnested]
      simp
    · exact hclip hnested
  · exact hclip hflat

/-! ## The filter -/

/-- What the configuration forbids before any route is looked at. -/
def Forbidden (doc : YamlDocument) (cfg : Config) (saddr : UInt32) (qmeta : DnsQueryMeta)
    (packetLen : UInt32) : Prop :=
  packetLen > cfg.maxPacketSize ∨
  (∃ cidr ∈ cfg.blacklist, ∃ addr n, CidrText cidr.bytes addr n ∧ SameFirstBits n addr saddr) ∨
  qmeta.opcode.toNat ∉ effectiveOpcodes doc ∨
  cfg.dropTruncated = true ∧ qmeta.isTruncated = true

/-- Masking with a shifted one tests a bit. -/
theorem and_shift_eq_zero_iff (x : UInt32) {n : Nat} (hn : n < 32) :
    x &&& (1 : UInt32) <<< UInt32.ofNat n = 0 ↔ x.toNat.testBit n = false := by
  have hmod : (UInt32.ofNat n).toNat % 32 = n := by
    rw [UInt32.toNat_ofNat']
    omega
  have hpow : 2 ^ n % 2 ^ 32 = 2 ^ n := Nat.mod_eq_of_lt (Nat.pow_lt_pow_right (by decide) hn)
  rw [← UInt32.toNat_inj, UInt32.toNat_and, UInt32.toNat_shiftLeft, hmod, UInt32.toNat_one,
    Nat.shiftLeft_eq, Nat.one_mul, hpow, UInt32.toNat_zero, Nat.and_two_pow]
  cases x.toNat.testBit n <;> simp

/-- The filter on its own terms: four reasons to drop. -/
theorem globalPreRoute_eq {macros : Macros} {maps : Maps} {pkt : List UInt8} {iph : Nat}
    (hin : iph + 20 ≤ pkt.length) (hmask : macros.allowedOpcodeMask.toNat < 2 ^ 16)
    (qmeta : DnsQueryMeta) (packetLen : UInt32) :
    globalPreRoute macros maps pkt iph qmeta packetLen =
      .ok (if packetLen > macros.maxPacketSize ∨
          lpmLookup maps.ipBlacklist (saddrAt pkt iph) = true ∨
          macros.allowedOpcodeMask.toNat.testBit qmeta.opcode.toNat = false ∨
          macros.dropTruncated = true ∧ qmeta.isTruncated = true then -1 else 0) := by
  unfold globalPreRoute
  rw [readSaddr_ok hin, ok_bind]
  by_cases hlong : packetLen > macros.maxPacketSize
  · rw [if_pos hlong, if_pos (.inl hlong)]
  by_cases hblack : lpmLookup maps.ipBlacklist (saddrAt pkt iph) = true
  · rw [if_neg hlong, if_pos hblack, if_pos (.inr (.inl hblack))]
  rw [if_neg hlong, if_neg hblack]
  by_cases hop : qmeta.opcode > 15
  · have hbit : macros.allowedOpcodeMask.toNat.testBit qmeta.opcode.toNat = false :=
      Nat.testBit_lt_two_pow (Nat.lt_of_lt_of_le hmask
        (Nat.pow_le_pow_right (by decide) (UInt8.lt_iff_toNat_lt.mp hop)))
    rw [if_pos hop, if_pos (.inr (.inr (.inl hbit)))]
  · have hle : qmeta.opcode.toNat ≤ 15 := UInt8.le_iff_toNat_le.mp (UInt8.not_lt.mp hop)
    rw [if_neg hop, shlAt_ok _ (by omega), ok_bind]
    simp only [and_shift_eq_zero_iff _ (show qmeta.opcode.toNat < 32 by omega)]
    by_cases hbit : macros.allowedOpcodeMask.toNat.testBit qmeta.opcode.toNat = false
    · rw [if_pos hbit, if_pos (.inr (.inr (.inl hbit)))]
    · by_cases htrunc : macros.dropTruncated = true ∧ qmeta.isTruncated = true
      · rw [if_neg hbit, if_pos htrunc, if_pos (.inr (.inr (.inr htrunc)))]
      · rw [if_neg hbit, if_neg htrunc, if_neg]
        rintro (h | h | h | h)
        · exact hlong h
        · exact hblack h
        · exact hbit h
        · exact htrunc h

theorem blacklistKeys_ok {cidrs : List CStr} (h : ∀ cidr ∈ cidrs, (parseCidrV4 cidr).isSome) :
    ∃ keys, blacklistKeys cidrs = .ok keys := by
  induction cidrs with
  | nil => exact ⟨[], rfl⟩
  | cons cidr cidrs ih =>
    obtain ⟨key, hkey⟩ := Option.isSome_iff_exists.mp (h cidr (.head _))
    obtain ⟨keys, hkeys⟩ := ih fun c hc => h c (.tail _ hc)
    exact ⟨key :: keys, by rw [blacklistKeys, hkey, hkeys]; rfl⟩

/-- The configured networks, as text. -/
theorem blacklisted_iff {doc : YamlDocument} {cfg : Config} (h : parseConfigYaml doc = .ok cfg)
    (saddr : UInt32) : Blacklisted cfg saddr ↔
      ∃ cidr ∈ cfg.blacklist, ∃ addr n, CidrText cidr.bytes addr n ∧ SameFirstBits n addr saddr := by
  have hlen := blacklist_len h
  constructor
  · rintro ⟨cidr, hcidr, key, hkey, hsame⟩
    have htext := (parseCidrV4_iff (hlen cidr hcidr) key).mp hkey
    exact ⟨cidr, hcidr, key.addr, _, htext, (samePrefix_iff htext.le _ _).mp hsame⟩
  · rintro ⟨cidr, hcidr, addr, n, htext, hsame⟩
    have hn : (UInt32.ofNat n).toNat = n := by
      have := htext.le
      rw [UInt32.toNat_ofNat']
      omega
    refine ⟨cidr, hcidr, ⟨UInt32.ofNat n, addr⟩, ?_, ?_⟩
    · rw [parseCidrV4_iff (hlen cidr hcidr), hn]
      exact htext
    · rw [hn]
      exact (samePrefix_iff htext.le _ _).mpr hsame

/-- **The filter decides the configured policy.** For every accepted document whose networks the
    loader can read, the load succeeds, and with the trie it leaves the filter returns -1 on exactly
    what is forbidden and 0 on the rest. -/
theorem globalPreRoute_policy (doc : YamlDocument) (cfg : Config)
    (hparse : parseConfigYaml doc = .ok cfg)
    (hcidrs : ∀ cidr ∈ cfg.blacklist, (parseCidrV4 cidr).isSome) :
    ∃ loaded, seedBlacklistMap cfg .created = .ok loaded ∧
      ∀ (maps : Maps), maps.ipBlacklist = loaded.ipBlacklist →
      ∀ (pkt : List UInt8) (iph : Nat), iph + 20 ≤ pkt.length →
      ∀ (qmeta : DnsQueryMeta) (packetLen : UInt32),
        (globalPreRoute (macros cfg) maps pkt iph qmeta packetLen = .ok (-1) ↔
          Forbidden doc cfg (saddrAt pkt iph) qmeta packetLen) ∧
        (globalPreRoute (macros cfg) maps pkt iph qmeta packetLen = .ok 0 ↔
          ¬ Forbidden doc cfg (saddrAt pkt iph) qmeta packetLen) := by
  obtain ⟨keys, hkeys⟩ := blacklistKeys_ok hcidrs
  have hseed : seedBlacklistMap cfg .created =
      .ok { Maps.created with ipBlacklist := Maps.created.ipBlacklist ++ keys } := by
    rw [seedBlacklistMap, hkeys]
    rfl
  refine ⟨_, hseed, fun maps htrie pkt iph hin qmeta packetLen => ?_⟩
  have hmask : (macros cfg).allowedOpcodeMask.toNat = cfg.allowedOpcodeMask.toNat :=
    UInt16.toNat_toUInt32 _
  have hbit := testBit_allowedOpcodeMask hparse qmeta.opcode.toNat
  have hforbidden : (packetLen > (macros cfg).maxPacketSize ∨
      lpmLookup maps.ipBlacklist (saddrAt pkt iph) = true ∨
      (macros cfg).allowedOpcodeMask.toNat.testBit qmeta.opcode.toNat = false ∨
      (macros cfg).dropTruncated = true ∧ qmeta.isTruncated = true) ↔
        Forbidden doc cfg (saddrAt pkt iph) qmeta packetLen := by
    rw [htrie, lpmLookup_seeded hseed, blacklisted_iff hparse, hmask, ← Bool.not_eq_true, hbit]
    rfl
  have hverdict : (-1 : Int) ≠ 0 := by decide
  rw [globalPreRoute_eq hin (by rw [hmask]; exact UInt16.toNat_lt _), Except.ok.injEq,
    Except.ok.injEq]
  by_cases hdrop : Forbidden doc cfg (saddrAt pkt iph) qmeta packetLen
  · rw [if_pos (hforbidden.mpr hdrop)]
    exact ⟨iff_of_true rfl hdrop, iff_of_false hverdict (not_not.mpr hdrop)⟩
  · rw [if_neg (mt hforbidden.mp hdrop)]
    exact ⟨iff_of_false hverdict.symm hdrop, iff_of_true rfl hdrop⟩

/-- A query from a configured network. -/
theorem globalPreRoute_policy_sample :
    ∃ loaded, seedBlacklistMap blacklistConfig .created = .ok loaded ∧
      globalPreRoute (macros blacklistConfig) loaded (sampleFrame [192, 0, 2, 1] sampleQuestion) 14
        sampleQuery 60 = .ok (-1) := by
  have hcidrs : ∀ cidr ∈ blacklistConfig.blacklist, (parseCidrV4 cidr).isSome := by
    intro cidr hcidr
    rw [List.mem_singleton.mp hcidr, parseCidrV4_sample]
    rfl
  obtain ⟨loaded, hseed, hpolicy⟩ :=
    globalPreRoute_policy blacklistDocument blacklistConfig parse_blacklistDocument hcidrs
  have hsaddr : saddrAt (sampleFrame [192, 0, 2, 1] sampleQuestion) 14 = be32 192 0 2 1 := rfl
  have hblack : Blacklisted blacklistConfig (be32 192 0 2 1) :=
    ⟨_, List.mem_singleton_self _, _, parseCidrV4_sample, by decide +kernel⟩
  refine ⟨loaded, hseed, (hpolicy loaded rfl _ 14 (by decide) sampleQuery 60).1.mpr ?_⟩
  rw [hsaddr]
  exact .inr (.inl ((blacklisted_iff parse_blacklistDocument _).mp hblack))

end Zereh.Link
