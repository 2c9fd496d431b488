/-
  What `zereh_parse_dns_query` accepts.

  `wire ls` is the wire form of a name with labels `ls`, `dotted ls` its text. `IsQuery pkt udp
  ls` says that the datagram at `udp` is a query whose first question is the name `ls`, and
  `decode pkt udp ls` is the `dns_query_meta` that such a query denotes.

  * `byteLoop_eq`, `separator_eq`, `labelLoop_succ`: the loops without their bounds checks.
  * `labelLoop_iff`: the label loop ends exactly on the wire form of a name of fewer labels
    than its iterations, and appends that name.
  * `parseDnsQuery_total`, `parseDnsQuery_iff`: the parser returns on every frame, and returns
    a query exactly on the grammar.
  * `wire_inj`: the wire form is prefix-free, so a frame holds at most one name at an offset.
-/
import Zereh.Xdp.DnsParser

namespace Zereh.Xdp

open Lib

/-! ## The name on the wire and as text -/

/-- Length byte and bytes of each label, then the zero byte. -/
def wire : List (List UInt8) → List UInt8
  | [] => [0]
  | l :: ls => UInt8.ofNat l.length :: (l ++ wire ls)

/-- The labels joined by dots. -/
def dotted (ls : List (List UInt8)) : List UInt8 := List.intercalate [46] ls

def IsLabel (l : List UInt8) : Prop := 1 ≤ l.length ∧ l.length ≤ 63

theorem dotted_cons (l : List UInt8) (ls : List (List UInt8)) :
    dotted (l :: ls) = l ++ ls.flatMap (fun l => 46 :: l) := by
  induction ls generalizing l with
  | nil => simp [dotted]
  | cons k ls ih =>
    have := ih k
    simp only [dotted, List.intercalate_cons_cons, List.flatMap_cons] at this ⊢
    rw [this]
    simp

/-- The length of the text: the labels and a dot between each two. -/
theorem length_dotted (ls : List (List UInt8)) :
    (dotted ls).length = (ls.map List.length).sum + (ls.length - 1) := by
  cases ls with
  | nil => rfl
  | cons l ls =>
    rw [dotted_cons, List.length_append, List.length_flatMap]
    simp only [List.length_cons, List.map_cons, List.sum_cons, Nat.add_sub_cancel]
    have : ∀ ks : List (List UInt8),
        (ks.map fun k => k.length + 1).sum = (ks.map List.length).sum + ks.length := by
      intro ks
      induction ks with
      | nil => rfl
      | cons k ks ih => simp only [List.map_cons, List.sum_cons, List.length_cons, ih]; omega
    rw [this]
    omega

theorem length_wire_pos (ls : List (List UInt8)) : 1 ≤ (wire ls).length := by
  cases ls <;> simp [wire]

theorem toNat_labelLen {l : List UInt8} (h : IsLabel l) :
    (UInt8.ofNat l.length).toNat = l.length := by
  have := h.2
  simp only [UInt8.toNat_ofNat']
  omega

/-- The wire form is prefix-free. -/
theorem wire_inj : ∀ {ls ks : List (List UInt8)} {x y : List UInt8},
    (∀ l ∈ ls, IsLabel l) → (∀ l ∈ ks, IsLabel l) → wire ls ++ x = wire ks ++ y → ls = ks
  | [], [], _, _, _, _, _ => rfl
  | [], k :: ks, _, _, _, hk, h => by
      have hk := hk k (by simp)
      have h0 := congrArg UInt8.toNat (List.cons.inj h).1
      rw [toNat_labelLen hk, UInt8.toNat_zero] at h0
      have := hk.1
      omega
  | l :: ls, [], _, _, hl, _, h => by
      have hl := hl l (by simp)
      have h0 := congrArg UInt8.toNat (List.cons.inj h).1
      rw [toNat_labelLen hl, UInt8.toNat_zero] at h0
      have := hl.1
      omega
  | l :: ls, k :: ks, x, y, hl, hk, h => by
      obtain ⟨hlen, hrest⟩ := List.cons.inj h
      have hlen := congrArg UInt8.toNat hlen
      rw [toNat_labelLen (hl l (by simp)), toNat_labelLen (hk k (by simp))] at hlen
      rw [List.append_eq, List.append_eq, List.append_assoc, List.append_assoc] at hrest
      obtain ⟨hlk, htail⟩ := List.append_inj hrest hlen
      have := wire_inj (fun a ha => hl a (by simp [ha])) (fun a ha => hk a (by simp [ha])) htail
      rw [hlk, this]

/-! ## The loops without their bounds checks -/

theorem asciiTolower_eq (c : UInt8) : asciiTolower c = tolower c := by
  unfold asciiTolower tolower
  grind

/-- Append bytes to the name, hashing each. -/
def DnsQueryMeta.extend (m : DnsQueryMeta) (bs : List UInt8) : DnsQueryMeta :=
  { m with qname := m.qname ++ bs, qnameHash := bs.foldl fnv1a64Step m.qnameHash }

theorem extend_nil (m : DnsQueryMeta) : m.extend [] = m := by simp [DnsQueryMeta.extend]

theorem extend_extend (m : DnsQueryMeta) (a b : List UInt8) :
    (m.extend a).extend b = m.extend (a ++ b) := by simp [DnsQueryMeta.extend]

theorem qnameLen_extend (m : DnsQueryMeta) (a : List UInt8) :
    (m.extend a).qnameLen = m.qnameLen + a.length := by
  simp [DnsQueryMeta.extend, DnsQueryMeta.qnameLen]

theorem push_ok {m : DnsQueryMeta} (c : UInt8) (h : m.qnameLen ≤ 255) :
    m.push c = .ok (m.extend [c]) := by
  unfold DnsQueryMeta.push
  rw [if_pos (by unfold dnsMaxQname; omega)]
  rfl

theorem byteLoop_eq (pkt : List UInt8) (cursor lblLen n j : Nat) (m : DnsQueryMeta)
    (hp : cursor + lblLen ≤ pkt.length) (hn : lblLen ≤ j + n) (hj : j ≤ lblLen)
    (hq : m.qnameLen ≤ 255) :
    byteLoop pkt cursor lblLen n j m =
      .ok (if m.qnameLen + (lblLen - j) ≤ 255 then
        some (m.extend (lower (slice pkt (cursor + j) (lblLen - j)))) else none) := by
  induction n generalizing j m with
  | zero =>
    have hjl : lblLen - j = 0 := by omega
    simp [byteLoop, hjl, slice_zero, lower, extend_nil, hq]
  | succ n ih =>
    simp only [byteLoop]
    by_cases hge : j ≥ lblLen
    · have hjl : lblLen - j = 0 := by omega
      rw [if_pos hge]
      simp [hjl, slice_zero, lower, extend_nil, hq]
    · rw [if_neg hge, readAt_ok (by omega), ok_bind]
      obtain ⟨k, hk⟩ : ∃ k, lblLen - j = k + 1 := ⟨lblLen - j - 1, by omega⟩
      by_cases hfull : m.qnameLen ≥ dnsMaxQname
      · rw [if_pos hfull, if_neg (by unfold dnsMaxQname at hfull; omega)]
      · unfold dnsMaxQname at hfull
        rw [if_neg (by unfold dnsMaxQname; exact hfull), push_ok _ hq, ok_bind,
          ih (j + 1) _ (by omega) (by omega)
            (by rw [qnameLen_extend]; simp only [List.length_singleton]; omega),
          qnameLen_extend, extend_extend, asciiTolower_eq]
        have hk' : lblLen - (j + 1) = k := by omega
        rw [hk, hk', slice_succ (by omega), List.length_singleton]
        simp only [lower, List.map_cons, List.singleton_append, Nat.add_assoc, Nat.add_comm 1]

theorem separator_eq (m : DnsQueryMeta) (hq : m.qnameLen ≤ 255) :
    separator m = .ok (if m.labelDepth = 0 then some m
      else if m.qnameLen + 1 ≤ 255 then some (m.extend [46]) else none) := by
  unfold separator
  by_cases h0 : m.labelDepth = 0
  · have : ¬ m.labelDepth > 0 := by rw [h0]; decide
    rw [if_neg this, if_pos h0]
  · have : m.labelDepth > 0 := UInt8.pos_iff_ne_zero.mpr h0
    rw [if_pos this, if_neg h0, push_ok _ hq, ok_bind]
    unfold dnsMaxQname
    by_cases hfull : m.qnameLen ≥ 255
    · rw [if_pos hfull, if_neg (by omega)]
    · rw [if_neg hfull, if_pos (by omega)]

/-- The dot before a label that is not the first. -/
def DnsQueryMeta.sep (m : DnsQueryMeta) : List UInt8 := if m.labelDepth = 0 then [] else [46]

/-- One more label. -/
def addLabel (m : DnsQueryMeta) (l : List UInt8) : DnsQueryMeta :=
  { m.extend (m.sep ++ lower l) with labelDepth := m.labelDepth + 1 }

theorem qnameLen_addLabel (m : DnsQueryMeta) (l : List UInt8) :
    (addLabel m l).qnameLen = m.qnameLen + m.sep.length + l.length := by
  simp [addLabel, DnsQueryMeta.qnameLen, DnsQueryMeta.extend, length_lower, Nat.add_assoc]

theorem appendLabel_eq (pkt : List UInt8) (cursor lblLen : Nat) (m : DnsQueryMeta)
    (hp : cursor + lblLen ≤ pkt.length) (h1 : 1 ≤ lblLen) (h63 : lblLen ≤ 63)
    (hq : m.qnameLen ≤ 255) :
    appendLabel pkt cursor lblLen m =
      .ok (if m.qnameLen + m.sep.length + lblLen ≤ 255 then
        some (addLabel m (slice pkt cursor lblLen)) else none) := by
  have hbytes : ∀ m' : DnsQueryMeta, m'.qnameLen ≤ 255 →
      byteLoop pkt cursor lblLen dnsMaxLabelLen 0 m' =
        .ok (if m'.qnameLen + lblLen ≤ 255 then
          some (m'.extend (lower (slice pkt cursor lblLen))) else none) := by
    intro m' hm'
    have := byteLoop_eq pkt cursor lblLen dnsMaxLabelLen 0 m' hp
      (by unfold dnsMaxLabelLen; omega) (by omega) hm'
    simpa only [Nat.sub_zero, Nat.add_zero] using this
  unfold appendLabel
  rw [separator_eq m hq, ok_bind]
  unfold addLabel DnsQueryMeta.sep
  by_cases h0 : m.labelDepth = 0
  · simp only [h0, if_true, hbytes m hq, ok_bind, List.length_nil, Nat.add_zero, List.nil_append]
    split_ifs
    · simp only [DnsQueryMeta.extend, h0]
    · rfl
  · simp only [h0, if_false, List.length_singleton, List.singleton_append]
    by_cases hfull : m.qnameLen + 1 ≤ 255
    · have hlen : (m.extend [46]).qnameLen = m.qnameLen + 1 := qnameLen_extend m [46]
      simp only [hfull, if_true, hbytes _ (hlen ▸ hfull), ok_bind, hlen, extend_extend,
        List.singleton_append]
      split_ifs <;> rfl
    · rw [if_neg hfull, if_neg (by omega)]

theorem badLength_iff (b : UInt8) : (b &&& 0xc0 ≠ 0 ∨ b.toNat > dnsMaxLabelLen) ↔ b.toNat > 63 :=
  forall_byte (p := fun b => (b &&& 0xc0 ≠ 0 ∨ b.toNat > dnsMaxLabelLen) ↔ b.toNat > 63)
    (by decide +kernel) b

/-- One iteration of the label loop inside the frame. -/
theorem labelLoop_succ (pkt : List UInt8) (dnsEnd n cursor : Nat) (m : DnsQueryMeta)
    (he : dnsEnd ≤ pkt.length) (hq : m.qnameLen ≤ 255) :
    labelLoop pkt dnsEnd (n + 1) cursor m =
      if cursor + 1 > dnsEnd then .ok none
      else if byteAt pkt cursor = 0 then .ok (some (true, cursor + 1, m))
      else if (byteAt pkt cursor).toNat > 63 then .ok none
      else if cursor + 1 + (byteAt pkt cursor).toNat > dnsEnd then .ok none
      else if m.qnameLen + m.sep.length + (byteAt pkt cursor).toNat ≤ 255 then
        labelLoop pkt dnsEnd n (cursor + 1 + (byteAt pkt cursor).toNat)
          (addLabel m (slice pkt (cursor + 1) (byteAt pkt cursor).toNat))
      else .ok none := by
  rw [labelLoop]
  by_cases h1 : cursor + 1 > dnsEnd
  · rw [if_pos h1, if_pos h1]
  rw [if_neg h1, if_neg h1, readAt_ok (by omega), ok_bind]
  by_cases h2 : byteAt pkt cursor = 0
  · rw [if_pos h2, if_pos h2]
  rw [if_neg h2, if_neg h2]
  by_cases h3 : (byteAt pkt cursor).toNat > 63
  · rw [if_pos ((badLength_iff _).mpr h3), if_pos h3]
  rw [if_neg (mt (badLength_iff _).mp h3), if_neg h3]
  by_cases h4 : cursor + 1 + (byteAt pkt cursor).toNat > dnsEnd
  · rw [if_pos h4, if_pos h4]
  have hpos : (byteAt pkt cursor).toNat ≠ 0 := fun h => h2 (UInt8.toNat_inj.mp h)
  rw [if_neg h4, if_neg h4, appendLabel_eq pkt _ _ m (by omega) (by omega) (by omega) hq, ok_bind]
  split_ifs <;> rfl

/-! ## The label loop decodes a name -/

/-- The wire form of `ls` stands at `cursor` and ends by `dnsEnd`. -/
def NameAt (pkt : List UInt8) (dnsEnd cursor : Nat) (ls : List (List UInt8)) : Prop :=
  cursor + (wire ls).length ≤ dnsEnd ∧ slice pkt cursor (wire ls).length = wire ls

theorem nameAt_nil {pkt : List UInt8} {dnsEnd cursor : Nat} (he : dnsEnd ≤ pkt.length) :
    NameAt pkt dnsEnd cursor [] ↔ cursor + 1 ≤ dnsEnd ∧ byteAt pkt cursor = 0 := by
  unfold NameAt wire
  refine and_congr_right fun h => ?_
  rw [List.length_singleton] at h ⊢
  rw [slice_succ (n := 0) (by omega), slice_zero, List.cons.injEq]
  exact and_iff_left rfl

theorem nameAt_cons {pkt : List UInt8} {dnsEnd cursor : Nat} (he : dnsEnd ≤ pkt.length)
    (l : List UInt8) (ls : List (List UInt8)) :
    NameAt pkt dnsEnd cursor (l :: ls) ↔
      cursor + 1 ≤ dnsEnd ∧ byteAt pkt cursor = UInt8.ofNat l.length ∧
        slice pkt (cursor + 1) l.length = l ∧
        NameAt pkt dnsEnd (cursor + 1 + l.length) ls := by
  have hlen : (wire (l :: ls)).length = l.length + (wire ls).length + 1 := by
    simp [wire, Nat.add_comm]
  unfold NameAt
  rw [hlen]
  constructor
  · rintro ⟨hb, hs⟩
    rw [slice_succ (by omega), slice_add, wire] at hs
    obtain ⟨h1, h2⟩ := List.cons.inj hs
    obtain ⟨h3, h4⟩ := List.append_inj h2 (length_slice (by omega))
    exact ⟨by omega, h1, h3, by omega, h4⟩
  · rintro ⟨hb, h1, h3, h4, h5⟩
    refine ⟨by omega, ?_⟩
    rw [slice_succ (by omega), slice_add, wire, h1, h3, h5]

/-- All labels of a name, in order. -/
def addLabels (m : DnsQueryMeta) (ls : List (List UInt8)) : DnsQueryMeta := ls.foldl addLabel m

theorem addLabels_cons (m : DnsQueryMeta) (l : List UInt8) (ls : List (List UInt8)) :
    addLabels m (l :: ls) = addLabels (addLabel m l) ls := rfl

theorem qnameLen_le_addLabels (m : DnsQueryMeta) (ls : List (List UInt8)) :
    m.qnameLen ≤ (addLabels m ls).qnameLen := by
  induction ls generalizing m with
  | nil => exact Nat.le_refl _
  | cons l ls ih =>
    have h := ih (addLabel m l)
    rw [qnameLen_addLabel] at h
    rw [addLabels_cons]
    omega

/-- What the loop accepts: fewer labels than iterations, each a label, the name in place and
    its text within the limit. -/
def LoopAccepts (pkt : List UInt8) (dnsEnd n cursor : Nat) (m : DnsQueryMeta)
    (ls : List (List UInt8)) : Prop :=
  ls.length < n ∧ (∀ l ∈ ls, IsLabel l) ∧ NameAt pkt dnsEnd cursor ls ∧
    (addLabels m ls).qnameLen ≤ 255

theorem loopAccepts_nil {pkt : List UInt8} {dnsEnd n cursor : Nat} {m : DnsQueryMeta}
    (he : dnsEnd ≤ pkt.length) (hq : m.qnameLen ≤ 255) :
    LoopAccepts pkt dnsEnd (n + 1) cursor m [] ↔ cursor + 1 ≤ dnsEnd ∧ byteAt pkt cursor = 0 := by
  unfold LoopAccepts
  rw [nameAt_nil he]
  simp [addLabels, hq]

theorem loopAccepts_cons {pkt : List UInt8} {dnsEnd n cursor : Nat} {m : DnsQueryMeta}
    (he : dnsEnd ≤ pkt.length) (l : List UInt8) (ls : List (List UInt8)) :
    LoopAccepts pkt dnsEnd (n + 1) cursor m (l :: ls) ↔
      cursor + 1 ≤ dnsEnd ∧ byteAt pkt cursor ≠ 0 ∧ (byteAt pkt cursor).toNat ≤ 63 ∧
        l = slice pkt (cursor + 1) (byteAt pkt cursor).toNat ∧
        cursor + 1 + (byteAt pkt cursor).toNat ≤ dnsEnd ∧
        LoopAccepts pkt dnsEnd n (cursor + 1 + (byteAt pkt cursor).toNat) (addLabel m l) ls := by
  unfold LoopAccepts
  rw [nameAt_cons he, List.forall_mem_cons, addLabels_cons, List.length_cons, Nat.add_lt_add_iff_right]
  constructor
  · rintro ⟨hn, ⟨hl, hls⟩, ⟨hc, hb, hsl, hname⟩, hq⟩
    have hbl : (byteAt pkt cursor).toNat = l.length := by rw [hb, toNat_labelLen hl]
    have hend := hname.1
    have hpos := length_wire_pos ls
    refine ⟨hc, ?_, by rw [hbl]; exact hl.2, by rw [hbl, hsl], by rw [hbl]; omega, hn, hls,
      by rw [hbl]; exact hname, hq⟩
    intro h0
    rw [h0, UInt8.toNat_zero] at hbl
    have := hl.1
    omega
  · rintro ⟨hc, hb0, h63, hsl, hend, hn, hls, hname, hq⟩
    have hbl : (byteAt pkt cursor).toNat = l.length := by
      rw [hsl, length_slice (by omega)]
    have hpos : (byteAt pkt cursor).toNat ≠ 0 := fun h => hb0 (UInt8.toNat_inj.mp h)
    refine ⟨hn, ⟨⟨by omega, by omega⟩, hls⟩, ⟨hc, ?_, by rw [← hbl, ← hsl],
      by rw [← hbl]; exact hname⟩, hq⟩
    rw [← hbl, UInt8.ofNat_toNat]

/-- At a length byte other than zero the name goes on with the label that follows it. -/
theorem loopAccepts_of_ne_zero {pkt : List UInt8} {dnsEnd n cursor : Nat} {m : DnsQueryMeta}
    {ls : List (List UInt8)} (he : dnsEnd ≤ pkt.length) (hq : m.qnameLen ≤ 255)
    (hb : byteAt pkt cursor ≠ 0) (h : LoopAccepts pkt dnsEnd (n + 1) cursor m ls) :
    ∃ ls', ls = slice pkt (cursor + 1) (byteAt pkt cursor).toNat :: ls' ∧
      (byteAt pkt cursor).toNat ≤ 63 ∧ cursor + 1 + (byteAt pkt cursor).toNat ≤ dnsEnd ∧
      LoopAccepts pkt dnsEnd n (cursor + 1 + (byteAt pkt cursor).toNat)
        (addLabel m (slice pkt (cursor + 1) (byteAt pkt cursor).toNat)) ls' := by
  cases ls with
  | nil => exact absurd ((loopAccepts_nil he hq).mp h).2 hb
  | cons l ls =>
    obtain ⟨_, _, h63, rfl, hend, hls⟩ := (loopAccepts_cons he l ls).mp h
    exact ⟨ls, rfl, h63, hend, hls⟩

theorem length_wire_slice {pkt : List UInt8} {off k : Nat} (h : off + k ≤ pkt.length)
    (ls : List (List UInt8)) : (wire (slice pkt off k :: ls)).length = 1 + k + (wire ls).length := by
  simp only [wire, List.length_cons, List.length_append]
  rw [length_slice h]
  omega

/-- The label loop returns, and it ends on a zero byte exactly when it accepts. -/
theorem labelLoop_iff (pkt : List UInt8) (dnsEnd n cursor : Nat) (m : DnsQueryMeta)
    (he : dnsEnd ≤ pkt.length) (hq : m.qnameLen ≤ 255) :
    (∃ r, labelLoop pkt dnsEnd n cursor m = .ok r) ∧
    ∀ c m', labelLoop pkt dnsEnd n cursor m = .ok (some (true, c, m')) ↔
      ∃ ls, LoopAccepts pkt dnsEnd n cursor m ls ∧ c = cursor + (wire ls).length ∧
        m' = addLabels m ls := by
  induction n generalizing cursor m with
  | zero =>
    refine ⟨⟨_, rfl⟩, fun c m' => ⟨fun h => ?_, fun ⟨ls, h, _⟩ => absurd h.1 (by omega)⟩⟩
    simp [labelLoop] at h
  | succ n ih =>
    rw [labelLoop_succ pkt dnsEnd n cursor m he hq]
    -- a rejecting branch: the loop returns `none`, and no list of labels is accepted
    have hrej : (∀ ls, ¬ LoopAccepts pkt dnsEnd (n + 1) cursor m ls) →
        (∃ r : Option (Bool × Nat × DnsQueryMeta), (.ok none : Checked _) = .ok r) ∧
        ∀ c m', (.ok none : Checked _) = .ok (some (true, c, m')) ↔
          ∃ ls, LoopAccepts pkt dnsEnd (n + 1) cursor m ls ∧ c = cursor + (wire ls).length ∧
            m' = addLabels m ls := fun h =>
      ⟨⟨none, rfl⟩, fun _ _ => ⟨fun h' => (by cases h'), fun ⟨ls, hls, _⟩ => absurd hls (h ls)⟩⟩
    split_ifs with h1 h2 h3 h4 h5
    · refine hrej fun ls h => ?_
      have := h.2.2.1.1
      have := length_wire_pos ls
      omega
    · refine ⟨⟨_, rfl⟩, fun c m' => ⟨fun h => ?_, fun ⟨ls, hls, hc, hm⟩ => ?_⟩⟩
      · cases h
        exact ⟨[], (loopAccepts_nil he hq).mpr ⟨by omega, h2⟩, rfl, rfl⟩
      · cases ls with
        | nil => rw [hc, hm]; rfl
        | cons l ls => exact absurd h2 ((loopAccepts_cons he l ls).mp hls).2.1
    · refine hrej fun ls h => ?_
      obtain ⟨_, _, h63, _⟩ := loopAccepts_of_ne_zero he hq h2 h
      omega
    · refine hrej fun ls h => ?_
      obtain ⟨_, _, _, hend, _⟩ := loopAccepts_of_ne_zero he hq h2 h
      omega
    · have hq' : (addLabel m (slice pkt (cursor + 1) (byteAt pkt cursor).toNat)).qnameLen ≤ 255 := by
        rw [qnameLen_addLabel, length_slice (by omega)]
        exact h5
      obtain ⟨hret, hiff⟩ := ih (cursor + 1 + (byteAt pkt cursor).toNat) _ hq'
      refine ⟨hret, fun c m' => (hiff c m').trans ⟨fun ⟨ls, hls, hc, hm⟩ => ?_,
        fun ⟨ls, hls, hc, hm⟩ => ?_⟩⟩
      · refine ⟨_ :: ls, (loopAccepts_cons he _ ls).mpr
          ⟨by omega, h2, by omega, rfl, by omega, hls⟩, ?_, hm⟩
        rw [hc, length_wire_slice (by omega)]
        omega
      · obtain ⟨ls', rfl, _, _, hls'⟩ := loopAccepts_of_ne_zero he hq h2 hls
        refine ⟨ls', hls', ?_, hm⟩
        rw [hc, length_wire_slice (by omega)]
        omega
    · refine hrej fun ls h => ?_
      obtain ⟨ls', _, _, _, hls'⟩ := loopAccepts_of_ne_zero he hq h2 h
      have h6 := qnameLen_le_addLabels
        (addLabel m (slice pkt (cursor + 1) (byteAt pkt cursor).toNat)) ls'
      have h7 := hls'.2.2.2
      rw [qnameLen_addLabel, length_slice (by omega)] at h6
      omega

/-- Labels after the first: each brings its dot. -/
theorem addLabels_tail (ls : List (List UInt8)) : ∀ m : DnsQueryMeta, m.labelDepth.toNat ≠ 0 →
    m.labelDepth.toNat + ls.length < 256 →
    addLabels m ls = { m.extend (lower (ls.flatMap (fun l => 46 :: l))) with
      labelDepth := m.labelDepth + UInt8.ofNat ls.length } := by
  induction ls with
  | nil =>
    intro m _ _
    simp [addLabels, lower, extend_nil]
  | cons l ls ih =>
    intro m h0 hlt
    rw [List.length_cons] at hlt
    have hsep : m.sep = [46] := if_neg fun h => h0 (by rw [h]; rfl)
    have hdepth : (addLabel m l).labelDepth.toNat = m.labelDepth.toNat + 1 := by
      simp only [addLabel, UInt8.toNat_add, UInt8.toNat_one]
      omega
    rw [addLabels_cons, ih (addLabel m l) (by omega) (by omega)]
    have hd : (addLabel m l).labelDepth + UInt8.ofNat ls.length =
        m.labelDepth + UInt8.ofNat (ls.length + 1) := by
      simp only [addLabel, UInt8.ofNat_add, UInt8.add_assoc, UInt8.add_comm (UInt8.ofNat ls.length)]
      rfl
    rw [List.length_cons, hd, List.flatMap_cons, lower_append]
    simp only [addLabel, hsep, DnsQueryMeta.extend, List.append_assoc, List.foldl_append,
      List.singleton_append]
    rfl

/-- From an empty name, the labels make the lowercased dotted text. -/
theorem addLabels_eq (m : DnsQueryMeta) (ls : List (List UInt8)) (hne : ls ≠ [])
    (hlen : ls.length < 256) (hdepth : m.labelDepth = 0) :
    addLabels m ls = { m.extend (lower (dotted ls)) with
      labelDepth := UInt8.ofNat ls.length } := by
  cases ls with
  | nil => exact absurd rfl hne
  | cons l ls =>
    rw [List.length_cons] at hlen ⊢
    have hone : (addLabel m l).labelDepth.toNat = 1 := by simp [addLabel, hdepth]
    have hd : (addLabel m l).labelDepth + UInt8.ofNat ls.length = UInt8.ofNat (ls.length + 1) := by
      simp only [addLabel, hdepth, UInt8.ofNat_add, UInt8.zero_add]
      exact UInt8.add_comm _ _
    rw [addLabels_cons, addLabels_tail ls _ (by omega) (by omega), hd, dotted_cons, lower_append]
    simp only [addLabel, DnsQueryMeta.sep, hdepth, if_true, DnsQueryMeta.extend, List.nil_append,
      List.append_assoc, List.foldl_append]

/-! ## The whole query -/

/-- The 16-bit field at `off`, in network order. -/
def fieldAt (pkt : List UInt8) (off : Nat) : UInt16 := be16 (byteAt pkt off) (byteAt pkt (off + 1))

theorem readBe16_ok {pkt : List UInt8} {off : Nat} (h : off + 2 ≤ pkt.length) :
    readBe16 pkt off = .ok (fieldAt pkt off) := by
  unfold readBe16
  rw [readAt_ok (by omega), ok_bind, readAt_ok (by omega), ok_bind]
  rfl

theorem fieldAt_of_take {pkt pkt' : List UInt8} {k off : Nat} (h : pkt.take k = pkt'.take k)
    (hk : off + 2 ≤ k) : fieldAt pkt off = fieldAt pkt' off := by
  unfold fieldAt
  rw [byteAt_of_take h (by omega), byteAt_of_take h (by omega)]

/-- The end of the datagram that the UDP header at `udp` announces. -/
def datagramEnd (pkt : List UInt8) (udp : Nat) : Nat := udp + (fieldAt pkt (udp + 4)).toNat

/-- The flags word of the DNS header. -/
def dnsFlags (pkt : List UInt8) (udp : Nat) : Nat := (fieldAt pkt (udp + 10)).toNat

/-- The datagram at `udp` lies in the frame and is a DNS query with first question `ls`. -/
structure IsQuery (pkt : List UInt8) (udp : Nat) (ls : List (List UInt8)) : Prop where
  inFrame : datagramEnd pkt udp ≤ pkt.length
  query : (dnsFlags pkt udp).testBit 15 = false
  questions : fieldAt pkt (udp + 12) ≠ 0
  count : 1 ≤ ls.length ∧ ls.length ≤ 31
  labels : ∀ l ∈ ls, 1 ≤ l.length ∧ l.length ≤ 63
  nameLen : (ls.map List.length).sum + (ls.length - 1) ≤ 255
  name : slice pkt (udp + 20) (wire ls).length = wire ls
  fits : udp + 20 + (wire ls).length + 4 ≤ datagramEnd pkt udp

/-- The code's FNV-1a of a byte string. -/
def fnv1a64 (bs : List UInt8) : UInt64 := bs.foldl fnv1a64Step 1469598103934665603

/-- What a query with first question `ls` denotes. -/
def decode (pkt : List UInt8) (udp : Nat) (ls : List (List UInt8)) : DnsQueryMeta where
  qnameHash := fnv1a64 (lower (dotted ls))
  dnsId := fieldAt pkt (udp + 8)
  qtype := fieldAt pkt (udp + 20 + (wire ls).length)
  qclass := fieldAt pkt (udp + 20 + (wire ls).length + 2)
  opcode := UInt8.ofNat (dnsFlags pkt udp / 2 ^ 11 % 16)
  isTruncated := (dnsFlags pkt udp).testBit 9
  labelDepth := UInt8.ofNat ls.length
  qname := lower (dotted ls)

theorem opcode_eq (x : UInt16) :
    ((x >>> 11) &&& 0x0f).toUInt8 = UInt8.ofNat (x.toNat / 2 ^ 11 % 16) := by
  have h15 : (15 : UInt16).toNat = 2 ^ 4 - 1 := rfl
  have h11 : (11 : UInt16).toNat % 16 = 11 := rfl
  rw [← UInt8.toNat_inj]
  simp only [UInt16.toNat_toUInt8, UInt16.toNat_and, UInt16.toNat_shiftRight]
  rw [h15, Nat.and_two_pow_sub_one_eq_mod, h11, Nat.shiftRight_eq_div_pow]
  simp

/-- The meta before the first label. -/
def headerMeta (pkt : List UInt8) (udp : Nat) : DnsQueryMeta where
  qnameHash := 1469598103934665603
  dnsId := fieldAt pkt (udp + 8)
  qtype := 0
  qclass := 0
  opcode := ((fieldAt pkt (udp + 10) >>> 11) &&& 0x0f).toUInt8
  isTruncated := fieldAt pkt (udp + 10) &&& 0x0200 ≠ 0
  labelDepth := 0
  qname := []

/-- After the labels only the type and class are missing. -/
theorem addLabels_headerMeta (pkt : List UInt8) (udp : Nat) (ls : List (List UInt8))
    (hne : ls ≠ []) (hlen : ls.length < 256) :
    { addLabels (headerMeta pkt udp) ls with
      qtype := fieldAt pkt (udp + 20 + (wire ls).length)
      qclass := fieldAt pkt (udp + 20 + (wire ls).length + 2) } = decode pkt udp ls := by
  have htc : decide (fieldAt pkt (udp + 10) &&& 0x0200 ≠ 0) = (dnsFlags pkt udp).testBit 9 := by
    have h := and_bit_eq_zero_iff (fieldAt pkt (udp + 10)) (i := 9) (by decide)
    have hbit : UInt16.ofNat (2 ^ 9) = 0x0200 := rfl
    rw [hbit] at h
    rw [← Bool.coe_iff_coe, decide_eq_true_iff, Ne, h, Bool.not_eq_false]
    rfl
  rw [addLabels_eq _ ls hne hlen rfl]
  simp only [headerMeta, DnsQueryMeta.extend, decode, fnv1a64, List.nil_append, htc, opcode_eq]
  rfl

theorem length_addLabels_headerMeta (pkt : List UInt8) (udp : Nat) (ls : List (List UInt8))
    (hlen : ls.length < 256) :
    (addLabels (headerMeta pkt udp) ls).qnameLen =
      (ls.map List.length).sum + (ls.length - 1) := by
  by_cases hne : ls = []
  · rw [hne]; rfl
  · rw [addLabels_eq _ ls hne hlen rfl]
    simp [DnsQueryMeta.qnameLen, DnsQueryMeta.extend, headerMeta, length_lower, length_dotted]

/-- On a query the label loop ends after its name. -/
theorem labelLoop_of_isQuery {pkt : List UInt8} {udp : Nat} {ls : List (List UInt8)}
    (h : IsQuery pkt udp ls) :
    labelLoop pkt (datagramEnd pkt udp) dnsMaxLabels (udp + 20) (headerMeta pkt udp) =
      .ok (some (true, udp + 20 + (wire ls).length, addLabels (headerMeta pkt udp) ls)) := by
  refine ((labelLoop_iff pkt _ _ _ _ h.inFrame (Nat.zero_le _)).2 _ _).mpr
    ⟨ls, ⟨?_, h.labels, ⟨?_, h.name⟩, ?_⟩, rfl, rfl⟩
  · have := h.count.2
    unfold dnsMaxLabels
    omega
  · have := h.fits
    omega
  · have := h.count.2
    rw [length_addLabels_headerMeta pkt udp ls (by omega)]
    exact h.nameLen

theorem qr_iff (pkt : List UInt8) (udp : Nat) :
    fieldAt pkt (udp + 10) &&& 0x8000 ≠ 0 ↔ (dnsFlags pkt udp).testBit 15 = true := by
  have h := and_bit_eq_zero_iff (fieldAt pkt (udp + 10)) (i := 15) (by decide)
  have hbit : UInt16.ofNat (2 ^ 15) = 0x8000 := rfl
  rw [hbit] at h
  rw [Ne, h, Bool.not_eq_false]
  rfl

/-- The guards before the label loop. -/
def Guards (pkt : List UInt8) (udp : Nat) : Prop :=
  datagramEnd pkt udp ≤ pkt.length ∧ udp + 25 ≤ datagramEnd pkt udp ∧
    (dnsFlags pkt udp).testBit 15 = false ∧ fieldAt pkt (udp + 12) ≠ 0

theorem parseDnsQuery_of_guards {pkt : List UInt8} {udp : Nat} (h : Guards pkt udp) :
    parseDnsQuery pkt udp =
      labelLoop pkt (datagramEnd pkt udp) dnsMaxLabels (udp + 20) (headerMeta pkt udp) >>=
        finishQuery pkt (datagramEnd pkt udp) := by
  obtain ⟨h1, h2, h3, h4⟩ := h
  have hqr : ¬ fieldAt pkt (udp + 8 + 2) &&& 0x8000 ≠ 0 := by
    rw [show udp + 8 + 2 = udp + 10 from rfl, qr_iff, h3]
    decide
  unfold parseDnsQuery
  simp only
  rw [if_neg (by omega), readBe16_ok (by omega), ok_bind,
    show udp + (fieldAt pkt (udp + 4)).toNat = datagramEnd pkt udp from rfl,
    if_neg (by omega), if_neg (by omega), readBe16_ok (by omega), ok_bind, if_neg hqr,
    readBe16_ok (by omega), ok_bind, if_neg h4, readBe16_ok (by omega), ok_bind]
  rfl

theorem parseDnsQuery_of_not_guards {pkt : List UInt8} {udp : Nat} (h : ¬ Guards pkt udp) :
    parseDnsQuery pkt udp = .ok none := by
  unfold parseDnsQuery
  simp only
  by_cases h0 : udp + 8 + 12 > pkt.length
  · rw [if_pos h0]
  rw [if_neg h0, readBe16_ok (by omega), ok_bind,
    show udp + (fieldAt pkt (udp + 4)).toNat = datagramEnd pkt udp from rfl]
  by_cases h1 : datagramEnd pkt udp > pkt.length
  · rw [if_pos h1]
  rw [if_neg h1]
  by_cases h2 : datagramEnd pkt udp < udp + 8 + 12 + 5
  · rw [if_pos h2]
  rw [if_neg h2, readBe16_ok (by omega), ok_bind, show udp + 8 + 2 = udp + 10 from rfl]
  by_cases h3 : (dnsFlags pkt udp).testBit 15 = true
  · rw [if_pos ((qr_iff pkt udp).mpr h3)]
  rw [if_neg (mt (qr_iff pkt udp).mp h3), readBe16_ok (by omega), ok_bind]
  by_cases h4 : fieldAt pkt (udp + 8 + 4) = 0
  · rw [if_pos h4]
  · exact absurd ⟨by omega, by omega, by simpa using h3, h4⟩ h

theorem guards_of_isQuery {pkt : List UInt8} {udp : Nat} {ls : List (List UInt8)}
    (h : IsQuery pkt udp ls) : Guards pkt udp := by
  refine ⟨h.inFrame, ?_, h.query, h.questions⟩
  have := h.fits
  have := length_wire_pos ls
  omega

/-- On a query the parser returns what the query denotes. -/
theorem parseDnsQuery_of_isQuery {pkt : List UInt8} {udp : Nat} {ls : List (List UInt8)}
    (h : IsQuery pkt udp ls) : parseDnsQuery pkt udp = .ok (some (decode pkt udp ls)) := by
  obtain ⟨h1, h31⟩ := h.count
  have hin := h.inFrame
  have hfit := h.fits
  have hlen := length_addLabels_headerMeta pkt udp ls (by omega)
  have hne : ls ≠ [] := by rintro rfl; simp at h1
  have hpos : 1 ≤ (ls.map List.length).sum := by
    cases ls with
    | nil => exact absurd rfl hne
    | cons l ls =>
      have := (h.labels l (by simp)).1
      rw [List.map_cons, List.sum_cons]
      omega
  have hmax := h.nameLen
  rw [parseDnsQuery_of_guards (guards_of_isQuery h), labelLoop_of_isQuery h, ok_bind]
  unfold finishQuery
  simp only [Bool.not_true, Bool.false_or, decide_eq_true_eq]
  rw [if_neg (by omega), if_neg (by omega), readBe16_ok (by omega), ok_bind,
    readBe16_ok (by omega), ok_bind, if_pos (by unfold dnsMaxQname; omega),
    addLabels_headerMeta pkt udp ls hne (by omega)]

/-- Off the grammar the parser rejects. -/
theorem parseDnsQuery_of_not_isQuery {pkt : List UInt8} {udp : Nat}
    (h : ∀ ls, ¬ IsQuery pkt udp ls) : parseDnsQuery pkt udp = .ok none := by
  by_cases hg : Guards pkt udp
  · rw [parseDnsQuery_of_guards hg]
    obtain ⟨hin, hmin, hqr, hqd⟩ := hg
    obtain ⟨⟨r, hr⟩, hiff⟩ := labelLoop_iff pkt (datagramEnd pkt udp) dnsMaxLabels (udp + 20)
      (headerMeta pkt udp) hin (Nat.zero_le _)
    rw [hr, ok_bind]
    match r, hr with
    | none, _ => rfl
    | some (false, cursor, m), _ => rfl
    | some (true, cursor, m), hr =>
      obtain ⟨ls, ⟨hn, hls, hname, hq⟩, rfl, rfl⟩ := (hiff cursor m).mp hr
      unfold dnsMaxLabels at hn
      have hlen := length_addLabels_headerMeta pkt udp ls (by omega)
      unfold finishQuery
      simp only [Bool.not_true, Bool.false_or, decide_eq_true_eq]
      by_cases h0 : (addLabels (headerMeta pkt udp) ls).qnameLen = 0
      · rw [if_pos h0]
      by_cases hend : udp + 20 + (wire ls).length + 4 > datagramEnd pkt udp
      · rw [if_neg h0, if_pos hend]
      have hne : ls.length ≠ 0 := by
        intro hz
        rw [List.length_eq_zero_iff] at hz
        rw [hz] at h0
        exact h0 rfl
      exact absurd ⟨hin, hqr, hqd, ⟨by omega, by omega⟩, hls, by omega, hname.2, by omega⟩ (h ls)
  · exact parseDnsQuery_of_not_guards hg

/-- The parser returns a query exactly on the grammar, and then what it denotes. -/
theorem parseDnsQuery_iff (pkt : List UInt8) (udp : Nat) (m : DnsQueryMeta) :
    parseDnsQuery pkt udp = .ok (some m) ↔ ∃ ls, IsQuery pkt udp ls ∧ m = decode pkt udp ls := by
  constructor
  · intro h
    by_cases hex : ∃ ls, IsQuery pkt udp ls
    · obtain ⟨ls, hls⟩ := hex
      rw [parseDnsQuery_of_isQuery hls] at h
      exact ⟨ls, hls, by cases h; rfl⟩
    · rw [parseDnsQuery_of_not_isQuery (fun ls hls => hex ⟨ls, hls⟩)] at h
      cases h
  · rintro ⟨ls, hls, rfl⟩
    exact parseDnsQuery_of_isQuery hls

/-- The parser returns on every frame. -/
theorem parseDnsQuery_total (pkt : List UInt8) (udp : Nat) :
    ∃ r, parseDnsQuery pkt udp = .ok r := by
  by_cases hex : ∃ ls, IsQuery pkt udp ls
  · obtain ⟨ls, hls⟩ := hex
    exact ⟨_, parseDnsQuery_of_isQuery hls⟩
  · exact ⟨_, parseDnsQuery_of_not_isQuery (fun ls hls => hex ⟨ls, hls⟩)⟩

theorem length_qname_le {pkt : List UInt8} {udp : Nat} {m : DnsQueryMeta}
    (h : parseDnsQuery pkt udp = .ok (some m)) : m.qname.length ≤ 255 := by
  obtain ⟨ls, hls, rfl⟩ := (parseDnsQuery_iff pkt udp m).mp h
  have := hls.nameLen
  simp only [decode, length_lower, length_dotted]
  exact this

/-! ## Bytes after the question -/

/-- A frame that agrees up to the end of the question holds the same query. -/
theorem isQuery_congr {pkt pkt' : List UInt8} {udp : Nat} {ls : List (List UInt8)}
    (htake : pkt.take (udp + 20 + (wire ls).length + 4) =
      pkt'.take (udp + 20 + (wire ls).length + 4))
    (hend : datagramEnd pkt udp ≤ pkt'.length) (h : IsQuery pkt udp ls) :
    IsQuery pkt' udp ls ∧ decode pkt' udp ls = decode pkt udp ls := by
  have hf : ∀ off, off + 2 ≤ udp + 20 + (wire ls).length + 4 →
      fieldAt pkt' off = fieldAt pkt off := fun off ho => (fieldAt_of_take htake ho).symm
  have hflags : dnsFlags pkt' udp = dnsFlags pkt udp := congrArg UInt16.toNat (hf _ (by omega))
  have hdg : datagramEnd pkt' udp = datagramEnd pkt udp := by
    unfold datagramEnd
    rw [hf _ (by omega)]
  refine ⟨⟨?_, ?_, ?_, h.count, h.labels, h.nameLen, ?_, ?_⟩, ?_⟩
  · rw [hdg]; exact hend
  · rw [hflags]; exact h.query
  · rw [hf _ (by omega)]; exact h.questions
  · rw [← slice_of_take htake (by omega)]; exact h.name
  · rw [hdg]; exact h.fits
  · unfold decode
    rw [hflags, hf _ (by omega), hf _ (by omega), hf _ (by omega)]

/-- A frame holds at most one name at an offset. -/
theorem nameAt_unique {pkt : List UInt8} {i : Nat} {ls ks : List (List UInt8)}
    (hls : ∀ l ∈ ls, IsLabel l) (hks : ∀ l ∈ ks, IsLabel l)
    (h1 : slice pkt i (wire ls).length = wire ls) (h2 : slice pkt i (wire ks).length = wire ks) :
    ls = ks := by
  have e : ∀ n, slice pkt i n ++ (pkt.drop i).drop n = pkt.drop i := fun n =>
    List.take_append_drop n _
  have e1 := e (wire ls).length
  have e2 := e (wire ks).length
  rw [h1] at e1
  rw [h2] at e2
  exact wire_inj hls hks (e1.trans e2.symm)

theorem parseDnsQuery_congr {pkt pkt' : List UInt8} {udp : Nat} {ls : List (List UInt8)}
    (hls : ∀ l ∈ ls, IsLabel l) (hname : slice pkt (udp + 20) (wire ls).length = wire ls)
    (htake : pkt.take (udp + 20 + (wire ls).length + 4) =
      pkt'.take (udp + 20 + (wire ls).length + 4))
    (hin : datagramEnd pkt udp ≤ pkt.length) (hin' : datagramEnd pkt udp ≤ pkt'.length) :
    parseDnsQuery pkt' udp = parseDnsQuery pkt udp := by
  have hname' : slice pkt' (udp + 20) (wire ls).length = wire ls := by
    rw [← slice_of_take htake (by omega)]
    exact hname
  have hdg : datagramEnd pkt' udp = datagramEnd pkt udp := by
    unfold datagramEnd
    rw [fieldAt_of_take htake (by omega)]
  by_cases hq : IsQuery pkt udp ls
  · obtain ⟨hq', hdec⟩ := isQuery_congr htake hin' hq
    rw [parseDnsQuery_of_isQuery hq, parseDnsQuery_of_isQuery hq', hdec]
  · -- neither frame is a query: a query would have to ask for `ls`
    have hno : ∀ ks, ¬ IsQuery pkt udp ks := fun ks hks =>
      hq (nameAt_unique hls hks.labels hname hks.name ▸ hks)
    have hno' : ∀ ks, ¬ IsQuery pkt' udp ks := by
      intro ks hks
      have hkl := nameAt_unique hls hks.labels hname' hks.name
      subst hkl
      exact hq (isQuery_congr htake.symm (by rw [hdg]; exact hin) hks).1
    rw [parseDnsQuery_of_not_isQuery hno, parseDnsQuery_of_not_isQuery hno']

/-- **The question parser accepts exactly its grammar and decodes it.** For every frame and
    every offset of a UDP header in it, the parser returns 0 exactly on the grammar, returns
    what the query denotes there and -1 everywhere else. Bytes after the question do not
    change its result: another frame that agrees up to the end of a question and still holds
    the announced datagram gets the same one. -/
theorem parseDnsQuery_exact (pkt : List UInt8) (udp : Nat) :
    ((∃ m, parseDnsQuery pkt udp = .ok (some m)) ↔ ∃ ls, IsQuery pkt udp ls) ∧
    (∀ ls, IsQuery pkt udp ls → parseDnsQuery pkt udp = .ok (some (decode pkt udp ls))) ∧
    ((¬ ∃ ls, IsQuery pkt udp ls) → parseDnsQuery pkt udp = .ok none) ∧
    (∀ ls pkt', (∀ l ∈ ls, IsLabel l) → slice pkt (udp + 20) (wire ls).length = wire ls →
      pkt.take (udp + 20 + (wire ls).length + 4) = pkt'.take (udp + 20 + (wire ls).length + 4) →
      datagramEnd pkt udp ≤ pkt.length → datagramEnd pkt udp ≤ pkt'.length →
      parseDnsQuery pkt' udp = parseDnsQuery pkt udp) := by
  refine ⟨⟨?_, ?_⟩, fun ls h => parseDnsQuery_of_isQuery h, fun h => ?_, ?_⟩
  · rintro ⟨m, hm⟩
    obtain ⟨ls, hls, _⟩ := (parseDnsQuery_iff pkt udp m).mp hm
    exact ⟨ls, hls⟩
  · rintro ⟨ls, hls⟩
    exact ⟨_, parseDnsQuery_of_isQuery hls⟩
  · exact parseDnsQuery_of_not_isQuery fun ls hls => h ⟨ls, hls⟩
  · intro ls pkt' hls hname htake hin hin'
    exact parseDnsQuery_congr hls hname htake hin hin'

/-- A datagram at offset 0 that asks for the name `A.bc`, type A, class IN. -/
def sampleDatagram : List UInt8 :=
  [0x30, 0x39, 0, 53, 0, 30, 0, 0, 0x12, 0x34, 0x01, 0, 0, 1, 0, 0, 0, 0, 0, 0,
    1, 65, 2, 98, 99, 0, 0, 1, 0, 1]

theorem isQuery_sampleDatagram : IsQuery sampleDatagram 0 [[65], [98, 99]] where
  inFrame := by decide
  query := by decide
  questions := by decide
  count := by decide
  labels := by decide
  nameLen := by decide
  name := by decide
  fits := by decide

theorem parseDnsQuery_sampleDatagram :
    parseDnsQuery sampleDatagram 0 = .ok (some (decode sampleDatagram 0 [[65], [98, 99]])) ∧
    parseDnsQuery [] 0 = .ok none ∧
    parseDnsQuery (sampleDatagram ++ [7]) 0 = parseDnsQuery sampleDatagram 0 := by
  refine ⟨(parseDnsQuery_exact sampleDatagram 0).2.1 _ isQuery_sampleDatagram,
    (parseDnsQuery_exact [] 0).2.2.1 ?_,
    (parseDnsQuery_exact sampleDatagram 0).2.2.2 [[65], [98, 99]] _
      isQuery_sampleDatagram.labels isQuery_sampleDatagram.name (by decide) (by decide)
      (by decide)⟩
  rintro ⟨ls, hls⟩
  have := hls.inFrame
  have := hls.fits
  simp at *
  omega

/-! ## The label limit -/

/-- A well-formed query inside the frame, with a first question of up to `ZEREH_DNS_MAX_LABELS`
    labels. -/
structure AsksFor (pkt : List UInt8) (udp : Nat) (ls : List (List UInt8)) : Prop where
  inFrame : datagramEnd pkt udp ≤ pkt.length
  query : (dnsFlags pkt udp).testBit 15 = false
  questions : fieldAt pkt (udp + 12) ≠ 0
  count : 1 ≤ ls.length ∧ ls.length ≤ dnsMaxLabels
  labels : ∀ l ∈ ls, IsLabel l
  nameLen : (dotted ls).length ≤ dnsMaxQname
  name : slice pkt (udp + 20) (wire ls).length = wire ls
  fits : udp + 20 + (wire ls).length + 4 ≤ datagramEnd pkt udp

theorem AsksFor.isQuery {pkt : List UInt8} {udp : Nat} {ls : List (List UInt8)}
    (h : AsksFor pkt udp ls) (hlen : ls.length ≤ 31) : IsQuery pkt udp ls := by
  refine ⟨h.inFrame, h.query, h.questions, ⟨h.count.1, hlen⟩, h.labels, ?_, h.name, h.fits⟩
  rw [← length_dotted]
  exact h.nameLen

/-- **The limit is one label less than it says.** The terminating zero takes a round of the label
    loop too, so a well-formed query is accepted exactly when its name has at most 31 labels. -/
theorem parseDnsQuery_accepts_iff (pkt : List UInt8) (udp : Nat) (ls : List (List UInt8))
    (h : AsksFor pkt udp ls) :
    (∃ m, parseDnsQuery pkt udp = .ok (some m)) ↔ ls.length ≤ 31 := by
  constructor
  · rintro ⟨m, hm⟩
    obtain ⟨ks, hks, -⟩ := (parseDnsQuery_iff pkt udp m).mp hm
    rw [nameAt_unique h.labels hks.labels h.name hks.name]
    exact hks.count.2
  · intro hlen
    exact ⟨_, parseDnsQuery_of_isQuery (h.isQuery hlen)⟩

/-- A datagram at offset 0 that asks for `n` labels "a". -/
def labelsDatagram (n : Nat) : List UInt8 :=
  [0x30, 0x39, 0, 53, 0, UInt8.ofNat (25 + 2 * n), 0, 0, 0x12, 0x34, 0x01, 0, 0, 1, 0, 0, 0, 0, 0, 0] ++
    wire (List.replicate n [97]) ++ [0, 1, 0, 1]

theorem asksFor_labelsDatagram {n : Nat} (h : n = 31 ∨ n = 32) :
    AsksFor (labelsDatagram n) 0 (List.replicate n [97]) := by
  have hlabel : ∀ l ∈ List.replicate n [(97 : UInt8)], IsLabel l := by
    intro l hl
    rw [List.eq_of_mem_replicate hl]
    exact ⟨by decide, by decide⟩
  rcases h with rfl | rfl
  all_goals exact
    { inFrame := by decide
      query := by decide
      questions := by decide
      count := by decide
      labels := hlabel
      nameLen := by decide
      name := by decide
      fits := by decide }

theorem parseDnsQuery_accepts_sample : ∃ m, parseDnsQuery (labelsDatagram 31) 0 = .ok (some m) :=
  (parseDnsQuery_accepts_iff (labelsDatagram 31) 0 (List.replicate 31 [97])
    (asksFor_labelsDatagram (.inl rfl))).mpr (by decide)

/-- A query for 32 labels is turned away. -/
theorem limit_rejected :
    AsksFor (labelsDatagram 32) 0 (List.replicate 32 [97]) ∧
      parseDnsQuery (labelsDatagram 32) 0 = .ok none :=
  ⟨asksFor_labelsDatagram (.inr rfl), by decide +kernel⟩

end Zereh.Xdp
