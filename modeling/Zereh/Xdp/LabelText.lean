/-
  The text of a name against its labels.

  A label may hold any byte, also the dot that the parser puts between two labels, and the parser
  copies it as it is. So the text of a name shows its labels cut at the dots inside them
  (`pieces`), and two names have one text exactly when these pieces agree (`dotted_eq_iff`). The
  text tells names apart as long as no label holds a dot (`names_distinct_iff`).
-/
import Zereh.Control.Hash
import Zereh.Xdp.DnsGrammar

namespace Zereh.Xdp

open Lib

/-- The labels cut at the dots inside them. -/
def pieces (ls : List (List UInt8)) : List (List UInt8) := ls.flatMap (·.splitOn 46)

theorem splitOn_dotted {ls : List (List UInt8)} (hne : ls ≠ []) :
    (dotted ls).splitOn 46 = pieces ls := by
  induction ls with
  | nil => exact absurd rfl hne
  | cons l ls ih =>
    cases ls with
    | nil => simp [dotted, pieces]
    | cons k ls =>
      have hjoin : dotted (l :: k :: ls) = l ++ 46 :: dotted (k :: ls) := by
        simp [dotted, List.intercalate_cons_cons]
      rw [hjoin, List.splitOn_append_cons_self, ih (List.cons_ne_nil _ _)]
      rfl

/-- Cutting a text loses nothing. -/
theorem splitOn_injective {s t : List UInt8} (h : s.splitOn 46 = t.splitOn 46) : s = t := by
  calc s = [46].intercalate (s.splitOn 46) := (List.intercalate_splitOn 46).symm
    _ = [46].intercalate (t.splitOn 46) := by rw [h]
    _ = t := List.intercalate_splitOn 46

/-- Two names have one text exactly when they have the same pieces. -/
theorem dotted_eq_iff {ls ks : List (List UInt8)} (hls : ls ≠ []) (hks : ks ≠ []) :
    dotted ls = dotted ks ↔ pieces ls = pieces ks := by
  rw [← splitOn_dotted hls, ← splitOn_dotted hks]
  exact ⟨congrArg _, splitOn_injective⟩

theorem pieces_of_dotFree {ls : List (List UInt8)} (h : ∀ l ∈ ls, (46 : UInt8) ∉ l) :
    pieces ls = ls := by
  induction ls with
  | nil => rfl
  | cons l ls ih =>
    rw [pieces, List.flatMap_cons, List.splitOn_eq_singleton (h l (.head _)), ← pieces,
      ih fun k hk => h k (.tail _ hk)]
    rfl

theorem lower_dotted (ls : List (List UInt8)) : lower (dotted ls) = dotted (ls.map lower) := by
  cases ls with
  | nil => rfl
  | cons l ls =>
    rw [List.map_cons, dotted_cons, dotted_cons, lower_append]
    congr 1
    induction ls with
    | nil => rfl
    | cons k ls ih =>
      rw [List.flatMap_cons, lower_append, ih]
      rfl

/-- A dot is no letter: lower case neither makes nor removes one. -/
theorem dotFree_lower {ls : List (List UInt8)} (h : ∀ l ∈ ls, (46 : UInt8) ∉ l) :
    ∀ l ∈ ls.map lower, (46 : UInt8) ∉ l := by
  intro l hl hdot
  obtain ⟨k, hk, rfl⟩ := List.mem_map.mp hl
  obtain ⟨c, hc, hc'⟩ := List.mem_map.mp hdot
  exact h k hk (tolower_eq_dot.mp hc' ▸ hc)

section Accepted

variable {pkt pkt' : List UInt8} {udp udp' : Nat} {ls ks : List (List UInt8)} {m m' : DnsQueryMeta}

theorem IsQuery.ne_nil (h : IsQuery pkt udp ls) : ls ≠ [] := by
  rintro rfl
  exact absurd h.count.1 (by decide)

theorem IsQuery.qname_eq (h : IsQuery pkt udp ls) (hm : parseDnsQuery pkt udp = .ok (some m)) :
    m.qname = dotted (ls.map lower) := by
  rw [parseDnsQuery_of_isQuery h] at hm
  cases hm
  exact lower_dotted ls

theorem IsQuery.qname_eq_iff (h : IsQuery pkt udp ls) (h' : IsQuery pkt' udp' ks)
    (hm : parseDnsQuery pkt udp = .ok (some m)) (hm' : parseDnsQuery pkt' udp' = .ok (some m')) :
    m.qname = m'.qname ↔ pieces (ls.map lower) = pieces (ks.map lower) := by
  rw [h.qname_eq hm, h'.qname_eq hm']
  exact dotted_eq_iff (by simpa using h.ne_nil) (by simpa using h'.ne_nil)

end Accepted

/-- **When the text tells two names apart.** For two accepted names that are not equal label by
    label up to letter case, the texts differ exactly when the labels, cut at the dots inside
    them, differ. When no label holds a dot they always do; and a name whose labels hold no dot
    becomes the text of a domain only if its labels are those of the domain. -/
theorem names_distinct_iff (pkt pkt' : List UInt8) (udp udp' : Nat) (ls ks : List (List UInt8))
    (m m' : DnsQueryMeta) (h : IsQuery pkt udp ls) (h' : IsQuery pkt' udp' ks)
    (hm : parseDnsQuery pkt udp = .ok (some m)) (hm' : parseDnsQuery pkt' udp' = .ok (some m')) :
    ((ls.map lower ≠ ks.map lower → m.qname ≠ m'.qname) ↔
      ls.map lower = ks.map lower ∨ pieces (ls.map lower) ≠ pieces (ks.map lower)) ∧
    ((∀ l ∈ ls, (46 : UInt8) ∉ l) → (∀ l ∈ ks, (46 : UInt8) ∉ l) →
      ls.map lower ≠ ks.map lower → m.qname ≠ m'.qname) ∧
    ∀ domain : CStr, m.qname = Control.normalizeDomain domain →
      pieces (ls.map lower) = (Control.normalizeDomain domain).splitOn 46 ∧
      ((∀ l ∈ ls, (46 : UInt8) ∉ l) →
        ls.map lower = (Control.normalizeDomain domain).splitOn 46) := by
  have htext := h.qname_eq_iff h' hm hm'
  refine ⟨⟨fun hdiff => ?_, fun hcond hne => ?_⟩, fun hls hks hne => ?_, fun domain hdomain => ?_⟩
  · by_cases hsame : ls.map lower = ks.map lower
    · exact .inl hsame
    · exact .inr (mt htext.mpr (hdiff hsame))
  · exact mt htext.mp (hcond.resolve_left hne)
  · rwa [ne_eq, htext, pieces_of_dotFree (dotFree_lower hls), pieces_of_dotFree (dotFree_lower hks)]
  · have hpieces : pieces (ls.map lower) = (Control.normalizeDomain domain).splitOn 46 := by
      rw [← hdomain, h.qname_eq hm, splitOn_dotted (by simpa using h.ne_nil)]
    refine ⟨hpieces, fun hls => ?_⟩
    rw [← hpieces, pieces_of_dotFree (dotFree_lower hls)]

/-- A datagram at offset 0 that asks for a name of five bytes on the wire. -/
def nameDatagram (name : List UInt8) : List UInt8 :=
  [48, 57, 0, 53, 0, 29, 0, 0, 18, 52, 1, 0, 0, 1, 0, 0, 0, 0, 0, 0] ++ name ++ [0, 1, 0, 1]

theorem isQuery_twoLabels : IsQuery (nameDatagram [1, 97, 1, 98, 0]) 0 [[97], [98]] where
  inFrame := by decide
  query := by decide
  questions := by decide
  count := by decide
  labels := by decide
  nameLen := by decide
  name := by decide
  fits := by decide

theorem isQuery_oneLabel (c : UInt8) : IsQuery (nameDatagram [3, 97, c, 98, 0]) 0 [[97, c, 98]] where
  inFrame := show (29 : Nat) ≤ 29 from le_rfl
  query := by
    have hflags : dnsFlags (nameDatagram [3, 97, c, 98, 0]) 0 = 256 := rfl
    rw [hflags]
    decide
  questions := by
    have hcount : fieldAt (nameDatagram [3, 97, c, 98, 0]) (0 + 12) = 1 := rfl
    rw [hcount]
    decide
  count := ⟨le_rfl, by simp⟩
  labels := by simp
  nameLen := by simp
  name := rfl
  fits := show (29 : Nat) ≤ 29 from le_rfl

/-- "a.b" of two labels and "acb" of one. -/
theorem names_distinct_sample :
    (decode (nameDatagram [1, 97, 1, 98, 0]) 0 [[97], [98]]).qname ≠
      (decode (nameDatagram [3, 97, 99, 98, 0]) 0 [[97, 99, 98]]).qname :=
  (names_distinct_iff _ _ 0 0 _ _ _ _ isQuery_twoLabels (isQuery_oneLabel 99)
    (parseDnsQuery_of_isQuery isQuery_twoLabels)
    (parseDnsQuery_of_isQuery (isQuery_oneLabel 99))).2.1 (by decide) (by decide) (by decide)

/-- The name of two labels "a" and "b" and the name of one label "a.b" have one text. -/
theorem dotted_label_merges :
    ¬ ∀ (pkt pkt' : List UInt8) (udp udp' : Nat) (ls ks : List (List UInt8)) (m m' : DnsQueryMeta),
      IsQuery pkt udp ls → IsQuery pkt' udp' ks → parseDnsQuery pkt udp = .ok (some m) →
        parseDnsQuery pkt' udp' = .ok (some m') → ls.map lower ≠ ks.map lower →
          m.qname ≠ m'.qname := fun hall =>
  hall _ _ 0 0 _ _ _ _ isQuery_twoLabels (isQuery_oneLabel 46)
    (parseDnsQuery_of_isQuery isQuery_twoLabels) (parseDnsQuery_of_isQuery (isQuery_oneLabel 46))
    (by decide) rfl

end Zereh.Xdp
