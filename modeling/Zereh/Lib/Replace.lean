/-
  Replacing a token in a text, and texts with holes.

  `strstr` finds the first occurrence of a token, `replaceAll` is the loop over it: copy up to the
  occurrence, put the replacement, go on behind it. `replaceAll_hit` and `replaceAll_miss` read the
  loop as a scan, with its induction rule `scan_induction`.

  `Pieces token text ps`: `ps` are the parts of the text between the leftmost occurrences that do
  not overlap. There is one such list (`exists_pieces`, `Pieces.unique`), and `replaceAll` joins it
  with the replacement (`Pieces.replaceAll_eq`).

  `Sealed token text`: no occurrence of the token reaches from `text` into what stands before or
  behind it. `Apart`: it has none inside either.

  A list of `Piece`s is a text with holes, `expand` puts a text into every hole. Replacing a token
  by a hole and then filling the holes is what replacing it by the text does, as long as the texts
  of the holes that are there already are apart from the token (`expand_replaceAll`,
  `substitute_expand`).
-/
import Mathlib.Data.List.Infix
import Mathlib.Data.List.Count
import Mathlib.Tactic.Common

namespace Lib

section Replace

variable {α : Type} [DecidableEq α]

/-- The offset of the first occurrence. -/
def strstr (token : List α) : List α → Option Nat
  | [] => if token = [] then some 0 else none
  | c :: cs => if token <+: c :: cs then some 0 else (strstr token cs).map (· + 1)

/-- The loop from a cursor on. -/
def replaceLoop (token replacement : List α) : Nat → List α → List α
  | 0, cursor => cursor
  | n + 1, cursor =>
    match strstr token cursor with
    | some hit =>
        cursor.take hit ++ replacement ++
          replaceLoop token replacement n (cursor.drop (hit + token.length))
    | none => cursor

/-- Every occurrence of the token, from left to right, gives way to the replacement. -/
def replaceAll (token replacement input : List α) : List α :=
  replaceLoop token replacement input.length input

/-! ## The loop as a scan -/

variable {t r : List α}

/-- A text is empty, or starts with the token, or has a first letter where the token does not
    stand. -/
theorem scan_induction (ht : t ≠ []) {motive : List α → Prop} (nil : motive [])
    (hit : ∀ rest, motive rest → motive (t ++ rest))
    (miss : ∀ c cs, ¬ t <+: c :: cs → motive cs → motive (c :: cs)) (l : List α) : motive l := by
  induction hn : l.length using Nat.strong_induction_on generalizing l with
  | h n ih =>
    cases l with
    | nil => exact nil
    | cons c cs =>
      rw [List.length_cons] at hn
      by_cases hprefix : t <+: c :: cs
      · obtain ⟨rest, hrest⟩ := hprefix
        have hlen := congrArg List.length hrest
        rw [List.length_append, List.length_cons] at hlen
        have hpos := List.length_pos_iff.mpr ht
        rw [← hrest]
        exact hit rest (ih rest.length (by omega) rest rfl)
      · exact miss c cs hprefix (ih cs.length (by omega) cs rfl)

theorem replaceLoop_nil (ht : t ≠ []) (n : Nat) : replaceLoop t r n [] = [] := by
  cases n with
  | zero => rfl
  | succ n => rw [replaceLoop, strstr, if_neg ht]

theorem replaceLoop_hit (ht : t ≠ []) (n : Nat) (rest : List α) :
    replaceLoop t r (n + 1) (t ++ rest) = r ++ replaceLoop t r n rest := by
  have hstr : strstr t (t ++ rest) = some 0 := by
    obtain ⟨c, cs, rfl⟩ := List.exists_cons_of_ne_nil ht
    exact if_pos (List.prefix_append (c :: cs) rest)
  rw [replaceLoop, hstr]
  simp only [List.take_zero, List.nil_append, Nat.zero_add, List.drop_left]

theorem replaceLoop_miss {c : α} {cs : List α} (h : ¬ t <+: c :: cs) (n : Nat) :
    replaceLoop t r (n + 1) (c :: cs) = c :: replaceLoop t r (n + 1) cs := by
  rw [replaceLoop, replaceLoop, strstr, if_neg h]
  cases strstr t cs with
  | none => rfl
  | some hit =>
    simp only [Option.map_some, List.take_succ_cons, List.cons_append, Nat.add_right_comm hit 1,
      List.drop_succ_cons]

/-- The rounds do not run out. -/
theorem replaceLoop_eq (ht : t ≠ []) {n : Nat} {l : List α} (hn : l.length ≤ n) :
    replaceLoop t r n l = replaceAll t r l := by
  unfold replaceAll
  suffices h : ∀ m, l.length ≤ m → replaceLoop t r n l = replaceLoop t r m l from h _ le_rfl
  have hpos := List.length_pos_iff.mpr ht
  induction l using scan_induction ht generalizing n with
  | nil =>
    intro m _
    rw [replaceLoop_nil ht, replaceLoop_nil ht]
  | hit rest ih =>
    intro m hm
    rw [List.length_append] at hn hm
    obtain ⟨n, rfl⟩ : ∃ n', n = n' + 1 := ⟨n - 1, by omega⟩
    obtain ⟨m, rfl⟩ : ∃ m', m = m' + 1 := ⟨m - 1, by omega⟩
    rw [replaceLoop_hit ht, replaceLoop_hit ht, ih (n := n) (by omega) m (by omega)]
  | miss c cs hmiss ih =>
    intro m hm
    rw [List.length_cons] at hn hm
    obtain ⟨n, rfl⟩ : ∃ n', n = n' + 1 := ⟨n - 1, by omega⟩
    obtain ⟨m, rfl⟩ : ∃ m', m = m' + 1 := ⟨m - 1, by omega⟩
    rw [replaceLoop_miss hmiss, replaceLoop_miss hmiss, ih (by omega) (m + 1) (by omega)]

theorem replaceAll_nil (ht : t ≠ []) : replaceAll t r [] = [] := replaceLoop_nil ht _

theorem replaceAll_hit (ht : t ≠ []) (rest : List α) :
    replaceAll t r (t ++ rest) = r ++ replaceAll t r rest := by
  have hpos := List.length_pos_iff.mpr ht
  have hlen : (t ++ rest).length ≤ (t ++ rest).length - 1 + 1 := by omega
  rw [← replaceLoop_eq ht hlen, replaceLoop_hit ht, replaceLoop_eq ht]
  rw [List.length_append]
  omega

theorem replaceAll_miss (ht : t ≠ []) {c : α} {cs : List α} (h : ¬ t <+: c :: cs) :
    replaceAll t r (c :: cs) = c :: replaceAll t r cs := by
  have hlen : cs.length ≤ cs.length + 1 := Nat.le_succ _
  rw [← replaceLoop_eq ht hlen, ← replaceLoop_miss h]
  rfl

theorem strstr_some {l : List α} {hit : Nat} (h : strstr t l = some hit) :
    hit ≤ l.length ∧ t <+: l.drop hit := by
  induction l generalizing hit with
  | nil =>
    rw [strstr] at h
    split_ifs at h with ht
    cases h
    exact ⟨Nat.le_refl _, by rw [ht]; exact List.nil_prefix⟩
  | cons c cs ih =>
    rw [strstr] at h
    split_ifs at h with hprefix
    · cases h
      exact ⟨Nat.zero_le _, hprefix⟩
    · obtain ⟨k, hk, rfl⟩ := Option.map_eq_some_iff.mp h
      obtain ⟨hle, hdrop⟩ := ih hk
      exact ⟨Nat.succ_le_succ hle, hdrop⟩

/-- One round of the loop, as it is written. -/
theorem replaceAll_round (ht : t ≠ []) (l : List α) :
    replaceAll t r l = match strstr t l with
      | some hit => l.take hit ++ r ++ replaceAll t r (l.drop (hit + t.length))
      | none => l := by
  rw [← replaceLoop_eq ht (Nat.le_succ l.length), replaceLoop]
  cases strstr t l with
  | none => rfl
  | some hit =>
    dsimp only
    rw [replaceLoop_eq ht (by rw [List.length_drop]; omega)]

/-! ## What the loop leaves -/

theorem replaceAll_eq_self (ht : t ≠ []) {l : List α} (h : ¬ t <:+: l) :
    replaceAll t r l = l := by
  induction l with
  | nil => exact replaceAll_nil ht
  | cons c cs ih =>
    rw [List.infix_cons_iff, not_or] at h
    rw [replaceAll_miss ht h.1, ih h.2]

/-- One round of the loop. -/
theorem exists_first (ht : t ≠ []) {l : List α} (h : t <:+: l) :
    ∃ before after, l = before ++ (t ++ after) ∧ ¬ t <:+: before ∧
      replaceAll t r l = before ++ (r ++ replaceAll t r after) := by
  induction l with
  | nil => exact absurd (List.infix_nil.mp h) ht
  | cons c cs ih =>
    by_cases hprefix : t <+: c :: cs
    · obtain ⟨after, hafter⟩ := hprefix
      refine ⟨[], after, hafter.symm, fun hnil => ht (List.infix_nil.mp hnil), ?_⟩
      rw [← hafter, replaceAll_hit ht, List.nil_append]
    · obtain ⟨before, after, rfl, hbefore, hreplace⟩ :=
        ih ((List.infix_cons_iff.mp h).resolve_left hprefix)
      refine ⟨c :: before, after, rfl, ?_, ?_⟩
      · rw [List.infix_cons_iff]
        rintro (hstart | hinner)
        · refine hprefix (hstart.trans ?_)
          rw [← List.cons_append]
          exact List.prefix_append ..
        · exact hbefore hinner
      · rw [replaceAll_miss ht hprefix, hreplace, List.cons_append]

theorem mem_replaceAll (ht : t ≠ []) {c : α} {l : List α} (h : c ∈ replaceAll t r l) :
    c ∈ r ∨ c ∈ l := by
  induction l using scan_induction ht with
  | nil =>
    rw [replaceAll_nil ht] at h
    cases h
  | hit rest ih =>
    rw [replaceAll_hit ht] at h
    rcases List.mem_append.mp h with h | h
    · exact .inl h
    · exact (ih h).imp_right (List.mem_append_right t)
  | miss d cs hmiss ih =>
    rw [replaceAll_miss ht hmiss] at h
    rcases List.mem_cons.mp h with rfl | h
    · exact .inr (.head _)
    · exact (ih h).imp_right (.tail d)

theorem count_le_replaceAll (ht : t ≠ []) {c : α} (hc : c ∉ t) (l : List α) :
    l.count c ≤ (replaceAll t r l).count c := by
  induction l using scan_induction ht with
  | nil => exact Nat.zero_le _
  | hit rest ih =>
    rw [replaceAll_hit ht, List.count_append, List.count_append, List.count_eq_zero.mpr hc]
    omega
  | miss d cs hmiss ih =>
    rw [replaceAll_miss ht hmiss, List.count_cons, List.count_cons]
    omega

/-- Letters that the token does not have pile up. -/
theorem count_lt_replaceAll (ht : t ≠ []) {c : α} (hc : c ∉ t) (hr : c ∈ r) {l : List α}
    (h : t <:+: l) : l.count c < (replaceAll t r l).count c := by
  obtain ⟨before, after, rfl, -, hreplace⟩ := exists_first ht (r := r) h
  have hafter := count_le_replaceAll ht hc (r := r) after
  have hpos := List.count_pos_iff.mpr hr
  rw [hreplace]
  simp only [List.count_append, List.count_eq_zero.mpr hc]
  omega

/-! ## Pieces -/

/-- A text cut at the leftmost occurrence of the token, and its rest in the same way. -/
inductive Pieces (token : List α) : List α → List (List α) → Prop where
  | last {text : List α} (hfree : ¬ token <:+: text) : Pieces token text [text]
  | cut {text before after : List α} {ps : List (List α)}
      (htext : text = before ++ (token ++ after))
      (hfirst : ∀ k < before.length, ¬ token <+: text.drop k) (hrest : Pieces token after ps) :
      Pieces token text (before :: ps)

theorem exists_pieces (ht : t ≠ []) (l : List α) : ∃ ps, Pieces t l ps := by
  induction l using scan_induction ht with
  | nil => exact ⟨_, .last fun h => ht (List.infix_nil.mp h)⟩
  | hit rest ih =>
    obtain ⟨ps, hps⟩ := ih
    exact ⟨[] :: ps, .cut rfl (fun k hk => absurd hk (Nat.not_lt_zero k)) hps⟩
  | miss c cs hmiss ih =>
    obtain ⟨ps, hps⟩ := ih
    cases hps with
    | last hfree => exact ⟨_, .last fun h => (List.infix_cons_iff.mp h).elim hmiss hfree⟩
    | @cut _ before _ ps htext hfirst hrest =>
      refine ⟨(c :: before) :: ps, .cut (by rw [htext]; rfl) (fun k hk => ?_) hrest⟩
      cases k with
      | zero => exact hmiss
      | succ k => exact hfirst k (Nat.lt_of_succ_lt_succ hk)

omit [DecidableEq α] in
/-- The leftmost occurrence is one place. -/
theorem Pieces.unique {l : List α} {ps qs : List (List α)} (hps : Pieces t l ps)
    (hqs : Pieces t l qs) : ps = qs := by
  induction hps generalizing qs with
  | last hfree =>
    cases hqs with
    | last => rfl
    | cut htext => exact absurd (htext ▸ List.infix_append' ..) hfree
  | @cut text before after ps htext hfirst hrest ih =>
    cases hqs with
    | last hfree => exact absurd (htext ▸ List.infix_append' ..) hfree
    | @cut _ before' after' qs htext' hfirst' hrest' =>
      -- the shorter of the two parts ends at an occurrence, so neither is shorter
      have hat : t <+: text.drop before.length := by
        rw [htext, List.drop_left]
        exact List.prefix_append ..
      have hat' : t <+: text.drop before'.length := by
        rw [htext', List.drop_left]
        exact List.prefix_append ..
      have hle : before.length ≤ before'.length := Nat.not_lt.mp fun h => hfirst _ h hat'
      have hge : before'.length ≤ before.length := Nat.not_lt.mp fun h => hfirst' _ h hat
      have hlen := Nat.le_antisymm hle hge
      obtain ⟨rfl, hrest''⟩ := List.append_inj (htext.symm.trans htext') hlen
      obtain rfl := List.append_cancel_left hrest''
      rw [ih hrest']

omit [DecidableEq α] in
theorem Pieces.ne_nil {l : List α} {ps : List (List α)} (h : Pieces t l ps) : ps ≠ [] := by
  cases h <;> exact List.cons_ne_nil _ _

/-- Copied up to the leftmost occurrence, replaced there, and on behind it. -/
theorem replaceAll_of_first (ht : t ≠ []) {before after : List α}
    (hfirst : ∀ k < before.length, ¬ t <+: (before ++ (t ++ after)).drop k) :
    replaceAll t r (before ++ (t ++ after)) = before ++ r ++ replaceAll t r after := by
  induction before with
  | nil => exact replaceAll_hit ht after
  | cons c before ih =>
    have hmiss : ¬ t <+: c :: (before ++ (t ++ after)) := hfirst 0 (Nat.zero_lt_succ _)
    rw [List.cons_append, replaceAll_miss ht hmiss,
      ih fun k hk => hfirst (k + 1) (Nat.succ_lt_succ hk)]
    rfl

/-- Replacing joins the pieces by the replacement. -/
theorem Pieces.replaceAll_eq (ht : t ≠ []) {l : List α} {ps : List (List α)} (h : Pieces t l ps) :
    replaceAll t r l = r.intercalate ps := by
  induction h with
  | last hfree => rw [replaceAll_eq_self ht hfree, List.intercalate_singleton]
  | @cut text before after ps htext hfirst hrest ih =>
    subst htext
    rw [replaceAll_of_first ht hfirst, ih, List.intercalate_cons_of_ne_nil hrest.ne_nil]

/-! ## Tokens and their neighbours -/

omit [DecidableEq α] in
/-- A letter that the token does not have separates. -/
theorem infix_append_cons_iff {c : α} (hc : c ∉ t) (a b : List α) :
    t <:+: a ++ c :: b ↔ t <:+: a ∨ t <:+: b := by
  constructor
  · intro h
    rcases List.infix_append_iff_ne_nil.mp h with h | h | ⟨x, y, -, hy, rfl, -, hprefix⟩
    · exact .inl h
    · rcases List.infix_cons_iff.mp h with h | h
      · cases t with
        | nil => exact .inl (List.nil_infix)
        | cons d t => exact absurd (List.cons_prefix_cons.mp h).1.symm (fun h => hc (h ▸ .head _))
      · exact .inr h
    · cases y with
      | nil => exact absurd rfl hy
      | cons d y =>
        obtain ⟨rfl, -⟩ := List.cons_prefix_cons.mp hprefix
        exact absurd (List.mem_append_right x (.head _)) hc
  · rintro (h | h)
    · exact List.infix_append_of_infix_left h
    · exact List.infix_append_of_infix_right (List.infix_cons h)

/-- No occurrence of the token overlaps the ends of the text. -/
structure Sealed (token text : List α) : Prop where
  ne : text ≠ []
  left : ∀ k < token.length, 0 < k → ¬ token.drop k <+: text ∧ ¬ text <+: token.drop k
  right : ∀ k < text.length, ¬ text.drop k <+: token

/-- Sealed, and without an occurrence inside. -/
structure Apart (token text : List α) : Prop extends Sealed token text where
  free : ¬ token <:+: text

omit [DecidableEq α] in
/-- Letters at both ends that the token does not have. -/
theorem Sealed.of_ends {c d : α} {text : List α} (hfirst : text.head? = some c) (hc : c ∉ t)
    (hlast : text.getLast? = some d) (hd : d ∉ t) : Sealed t text where
  ne := by
    rintro rfl
    cases hfirst
  left k hk _ := by
    obtain ⟨text, rfl⟩ := List.head?_eq_some_iff.mp hfirst
    rw [List.drop_eq_getElem_cons hk]
    constructor
    · intro h
      exact hc ((List.cons_prefix_cons.mp h).1 ▸ List.getElem_mem hk)
    · intro h
      exact hc ((List.cons_prefix_cons.mp h).1.symm ▸ List.getElem_mem hk)
  right k hk h := by
    obtain ⟨text, rfl⟩ := List.getLast?_eq_some_iff.mp hlast
    have hmem : d ∈ (text ++ [d]).drop k := by
      rw [List.length_append, List.length_singleton] at hk
      rw [List.drop_append_of_le_length (by omega)]
      exact List.mem_append_right _ (.head _)
    exact hd (h.subset hmem)

omit [DecidableEq α] in
/-- A text that shares no letter with the token. -/
theorem Apart.of_disjoint (ht : t ≠ []) {text : List α} (hne : text ≠ [])
    (h : ∀ c ∈ text, c ∉ t) : Apart t text where
  toSealed := Sealed.of_ends (List.head?_eq_some_head hne) (h _ (List.head_mem hne))
    (List.getLast?_eq_some_getLast hne) (h _ (List.getLast_mem hne))
  free hin := h _ (hin.subset (List.head_mem ht)) (List.head_mem ht)

omit [DecidableEq α] in
theorem Sealed.infix_cases {text a b : List α} (h : Sealed t text)
    (hin : t <:+: a ++ (text ++ b)) : t <:+: a ∨ t <:+: text ∨ t <:+: b := by
  rcases List.infix_append_iff_ne_nil.mp hin with hin | hin | ⟨x, y, hx, hy, rfl, -, hprefix⟩
  · exact .inl hin
  · rcases List.infix_append_iff_ne_nil.mp hin with hin | hin | ⟨x, y, hx, -, rfl, hsuffix, -⟩
    · exact .inr (.inl hin)
    · exact .inr (.inr hin)
    · -- the occurrence starts in the text and goes on behind it
      have hlen := hsuffix.length_le
      have hpos := List.length_pos_iff.mpr hx
      have hright := h.right (text.length - x.length) (by omega)
      rw [← List.suffix_iff_eq_drop.mp hsuffix] at hright
      exact absurd (List.prefix_append x y) hright
  · -- it starts before the text
    have hpos := List.length_pos_iff.mpr hy
    have hleft := h.left x.length (by rw [List.length_append]; omega) (List.length_pos_iff.mpr hx)
    rw [List.drop_left] at hleft
    rcases List.prefix_or_prefix_of_prefix hprefix (List.prefix_append text b) with hp | hp
    · exact absurd hp hleft.1
    · exact absurd hp hleft.2

omit [DecidableEq α] in
theorem Apart.infix_cases {text a b : List α} (h : Apart t text)
    (hin : t <:+: a ++ (text ++ b)) : t <:+: a ∨ t <:+: b := by
  rcases h.toSealed.infix_cases hin with hin | hin | hin
  · exact .inl hin
  · exact absurd hin h.free
  · exact .inr hin

/-- The scan goes through a sealed text and starts anew behind it. -/
theorem Sealed.replaceAll_append (ht : t ≠ []) {text : List α} (h : Sealed t text) (rest : List α) :
    replaceAll t r (text ++ rest) = replaceAll t r text ++ replaceAll t r rest := by
  suffices hsuffix : ∀ s, s <:+ text →
      replaceAll t r (s ++ rest) = replaceAll t r s ++ replaceAll t r rest from
    hsuffix text (List.suffix_refl text)
  intro s
  induction s using scan_induction ht with
  | nil => intro _; rw [replaceAll_nil ht, List.nil_append, List.nil_append]
  | hit s ih =>
    intro hs
    rw [List.append_assoc, replaceAll_hit ht, replaceAll_hit ht, List.append_assoc,
      ih ((List.suffix_append t s).trans hs)]
  | miss c s hmiss ih =>
    intro hs
    have hmiss' : ¬ t <+: c :: (s ++ rest) := by
      intro hprefix
      rcases List.prefix_or_prefix_of_prefix hprefix (List.prefix_append (c :: s) rest) with hp | hp
      · exact hmiss hp
      · have hlen := hs.length_le
        rw [List.length_cons] at hlen
        refine h.right (text.length - (c :: s).length) (by rw [List.length_cons]; omega) ?_
        rw [← List.suffix_iff_eq_drop.mp hs]
        exact hp
    rw [List.cons_append, replaceAll_miss ht hmiss', replaceAll_miss ht hmiss, List.cons_append,
      ih ((List.suffix_cons c s).trans hs)]

omit [DecidableEq α] in
/-- An occurrence in front of a letter that it does not have ends before that letter. -/
theorem prefix_append_cons {c : α} (hc : c ∉ t) {a b : List α} (h : t <+: a ++ c :: b) : t <+: a := by
  have hsplit : a ++ c :: b = (a ++ [c]) ++ b := List.append_cons a c b
  rw [hsplit] at h
  rcases List.prefix_or_prefix_of_prefix h (List.prefix_append (a ++ [c]) b) with hp | hp
  · rcases List.prefix_concat_iff.mp hp with rfl | hp
    · exact absurd (List.mem_append_right a (.head _)) hc
    · exact hp
  · exact absurd (hp.subset (List.mem_append_right a (.head _))) hc

/-- The scan starts anew behind a letter that the token does not have. -/
theorem replaceAll_append_cons (ht : t ≠ []) {c : α} (hc : c ∉ t) (a b : List α) :
    replaceAll t r (a ++ c :: b) = replaceAll t r a ++ c :: replaceAll t r b := by
  induction a using scan_induction ht with
  | nil =>
    have hmiss : ¬ t <+: c :: b := fun h => ht (List.prefix_nil.mp (prefix_append_cons (a := []) hc h))
    rw [replaceAll_nil ht, List.nil_append, List.nil_append, replaceAll_miss ht hmiss]
  | hit rest ih =>
    rw [List.append_assoc, replaceAll_hit ht, replaceAll_hit ht, ih, List.append_assoc]
  | miss d cs hmiss ih =>
    have hmiss' : ¬ t <+: d :: (cs ++ c :: b) := fun h => hmiss (prefix_append_cons (a := d :: cs) hc h)
    rw [List.cons_append, replaceAll_miss ht hmiss', replaceAll_miss ht hmiss, ih, List.cons_append]

/-- An occurrence behind the loop, of a token that is apart from the replacement, was there before,
    off the places that were replaced. -/
theorem exists_infix_of_replaceAll (ht : t ≠ []) {u : List α} (h : Apart u r) {l : List α}
    (hin : u <:+: replaceAll t r l) : ∃ p, u <:+: p ∧ p <:+: l ∧ ¬ t <:+: p := by
  induction hn : l.length using Nat.strong_induction_on generalizing l with
  | h n ih =>
    by_cases hl : t <:+: l
    · obtain ⟨before, after, rfl, hbefore, hreplace⟩ := exists_first ht (r := r) hl
      rw [hreplace] at hin
      rcases h.infix_cases hin with hin | hin
      · exact ⟨before, hin, List.infix_append_left, hbefore⟩
      · have hpos := List.length_pos_iff.mpr ht
        rw [List.length_append, List.length_append] at hn
        obtain ⟨p, hu, hp, hfree⟩ := ih after.length (by omega) hin rfl
        refine ⟨p, hu, hp.trans ?_, hfree⟩
        exact List.infix_append_of_infix_right List.infix_append_right
    · rw [replaceAll_eq_self ht hl] at hin
      exact ⟨l, hin, List.infix_refl l, hl⟩

end Replace

/-! ## Texts with holes -/

/-- A letter of a text, or a hole. -/
inductive Piece (α η : Type) where
  | text (c : α)
  | hole (h : η)
  deriving DecidableEq

/-- Fill the holes. -/
def expand {α η : Type} (f : η → List α) (pieces : List (Piece α η)) : List α :=
  pieces.flatMap fun
    | .text c => [c]
    | .hole h => f h

section Expand

variable {α η : Type} {f g : η → List α} {t : List α}

@[simp] theorem expand_nil : expand f [] = [] := rfl

@[simp] theorem expand_text_cons (c : α) (ps : List (Piece α η)) :
    expand f (.text c :: ps) = c :: expand f ps := rfl

@[simp] theorem expand_hole_cons (h : η) (ps : List (Piece α η)) :
    expand f (.hole h :: ps) = f h ++ expand f ps := rfl

theorem expand_append (ps qs : List (Piece α η)) :
    expand f (ps ++ qs) = expand f ps ++ expand f qs :=
  List.flatMap_append

@[simp] theorem expand_map_text (l : List α) : expand f (l.map .text) = l := by
  induction l with
  | nil => rfl
  | cons c l ih => rw [List.map_cons, expand_text_cons, ih]

theorem hole_not_mem_map_text (h : η) (l : List α) : Piece.hole h ∉ l.map Piece.text := by
  intro hmem
  obtain ⟨c, -, hc⟩ := List.mem_map.mp hmem
  cases hc

theorem infix_expand {h : η} {ps : List (Piece α η)} (hmem : .hole h ∈ ps) :
    f h <:+: expand f ps := by
  obtain ⟨a, b, rfl⟩ := List.append_of_mem hmem
  rw [expand_append, expand_hole_cons]
  exact List.infix_append' ..

theorem map_text_ne_nil (ht : t ≠ []) : t.map (Piece.text : α → Piece α η) ≠ [] :=
  fun h => ht (List.map_eq_nil_iff.mp h)

/-- A token whose first letters stand in the text cannot end in a hole. -/
theorem map_text_prefix_of_expand {ps : List (Piece α η)}
    (hs : ∀ h, .hole h ∈ ps → Sealed t (f h)) {x y : List α} (hxy : t = x ++ y) (hx : x ≠ [])
    (h : y <+: expand f ps) : y.map .text <+: ps := by
  induction ps generalizing x y with
  | nil =>
    rw [expand_nil, List.prefix_nil] at h
    rw [h]
    exact List.nil_prefix
  | cons p ps ih =>
    cases y with
    | nil => exact List.nil_prefix
    | cons d y =>
      cases p with
      | text c =>
        obtain ⟨rfl, hrest⟩ := List.cons_prefix_cons.mp h
        refine List.cons_prefix_cons.mpr ⟨rfl, ?_⟩
        exact ih (fun h hmem => hs h (.tail _ hmem)) (x := x ++ [d]) (by simp [hxy]) (by simp) hrest
      | hole k =>
        have hleft := (hs k (.head _)).left x.length
          (by rw [hxy, List.length_append, List.length_cons]; omega) (List.length_pos_iff.mpr hx)
        rw [hxy, List.drop_left] at hleft
        rcases List.prefix_or_prefix_of_prefix h (List.prefix_append (f k) (expand f ps)) with hp | hp
        · exact absurd hp hleft.1
        · exact absurd hp hleft.2

variable [DecidableEq α]

theorem count_expand_le {c : α} (h : ∀ h, (f h).count c ≤ (g h).count c) (ps : List (Piece α η)) :
    (expand f ps).count c ≤ (expand g ps).count c := by
  induction ps with
  | nil => exact le_rfl
  | cons p ps ih =>
    cases p with
    | text d =>
      rw [expand_text_cons, expand_text_cons, List.count_cons, List.count_cons]
      omega
    | hole k =>
      have hk := h k
      rw [expand_hole_cons, expand_hole_cons, List.count_append, List.count_append]
      omega

theorem count_expand_lt {c : α} (h : ∀ h, (f h).count c ≤ (g h).count c) {k : η}
    (hk : (f k).count c < (g k).count c) {ps : List (Piece α η)} (hmem : .hole k ∈ ps) :
    (expand f ps).count c < (expand g ps).count c := by
  obtain ⟨a, b, rfl⟩ := List.append_of_mem hmem
  have ha := count_expand_le h a
  have hb := count_expand_le h b
  simp only [expand_append, expand_hole_cons, List.count_append]
  omega

variable [DecidableEq η]

/-- One replacement, on a text with its holes filled. The texts in the holes are rewritten too,
    each by itself. -/
theorem expand_replaceAll (ht : t ≠ []) {h : η} (hh : g h = f h) {ps : List (Piece α η)}
    (hs : ∀ k, .hole k ∈ ps → Sealed t (f k) ∧ replaceAll t (f h) (f k) = g k) :
    replaceAll t (f h) (expand f ps) = expand g (replaceAll (t.map .text) [.hole h] ps) := by
  have hne : t.map (Piece.text : α → Piece α η) ≠ [] := map_text_ne_nil ht
  induction ps using scan_induction hne with
  | nil => rw [expand_nil, replaceAll_nil ht, replaceAll_nil hne, expand_nil]
  | hit ps ih =>
    rw [expand_append, expand_map_text, replaceAll_hit ht, replaceAll_hit hne,
      List.singleton_append, expand_hole_cons, hh,
      ih fun k hk => hs k (List.mem_append_right _ hk)]
  | miss p ps hmiss ih =>
    have hrest := ih fun k hk => hs k (.tail _ hk)
    rw [replaceAll_miss hne hmiss]
    cases p with
    | text c =>
      have hmiss' : ¬ t <+: c :: expand f ps := by
        intro hprefix
        obtain ⟨d, t, rfl⟩ := List.exists_cons_of_ne_nil ht
        obtain ⟨rfl, htail⟩ := List.cons_prefix_cons.mp hprefix
        refine hmiss (List.cons_prefix_cons.mpr ⟨rfl, ?_⟩)
        exact map_text_prefix_of_expand (fun k hk => (hs k (.tail _ hk)).1) (x := [d]) rfl
          (List.cons_ne_nil d []) htail
      rw [expand_text_cons, replaceAll_miss ht hmiss', expand_text_cons, hrest]
    | hole k =>
      obtain ⟨hsealed, hk⟩ := hs k (.head _)
      rw [expand_hole_cons, hsealed.replaceAll_append ht, hk, expand_hole_cons, hrest]

theorem hole_mem_replaceAll (ht : t ≠ []) {h k : η} {ps : List (Piece α η)} (hmem : .hole k ∈ ps) :
    .hole k ∈ replaceAll (t.map .text) [.hole h] ps := by
  have hne : t.map (Piece.text : α → Piece α η) ≠ [] := map_text_ne_nil ht
  induction ps using scan_induction hne with
  | nil => cases hmem
  | hit ps ih =>
    rw [replaceAll_hit hne]
    exact .tail _ (ih ((List.mem_append.mp hmem).resolve_left (hole_not_mem_map_text k t)))
  | miss p ps hmiss ih =>
    rw [replaceAll_miss hne hmiss]
    rcases List.mem_cons.mp hmem with rfl | hmem
    · exact .head _
    · exact .tail _ (ih hmem)

theorem hole_of_mem_replaceAll (ht : t ≠ []) {h k : η} {ps : List (Piece α η)}
    (hmem : .hole k ∈ replaceAll (t.map .text) [.hole h] ps) : k = h ∨ .hole k ∈ ps := by
  have hne : t.map (Piece.text : α → Piece α η) ≠ [] := map_text_ne_nil ht
  induction ps using scan_induction hne with
  | nil =>
    rw [replaceAll_nil hne] at hmem
    cases hmem
  | hit ps ih =>
    rw [replaceAll_hit hne] at hmem
    rcases List.mem_cons.mp hmem with heq | hmem
    · cases heq
      exact .inl rfl
    · exact (ih hmem).imp_right (List.mem_append_right _)
  | miss p ps hmiss ih =>
    rw [replaceAll_miss hne hmiss] at hmem
    rcases List.mem_cons.mp hmem with rfl | hmem
    · exact .inr (.head _)
    · exact (ih hmem).imp_right (.tail _)

/-- Letters that neither the token nor the new text has. -/
theorem count_expand_replaceAll (ht : t ≠ []) {h : η} {c : α} (hc : c ∉ t) (hh : c ∉ f h)
    (ps : List (Piece α η)) :
    (expand f (replaceAll (t.map .text) [.hole h] ps)).count c = (expand f ps).count c := by
  have hne : t.map (Piece.text : α → Piece α η) ≠ [] := map_text_ne_nil ht
  induction ps using scan_induction hne with
  | nil => rw [replaceAll_nil hne]
  | hit ps ih =>
    rw [replaceAll_hit hne, List.singleton_append, expand_hole_cons, expand_append, expand_map_text,
      List.count_append, List.count_append, List.count_eq_zero.mpr hc, List.count_eq_zero.mpr hh, ih]
  | miss p ps hmiss ih =>
    rw [replaceAll_miss hne hmiss, ← List.singleton_append, expand_append, List.count_append, ih,
      ← List.count_append, ← expand_append, List.singleton_append]

end Expand

/-! ## Passes -/

section Passes

variable {α η : Type} [DecidableEq α] [DecidableEq η] (token f : η → List α)

/-- One replacement after the other. -/
def substitute (passes : List η) (l : List α) : List α :=
  passes.foldl (fun l p => replaceAll (token p) (f p) l) l

/-- The same with holes: what a pass puts is out of reach of the later ones. -/
def markAll (passes : List η) (ps : List (Piece α η)) : List (Piece α η) :=
  passes.foldl (fun ps p => replaceAll ((token p).map .text) [.hole p] ps) ps

variable {token f} (htoken : ∀ p, token p ≠ [])

include htoken

theorem hole_mem_markAll {k : η} (passes : List η) {ps : List (Piece α η)} (h : .hole k ∈ ps) :
    .hole k ∈ markAll token passes ps := by
  induction passes generalizing ps with
  | nil => exact h
  | cons p passes ih => exact ih (hole_mem_replaceAll (htoken p) h)

theorem hole_of_mem_markAll {k : η} (passes : List η) {ps : List (Piece α η)}
    (h : .hole k ∈ markAll token passes ps) : k ∈ passes ∨ .hole k ∈ ps := by
  induction passes generalizing ps with
  | nil => exact .inr h
  | cons p passes ih =>
    rcases ih h with hk | hk
    · exact .inl (.tail _ hk)
    · rcases hole_of_mem_replaceAll (htoken p) hk with rfl | hk
      · exact .inl (.head _)
      · exact .inr hk

/-- The passes are simultaneous when no text that is put is touched by a later token. -/
theorem substitute_expand (passes : List η) {ps : List (Piece α η)}
    (hps : ∀ k, .hole k ∈ ps → ∀ p ∈ passes, Apart (token p) (f k))
    (hlater : passes.Pairwise fun p q =>
      .hole p ∈ markAll token passes ps → Apart (token q) (f p)) :
    substitute token f passes (expand f ps) = expand f (markAll token passes ps) := by
  induction passes generalizing ps with
  | nil => rfl
  | cons p passes ih =>
    have hone : replaceAll (token p) (f p) (expand f ps) =
        expand f (replaceAll ((token p).map .text) [.hole p] ps) := by
      refine expand_replaceAll (htoken p) rfl fun k hk => ?_
      have hapart := hps k hk p (.head _)
      exact ⟨hapart.toSealed, replaceAll_eq_self (htoken p) hapart.free⟩
    obtain ⟨hp, hrest⟩ := List.pairwise_cons.mp hlater
    have hmarked : ∀ k, .hole k ∈ replaceAll ((token p).map .text) [.hole p] ps →
        ∀ q ∈ passes, Apart (token q) (f k) := by
      intro k hk q hq
      rcases hole_of_mem_replaceAll (htoken p) hk with rfl | hold
      · exact hp q hq (hole_mem_markAll htoken passes hk)
      · exact hps k hold q (.tail _ hq)
    have hrun := ih hmarked hrest
    rw [← hone] at hrun
    exact hrun

omit [DecidableEq η] in
theorem substitute_eq_self (passes : List η) {l : List α} (h : ∀ p ∈ passes, ¬ token p <:+: l) :
    substitute token f passes l = l := by
  induction passes with
  | nil => rfl
  | cons p passes ih =>
    unfold substitute
    rw [List.foldl_cons, replaceAll_eq_self (htoken p) (h p (.head _))]
    exact ih fun q hq => h q (.tail _ hq)

omit [DecidableEq η] in
/-- The parts of a text on both sides of a letter that no token has are substituted on their own. -/
theorem substitute_append_cons {c : α} (passes : List η) (hc : ∀ p ∈ passes, c ∉ token p)
    (a b : List α) :
    substitute token f passes (a ++ c :: b) =
      substitute token f passes a ++ c :: substitute token f passes b := by
  induction passes generalizing a b with
  | nil => rfl
  | cons p passes ih =>
    unfold substitute
    rw [List.foldl_cons, replaceAll_append_cons (htoken p) (hc p (.head _))]
    exact ih (fun q hq => hc q (.tail _ hq)) _ _

omit [DecidableEq η] in
theorem not_infix_substitute_of {u : List α} (passes : List η)
    (hapart : ∀ q ∈ passes, Apart u (f q)) {l : List α} (hl : ¬ u <:+: l) :
    ¬ u <:+: substitute token f passes l := by
  induction passes generalizing l with
  | nil => exact hl
  | cons p passes ih =>
    refine ih (fun q hq => hapart q (.tail _ hq)) fun hin => ?_
    obtain ⟨piece, hu, hpiece, -⟩ :=
      exists_infix_of_replaceAll (htoken p) (hapart p (.head _)) hin
    exact hl (hu.trans hpiece)

omit [DecidableEq η] in
/-- No token of a pass is left. -/
theorem not_infix_substitute (passes : List η)
    (hapart : ∀ p ∈ passes, ∀ q ∈ passes, Apart (token p) (f q)) {p : η} (hp : p ∈ passes)
    (l : List α) : ¬ token p <:+: substitute token f passes l := by
  induction passes generalizing l with
  | nil => cases hp
  | cons q passes ih =>
    rcases List.mem_cons.mp hp with rfl | hp
    · refine not_infix_substitute_of htoken passes
        (fun q hq => hapart p (.head _) q (.tail _ hq)) fun hin => ?_
      obtain ⟨piece, hu, -, hfree⟩ :=
        exists_infix_of_replaceAll (htoken p) (hapart p (.head _) p (.head _)) hin
      exact hfree hu
    · exact ih (fun p hp q hq => hapart p (.tail _ hp) q (.tail _ hq)) hp _

omit [DecidableEq η] in
theorem count_le_substitute {c : α} (passes : List η) (hc : ∀ p ∈ passes, c ∉ token p)
    (l : List α) : l.count c ≤ (substitute token f passes l).count c := by
  induction passes generalizing l with
  | nil => exact le_rfl
  | cons p passes ih =>
    exact (count_le_replaceAll (htoken p) (hc p (.head _)) l).trans
      (ih (fun q hq => hc q (.tail _ hq)) _)

theorem count_expand_markAll {c : α} (passes : List η)
    (hc : ∀ p ∈ passes, c ∉ token p ∧ c ∉ f p) (ps : List (Piece α η)) :
    (expand f (markAll token passes ps)).count c = (expand f ps).count c := by
  induction passes generalizing ps with
  | nil => rfl
  | cons p passes ih =>
    obtain ⟨htok, hf⟩ := hc p (.head _)
    rw [← count_expand_replaceAll (htoken p) htok hf ps]
    exact ih (fun q hq => hc q (.tail _ hq)) _

end Passes

end Lib
