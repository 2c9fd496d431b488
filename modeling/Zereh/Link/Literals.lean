/-
  The string literals of the generated source.

  `literal` of the C lexer reads what `zereh_escape_c_string` wrote between two quotes, whatever
  stands behind it: it stops at the closing quote and denotes the string again
  (`literal_escapeCString`), and the literal stays on its line (`newline_not_mem_escapeCString`).
  `LengthsBeside`: behind every literal of a token list stand a comma and the number of its bytes.
  The tokens of the generated body have it for every configuration.
-/
import Zereh.Control.StringBuilder
import Zereh.Link.DispatchLex

namespace Zereh.Link

open Lib CText Control Xdp

/-! ## One literal -/

theorem literal_escapeCString {ι : Type} (words : List UInt8 → Option (Token ι))
    (s rest : List UInt8) :
    literal words .start (34 :: (escapeCString s ++ 34 :: rest)) = some (s, rest) := by
  have hquote : run words .start [34] = some (.str [], []) := rfl
  have hbody := run_append hquote (run_escapeCString words [] s)
  calc literal words .start (34 :: (escapeCString s ++ 34 :: rest))
      = literal words .start (([34] ++ escapeCString s) ++ 34 :: rest) := by simp
    _ = literal words (.str s) (34 :: rest) := literal_of_run hbody _
    _ = some (s, rest) := rfl

theorem newline_not_mem_escapeCString (s : List UInt8) : 10 ∉ escapeCString s := by
  intro h
  obtain ⟨c, -, hc⟩ := List.mem_flatMap.mp h
  unfold escapeByte at hc
  split_ifs at hc with h1 h2 h3 h4
  · rcases h1 with rfl | rfl <;> exact absurd hc (by decide)
  · exact absurd hc (by decide)
  · exact absurd hc (by decide)
  · exact absurd hc (by decide)
  · exact h2 (List.mem_singleton.mp hc).symm

/-! ## Literals and their lengths -/

/-- Behind every literal stand a comma and the number of its bytes. -/
def LengthsBeside (ts : Toks) : Prop :=
  ∀ before s after, ts = before ++ .str s :: after →
    [.punct .comma, .int s.length] <+: after

@[simp] theorem lengthsBeside_nil : LengthsBeside [] := by
  intro before s after h
  cases before <;> cases h

@[simp] theorem lengthsBeside_cons_iff {t : Token Name} {ts : Toks} :
    LengthsBeside (t :: ts) ↔
      (∀ s, t = .str s → [.punct .comma, .int s.length] <+: ts) ∧ LengthsBeside ts := by
  constructor
  · intro h
    refine ⟨fun s ht => h [] s ts (by rw [ht]; rfl), fun before s after hts => ?_⟩
    exact h (t :: before) s after (by rw [hts]; rfl)
  · rintro ⟨hhead, htail⟩ before s after h
    cases before with
    | nil =>
      obtain ⟨ht, rfl⟩ := List.cons.inj h
      exact hhead s ht
    | cons b before =>
      obtain ⟨-, hts⟩ := List.cons.inj h
      exact htail before s after hts

theorem LengthsBeside.append {ts us : Toks} (hts : LengthsBeside ts) (hus : LengthsBeside us) :
    LengthsBeside (ts ++ us) := by
  induction ts with
  | nil => exact hus
  | cons t ts ih =>
    obtain ⟨hhead, htail⟩ := lengthsBeside_cons_iff.mp hts
    refine lengthsBeside_cons_iff.mpr ⟨fun s ht => ?_, ih htail⟩
    exact (hhead s ht).trans (List.prefix_append ts us)

theorem lengthsBeside_flatMap {α : Type} {toks : α → Toks} (l : List α)
    (h : ∀ a, LengthsBeside (toks a)) : LengthsBeside (l.flatMap toks) := by
  induction l with
  | nil => exact lengthsBeside_nil
  | cons a l ih =>
    rw [List.flatMap_cons]
    exact (h a).append ih

theorem lengthsBeside_filterTokens (r : Route) (i : Nat) : LengthsBeside (filterTokens id r i) := by
  simp [filterTokens, dropBlock, CStr.len]

theorem lengthsBeside_actionTokens (r : Route) : LengthsBeside (actionTokens r) := by
  unfold actionTokens
  cases r.target <;> simp

theorem lengthsBeside_filterHead : LengthsBeside filterHead := by
  simp [filterHead]

theorem lengthsBeside_caseTokens (r : Route) (i : Nat) : LengthsBeside (caseTokens id r i) := by
  have hlabel : LengthsBeside [.kw .caseK, .int r.hash.toNat, .punct .colon] := by
    simp
  exact ((hlabel.append lengthsBeside_filterHead).append (lengthsBeside_filterTokens r i)).append
    (lengthsBeside_actionTokens r)

theorem lengthsBeside_ruleTokens (r : Route) (i : Nat) : LengthsBeside (ruleTokens id r i) := by
  unfold ruleTokens
  refine LengthsBeside.append (LengthsBeside.append (LengthsBeside.append
    (LengthsBeside.append ?_ lengthsBeside_filterHead) (lengthsBeside_filterTokens r i))
    (lengthsBeside_actionTokens r)) ?_
  · simp [CStr.len]
  · simp

theorem lengthsBeside_dispatchTokens (routes : List (Route × Nat)) :
    LengthsBeside (dispatchTokens id routes) := by
  unfold dispatchTokens
  refine LengthsBeside.append (LengthsBeside.append (LengthsBeside.append
    (LengthsBeside.append ?_ (lengthsBeside_flatMap routes fun ri =>
      lengthsBeside_caseTokens ri.1 ri.2)) ?_) (lengthsBeside_flatMap routes fun ri =>
      lengthsBeside_ruleTokens ri.1 ri.2)) ?_
  all_goals simp

/-- **Escaping cannot be broken out of.** For every C string and every further text, the quoted
    escape of the string is one literal that ends at its closing quote, has no newline in it and
    denotes the string, whatever names are in scope. The escape is what `zereh_escape_c_string`
    returns when its allocations succeed. In the generated body of every configuration each literal
    stands beside the number of bytes that it denotes. -/
theorem literals_exact :
    (∀ (words : List UInt8 → Option (Token Name)) (s : CStr) (rest : List UInt8),
      literal words .start (34 :: (escapeCString s.bytes ++ 34 :: rest)) = some (s.bytes, rest) ∧
        10 ∉ 34 :: (escapeCString s.bytes ++ [34])) ∧
    (∀ {σ : Type} (heap : Allocator σ) (s : CStr), heap.Grants →
      (escapeCString s.bytes).length + 1 ≤ sizeMax / 2 →
        YieldsSome (fun out => out.bytes = escapeCString s.bytes)
          (zerehEscapeCString heap (some s))) ∧
    ∀ cfg : Config, ∃ ts, lex (wordOf scope) (dispatchText cfg) = some ts ∧ LengthsBeside ts := by
  refine ⟨fun words s rest => ⟨literal_escapeCString words s.bytes rest, ?_⟩,
    fun heap s hheap hfit => zerehEscapeCString_eq hheap s hfit,
    fun cfg => ⟨_, lex_dispatchText cfg, lengthsBeside_dispatchTokens _⟩⟩
  intro h
  rcases List.mem_cons.mp h with h | h
  · exact absurd h (by decide)
  · rcases List.mem_append.mp h with h | h
    · exact newline_not_mem_escapeCString s.bytes h
    · exact absurd (List.mem_singleton.mp h) (by decide)

end Zereh.Link
