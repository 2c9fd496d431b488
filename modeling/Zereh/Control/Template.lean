/-
  The placeholders of the template.

  `simultaneous` is what the substitution is for: the places of the nine placeholders are taken
  from the template alone, and the generated values are put in when all of them are known. The
  program replaces one placeholder after the other, so a later pass also sees the text that an
  earlier one has put.

  Numbers and actions have no room for a placeholder. The two generated texts have: the only bytes
  of theirs that a configuration chooses are the quoted strings (`infix_routeCases_iff`,
  `infix_fallbackRules_iff`), and quoting does not change a placeholder. The source is the
  simultaneous one exactly when these strings are free of the later placeholders
  (`generated_simultaneous_iff`).
-/
import Zereh.Control.Accepted
import Zereh.Control.Codegen

namespace Zereh.Control

open Lib CText

/-! ## Placeholders -/

/-- The placeholders in the order of their passes. -/
inductive Placeholder where
  | routeCases
  | fallbackRules
  | maxPacketSize
  | allowedOpcodeMask
  | dropTruncated
  | defaultAction
  | inlineChecksums
  | hashAlgo
  | rateStateEntries
  deriving DecidableEq

def Placeholder.token : Placeholder → List UInt8
  | .routeCases => ascii "/*__ZEREH_ROUTE_CASES__*/"
  | .fallbackRules => ascii "/*__ZEREH_FALLBACK_RULES__*/"
  | .maxPacketSize => ascii "__ZEREH_MAX_PACKET_SIZE__"
  | .allowedOpcodeMask => ascii "__ZEREH_ALLOWED_OPCODE_MASK__"
  | .dropTruncated => ascii "__ZEREH_DROP_TRUNCATED__"
  | .defaultAction => ascii "__ZEREH_DEFAULT_ACTION__"
  | .inlineChecksums => ascii "__ZEREH_INLINE_CHECKSUMS__"
  | .hashAlgo => ascii "__ZEREH_HASH_ALGO__"
  | .rateStateEntries => ascii "__ZEREH_RATE_STATE_ENTRIES__"

/-- The generated value. -/
def placeholderValue (cfg : Config) : Placeholder → List UInt8
  | .routeCases => generateRouteCases cfg
  | .fallbackRules => generateFallbackRules cfg
  | .maxPacketSize => decimal cfg.maxPacketSize.toNat
  | .allowedOpcodeMask => decimal cfg.allowedOpcodeMask.toNat
  | .dropTruncated => decimal (if cfg.dropTruncated then 1 else 0)
  | .defaultAction => if cfg.defaultAction = .drop then ascii "XDP_DROP" else ascii "XDP_PASS"
  | .inlineChecksums => decimal (if cfg.inlineChecksums then 1 else 0)
  | .hashAlgo => decimal (if cfg.hashAlgo = .siphash then 1 else 0)
  | .rateStateEntries => decimal (if cfg.routes.length = 0 then 1 else cfg.routes.length)

/-- The placeholders of the macros at the top of the template. -/
def macroPlaceholders : List Placeholder :=
  [.maxPacketSize, .allowedOpcodeMask, .dropTruncated, .defaultAction, .inlineChecksums, .hashAlgo,
    .rateStateEntries]

def passes : List Placeholder := .routeCases :: .fallbackRules :: macroPlaceholders

/-- The template with its placeholders taken out. -/
def marked (template : List UInt8) : List (Piece UInt8 Placeholder) :=
  markAll Placeholder.token passes (template.map .text)

/-- Every placeholder of the template itself gives way to its value. -/
def simultaneous (cfg : Config) (template : List UInt8) : List UInt8 :=
  expand (placeholderValue cfg) (marked template)

/-- The template has a place for this value. -/
def Splices (template : List UInt8) (p : Placeholder) : Prop := .hole p ∈ marked template

theorem generateXdpSource_eq (cfg : Config) (content : List UInt8) :
    generateXdpSource cfg (some content) true =
      .ok (substitute Placeholder.token (placeholderValue cfg) passes
        (CStr.ofBytes content).bytes) := by
  simp only [generateXdpSource, substitute, passes, macroPlaceholders, List.foldl_cons,
    List.foldl_nil, Placeholder.token, placeholderValue, if_true]

/-- The bytes that placeholders are made of: slash, star, underscore and capital letters. -/
def tokenByte (c : UInt8) : Bool := c == 47 || c == 42 || c == 95 || (65 ≤ c && c ≤ 90)

theorem tokenByte_of_mem {p : Placeholder} {c : UInt8} (h : c ∈ p.token) : tokenByte c = true := by
  have hall : p.token.all tokenByte = true := by
    cases p
    all_goals
      unfold Placeholder.token
      rw [ascii_ofList]
      rfl
  exact List.all_eq_true.mp hall c h

theorem not_mem_token {c : UInt8} (h : tokenByte c = false) (p : Placeholder) : c ∉ p.token :=
  fun hmem => Bool.false_ne_true (h.symm.trans (tokenByte_of_mem hmem))

/-- Every placeholder has a capital Z. -/
theorem z_mem_token (p : Placeholder) : 90 ∈ p.token := by
  cases p
  all_goals
    unfold Placeholder.token
    rw [ascii_ofList]
    decide

theorem token_ne_nil (p : Placeholder) : p.token ≠ [] := List.ne_nil_of_mem (z_mem_token p)

theorem not_infix_of_no_z {p : Placeholder} {l : List UInt8} (h : 90 ∉ l) : ¬ p.token <:+: l :=
  fun hin => h (hin.subset (z_mem_token p))

/-! ## Quoted strings -/

/-- A byte stays as it is, or becomes a backslash and a byte, and none of these three is of a
    placeholder. -/
theorem escapeByte_cases (c : UInt8) :
    escapeByte c = [c] ∨ tokenByte c = false ∧ ∃ x, tokenByte x = false ∧ escapeByte c = [92, x] := by
  unfold escapeByte
  split_ifs with h1 h2 h3 h4
  · refine .inr ⟨?_, c, ?_, rfl⟩ <;> rcases h1 with rfl | rfl <;> rfl
  · exact .inr ⟨by rw [h2]; rfl, 110, rfl, rfl⟩
  · exact .inr ⟨by rw [h3]; rfl, 114, rfl, rfl⟩
  · exact .inr ⟨by rw [h4]; rfl, 116, rfl, rfl⟩
  · exact .inl rfl

theorem escapeCString_cons (c : UInt8) (text : List UInt8) :
    escapeCString (c :: text) = escapeByte c ++ escapeCString text := rfl

theorem escapeCString_append (a b : List UInt8) :
    escapeCString (a ++ b) = escapeCString a ++ escapeCString b := List.flatMap_append

theorem escapeCString_eq_self {text : List UInt8} (h : ∀ c ∈ text, escapeByte c = [c]) :
    escapeCString text = text := by
  induction text with
  | nil => rfl
  | cons c text ih =>
    rw [escapeCString_cons, h c (.head _), ih fun d hd => h d (.tail _ hd), List.singleton_append]

theorem escapeCString_token (p : Placeholder) : escapeCString p.token = p.token := by
  refine escapeCString_eq_self fun c hc => (escapeByte_cases c).resolve_right fun hother => ?_
  exact not_mem_token hother.1 p hc

/-- Quoting leaves every placeholder in place. -/
theorem infix_escapeCString_iff (p : Placeholder) (z text : List UInt8) :
    p.token <:+: z ++ escapeCString text ↔ p.token <:+: z ++ text := by
  induction text generalizing z with
  | nil => rfl
  | cons c text ih =>
    rw [escapeCString_cons]
    rcases escapeByte_cases c with hself | ⟨hc, x, hx, hescape⟩
    · have htail := ih (z ++ [c])
      rw [List.append_assoc, List.append_assoc] at htail
      rw [hself]
      exact htail
    · have htail := ih []
      rw [List.nil_append, List.nil_append] at htail
      rw [hescape, List.cons_append, infix_append_cons_iff (not_mem_token rfl p),
        infix_append_cons_iff (not_mem_token hc p), List.singleton_append,
        ← List.nil_append (x :: escapeCString text), infix_append_cons_iff (not_mem_token hx p), htail]
      exact or_congr_right (or_iff_right fun h => token_ne_nil p (List.infix_nil.mp h))

theorem prefix_escapeCString_iff {t : List UInt8} (ht : ∀ c ∈ t, tokenByte c = true)
    (text : List UInt8) : t <+: escapeCString text ↔ t <+: text := by
  induction t generalizing text with
  | nil => exact iff_of_true List.nil_prefix List.nil_prefix
  | cons d t ih =>
    cases text with
    | nil => rfl
    | cons c text =>
      have hd := ht d (.head _)
      rw [escapeCString_cons]
      rcases escapeByte_cases c with hself | ⟨hc, x, -, hescape⟩
      · rw [hself, List.singleton_append, List.cons_prefix_cons, List.cons_prefix_cons,
          ih fun e he => ht e (.tail _ he)]
      · rw [hescape, List.cons_append, List.cons_prefix_cons, List.cons_prefix_cons]
        constructor
        · rintro ⟨rfl, -⟩
          cases hd
        · rintro ⟨rfl, -⟩
          rw [hc] at hd
          cases hd

/-- A value without escapes goes into the quoted text as it goes into the string. -/
theorem replaceAll_escapeCString (p : Placeholder) {r : List UInt8} (hr : escapeCString r = r)
    (text : List UInt8) :
    replaceAll p.token r (escapeCString text) = escapeCString (replaceAll p.token r text) := by
  induction text using scan_induction (token_ne_nil p) with
  | nil => rw [replaceAll_nil (token_ne_nil p)]; exact replaceAll_nil (token_ne_nil p)
  | hit rest ih =>
    rw [escapeCString_append, escapeCString_token, replaceAll_hit (token_ne_nil p),
      replaceAll_hit (token_ne_nil p), escapeCString_append, hr, ih]
  | miss c cs hmiss ih =>
    rw [replaceAll_miss (token_ne_nil p) hmiss, escapeCString_cons, escapeCString_cons]
    rcases escapeByte_cases c with hself | ⟨-, x, hx, hescape⟩
    · have hmiss' : ¬ p.token <+: c :: escapeCString cs := by
        have hiff := prefix_escapeCString_iff (fun _ => tokenByte_of_mem (p := p)) (c :: cs)
        rw [escapeCString_cons, hself] at hiff
        exact hiff.not.mpr hmiss
      rw [hself, List.singleton_append, List.singleton_append,
        replaceAll_miss (token_ne_nil p) hmiss', ih]
    · have hback : (92 : UInt8) ∉ p.token := not_mem_token rfl p
      have hsplit : [92, x] ++ escapeCString cs = ([] ++ 92 :: ([] ++ x :: escapeCString cs)) := rfl
      rw [hescape, hsplit, replaceAll_append_cons (token_ne_nil p) hback,
        replaceAll_append_cons (token_ne_nil p) (not_mem_token hx p),
        replaceAll_nil (token_ne_nil p), ih]
      rfl

/-! ## Rewritten strings -/

section Rewriting

variable (f : CStr → CStr)

/-- A conversion with another string. -/
def Arg.rewrite : Arg → Arg
  | .quoted s => .quoted (f s)
  | arg => arg

/-- The arguments with other strings; the lengths beside them stay. -/
def rewriteArgs (args : List (Arg × String)) : List (Arg × String) :=
  args.map fun a => (a.1.rewrite f, a.2)

/-- A case with other strings in its literals. -/
def routeCaseOf (r : Route) (i : Nat) : List UInt8 :=
  printf "    case " (rewriteArgs f (caseArgs r i)) ++ actionText 8 r

/-- A rule with other strings in its literals. -/
def fallbackRuleOf (r : Route) (i : Nat) : List UInt8 :=
  printf "    if (zereh_match_suffix(qmeta->qname, qmeta->qname_len, " (rewriteArgs f (ruleArgs r i)) ++
    actionText 12 r ++ printf "    \x7d\n" []

def routeCasesOf (cfg : Config) : List UInt8 :=
  casesBanner cfg ++ cfg.routes.zipIdx.flatMap fun ri => routeCaseOf f ri.1 ri.2

def fallbackRulesOf (cfg : Config) : List UInt8 :=
  cfg.routes.zipIdx.flatMap fun ri => fallbackRuleOf f ri.1 ri.2

/-- The body of `zereh_dispatch` with other strings in its literals. -/
def dispatchTextOf (cfg : Config) : List UInt8 :=
  dispatchHead ++ routeCasesOf f cfg ++ dispatchMiddle ++ fallbackRulesOf f cfg ++ dispatchEnd

end Rewriting

theorem rewriteArgs_id (args : List (Arg × String)) : rewriteArgs id args = args := by
  have hid : ∀ a : Arg × String, (a.1.rewrite id, a.2) = a := by
    rintro ⟨arg, text⟩
    cases arg <;> rfl
  simp only [rewriteArgs, hid, List.map_id']

/-- With the strings as they are it is the body with both texts in their places. -/
theorem dispatchTextOf_id (cfg : Config) : dispatchTextOf id cfg = dispatchText cfg := by
  simp only [dispatchTextOf, routeCasesOf, routeCaseOf, fallbackRulesOf, fallbackRuleOf,
    rewriteArgs_id]
  rfl

/-- The strings that the first text quotes; the second has other ones in their places, and is the
    same everywhere else. Outside the strings there is no Z. -/
inductive Quotes (f : CStr → CStr) : List UInt8 → List UInt8 → List CStr → Prop where
  | plain {text : List UInt8} (h : 90 ∉ text) : Quotes f text text []
  | quoted (s : CStr) : Quotes f (Arg.quoted s).render (Arg.quoted (f s)).render [s]
  | append {a a' b b' : List UInt8} {strings strings' : List CStr} (ha : Quotes f a a' strings)
      (hb : Quotes f b b' strings') : Quotes f (a ++ b) (a' ++ b') (strings ++ strings')

section Quotes

variable {f : CStr → CStr} {text text' : List UInt8} {strings : List CStr}

/-- Where a placeholder can be, wherever the text stands behind bytes that are not Z. -/
theorem Quotes.infix_append_iff (h : Quotes f text text' strings) {z : List UInt8} (hz : 90 ∉ z) :
    ∃ z', 90 ∉ z' ∧ ∀ (p : Placeholder) (rest : List UInt8),
      p.token <:+: z ++ (text ++ rest) ↔
        (∃ s ∈ strings, p.token <:+: s.bytes) ∨ p.token <:+: z' ++ rest := by
  induction h generalizing z with
  | @plain text h =>
    refine ⟨z ++ text, ?_, fun p rest => ?_⟩
    · rw [List.mem_append]
      exact not_or.mpr ⟨hz, h⟩
    · rw [List.append_assoc]
      exact (or_iff_right fun ⟨_, hs, _⟩ => nomatch hs).symm
  | quoted s =>
    refine ⟨[], nofun, fun p rest => ?_⟩
    have hquote : (34 : UInt8) ∉ p.token := not_mem_token rfl p
    have hrender : z ++ ((Arg.quoted s).render ++ rest) =
        z ++ 34 :: (escapeCString s.bytes ++ 34 :: rest) := by
      rw [Arg.render, List.cons_append, List.append_assoc, List.singleton_append]
    have hescape := infix_escapeCString_iff p [] s.bytes
    rw [List.nil_append, List.nil_append] at hescape
    rw [hrender, infix_append_cons_iff hquote, infix_append_cons_iff hquote, hescape,
      or_iff_right (not_infix_of_no_z hz), List.nil_append]
    simp only [List.mem_singleton, exists_eq_left]
  | append ha hb iha ihb =>
    obtain ⟨z1, hz1, h1⟩ := iha hz
    obtain ⟨z2, hz2, h2⟩ := ihb hz1
    refine ⟨z2, hz2, fun p rest => ?_⟩
    rw [List.append_assoc, h1, h2, ← or_assoc]
    simp only [List.mem_append, or_and_right, exists_or]

/-- The text has placeholders only in the strings. -/
theorem Quotes.infix_iff (h : Quotes f text text' strings) (p : Placeholder) :
    p.token <:+: text ↔ ∃ s ∈ strings, p.token <:+: s.bytes := by
  obtain ⟨z, hz, h⟩ := h.infix_append_iff (z := []) nofun
  have hp := h p []
  rw [List.append_nil, List.append_nil, List.nil_append] at hp
  exact hp.trans (or_iff_left (not_infix_of_no_z hz))

theorem Quotes.flatMap {β : Type} {text text' : β → List UInt8} {strings : β → List CStr} (l : List β)
    (h : ∀ a, Quotes f (text a) (text' a) (strings a)) :
    Quotes f (l.flatMap text) (l.flatMap text') (l.flatMap strings) := by
  induction l with
  | nil => exact Quotes.plain nofun
  | cons a l ih => exact (h a).append ih

end Quotes

/-! ## The generated texts -/

/-- The strings that a format call quotes. -/
def quotedStrings (args : List (Arg × String)) : List CStr :=
  args.flatMap fun
    | (.quoted s, _) => [s]
    | _ => []

theorem tokenByte_of_digit {base : Nat} (hb : 1 < base) (hbase : base ≤ 16) (n : Nat) {c : UInt8}
    (h : c ∈ (Nat.toDigits base n).map byteOf) : tokenByte c = false := by
  obtain ⟨d, rfl⟩ := digit_of_mem_toDigits hb hbase n h
  have hdigits : ∀ d : Fin 16, tokenByte (byteOf (Nat.digitChar d)) = false := by decide
  exact hdigits d

theorem no_z_of_digits {l : List UInt8} (h : ∀ c ∈ l, tokenByte c = false) : 90 ∉ l :=
  fun hmem => Bool.false_ne_true ((h 90 hmem).symm.trans rfl)

theorem tokenByte_of_mem_decimal {n : Nat} {c : UInt8} (h : c ∈ decimal n) : tokenByte c = false :=
  tokenByte_of_digit (by decide) (by decide) n h

theorem no_z_hex (n : Nat) : 90 ∉ hex n :=
  no_z_of_digits fun _ => tokenByte_of_digit (by decide) (by decide) n

section Texts

variable {f : CStr → CStr}

theorem Quotes.arg (arg : Arg) (text : String) :
    Quotes f arg.render (arg.rewrite f).render (quotedStrings [(arg, text)]) := by
  cases arg with
  | dec n => exact Quotes.plain (no_z_of_digits fun _ => tokenByte_of_mem_decimal)
  | hexUll n =>
    refine Quotes.plain ?_
    have hhex := no_z_hex n.toNat
    simp only [Arg.render, hexPadded, List.mem_append, List.mem_replicate, not_or]
    exact ⟨⟨by decide, fun h => absurd h.2 (by decide), hhex⟩, by decide⟩
  | hexU n =>
    refine Quotes.plain ?_
    have hhex := no_z_hex n.toNat
    simp only [Arg.render, List.mem_append, not_or]
    exact ⟨⟨by decide, hhex⟩, by decide⟩
  | quoted s => exact Quotes.quoted s

theorem Quotes.renderArgs {args : List (Arg × String)} (h : ∀ a ∈ args, 90 ∉ ascii a.2) :
    Quotes f (renderArgs args) (Control.renderArgs (rewriteArgs f args)) (quotedStrings args) := by
  induction args with
  | nil => exact Quotes.plain nofun
  | cons a args ih =>
    obtain ⟨arg, text⟩ := a
    have hplain := Quotes.plain (f := f) (h (arg, text) (.head _))
    have hrest := ih fun a ha => h a (.tail _ ha)
    have hall := ((Quotes.arg arg text).append hplain).append hrest
    have hstrings : quotedStrings ((arg, text) :: args) =
        quotedStrings [(arg, text)] ++ [] ++ quotedStrings args := by
      simp only [quotedStrings, List.flatMap_cons, List.flatMap_nil, List.append_nil]
    rw [hstrings]
    exact hall

theorem Quotes.printf {text : String} {args : List (Arg × String)} (htext : 90 ∉ ascii text)
    (hargs : ∀ a ∈ args, 90 ∉ ascii a.2) :
    Quotes f (printf text args) (Control.printf text (rewriteArgs f args)) (quotedStrings args) :=
  (Quotes.plain htext).append (Quotes.renderArgs hargs)

/-- A call without a string. -/
theorem Quotes.numbers {text : String} {args : List (Arg × String)} (htext : 90 ∉ ascii text)
    (hargs : ∀ a ∈ args, 90 ∉ ascii a.2) (hrewrite : rewriteArgs f args = args)
    (hstrings : quotedStrings args = []) :
    Quotes f (Control.printf text args) (Control.printf text args) [] := by
  have hprint := Quotes.printf (f := f) htext hargs
  rwa [hrewrite, hstrings] at hprint

theorem no_z_nextArg : 90 ∉ ascii nextArg := by
  rw [nextArg, ascii_ofList]
  decide

theorem no_z_append {s t : String} (hs : 90 ∉ ascii s) (ht : 90 ∉ ascii t) : 90 ∉ ascii (s ++ t) := by
  rw [ascii_append, List.mem_append]
  exact not_or.mpr ⟨hs, ht⟩

theorem no_z_filterArgs (r : Route) (i : Nat) : ∀ a ∈ filterArgs r i, 90 ∉ ascii a.2 := by
  have hhash : 90 ∉ ascii (nextArg ++ "route_hash" ++ nextArg) :=
    no_z_append (no_z_append no_z_nextArg (by rw [ascii_ofList]; decide)) no_z_nextArg
  have hlast : 90 ∉ ascii ")) \x7b\n            return XDP_DROP;\n        \x7d\n" := by
    rw [ascii_ofList]
    decide
  simp only [filterArgs, List.forall_mem_cons, no_z_nextArg, hhash, hlast, not_false_eq_true,
    true_and, List.not_mem_nil, false_implies, implies_true]

theorem no_z_spaces (n : Nat) : 90 ∉ spaces n :=
  fun h => absurd (List.eq_of_mem_replicate h) (by decide)

/-- A line of an action: no string in it. -/
theorem Quotes.line (n : Nat) {text after : String} (k : Nat) (htext : 90 ∉ ascii text)
    (hafter : 90 ∉ ascii after) :
    Quotes f (spaces n ++ Control.printf text [(.dec k, after)])
      (spaces n ++ Control.printf text [(.dec k, after)]) [] :=
  (Quotes.plain (no_z_spaces n)).append
    (Quotes.numbers htext (fun a ha => by rw [List.mem_singleton.mp ha]; exact hafter) rfl rfl)

theorem Quotes.actionText (n : Nat) (r : Route) :
    Quotes f (actionText n r) (Control.actionText n r) [] := by
  unfold Control.actionText
  cases r.target with
  | userSpace =>
    exact Quotes.line n _ (by rw [ascii_ofList]; decide) (by rw [ascii_ofList]; decide)
  | kernelSpace =>
    exact Quotes.line n _ (by rw [ascii_ofList]; decide) (by rw [ascii_ofList]; decide)
  | xdpProg =>
    refine (Quotes.line n _ (by rw [ascii_ofList]; decide) (by rw [ascii_ofList]; decide)).append ?_
    exact (Quotes.plain (no_z_spaces n)).append
      (Quotes.numbers (by rw [ascii_ofList]; decide) nofun rfl rfl)

theorem Quotes.appendRouteCase (r : Route) (i : Nat) :
    Quotes f (appendRouteCase r i) (routeCaseOf f r i) [r.prefixMatch, r.suffixMatch] := by
  refine (Quotes.printf (by rw [ascii_ofList]; decide) ?_).append (Quotes.actionText 8 r)
  intro a ha
  rcases List.mem_cons.mp ha with rfl | ha
  · exact no_z_append (by rw [ascii_ofList]; decide) no_z_nextArg
  · exact no_z_filterArgs r i a ha

theorem Quotes.appendFallbackRule (r : Route) (i : Nat) :
    Quotes f (appendFallbackRule r i) (fallbackRuleOf f r i)
      [r.domain, r.prefixMatch, r.suffixMatch] := by
  refine ((Quotes.printf (by rw [ascii_ofList]; decide) ?_).append (Quotes.actionText 12 r)).append
    (Quotes.numbers (by rw [ascii_ofList]; decide) nofun rfl rfl)
  intro a ha
  rcases List.mem_cons.mp ha with rfl | ha
  · rw [ascii_ofList]
    decide
  · rcases List.mem_cons.mp ha with rfl | ha
    · exact no_z_append (by rw [ascii_ofList]; decide) no_z_nextArg
    · exact no_z_filterArgs r i a ha

theorem quotes_routeCases (cfg : Config) :
    Quotes f (generateRouteCases cfg) (routeCasesOf f cfg)
      ([] ++ cfg.routes.zipIdx.flatMap fun ri => [ri.1.prefixMatch, ri.1.suffixMatch]) := by
  refine Quotes.append ?_ (Quotes.flatMap _ fun ri => Quotes.appendRouteCase ri.1 ri.2)
  refine Quotes.numbers (by rw [ascii_ofList]; decide) (fun a ha => ?_) rfl rfl
  rcases List.mem_cons.mp ha with rfl | ha
  · rw [ascii_ofList]
    decide
  · rw [List.mem_singleton.mp ha, ascii_ofList]
    decide

theorem quotes_fallbackRules (cfg : Config) :
    Quotes f (generateFallbackRules cfg) (fallbackRulesOf f cfg)
      (cfg.routes.zipIdx.flatMap fun ri => [ri.1.domain, ri.1.prefixMatch, ri.1.suffixMatch]) :=
  Quotes.flatMap _ fun ri => Quotes.appendFallbackRule ri.1 ri.2

end Texts

theorem exists_mem_zipIdx_flatMap (strings : Route → List CStr) {P : CStr → Prop}
    (routes : List Route) :
    (∃ s ∈ routes.zipIdx.flatMap fun ri => strings ri.1, P s) ↔
      ∃ r ∈ routes, ∃ s ∈ strings r, P s := by
  constructor
  · rintro ⟨s, hs, hP⟩
    obtain ⟨ri, hri, hmem⟩ := List.mem_flatMap.mp hs
    exact ⟨ri.1, List.fst_mem_of_mem_zipIdx hri, s, hmem, hP⟩
  · rintro ⟨r, hr, s, hs, hP⟩
    obtain ⟨i, hi⟩ := List.getElem?_of_mem hr
    exact ⟨s, List.mem_flatMap.mpr ⟨(r, i), List.mk_mem_zipIdx_iff_getElem?.mpr hi, hs⟩, hP⟩

/-- The cases have the placeholders of the patterns. -/
theorem infix_routeCases_iff (cfg : Config) (p : Placeholder) :
    p.token <:+: generateRouteCases cfg ↔
      ∃ r ∈ cfg.routes, p.token <:+: r.prefixMatch.bytes ∨ p.token <:+: r.suffixMatch.bytes := by
  rw [(quotes_routeCases (f := id) cfg).infix_iff, List.nil_append,
    exists_mem_zipIdx_flatMap fun r => [r.prefixMatch, r.suffixMatch]]
  simp only [List.mem_cons, List.not_mem_nil, or_false, exists_eq_or_imp, exists_eq_left]

/-- The rules have those of the domains too. -/
theorem infix_fallbackRules_iff (cfg : Config) (p : Placeholder) :
    p.token <:+: generateFallbackRules cfg ↔
      ∃ r ∈ cfg.routes, p.token <:+: r.domain.bytes ∨ p.token <:+: r.prefixMatch.bytes ∨
        p.token <:+: r.suffixMatch.bytes := by
  rw [(quotes_fallbackRules (f := id) cfg).infix_iff,
    exists_mem_zipIdx_flatMap fun r => [r.domain, r.prefixMatch, r.suffixMatch]]
  simp only [List.mem_cons, List.not_mem_nil, or_false, exists_eq_or_imp, exists_eq_left]

/-! ## Ends -/

/-- Whole lines: a blank in front, a newline at the end. -/
def Lines (l : List UInt8) : Prop := l = [] ∨ l.head? = some 32 ∧ l.getLast? = some 10

theorem Lines.append {a b : List UInt8} (ha : Lines a) (hb : Lines b) : Lines (a ++ b) := by
  rcases ha with rfl | ⟨hhead, hlast⟩
  · exact hb
  · rcases hb with rfl | ⟨-, hlast'⟩
    · rw [List.append_nil]
      exact .inr ⟨hhead, hlast⟩
    · refine .inr ⟨?_, ?_⟩
      · rw [List.head?_append, hhead]
        rfl
      · rw [List.getLast?_append, hlast']
        rfl

theorem Lines.flatMap {β : Type} {text : β → List UInt8} (l : List β) (h : ∀ a, Lines (text a)) :
    Lines (l.flatMap text) := by
  induction l with
  | nil => exact .inl rfl
  | cons a l ih => exact (h a).append ih

theorem Lines.of_ends {a b : List UInt8} (ha : a.head? = some 32) (hb : b.getLast? = some 10) :
    Lines (a ++ b) := by
  refine .inr ⟨?_, ?_⟩
  · rw [List.head?_append, ha]
    rfl
  · rw [List.getLast?_append, hb]
    rfl

theorem head?_printf {text : String} (h : (ascii text).head? = some 32)
    (args : List (Arg × String)) : (printf text args).head? = some 32 := by
  rw [printf, List.head?_append, h]
  rfl

theorem getLast?_line {after : String} (h : (ascii after).getLast? = some 10) (n k : Nat)
    (text : String) : (spaces n ++ printf text [(.dec k, after)]).getLast? = some 10 := by
  simp only [printf, renderArgs, List.append_nil, List.getLast?_append, h, Option.some_or]

theorem getLast?_actionText (n : Nat) (r : Route) : (actionText n r).getLast? = some 10 := by
  unfold actionText
  cases r.target with
  | userSpace => exact getLast?_line (by rw [ascii_ofList]; rfl) ..
  | kernelSpace => exact getLast?_line (by rw [ascii_ofList]; rfl) ..
  | xdpProg =>
    have hlast : (printf "return XDP_DROP;\n" []).getLast? = some 10 := by
      rw [printf, ascii_ofList]
      rfl
    rw [List.getLast?_append, List.getLast?_append, hlast]
    rfl

theorem lines_routeCase (r : Route) (i : Nat) : Lines (appendRouteCase r i) :=
  Lines.of_ends (head?_printf (by rw [ascii_ofList]; rfl) _) (getLast?_actionText 8 r)

theorem lines_fallbackRule (r : Route) (i : Nat) : Lines (appendFallbackRule r i) := by
  refine Lines.of_ends ?_ ?_
  · rw [List.head?_append, head?_printf (by rw [ascii_ofList]; rfl)]
    rfl
  · rw [printf, ascii_ofList]
    rfl

theorem lines_routeCases (cfg : Config) : Lines (generateRouteCases cfg) := by
  refine Lines.append ?_ (Lines.flatMap _ fun ri => lines_routeCase ri.1 ri.2)
  refine Lines.of_ends (by rw [ascii_ofList]; rfl) ?_
  have hlast : (ascii " blacklist CIDRs */\n").getLast? = some 10 := by
    rw [ascii_ofList]
    rfl
  simp only [renderArgs, List.append_nil, List.getLast?_append, hlast, Option.some_or]

theorem routeCases_ne_nil (cfg : Config) : generateRouteCases cfg ≠ [] := by
  intro hnil
  have hhead : (generateRouteCases cfg).head? = some 32 := by
    rw [generateRouteCases, casesBanner, List.head?_append, head?_printf (by rw [ascii_ofList]; rfl)]
    rfl
  rw [hnil] at hhead
  cases hhead

/-- A rule has a parenthesis, which no placeholder has. -/
theorem paren_mem_fallbackRules {cfg : Config} (h : cfg.routes ≠ []) :
    40 ∈ generateFallbackRules cfg := by
  obtain ⟨r, routes, hroutes⟩ := List.exists_cons_of_ne_nil h
  have htext : 40 ∈ ascii "    if (zereh_match_suffix(qmeta->qname, qmeta->qname_len, " := by
    rw [ascii_ofList]
    decide
  rw [generateFallbackRules, hroutes, List.zipIdx_cons, List.flatMap_cons]
  refine List.mem_append_left _ (List.mem_append_left _ (List.mem_append_left _ ?_))
  exact List.mem_append_left _ htext

theorem lines_fallbackRules (cfg : Config) : Lines (generateFallbackRules cfg) :=
  Lines.flatMap _ fun ri => lines_fallbackRule ri.1 ri.2

theorem Lines.sealed {text : List UInt8} (h : Lines text) (hne : text ≠ []) (p : Placeholder) :
    Sealed p.token text := by
  obtain ⟨hhead, hlast⟩ := h.resolve_left hne
  exact Sealed.of_ends hhead (not_mem_token rfl p) hlast (not_mem_token rfl p)

/-! ## Values apart from placeholders -/

theorem apart_decimal (p : Placeholder) (n : Nat) : Apart p.token (decimal n) := by
  refine Apart.of_disjoint (token_ne_nil p) ?_ fun c hc =>
    not_mem_token (tokenByte_of_mem_decimal hc) p
  intro hnil
  exact Nat.toDigits_ne_nil (List.map_eq_nil_iff.mp hnil)

theorem apart_action (action : DefaultAction) {p : Placeholder} (hp : p ∈ macroPlaceholders) :
    Apart p.token (if action = .drop then ascii "XDP_DROP" else ascii "XDP_PASS") := by
  have hdrop : ascii "XDP_DROP" = ([88, 68, 80, 95, 68, 82, 79, 80] : List UInt8) := by
    rw [ascii_ofList]
    rfl
  have hpass : ascii "XDP_PASS" = ([88, 68, 80, 95, 80, 65, 83, 83] : List UInt8) := by
    rw [ascii_ofList]
    rfl
  rw [hdrop, hpass]
  revert hp
  cases p
  all_goals
    intro hp
    first
    | exact absurd hp (by decide)
    | unfold Placeholder.token
      rw [ascii_ofList]
      split_ifs
      · exact ⟨⟨by decide, by decide, by decide⟩, by decide⟩
      · exact ⟨⟨by decide, by decide, by decide⟩, by decide⟩

/-- A macro is a number or an action. -/
theorem macro_value_cases (cfg : Config) {q : Placeholder} (hq : q ∈ macroPlaceholders) :
    (∃ n, placeholderValue cfg q = decimal n) ∨ placeholderValue cfg q =
      if cfg.defaultAction = .drop then ascii "XDP_DROP" else ascii "XDP_PASS" := by
  cases q with
  | routeCases => exact absurd hq (by decide)
  | fallbackRules => exact absurd hq (by decide)
  | defaultAction => exact .inr rfl
  | maxPacketSize => exact .inl ⟨_, rfl⟩
  | allowedOpcodeMask => exact .inl ⟨_, rfl⟩
  | dropTruncated => exact .inl ⟨_, rfl⟩
  | inlineChecksums => exact .inl ⟨_, rfl⟩
  | hashAlgo => exact .inl ⟨_, rfl⟩
  | rateStateEntries => exact .inl ⟨_, rfl⟩

/-- The values of the macros have no placeholder of a macro, and make none with what is next to
    them. -/
theorem apart_macro (cfg : Config) {p q : Placeholder} (hp : p ∈ macroPlaceholders)
    (hq : q ∈ macroPlaceholders) : Apart p.token (placeholderValue cfg q) := by
  rcases macro_value_cases cfg hq with ⟨n, hn⟩ | haction
  · rw [hn]
    exact apart_decimal p n
  · rw [haction]
    exact apart_action cfg.defaultAction hp

theorem paren_not_mem_macro (cfg : Config) {p : Placeholder} (hp : p ∈ macroPlaceholders) :
    40 ∉ placeholderValue cfg p := by
  rcases macro_value_cases cfg hp with ⟨n, hn⟩ | haction
  · rw [hn]
    intro hmem
    obtain ⟨d, hd⟩ := digit_of_mem_toDigits (by decide) (by decide) n hmem
    have hdigits : ∀ d : Fin 16, 40 ≠ byteOf (Nat.digitChar d) := by decide
    exact hdigits d hd
  · rw [haction]
    split_ifs
    · rw [ascii_ofList]
      decide
    · rw [ascii_ofList]
      decide

/-! ## The passes -/

section Passes

variable (cfg : Config) (template : List UInt8)

/-- The text after the passes. -/
def substituted : List UInt8 :=
  substitute Placeholder.token (placeholderValue cfg) passes template

/-- The two texts, then the macros. -/
theorem substituted_split :
    substituted cfg template =
      substitute Placeholder.token (placeholderValue cfg) macroPlaceholders
        (replaceAll Placeholder.fallbackRules.token (placeholderValue cfg .fallbackRules)
          (replaceAll Placeholder.routeCases.token (placeholderValue cfg .routeCases) template)) := by
  rw [substituted, substitute, passes, List.foldl_cons, List.foldl_cons, substitute]

/-- No placeholder of a macro is left. -/
theorem not_infix_substituted {p : Placeholder} (hp : p ∈ macroPlaceholders) :
    ¬ p.token <:+: substituted cfg template := by
  rw [substituted_split]
  exact not_infix_substitute token_ne_nil macroPlaceholders
    (fun _ hp _ hq => apart_macro cfg hp hq) hp _

theorem marked_split :
    marked template =
      markAll Placeholder.token macroPlaceholders
        (markAll Placeholder.token [.routeCases, .fallbackRules] (template.map .text)) := by
  simp only [marked, passes, markAll, List.foldl_cons, List.foldl_nil]

variable {cfg template}

/-- A value that is put in without a later pass keeps its placeholders. -/
theorem infix_simultaneous {p q : Placeholder} (hp : Splices template p)
    (hq : q.token <:+: placeholderValue cfg p) : q.token <:+: simultaneous cfg template :=
  hq.trans (infix_expand hp)

/-- The source is simultaneous when no value that is put has a placeholder of a later pass. -/
theorem substituted_eq (hroutes : cfg.routes ≠ [])
    (hcases : Splices template .routeCases → ∀ q ∈ Placeholder.fallbackRules :: macroPlaceholders,
      ¬ q.token <:+: generateRouteCases cfg)
    (hrules : Splices template .fallbackRules → ∀ q ∈ macroPlaceholders,
      ¬ q.token <:+: generateFallbackRules cfg) :
    substituted cfg template = simultaneous cfg template := by
  have hrulesNe : generateFallbackRules cfg ≠ [] :=
    List.ne_nil_of_mem (paren_mem_fallbackRules hroutes)
  have hlater : passes.Pairwise fun p q => Splices template p →
      Apart q.token (placeholderValue cfg p) := by
    refine .cons (fun q hq hmem => ?_) (.cons (fun q hq hmem => ?_) ?_)
    · exact ⟨(lines_routeCases cfg).sealed (routeCases_ne_nil cfg) q, hcases hmem q hq⟩
    · exact ⟨(lines_fallbackRules cfg).sealed hrulesNe q, hrules hmem q hq⟩
    · exact List.pairwise_of_forall_mem_list fun p hp q hq _ => apart_macro cfg hq hp
  have hrun := substitute_expand token_ne_nil passes
    (fun k hk => absurd hk (hole_not_mem_map_text k template)) hlater
  rw [expand_map_text] at hrun
  exact hrun

/-- The values as the second pass leaves them. -/
def afterRules (cfg : Config) : Placeholder → List UInt8
  | .routeCases =>
      replaceAll Placeholder.fallbackRules.token (generateFallbackRules cfg)
        (generateRouteCases cfg)
  | p => placeholderValue cfg p

/-- The first two passes, on the places of the template. -/
theorem two_passes :
    replaceAll Placeholder.fallbackRules.token (placeholderValue cfg .fallbackRules)
        (replaceAll Placeholder.routeCases.token (placeholderValue cfg .routeCases) template) =
      expand (afterRules cfg) (markAll Placeholder.token [.routeCases, .fallbackRules]
        (template.map .text)) := by
  have hone : replaceAll Placeholder.routeCases.token (placeholderValue cfg .routeCases)
      (expand (placeholderValue cfg) (template.map .text)) =
        expand (placeholderValue cfg) (replaceAll (Placeholder.routeCases.token.map .text)
          [.hole .routeCases] (template.map .text)) :=
    expand_replaceAll (token_ne_nil .routeCases) rfl
      fun k hk => absurd hk (hole_not_mem_map_text k template)
  rw [expand_map_text] at hone
  rw [hone, markAll, List.foldl_cons, List.foldl_cons, List.foldl_nil]
  refine expand_replaceAll (f := placeholderValue cfg) (g := afterRules cfg)
    (token_ne_nil .fallbackRules) rfl fun k hk => ?_
  obtain rfl : k = .routeCases :=
    (hole_of_mem_replaceAll (token_ne_nil .routeCases) hk).resolve_right
      (hole_not_mem_map_text k template)
  exact ⟨(lines_routeCases cfg).sealed (routeCases_ne_nil cfg) _, rfl⟩

/-- With a fallback placeholder in the cases, the source has more parentheses than the simultaneous
    one: the second pass puts rules inside the cases. -/
theorem substituted_ne (hroutes : cfg.routes ≠ []) (hsplice : Splices template .routeCases)
    (hcases : Placeholder.fallbackRules.token <:+: generateRouteCases cfg) :
    substituted cfg template ≠ simultaneous cfg template := by
  have hparen : ∀ p : Placeholder, (40 : UInt8) ∉ p.token := not_mem_token rfl
  have hmore : (placeholderValue cfg .routeCases).count 40 < (afterRules cfg .routeCases).count 40 := by
    rw [afterRules, placeholderValue]
    exact count_lt_replaceAll (token_ne_nil _) (hparen _) (paren_mem_fallbackRules hroutes) hcases
  have hle : ∀ p, (placeholderValue cfg p).count 40 ≤ (afterRules cfg p).count 40 := by
    intro p
    cases p with
    | routeCases => exact hmore.le
    | _ => exact le_rfl
  unfold Splices at hsplice
  rw [marked_split] at hsplice
  intro heq
  rw [substituted_split, two_passes, simultaneous, marked_split] at heq
  generalize markAll Placeholder.token [.routeCases, .fallbackRules] (template.map .text) = ps
    at hsplice heq
  -- a hole that is there at the end, and not of a macro, was there after two passes
  have hmem := (hole_of_mem_markAll token_ne_nil macroPlaceholders hsplice).resolve_left (by decide)
  have hcount := congrArg (List.count 40) heq
  rw [count_expand_markAll (f := placeholderValue cfg) token_ne_nil macroPlaceholders
    fun p hp => ⟨hparen p, paren_not_mem_macro cfg hp⟩] at hcount
  have hrun := count_le_substitute token_ne_nil macroPlaceholders (fun p _ => hparen p)
    (expand (afterRules cfg) ps) (f := placeholderValue cfg)
  have hlt := count_expand_lt hle hmore hmem
  omega

/-- When the passes are simultaneous. -/
theorem substituted_eq_iff (hroutes : cfg.routes ≠ []) :
    substituted cfg template = simultaneous cfg template ↔
      (Splices template .routeCases →
        ∀ q ∈ Placeholder.fallbackRules :: macroPlaceholders, ∀ r ∈ cfg.routes,
          ¬ q.token <:+: r.prefixMatch.bytes ∧ ¬ q.token <:+: r.suffixMatch.bytes) ∧
      (Splices template .fallbackRules →
        ∀ q ∈ macroPlaceholders, ∀ r ∈ cfg.routes, ¬ q.token <:+: r.domain.bytes ∧
          ¬ q.token <:+: r.prefixMatch.bytes ∧ ¬ q.token <:+: r.suffixMatch.bytes) := by
  have hcases : ∀ q : Placeholder, ¬ q.token <:+: generateRouteCases cfg ↔ ∀ r ∈ cfg.routes,
      ¬ q.token <:+: r.prefixMatch.bytes ∧ ¬ q.token <:+: r.suffixMatch.bytes := by
    intro q
    simp only [infix_routeCases_iff, not_exists, not_and, not_or]
  have hrules : ∀ q : Placeholder, ¬ q.token <:+: generateFallbackRules cfg ↔ ∀ r ∈ cfg.routes,
      ¬ q.token <:+: r.domain.bytes ∧ ¬ q.token <:+: r.prefixMatch.bytes ∧
        ¬ q.token <:+: r.suffixMatch.bytes := by
    intro q
    simp only [infix_fallbackRules_iff, not_exists, not_and, not_or]
  simp only [← hcases, ← hrules]
  constructor
  · intro heq
    -- a placeholder of a macro in a value would be in one text and not in the other
    have hmacro : ∀ p, Splices template p → ∀ q ∈ macroPlaceholders,
        ¬ q.token <:+: placeholderValue cfg p := by
      intro p hp q hq hin
      have hsource := infix_simultaneous hp hin
      rw [← heq] at hsource
      exact not_infix_substituted cfg _ hq hsource
    refine ⟨fun hsplice q hq => ?_, hmacro .fallbackRules⟩
    rcases List.mem_cons.mp hq with rfl | hq
    · exact fun hin => substituted_ne hroutes hsplice hin heq
    · exact hmacro .routeCases hsplice q hq
  · rintro ⟨hfirst, hsecond⟩
    exact substituted_eq hroutes hfirst hsecond

end Passes

/-! ## The generated source -/

/-- **When the substitution is simultaneous.** For every template and every accepted configuration:
    the source that is written is the template with its own placeholders replaced exactly when, if
    the template has a place for the cases, no pattern of a route contains the placeholder of the
    rules or of a macro, and, if it has a place for the rules, no domain or pattern contains one of
    a macro. -/
theorem generated_simultaneous_iff (doc : YamlDocument) (cfg : Config)
    (hparse : parseConfigYaml doc = .ok cfg) (content : List UInt8) :
    generateXdpSource cfg (some content) true =
        .ok (simultaneous cfg (CStr.ofBytes content).bytes) ↔
      (Splices (CStr.ofBytes content).bytes .routeCases →
        ∀ q ∈ Placeholder.fallbackRules :: macroPlaceholders, ∀ r ∈ cfg.routes,
          ¬ q.token <:+: r.prefixMatch.bytes ∧ ¬ q.token <:+: r.suffixMatch.bytes) ∧
      (Splices (CStr.ofBytes content).bytes .fallbackRules →
        ∀ q ∈ macroPlaceholders, ∀ r ∈ cfg.routes, ¬ q.token <:+: r.domain.bytes ∧
          ¬ q.token <:+: r.prefixMatch.bytes ∧ ¬ q.token <:+: r.suffixMatch.bytes) := by
  rw [generateXdpSource_eq, Except.ok.injEq]
  exact substituted_eq_iff (accepted_of_parse hparse).routes_ne

/-- A template with the rules only. -/
def rulesTemplate : List UInt8 := ascii "/*__ZEREH_FALLBACK_RULES__*/"

theorem generated_simultaneous_sample :
    generateXdpSource (spelledConfig "a") (some rulesTemplate) true =
      .ok (simultaneous (spelledConfig "a") (CStr.ofBytes rulesTemplate).bytes) := by
  have hroute : ∀ r ∈ (spelledConfig "a").routes,
      90 ∉ r.domain.bytes ∧ 90 ∉ r.prefixMatch.bytes ∧ 90 ∉ r.suffixMatch.bytes := by
    intro r hr
    rw [List.mem_singleton.mp hr]
    exact ⟨by decide, by decide, by decide⟩
  refine (generated_simultaneous_iff (spelledDocument "a") _ parse_spelledDocument.1 _).mpr ⟨?_, ?_⟩
  · intro _ q _ r hr
    obtain ⟨-, hprefix, hsuffix⟩ := hroute r hr
    exact ⟨not_infix_of_no_z hprefix, not_infix_of_no_z hsuffix⟩
  · intro _ q _ r hr
    obtain ⟨hdomain, hprefix, hsuffix⟩ := hroute r hr
    exact ⟨not_infix_of_no_z hdomain, not_infix_of_no_z hprefix, not_infix_of_no_z hsuffix⟩

/-- A domain that is a placeholder is rewritten in the rules. -/
theorem generated_rewrites_domain :
    ¬ ∀ (doc : YamlDocument) (cfg : Config), parseConfigYaml doc = .ok cfg →
      ∀ content : List UInt8, generateXdpSource cfg (some content) true =
        .ok (simultaneous cfg (CStr.ofBytes content).bytes) := by
  intro hall
  have heq := hall _ _ parse_spelledDocument.2.2 rulesTemplate
  rw [generateXdpSource_eq, Except.ok.injEq] at heq
  have hsplice : Splices (CStr.ofBytes rulesTemplate).bytes .fallbackRules := by
    unfold Splices
    decide +kernel
  have hrules : Placeholder.hashAlgo.token <:+:
      generateFallbackRules (spelledConfig "__ZEREH_HASH_ALGO__") := by
    refine (infix_fallbackRules_iff _ _).mpr ⟨_, .head _, .inl ?_⟩
    decide
  have hin := infix_simultaneous hsplice hrules
  rw [← heq] at hin
  exact not_infix_substituted _ _ (by decide) hin

end Zereh.Control
