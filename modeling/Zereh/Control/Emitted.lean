/-
  The body of `zereh_dispatch` in the source that `zereh_generate_xdp_source` writes.

  `dispatchText` has the two generated texts in their places. The passes for the macros come after
  that and go over the whole source, so a configured string that holds a placeholder of a macro is
  rewritten inside its literal, while the length beside it stays. A pattern that holds the
  placeholder of the fallback rules even gets the rules spliced into its literal.

  `generatedText` is the body after all nine passes.

  * `generatedSource_body`: every template with this body gives a source with `generatedText` in its
    place, whatever stands around it.
  * `generatedText_eq`: it is `dispatchText` with the strings `rewritten`, when no pattern holds the
    placeholder of the rules.
  * `generatedText_eq_iff`: it is `dispatchText` itself exactly when the configuration is
    `PlaceholderFree`. Then the source has `dispatchText` in it (`generatedSource_of_free`).
-/
import Zereh.Control.Template

namespace Zereh.Control

open Lib CText

/-- The body of `zereh_dispatch` in the generated source. -/
def generatedText (cfg : Config) : List UInt8 := substituted cfg dispatchTemplate

/-- The passes do not see over a byte that no placeholder has. -/
theorem substituted_append_cons (cfg : Config) {c : UInt8} (hc : tokenByte c = false)
    (a b : List UInt8) :
    substituted cfg (a ++ c :: b) = substituted cfg a ++ c :: substituted cfg b :=
  substitute_append_cons token_ne_nil passes (fun p _ => not_mem_token hc p) a b

/-- **The body in the source.** A template with this body between a newline and a brace, as
    `xdp_template.c` has it, gives a source with the generated body there. -/
theorem generatedSource_body (cfg : Config) (content before after : List UInt8)
    (htemplate : (CStr.ofBytes content).bytes = before ++ 10 :: (dispatchTemplate ++ 125 :: after)) :
    generateXdpSource cfg (some content) true =
      .ok (substituted cfg before ++ 10 :: (generatedText cfg ++ 125 :: substituted cfg after)) := by
  have hsource : generateXdpSource cfg (some content) true =
      .ok (substituted cfg (CStr.ofBytes content).bytes) := generateXdpSource_eq cfg content
  rw [hsource, htemplate, substituted_append_cons cfg rfl, substituted_append_cons cfg rfl,
    generatedText]

/-! ## The passes for the macros -/

/-- What the passes for the macros make of a text. -/
def replaceMacros (cfg : Config) (text : List UInt8) : List UInt8 :=
  substitute Placeholder.token (placeholderValue cfg) macroPlaceholders text

/-- What they make of a configured string in its literal. -/
def rewritten (cfg : Config) (s : CStr) : CStr := CStr.ofBytes (replaceMacros cfg s.bytes)

section Macros

variable (cfg : Config)

theorem mem_digits {n : Nat} {c : UInt8} (h : c ∈ decimal n) :
    ∃ d : Fin 16, c = byteOf (Nat.digitChar d) :=
  digit_of_mem_toDigits (by decide) (by decide) n h

/-- A value has digits, letters and underscores. -/
theorem macro_byte {p : Placeholder} (hp : p ∈ macroPlaceholders) {c : UInt8}
    (hc : c ∈ placeholderValue cfg p) : c ≠ 0 ∧ escapeByte c = [c] := by
  rcases macro_value_cases cfg hp with ⟨n, hn⟩ | haction
  · rw [hn] at hc
    obtain ⟨d, rfl⟩ := mem_digits hc
    have hdigits : ∀ d : Fin 16, byteOf (Nat.digitChar d) ≠ 0 ∧
        escapeByte (byteOf (Nat.digitChar d)) = [byteOf (Nat.digitChar d)] := by decide
    exact hdigits d
  · have hall : ∀ c ∈ placeholderValue cfg p, c ≠ 0 ∧ escapeByte c = [c] := by
      rw [haction]
      split_ifs
      · rw [ascii_ofList]
        simp only [List.map_cons, List.map_nil, List.forall_mem_cons, List.not_mem_nil, false_imp_iff,
          implies_true, and_true]
        decide
      · rw [ascii_ofList]
        simp only [List.map_cons, List.map_nil, List.forall_mem_cons, List.not_mem_nil, false_imp_iff,
          implies_true, and_true]
        decide
    exact hall c hc

theorem escapeCString_macro {p : Placeholder} (hp : p ∈ macroPlaceholders) :
    escapeCString (placeholderValue cfg p) = placeholderValue cfg p :=
  escapeCString_eq_self fun _ hc => (macro_byte cfg hp hc).2

/-- Quoting and the passes can change places. -/
theorem replaceMacros_escapeCString (text : List UInt8) :
    replaceMacros cfg (escapeCString text) = escapeCString (replaceMacros cfg text) := by
  unfold replaceMacros substitute
  have hvalues : ∀ p ∈ macroPlaceholders,
      escapeCString (placeholderValue cfg p) = placeholderValue cfg p := fun p =>
    escapeCString_macro cfg
  revert hvalues
  generalize macroPlaceholders = passes
  intro hvalues
  induction passes generalizing text with
  | nil => rfl
  | cons p passes ih =>
    rw [List.foldl_cons, List.foldl_cons, replaceAll_escapeCString p (hvalues p (.head _))]
    exact ih _ fun q hq => hvalues q (.tail _ hq)

theorem nul_not_mem_replaceMacros {text : List UInt8} (h : (0 : UInt8) ∉ text) :
    (0 : UInt8) ∉ replaceMacros cfg text := by
  unfold replaceMacros substitute
  have hvalues : ∀ p ∈ macroPlaceholders, (0 : UInt8) ∉ placeholderValue cfg p := fun p hp hmem =>
    (macro_byte cfg hp hmem).1 rfl
  revert hvalues
  generalize macroPlaceholders = passes
  intro hvalues
  induction passes generalizing text with
  | nil => exact h
  | cons p passes ih =>
    rw [List.foldl_cons]
    refine ih (fun hmem => ?_) fun q hq => hvalues q (.tail _ hq)
    exact (mem_replaceAll (token_ne_nil p) hmem).elim (hvalues p (.head _)) h

theorem bytes_rewritten (s : CStr) : (rewritten cfg s).bytes = replaceMacros cfg s.bytes :=
  CStr.bytes_ofBytes (nul_not_mem_replaceMacros cfg s.nulFree)

theorem replaceMacros_append_cons {c : UInt8} (hc : tokenByte c = false) (a b : List UInt8) :
    replaceMacros cfg (a ++ c :: b) = replaceMacros cfg a ++ c :: replaceMacros cfg b :=
  substitute_append_cons token_ne_nil macroPlaceholders (fun p _ => not_mem_token hc p) a b

theorem replaceMacros_eq_self {text : List UInt8}
    (h : ∀ p ∈ macroPlaceholders, ¬ p.token <:+: text) : replaceMacros cfg text = text :=
  substitute_eq_self token_ne_nil macroPlaceholders h

theorem replaceMacros_of_no_z {text : List UInt8} (h : 90 ∉ text) : replaceMacros cfg text = text :=
  replaceMacros_eq_self cfg fun _ _ => not_infix_of_no_z h

variable {cfg} {text text' : List UInt8} {strings : List CStr}

/-- The passes go through a text up to a place behind which it has no Z. -/
theorem Quotes.replaceMacros_append (h : Quotes (rewritten cfg) text text' strings) {z : List UInt8}
    (hz : 90 ∉ z) :
    ∃ done z', 90 ∉ z' ∧ z ++ text' = done ++ z' ∧
      ∀ rest, replaceMacros cfg (z ++ (text ++ rest)) = done ++ replaceMacros cfg (z' ++ rest) := by
  induction h generalizing z with
  | @plain text h =>
    refine ⟨[], z ++ text, ?_, rfl, fun rest => by rw [List.append_assoc, List.nil_append]⟩
    rw [List.mem_append]
    exact not_or.mpr ⟨hz, h⟩
  | quoted s =>
    refine ⟨z ++ (Arg.quoted (rewritten cfg s)).render, [], nofun, (List.append_nil _).symm,
      fun rest => ?_⟩
    have hrender : z ++ ((Arg.quoted s).render ++ rest) =
        z ++ 34 :: (escapeCString s.bytes ++ 34 :: rest) := by
      rw [Arg.render, List.cons_append, List.append_assoc, List.singleton_append]
    rw [hrender, replaceMacros_append_cons cfg rfl, replaceMacros_append_cons cfg rfl,
      replaceMacros_of_no_z cfg hz, replaceMacros_escapeCString, ← bytes_rewritten, Arg.render,
      List.nil_append, List.append_assoc, List.cons_append, List.append_assoc, List.singleton_append]
  | append ha hb iha ihb =>
    obtain ⟨done, z1, hz1, htext, hrun⟩ := iha hz
    obtain ⟨done', z2, hz2, htext', hrun'⟩ := ihb hz1
    refine ⟨done ++ done', z2, hz2, ?_, fun rest => ?_⟩
    · rw [← List.append_assoc, htext, List.append_assoc, htext', List.append_assoc]
    · rw [List.append_assoc, hrun, hrun', List.append_assoc]

theorem Quotes.replaceMacros_eq (h : Quotes (rewritten cfg) text text' strings) :
    replaceMacros cfg text = text' := by
  obtain ⟨done, z, hz, htext, hrun⟩ := h.replaceMacros_append (z := []) nofun
  have hall := hrun []
  rw [List.append_nil, List.append_nil, List.nil_append] at hall
  rw [List.nil_append] at htext
  rw [hall, htext, replaceMacros_of_no_z cfg hz]

end Macros

/-! ## The generated body -/

/-- No pattern holds the placeholder of the fallback rules. -/
def NoSplice (cfg : Config) : Prop :=
  ∀ r ∈ cfg.routes, ¬ Placeholder.fallbackRules.token <:+: r.prefixMatch.bytes ∧
    ¬ Placeholder.fallbackRules.token <:+: r.suffixMatch.bytes

/-- The places of the template's body after the first two passes, and after all of them. -/
theorem marked_two_dispatchTemplate :
    markAll Placeholder.token [.routeCases, .fallbackRules] (dispatchTemplate.map .text) =
      dispatchHead.map .text ++ .hole .routeCases :: (dispatchMiddle.map .text ++
        .hole .fallbackRules :: dispatchEnd.map .text) := by
  decide +kernel

theorem marked_dispatchTemplate :
    marked dispatchTemplate =
      dispatchHead.map .text ++ .hole .routeCases :: (dispatchMiddle.map .text ++
        .hole .fallbackRules :: dispatchEnd.map .text) := by
  decide +kernel

theorem simultaneous_dispatchTemplate (cfg : Config) :
    simultaneous cfg dispatchTemplate = dispatchText cfg := by
  rw [simultaneous, marked_dispatchTemplate, dispatchText]
  simp only [expand_append, expand_map_text, expand_hole_cons, placeholderValue, List.append_assoc]

/-- Up to the default action a Z stands in the strings only. -/
theorem quotes_dispatchText {f : CStr → CStr} (cfg : Config) :
    ∃ strings, Quotes f
      (dispatchHead ++ generateRouteCases cfg ++ dispatchMiddle ++ generateFallbackRules cfg)
      (dispatchHead ++ routeCasesOf f cfg ++ dispatchMiddle ++ fallbackRulesOf f cfg) strings := by
  have hhead : Quotes f dispatchHead dispatchHead [] :=
    .plain (by rw [dispatchHead, ascii_ofList]; decide)
  have hmiddle : Quotes f dispatchMiddle dispatchMiddle [] :=
    .plain (by rw [dispatchMiddle, ascii_ofList]; decide)
  exact ⟨_, ((hhead.append (quotes_routeCases cfg)).append hmiddle).append
    (quotes_fallbackRules cfg)⟩

/-- The default action is a macro of the template, not a placeholder. -/
theorem replaceMacros_append_dispatchEnd (cfg : Config) (text : List UInt8) :
    replaceMacros cfg (text ++ dispatchEnd) = replaceMacros cfg text ++ dispatchEnd := by
  have hend : dispatchEnd = 10 :: dispatchEnd.tail := by
    rw [dispatchEnd, ascii_ofList]
    rfl
  have hfree : ∀ p ∈ macroPlaceholders, ¬ p.token <:+: dispatchEnd.tail := by
    decide +kernel
  rw [hend, replaceMacros_append_cons cfg rfl, replaceMacros_eq_self cfg hfree]

/-- **The written body.** It is the intended one with its strings rewritten. -/
theorem generatedText_eq {cfg : Config} (h : NoSplice cfg) :
    generatedText cfg = dispatchTextOf (rewritten cfg) cfg := by
  have hcases : ¬ Placeholder.fallbackRules.token <:+: generateRouteCases cfg := by
    simp only [infix_routeCases_iff, not_exists, not_and, not_or]
    exact h
  have hafter : afterRules cfg .routeCases = generateRouteCases cfg :=
    replaceAll_eq_self (token_ne_nil _) hcases
  have hbody : expand (afterRules cfg) (markAll Placeholder.token [.routeCases, .fallbackRules]
      (dispatchTemplate.map .text)) = dispatchText cfg := by
    rw [marked_two_dispatchTemplate, dispatchText]
    simp only [expand_append, expand_map_text, expand_hole_cons, hafter, List.append_assoc]
    rfl
  obtain ⟨strings, hquotes⟩ := quotes_dispatchText (f := rewritten cfg) cfg
  rw [generatedText, substituted_split, two_passes, hbody]
  exact (replaceMacros_append_dispatchEnd cfg _).trans
    (congrArg (· ++ dispatchEnd) hquotes.replaceMacros_eq)

/-! ## Configurations without placeholders -/

/-- No configured string holds a placeholder that a pass behind it replaces. A domain stands in the
    fallback rules only, which the pass for the rules does not see. -/
structure PlaceholderFree (cfg : Config) : Prop where
  patterns : ∀ q ∈ Placeholder.fallbackRules :: macroPlaceholders, ∀ r ∈ cfg.routes,
    ¬ q.token <:+: r.prefixMatch.bytes ∧ ¬ q.token <:+: r.suffixMatch.bytes
  domains : ∀ q ∈ macroPlaceholders, ∀ r ∈ cfg.routes, ¬ q.token <:+: r.domain.bytes

theorem PlaceholderFree.noSplice {cfg : Config} (h : PlaceholderFree cfg) : NoSplice cfg :=
  fun r hr => h.patterns _ (.head _) r hr

/-- Strings without a capital Z hold no placeholder. -/
theorem PlaceholderFree.of_no_z {cfg : Config} (h : ∀ r ∈ cfg.routes,
    90 ∉ r.domain.bytes ∧ 90 ∉ r.prefixMatch.bytes ∧ 90 ∉ r.suffixMatch.bytes) :
    PlaceholderFree cfg where
  patterns _ _ r hr := ⟨not_infix_of_no_z (h r hr).2.1, not_infix_of_no_z (h r hr).2.2⟩
  domains _ _ r hr := not_infix_of_no_z (h r hr).1

/-- **When the written program is the intended one.** -/
theorem generatedText_eq_iff {cfg : Config} (hroutes : cfg.routes ≠ []) :
    generatedText cfg = dispatchText cfg ↔ PlaceholderFree cfg := by
  have hcases : Splices dispatchTemplate .routeCases := by
    unfold Splices
    rw [marked_dispatchTemplate]
    exact List.mem_append_right _ (.head _)
  have hrules : Splices dispatchTemplate .fallbackRules := by
    unfold Splices
    rw [marked_dispatchTemplate]
    exact List.mem_append_right _ (.tail _ (List.mem_append_right _ (.head _)))
  rw [generatedText, ← simultaneous_dispatchTemplate, substituted_eq_iff hroutes]
  constructor
  · rintro ⟨hfirst, hsecond⟩
    exact ⟨hfirst hcases, fun q hq r hr => (hsecond hrules q hq r hr).1⟩
  · intro h
    exact ⟨fun _ => h.patterns, fun _ q hq r hr =>
      ⟨h.domains q hq r hr, h.patterns q (.tail _ hq) r hr⟩⟩

/-- **The generator writes the intended program.** For a configuration without placeholders the body
    in the written source is `dispatchText`. -/
theorem generatedSource_of_free {cfg : Config} (hroutes : cfg.routes ≠ []) (hfree : PlaceholderFree cfg)
    (content before after : List UInt8)
    (htemplate : (CStr.ofBytes content).bytes = before ++ 10 :: (dispatchTemplate ++ 125 :: after)) :
    generateXdpSource cfg (some content) true =
      .ok (substituted cfg before ++ 10 :: (dispatchText cfg ++ 125 :: substituted cfg after)) := by
  rw [generatedSource_body cfg content before after htemplate, (generatedText_eq_iff hroutes).mpr hfree]

end Zereh.Control
