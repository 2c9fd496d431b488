/-
  The tokens of the generated text.

  Each text between two conversions has fixed tokens (`reads_lead`, `reads_after`); a conversion is one
  token with the value printed (`reads_arg`), whatever bytes a configured string holds. So the
  text of a body is `dispatchTokens` of its routes, for every configuration and whatever `f` the
  strings in its literals were put through.
-/
import Zereh.Link.Dispatch

namespace Zereh.Link

open Lib CText Control Xdp

abbrev Toks := List (Token Name)

/-! ## Characters to tokens -/

/-- A text that leaves no token unfinished. -/
def Reads (text : List UInt8) (ts : Toks) : Prop :=
  run (wordOf scope) .start text = some (.start, ts)

theorem Reads.append {a b : List UInt8} {ts us : Toks} (ha : Reads a ts) (hb : Reads b us) :
    Reads (a ++ b) (ts ++ us) := run_append ha hb

theorem reads_nil : Reads [] [] := rfl

theorem reads_spaces (n : Nat) : Reads (spaces n) [] := by
  induction n with
  | zero => rfl
  | succ n ih => exact @Reads.append [32] _ [] _ rfl ih

/-- A text that can follow a word or a number. -/
structure ReadsNext (text : String) (ts : Toks) : Prop where
  delim : ∃ c cs, ascii text = c :: cs ∧ isDelim c = true
  reads : Reads (ascii text) ts

/-- The token of a conversion. -/
def token : Arg → Token Name
  | .dec n => .int n
  | .hexUll n => .int n.toNat
  | .hexU n => .int n.toNat
  | .quoted s => .str s.bytes

/-- An escaped byte inside a literal stands for itself, whatever names are in scope. -/
theorem run_escapeByte {ι : Type} (words : List UInt8 → Option (Token ι)) (acc : List UInt8)
    (c : UInt8) : run words (.str acc) (escapeByte c) = some (.str (acc ++ [c]), []) := by
  unfold escapeByte
  split_ifs with h1 h2 h3 h4
  · rcases h1 with rfl | rfl <;> rfl
  · subst h2; rfl
  · subst h3; rfl
  · subst h4; rfl
  · rw [not_or] at h1
    simp [run, step, h1.1, h1.2, h2]

theorem run_escapeCString {ι : Type} (words : List UInt8 → Option (Token ι))
    (acc s : List UInt8) :
    run words (.str acc) (escapeCString s) = some (.str (acc ++ s), []) := by
  induction s generalizing acc with
  | nil => simp [escapeCString, run]
  | cons c s ih =>
    have := run_append (run_escapeByte words acc c) (ih (acc ++ [c]))
    rwa [List.append_assoc] at this

/-- A conversion is one token, whatever it prints. -/
theorem reads_arg (arg : Arg) {text : String} {ts : Toks} (h : ReadsNext text ts) :
    Reads (arg.render ++ ascii text) (token arg :: ts) := by
  obtain ⟨⟨c, cs, htext, hc⟩, hreads⟩ := h
  cases arg with
  | dec n => exact run_decimal n htext hc hreads
  | hexUll n => exact run_hexLiteral (run_hexPadded _) (hexPadded_eq_cons _) rfl htext hc hreads
  | hexU n =>
    exact run_hexLiteral (run_toDigits (by decide) (by decide) _) (hex_eq_cons _) rfl htext hc
      hreads
  | quoted s =>
    have hquote : run (wordOf scope) .start [34] = some (.str [], []) := rfl
    have hclose : run (wordOf scope) (.str s.bytes) [34] = some (.start, [.str s.bytes]) := rfl
    have hlit := run_append hquote (run_append (run_escapeCString _ [] s.bytes) hclose)
    exact Reads.append hlit hreads

/-- One conversion, the text after it, and the rest of the format. -/
theorem reads_cons (arg : Arg) {text : String} {ts us : Toks} {rest : List (Arg × String)}
    (h : ReadsNext text ts) (hrest : Reads (renderArgs rest) us) :
    Reads (renderArgs ((arg, text) :: rest)) (token arg :: ts ++ us) :=
  (reads_arg arg h).append hrest

/-! ## The texts between the conversions -/

/-- The texts that a format call starts with. -/
inductive Lead where
  | opening
  | defaultLabel
  | closing
  | caseLabel
  | redirect
  | kernelSpace
  | tailCall
  | returnDrop
  | rule
  | ruleEnd

def Lead.text : Lead → String
  | .opening =>
      "    __u64 route_hash = zereh_route_hash(qmeta);\n\n    switch (route_hash) \x7b\n    "
  | .defaultLabel => "\n    default:\n        break;\n    \x7d\n\n    "
  | .closing => "\n\n    return ZEREH_DEFAULT_ACTION;\n"
  | .caseLabel => "    case "
  | .redirect => "return bpf_redirect_map(&xsk_map, "
  | .kernelSpace => "return zereh_route_kernel_space(iph, udp, bpf_htons("
  | .tailCall => "bpf_tail_call(ctx, &prog_array, "
  | .returnDrop => "return XDP_DROP;\n"
  | .rule => "    if (zereh_match_suffix(qmeta->qname, qmeta->qname_len, "
  | .ruleEnd => "    \x7d\n"

def Lead.tokens : Lead → Toks
  | .opening =>
      [.ident .u64, .ident .routeHash, .punct .assign, .ident .zerehRouteHash, .punct .lparen,
        .ident .qmeta, .punct .rparen, .punct .semi, .kw .switchK, .punct .lparen,
        .ident .routeHash, .punct .rparen, .punct .lbrace]
  | .defaultLabel => [.kw .defaultK, .punct .colon, .kw .breakK, .punct .semi, .punct .rbrace]
  | .closing => [.kw .returnK, .ident .zerehDefaultAction, .punct .semi]
  | .caseLabel => [.kw .caseK]
  | .redirect =>
      [.kw .returnK, .ident .bpfRedirectMap, .punct .lparen, .punct .amp, .ident .xskMap,
        .punct .comma]
  | .kernelSpace =>
      [.kw .returnK, .ident .zerehRouteKernelSpace, .punct .lparen, .ident .iph, .punct .comma,
        .ident .udp, .punct .comma, .ident .bpfHtons, .punct .lparen]
  | .tailCall =>
      [.ident .bpfTailCall, .punct .lparen, .ident .ctx, .punct .comma, .punct .amp,
        .ident .progArray, .punct .comma]
  | .returnDrop => [.kw .returnK, .ident .xdpDrop, .punct .semi]
  | .rule =>
      [.kw .ifK, .punct .lparen, .ident .zerehMatchSuffix, .punct .lparen, .ident .qmeta, .arrow,
        .ident .qname, .punct .comma, .ident .qmeta, .arrow, .ident .qnameLen, .punct .comma]
  | .ruleEnd => [.punct .rbrace]

theorem reads_lead (t : Lead) : Reads (ascii t.text) t.tokens := by
  cases t <;> dsimp only [Lead.text, Lead.tokens] <;> unfold Reads scope reserved <;>
    (repeat rw [ascii_ofList]) <;> decide +kernel

/-- `if (!zereh_apply_app_filters(qmeta,`. -/
def filterHead : Toks :=
  [.kw .ifK, .punct .lparen, .punct .bang, .ident .zerehApplyAppFilters, .punct .lparen,
    .ident .qmeta, .punct .comma]

/-- `)) { return XDP_DROP; }`. -/
def dropBlock : Toks :=
  [.punct .rparen, .punct .rparen, .punct .lbrace, .kw .returnK, .ident .xdpDrop, .punct .semi,
    .punct .rbrace]

/-- The texts after a conversion. -/
inductive After where
  | arg
  | hashArg
  | drop
  | caseBody
  | ruleBody
  | comma
  | zero
  | closeZero
  | close

def After.text : After → String
  | .arg => nextArg
  | .hashArg => nextArg ++ "route_hash" ++ nextArg
  | .drop => ")) \x7b\n            return XDP_DROP;\n        \x7d\n"
  | .caseBody => ":\n        if (!zereh_apply_app_filters(qmeta" ++ nextArg
  | .ruleBody => ")) \x7b\n        if (!zereh_apply_app_filters(qmeta" ++ nextArg
  | .comma => ", "
  | .zero => ", 0);\n"
  | .closeZero => "), 0);\n"
  | .close => ");\n"

def After.tokens : After → Toks
  | .arg => [.punct .comma]
  | .hashArg => [.punct .comma, .ident .routeHash, .punct .comma]
  | .drop => dropBlock
  | .caseBody => .punct .colon :: filterHead
  | .ruleBody => .punct .rparen :: .punct .rparen :: .punct .lbrace :: filterHead
  | .comma => [.punct .comma]
  | .zero => [.punct .comma, .int 0, .punct .rparen, .punct .semi]
  | .closeZero => [.punct .rparen, .punct .comma, .int 0, .punct .rparen, .punct .semi]
  | .close => [.punct .rparen, .punct .semi]

theorem reads_after (t : After) : ReadsNext t.text t.tokens := by
  constructor
  · cases t <;> dsimp only [After.text, nextArg] <;> (repeat rw [ascii_append]) <;>
      (repeat rw [ascii_ofList]) <;> exact ⟨_, _, rfl, by decide⟩
  · cases t <;> dsimp only [After.text, After.tokens, nextArg, dropBlock, filterHead] <;>
      unfold Reads scope reserved <;> (repeat rw [ascii_append]) <;>
      (repeat rw [ascii_ofList]) <;> decide +kernel

/-- The comment before the cases has no tokens; the digits in it do not end it. -/
theorem run_comment {text : List UInt8} (h : ∀ c ∈ text, c ≠ 42) :
    run (wordOf scope) .comment text = some (.comment, []) := by
  induction text with
  | nil => rfl
  | cons c cs ih =>
    have hc := h c (by simp)
    have hcs := ih fun d hd => h d (by simp [hd])
    simp [run, step, hc, hcs]

theorem decimal_ne_star {n : Nat} {c : UInt8} (h : c ∈ decimal n) : c ≠ 42 := by
  obtain ⟨d, rfl⟩ := digit_of_mem_toDigits (by decide) (by decide) n h
  have hdigits : ∀ d : Fin 16, byteOf (Nat.digitChar d) ≠ 42 := by decide
  exact hdigits d

theorem reads_banner (cfg : Config) :
    Reads (casesBanner cfg) [] := by
  have hopen : run (wordOf scope) .start (ascii "    /* Generated from YAML: ") =
      some (.comment, []) := by
    rw [ascii_ofList]
    rfl
  have hmid : run (wordOf scope) .comment (ascii " routes, ") = some (.comment, []) := by
    rw [ascii_ofList]
    rfl
  have hclose : run (wordOf scope) .comment (ascii " blacklist CIDRs */\n") =
      some (.start, []) := by
    rw [ascii_ofList]
    rfl
  have hnum : ∀ n, run (wordOf scope) .comment (decimal n) = some (.comment, []) := fun n =>
    run_comment fun _ => decimal_ne_star
  exact run_append hopen (run_append (run_append (hnum _) hmid)
    (run_append (run_append (hnum _) hclose) reads_nil))

/-! ## The tokens of a route -/

section Tokens

variable (f : CStr → CStr)

/-- The arguments after the query, and the block that drops. -/
def filterTokens (r : Route) (i : Nat) : Toks :=
  ([.str (f r.prefixMatch).bytes, .punct .comma, .int r.prefixMatch.len, .punct .comma,
    .str (f r.suffixMatch).bytes, .punct .comma, .int r.suffixMatch.len, .punct .comma,
    .int r.minLabels.toNat, .punct .comma, .int r.maxLabels.toNat, .punct .comma,
    .int r.qnameMinLen.toNat, .punct .comma, .int r.qnameMaxLen.toNat, .punct .comma,
    .ident .routeHash, .punct .comma, .int i, .punct .comma, .int r.rrtypeMask.toNat,
    .punct .comma, .int r.powDifficulty.toNat, .punct .comma, .int r.powTimeWindow.toNat,
    .punct .comma, .int (if r.bloomEnabled then 1 else 0), .punct .comma,
    .int r.bloomSize.toNat, .punct .comma, .int r.bloomHashFunctions.toNat, .punct .comma,
    .int r.bloomTimeWindow.toNat, .punct .comma, .int r.rateLimitQps.toNat] : Toks) ++ dropBlock

theorem reads_filterArgs (r : Route) (i : Nat) :
    Reads (renderArgs (rewriteArgs f (filterArgs r i))) (filterTokens f r i) := by
  have harg : ReadsNext nextArg [.punct .comma] := reads_after .arg
  have hhash : ReadsNext (nextArg ++ "route_hash" ++ nextArg)
      [.punct .comma, .ident .routeHash, .punct .comma] := reads_after .hashArg
  have hdrop : ReadsNext ")) \x7b\n            return XDP_DROP;\n        \x7d\n" dropBlock :=
    reads_after .drop
  unfold filterArgs
  iterate 7 refine @reads_cons _ _ [.punct .comma] _ _ harg ?_
  refine @reads_cons _ _ [.punct .comma, .ident .routeHash, .punct .comma] _ _ hhash ?_
  iterate 8 refine @reads_cons _ _ [.punct .comma] _ _ harg ?_
  exact @reads_cons _ _ dropBlock [] _ hdrop reads_nil

/-- The action of a route. -/
def actionTokens (r : Route) : Toks :=
  match r.target with
  | .userSpace =>
      [.kw .returnK, .ident .bpfRedirectMap, .punct .lparen, .punct .amp, .ident .xskMap,
        .punct .comma, .int r.xskQueue.toNat, .punct .comma, .int 0, .punct .rparen, .punct .semi]
  | .kernelSpace =>
      [.kw .returnK, .ident .zerehRouteKernelSpace, .punct .lparen, .ident .iph, .punct .comma,
        .ident .udp, .punct .comma, .ident .bpfHtons, .punct .lparen, .int r.kernelPort.toNat,
        .punct .rparen, .punct .comma, .int 0, .punct .rparen, .punct .semi]
  | .xdpProg =>
      [.ident .bpfTailCall, .punct .lparen, .ident .ctx, .punct .comma, .punct .amp,
        .ident .progArray, .punct .comma, .int r.progIndex.toNat, .punct .rparen, .punct .semi,
        .kw .returnK, .ident .xdpDrop, .punct .semi]

theorem reads_action (indent : Nat) (r : Route) :
    Reads (actionText indent r) (actionTokens r) := by
  have hprintf : ∀ (lead : Lead) (arg : Arg) (after : After),
      Reads (spaces indent ++ printf lead.text [(arg, after.text)])
        (lead.tokens ++ (token arg :: after.tokens ++ [])) := fun lead arg after =>
    (reads_spaces indent).append
      ((reads_lead lead).append (reads_cons arg (reads_after after) reads_nil))
  unfold actionText actionTokens
  cases r.target with
  | userSpace => exact hprintf .redirect (.dec r.xskQueue.toNat) .zero
  | kernelSpace => exact hprintf .kernelSpace (.dec r.kernelPort.toNat) .closeZero
  | xdpProg =>
    have hreturn : Reads (spaces indent ++ printf "return XDP_DROP;\n" []) _ :=
      (reads_spaces indent).append ((reads_lead .returnDrop).append reads_nil)
    exact (hprintf .tailCall (.dec r.progIndex.toNat) .close).append hreturn

/-- One case of the switch. -/
def caseTokens (r : Route) (i : Nat) : Toks :=
  ([.kw .caseK, .int r.hash.toNat, .punct .colon] : Toks) ++ filterHead ++ filterTokens f r i ++
    actionTokens r

theorem reads_routeCaseOf (r : Route) (i : Nat) :
    Reads (routeCaseOf f r i) (caseTokens f r i) := by
  have hlabel := reads_cons (.hexUll r.hash) (reads_after .caseBody) (reads_filterArgs f r i)
  have htokens : caseTokens f r i = Lead.caseLabel.tokens ++ (token (.hexUll r.hash) ::
      After.caseBody.tokens ++ filterTokens f r i) ++ actionTokens r := by
    simp only [caseTokens, Lead.tokens, After.tokens, token, List.cons_append, List.nil_append,
      List.append_assoc]
  rw [htokens]
  exact ((reads_lead .caseLabel).append hlabel).append (reads_action 8 r)

/-- One fallback rule. -/
def ruleTokens (r : Route) (i : Nat) : Toks :=
  ([.kw .ifK, .punct .lparen, .ident .zerehMatchSuffix, .punct .lparen, .ident .qmeta, .arrow,
    .ident .qname, .punct .comma, .ident .qmeta, .arrow, .ident .qnameLen, .punct .comma,
    .str (f r.domain).bytes, .punct .comma, .int r.domain.len, .punct .rparen, .punct .rparen,
    .punct .lbrace] : Toks) ++ filterHead ++ filterTokens f r i ++ actionTokens r ++
    ([.punct .rbrace] : Toks)

theorem reads_fallbackRuleOf (r : Route) (i : Nat) :
    Reads (fallbackRuleOf f r i) (ruleTokens f r i) := by
  have hlen := reads_cons (.dec r.domain.len) (reads_after .ruleBody) (reads_filterArgs f r i)
  have hcond := (reads_lead .rule).append (reads_cons (.quoted (f r.domain)) (reads_after .comma) hlen)
  have htokens : ruleTokens f r i = Lead.rule.tokens ++ (token (.quoted (f r.domain)) ::
      After.comma.tokens ++ (token (.dec r.domain.len) :: After.ruleBody.tokens ++
        filterTokens f r i)) ++ actionTokens r ++ (Lead.ruleEnd.tokens ++ []) := by
    simp only [ruleTokens, Lead.tokens, After.tokens, token, List.cons_append, List.nil_append,
      List.append_assoc, List.append_nil]
  rw [htokens]
  exact (hcond.append (reads_action 12 r)).append ((reads_lead .ruleEnd).append reads_nil)

theorem reads_flatMap {α : Type} {text : α → List UInt8} {toks : α → Toks} (l : List α)
    (h : ∀ a ∈ l, Reads (text a) (toks a)) : Reads (l.flatMap text) (l.flatMap toks) := by
  induction l with
  | nil => exact reads_nil
  | cons a l ih =>
    rw [List.flatMap_cons, List.flatMap_cons]
    exact (h a (by simp)).append (ih fun b hb => h b (by simp [hb]))

/-- The tokens of the whole body. -/
def dispatchTokens (routes : List (Route × Nat)) : Toks :=
  ([.ident .u64, .ident .routeHash, .punct .assign, .ident .zerehRouteHash, .punct .lparen,
    .ident .qmeta, .punct .rparen, .punct .semi, .kw .switchK, .punct .lparen,
    .ident .routeHash, .punct .rparen, .punct .lbrace] : Toks) ++
    routes.flatMap (fun ri => caseTokens f ri.1 ri.2) ++
    ([.kw .defaultK, .punct .colon, .kw .breakK, .punct .semi, .punct .rbrace] : Toks) ++
    routes.flatMap (fun ri => ruleTokens f ri.1 ri.2) ++
    ([.kw .returnK, .ident .zerehDefaultAction, .punct .semi] : Toks)

theorem lex_dispatchTextOf (cfg : Config) :
    lex (wordOf scope) (dispatchTextOf f cfg) = some (dispatchTokens f cfg.routes.zipIdx) := by
  have hcases : Reads (routeCasesOf f cfg)
      (cfg.routes.zipIdx.flatMap fun ri => caseTokens f ri.1 ri.2) :=
    (reads_banner cfg).append (reads_flatMap _ fun ri _ => reads_routeCaseOf f ri.1 ri.2)
  have hrules : Reads (fallbackRulesOf f cfg)
      (cfg.routes.zipIdx.flatMap fun ri => ruleTokens f ri.1 ri.2) :=
    reads_flatMap _ fun ri _ => reads_fallbackRuleOf f ri.1 ri.2
  have hswitch := ((reads_lead .opening).append hcases).append (reads_lead .defaultLabel)
  exact lex_of_run ((hswitch.append hrules).append (reads_lead .closing))

end Tokens

theorem lex_dispatchText (cfg : Config) :
    lex (wordOf scope) (dispatchText cfg) = some (dispatchTokens id cfg.routes.zipIdx) := by
  rw [← dispatchTextOf_id, lex_dispatchTextOf]

end Zereh.Link
