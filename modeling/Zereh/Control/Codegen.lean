/-
  `control/codegen.c`: the text of the switch cases and of the fallback rules, their place in
  `zereh_dispatch` of the template, and the replacement of the placeholders.

  `printf` stands for one format call. Its pieces are the texts between the conversions; a
  conversion is taken together with the characters of the format that belong to its token, the
  quotes of a literal and the `0x`, `u` and `ULL` of a number. The 19-argument call of
  `zereh_apply_app_filters` is printed by both generators with the same arguments.
-/
import Zereh.Lib.CLex
import Zereh.Lib.Replace
import Zereh.Control.Config
import Zereh.Xdp.Router

namespace Zereh.Control

open Lib CText

/-- One byte of `zereh_escape_c_string`. -/
def escapeByte (c : UInt8) : List UInt8 :=
  if c = 92 ∨ c = 34 then [92, c]
  else if c = 10 then [92, 110]
  else if c = 13 then [92, 114]
  else if c = 9 then [92, 116]
  else [c]

/-- `zereh_escape_c_string`. -/
def escapeCString (text : List UInt8) : List UInt8 := text.flatMap escapeByte

/-- A conversion with its argument. -/
inductive Arg where
  | dec (n : Nat)
  | hexUll (n : UInt64)
  | hexU (n : UInt32)
  | quoted (s : CStr)

/-- `%u` and `%zu`, `0x%016llxULL`, `0x%xu`, `\"%s\"` with the escaped text. -/
def Arg.render : Arg → List UInt8
  | .dec n => decimal n
  | .hexUll n => [48, 120] ++ hexPadded n.toNat ++ [85, 76, 76]
  | .hexU n => [48, 120] ++ hex n.toNat ++ [117]
  | .quoted s => 34 :: (escapeCString s.bytes ++ [34])

/-- Conversions, each with the text after it. -/
def renderArgs : List (Arg × String) → List UInt8
  | [] => []
  | (arg, text) :: rest => arg.render ++ ascii text ++ renderArgs rest

/-- One format call. -/
def printf (text : String) (args : List (Arg × String)) : List UInt8 :=
  ascii text ++ renderArgs args

def spaces (n : Nat) : List UInt8 := List.replicate n 32

/-- The text of `action`, indented by 8 in a case and by 12 in a fallback rule. -/
def actionText (indent : Nat) (route : Route) : List UInt8 :=
  match route.target with
  | .userSpace =>
      spaces indent ++
        printf "return bpf_redirect_map(&xsk_map, " [(.dec route.xskQueue.toNat, ", 0);\n")]
  | .kernelSpace =>
      spaces indent ++
        printf "return zereh_route_kernel_space(iph, udp, bpf_htons("
          [(.dec route.kernelPort.toNat, "), 0);\n")]
  | .xdpProg =>
      spaces indent ++
        printf "bpf_tail_call(ctx, &prog_array, " [(.dec route.progIndex.toNat, ");\n")] ++
        (spaces indent ++ printf "return XDP_DROP;\n" [])

/-- A comma, and the indentation of the next argument. -/
def nextArg : String := ",\n                                     "

/-- The call of `zereh_apply_app_filters` from its second argument on, with the block that
    drops. -/
def filterArgs (route : Route) (routeId : Nat) : List (Arg × String) :=
  [(.quoted route.prefixMatch, nextArg),
    (.dec route.prefixMatch.len, nextArg),
    (.quoted route.suffixMatch, nextArg),
    (.dec route.suffixMatch.len, nextArg),
    (.dec route.minLabels.toNat, nextArg),
    (.dec route.maxLabels.toNat, nextArg),
    (.dec route.qnameMinLen.toNat, nextArg),
    (.dec route.qnameMaxLen.toNat, nextArg ++ "route_hash" ++ nextArg),
    (.dec routeId, nextArg),
    (.hexU route.rrtypeMask, nextArg),
    (.dec route.powDifficulty.toNat, nextArg),
    (.dec route.powTimeWindow.toNat, nextArg),
    (.dec (if route.bloomEnabled then 1 else 0), nextArg),
    (.dec route.bloomSize.toNat, nextArg),
    (.dec route.bloomHashFunctions.toNat, nextArg),
    (.dec route.bloomTimeWindow.toNat, nextArg),
    (.dec route.rateLimitQps.toNat, ")) \x7b\n            return XDP_DROP;\n        \x7d\n")]

/-- The conversions of a case: the label, then the call. -/
def caseArgs (route : Route) (routeId : Nat) : List (Arg × String) :=
  (.hexUll route.hash, ":\n        if (!zereh_apply_app_filters(qmeta" ++ nextArg) ::
    filterArgs route routeId

/-- `zereh_append_route_case`. -/
def appendRouteCase (route : Route) (routeId : Nat) : List UInt8 :=
  printf "    case " (caseArgs route routeId) ++ actionText 8 route

/-- The conversions of a rule: the test, then the call. -/
def ruleArgs (route : Route) (routeId : Nat) : List (Arg × String) :=
  (.quoted route.domain, ", ") :: (.dec route.domain.len,
    ")) \x7b\n        if (!zereh_apply_app_filters(qmeta" ++ nextArg) ::
    filterArgs route routeId

/-- `zereh_append_fallback_rule`. -/
def appendFallbackRule (route : Route) (routeId : Nat) : List UInt8 :=
  printf "    if (zereh_match_suffix(qmeta->qname, qmeta->qname_len, " (ruleArgs route routeId) ++
    actionText 12 route ++ printf "    \x7d\n" []

/-- The comment in front of the cases. -/
def casesBanner (cfg : Config) : List UInt8 :=
  printf "    /* Generated from YAML: " [(.dec cfg.routes.length, " routes, "),
    (.dec cfg.blacklist.length, " blacklist CIDRs */\n")]

/-- `zereh_generate_route_cases`. -/
def generateRouteCases (cfg : Config) : List UInt8 :=
  casesBanner cfg ++ cfg.routes.zipIdx.flatMap fun (route, i) => appendRouteCase route i

/-- `zereh_generate_fallback_rules`. -/
def generateFallbackRules (cfg : Config) : List UInt8 :=
  cfg.routes.zipIdx.flatMap fun (route, i) => appendFallbackRule route i

/-- The body of `zereh_dispatch` in the template: before, between and behind its two places. -/
def dispatchHead : List UInt8 :=
  ascii "    __u64 route_hash = zereh_route_hash(qmeta);\n\n    switch (route_hash) \x7b\n    "

def dispatchMiddle : List UInt8 :=
  ascii "\n    default:\n        break;\n    \x7d\n\n    "

def dispatchEnd : List UInt8 :=
  ascii "\n\n    return ZEREH_DEFAULT_ACTION;\n"

def dispatchTemplate : List UInt8 :=
  dispatchHead ++ ascii "/*__ZEREH_ROUTE_CASES__*/" ++ dispatchMiddle ++
    ascii "/*__ZEREH_FALLBACK_RULES__*/" ++ dispatchEnd

/-- The body with both texts in their places and nothing else replaced in it. -/
def dispatchText (cfg : Config) : List UInt8 :=
  dispatchHead ++ generateRouteCases cfg ++ dispatchMiddle ++ generateFallbackRules cfg ++ dispatchEnd

/-- The macros that `zereh_generate_xdp_source` fills in. -/
def macros (cfg : Config) : Xdp.Macros where
  maxPacketSize := cfg.maxPacketSize
  allowedOpcodeMask := cfg.allowedOpcodeMask.toUInt32
  dropTruncated := cfg.dropTruncated
  defaultAction := cfg.defaultAction
  hashAlgo := cfg.hashAlgo
  rateStateEntries := if cfg.routes.length = 0 then 1 else UInt32.ofNat cfg.routes.length

/-! ## Template -/

/-- What `zereh_generate_xdp_source` prints when it stops. -/
inductive GenerateError where
  | readTemplate (path : CStr)
  | writeSource (path : CStr)
  deriving DecidableEq

/-- The line without its newline. -/
def GenerateError.text : GenerateError → List UInt8
  | .readTemplate path => ascii "failed to read template: " ++ path.bytes
  | .writeSource path => ascii "failed writing generated source: " ++ path.bytes

/-- `zereh_generate_xdp_source`: the text of the generated source. `file` is the content of the
    template if it can be read; the replacements see it as a C string. -/
def generateXdpSource (cfg : Config) (file : Option (List UInt8)) (written : Bool) :
    Except GenerateError (List UInt8) :=
  match file with
  | none => .error (.readTemplate cfg.templatePath)
  | some content =>
    let templateText := (CStr.ofBytes content).bytes
    let routeCases := generateRouteCases cfg
    let fallbackRules := generateFallbackRules cfg
    let packetSizeStr := decimal cfg.maxPacketSize.toNat
    let opcodeMaskStr := decimal cfg.allowedOpcodeMask.toNat
    let dropTruncatedStr := decimal (if cfg.dropTruncated then 1 else 0)
    let inlineChecksumsStr := decimal (if cfg.inlineChecksums then 1 else 0)
    let hashAlgoStr := decimal (if cfg.hashAlgo = .siphash then 1 else 0)
    let rateStateEntriesStr := decimal (if cfg.routes.length = 0 then 1 else cfg.routes.length)
    let defaultActionStr :=
      if cfg.defaultAction = .drop then ascii "XDP_DROP" else ascii "XDP_PASS"
    let tmp1 := replaceAll (ascii "/*__ZEREH_ROUTE_CASES__*/") routeCases templateText
    let tmp2 := replaceAll (ascii "/*__ZEREH_FALLBACK_RULES__*/") fallbackRules tmp1
    let tmp3 := replaceAll (ascii "__ZEREH_MAX_PACKET_SIZE__") packetSizeStr tmp2
    let tmp4 := replaceAll (ascii "__ZEREH_ALLOWED_OPCODE_MASK__") opcodeMaskStr tmp3
    let tmp5 := replaceAll (ascii "__ZEREH_DROP_TRUNCATED__") dropTruncatedStr tmp4
    let tmp6 := replaceAll (ascii "__ZEREH_DEFAULT_ACTION__") defaultActionStr tmp5
    let tmp7 := replaceAll (ascii "__ZEREH_INLINE_CHECKSUMS__") inlineChecksumsStr tmp6
    let tmp8 := replaceAll (ascii "__ZEREH_HASH_ALGO__") hashAlgoStr tmp7
    let tmp9 := replaceAll (ascii "__ZEREH_RATE_STATE_ENTRIES__") rateStateEntriesStr tmp8
    if written then .ok tmp9 else .error (.writeSource cfg.generatedSource)

end Zereh.Control
