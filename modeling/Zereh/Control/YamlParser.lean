/-
  `control/yaml_parser.c`: from a loaded YAML document to a `zereh_config`.

  libyaml is outside the repository. What it hands over is a `yaml_document_t`: nodes numbered
  from 1, a sequence holding node numbers and a mapping pairs of them. `parseConfigYaml` starts
  where `yaml_parser_load` has returned.

  A return of -1 is an error that carries the lines written to stderr, in order. The sequence of
  `if (v && parse (v, &field) != 0) return -1;` of a function is a chain of `field` steps on the
  struct it fills. `zereh_parse_route` is cut at its blank lines: domain and target, flat keys,
  `filters`, pairing of the bounds, validation.
-/
import Zereh.Lib.CStdlib
import Zereh.Lib.Steps
import Zereh.Control.Hash

namespace Zereh.Control

open Lib

/-! ## Documents -/

/-- `yaml_node_t`. -/
inductive YamlNode where
  | scalar (value : List UInt8)
  | sequence (items : List Nat)
  | mapping (pairs : List (Nat × Nat))
  deriving DecidableEq, Repr

/-- `yaml_document_t`. -/
structure YamlDocument where
  nodes : List YamlNode
  deriving DecidableEq, Repr

/-- `yaml_document_get_node`: numbers start at 1. -/
def YamlDocument.getNode (doc : YamlDocument) (i : Nat) : Option YamlNode :=
  if i = 0 then none else doc.nodes[i - 1]?

/-- `yaml_document_get_root_node`. -/
def YamlDocument.getRootNode (doc : YamlDocument) : Option YamlNode := doc.nodes.head?

/-- What is written to stderr. -/
inductive Message where
  | blacklistFull
  | seedsFull (domain : CStr)
  | missingDomain
  | missingTarget (domain : CStr)
  | unsupportedTarget (domain target : CStr)
  | routesFull
  | rootNotMapping
  | invalidGlobal
  | invalidGlobalFilters
  | invalidKernelPort
  | invalidCodegenOptions
  | invalidRoutes
  | noRoute
  deriving DecidableEq

/-- The line without its newline. -/
def Message.text : Message → List UInt8
  | .blacklistFull => ascii "blacklist exceeds max entries (1024)"
  | .seedsFull domain => ascii "route " ++ domain.bytes ++ ascii " bloom seeds exceed max (32)"
  | .missingDomain => ascii "route missing domain"
  | .missingTarget domain => ascii "route " ++ domain.bytes ++ ascii " missing target_type/target"
  | .unsupportedTarget domain target =>
      ascii "route " ++ domain.bytes ++ ascii " has unsupported target_type '" ++ target.bytes ++
        ascii "'"
  | .routesFull => ascii "routes exceed max entries (1024)"
  | .rootNotMapping => ascii "config root must be a mapping"
  | .invalidGlobal => ascii "invalid global section"
  | .invalidGlobalFilters => ascii "invalid global_filters section"
  | .invalidKernelPort => ascii "invalid default_kernel_port"
  | .invalidCodegenOptions => ascii "invalid codegen_options"
  | .invalidRoutes => ascii "invalid routes"
  | .noRoute => ascii "at least one route is required"

abbrev Parsed := Except (List Message)

/-- `return -1` without a message. -/
def reject {α : Type} : Parsed α := .error []

/-- The message a caller adds when a call failed. -/
def orSay {α : Type} (m : Message) : Parsed α → Parsed α
  | .ok a => .ok a
  | .error ms => .error (ms ++ [m])

/-! ## Nodes -/

/-- `zereh_map_get`: the first pair whose key is this scalar and whose value exists. -/
def mapGet (doc : YamlDocument) (map : YamlNode) (key : String) : Option YamlNode :=
  match map with
  | .mapping pairs => pairs.findSome? fun (k, v) =>
      match doc.getNode k, doc.getNode v with
      | some (.scalar value), some node => if value = ascii key then some node else none
      | _, _ => none
  | _ => none

/-- A key, or its other name when the first is absent. -/
def mapGet2 (doc : YamlDocument) (map : YamlNode) (key key' : String) : Option YamlNode :=
  (mapGet doc map key).or (mapGet doc map key')

/-- `zereh_scalar`. -/
def scalar : YamlNode → Option CStr
  | .scalar value => some (CStr.ofBytes value)
  | _ => none

/-- `zereh_parse_u32`. -/
def parseU32 (node : YamlNode) : Parsed UInt32 :=
  match scalar node with
  | none => reject
  | some s =>
    match strtoul s.bytes with
    | none => reject
    | some (v, rest) =>
      if rest ≠ [] ∨ v > 0xffffffff then reject else .ok (UInt32.ofNat v)

/-- `zereh_parse_u16`. -/
def parseU16 (node : YamlNode) : Parsed UInt16 := do
  let tmp ← parseU32 node
  if tmp > 0xffff then reject else .ok tmp.toUInt16

/-- `zereh_parse_u8`. -/
def parseU8 (node : YamlNode) : Parsed UInt8 := do
  let tmp ← parseU32 node
  if tmp > 0xff then reject else .ok tmp.toUInt8

/-- `strcasecmp (s, w) == 0` for one of the words. -/
def isOneOf (s : CStr) (words : List String) : Bool := words.any fun w => caseEq s.bytes (ascii w)

/-- A scalar that is one of a few words. -/
def parseWord {α : Type} (table : List (List String × α)) (node : YamlNode) : Parsed α :=
  match scalar node with
  | none => reject
  | some s =>
    match table.find? fun row => isOneOf s row.1 with
    | some row => .ok row.2
    | none => reject

/-- `zereh_parse_bool`. "1" and "0" have no other letter case. -/
def parseBool : YamlNode → Parsed Bool :=
  parseWord [(["true", "yes", "on", "1"], true), (["false", "no", "off", "0"], false)]

/-- `zereh_rrtype_to_mask`. -/
def rrtypeToMask (rr : Option CStr) : UInt32 :=
  match rr with
  | none => 0
  | some s =>
    if isOneOf s ["A"] then rrtypeA
    else if isOneOf s ["AAAA"] then rrtypeAaaa
    else if isOneOf s ["TXT"] then rrtypeTxt
    else if isOneOf s ["ANY"] then rrtypeAny
    else 0

/-- `zereh_parse_target`. -/
def parseTarget (target : CStr) : Option TargetType :=
  if isOneOf target ["user_space"] then some .userSpace
  else if isOneOf target ["kernel_space"] then some .kernelSpace
  else if isOneOf target ["xdp_prog"] then some .xdpProg
  else none

/-- `zereh_parse_default_action`. -/
def parseDefaultAction : YamlNode → Parsed DefaultAction :=
  parseWord [(["pass", "xdp_pass"], .pass), (["drop", "xdp_drop"], .drop)]

/-- `zereh_parse_xdp_mode`. -/
def parseXdpMode : YamlNode → Parsed XdpMode :=
  parseWord [(["native", "drv"], .native), (["skb", "generic"], .skb),
    (["offload", "hw"], .offload)]

/-- `zereh_parse_hash_algorithm`: the algorithm and its canonical name. -/
def parseHashAlgorithm : YamlNode → Parsed (HashAlgorithm × CStr) :=
  parseWord [(["FNV-1a", "fnv1a", "fnv-1a"], (.fnv1a, CStr.lit "FNV-1a")),
    (["SipHash", "siphash", "siphash24", "siphash-2-4"], (.siphash, CStr.lit "SipHash"))]

/-- The loop of `zereh_parse_rrtype_mask` over a sequence. -/
def rrtypeLoop (doc : YamlDocument) : List Nat → UInt32 → Parsed UInt32
  | [], mask => .ok mask
  | item :: items, mask =>
      let bit := rrtypeToMask ((doc.getNode item).bind scalar)
      if bit = 0 then reject else rrtypeLoop doc items (mask ||| bit)

/-- `zereh_parse_rrtype_mask`. -/
def parseRrtypeMask (doc : YamlDocument) (node : YamlNode) : Parsed UInt32 :=
  match node with
  | .scalar _ =>
      let mask := rrtypeToMask (scalar node)
      if mask = 0 then reject else .ok mask
  | .sequence items => do
      let mask ← rrtypeLoop doc items 0
      if mask = 0 then reject else .ok mask
  | .mapping _ => reject

/-- An opcode up to 15 as a mask bit. -/
def opcodeBit (node : YamlNode) : Parsed UInt16 := do
  let opcode ← parseU32 node
  if opcode > 15 then reject else .ok ((1 : UInt32) <<< opcode).toUInt16

/-- The loop of `zereh_parse_allowed_opcodes`. -/
def opcodeLoop (doc : YamlDocument) : List Nat → UInt16 → Parsed UInt16
  | [], mask => .ok mask
  | item :: items, mask =>
      match doc.getNode item with
      | none => reject
      | some entry => do
          let bit ← opcodeBit entry
          opcodeLoop doc items (mask ||| bit)

/-- `zereh_parse_allowed_opcodes`: an empty list means opcode 0. -/
def parseAllowedOpcodes (doc : YamlDocument) (node : YamlNode) : Parsed UInt16 :=
  match node with
  | .scalar _ => opcodeBit node
  | .sequence items => do
      let mask ← opcodeLoop doc items 0
      .ok (if mask = 0 then 1 else mask)
  | .mapping _ => reject

/-- The text of a blacklist entry: a scalar, or a mapping with the key `cidr`. -/
def entryCidr (doc : YamlDocument) (entry : YamlNode) : Option CStr :=
  match entry with
  | .scalar _ => scalar entry
  | .mapping _ => (mapGet doc entry "cidr").bind scalar
  | .sequence _ => none

/-- The loop of `zereh_parse_blacklist`. -/
def blacklistLoop (doc : YamlDocument) : List Nat → List CStr → Parsed (List CStr)
  | [], list => .ok list
  | item :: items, list =>
      if list.length ≥ maxBlacklist then .error [.blacklistFull]
      else
        match doc.getNode item with
        | none => blacklistLoop doc items list
        | some entry =>
          match entryCidr doc entry with
          | none => reject
          | some cidr =>
            if cidr.bytes = [] then reject
            else blacklistLoop doc items (list ++ [cidr.clip (maxCidrLen - 1)])

/-- `zereh_parse_blacklist`. -/
def parseBlacklist (doc : YamlDocument) (node : YamlNode) : Parsed (List CStr) :=
  match node with
  | .sequence items => blacklistLoop doc items []
  | _ => reject

/-! ## Filling a struct -/

section Steps

variable {σ α : Type}

/-- `if (v && parse (v, &field) != 0) return -1;` -/
def field (v : Option YamlNode) (parse : YamlNode → Parsed α) (set : α → σ → σ) (s : σ) :
    Parsed σ :=
  match v with
  | none => .ok s
  | some node => do
      let a ← parse node
      .ok (set a s)

/-- `if (v && zereh_scalar (v)) snprintf (field, n + 1, "%s", zereh_scalar (v));` -/
def textField (n : Nat) (v : Option YamlNode) (set : CStr → σ → σ) (s : σ) : Parsed σ :=
  match v.bind scalar with
  | none => .ok s
  | some text => .ok (set (text.clip n) s)

/-- `if (node && node->type == YAML_MAPPING_NODE) { .. }`. -/
def subsection (v : Option YamlNode) (body : YamlNode → σ → Parsed σ) (s : σ) : Parsed σ :=
  match v with
  | some (.mapping pairs) => body (.mapping pairs) s
  | _ => .ok s

end Steps

/-! ## Routes -/

/-- A route being filled, with the flags `has_min_labels` to `has_max_length`. -/
structure Draft extends Route where
  hasMinLabels : Bool
  hasMaxLabels : Bool
  hasMinLength : Bool
  hasMaxLength : Bool

/-- The first half of `zereh_parse_route`: defaults, `domain` and its hash, target. -/
def parseRouteTarget (doc : YamlDocument) (node : YamlNode) (cfg : Config) : Parsed Draft :=
  match (mapGet doc node "domain").bind scalar with
  | none => .error [.missingDomain]
  | some text =>
    if text.bytes = [] then .error [.missingDomain]
    else
      let domain := text.clip maxDomainLen
      match (mapGet2 doc node "target_type" "target").bind scalar with
      | none => .error [.missingTarget domain]
      | some word =>
        match parseTarget word with
        | none => .error [.unsupportedTarget domain word]
        | some target => .ok
          { domain, target
            hash := hashDomain domain cfg.hashAlgo
            xskQueue := 0
            kernelPort := cfg.defaultKernelPort
            progIndex := 0
            progName := CStr.empty
            prefixMatch := CStr.empty
            suffixMatch := CStr.empty
            minLabels := 0
            maxLabels := 0
            qnameMinLen := 0
            qnameMaxLen := 0
            rrtypeMask := rrtypeA ||| rrtypeAaaa ||| rrtypeTxt
            powEnabled := true
            powDifficulty := 0
            powTimeWindow := 0
            bloomEnabled := false
            bloomSize := 1024
            bloomHashFunctions := 3
            bloomTimeWindow := 0
            bloomSeeds := []
            rateLimitQps := 0
            hasMinLabels := false
            hasMaxLabels := false
            hasMinLength := false
            hasMaxLength := false }

def setPrefix (s : CStr) (d : Draft) : Draft := { d with prefixMatch := s }
def setSuffix (s : CStr) (d : Draft) : Draft := { d with suffixMatch := s }
def setMinLabels (n : UInt8) (d : Draft) : Draft := { d with minLabels := n, hasMinLabels := true }
def setMaxLabels (n : UInt8) (d : Draft) : Draft := { d with maxLabels := n, hasMaxLabels := true }

def setMinLength (n : UInt16) (d : Draft) : Draft :=
  { d with qnameMinLen := n, hasMinLength := true }

def setMaxLength (n : UInt16) (d : Draft) : Draft :=
  { d with qnameMaxLen := n, hasMaxLength := true }

def setPowDifficulty (n : UInt8) (d : Draft) : Draft := { d with powDifficulty := n }
def setRrtypeMask (mask : UInt32) (d : Draft) : Draft := { d with rrtypeMask := mask }

/-- The flat keys of `zereh_parse_route`. -/
def parseRouteFlat (doc : YamlDocument) (node : YamlNode) : Draft → Parsed Draft :=
  field (mapGet2 doc node "xsk_map_index" "xsk_queue") parseU32
      (fun n d => { d with xskQueue := n }) >=>
    field (mapGet2 doc node "forward_port" "kernel_port") parseU16
      (fun n d => { d with kernelPort := n }) >=>
    field (mapGet2 doc node "prog_array_index" "prog_index") parseU32
      (fun n d => { d with progIndex := n }) >=>
    textField (maxProgName - 1) (mapGet2 doc node "prog_name" "xdp_prog_name")
      (fun s d => { d with progName := s }) >=>
    textField maxPatternLen (mapGet doc node "prefix") setPrefix >=>
    textField maxPatternLen (mapGet doc node "suffix") setSuffix >=>
    field (mapGet doc node "min_labels") parseU8 setMinLabels >=>
    field (mapGet doc node "max_labels") parseU8 setMaxLabels >=>
    field (mapGet2 doc node "qname_min_len" "min_length") parseU16 setMinLength >=>
    field (mapGet2 doc node "qname_max_len" "max_length") parseU16 setMaxLength >=>
    field (mapGet doc node "pow_difficulty") parseU8 setPowDifficulty >=>
    field (mapGet doc node "allow_types") (parseRrtypeMask doc) setRrtypeMask

/-- `zereh_parse_route_dns_types`. -/
def parseRouteDnsTypes (doc : YamlDocument) (dnsTypes : YamlNode) (d : Draft) : Parsed Draft :=
  match dnsTypes with
  | .mapping _ => do
      let allow ← field (mapGet doc dnsTypes "allow") (parseRrtypeMask doc) (fun m _ => m)
        d.rrtypeMask
      let deny ← field (mapGet doc dnsTypes "deny") (parseRrtypeMask doc) (fun m _ => m) 0
      let mask := allow &&& ~~~deny
      if mask = 0 then reject else .ok (setRrtypeMask mask d)
  | _ => reject

/-- The loop of `zereh_parse_bloom_seeds`. -/
def seedLoop (doc : YamlDocument) (domain : CStr) : List Nat → List CStr → Parsed (List CStr)
  | [], seeds => .ok seeds
  | item :: items, seeds =>
      if seeds.length ≥ maxBloomSeeds then .error [.seedsFull domain]
      else
        match (doc.getNode item).bind scalar with
        | none => reject
        | some seed =>
          if seed.bytes = [] then reject
          else seedLoop doc domain items (seeds ++ [seed.clip maxDomainLen])

/-- `zereh_parse_bloom_seeds`. -/
def parseBloomSeeds (doc : YamlDocument) (node : YamlNode) (d : Draft) : Parsed Draft :=
  match node with
  | .sequence items => do
      let seeds ← seedLoop doc d.domain items []
      .ok { d with bloomSeeds := seeds }
  | _ => reject

/-- `filters.pow`. -/
def parsePow (doc : YamlDocument) (node : YamlNode) : Draft → Parsed Draft :=
  field (mapGet doc node "enabled") parseBool (fun b d => { d with powEnabled := b }) >=>
    field (mapGet doc node "difficulty") parseU8 setPowDifficulty >=>
    field (mapGet doc node "time_window") parseU16 (fun n d => { d with powTimeWindow := n })

/-- `filters.qname_rules`. -/
def parseQnameRules (doc : YamlDocument) (node : YamlNode) : Draft → Parsed Draft :=
  textField maxPatternLen (mapGet doc node "prefix_match") setPrefix >=>
    textField maxPatternLen (mapGet doc node "suffix_match") setSuffix >=>
    field (mapGet doc node "min_labels") parseU8 setMinLabels >=>
    field (mapGet doc node "max_labels") parseU8 setMaxLabels >=>
    field (mapGet doc node "min_length") parseU16 setMinLength >=>
    field (mapGet doc node "max_length") parseU16 setMaxLength

/-- `filters.rate_limit`. -/
def parseRateLimit (doc : YamlDocument) (node : YamlNode) : Draft → Parsed Draft :=
  field (mapGet doc node "qps") parseU32 (fun n d => { d with rateLimitQps := n })

/-- `if (v && step (v) != 0) return -1;` for a step that fills several fields. -/
def stepField {σ : Type} (v : Option YamlNode) (step : YamlNode → σ → Parsed σ) (s : σ) :
    Parsed σ :=
  match v with
  | none => .ok s
  | some node => step node s

/-- `filters.bloom_filter`. -/
def parseBloomFilter (doc : YamlDocument) (node : YamlNode) : Draft → Parsed Draft :=
  field (mapGet doc node "enabled") parseBool (fun b d => { d with bloomEnabled := b }) >=>
    field (mapGet doc node "size") parseU32 (fun n d => { d with bloomSize := n }) >=>
    field (mapGet doc node "hash_functions") parseU8
      (fun n d => { d with bloomHashFunctions := n }) >=>
    field (mapGet doc node "time_window") parseU16 (fun n d => { d with bloomTimeWindow := n }) >=>
    stepField ((mapGet2 doc node "allow_qnames" "seed_qnames").or (mapGet doc node "seeds"))
      (parseBloomSeeds doc)

/-- `zereh_parse_route_filters`. -/
def parseRouteFilters (doc : YamlDocument) (filters : YamlNode) (d : Draft) : Parsed Draft :=
  match filters with
  | .mapping _ =>
      (subsection (mapGet doc filters "pow") (parsePow doc) >=>
        subsection (mapGet doc filters "qname_rules") (parseQnameRules doc) >=>
        subsection (mapGet doc filters "rate_limit") (parseRateLimit doc) >=>
        stepField (mapGet doc filters "dns_types") (parseRouteDnsTypes doc) >=>
        subsection (mapGet doc filters "bloom_filter") (parseBloomFilter doc)) d
  | _ => reject

/-- The pairing of the bounds: a missing bound is the given one of its pair, a pair with
    neither given is 1..127 for labels and 1..255 for lengths. -/
def pairBounds (d : Draft) : Route :=
  let r := d.toRoute
  let r :=
    if !d.hasMinLabels ∧ !d.hasMaxLabels then { r with minLabels := 1, maxLabels := 127 }
    else if d.hasMinLabels ∧ !d.hasMaxLabels then { r with maxLabels := r.minLabels }
    else if !d.hasMinLabels ∧ d.hasMaxLabels then { r with minLabels := r.maxLabels }
    else r
  if !d.hasMinLength ∧ !d.hasMaxLength then { r with qnameMinLen := 1, qnameMaxLen := 255 }
  else if d.hasMinLength ∧ !d.hasMaxLength then { r with qnameMaxLen := r.qnameMinLen }
  else if !d.hasMinLength ∧ d.hasMaxLength then { r with qnameMinLen := r.qnameMaxLen }
  else r

/-- `if (!route->pow_enabled) { .. }`. -/
def clearPow (r : Route) : Route :=
  if !r.powEnabled then { r with powDifficulty := 0, powTimeWindow := 0 } else r

/-- The Bloom parameters at the end of `zereh_parse_route`. -/
def checkBloom (r : Route) : Parsed Route :=
  if !r.bloomEnabled then
    .ok { r with bloomSize := 0, bloomHashFunctions := 0, bloomTimeWindow := 0, bloomSeeds := [] }
  else
    let size := if r.bloomSize = 0 then 1024 else r.bloomSize
    let hashFunctions := if r.bloomHashFunctions = 0 then 3 else r.bloomHashFunctions
    if size > 65536 ∨ size < 64 then reject
    else if hashFunctions > 8 then reject
    else
      let seeds := if r.bloomSeeds = [] then [r.domain.clip maxDomainLen] else r.bloomSeeds
      .ok { r with bloomSize := size, bloomHashFunctions := hashFunctions, bloomSeeds := seeds }

/-- The validation at the end of `zereh_parse_route`. -/
def checkRoute (r : Route) : Parsed Route :=
  if r.minLabels = 0 ∨ r.maxLabels = 0 ∨ r.minLabels > r.maxLabels ∨ r.maxLabels > 127 then reject
  else if r.qnameMinLen = 0 ∨ r.qnameMaxLen > 255 ∨ r.qnameMinLen > r.qnameMaxLen then reject
  else
    let r := clearPow r
    if r.powDifficulty > 63 then reject else checkBloom r

/-- `zereh_parse_route`. -/
def parseRoute (doc : YamlDocument) (node : Option YamlNode) (cfg : Config) : Parsed Route :=
  match node with
  | some (.mapping pairs) => do
      let node := YamlNode.mapping pairs
      let d ← parseRouteTarget doc node cfg
      let d ← parseRouteFlat doc node d
      let d ← stepField (mapGet doc node "filters") (parseRouteFilters doc) d
      checkRoute (pairBounds d)
  | _ => reject

/-- The loop of `zereh_parse_routes`. -/
def routeLoop (doc : YamlDocument) (cfg : Config) : List Nat → List Route → Parsed (List Route)
  | [], routes => .ok routes
  | item :: items, routes =>
      if routes.length ≥ maxRoutes then .error [.routesFull]
      else do
        let route ← parseRoute doc (doc.getNode item) cfg
        routeLoop doc cfg items (routes ++ [route])

/-- `zereh_parse_routes`. -/
def parseRoutes (doc : YamlDocument) (node : YamlNode) (cfg : Config) : Parsed Config :=
  match node with
  | .sequence items => do
      let routes ← routeLoop doc cfg items []
      .ok { cfg with routes }
  | _ => reject

/-! ## The configuration -/

def setInterface (s : CStr) (cfg : Config) : Config := { cfg with interface := s }
def setXdpMode (m : XdpMode) (cfg : Config) : Config := { cfg with xdpMode := m }
def setDefaultAction (a : DefaultAction) (cfg : Config) : Config := { cfg with defaultAction := a }
def setBlacklist (l : List CStr) (cfg : Config) : Config := { cfg with blacklist := l }
def setMaxPacketSize (n : UInt32) (cfg : Config) : Config := { cfg with maxPacketSize := n }
def setOpcodeMask (m : UInt16) (cfg : Config) : Config := { cfg with allowedOpcodeMask := m }
def setDropTruncated (b : Bool) (cfg : Config) : Config := { cfg with dropTruncated := b }

/-- The keys of the global section, nested or at the root. -/
def parseGlobalKeys (doc : YamlDocument) (map : YamlNode) : Config → Parsed Config :=
  textField (ifnamsiz - 1) (mapGet doc map "interface") setInterface >=>
    field (mapGet doc map "xdp_mode") parseXdpMode setXdpMode >=>
    field (mapGet doc map "default_action") parseDefaultAction setDefaultAction

/-- `zereh_parse_global_section`. -/
def parseGlobalSection (doc : YamlDocument) (root : YamlNode) : Config → Parsed Config :=
  subsection (mapGet doc root "global") (parseGlobalKeys doc) >=> parseGlobalKeys doc root

/-- The keys of the global filters; the blacklist has another name at the root. -/
def parseFilterKeys (doc : YamlDocument) (blacklistKey : String) (map : YamlNode) :
    Config → Parsed Config :=
  field (mapGet doc map blacklistKey) (parseBlacklist doc) setBlacklist >=>
    field (mapGet doc map "max_packet_size") parseU32 setMaxPacketSize >=>
    field (mapGet doc map "allowed_opcodes") (parseAllowedOpcodes doc) setOpcodeMask >=>
    field (mapGet doc map "drop_truncated") parseBool setDropTruncated

/-- `zereh_parse_global_filters`. -/
def parseGlobalFilters (doc : YamlDocument) (root : YamlNode) : Config → Parsed Config :=
  subsection (mapGet doc root "global_filters") (parseFilterKeys doc "ip_blacklist") >=>
    parseFilterKeys doc "blacklist" root

/-- The keys of `codegen_options`. -/
def parseCodegenKeys (doc : YamlDocument) (options : YamlNode) : Config → Parsed Config :=
  field (mapGet doc options "hash_algorithm") parseHashAlgorithm
      (fun a cfg => { cfg with hashAlgo := a.1, hashAlgorithm := a.2 }) >=>
    field (mapGet doc options "optimize_jump_tables") parseBool
      (fun b cfg => { cfg with optimizeJumpTables := b }) >=>
    field (mapGet doc options "inline_checksums") parseBool
      (fun b cfg => { cfg with inlineChecksums := b })

/-- `zereh_parse_codegen_options`. -/
def parseCodegenOptions (doc : YamlDocument) (root : YamlNode) : Config → Parsed Config :=
  subsection (mapGet doc root "codegen_options") (parseCodegenKeys doc)

/-- The paths at the root of `zereh_parse_config_yaml`. -/
def parsePaths (doc : YamlDocument) (root : YamlNode) : Config → Parsed Config :=
  textField (pathMax - 1) (mapGet doc root "template_path")
      (fun s cfg => { cfg with templatePath := s }) >=>
    textField (pathMax - 1) (mapGet doc root "generated_source")
      (fun s cfg => { cfg with generatedSource := s }) >=>
    textField (pathMax - 1) (mapGet doc root "generated_object")
      (fun s cfg => { cfg with generatedObject := s }) >=>
    textField 63 (mapGet doc root "xdp_section") (fun s cfg => { cfg with xdpSection := s })

/-- `default_kernel_port`. -/
def parseKernelPort (doc : YamlDocument) (root : YamlNode) : Config → Parsed Config :=
  field (mapGet doc root "default_kernel_port") parseU16
    (fun n cfg => { cfg with defaultKernelPort := n })

/-- What `zereh_parse_config_yaml` does before it comes to the routes. -/
def parseHead (doc : YamlDocument) (root : YamlNode) : Config → Parsed Config :=
  (fun cfg => orSay .invalidGlobal (parseGlobalSection doc root cfg)) >=>
    (fun cfg => orSay .invalidGlobalFilters (parseGlobalFilters doc root cfg)) >=>
    parsePaths doc root >=>
    (fun cfg => orSay .invalidKernelPort (parseKernelPort doc root cfg)) >=>
    (fun cfg => orSay .invalidCodegenOptions (parseCodegenOptions doc root cfg))

/-- `zereh_parse_config_yaml` on a loaded document. -/
def parseConfigYaml (doc : YamlDocument) : Parsed Config :=
  match doc.getRootNode with
  | some (.mapping pairs) => do
      let root := YamlNode.mapping pairs
      let cfg ← parseHead doc root configInitDefaults
      match mapGet doc root "routes" with
      | none => .error [.invalidRoutes]
      | some node => do
          let cfg ← orSay .invalidRoutes (parseRoutes doc node cfg)
          if cfg.routes.length = 0 then .error [.noRoute] else .ok cfg
  | _ => .error [.rootNotMapping]

end Zereh.Control
