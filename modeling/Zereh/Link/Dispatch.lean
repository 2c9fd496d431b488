/-
  The generated `zereh_dispatch`, read as C.

  `readBody` lexes and parses a text with the names in scope there, `runText` runs it over `host`,
  whose functions are those of the template and the two helpers. `generatedRouter` is the program
  with the text of the written source, `router` the one with the text that is intended, where no
  string has been rewritten by a later pass (`Control.Emitted`).

  `refDispatch` is what the text is for: find the route of the query, run its filters, take its
  action. `refDispatchOf f` is the same with the strings in the literals put through `f`.
-/
import Zereh.Control.Emitted

namespace Zereh.Link

open Lib CText Control Xdp

/-! ## Scope -/

/-- The names that the body of `zereh_dispatch` may use. -/
inductive Name where
  | u64
  | ctx
  | iph
  | udp
  | qmeta
  | qname
  | qnameLen
  | routeHash
  | zerehRouteHash
  | zerehApplyAppFilters
  | zerehMatchSuffix
  | zerehRouteKernelSpace
  | bpfRedirectMap
  | bpfTailCall
  | bpfHtons
  | xskMap
  | progArray
  | xdpDrop
  | xdpPass
  | zerehDefaultAction
  deriving DecidableEq, Repr

/-- Reserved words and names with their spelling. -/
def scope : List (List UInt8 × Token Name) :=
  reserved ++
    [(ascii "__u64", .ident .u64),
      (ascii "ctx", .ident .ctx),
      (ascii "iph", .ident .iph),
      (ascii "udp", .ident .udp),
      (ascii "qmeta", .ident .qmeta),
      (ascii "qname", .ident .qname),
      (ascii "qname_len", .ident .qnameLen),
      (ascii "route_hash", .ident .routeHash),
      (ascii "zereh_route_hash", .ident .zerehRouteHash),
      (ascii "zereh_apply_app_filters", .ident .zerehApplyAppFilters),
      (ascii "zereh_match_suffix", .ident .zerehMatchSuffix),
      (ascii "zereh_route_kernel_space", .ident .zerehRouteKernelSpace),
      (ascii "bpf_redirect_map", .ident .bpfRedirectMap),
      (ascii "bpf_tail_call", .ident .bpfTailCall),
      (ascii "bpf_htons", .ident .bpfHtons),
      (ascii "xsk_map", .ident .xskMap),
      (ascii "prog_array", .ident .progArray),
      (ascii "XDP_DROP", .ident .xdpDrop),
      (ascii "XDP_PASS", .ident .xdpPass),
      (ascii "ZEREH_DEFAULT_ACTION", .ident .zerehDefaultAction)]

/-! ## Host -/

/-- `enum xdp_action`. -/
def Action.code : Action → Nat
  | .aborted => 0
  | .drop => 1
  | .pass => 2
  | .redirect => 4

def actionOf : Val Name → Option Action
  | .int 0 => some .aborted
  | .int 1 => some .drop
  | .int 2 => some .pass
  | .int 4 => some .redirect
  | _ => none

/-- An action as the `int` that the C function returns. -/
def asInt (x : Outcome) : Checked (Out Nat (Val Name) × XdpState) :=
  andThen x fun a st => .ok (.val (.int (Action.code a)), st)

def boolInt (b : Bool) : Val Name := .int (if b then 1 else 0)

def actionOfDefault : DefaultAction → Action
  | .pass => .pass
  | .drop => .drop

section Host

variable (macros : Macros) (clock : Clock) (h : Headers) (qmeta : DnsQueryMeta)

/-- The arguments of a call of `zereh_apply_app_filters` after the query, each converted to the
    type of its parameter. -/
def argsOf : List (Val Name) → Option FilterArgs
  | [.bytes pfx, .int prefixLen, .bytes sfx, .int suffixLen, .int minLabels, .int maxLabels,
      .int qnameMinLen, .int qnameMaxLen, .int hash, .int routeId, .int rrtypeMask,
      .int powDifficulty, .int powTimeWindow, .int bloomRequired, .int bloomSize,
      .int bloomHashFunctions, .int bloomTimeWindow, .int rateLimitQps] => some
    { pfx, sfx
      prefixLen := UInt16.ofNat prefixLen
      suffixLen := UInt16.ofNat suffixLen
      minLabels := UInt8.ofNat minLabels
      maxLabels := UInt8.ofNat maxLabels
      qnameMinLen := UInt16.ofNat qnameMinLen
      qnameMaxLen := UInt16.ofNat qnameMaxLen
      hash := UInt64.ofNat hash
      routeId := UInt32.ofNat routeId
      rrtypeMask := UInt32.ofNat rrtypeMask
      powDifficulty := UInt8.ofNat powDifficulty
      powTimeWindow := UInt16.ofNat powTimeWindow
      bloomRequired := UInt8.ofNat bloomRequired
      bloomSize := UInt32.ofNat bloomSize
      bloomHashFunctions := UInt8.ofNat bloomHashFunctions
      bloomTimeWindow := UInt16.ofNat bloomTimeWindow
      rateLimitQps := UInt32.ofNat rateLimitQps }
  | _ => none

/-- A call of `zereh_apply_app_filters` with these values. -/
def callFilters (vs : List (Val Name)) (st : XdpState) :
    Checked (Out Nat (Val Name) × XdpState) :=
  match argsOf vs with
  | some a => do
      let (ok, maps) ← a.apply macros.rateStateEntries clock st.maps qmeta
      .ok (.val (boolInt ok), { st with maps := maps })
  | none => .error .stuck

/-- The functions of the template and the helpers. -/
def callFunction (f : Name) (vs : List (Val Name)) (st : XdpState) :
    Checked (Out Nat (Val Name) × XdpState) :=
  match f, vs with
  | .zerehRouteHash, [.addr .qmeta] => do
      let hash ← Xdp.routeHash macros.hashAlgo qmeta
      .ok (.val (.int hash.toNat), st)
  | .zerehMatchSuffix, [.bytes qname, .int qnameLen, .bytes sfx, .int suffixLen] => do
      let b ← matchSuffix qname qnameLen sfx (UInt16.ofNat suffixLen)
      .ok (.val (boolInt b), st)
  | .zerehApplyAppFilters, .addr .qmeta :: vs => callFilters macros clock qmeta vs st
  | .bpfHtons, [.int n] => .ok (.val (.int (Xdp.bpfHtons (UInt16.ofNat n)).toNat), st)
  | .zerehRouteKernelSpace, [.addr .iph, .addr .udp, .int newDport, .int newDaddr] =>
      asInt (routeKernelSpace h (UInt16.ofNat newDport) (UInt32.ofNat newDaddr) st)
  | .bpfRedirectMap, [.addr .xskMap, .int key, .int 0] => asInt (Xdp.bpfRedirectMap key st)
  | .bpfTailCall, [.addr .ctx, .addr .progArray, .int index] =>
      asInt (Xdp.bpfTailCall index st (·.finish .aborted))
  | _, _ => .error .stuck

/-- What `zereh_dispatch` sees: its parameters, the constants, the functions. -/
def host : Host Name XdpState Nat where
  ident
    | .ctx => some (.addr .ctx)
    | .iph => some (.addr .iph)
    | .udp => some (.addr .udp)
    | .qmeta => some (.addr .qmeta)
    | .xdpDrop => some (.int (Action.code .drop))
    | .xdpPass => some (.int (Action.code .pass))
    | .zerehDefaultAction => some (.int (Action.code (actionOfDefault macros.defaultAction)))
    | _ => none
  member
    | .qmeta, .qname => some (.bytes qmeta.qname)
    | .qmeta, .qnameLen => some (.int qmeta.qnameLen)
    | _, _ => none
  call := callFunction macros clock h qmeta

end Host

/-! ## The generated function -/

/-- A body of `zereh_dispatch` as statements. -/
def readBody (text : List UInt8) : Option (Code Name) := do
  let ts ← lex (wordOf scope) text
  parse ts

/-- The body with both generated texts in their places, as statements. -/
def readDispatch (cfg : Config) : Option (Code Name) := readBody (dispatchText cfg)

/-- Run a body of `zereh_dispatch`. -/
def runDispatch (macros : Macros) (clock : Clock) (h : Headers) (qmeta : DnsQueryMeta)
    (code : Code Name) (st : XdpState) : Outcome :=
  andThen (runBody (host macros clock h qmeta) code st) fun v st =>
    match actionOf v with
    | some a => st.finish a
    | none => .error .stuck

/-- The function with this text as its body. -/
def runText (macros : Macros) (text : List UInt8) (clock : Clock) (h : Headers)
    (qmeta : DnsQueryMeta) (st : XdpState) : Outcome :=
  match readBody text with
  | some code => runDispatch macros clock h qmeta code st
  | none => .error .stuck

/-- `zereh_dispatch` with both generated texts in their places and no string rewritten. -/
def dispatch (cfg : Config) (clock : Clock) (h : Headers) (qmeta : DnsQueryMeta) (st : XdpState) :
    Outcome :=
  runText (macros cfg) (dispatchText cfg) clock h qmeta st

/-- `xdp_router` with this dispatch. -/
def router (cfg : Config) (clock : Clock) (st : XdpState) : Outcome :=
  xdpRouter (macros cfg) (dispatch cfg clock) st

/-- The body in the written source, as statements. -/
def readGenerated (cfg : Config) : Option (Code Name) := readBody (generatedText cfg)

/-- `zereh_dispatch` of the written source. -/
def generatedDispatch (cfg : Config) (clock : Clock) (h : Headers) (qmeta : DnsQueryMeta)
    (st : XdpState) : Outcome :=
  runText (macros cfg) (generatedText cfg) clock h qmeta st

/-- `xdp_router` of the written source. -/
def generatedRouter (cfg : Config) (clock : Clock) (st : XdpState) : Outcome :=
  xdpRouter (macros cfg) (generatedDispatch cfg clock) st

/-! ## The reference interpreter -/

/-- The filters of route `i` under its own fields. -/
def routeFilters (r : Route) (i : Nat) (hash : UInt64) : FilterArgs where
  pfx := r.prefixMatch.bytes
  prefixLen := UInt16.ofNat r.prefixMatch.len
  sfx := r.suffixMatch.bytes
  suffixLen := UInt16.ofNat r.suffixMatch.len
  minLabels := r.minLabels
  maxLabels := r.maxLabels
  qnameMinLen := r.qnameMinLen
  qnameMaxLen := r.qnameMaxLen
  hash := hash
  routeId := UInt32.ofNat i
  rrtypeMask := r.rrtypeMask
  powDifficulty := r.powDifficulty
  powTimeWindow := r.powTimeWindow
  bloomRequired := if r.bloomEnabled then 1 else 0
  bloomSize := r.bloomSize
  bloomHashFunctions := r.bloomHashFunctions
  bloomTimeWindow := r.bloomTimeWindow
  rateLimitQps := r.rateLimitQps

/-- The target of a route. -/
def targetAction (r : Route) (h : Headers) (st : XdpState) : Outcome :=
  match r.target with
  | .userSpace => Xdp.bpfRedirectMap r.xskQueue.toNat st
  | .kernelSpace => routeKernelSpace h (Xdp.bpfHtons r.kernelPort) 0 st
  | .xdpProg => Xdp.bpfTailCall r.progIndex.toNat st (·.finish .drop)

/-- A packet on route `i`: dropped when its filters say no, else to its target. -/
def takeRoute (cfg : Config) (clock : Clock) (h : Headers) (qmeta : DnsQueryMeta) (hash : UInt64)
    (r : Route) (i : Nat) (st : XdpState) : Outcome := do
  let (ok, maps) ← (routeFilters r i hash).apply (macros cfg).rateStateEntries clock st.maps qmeta
  if ok then targetAction r h { st with maps := maps }
  else XdpState.finish { st with maps := maps } .drop

/-- The first route, in configuration order, whose domain is a suffix of the name. -/
def suffixRoute (qmeta : DnsQueryMeta) : List (Route × Nat) → Checked (Option (Route × Nat))
  | [] => .ok none
  | (r, i) :: routes => do
      let b ← matchSuffix qmeta.qname qmeta.qnameLen r.domain.bytes (UInt16.ofNat r.domain.len)
      if b then .ok (some (r, i)) else suffixRoute qmeta routes

/-- The route of a query: by hash, else by suffix. -/
def selectRoute (cfg : Config) (qmeta : DnsQueryMeta) (hash : UInt64) :
    Checked (Option (Route × Nat)) :=
  match cfg.routes.zipIdx.find? fun ri => ri.1.hash = hash with
  | some ri => .ok (some ri)
  | none => suffixRoute qmeta cfg.routes.zipIdx

/-- What `zereh_dispatch` is for. -/
def refDispatch (cfg : Config) (clock : Clock) (h : Headers) (qmeta : DnsQueryMeta)
    (st : XdpState) : Outcome := do
  let hash ← Xdp.routeHash cfg.hashAlgo qmeta
  match ← selectRoute cfg qmeta hash with
  | some (r, i) => takeRoute cfg clock h qmeta hash r i st
  | none => st.finish (actionOfDefault cfg.defaultAction)

/-! ## Other strings in the literals -/

/-- The array of a literal. -/
def literalArray (s : CStr) : List UInt8 := s.bytes ++ [0]

section Rewritten

variable (f : CStr → CStr)

/-- The filters with other patterns; the lengths are those of the configured ones. -/
def routeFiltersOf (r : Route) (i : Nat) (hash : UInt64) : FilterArgs :=
  { routeFilters r i hash with
    pfx := literalArray (f r.prefixMatch)
    sfx := literalArray (f r.suffixMatch) }

def takeRouteOf (cfg : Config) (clock : Clock) (h : Headers) (qmeta : DnsQueryMeta) (hash : UInt64)
    (r : Route) (i : Nat) (st : XdpState) : Outcome := do
  let (ok, maps) ← (routeFiltersOf f r i hash).apply (macros cfg).rateStateEntries clock st.maps qmeta
  if ok then targetAction r h { st with maps := maps }
  else XdpState.finish { st with maps := maps } .drop

/-- The test of a fallback rule with another domain. -/
def ruleMatches (qmeta : DnsQueryMeta) (r : Route) : Checked Bool :=
  matchSuffix qmeta.qname qmeta.qnameLen (literalArray (f r.domain)) (UInt16.ofNat r.domain.len)

def suffixRouteOf (qmeta : DnsQueryMeta) : List (Route × Nat) → Checked (Option (Route × Nat))
  | [] => .ok none
  | (r, i) :: routes => do
      let b ← ruleMatches f qmeta r
      if b then .ok (some (r, i)) else suffixRouteOf qmeta routes

def selectRouteOf (cfg : Config) (qmeta : DnsQueryMeta) (hash : UInt64) :
    Checked (Option (Route × Nat)) :=
  match cfg.routes.zipIdx.find? fun ri => ri.1.hash = hash with
  | some ri => .ok (some ri)
  | none => suffixRouteOf f qmeta cfg.routes.zipIdx

def refDispatchOf (cfg : Config) (clock : Clock) (h : Headers) (qmeta : DnsQueryMeta)
    (st : XdpState) : Outcome := do
  let hash ← Xdp.routeHash cfg.hashAlgo qmeta
  match ← selectRouteOf f cfg qmeta hash with
  | some (r, i) => takeRouteOf f cfg clock h qmeta hash r i st
  | none => st.finish (actionOfDefault cfg.defaultAction)

end Rewritten

/-- The length printed next to a literal is at most the length of the string. -/
theorem toNat_len_le (s : CStr) : (UInt16.ofNat s.len).toNat ≤ s.bytes.length := by
  rw [UInt16.toNat_ofNat']
  exact Nat.mod_le _ _

/-- The NUL of a literal is never read when the string in it is the configured one. -/
theorem suffixRouteOf_id (qmeta : DnsQueryMeta) (routes : List (Route × Nat)) :
    suffixRouteOf id qmeta routes = suffixRoute qmeta routes := by
  induction routes with
  | nil => rfl
  | cons ri routes ih =>
    have hrule : ruleMatches id qmeta ri.1 = matchSuffix qmeta.qname qmeta.qnameLen
        ri.1.domain.bytes (UInt16.ofNat ri.1.domain.len) :=
      matchSuffix_append qmeta.qname qmeta.qnameLen [0] (toNat_len_le ri.1.domain)
    rw [suffixRouteOf, suffixRoute, ih, hrule]

theorem apply_routeFiltersOf_id (r : Route) (i : Nat) (hash : UInt64) (entries : UInt32)
    (clock : Clock) (maps : Maps) (qmeta : DnsQueryMeta) :
    (routeFiltersOf id r i hash).apply entries clock maps qmeta =
      (routeFilters r i hash).apply entries clock maps qmeta :=
  FilterArgs.apply_append (a := routeFilters r i hash) (toNat_len_le r.prefixMatch)
    (toNat_len_le r.suffixMatch) [0] [0] entries clock maps qmeta

theorem refDispatchOf_id (cfg : Config) (clock : Clock) (h : Headers) (qmeta : DnsQueryMeta)
    (st : XdpState) : refDispatchOf id cfg clock h qmeta st = refDispatch cfg clock h qmeta st := by
  have hselect : ∀ hash, selectRouteOf id cfg qmeta hash = selectRoute cfg qmeta hash := by
    intro hash
    unfold selectRouteOf selectRoute
    rw [suffixRouteOf_id]
  have htake : ∀ hash r i, takeRouteOf id cfg clock h qmeta hash r i st =
      takeRoute cfg clock h qmeta hash r i st := by
    intro hash r i
    unfold takeRouteOf takeRoute
    rw [apply_routeFiltersOf_id]
  unfold refDispatchOf refDispatch
  simp only [hselect, htake]

end Zereh.Link
