/-
  The route filters of `xdp/xdp_template.c`, from `zereh_type_allowed` to
  `zereh_apply_app_filters`, and the maps they read.

  * Reads of the name and of a pattern literal go through `readAt`, a modulus or a time window
    is a checked divisor. The reference interpreter passes the bytes of a pattern without the NUL, the
    generated text the array of its literal (`matchPrefix_append`).
  * An array map is a function of the index, looked up below its `max_entries`.
  * `routeRateState` is one CPU's copy of the per-CPU map.
  * Each of the three filters that reads the clock runs at most once for a packet; `Clock`
    holds what `bpf_ktime_get_ns` returns to each.
-/
import Mathlib.Logic.Function.Basic
import Zereh.Xdp.DnsParser

namespace Zereh.Xdp

open Lib

def bloomWords : UInt32 := 1024
def bloomBits : UInt32 := bloomWords * 64
def maxHashFunctions : Nat := 8

/-- `struct rate_state`, all zero when the map is created. -/
structure RateState where
  windowSec : UInt64 := 0
  count : UInt32 := 0
  deriving DecidableEq

/-- `struct lpm_v4_key`; `addr` is the value of the four address bytes in network order. -/
structure LpmV4Key where
  prefixlen : UInt32
  addr : UInt32
  deriving DecidableEq

/-- The maps of the program, as one CPU sees them. -/
structure Maps where
  ipBlacklist : List LpmV4Key
  xskMap : Nat → Bool
  progArray : Nat → Option Nat
  powBloom : Nat → UInt64
  routeRateState : Nat → RateState

/-- The maps as the kernel creates them: arrays zeroed, nothing loaded. -/
def Maps.created : Maps where
  ipBlacklist := []
  xskMap _ := false
  progArray _ := none
  powBloom _ := 0
  routeRateState _ := {}

/-- The values of `bpf_ktime_get_ns` in the three filters that read it. -/
structure Clock where
  rateNs : UInt64
  powNs : UInt64
  bloomNs : UInt64

/-- `bpf_ktime_get_ns() / 1000000000ULL`. -/
def nowSec (ns : UInt64) : UInt64 := ns / 1000000000

/-! ## Type and name -/

/-- `zereh_type_allowed`. -/
def typeAllowed (qtype : UInt16) (mask : UInt32) : Bool :=
  if qtype = 1 ∧ mask &&& 0x1 ≠ 0 then true
  else if qtype = 28 ∧ mask &&& 0x2 ≠ 0 then true
  else if qtype = 16 ∧ mask &&& 0x4 ≠ 0 then true
  else if qtype = 255 ∧ mask &&& 0x8 ≠ 0 then true
  else false

/-- `for (i = 0; i < 128; i++)` of both matchers; `start` is 0 for a prefix. -/
def matchLoop (qname : List UInt8) (start : Nat) (pat : List UInt8) (patLen : Nat) :
    Nat → Nat → Checked Bool
  | 0, _ => .ok false
  | n + 1, i =>
      if i ≥ patLen then .ok true
      else do
        let a ← readAt qname (start + i)
        let b ← readAt pat i
        if a ≠ b then .ok false else matchLoop qname start pat patLen n (i + 1)

/-- `zereh_match_prefix`. -/
def matchPrefix (qname : List UInt8) (qnameLen : Nat) (pat : List UInt8) (patLen : UInt16) :
    Checked Bool :=
  if patLen = 0 then .ok true
  else if patLen.toNat > qnameLen then .ok false
  else matchLoop qname 0 pat patLen.toNat 128 0

/-- `zereh_match_suffix`. -/
def matchSuffix (qname : List UInt8) (qnameLen : Nat) (pat : List UInt8) (patLen : UInt16) :
    Checked Bool :=
  if patLen = 0 then .ok true
  else if patLen.toNat > qnameLen then .ok false
  else matchLoop qname (qnameLen - patLen.toNat) pat patLen.toNat 128 0

/-- Nothing behind the length of a pattern is read. -/
theorem matchLoop_append (qname : List UInt8) (start : Nat) {pat : List UInt8} (more : List UInt8)
    {patLen : Nat} (h : patLen ≤ pat.length) (n i : Nat) :
    matchLoop qname start (pat ++ more) patLen n i = matchLoop qname start pat patLen n i := by
  induction n generalizing i with
  | zero => rfl
  | succ n ih =>
    rw [matchLoop, matchLoop]
    by_cases hend : i ≥ patLen
    · rw [if_pos hend, if_pos hend]
    · have hread : readAt (pat ++ more) i = readAt pat i := by
        unfold readAt
        rw [List.getElem?_append_left (by omega)]
      rw [if_neg hend, if_neg hend, hread]
      simp only [ih]

theorem matchPrefix_append (qname : List UInt8) (qnameLen : Nat) {pat : List UInt8}
    (more : List UInt8) {patLen : UInt16} (h : patLen.toNat ≤ pat.length) :
    matchPrefix qname qnameLen (pat ++ more) patLen = matchPrefix qname qnameLen pat patLen := by
  unfold matchPrefix
  rw [matchLoop_append qname 0 more h]

theorem matchSuffix_append (qname : List UInt8) (qnameLen : Nat) {pat : List UInt8}
    (more : List UInt8) {patLen : UInt16} (h : patLen.toNat ≤ pat.length) :
    matchSuffix qname qnameLen (pat ++ more) patLen = matchSuffix qname qnameLen pat patLen := by
  unfold matchSuffix
  rw [matchLoop_append qname _ more h]

/-! ## Bloom filter -/

/-- `zereh_mix64`. -/
def mix64 (x : UInt64) : UInt64 :=
  let x := x ^^^ (x >>> 33)
  let x := x * 0xff51afd7ed558ccd
  let x := x ^^^ (x >>> 33)
  let x := x * 0xc4ceb9fe1a85ec53
  x ^^^ (x >>> 33)

/-- `zereh_bloom_test_bit`. -/
def bloomTestBit (maps : Maps) (bit bits : UInt32) : Bool :=
  let idx := bit >>> 6
  let off := bit &&& 63
  if bits = 0 ∨ bits > bloomBits ∨ bit ≥ bits then false
  else if idx ≥ bloomWords then false
  else (maps.powBloom idx.toNat >>> off.toUInt64) &&& 1 ≠ 0

/-- The word that hash function `k` mixes for a name in a bucket. -/
def bloomMixed (qnameHash : UInt64) (k : Nat) (bucket : UInt64) : UInt64 :=
  mix64 (qnameHash ^^^ ((UInt64.ofNat k + 1) * 0x9e3779b97f4a7c15) ^^^
    (bucket * 0x517cc1b727220a95))

/-- `for (k = 0; k < ZEREH_MAX_HASH_FUNCTIONS; k++)`. -/
def bucketLoop (maps : Maps) (qnameHash : UInt64) (bits : UInt32) (hashFunctions : UInt8)
    (bucket : UInt64) : Nat → Nat → Checked Bool
  | 0, _ => .ok true
  | n + 1, k =>
      if k ≥ hashFunctions.toNat then .ok true
      else do
        let bit := (← modAt (bloomMixed qnameHash k bucket) bits.toUInt64).toUInt32
        if !bloomTestBit maps bit bits then .ok false
        else bucketLoop maps qnameHash bits hashFunctions bucket n (k + 1)

/-- `zereh_bloom_bucket_match`. -/
def bloomBucketMatch (maps : Maps) (qnameHash : UInt64) (bits : UInt32) (hashFunctions : UInt8)
    (bucket : UInt64) : Checked Bool :=
  bucketLoop maps qnameHash bits hashFunctions bucket maxHashFunctions 0

/-- `zereh_bloom_allow` at clock value `ns`. -/
def bloomAllow (maps : Maps) (ns : UInt64) (qnameHash : UInt64) (bits : UInt32)
    (hashFunctions : UInt8) (timeWindow : UInt16) : Checked Bool :=
  if hashFunctions = 0 ∨ bits < 64 ∨ bits > bloomBits then .ok false
  else if timeWindow = 0 then bloomBucketMatch maps qnameHash bits hashFunctions 0
  else do
    let bucket ← divAt (nowSec ns) timeWindow.toUInt64
    if ← bloomBucketMatch maps qnameHash bits hashFunctions bucket then .ok true
    else if bucket > 0 then do
      if ← bloomBucketMatch maps qnameHash bits hashFunctions (bucket - 1) then .ok true
      else .ok false
    else .ok false

/-! ## Proof of work -/

/-- `__builtin_clzll` of a nonzero word. -/
def clzll (x : UInt64) : Nat := 63 - Nat.log2 x.toNat

/-- `zereh_pow_bucket_ok`. -/
def powBucketOk (qnameHash : UInt64) (dnsId : UInt16) (difficulty : UInt8) (bucket : UInt64) :
    Bool :=
  let mixed := mix64 (qnameHash ^^^ (dnsId.toUInt64 * 0x9e3779b97f4a7c15) ^^^
    (bucket * 0x517cc1b727220a95))
  let leading := if mixed = 0 then 64 else clzll mixed
  leading ≥ difficulty.toNat

/-- `zereh_pow_allow` at clock value `ns`. -/
def powAllow (ns : UInt64) (qnameHash : UInt64) (dnsId : UInt16) (difficulty : UInt8)
    (timeWindow : UInt16) : Checked Bool :=
  if difficulty = 0 then .ok true
  else if timeWindow = 0 then .ok (powBucketOk qnameHash dnsId difficulty 0)
  else do
    let bucket ← divAt (nowSec ns) timeWindow.toUInt64
    if powBucketOk qnameHash dnsId difficulty bucket then .ok true
    else if bucket > 0 ∧ powBucketOk qnameHash dnsId difficulty (bucket - 1) then .ok true
    else .ok false

/-! ## Rate limit -/

/-- The second half of `zereh_rate_limit_allow`, on the state of one route. -/
def rateStep (qps : UInt32) (now : UInt64) (state : RateState) : Bool × RateState :=
  if state.windowSec ≠ now then (true, { windowSec := now, count := 1 })
  else if state.count ≥ qps then (false, state)
  else (true, { state with count := state.count + 1 })

/-- Store the state of a route. -/
def Maps.setRate (maps : Maps) (i : Nat) (state : RateState) : Maps :=
  { maps with routeRateState := Function.update maps.routeRateState i state }

@[simp] theorem setRate_self (maps : Maps) (i : Nat) (state : RateState) :
    (maps.setRate i state).routeRateState i = state := Function.update_self ..

theorem setRate_of_ne (maps : Maps) {i j : Nat} (h : j ≠ i) (state : RateState) :
    (maps.setRate i state).routeRateState j = maps.routeRateState j := Function.update_of_ne h ..

/-- `zereh_rate_limit_allow` at clock value `ns`. The lookup of an index below
    `ZEREH_RATE_STATE_ENTRIES` finds its entry. -/
def rateLimitAllow (entries : UInt32) (ns : UInt64) (routeId qps : UInt32) (maps : Maps) :
    Bool × Maps :=
  if qps = 0 then (true, maps)
  else if routeId ≥ entries then (false, maps)
  else
    let (allowed, state) := rateStep qps (nowSec ns) (maps.routeRateState routeId.toNat)
    (allowed, maps.setRate routeId.toNat state)

/-! ## All filters of a route -/

/-- `zereh_apply_app_filters`, with its arguments in their order. -/
def applyAppFilters (entries : UInt32) (clock : Clock) (maps : Maps) (qmeta : DnsQueryMeta)
    (pfx : List UInt8) (prefixLen : UInt16) (sfx : List UInt8) (suffixLen : UInt16)
    (minLabels maxLabels : UInt8) (qnameMinLen qnameMaxLen : UInt16) (hash : UInt64)
    (routeId rrtypeMask : UInt32) (powDifficulty : UInt8) (powTimeWindow : UInt16)
    (bloomRequired : UInt8) (bloomSize : UInt32) (bloomHashFunctions : UInt8)
    (bloomTimeWindow : UInt16) (rateLimitQps : UInt32) : Checked (Bool × Maps) :=
  if qmeta.labelDepth < minLabels ∨ qmeta.labelDepth > maxLabels then .ok (false, maps)
  else if qmeta.qnameLen < qnameMinLen.toNat ∨ qmeta.qnameLen > qnameMaxLen.toNat then
    .ok (false, maps)
  else if !typeAllowed qmeta.qtype rrtypeMask then .ok (false, maps)
  else do
    if !(← matchPrefix qmeta.qname qmeta.qnameLen pfx prefixLen) then .ok (false, maps)
    else if !(← matchSuffix qmeta.qname qmeta.qnameLen sfx suffixLen) then .ok (false, maps)
    else
      let (allowed, maps) := rateLimitAllow entries clock.rateNs routeId rateLimitQps maps
      if !allowed then .ok (false, maps)
      else if !(← powAllow clock.powNs hash qmeta.dnsId powDifficulty powTimeWindow) then
        .ok (false, maps)
      else if bloomRequired ≠ 0 then do
        if !(← bloomAllow maps clock.bloomNs hash bloomSize bloomHashFunctions
            bloomTimeWindow) then .ok (false, maps)
        else .ok (true, maps)
      else .ok (true, maps)

/-- The arguments of `zereh_apply_app_filters` after the query. -/
structure FilterArgs where
  pfx : List UInt8
  prefixLen : UInt16
  sfx : List UInt8
  suffixLen : UInt16
  minLabels : UInt8
  maxLabels : UInt8
  qnameMinLen : UInt16
  qnameMaxLen : UInt16
  hash : UInt64
  routeId : UInt32
  rrtypeMask : UInt32
  powDifficulty : UInt8
  powTimeWindow : UInt16
  bloomRequired : UInt8
  bloomSize : UInt32
  bloomHashFunctions : UInt8
  bloomTimeWindow : UInt16
  rateLimitQps : UInt32

/-- The call with these arguments. -/
def FilterArgs.apply (a : FilterArgs) (entries : UInt32) (clock : Clock) (maps : Maps)
    (qmeta : DnsQueryMeta) : Checked (Bool × Maps) :=
  applyAppFilters entries clock maps qmeta a.pfx a.prefixLen a.sfx a.suffixLen a.minLabels
    a.maxLabels a.qnameMinLen a.qnameMaxLen a.hash a.routeId a.rrtypeMask a.powDifficulty
    a.powTimeWindow a.bloomRequired a.bloomSize a.bloomHashFunctions a.bloomTimeWindow
    a.rateLimitQps

/-- Nothing behind the lengths of the patterns is read. -/
theorem FilterArgs.apply_append {a : FilterArgs} (hpfx : a.prefixLen.toNat ≤ a.pfx.length)
    (hsfx : a.suffixLen.toNat ≤ a.sfx.length) (more more' : List UInt8) (entries : UInt32)
    (clock : Clock) (maps : Maps) (qmeta : DnsQueryMeta) :
    { a with pfx := a.pfx ++ more, sfx := a.sfx ++ more' }.apply entries clock maps qmeta =
      a.apply entries clock maps qmeta := by
  unfold FilterArgs.apply applyAppFilters
  rw [matchPrefix_append _ _ more hpfx, matchSuffix_append _ _ more' hsfx]

end Zereh.Xdp
