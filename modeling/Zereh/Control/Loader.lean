/-
  `control/loader.c`, the part that seeds the maps: the blacklist trie, the Bloom words and the
  program array.

  A successful `bpf_map_update_elem` is the update of the map; its failures are the kernel's
  and end the load. `time (NULL)` is read once for each route with a time window; the readings
  of one run are taken as one value. The loader has its own copies of `zereh_mix64` and of the
  Bloom sizes. For the program array the answers of libbpf and of the kernel are arguments: the
  programs of the object by name, their descriptors, and which updates are accepted.
-/
import Zereh.Lib.CLex
import Zereh.Lib.CStdlib
import Zereh.Lib.Bloom
import Zereh.Control.Hash
import Zereh.Xdp.Filters

namespace Zereh.Control

open Lib

/-! ## Blacklist -/

/-- `strchr (tmp, '/')` splits a CIDR text; the prefix length is `none` when it is left out. -/
def cidrPrefix (tmp : List UInt8) : Option (Option Nat) :=
  match tmp.dropWhile (· ≠ 47) with
  | [] => some none
  | _ :: rest =>
    match strtol rest with
    | none => none
    | some (pfx, tail) => if tail ≠ [] ∨ pfx < 0 ∨ pfx > 32 then none else some (some pfx.toNat)

/-- `zereh_parse_cidr_v4`. -/
def parseCidrV4 (cidr : CStr) : Option Xdp.LpmV4Key :=
  let tmp := (cidr.clip (maxCidrLen - 1)).bytes
  match cidrPrefix tmp with
  | none => none
  | some pfx =>
    match inetPton (tmp.takeWhile (· ≠ 47)) with
    | some [a, b, c, d] => some { prefixlen := UInt32.ofNat (pfx.getD 32), addr := be32 a b c d }
    | _ => none

/-- What the loader logs when it stops. -/
inductive LoadError where
  | invalidCidr (cidr : CStr)
  deriving DecidableEq

/-- The line without its newline. -/
def LoadError.text : LoadError → List UInt8
  | .invalidCidr cidr => ascii "invalid CIDR in blacklist: " ++ cidr.bytes

/-- The loop of `zereh_seed_blacklist_map`. -/
def blacklistKeys : List CStr → Except LoadError (List Xdp.LpmV4Key)
  | [] => .ok []
  | cidr :: cidrs =>
      match parseCidrV4 cidr with
      | none => .error (.invalidCidr cidr)
      | some key => do
          let keys ← blacklistKeys cidrs
          .ok (key :: keys)

/-- `zereh_seed_blacklist_map`. -/
def seedBlacklistMap (cfg : Config) (maps : Xdp.Maps) : Except LoadError Xdp.Maps := do
  let keys ← blacklistKeys cfg.blacklist
  .ok { maps with ipBlacklist := maps.ipBlacklist ++ keys }

/-! ## Bloom filter -/

def bloomWords : UInt32 := 1024
def bloomBits : UInt32 := bloomWords * 64
def maxHashFunctions : UInt8 := 8

/-- `zereh_mix64`. -/
def mix64 (x : UInt64) : UInt64 :=
  let x := x ^^^ (x >>> 33)
  let x := x * 0xff51afd7ed558ccd
  let x := x ^^^ (x >>> 33)
  let x := x * 0xc4ceb9fe1a85ec53
  x ^^^ (x >>> 33)

/-- `zereh_route_bloom_bits`. -/
def routeBloomBits (route : Route) : UInt32 :=
  if !route.bloomEnabled then 0
  else
    let bits := route.bloomSize
    let bits := if bits < 64 then 64 else bits
    if bits > bloomBits then bloomBits else bits

/-- `zereh_route_bloom_hash_functions`. -/
def routeBloomHashFunctions (route : Route) : UInt8 :=
  let hf := route.bloomHashFunctions
  if !route.bloomEnabled then 0
  else
    let hf := if hf = 0 then 3 else hf
    if hf > maxHashFunctions then maxHashFunctions else hf

/-- The word that hash function `k` mixes for a seed in a bucket. -/
def bloomMixed (routeHash : UInt64) (k : Nat) (bucket : UInt64) : UInt64 :=
  mix64 (routeHash ^^^ ((UInt64.ofNat k + 1) * 0x9e3779b97f4a7c15) ^^^
    (bucket * 0x517cc1b727220a95))

/-- `if (idx < ZEREH_BLOOM_WORDS) words[idx] |= 1ULL << off;` -/
def setWordBit (words : Nat → UInt64) (bit : UInt32) : Nat → UInt64 :=
  let idx := bit >>> 6
  let off := bit &&& 63
  if idx < bloomWords then
    Function.update words idx.toNat (words idx.toNat ||| ((1 : UInt64) <<< off.toUInt64))
  else words

/-- `zereh_bloom_set_bits_for_seed`: `for (k = 0; k < hash_functions; k++)`. -/
def bloomSetBitsForSeed (words : Nat → UInt64) (routeHash : UInt64) (bits : UInt32)
    (hashFunctions : UInt8) (bucket : UInt64) : Nat → UInt64 :=
  (List.range hashFunctions.toNat).foldl
    (fun words k => setWordBit words (bloomMixed routeHash k bucket % bits.toUInt64).toUInt32) words

/-- The loop over the seeds of a route. -/
def seedsLoop (algo : HashAlgorithm) (bits : UInt32) (hashFunctions : UInt8) (window : UInt16)
    (bucket : UInt64) : List CStr → (Nat → UInt64) → Nat → UInt64
  | [], words => words
  | seed :: seeds, words =>
      let seedHash := hashDomain seed algo
      if seedHash = 0 then seedsLoop algo bits hashFunctions window bucket seeds words
      else
        let words := bloomSetBitsForSeed words seedHash bits hashFunctions bucket
        let words :=
          if window > 0 ∧ bucket > 0 then
            bloomSetBitsForSeed words seedHash bits hashFunctions (bucket - 1)
          else words
        seedsLoop algo bits hashFunctions window bucket seeds words

/-- The bucket of a route when `time (NULL)` reads `now`. -/
def routeBucket (route : Route) (now : UInt64) : UInt64 :=
  if route.bloomTimeWindow > 0 then now / route.bloomTimeWindow.toUInt64 else 0

/-- The loop over the routes. -/
def routesLoop (algo : HashAlgorithm) (now : UInt64) : List Route → (Nat → UInt64) → Nat → UInt64
  | [], words => words
  | route :: routes, words =>
      if !route.bloomEnabled then routesLoop algo now routes words
      else
        let bits := routeBloomBits route
        let hashFunctions := routeBloomHashFunctions route
        if bits = 0 ∨ hashFunctions = 0 then routesLoop algo now routes words
        else
          routesLoop algo now routes
            (seedsLoop algo bits hashFunctions route.bloomTimeWindow (routeBucket route now)
              route.bloomSeeds words)

/-- `zereh_seed_bloom_map`: the words are built from zero and stored one by one. -/
def seedBloomMap (cfg : Config) (now : UInt64) (maps : Xdp.Maps) : Xdp.Maps :=
  let words := routesLoop cfg.hashAlgo now cfg.routes fun _ => 0
  { maps with powBloom := fun i => if i < bloomWords.toNat then words i else maps.powBloom i }

/-! ## Program array -/

/-- A loaded object as libbpf shows it. A program is its number in the object; the descriptor
    refers to that program, and is negative when there is none. -/
structure BpfObject where
  findProgramByName : List UInt8 → Option Nat
  programFd : Nat → Int

/-- What the loader logs when a route cannot be bound. -/
inductive BindError where
  | progNotFound (domain progName : CStr)
  | noTailProgram (domain : CStr) (indexedName : List UInt8)
  | indexTooLarge (domain : CStr) (key : UInt32)
  | noFd (resolvedName : List UInt8)
  | mapUpdate
  deriving DecidableEq

/-- `ZEREH_PROG_ARRAY_MAX`. -/
def progArrayMax : UInt32 := 64

/-- The line without the prefix of the logger; `perror` adds the reason. -/
def BindError.text : BindError → List UInt8
  | .progNotFound domain progName =>
      ascii "xdp_prog route '" ++ domain.bytes ++ ascii "' requested prog_name '" ++
        progName.bytes ++ ascii "' but it was not found"
  | .noTailProgram domain indexedName =>
      ascii "xdp_prog route '" ++ domain.bytes ++
        ascii "' has no tail program (expected prog_name, " ++ indexedName ++
        ascii ", or zereh_app_default)"
  | .indexTooLarge domain key =>
      ascii "route '" ++ domain.bytes ++ ascii "' prog_array_index " ++ CText.decimal key.toNat ++
        ascii " exceeds prog_array max " ++ CText.decimal progArrayMax.toNat
  | .noFd resolvedName =>
      ascii "failed to get fd for tail program '" ++ resolvedName ++ ascii "'"
  | .mapUpdate => ascii "bpf_map_update_elem prog_array"

/-- `zereh_resolve_tail_program`: the program and the name it was found under. -/
def resolveTailProgram (obj : BpfObject) (route : Route) (defaultTail : Option Nat) :
    Except BindError (Nat × List UInt8) :=
  if route.progName.bytes ≠ [] then
    match obj.findProgramByName route.progName.bytes with
    | none => .error (.progNotFound route.domain route.progName)
    | some prog => .ok (prog, route.progName.bytes)
  else
    let indexedName := ascii "zereh_app_" ++ CText.decimal route.progIndex.toNat
    match obj.findProgramByName indexedName with
    | some prog => .ok (prog, indexedName)
    | none =>
      match defaultTail with
      | some prog => .ok (prog, ascii "zereh_app_default")
      | none => .error (.noTailProgram route.domain indexedName)

/-- Store a program in a slot. -/
def setProg (maps : Xdp.Maps) (key : Nat) (prog : Nat) : Xdp.Maps :=
  { maps with progArray := Function.update maps.progArray key (some prog) }

/-- One turn of the loop of `zereh_seed_prog_array`; `updated` is the answer of the kernel to the
    update. -/
def bindRoute (obj : BpfObject) (defaultTail : Option Nat) (updated : Bool) (route : Route)
    (maps : Xdp.Maps) : Except BindError Xdp.Maps :=
  if route.target ≠ .xdpProg then .ok maps
  else
    let key := route.progIndex
    if key ≥ progArrayMax then .error (.indexTooLarge route.domain key)
    else do
      let (tailProg, resolvedName) ← resolveTailProgram obj route defaultTail
      if obj.programFd tailProg < 0 then .error (.noFd resolvedName)
      else if !updated then .error .mapUpdate
      else .ok (setProg maps key.toNat tailProg)

/-- The loop over the routes from number `i` on. -/
def bindLoop (obj : BpfObject) (defaultTail : Option Nat) (updated : Nat → Bool) :
    Nat → List Route → Xdp.Maps → Except BindError Xdp.Maps
  | _, [], maps => .ok maps
  | i, route :: routes, maps => do
      let maps ← bindRoute obj defaultTail (updated i) route maps
      bindLoop obj defaultTail updated (i + 1) routes maps

/-- `zereh_seed_prog_array`; `updated i` is the answer of the kernel for route `i`. -/
def seedProgArray (obj : BpfObject) (updated : Nat → Bool) (cfg : Config) (maps : Xdp.Maps) :
    Except BindError Xdp.Maps :=
  let defaultTail := obj.findProgramByName (ascii "zereh_app_default")
  bindLoop obj defaultTail updated 0 cfg.routes maps

end Zereh.Control
