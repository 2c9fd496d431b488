/-
  `control/config.h` and `control/config.c`: the configuration that the parser fills and that
  the generator and the loader read.

  A `char` array is the C string it holds, an array with its count is a list, and the
  `uint8_t` flags that only hold 0 and 1 are `Bool`. `struct zereh_route`'s fields `prefix`
  and `suffix` are `prefixMatch` and `suffixMatch` here.
-/
import Zereh.Lib.Bytes

namespace Zereh

open Lib

inductive TargetType where
  | userSpace
  | kernelSpace
  | xdpProg
  deriving DecidableEq, Repr

inductive DefaultAction where
  | pass
  | drop
  deriving DecidableEq, Repr

inductive XdpMode where
  | native
  | skb
  | offload
  deriving DecidableEq, Repr

inductive HashAlgorithm where
  | fnv1a
  | siphash
  deriving DecidableEq, Repr

def maxRoutes : Nat := 1024
def maxBlacklist : Nat := 1024
def maxDomainLen : Nat := 255
def maxPatternLen : Nat := 128
def maxCidrLen : Nat := 64
def maxBloomSeeds : Nat := 32
def maxProgName : Nat := 64
def ifnamsiz : Nat := 16
def pathMax : Nat := 4096

def rrtypeA : UInt32 := 1
def rrtypeAaaa : UInt32 := 2
def rrtypeTxt : UInt32 := 4
def rrtypeAny : UInt32 := 8

/-- `struct zereh_route`. -/
structure Route where
  domain : CStr
  hash : UInt64
  target : TargetType
  xskQueue : UInt32
  kernelPort : UInt16
  progIndex : UInt32
  progName : CStr
  prefixMatch : CStr
  suffixMatch : CStr
  minLabels : UInt8
  maxLabels : UInt8
  qnameMinLen : UInt16
  qnameMaxLen : UInt16
  rrtypeMask : UInt32
  powEnabled : Bool
  powDifficulty : UInt8
  powTimeWindow : UInt16
  bloomEnabled : Bool
  bloomSize : UInt32
  bloomHashFunctions : UInt8
  bloomTimeWindow : UInt16
  bloomSeeds : List CStr
  rateLimitQps : UInt32
  deriving DecidableEq

/-- `struct zereh_config`. -/
structure Config where
  interface : CStr
  templatePath : CStr
  generatedSource : CStr
  generatedObject : CStr
  xdpSection : CStr
  xdpMode : XdpMode
  defaultAction : DefaultAction
  maxPacketSize : UInt32
  defaultKernelPort : UInt16
  allowedOpcodeMask : UInt16
  dropTruncated : Bool
  hashAlgorithm : CStr
  hashAlgo : HashAlgorithm
  optimizeJumpTables : Bool
  inlineChecksums : Bool
  blacklist : List CStr
  routes : List Route
  deriving DecidableEq

/-- `zereh_config_init_defaults`. -/
def configInitDefaults : Config where
  interface := CStr.lit "eth0"
  templatePath := CStr.lit "xdp/xdp_template.c"
  generatedSource := CStr.lit "build/xdp/router_generated.c"
  generatedObject := CStr.lit "build/xdp/router_generated.o"
  xdpSection := CStr.lit "xdp_router"
  xdpMode := .native
  defaultAction := .pass
  maxPacketSize := 1400
  defaultKernelPort := 5302
  allowedOpcodeMask := 1
  dropTruncated := false
  hashAlgorithm := CStr.lit "FNV-1a"
  hashAlgo := .fnv1a
  optimizeJumpTables := true
  inlineChecksums := true
  blacklist := []
  routes := []

end Zereh
