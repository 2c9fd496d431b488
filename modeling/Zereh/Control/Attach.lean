/-
  `control/loader.c`, attaching: `zereh_load_and_swap_xdp` and `zereh_detach_xdp`.

  * The state is what the kernel holds for one interface: a program in each of the three slots,
    with a mark when a BPF link owns it, and the link that is pinned under the path of the
    interface. The functions return the C result and the new state.
  * The answers of libbpf and of the kernel are arguments, one for each call that a load or an
    unload can make. A call that is refused has no effect, one that is accepted takes effect at
    once. A link is only ever attached to an empty slot, a link can only be pinned where nothing
    is, the last reference of a link that goes empties its slot, and a slot that a link owns is
    not detached by netlink.
  * The maps that are seeded are those of the new object; the running program has its own.
-/
import Zereh.Control.Loader

namespace Zereh.Control

open Lib

/-! ## The interface -/

/-- A program in a slot; `linked` when a BPF link owns it. -/
structure Attached where
  prog : Nat
  linked : Bool
  deriving DecidableEq, Repr

/-- The slots of an interface, and the slot of the link pinned under its path. -/
structure Interface where
  slot : XdpMode → Option Attached
  pin : Option XdpMode

/-- Nothing attached. -/
def Interface.empty : Interface := ⟨fun _ => none, none⟩

def Interface.set (iface : Interface) (mode : XdpMode) (a : Option Attached) : Interface :=
  { iface with slot := Function.update iface.slot mode a }

/-- The slot belongs to a link. -/
def Interface.linked (iface : Interface) (mode : XdpMode) : Bool :=
  (iface.slot mode).any (·.linked)

/-- The values of `errno` that the loader tells apart. -/
inductive Errno where
  | enoent
  | einval
  | enotsup
  | eopnotsupp
  | other
  deriving DecidableEq, Repr

/-! ## Calls -/

section Calls

variable (iface : Interface)

/-- `bpf_xdp_query_id` and `bpf_prog_get_fd_by_id`: the program to be replaced, if both succeed
    and there is one. -/
def queryOld (mode : XdpMode) (answered : Bool) : Option Nat :=
  if answered then (iface.slot mode).map (·.prog) else none

/-- `bpf_xdp_attach`; a program to be replaced must be the one in the slot. -/
def bpfXdpAttach (prog : Nat) (mode : XdpMode) (old : Option Nat) (accepted : Bool) :
    Option Interface :=
  if accepted ∧ (old = none ∨ (iface.slot mode).map (·.prog) = old) then
    some (iface.set mode (some ⟨prog, false⟩))
  else none

/-- `bpf_xdp_detach`. -/
def bpfXdpDetach (mode : XdpMode) (reply : Option Errno) : Except Errno Interface :=
  match reply with
  | some e => .error e
  | none => if iface.linked mode then .error .other else .ok (iface.set mode none)

/-- `bpf_obj_get` on the pin path. -/
def bpfObjGet (reply : Option Errno) : Except Errno XdpMode :=
  match reply, iface.pin with
  | some e, _ => .error e
  | none, none => .error .enoent
  | none, some mode => .ok mode

/-- `bpf_link_update` on the link that owns a slot. -/
def bpfLinkUpdate (mode : XdpMode) (prog : Nat) (accepted : Bool) : Option Interface :=
  if accepted ∧ iface.linked mode then some (iface.set mode (some ⟨prog, true⟩)) else none

/-- `bpf_program__attach_xdp`: a link, in the slot that the driver supports. -/
def bpfProgramAttachXdp (prog : Nat) (mode : XdpMode) (accepted : Bool) : Option Interface :=
  if accepted ∧ iface.slot mode = none then some (iface.set mode (some ⟨prog, true⟩)) else none

/-- `bpf_link__pin`. -/
def bpfLinkPin (mode : XdpMode) (accepted : Bool) : Option Interface :=
  if accepted ∧ iface.pin = none then some { iface with pin := some mode } else none

/-- `bpf_link__destroy` on a link that is not pinned. -/
def bpfLinkDestroy (mode : XdpMode) : Interface := iface.set mode none

/-- `unlink` on the pin path of a link that nothing else holds. -/
def unlinkPin (mode : XdpMode) (reply : Option Errno) : Except Errno Interface :=
  match reply with
  | some e => .error e
  | none => .ok { iface.set mode none with pin := none }

end Calls

/-! ## Load -/

/-- What the kernel answers to the calls of one load; `linkMode` is where a link without mode
    flags goes. -/
structure Replies where
  queried : XdpMode → Bool
  attach : XdpMode → Bool
  objGet : Option Errno
  linkUpdate : Bool
  linkNative : Bool
  linkAttach : Bool
  linkPin : Bool

def Replies.linkMode (r : Replies) : XdpMode := if r.linkNative then .native else .skb

/-- `zereh_attach_xdp_replace`. -/
def attachXdpReplace (iface : Interface) (prog : Nat) (mode : XdpMode) (r : Replies) :
    Int × Interface :=
  match bpfXdpAttach iface prog mode (queryOld iface mode (r.queried mode)) (r.attach mode) with
  | some iface => (0, iface)
  | none => (-1, iface)

/-- `zereh_attach_or_update_link`. -/
def attachOrUpdateLink (iface : Interface) (prog : Nat) (mode : XdpMode) (r : Replies) :
    Int × Interface :=
  if mode ≠ .native then attachXdpReplace iface prog mode r
  else
    match bpfObjGet iface r.objGet with
    | .ok slot =>
      match bpfLinkUpdate iface slot prog r.linkUpdate with
      | some iface => (0, iface)
      | none => (-1, iface)
    | .error errno =>
      if errno ≠ .enoent then (-1, iface)
      else
        match bpfProgramAttachXdp iface prog r.linkMode r.linkAttach with
        | none => (-1, iface)
        | some attached =>
          match bpfLinkPin attached r.linkMode r.linkPin with
          | none => (-1, bpfLinkDestroy attached r.linkMode)
          | some pinned => (0, pinned)

/-- `zereh_attach_with_fallback`: with the effective mode when it succeeds. -/
def attachWithFallback (iface : Interface) (prog : Nat) (requestedMode : XdpMode) (r : Replies) :
    Option XdpMode × Interface :=
  let (rc, iface) := attachOrUpdateLink iface prog requestedMode r
  if rc = 0 then (some requestedMode, iface)
  else
    match requestedMode with
    | .offload =>
      let (rc, iface) := attachOrUpdateLink iface prog .native r
      if rc = 0 then (some .native, iface)
      else
        let (rc, iface) := attachOrUpdateLink iface prog .skb r
        if rc = 0 then (some .skb, iface) else (none, iface)
    | .native =>
      let (rc, iface) := attachOrUpdateLink iface prog .skb r
      if rc = 0 then (some .skb, iface) else (none, iface)
    | .skb => (none, iface)

/-- `zereh_build_pin_path`. -/
def buildPinPath (ifname : CStr) : Option (List UInt8) :=
  if ifname.len = 0 ∨ ifname.len ≥ ifnamsiz then none
  else some (ascii "/sys/fs/bpf/zereh" ++ ascii "/xdp_link_" ++ ifname.bytes)

/-- What the system answers to a load. A map that the object lacks is not seeded; `some` holds
    whether its updates are taken. -/
structure LoadEnv where
  ifindex : Nat
  memlock : Bool
  opened : Bool
  loaded : Bool
  blacklistMap : Option Bool
  bloomMap : Option Bool
  progArrayMap : Option (Nat → Bool)
  obj : BpfObject
  ensureDir : Bool
  replies : Replies

/-- `blacklist_map && zereh_seed_blacklist_map (..) != 0`, negated. -/
def blacklistSeeded (cfg : Config) : Option Bool → Bool
  | none => true
  | some updated => updated && (seedBlacklistMap cfg .created).isOk

/-- The same for `prog_array`. -/
def progArraySeeded (cfg : Config) (obj : BpfObject) : Option (Nat → Bool) → Bool
  | none => true
  | some updated => (seedProgArray obj updated cfg .created).isOk

/-- `ifname_override` if it is given and not empty, else the interface of the configuration. -/
def chosenInterface (cfg : Config) (ifnameOverride : Option CStr) : CStr :=
  match ifnameOverride with
  | some ifname => if ifname.bytes ≠ [] then ifname else cfg.interface
  | none => cfg.interface

/-- `zereh_load_and_swap_xdp`. -/
def loadAndSwapXdp (cfg : Config) (ifnameOverride : Option CStr) (env : LoadEnv)
    (iface : Interface) : Int × Interface :=
  if env.ifindex = 0 then (-1, iface)
  else if !env.memlock then (-1, iface)
  else if !env.opened then (-1, iface)
  else if !env.loaded then (-1, iface)
  else if !blacklistSeeded cfg env.blacklistMap then (-1, iface)
  else if env.bloomMap = some false then (-1, iface)
  else if !progArraySeeded cfg env.obj env.progArrayMap then (-1, iface)
  else
    match env.obj.findProgramByName cfg.xdpSection.bytes with
    | none => (-1, iface)
    | some prog =>
      if !env.ensureDir then (-1, iface)
      else
        match buildPinPath (chosenInterface cfg ifnameOverride) with
        | none => (-1, iface)
        | some _ =>
          match attachWithFallback iface prog cfg.xdpMode env.replies with
          | (some _, iface) => (0, iface)
          | (none, iface) => (-1, iface)

/-! ## Unload -/

/-- What the system answers to an unload. -/
structure UnloadEnv where
  ifindex : Nat
  objGet : Option Errno
  unlink : Option Errno
  detach : XdpMode → Option Errno

/-- The errors of a detach that count as "nothing was attached". -/
def ignored : Errno → Bool
  | .enoent | .einval | .enotsup | .eopnotsupp => true
  | .other => false

/-- `zereh_detach_mode`. -/
def detachMode (iface : Interface) (mode : XdpMode) (reply : Option Errno) : Int × Interface :=
  match bpfXdpDetach iface mode reply with
  | .ok iface => (0, iface)
  | .error errno => if ignored errno then (0, iface) else (-1, iface)

/-- The removal of the pinned link at the start of `zereh_detach_xdp`. -/
def removePinned (iface : Interface) (objGet unlink : Option Errno) : Int × Interface :=
  match bpfObjGet iface objGet with
  | .error _ => (0, iface)
  | .ok slot =>
    match unlinkPin iface slot unlink with
    | .ok iface => (0, iface)
    | .error errno => if errno ≠ .enoent then (-1, iface) else (0, iface)

/-- `zereh_detach_xdp`: native, then offload, then skb. -/
def detachXdp (cfg : Config) (ifnameOverride : Option CStr) (env : UnloadEnv) (iface : Interface) :
    Int × Interface :=
  if env.ifindex = 0 then (-1, iface)
  else
    match buildPinPath (chosenInterface cfg ifnameOverride) with
    | none => (-1, iface)
    | some _ =>
      let (rc, iface) := removePinned iface env.objGet env.unlink
      if rc ≠ 0 then (-1, iface)
      else
        let (rc, iface) := detachMode iface .native (env.detach .native)
        if rc ≠ 0 then (-1, iface)
        else
          let (rc, iface) := detachMode iface .offload (env.detach .offload)
          if rc ≠ 0 then (-1, iface)
          else
            let (rc, iface) := detachMode iface .skb (env.detach .skb)
            if rc ≠ 0 then (-1, iface) else (0, iface)

end Zereh.Control
