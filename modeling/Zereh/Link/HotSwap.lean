/-
  Loads and unloads while frames come in.

  `zereh_load_and_swap_xdp` and `zereh_detach_xdp` cut into the calls they make, one tick for each:
  one update of a map, one query, one attach. Any number of such processes may run at once, there is no
  lock, and between two ticks frames reach the program that is in their slot. A program has the number of
  the process that loads it, its maps are its own, and every CPU has its own rate states.

  Two things are assumed of the kernel. A link is gone when its pin is unlinked, also for a load that has
  opened it and not closed it yet. And what a load has put into its maps stays as long as its program is in
  a slot, the array of programs included, which no pin holds.

  `hot_swap_policy`: in every order of ticks and frames, every answer of every program is the one its own
  document gives it. No frame is answered from maps that are half seeded, and none is charged to another
  program or another CPU. The invariant is `Tracks`: what is in a slot was seeded to the end and is in
  service (`Live`), and a load that still seeds is in no slot (`loadTick_seeding`, `loadTick_attaching`).
-/
import Zereh.Control.Swap
import Zereh.Link.DataPlane

namespace Zereh.Link

open Lib CText Control Xdp

/-! ## Processes -/

/-- What the system answers to one load, every update of a map by itself. The object is one of the
    generated program, so it has the three maps. -/
structure SwapEnv where
  ifindex : Nat
  memlock : Bool
  opened : Bool
  loaded : Bool
  now : UInt64
  obj : BpfObject
  blacklistUpdated : Nat → Bool
  bloomUpdated : Nat → Bool
  progUpdated : Nat → Bool
  ensureDir : Bool
  replies : Replies

/-- A load of an object that was generated from `built`. -/
structure LoadJob where
  doc : YamlDocument
  cfg : Config
  parsed : parseConfigYaml doc = .ok cfg
  built : Config
  ifnameOverride : Option CStr
  env : SwapEnv

structure UnloadJob where
  cfg : Config
  ifnameOverride : Option CStr
  env : UnloadEnv

/-- The next call of a load. `rest` holds the modes it may still fall back to. -/
inductive LoadPc where
  | setup
  | blacklist (i : Nat)
  | bloom (i : Nat)
  | progs (i : Nat)
  | find
  | attempt (mode : XdpMode) (rest : List XdpMode)
  | attach (mode : XdpMode) (old : Option Nat) (rest : List XdpMode)
  | update (slot : XdpMode) (rest : List XdpMode)
  | link (rest : List XdpMode)
  | pin (rest : List XdpMode)
  | destroy (rest : List XdpMode)
  | done (rc : Int)

/-- The next call of an unload. -/
inductive UnloadPc where
  | setup
  | objGet
  | unlink
  | detach (mode : XdpMode) (rest : List XdpMode)
  | done (rc : Int)

/-- `zereh_attach_with_fallback` after a failed attempt. -/
def nextAttempt : List XdpMode → LoadPc
  | [] => .done (-1)
  | mode :: rest => .attempt mode rest

/-- The words that `zereh_seed_bloom_map` stores. -/
def seedWords (job : LoadJob) : Nat → UInt64 :=
  routesLoop job.cfg.hashAlgo job.env.now job.cfg.routes fun _ => 0

/-- One call of load number `p`, on the maps of its object and the interface. -/
def loadTick (p : Nat) (job : LoadJob) (pc : LoadPc) (maps : Maps) (iface : Interface) :
    LoadPc × Maps × Interface :=
  match pc with
  | .setup =>
    if job.env.ifindex = 0 ∨ !job.env.memlock ∨ !job.env.opened ∨ !job.env.loaded then
      (.done (-1), maps, iface)
    else (.blacklist 0, maps, iface)
  | .blacklist i =>
    match job.cfg.blacklist[i]? with
    | none => (.bloom 0, maps, iface)
    | some cidr =>
      match parseCidrV4 cidr with
      | none => (.done (-1), maps, iface)
      | some key =>
        if job.env.blacklistUpdated i then
          (.blacklist (i + 1), { maps with ipBlacklist := maps.ipBlacklist ++ [key] }, iface)
        else (.done (-1), maps, iface)
  | .bloom i =>
    if i < Control.bloomWords.toNat then
      if job.env.bloomUpdated i then
        (.bloom (i + 1), { maps with powBloom := Function.update maps.powBloom i (seedWords job i) },
          iface)
      else (.done (-1), maps, iface)
    else (.progs 0, maps, iface)
  | .progs i =>
    match job.cfg.routes[i]? with
    | none => (.find, maps, iface)
    | some route =>
      match bindRoute job.env.obj (job.env.obj.findProgramByName (ascii "zereh_app_default"))
          (job.env.progUpdated i) route maps with
      | .ok maps => (.progs (i + 1), maps, iface)
      | .error _ => (.done (-1), maps, iface)
  | .find =>
    if job.env.obj.findProgramByName job.cfg.xdpSection.bytes = none ∨ !job.env.ensureDir ∨
        buildPinPath (chosenInterface job.cfg job.ifnameOverride) = none then
      (.done (-1), maps, iface)
    else (nextAttempt (attempts job.cfg.xdpMode), maps, iface)
  | .attempt mode rest =>
    if mode ≠ .native then
      (.attach mode (queryOld iface mode (job.env.replies.queried mode)) rest, maps, iface)
    else
      match bpfObjGet iface job.env.replies.objGet with
      | .ok slot => (.update slot rest, maps, iface)
      | .error errno =>
        if errno ≠ .enoent then (nextAttempt rest, maps, iface) else (.link rest, maps, iface)
  | .attach mode old rest =>
    match bpfXdpAttach iface p mode old (job.env.replies.attach mode) with
    | some iface => (.done 0, maps, iface)
    | none => (nextAttempt rest, maps, iface)
  | .update slot rest =>
    match bpfLinkUpdate iface slot p job.env.replies.linkUpdate with
    | some iface => (.done 0, maps, iface)
    | none => (nextAttempt rest, maps, iface)
  | .link rest =>
    match bpfProgramAttachXdp iface p job.env.replies.linkMode job.env.replies.linkAttach with
    | some iface => (.pin rest, maps, iface)
    | none => (nextAttempt rest, maps, iface)
  | .pin rest =>
    match bpfLinkPin iface job.env.replies.linkMode job.env.replies.linkPin with
    | some iface => (.done 0, maps, iface)
    | none => (.destroy rest, maps, iface)
  | .destroy rest => (nextAttempt rest, maps, bpfLinkDestroy iface job.env.replies.linkMode)
  | .done rc => (.done rc, maps, iface)

/-- The next detach of an unload. -/
def nextDetach : List XdpMode → UnloadPc
  | [] => .done 0
  | mode :: rest => .detach mode rest

/-- One call of an unload. `unlink` goes by the path, so it takes the link that is pinned now, and the
    slot is free at once. -/
def unloadTick (job : UnloadJob) (pc : UnloadPc) (iface : Interface) : UnloadPc × Interface :=
  match pc with
  | .setup =>
    if job.env.ifindex = 0 ∨ buildPinPath (chosenInterface job.cfg job.ifnameOverride) = none then
      (.done (-1), iface)
    else (.objGet, iface)
  | .objGet =>
    match bpfObjGet iface job.env.objGet with
    | .error _ => (nextDetach [.native, .offload, .skb], iface)
    | .ok _ => (.unlink, iface)
  | .unlink =>
    match iface.pin with
    | none => (nextDetach [.native, .offload, .skb], iface)
    | some slot =>
      match unlinkPin iface slot job.env.unlink with
      | .ok iface => (nextDetach [.native, .offload, .skb], iface)
      | .error errno =>
        if errno ≠ .enoent then (.done (-1), iface) else (nextDetach [.native, .offload, .skb], iface)
  | .detach mode rest =>
    match detachMode iface mode (job.env.detach mode) with
    | (rc, iface) => if rc ≠ 0 then (.done (-1), iface) else (nextDetach rest, iface)
  | .done rc => (.done rc, iface)

/-! ## The system -/

/-- The maps of a loaded object: what all CPUs share, and the rate states of each of them. -/
structure Object where
  shared : Maps
  rates : Nat → Nat → RateState

def Object.created : Object := ⟨.created, fun _ => Maps.created.routeRateState⟩

/-- The maps as a CPU sees them. -/
def Object.view (o : Object) (cpu : Nat) : Maps := { o.shared with routeRateState := o.rates cpu }

/-- The object after a CPU has left the maps like this. -/
def Object.store (o : Object) (cpu : Nat) (maps : Maps) : Object :=
  ⟨{ maps with routeRateState := o.shared.routeRateState },
    Function.update o.rates cpu maps.routeRateState⟩

/-- A load and the object it made. The object stays when the process has ended, its array of programs
    included. -/
structure Load where
  job : LoadJob
  pc : LoadPc
  object : Object

inductive Proc where
  | load (l : Load)
  | unload (job : UnloadJob) (pc : UnloadPc)

/-- The interface and every process so far. The program in a slot has the number of its load. -/
structure System where
  iface : Interface
  procs : List Proc

def System.initial : System := ⟨.empty, []⟩

inductive Event where
  | load (job : LoadJob)
  | unload (job : UnloadJob)
  | tick (p : Nat)
  | frame (mode : XdpMode) (cpu : Nat) (frame : Frame)

/-- A frame that a program has answered. -/
structure Answer where
  prog : Nat
  cpu : Nat
  frame : Frame
  verdict : Verdict

/-- A frame meets the program in the slot, if there is one. -/
def System.serve (s : System) (mode : XdpMode) (cpu : Nat) (frame : Frame) :
    Checked (Option Answer × System) :=
  match s.iface.slot mode with
  | none => .ok (none, s)
  | some a =>
    match s.procs[a.prog]? with
    | some (.load l) => do
      let (verdict, maps) ← generatedStep l.job.built (l.object.view cpu) frame
      .ok (some ⟨a.prog, cpu, frame, verdict⟩,
        { s with procs := s.procs.set a.prog (.load { l with object := l.object.store cpu maps }) })
    | _ => .ok (none, s)

/-- Process `p` makes its next call. -/
def System.tick (s : System) (p : Nat) : System :=
  match s.procs[p]? with
  | none => s
  | some (.load l) =>
    match loadTick p l.job l.pc l.object.shared s.iface with
    | (pc, maps, iface) => ⟨iface, s.procs.set p (.load ⟨l.job, pc, { l.object with shared := maps }⟩)⟩
  | some (.unload job pc) =>
    match unloadTick job pc s.iface with
    | (pc, iface) => ⟨iface, s.procs.set p (.unload job pc)⟩

def systemStep (s : System) : Event → Checked (Option Answer × System)
  | .load job => .ok (none, { s with procs := s.procs ++ [.load ⟨job, .setup, .created⟩] })
  | .unload job => .ok (none, { s with procs := s.procs ++ [.unload job .setup] })
  | .tick p => .ok (none, s.tick p)
  | .frame mode cpu frame => s.serve mode cpu frame

/-! ## Ticks -/

/-- The load still writes to its maps. -/
def LoadPc.seeding : LoadPc → Bool
  | .setup | .blacklist _ | .bloom _ | .progs _ => true
  | _ => false

theorem seeding_nextAttempt (rest : List XdpMode) : (nextAttempt rest).seeding = false := by
  cases rest <;> rfl

/-- What a load that still seeds has written so far. -/
def Seeds (job : LoadJob) (maps : Maps) : LoadPc → Prop
  | .setup => maps = .created
  | .blacklist i => ∃ keys, blacklistKeys (job.cfg.blacklist.take i) = .ok keys ∧
      maps = { Maps.created with ipBlacklist := keys }
  | .bloom i => i ≤ Control.bloomWords.toNat ∧ ∃ maps0, seedBlacklistMap job.cfg .created = .ok maps0 ∧
      maps = { maps0 with powBloom := fun j => if j < i then seedWords job j else maps0.powBloom j }
  | .progs i => ∃ maps0, seedBlacklistMap job.cfg .created = .ok maps0 ∧
      bindLoop job.env.obj (job.env.obj.findProgramByName (ascii "zereh_app_default"))
          job.env.progUpdated i (job.cfg.routes.drop i) maps =
        seedProgArray job.env.obj job.env.progUpdated job.cfg
          (seedBloomMap job.cfg job.env.now maps0)
  | _ => seedMaps job.cfg job.env.now job.env.obj job.env.progUpdated = some maps

theorem blacklistKeys_append {cidrs : List CStr} {keys : List LpmV4Key}
    (h : blacklistKeys cidrs = .ok keys) {cidr : CStr} {key : LpmV4Key}
    (hkey : parseCidrV4 cidr = some key) : blacklistKeys (cidrs ++ [cidr]) = .ok (keys ++ [key]) := by
  induction cidrs generalizing keys with
  | nil =>
    cases h
    rw [List.nil_append, blacklistKeys, hkey]
    rfl
  | cons first cidrs ih =>
    rw [List.cons_append]
    unfold blacklistKeys at h ⊢
    cases hfirst : parseCidrV4 first with
    | none =>
      rw [hfirst] at h
      cases h
    | some key0 =>
      rw [hfirst] at h
      obtain ⟨rest, hrest, h⟩ := bind_eq_ok h
      cases h
      dsimp only
      rw [ih hrest]
      rfl

section Seeding

variable {p : Nat} {job : LoadJob} {maps : Maps} (iface : Interface)

theorem seeds_blacklist {i : Nat} (h : Seeds job maps (.blacklist i)) :
    loadTick p job (.blacklist i) maps iface = (.done (-1), maps, iface) ∨
    ∃ pc maps', loadTick p job (.blacklist i) maps iface = (pc, maps', iface) ∧ Seeds job maps' pc := by
  obtain ⟨keys, hkeys, rfl⟩ := h
  unfold loadTick
  dsimp only
  cases hcidr : job.cfg.blacklist[i]? with
  | none =>
    refine .inr ⟨.bloom 0, _, rfl, Nat.zero_le _, { Maps.created with ipBlacklist := keys }, ?_, rfl⟩
    rw [List.take_of_length_le (List.getElem?_eq_none_iff.mp hcidr)] at hkeys
    rw [seedBlacklistMap, hkeys]
    rfl
  | some cidr =>
    dsimp only
    cases hkey : parseCidrV4 cidr with
    | none => exact .inl rfl
    | some key =>
      dsimp only
      split_ifs
      · refine .inr ⟨.blacklist (i + 1), _, rfl, keys ++ [key], ?_, rfl⟩
        rw [List.take_add_one, hcidr]
        exact blacklistKeys_append hkeys hkey
      · exact .inl rfl

theorem seeds_bloom {i : Nat} (h : Seeds job maps (.bloom i)) :
    loadTick p job (.bloom i) maps iface = (.done (-1), maps, iface) ∨
    ∃ pc maps', loadTick p job (.bloom i) maps iface = (pc, maps', iface) ∧ Seeds job maps' pc := by
  obtain ⟨hi, maps0, hmaps0, rfl⟩ := h
  unfold loadTick
  dsimp only
  split_ifs with hlt hupdated
  · refine .inr ⟨.bloom (i + 1), _, rfl, hlt, maps0, hmaps0, ?_⟩
    congr 1
    funext j
    rcases Nat.lt_trichotomy j i with hj | rfl | hj
    · rw [Function.update_of_ne (by omega), if_pos hj, if_pos (by omega)]
    · rw [Function.update_self, if_pos (by omega)]
    · rw [Function.update_of_ne (by omega), if_neg (by omega), if_neg (by omega)]
  · exact .inl rfl
  · obtain rfl : i = Control.bloomWords.toNat := by omega
    exact .inr ⟨.progs 0, _, rfl, maps0, hmaps0, rfl⟩

theorem seeds_progs {i : Nat} (h : Seeds job maps (.progs i)) :
    loadTick p job (.progs i) maps iface = (.done (-1), maps, iface) ∨
    ∃ pc maps', loadTick p job (.progs i) maps iface = (pc, maps', iface) ∧ Seeds job maps' pc := by
  obtain ⟨maps0, hmaps0, hloop⟩ := h
  unfold loadTick
  dsimp only
  cases hroute : job.cfg.routes[i]? with
  | none =>
    refine .inr ⟨.find, maps, rfl, ?_⟩
    rw [List.drop_eq_nil_of_le (List.getElem?_eq_none_iff.mp hroute), bindLoop] at hloop
    show seedMaps job.cfg job.env.now job.env.obj job.env.progUpdated = some maps
    rw [seedMaps, hmaps0]
    dsimp only
    rw [← hloop]
  | some route =>
    dsimp only
    obtain ⟨hlt, rfl⟩ := List.getElem?_eq_some_iff.mp hroute
    rw [List.drop_eq_getElem_cons hlt, bindLoop] at hloop
    cases hbind : bindRoute job.env.obj (job.env.obj.findProgramByName (ascii "zereh_app_default"))
        (job.env.progUpdated i) job.cfg.routes[i] maps with
    | error e => exact .inl rfl
    | ok maps' =>
      rw [hbind] at hloop
      exact .inr ⟨.progs (i + 1), maps', rfl, maps0, hmaps0, hloop⟩

/-- A tick that seeds leaves the interface alone; it stops the load, or keeps to the seeds. -/
theorem loadTick_seeding {pc : LoadPc} (hpc : pc.seeding = true) (h : Seeds job maps pc) :
    loadTick p job pc maps iface = (.done (-1), maps, iface) ∨
    ∃ pc' maps', loadTick p job pc maps iface = (pc', maps', iface) ∧ Seeds job maps' pc' := by
  cases pc with
  | setup =>
    unfold loadTick
    dsimp only
    split_ifs
    · exact .inl rfl
    · exact .inr ⟨.blacklist 0, maps, rfl, [], rfl, h⟩
  | blacklist i => exact seeds_blacklist iface h
  | bloom i => exact seeds_bloom iface h
  | progs i => exact seeds_progs iface h
  | _ => cases hpc

end Seeding

/-- A tick of an attach writes to no map, and puts no program but its own in a slot. -/
theorem loadTick_attaching {p : Nat} {job : LoadJob} {pc pc' : LoadPc} {maps maps' : Maps}
    {iface iface' : Interface} (hpc : pc.seeding = false)
    (h : loadTick p job pc maps iface = (pc', maps', iface')) :
    maps' = maps ∧ pc'.seeding = false ∧ ((∃ rc, pc = .done rc) → iface' = iface ∧ pc' = pc) ∧
      ∀ mode a, iface'.slot mode = some a → iface.slot mode = some a ∨ a.prog = p := by
  have hset : ∀ {slot : XdpMode} {new : Option Attached}, (∀ a, new = some a → a.prog = p) →
      ∀ mode a, (iface.set slot new).slot mode = some a → iface.slot mode = some a ∨ a.prog = p := by
    intro slot new hnew mode a ha
    by_cases hmode : mode = slot
    · subst hmode
      rw [set_slot_self] at ha
      exact .inr (hnew a ha)
    · rw [set_slot_of_ne hmode] at ha
      exact .inl ha
  have hown : ∀ {linked : Bool}, ∀ a, some (⟨p, linked⟩ : Attached) = some a → a.prog = p := by
    rintro linked a ⟨⟩
    rfl
  have hkeep : ∀ mode a, iface.slot mode = some a → iface.slot mode = some a ∨ a.prog = p :=
    fun _ _ => .inl
  cases pc with
  | setup => cases hpc
  | blacklist i => cases hpc
  | bloom i => cases hpc
  | progs i => cases hpc
  | find =>
    unfold loadTick at h
    dsimp only at h
    split_ifs at h <;> cases h
    · exact ⟨rfl, rfl, by rintro ⟨rc, ⟨⟩⟩, hkeep⟩
    · exact ⟨rfl, seeding_nextAttempt _, by rintro ⟨rc, ⟨⟩⟩, hkeep⟩
  | attempt mode rest =>
    unfold loadTick at h
    dsimp only at h
    split_ifs at h
    · cases h
      exact ⟨rfl, rfl, by rintro ⟨rc, ⟨⟩⟩, hkeep⟩
    · split at h
      · cases h
        exact ⟨rfl, rfl, by rintro ⟨rc, ⟨⟩⟩, hkeep⟩
      · split_ifs at h <;> cases h
        · exact ⟨rfl, seeding_nextAttempt _, by rintro ⟨rc, ⟨⟩⟩, hkeep⟩
        · exact ⟨rfl, rfl, by rintro ⟨rc, ⟨⟩⟩, hkeep⟩
  | attach mode old rest =>
    unfold loadTick at h
    dsimp only at h
    split at h
    · rename_i attached hattach
      cases h
      unfold bpfXdpAttach at hattach
      split_ifs at hattach
      cases hattach
      exact ⟨rfl, rfl, by rintro ⟨rc, ⟨⟩⟩, hset hown⟩
    · cases h
      exact ⟨rfl, seeding_nextAttempt _, by rintro ⟨rc, ⟨⟩⟩, hkeep⟩
  | update slot rest =>
    unfold loadTick at h
    dsimp only at h
    split at h
    · rename_i updated hupdate
      cases h
      obtain ⟨-, rfl⟩ := bpfLinkUpdate_some hupdate
      exact ⟨rfl, rfl, by rintro ⟨rc, ⟨⟩⟩, hset hown⟩
    · cases h
      exact ⟨rfl, seeding_nextAttempt _, by rintro ⟨rc, ⟨⟩⟩, hkeep⟩
  | link rest =>
    unfold loadTick at h
    dsimp only at h
    split at h
    · rename_i attached hattach
      cases h
      obtain ⟨-, -, rfl⟩ := bpfProgramAttachXdp_some hattach
      exact ⟨rfl, rfl, by rintro ⟨rc, ⟨⟩⟩, hset hown⟩
    · cases h
      exact ⟨rfl, seeding_nextAttempt _, by rintro ⟨rc, ⟨⟩⟩, hkeep⟩
  | pin rest =>
    unfold loadTick at h
    dsimp only at h
    split at h
    · rename_i pinned hpin
      cases h
      obtain ⟨-, -, rfl⟩ := bpfLinkPin_some hpin
      exact ⟨rfl, rfl, by rintro ⟨rc, ⟨⟩⟩, hkeep⟩
    · cases h
      exact ⟨rfl, rfl, by rintro ⟨rc, ⟨⟩⟩, hkeep⟩
  | destroy rest =>
    cases h
    exact ⟨rfl, seeding_nextAttempt _, by rintro ⟨rc, ⟨⟩⟩, hset (by rintro a ⟨⟩)⟩
  | done rc =>
    cases h
    exact ⟨rfl, rfl, fun _ => ⟨rfl, rfl⟩, hkeep⟩

theorem detachMode_leaves (iface : Interface) (mode : XdpMode) (reply : Option Errno) :
    (detachMode iface mode reply).2 = iface ∨ (detachMode iface mode reply).2 = iface.set mode none := by
  unfold detachMode
  cases hreply : bpfXdpDetach iface mode reply with
  | error errno =>
    dsimp only
    split_ifs
    · exact .inl rfl
    · exact .inl rfl
  | ok cut =>
    unfold bpfXdpDetach at hreply
    cases reply with
    | some e => cases hreply
    | none =>
      dsimp only at hreply
      split_ifs at hreply
      cases hreply
      exact .inr rfl

/-- A tick of an unload puts no program anywhere. -/
theorem unloadTick_slots {job : UnloadJob} {pc pc' : UnloadPc} {iface iface' : Interface}
    (h : unloadTick job pc iface = (pc', iface')) (mode : XdpMode) (a : Attached)
    (ha : iface'.slot mode = some a) : iface.slot mode = some a := by
  have hcleared : ∀ {slot : XdpMode}, (iface.set slot none).slot mode = some a →
      iface.slot mode = some a := by
    intro slot hslot
    by_cases hmode : mode = slot
    · subst hmode
      rw [set_slot_self] at hslot
      cases hslot
    · rwa [set_slot_of_ne hmode] at hslot
  cases pc with
  | setup =>
    unfold unloadTick at h
    dsimp only at h
    split_ifs at h <;> cases h <;> exact ha
  | objGet =>
    unfold unloadTick at h
    dsimp only at h
    split at h <;> cases h <;> exact ha
  | unlink =>
    unfold unloadTick unlinkPin at h
    dsimp only at h
    split at h
    · cases h
      exact ha
    · cases hreply : job.env.unlink with
      | none =>
        rw [hreply] at h
        cases h
        exact hcleared ha
      | some e =>
        rw [hreply] at h
        dsimp only at h
        split_ifs at h <;> cases h <;> exact ha
  | detach mode' rest =>
    have hdetached : (detachMode iface mode' (job.env.detach mode')).2.slot mode = some a →
        iface.slot mode = some a := by
      intro hslot
      rcases detachMode_leaves iface mode' (job.env.detach mode') with hsame | hcut
      · rwa [hsame] at hslot
      · rw [hcut] at hslot
        exact hcleared hslot
    unfold unloadTick at h
    dsimp only at h
    split_ifs at h <;> cases h <;> exact hdetached ha
  | done rc =>
    cases h
    exact ha

/-! ## Programs in service -/

/-- No process binds a socket. -/
def noSockets : Nat → Bool := fun _ => false

/-- What the document of a load makes of a frame. -/
noncomputable def LoadJob.policy (job : LoadJob) : Charges → Frame → Verdict × Charges :=
  policyStep job.doc job.cfg job.env.now job.env.obj noSockets

/-- The object was generated from the configuration that seeds it; the source compiles, and no string
    of it holds a placeholder. -/
structure LoadJob.Good (job : LoadJob) : Prop where
  built : job.built = job.cfg
  labels : (job.cfg.routes.map (·.hash)).Nodup
  free : PlaceholderFree job.cfg

/-- The program of the object never faults. -/
def LoadJob.Safe (job : LoadJob) : Prop := ∀ maps frame, Runs (generatedStep job.built maps frame)

theorem LoadJob.Good.safe {job : LoadJob} (h : job.Good) : job.Safe := by
  intro maps frame
  rw [h.built, generatedStep_eq (accepted_of_parse job.parsed) h.free]
  obtain ⟨v, maps', hstep, -⟩ := routerStep_charges (accepted_of_parse job.parsed) h.labels frame maps
  exact ⟨_, hstep, trivial⟩

/-- Every CPU sees the maps of a router in service. -/
def Live (job : LoadJob) (o : Object) (charges : Nat → Charges) : Prop :=
  ∀ cpu, Serving job.cfg job.env.now job.env.obj noSockets (o.view cpu) (charges cpu)

theorem live_of_seeded {job : LoadJob} {o : Object}
    (h : seedMaps job.cfg job.env.now job.env.obj job.env.progUpdated = some o.shared)
    (hrates : o.rates = Object.created.rates) : Live job o fun _ _ => [] := by
  intro cpu
  have hserving := serving_seedMaps h noSockets
  obtain ⟨maps0, -, -, hmaps⟩ := seedMaps_cases h
  have hview : o.view cpu = { o.shared with xskMap := noSockets } := by
    unfold Object.view
    rw [hrates, hmaps]
    rfl
  rwa [hview]

/-- Maps in service share everything but the rate states. -/
theorem Serving.with_rates {cfg : Config} {loaded : UInt64} {obj : BpfObject} {sockets : Nat → Bool}
    {maps maps' : Maps} {charges charges' : Charges} (h : Serving cfg loaded obj sockets maps charges)
    (h' : Serving cfg loaded obj sockets maps' charges') :
    Serving cfg loaded obj sockets { maps with routeRateState := maps'.routeRateState } charges' :=
  ⟨h.blacklist, h.bloom, h.sockets, h.progs, h.bound, h'.rate⟩

/-- A frame on one CPU is answered by the policy, and the others do not see it. -/
theorem Live.serve {job : LoadJob} (hgood : job.Good) {o : Object} {charges : Nat → Charges}
    (hlive : Live job o charges) (cpu : Nat) {frame : Frame} (hnow : NotBefore (charges cpu) frame) :
    ∃ maps, generatedStep job.built (o.view cpu) frame =
        .ok ((job.policy (charges cpu) frame).1, maps) ∧
      Live job (o.store cpu maps)
        (Function.update charges cpu (job.policy (charges cpu) frame).2) := by
  obtain ⟨maps, hstep, hserving⟩ := simulation_router job.parsed hgood.labels (o.view cpu)
    (charges cpu) frame (hlive cpu) hnow
  rw [hgood.built, generatedStep_eq (accepted_of_parse job.parsed) hgood.free]
  refine ⟨maps, hstep, fun other => ?_⟩
  unfold Object.view Object.store
  by_cases hother : other = cpu
  · subst hother
    rw [Function.update_self]
    dsimp only
    rw [Function.update_self]
    exact hserving
  · rw [Function.update_of_ne hother]
    dsimp only
    rw [Function.update_of_ne hother]
    exact hserving.with_rates (hlive other)

/-! ## The invariant -/

/-- Process `p` is this load. -/
def System.HasLoad (s : System) (p : Nat) (l : Load) : Prop := s.procs[p]? = some (.load l)

/-- What every order of events keeps. `charges p cpu` are the frames that program `p` was charged for on
    that CPU. -/
structure Tracks (s : System) (charges : Nat → Nat → Charges) : Prop where
  good : ∀ p l, s.HasLoad p l → l.job.Good
  slots : ∀ mode a, s.iface.slot mode = some a → ∃ l, s.HasLoad a.prog l ∧ l.pc.seeding = false ∧
    Live l.job l.object (charges a.prog)
  seeds : ∀ p l, s.HasLoad p l → l.pc.seeding = true →
    Seeds l.job l.object.shared l.pc ∧ l.object.rates = Object.created.rates ∧
      charges p = fun _ _ => []
  ready : ∀ p l, s.HasLoad p l → l.pc.seeding = false → (∀ rc, l.pc ≠ .done rc) →
    Live l.job l.object (charges p)
  fresh : ∀ p, s.procs.length ≤ p → charges p = fun _ _ => []

theorem tracks_initial : Tracks System.initial fun _ _ _ => [] where
  good p l h := by cases h
  slots mode a h := by cases h
  seeds p l h := by cases h
  ready p l h := by cases h
  fresh _ _ := rfl

section Procs

variable {iface : Interface} {procs : List Proc} {p q : Nat} {l l' : Load}

theorem hasLoad_append (new : Proc) (h : System.HasLoad ⟨iface, procs⟩ p l) :
    System.HasLoad ⟨iface, procs ++ [new]⟩ p l :=
  (List.getElem?_append_left (List.getElem?_eq_some_iff.mp h).1).trans h

/-- A process after one more was started is an old one or the new one. -/
theorem hasLoad_append_cases {new : Proc} (h : System.HasLoad ⟨iface, procs ++ [new]⟩ p l) :
    System.HasLoad ⟨iface, procs⟩ p l ∨ p = procs.length ∧ new = .load l := by
  by_cases hp : p < procs.length
  · exact .inl ((List.getElem?_append_left hp).symm.trans h)
  · have hlt := (List.getElem?_eq_some_iff.mp h).1
    rw [List.length_append, List.length_singleton] at hlt
    obtain rfl : p = procs.length := by omega
    unfold System.HasLoad at h
    rw [List.getElem?_concat_length] at h
    exact .inr ⟨rfl, Option.some.inj h⟩

theorem hasLoad_set_of_ne (new : Proc) (hq : q ≠ p) :
    System.HasLoad ⟨iface, procs.set p new⟩ q l ↔ System.HasLoad ⟨iface, procs⟩ q l := by
  unfold System.HasLoad
  rw [List.getElem?_set_ne hq.symm]

theorem hasLoad_set_self (hp : p < procs.length) :
    System.HasLoad ⟨iface, procs.set p (.load l')⟩ p l ↔ l = l' := by
  unfold System.HasLoad
  rw [List.getElem?_set_self hp]
  constructor
  · rintro ⟨⟩
    rfl
  · rintro rfl
    rfl

/-- An unload that goes on leaves the loads as they are. -/
theorem hasLoad_set_unload {job job' : UnloadJob} {pc pc' : UnloadPc} {iface' : Interface}
    (hproc : procs[p]? = some (.unload job pc)) :
    System.HasLoad ⟨iface', procs.set p (.unload job' pc')⟩ q l ↔ System.HasLoad ⟨iface, procs⟩ q l := by
  unfold System.HasLoad
  by_cases hq : q = p
  · subst hq
    rw [List.getElem?_set_self (List.getElem?_eq_some_iff.mp hproc).1, hproc]
    constructor <;> rintro ⟨⟩
  · rw [List.getElem?_set_ne (Ne.symm hq)]

end Procs

section Start

variable {s : System} {charges : Nat → Nat → Charges} (h : Tracks s charges)

include h

theorem Tracks.start {new : Proc} (hnew : ∀ l, new = .load l →
    l.job.Good ∧ l.pc.seeding = true ∧ Seeds l.job l.object.shared l.pc ∧
      l.object.rates = Object.created.rates) :
    Tracks { s with procs := s.procs ++ [new] } charges := by
  constructor
  · intro p l hl
    rcases hasLoad_append_cases hl with hold | ⟨-, hlast⟩
    · exact h.good p l hold
    · exact (hnew l hlast).1
  · intro mode a ha
    obtain ⟨l, hl, hpc, hlive⟩ := h.slots mode a ha
    exact ⟨l, hasLoad_append new hl, hpc, hlive⟩
  · intro p l hl hpc
    rcases hasLoad_append_cases hl with hold | ⟨rfl, hlast⟩
    · exact h.seeds p l hold hpc
    · exact ⟨(hnew l hlast).2.2.1, (hnew l hlast).2.2.2, h.fresh _ le_rfl⟩
  · intro p l hl hpc hrc
    rcases hasLoad_append_cases hl with hold | ⟨-, hlast⟩
    · exact h.ready p l hold hpc hrc
    · rw [(hnew l hlast).2.1] at hpc
      cases hpc
  · intro p hp
    rw [List.length_append] at hp
    exact h.fresh p (by omega)

end Start

section Tick

variable {s : System} {charges : Nat → Nat → Charges} (h : Tracks s charges) {p : Nat} {l : Load}

theorem HasLoad.unique {l' : Load} (hl : s.HasLoad p l) (hl' : s.HasLoad p l') : l' = l :=
  Proc.load.inj (Option.some.inj (Eq.trans (Eq.symm hl') hl))

include h

/-- One load and the slots it is in change; the other programs stay where they are. -/
theorem Tracks.replace (hl : s.HasLoad p l) (l' : Load) (hjob : l'.job = l.job) {iface : Interface}
    {charges' : Nat → Nat → Charges} (hcharges : ∀ q, q ≠ p → charges' q = charges q)
    (hslots : ∀ mode a, iface.slot mode = some a → a.prog ≠ p → s.iface.slot mode = some a)
    (hown : ∀ mode a, iface.slot mode = some a → a.prog = p →
      l'.pc.seeding = false ∧ Live l.job l'.object (charges' p))
    (hseeds : l'.pc.seeding = true → Seeds l.job l'.object.shared l'.pc ∧
      l'.object.rates = Object.created.rates ∧ charges' p = fun _ _ => [])
    (hready : l'.pc.seeding = false → (∀ rc, l'.pc ≠ .done rc) →
      Live l.job l'.object (charges' p)) :
    Tracks ⟨iface, s.procs.set p (.load l')⟩ charges' := by
  have hp := (List.getElem?_eq_some_iff.mp hl).1
  refine ⟨fun q m hm => ?_, fun mode a ha => ?_, fun q m hm hpc => ?_, fun q m hm hpc hrc => ?_,
    fun q hq => ?_⟩
  · by_cases hq : q = p
    · subst hq
      rw [(hasLoad_set_self hp).mp hm, hjob]
      exact h.good q l hl
    · exact h.good q m ((hasLoad_set_of_ne _ hq).mp hm)
  · by_cases hprog : a.prog = p
    · obtain ⟨hpc, hlive⟩ := hown mode a ha hprog
      rw [hprog]
      exact ⟨l', (hasLoad_set_self hp).mpr rfl, hpc, hjob ▸ hlive⟩
    · obtain ⟨m, hm, hpc, hlive⟩ := h.slots mode a (hslots mode a ha hprog)
      rw [hcharges _ hprog]
      exact ⟨m, (hasLoad_set_of_ne _ hprog).mpr hm, hpc, hlive⟩
  · by_cases hq : q = p
    · subst hq
      obtain rfl := (hasLoad_set_self hp).mp hm
      rw [hjob]
      exact hseeds hpc
    · rw [hcharges q hq]
      exact h.seeds q m ((hasLoad_set_of_ne _ hq).mp hm) hpc
  · by_cases hq : q = p
    · subst hq
      obtain rfl := (hasLoad_set_self hp).mp hm
      rw [hjob]
      exact hready hpc hrc
    · rw [hcharges q hq]
      exact h.ready q m ((hasLoad_set_of_ne _ hq).mp hm) hpc hrc
  · rw [List.length_set] at hq
    rw [hcharges q (by omega)]
    exact h.fresh q hq

/-- A load that seeds: it is in no slot, and what it has seeded to the end is in service. -/
theorem Tracks.tick_seeding (hl : s.HasLoad p l) (hpc : l.pc.seeding = true) {pc : LoadPc} {maps : Maps}
    {iface : Interface} (htick : loadTick p l.job l.pc l.object.shared s.iface = (pc, maps, iface)) :
    Tracks ⟨iface, s.procs.set p (.load ⟨l.job, pc, { l.object with shared := maps }⟩)⟩ charges := by
  obtain ⟨hseeds, hrates, hnone⟩ := h.seeds p l hl hpc
  have hnext : iface = s.iface ∧ (pc = .done (-1) ∨ Seeds l.job maps pc) := by
    rcases loadTick_seeding (p := p) s.iface hpc hseeds with hstop | ⟨pc', maps', hstep, hseeds'⟩
    · rw [hstop] at htick
      cases htick
      exact ⟨rfl, .inl rfl⟩
    · rw [hstep] at htick
      cases htick
      exact ⟨rfl, .inr hseeds'⟩
  obtain ⟨rfl, hnext⟩ := hnext
  refine h.replace hl ⟨l.job, pc, _⟩ rfl (fun _ _ => rfl) (fun _ _ ha _ => ha) (fun mode a ha hprog => ?_)
    (fun hseeding => ?_) (fun hseeded hrc => ?_)
  · obtain ⟨m, hm, hseeded, -⟩ := h.slots mode a ha
    rw [hprog] at hm
    rw [HasLoad.unique hl hm, hpc] at hseeded
    cases hseeded
  · rcases hnext with rfl | hnext
    · cases hseeding
    · exact ⟨hnext, hrates, hnone⟩
  · rw [hnone]
    refine live_of_seeded ?_ hrates
    rcases hnext with rfl | hnext
    · exact absurd rfl (hrc (-1))
    · cases pc with
      | setup => cases hseeded
      | blacklist i => cases hseeded
      | bloom i => cases hseeded
      | progs i => cases hseeded
      | _ => exact hnext

/-- A load that attaches: its program is in service wherever it is put. -/
theorem Tracks.tick_attaching (hl : s.HasLoad p l) (hpc : l.pc.seeding = false) {pc : LoadPc}
    {maps : Maps} {iface : Interface}
    (htick : loadTick p l.job l.pc l.object.shared s.iface = (pc, maps, iface)) :
    Tracks ⟨iface, s.procs.set p (.load ⟨l.job, pc, { l.object with shared := maps }⟩)⟩ charges := by
  obtain ⟨rfl, hseeded, hdone, hslots⟩ := loadTick_attaching hpc htick
  refine h.replace hl ⟨l.job, pc, _⟩ rfl (fun _ _ => rfl) (fun mode a ha hprog => ?_)
    (fun mode a ha hprog => ?_) (fun hseeding => ?_) (fun _ hrc => ?_)
  · exact (hslots mode a ha).resolve_right hprog
  · refine ⟨hseeded, ?_⟩
    by_cases hrc : ∃ rc, l.pc = .done rc
    · obtain ⟨rfl, -⟩ := hdone hrc
      obtain ⟨m, hm, -, hlive⟩ := h.slots mode a ha
      rw [hprog] at hm hlive
      rw [HasLoad.unique hl hm] at hlive
      exact hlive
    · exact h.ready p l hl hpc fun rc hpc' => hrc ⟨rc, hpc'⟩
  · rw [hseeded] at hseeding
    cases hseeding
  · refine h.ready p l hl hpc fun rc hpc' => ?_
    obtain ⟨-, hsame⟩ := hdone ⟨rc, hpc'⟩
    exact hrc rc (hsame.trans hpc')

/-- Any process makes its next call. -/
theorem Tracks.tick (p : Nat) : Tracks (s.tick p) charges := by
  unfold System.tick
  cases hproc : s.procs[p]? with
  | none => exact h
  | some proc =>
    cases proc with
    | load l =>
      dsimp only
      cases hpc : l.pc.seeding with
      | true => exact h.tick_seeding hproc hpc rfl
      | false => exact h.tick_attaching hproc hpc rfl
    | unload job pc =>
      dsimp only
      have hloads : ∀ q m, System.HasLoad
          ⟨(unloadTick job pc s.iface).2, s.procs.set p (.unload job (unloadTick job pc s.iface).1)⟩ q m ↔
            s.HasLoad q m := fun _ _ => hasLoad_set_unload hproc
      refine ⟨fun q m hm => h.good q m ((hloads q m).mp hm), fun mode a ha => ?_,
        fun q m hm => h.seeds q m ((hloads q m).mp hm), fun q m hm => h.ready q m ((hloads q m).mp hm),
        fun q hq => ?_⟩
      · obtain ⟨m, hm, hrest⟩ := h.slots mode a (unloadTick_slots rfl mode a ha)
        exact ⟨m, (hloads _ m).mpr hm, hrest⟩
      · rw [List.length_set] at hq
        exact h.fresh q hq

/-- A frame that finds a program in its slot is answered by the document of that program. -/
theorem Tracks.serve {mode : XdpMode} {a : Attached} (ha : s.iface.slot mode = some a) {cpu : Nat}
    {frame : Frame} (hnow : NotBefore (charges a.prog cpu) frame) :
    ∃ l maps, s.HasLoad a.prog l ∧
      s.serve mode cpu frame =
        .ok (some ⟨a.prog, cpu, frame, (l.job.policy (charges a.prog cpu) frame).1⟩,
          { s with procs := s.procs.set a.prog (.load { l with object := l.object.store cpu maps }) }) ∧
      Tracks { s with procs := s.procs.set a.prog (.load { l with object := l.object.store cpu maps }) }
        (Function.update charges a.prog (Function.update (charges a.prog) cpu
          (l.job.policy (charges a.prog cpu) frame).2)) := by
  obtain ⟨l, hl, hpc, hlive⟩ := h.slots mode a ha
  obtain ⟨maps, hstep, hlive'⟩ := hlive.serve (h.good _ l hl) cpu hnow
  refine ⟨l, maps, hl, ?_, ?_⟩
  · have hproc : s.procs[a.prog]? = some (.load l) := hl
    unfold System.serve
    rw [ha]
    dsimp only
    rw [hproc]
    dsimp only
    rw [hstep, ok_bind]
  · refine h.replace hl { l with object := l.object.store cpu maps } rfl
      (fun q hq => Function.update_of_ne hq ..) (fun _ _ ha _ => ha) (fun _ _ _ _ => ?_)
      (fun hseeding => ?_) (fun _ _ => ?_)
    · rw [Function.update_self]
      exact ⟨hpc, hlive'⟩
    · rw [hpc] at hseeding
      cases hseeding
    · rw [Function.update_self]
      exact hlive'

end Tick

/-! ## Runs -/

/-- The loads of `s` are there in `s'`. -/
def JobsKept (s s' : System) : Prop :=
  ∀ p l, s.HasLoad p l → ∃ l', s'.HasLoad p l' ∧ l'.job = l.job

theorem JobsKept.trans {s s' s'' : System} (h : JobsKept s s') (h' : JobsKept s' s'') :
    JobsKept s s'' := by
  intro p l hl
  obtain ⟨l', hl', hjob⟩ := h p l hl
  obtain ⟨l'', hl'', hjob'⟩ := h' p l' hl'
  exact ⟨l'', hl'', hjob'.trans hjob⟩

theorem jobsKept_append (s : System) (new : Proc) :
    JobsKept s { s with procs := s.procs ++ [new] } :=
  fun _ l hl => ⟨l, hasLoad_append new hl, rfl⟩

theorem jobsKept_set {s : System} {p : Nat} {l : Load} (hl : s.HasLoad p l) (l' : Load)
    (hjob : l'.job = l.job) (iface : Interface) : JobsKept s ⟨iface, s.procs.set p (.load l')⟩ := by
  have hp := (List.getElem?_eq_some_iff.mp hl).1
  intro q m hm
  by_cases hq : q = p
  · subst hq
    rw [HasLoad.unique hl hm]
    exact ⟨l', (hasLoad_set_self hp).mpr rfl, hjob⟩
  · exact ⟨m, (hasLoad_set_of_ne _ hq).mpr hm, rfl⟩

theorem jobsKept_tick (s : System) (p : Nat) : JobsKept s (s.tick p) := by
  unfold System.tick
  cases hproc : s.procs[p]? with
  | none => exact fun _ l hl => ⟨l, hl, rfl⟩
  | some proc =>
    cases proc with
    | load l => exact jobsKept_set hproc ⟨l.job, _, _⟩ (by rfl) _
    | unload job pc =>
      intro q m hm
      have hq : q ≠ p := by
        rintro rfl
        cases Option.some.inj (Eq.trans (Eq.symm hproc) hm)
      exact ⟨m, (hasLoad_set_of_ne _ hq).mpr hm, rfl⟩

/-- What an event does to the charges. -/
inductive Charged (s' : System) (charges : Nat → Nat → Charges) (e : Event) :
    Option Answer → (Nat → Nat → Charges) → Prop where
  | silent : Charged s' charges e none charges
  | answer {mode : XdpMode} {cpu p : Nat} {frame : Frame} {l : Load} (he : e = .frame mode cpu frame)
      (hl : s'.HasLoad p l) : Charged s' charges e
        (some ⟨p, cpu, frame, (l.job.policy (charges p cpu) frame).1⟩)
        (Function.update charges p
          (Function.update (charges p) cpu (l.job.policy (charges p cpu) frame).2))

theorem tracks_step {s : System} {charges : Nat → Nat → Charges} (h : Tracks s charges) (e : Event)
    (hgood : ∀ job, e = .load job → job.Good)
    (hnow : ∀ mode cpu frame, e = .frame mode cpu frame → ∀ p, NotBefore (charges p cpu) frame) :
    ∃ o s' charges', systemStep s e = .ok (o, s') ∧ Tracks s' charges' ∧ JobsKept s s' ∧
      Charged s' charges e o charges' := by
  cases e with
  | load job =>
    refine ⟨none, _, charges, rfl, h.start ?_, jobsKept_append s _, .silent⟩
    rintro l ⟨⟩
    exact ⟨hgood job rfl, rfl, rfl, rfl⟩
  | unload job =>
    refine ⟨none, _, charges, rfl, h.start ?_, jobsKept_append s _, .silent⟩
    rintro l ⟨⟩
  | tick p => exact ⟨none, _, charges, rfl, h.tick p, jobsKept_tick s p, .silent⟩
  | frame mode cpu frame =>
    cases hslot : s.iface.slot mode with
    | none =>
      refine ⟨none, s, charges, ?_, h, fun _ l hl => ⟨l, hl, rfl⟩, .silent⟩
      show s.serve mode cpu frame = .ok (none, s)
      unfold System.serve
      rw [hslot]
    | some a =>
      obtain ⟨l, maps, hl, hserve, htracks⟩ := h.serve hslot (hnow mode cpu frame rfl a.prog)
      have hp := (List.getElem?_eq_some_iff.mp hl).1
      exact ⟨_, _, _, hserve, htracks, jobsKept_set hl ⟨l.job, _, _⟩ (by rfl) _,
        .answer (l := { l with object := l.object.store cpu maps }) rfl
          ((hasLoad_set_self hp).mpr rfl)⟩

/-- The answers of program `p` on a CPU, with the frames they are for. -/
def answersOf (p cpu : Nat) (outs : List (Event × Option Answer)) : List (Frame × Verdict) :=
  outs.filterMap fun eo => eo.2.bind fun ans =>
    if ans.prog = p ∧ ans.cpu = cpu then some (ans.frame, ans.verdict) else none

/-- The second in which a frame comes to the limiter, if the event is a frame on this CPU. -/
def Event.secondOn (cpu : Nat) : Event → Option UInt64
  | .frame _ c f => if c = cpu then some (nowSec f.clock.rateNs) else none
  | _ => none

/-- No frame that is still to come on a CPU is before one that was charged there. -/
def Ahead (events : List Event) (charges : Nat → Nat → Charges) : Prop :=
  ∀ mode cpu frame, .frame mode cpu frame ∈ events → ∀ p, NotBefore (charges p cpu) frame

theorem ahead_of_uncharged (events : List Event) : Ahead events fun _ _ _ => [] := by
  intro _ _ _ _ _ _
  exact UInt64.le_iff_toNat_le.mpr (Nat.zero_le _)

theorem Charged.ahead {s' : System} {charges charges' : Nat → Nat → Charges} {e : Event}
    {o : Option Answer} (h : Charged s' charges e o charges') {events : List Event}
    (hahead : Ahead (e :: events) charges)
    (hclock : ∀ cpu, ((e :: events).filterMap (Event.secondOn cpu)).Pairwise (· ≤ ·)) :
    Ahead events charges' := by
  have hold : Ahead events charges := fun mode cpu frame hmem => hahead mode cpu frame (.tail _ hmem)
  cases h with
  | silent => exact hold
  | @answer mode cpu p frame l he hl =>
    subst he
    intro mode' cpu' frame' hmem q i
    by_cases hq : q = p
    · subst hq
      rw [Function.update_self]
      by_cases hcpu : cpu' = cpu
      · subst hcpu
        have hlater : nowSec frame.clock.rateNs ≤ nowSec frame'.clock.rateNs := by
          have hpairs := hclock cpu'
          rw [List.filterMap_cons_some (by rw [Event.secondOn, if_pos rfl]), List.pairwise_cons] at hpairs
          exact hpairs.1 _ (List.mem_filterMap.mpr ⟨_, hmem, by rw [Event.secondOn, if_pos rfl]⟩)
        rw [Function.update_self]
        rcases head_policyStep (charges q cpu') frame i with hhead | hhead
        · exact hhead ▸ hold mode' cpu' frame' hmem q i
        · exact hhead ▸ hlater
      · rw [Function.update_of_ne hcpu]
        exact hold mode' cpu' frame' hmem q i
    · rw [Function.update_of_ne hq]
      exact hold mode' cpu' frame' hmem q i

/-- A run from a state with the invariant: every program answers by its document from its charges on. -/
theorem tracks_run (events : List Event) (s : System) (charges : Nat → Nat → Charges)
    (h : Tracks s charges) (hgood : ∀ job, .load job ∈ events → job.Good)
    (hahead : Ahead events charges)
    (hclock : ∀ cpu, (events.filterMap (Event.secondOn cpu)).Pairwise (· ≤ ·)) :
    ∃ outs s' charges', runOutputs systemStep events s = .ok (outs, s') ∧ Tracks s' charges' ∧
      JobsKept s s' ∧
      (∀ eo ∈ outs, ∀ ans, eo.2 = some ans → ∃ l, s'.HasLoad ans.prog l) ∧
      ∀ p l, s'.HasLoad p l → ∀ cpu, (answersOf p cpu outs).map Prod.snd =
        (answers l.job.policy ((answersOf p cpu outs).map Prod.fst) (charges p cpu)).1 := by
  induction events generalizing s charges with
  | nil => exact ⟨[], s, charges, rfl, h, fun _ l hl => ⟨l, hl, rfl⟩, by simp, fun _ _ _ _ => rfl⟩
  | cons e events ih =>
    obtain ⟨o, s1, charges1, hstep, htracks, hkept, hcharged⟩ := tracks_step h e
      (fun job he => hgood job (he ▸ .head _))
      (fun mode cpu frame he => hahead mode cpu frame (he ▸ .head _))
    have hclock' : ∀ cpu, (events.filterMap (Event.secondOn cpu)).Pairwise (· ≤ ·) := fun cpu =>
      (hclock cpu).sublist ((List.sublist_cons_self e events).filterMap _)
    obtain ⟨outs, s', charges', hrun, htracks', hkept', hanswered, hpolicy⟩ := ih s1 charges1 htracks
      (fun job hmem => hgood job (.tail _ hmem)) (hcharged.ahead hahead hclock) hclock'
    refine ⟨(e, o) :: outs, s', charges', ?_, htracks', hkept.trans hkept', ?_, ?_⟩
    · rw [runOutputs, hstep, ok_bind]
      dsimp only
      rw [hrun, ok_bind]
    · intro eo heo ans hans
      rcases List.mem_cons.mp heo with rfl | hmem
      · dsimp only at hans
        subst hans
        cases hcharged with
        | answer he hl =>
          obtain ⟨l', hl', -⟩ := hkept' _ _ hl
          exact ⟨l', hl'⟩
      · exact hanswered eo hmem ans hans
    · intro p l hl cpu
      have hrest := hpolicy p l hl cpu
      cases hcharged with
      | silent => exact hrest
      | @answer mode cpu' q frame m he hm =>
        by_cases hmine : q = p ∧ cpu' = cpu
        · obtain ⟨rfl, rfl⟩ := hmine
          obtain ⟨l', hl', hjob⟩ := hkept' _ _ hm
          rw [HasLoad.unique hl hl'] at hjob
          have hcons : answersOf q cpu' ((e, some ⟨q, cpu', frame,
              (m.job.policy (charges q cpu') frame).1⟩) :: outs) =
                (frame, (m.job.policy (charges q cpu') frame).1) :: answersOf q cpu' outs :=
            List.filterMap_cons_some (by rw [Option.bind_some, if_pos ⟨rfl, rfl⟩])
          rw [Function.update_self, Function.update_self] at hrest
          rw [hcons, List.map_cons, List.map_cons, answers_cons, hrest, hjob]
        · have hskip : answersOf p cpu ((e, some ⟨q, cpu', frame,
              (m.job.policy (charges q cpu') frame).1⟩) :: outs) = answersOf p cpu outs :=
            List.filterMap_cons_none (by rw [Option.bind_some, if_neg hmine])
          have hcharges : Function.update charges q (Function.update (charges q) cpu'
              (m.job.policy (charges q cpu') frame).2) p cpu = charges p cpu := by
            by_cases hq : p = q
            · subst hq
              rw [Function.update_self, Function.update_of_ne fun hcpu => hmine ⟨rfl, hcpu.symm⟩]
            · rw [Function.update_of_ne hq]
          rw [hcharges] at hrest
          rw [hskip, hrest]

/-- **Every program answers by its own document.** Loads and unloads, any number at once, and frames on
    any CPUs in any order: when every object was generated from the configuration that it is loaded with,
    without placeholders in it, and the clock of no CPU goes back, the run ends without a fault, every
    answer is of a program that was loaded, and the answers of each program on each CPU are those that
    the policy of its document gives to the frames it met there. -/
theorem hot_swap_policy (events : List Event) (hgood : ∀ job, .load job ∈ events → job.Good)
    (hclock : ∀ cpu, (events.filterMap (Event.secondOn cpu)).Pairwise (· ≤ ·)) :
    ∃ outs s', runOutputs systemStep events System.initial = .ok (outs, s') ∧
      (∀ eo ∈ outs, ∀ ans, eo.2 = some ans → ∃ l, s'.HasLoad ans.prog l) ∧
      ∀ p l, s'.HasLoad p l → ∀ cpu, (answersOf p cpu outs).map Prod.snd =
        policyRun l.job.doc l.job.cfg l.job.env.now l.job.env.obj noSockets
          ((answersOf p cpu outs).map Prod.fst) := by
  obtain ⟨outs, s', -, hrun, -, -, hanswered, hpolicy⟩ := tracks_run events System.initial _ tracks_initial
    hgood (ahead_of_uncharged events) hclock
  exact ⟨outs, s', hrun, hanswered, hpolicy⟩

/-- A load of the limited route in native mode, with a kernel that takes every call. -/
def sampleJob : LoadJob where
  doc := limitedDocument
  cfg := limitedConfig
  parsed := parse_limitedDocument
  built := limitedConfig
  ifnameOverride := none
  env :=
    { ifindex := 1
      memlock := true
      opened := true
      loaded := true
      now := 0
      obj := routerObject 0
      blacklistUpdated := fun _ => true
      bloomUpdated := fun _ => true
      progUpdated := fun _ => true
      ensureDir := true
      replies := linkReplies fun _ => true }

theorem sampleJob_good : sampleJob.Good :=
  ⟨rfl, List.nodup_singleton _, placeholderFree_limitedConfig⟩

/-- A load runs to its end and a query comes; then another load starts and the query comes again. -/
def sampleEvents : List Event :=
  .load sampleJob :: List.replicate 1040 (.tick 0) ++
    [.frame .native 0 ⟨⟨0, 0, 0⟩, questionFrame [1, 97]⟩, .load sampleJob, .tick 1,
      .frame .native 0 ⟨⟨0, 0, 0⟩, questionFrame [1, 97]⟩]

theorem seconds_sampleEvents (cpu : Nat) :
    (sampleEvents.filterMap (Event.secondOn cpu)).Pairwise (· ≤ ·) := by
  have hticks : (List.replicate 1040 (Event.tick 0)).filterMap (Event.secondOn cpu) = [] := by
    rw [List.filterMap_replicate_of_none rfl]
  unfold sampleEvents
  rw [List.filterMap_append, List.filterMap_cons_none rfl, hticks, List.nil_append]
  by_cases hcpu : 0 = cpu
  · simp [Event.secondOn, List.filterMap_cons, hcpu]
  · simp [Event.secondOn, List.filterMap_cons, hcpu]

theorem hot_swap_policy_sample :
    ∃ outs s', runOutputs systemStep sampleEvents System.initial = .ok (outs, s') ∧
      ∀ p l, s'.HasLoad p l → ∀ cpu, (answersOf p cpu outs).map Prod.snd =
        policyRun l.job.doc l.job.cfg l.job.env.now l.job.env.obj noSockets
          ((answersOf p cpu outs).map Prod.fst) := by
  have hgood : ∀ job, .load job ∈ sampleEvents → job.Good := by
    intro job hjob
    rcases List.mem_append.mp hjob with hfirst | hlast
    · rcases List.mem_cons.mp hfirst with hload | htick
      · cases hload
        exact sampleJob_good
      · cases List.eq_of_mem_replicate htick
    · have hload : job = sampleJob := by simpa using hlast
      rw [hload]
      exact sampleJob_good
  obtain ⟨outs, s', hrun, -, hpolicy⟩ := hot_swap_policy sampleEvents hgood seconds_sampleEvents
  exact ⟨outs, s', hrun, hpolicy⟩

end Zereh.Link
