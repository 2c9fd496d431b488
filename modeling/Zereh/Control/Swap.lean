/-
  What a load and an unload leave on the interface.

  * A load that fails leaves the interface as it was, in every mode and whatever the kernel
    refuses (`failed_load_unchanged`).
  * `Interface.Held` is what whole histories keep: the pinned link owns a slot, no other slot has
    a link, and native and skb are not both taken.
  * A load only replaces the program of the slots it shares with its effective mode. Along a
    history each load that returns 0 leaves just its program and each unload that returns 0 leaves
    nothing if and only if no load is taken on one side of native and skb against offload while
    the other side has a program, and no unload takes a refused detach for an empty slot
    (`swap_runs`).
-/
import Zereh.Control.Attach
import Zereh.Control.Accepted

namespace Zereh.Control

open Lib

/-! ## Calls that succeed -/

section Calls

variable {iface iface' : Interface} {prog : Nat} {mode slot : XdpMode} {accepted : Bool}

theorem bpfObjGet_ok {reply : Option Errno} (h : bpfObjGet iface reply = .ok slot) :
    reply = none ∧ iface.pin = some slot := by
  unfold bpfObjGet at h
  split at h
  · cases h
  · cases h
  · next hpin =>
    cases h
    exact ⟨rfl, hpin⟩

/-- Nothing is pinned, as far as the caller can see. -/
theorem bpfObjGet_enoent {reply : Option Errno} (h : bpfObjGet iface reply = .error .enoent) :
    reply = none ∨ reply = some .enoent := by
  unfold bpfObjGet at h
  split at h
  · cases h
    exact .inr rfl
  · exact .inl rfl
  · cases h

theorem bpfLinkUpdate_some (h : bpfLinkUpdate iface slot prog accepted = some iface') :
    accepted = true ∧ iface' = iface.set slot (some ⟨prog, true⟩) := by
  unfold bpfLinkUpdate at h
  split_ifs at h with htaken
  cases h
  exact ⟨htaken.1, rfl⟩

theorem bpfProgramAttachXdp_some (h : bpfProgramAttachXdp iface prog mode accepted = some iface') :
    accepted = true ∧ iface.slot mode = none ∧ iface' = iface.set mode (some ⟨prog, true⟩) := by
  unfold bpfProgramAttachXdp at h
  split_ifs at h with htaken
  cases h
  exact ⟨htaken.1, htaken.2, rfl⟩

theorem bpfLinkPin_some (h : bpfLinkPin iface mode accepted = some iface') :
    accepted = true ∧ iface.pin = none ∧ iface' = { iface with pin := some mode } := by
  unfold bpfLinkPin at h
  split_ifs at h with htaken
  cases h
  exact ⟨htaken.1, htaken.2, rfl⟩

end Calls

/-! ## Attempts -/

/-- Netlink replaces whatever the slot holds: the program that was queried is the one there. -/
theorem attachXdpReplace_eq (iface : Interface) (prog : Nat) (mode : XdpMode) (r : Replies) :
    attachXdpReplace iface prog mode r =
      if r.attach mode then (0, iface.set mode (some ⟨prog, false⟩)) else (-1, iface) := by
  have hold : queryOld iface mode (r.queried mode) = none ∨
      (iface.slot mode).map (·.prog) = queryOld iface mode (r.queried mode) := by
    unfold queryOld
    cases r.queried mode
    · exact .inl rfl
    · exact .inr rfl
  unfold attachXdpReplace bpfXdpAttach
  cases hattach : r.attach mode
  · rfl
  · rw [if_pos ⟨rfl, hold⟩]
    rfl

/-- Taking back a link that was put in an empty slot. -/
theorem destroy_attached {iface attached : Interface} {prog : Nat} {mode : XdpMode}
    {accepted : Bool} (h : bpfProgramAttachXdp iface prog mode accepted = some attached) :
    bpfLinkDestroy attached mode = iface := by
  obtain ⟨-, hempty, rfl⟩ := bpfProgramAttachXdp_some h
  unfold bpfLinkDestroy Interface.set
  rw [Function.update_idem, ← hempty, Function.update_eq_self]

/-- What a successful attempt has done: netlink in skb or offload, an update of the pinned link, or
    a new link in an empty slot. -/
inductive Taken (iface : Interface) (prog : Nat) (r : Replies) : XdpMode → Interface → Prop where
  | netlink {mode : XdpMode} (hmode : mode ≠ .native) (hattach : r.attach mode = true) :
      Taken iface prog r mode (iface.set mode (some ⟨prog, false⟩))
  | update {slot : XdpMode} (hpin : iface.pin = some slot) (hget : r.objGet = none)
      (hupdate : r.linkUpdate = true) :
      Taken iface prog r .native (iface.set slot (some ⟨prog, true⟩))
  | link (hpin : iface.pin = none) (hget : r.objGet = none ∨ r.objGet = some .enoent)
      (hattach : r.linkAttach = true) (hempty : iface.slot r.linkMode = none)
      (hpinned : r.linkPin = true) :
      Taken iface prog r .native
        { iface.set r.linkMode (some ⟨prog, true⟩) with pin := some r.linkMode }

/-- An attempt that fails leaves the interface as it was to the next one. -/
theorem attempt_cases (iface : Interface) (prog : Nat) (mode : XdpMode) (r : Replies) :
    (∃ iface', attachOrUpdateLink iface prog mode r = (0, iface') ∧
      Taken iface prog r mode iface') ∨
    attachOrUpdateLink iface prog mode r = (-1, iface) := by
  unfold attachOrUpdateLink
  by_cases hmode : mode ≠ .native
  · rw [if_pos hmode, attachXdpReplace_eq]
    by_cases hattach : r.attach mode = true
    · exact .inl ⟨_, if_pos hattach, .netlink hmode hattach⟩
    · exact .inr (if_neg hattach)
  · rw [if_neg hmode]
    obtain rfl : mode = .native := not_not.mp hmode
    cases hget : bpfObjGet iface r.objGet with
    | ok slot =>
      dsimp only
      cases hupdate : bpfLinkUpdate iface slot prog r.linkUpdate with
      | none => exact .inr rfl
      | some updated =>
        obtain ⟨haccepted, rfl⟩ := bpfLinkUpdate_some hupdate
        obtain ⟨hreply, hpin⟩ := bpfObjGet_ok hget
        exact .inl ⟨_, rfl, .update hpin hreply haccepted⟩
    | error errno =>
      dsimp only
      by_cases herrno : errno ≠ .enoent
      · exact .inr (if_pos herrno)
      · rw [if_neg herrno]
        cases hattach : bpfProgramAttachXdp iface prog r.linkMode r.linkAttach with
        | none => exact .inr rfl
        | some attached =>
          dsimp only
          cases hpin : bpfLinkPin attached r.linkMode r.linkPin with
          | none => exact .inr (congrArg (Prod.mk (-1)) (destroy_attached hattach))
          | some pinned =>
            obtain ⟨haccepted, hempty, rfl⟩ := bpfProgramAttachXdp_some hattach
            obtain ⟨hpinned, hnone, rfl⟩ := bpfLinkPin_some hpin
            rw [not_not.mp herrno] at hget
            exact .inl ⟨_, rfl, .link hnone (bpfObjGet_enoent hget) haccepted hempty hpinned⟩

/-! ## A load that fails -/

/-- The attempts that a requested mode stands for, in their order. -/
def attempts : XdpMode → List XdpMode
  | .offload => [.offload, .native, .skb]
  | .native => [.native, .skb]
  | .skb => [.skb]

/-- The fallback chain ends with an attempt that succeeds on the interface as it was, the first
    one unless that one failed, or every attempt fails and leaves it as it was. -/
theorem attachWithFallback_cases (iface : Interface) (prog : Nat) (mode : XdpMode) (r : Replies) :
    (∃ effective ∈ attempts mode, ∃ iface', Taken iface prog r effective iface' ∧
      (effective ≠ mode → attachOrUpdateLink iface prog mode r = (-1, iface)) ∧
      attachWithFallback iface prog mode r = (some effective, iface')) ∨
    (∀ effective ∈ attempts mode, attachOrUpdateLink iface prog effective r = (-1, iface)) ∧
      attachWithFallback iface prog mode r = (none, iface) := by
  have hneg : ¬ (-1 : Int) = 0 := by decide
  unfold attachWithFallback
  rcases attempt_cases iface prog mode r with ⟨iface', hok, htaken⟩ | hfail
  · refine .inl ⟨mode, ?_, iface', htaken, fun hne => absurd rfl hne, ?_⟩
    · cases mode <;> decide
    · rw [hok]
      rfl
  · rw [hfail]
    dsimp only
    rw [if_neg hneg]
    have hskb := attempt_cases iface prog .skb r
    cases mode with
    | skb => exact .inr ⟨List.forall_mem_singleton.mpr hfail, rfl⟩
    | native =>
      dsimp only
      rcases hskb with ⟨iface', hok, htaken⟩ | hfail'
      · exact .inl ⟨.skb, by decide, iface', htaken, fun _ => rfl, by rw [hok]; rfl⟩
      · refine .inr ⟨List.forall_mem_cons.mpr ⟨hfail, List.forall_mem_singleton.mpr hfail'⟩, ?_⟩
        rw [hfail']
        exact if_neg hneg
    | offload =>
      dsimp only
      rcases attempt_cases iface prog .native r with ⟨iface', hok, htaken⟩ | hfail'
      · exact .inl ⟨.native, by decide, iface', htaken, fun _ => rfl, by rw [hok]; rfl⟩
      · rw [hfail']
        dsimp only
        rw [if_neg hneg]
        rcases hskb with ⟨iface', hok, htaken⟩ | hfail''
        · exact .inl ⟨.skb, by decide, iface', htaken, fun _ => rfl, by rw [hok]; rfl⟩
        · refine .inr ⟨List.forall_mem_cons.mpr ⟨hfail, List.forall_mem_cons.mpr
            ⟨hfail', List.forall_mem_singleton.mpr hfail''⟩⟩, ?_⟩
          rw [hfail'']
          exact if_neg hneg

/-- Everything before the attach goes well. -/
structure LoadEnv.Reaches (env : LoadEnv) (cfg : Config) (ifnameOverride : Option CStr) :
    Prop where
  ifindex : env.ifindex ≠ 0
  memlock : env.memlock = true
  opened : env.opened = true
  loaded : env.loaded = true
  blacklist : blacklistSeeded cfg env.blacklistMap = true
  bloom : env.bloomMap ≠ some false
  progs : progArraySeeded cfg env.obj env.progArrayMap = true
  program : env.obj.findProgramByName cfg.xdpSection.bytes ≠ none
  ensureDir : env.ensureDir = true
  path : buildPinPath (chosenInterface cfg ifnameOverride) ≠ none

/-- A load that gets as far as the attach ends as its fallback chain does. -/
theorem loadAndSwapXdp_reaches {cfg : Config} {ifnameOverride : Option CStr} {env : LoadEnv}
    (h : env.Reaches cfg ifnameOverride) (iface : Interface) :
    ∃ prog, env.obj.findProgramByName cfg.xdpSection.bytes = some prog ∧
      loadAndSwapXdp cfg ifnameOverride env iface =
        match attachWithFallback iface prog cfg.xdpMode env.replies with
        | (some _, iface) => (0, iface)
        | (none, iface) => (-1, iface) := by
  obtain ⟨prog, hprog⟩ := Option.ne_none_iff_exists'.mp h.program
  obtain ⟨path, hpath⟩ := Option.ne_none_iff_exists'.mp h.path
  refine ⟨prog, hprog, ?_⟩
  unfold loadAndSwapXdp
  rw [if_neg h.ifindex, h.memlock, h.opened, h.loaded, h.blacklist, if_neg h.bloom, h.progs,
    hprog, h.ensureDir, hpath]
  rfl

/-- A load that does not stops without touching the interface. -/
theorem loadAndSwapXdp_stops {cfg : Config} {ifnameOverride : Option CStr} {env : LoadEnv}
    (h : ¬ env.Reaches cfg ifnameOverride) (iface : Interface) :
    loadAndSwapXdp cfg ifnameOverride env iface = (-1, iface) := by
  unfold loadAndSwapXdp
  by_cases hindex : env.ifindex = 0
  · exact if_pos hindex
  rw [if_neg hindex]
  by_cases hmemlock : (!env.memlock) = true
  · exact if_pos hmemlock
  rw [if_neg hmemlock]
  by_cases hopened : (!env.opened) = true
  · exact if_pos hopened
  rw [if_neg hopened]
  by_cases hloaded : (!env.loaded) = true
  · exact if_pos hloaded
  rw [if_neg hloaded]
  by_cases hblacklist : (!blacklistSeeded cfg env.blacklistMap) = true
  · exact if_pos hblacklist
  rw [if_neg hblacklist]
  by_cases hbloom : env.bloomMap = some false
  · exact if_pos hbloom
  rw [if_neg hbloom]
  by_cases hprogs : (!progArraySeeded cfg env.obj env.progArrayMap) = true
  · exact if_pos hprogs
  rw [if_neg hprogs]
  cases hprog : env.obj.findProgramByName cfg.xdpSection.bytes with
  | none => rfl
  | some prog =>
    dsimp only
    by_cases hdir : (!env.ensureDir) = true
    · exact if_pos hdir
    rw [if_neg hdir]
    cases hpath : buildPinPath (chosenInterface cfg ifnameOverride) with
    | none => rfl
    | some path =>
      rw [Bool.not_eq_true', Bool.not_eq_false] at hmemlock hopened hloaded hblacklist hprogs hdir
      exact absurd ⟨hindex, hmemlock, hopened, hloaded, hblacklist, hbloom, hprogs,
        by rw [hprog]; nofun, hdir, by rw [hpath]; nofun⟩ h

/-- A load returns 0 after one successful attempt; it fails before the attach or in every attempt,
    and then leaves everything as it was. -/
theorem loadAndSwapXdp_cases (cfg : Config) (ifnameOverride : Option CStr) (env : LoadEnv)
    (iface : Interface) :
    (∃ prog, env.obj.findProgramByName cfg.xdpSection.bytes = some prog ∧
      ∃ effective ∈ attempts cfg.xdpMode, ∃ iface', Taken iface prog env.replies effective iface' ∧
        (effective ≠ cfg.xdpMode →
          attachOrUpdateLink iface prog cfg.xdpMode env.replies = (-1, iface)) ∧
        loadAndSwapXdp cfg ifnameOverride env iface = (0, iface')) ∨
    (env.Reaches cfg ifnameOverride → ∃ prog, ∀ effective ∈ attempts cfg.xdpMode,
        attachOrUpdateLink iface prog effective env.replies = (-1, iface)) ∧
      loadAndSwapXdp cfg ifnameOverride env iface = (-1, iface) := by
  by_cases hreaches : env.Reaches cfg ifnameOverride
  · obtain ⟨prog, hprog, hrun⟩ := loadAndSwapXdp_reaches hreaches iface
    rw [hrun]
    rcases attachWithFallback_cases iface prog cfg.xdpMode env.replies with
      ⟨effective, hmem, iface', htaken, hfirst, hchain⟩ | ⟨hfail, hchain⟩
    · exact .inl ⟨prog, hprog, effective, hmem, iface', htaken, hfirst, by rw [hchain]⟩
    · exact .inr ⟨fun _ => ⟨prog, hfail⟩, by rw [hchain]⟩
  · exact .inr ⟨fun h => absurd h hreaches, loadAndSwapXdp_stops hreaches iface⟩

/-- **A failed load leaves the running router in place.** Whatever is attached and pinned,
    whatever mode is asked for and whichever calls are refused: when the load returns -1, the
    pinned link and the program of every slot are what they were. -/
theorem failed_load_unchanged (cfg : Config) (ifnameOverride : Option CStr) (env : LoadEnv)
    (iface iface' : Interface)
    (h : loadAndSwapXdp cfg ifnameOverride env iface = (-1, iface')) : iface' = iface := by
  rcases loadAndSwapXdp_cases cfg ifnameOverride env iface with
    ⟨-, -, -, -, iface'', -, -, hok⟩ | ⟨-, hfail⟩
  · have hrc : (0 : Int) = -1 := congrArg Prod.fst (hok.symm.trans h)
    exact absurd hrc (by decide)
  · exact congrArg Prod.snd (h.symm.trans hfail)

/-- An object with one program. -/
def routerObject (prog : Nat) : BpfObject where
  findProgramByName name := if name = ascii "xdp_router" then some prog else none
  programFd := Int.ofNat

/-- A load in which everything up to the attach goes well. -/
def routerLoad (prog : Nat) (r : Replies) : LoadEnv where
  ifindex := 2
  memlock := true
  opened := true
  loaded := true
  blacklistMap := some true
  bloomMap := some true
  progArrayMap := some fun _ => true
  obj := routerObject prog
  ensureDir := true
  replies := r

/-- The sample configuration with a mode. -/
def modeConfig (mode : XdpMode) : Config := { sampleConfig 0 with xdpMode := mode }

theorem load_modeConfig (mode : XdpMode) (prog : Nat) (r : Replies) (iface : Interface) :
    loadAndSwapXdp (modeConfig mode) none (routerLoad prog r) iface =
      match attachWithFallback iface prog mode r with
      | (some _, iface) => (0, iface)
      | (none, iface) => (-1, iface) := by
  have hprog : (routerObject prog).findProgramByName (modeConfig mode).xdpSection.bytes =
      some prog := rfl
  unfold loadAndSwapXdp
  dsimp only [routerLoad]
  rw [hprog]
  rfl

/-- The link is refused its pin, and netlink is refused: the new link is gone again. -/
theorem failed_load_unchanged_sample :
    (loadAndSwapXdp (modeConfig .native) none
      (routerLoad 1 ⟨fun _ => true, fun _ => false, none, true, true, true, false⟩) .empty).1 = -1 ∧
    (loadAndSwapXdp (modeConfig .native) none
      (routerLoad 1 ⟨fun _ => true, fun _ => false, none, true, true, true, false⟩) .empty).2 =
        .empty := by
  have hrc : (loadAndSwapXdp (modeConfig .native) none
      (routerLoad 1 ⟨fun _ => true, fun _ => false, none, true, true, true, false⟩) .empty).1 =
        -1 := by
    rw [load_modeConfig]
    rfl
  exact ⟨hrc, failed_load_unchanged _ _ _ _ _ (Prod.ext hrc rfl)⟩

/-! ## Rules of the kernel -/

/-- The slot that excludes another one: native and skb exclude each other. -/
def rival : XdpMode → Option XdpMode
  | .native => some .skb
  | .skb => some .native
  | .offload => none

/-- What the kernel accepts in a load: no netlink attach where a link is, nothing in native beside
    skb or in skb beside native. -/
structure Replies.Lawful (r : Replies) (iface : Interface) : Prop where
  attach_linked : ∀ mode, r.attach mode = true → iface.linked mode = false
  attach_rival : ∀ mode other, r.attach mode = true → rival mode = some other →
    iface.slot other = none
  link_rival : ∀ other, r.linkAttach = true → rival r.linkMode = some other →
    iface.slot other = none

/-! ## What histories keep -/

/-- The pinned link owns a slot of the driver or of the stack, no other slot has a link, and native
    and skb are not both taken. -/
structure Interface.Held (iface : Interface) : Prop where
  pinned : ∀ mode, iface.pin = some mode → iface.linked mode = true ∧ mode ≠ .offload
  owner : ∀ mode, iface.linked mode = true → iface.pin = some mode
  exclusive : ∀ mode other, rival mode = some other → iface.slot mode ≠ none →
    iface.slot other = none

theorem Interface.held_empty : Interface.empty.Held where
  pinned _ h := nomatch h
  owner _ h := nomatch h
  exclusive _ _ _ h := absurd rfl h

section Slots

variable {iface : Interface} {mode other : XdpMode} {a : Option Attached}

@[simp] theorem set_slot_self : (iface.set mode a).slot mode = a := Function.update_self ..

theorem set_slot_of_ne (h : other ≠ mode) : (iface.set mode a).slot other = iface.slot other :=
  Function.update_of_ne h ..

@[simp] theorem linked_set_self : (iface.set mode a).linked mode = a.any (·.linked) := by
  rw [Interface.linked, set_slot_self]

theorem linked_set_of_ne (h : other ≠ mode) :
    (iface.set mode a).linked other = iface.linked other := by
  rw [Interface.linked, set_slot_of_ne h, Interface.linked]

/-- Without a link before and after, the slot changes nothing for the links. -/
theorem linked_set_of_not (hslot : iface.linked mode = false) (ha : a.any (·.linked) = false) :
    (iface.set mode a).linked other = iface.linked other := by
  by_cases hother : other = mode
  · rw [hother, linked_set_self, ha, hslot]
  · exact linked_set_of_ne hother

theorem slot_ne_none_of_linked (h : iface.linked mode = true) : iface.slot mode ≠ none := by
  intro hnone
  rw [Interface.linked, hnone] at h
  cases h

end Slots

/-- The new program, and nothing in any other slot. -/
def OnlyRuns (prog : Nat) (iface : Interface) : Prop :=
  ∃ mode linked, iface.slot mode = some ⟨prog, linked⟩ ∧
    ∀ other, other ≠ mode → iface.slot other = none

theorem rival_symm {mode other : XdpMode} (h : rival mode = some other) :
    rival other = some mode := by
  cases mode <;> cases h <;> rfl

theorem rival_ne {mode other : XdpMode} (h : rival mode = some other) : other ≠ mode := by
  cases mode <;> cases h <;> decide

theorem rival_of_ne {mode other : XdpMode} (hmode : mode ≠ .offload) (hother : other ≠ .offload)
    (hne : other ≠ mode) : rival mode = some other := by
  cases mode <;> cases other <;> first | rfl | contradiction

/-- A program may be put in a slot whose rival is empty. -/
theorem Interface.Held.exclusive_set {iface : Interface} (hheld : iface.Held) {slot : XdpMode}
    (hrival : ∀ other, rival slot = some other → iface.slot other = none) (a : Option Attached) :
    ∀ mode other, rival mode = some other → (iface.set slot a).slot mode ≠ none →
      (iface.set slot a).slot other = none := by
  intro mode other hpair hmode
  by_cases hslot : mode = slot
  · subst hslot
    rw [set_slot_of_ne (rival_ne hpair)]
    exact hrival other hpair
  · rw [set_slot_of_ne hslot] at hmode
    -- the slot that is filled is not the rival of one that is taken
    have hother : other ≠ slot := by
      rintro rfl
      exact hmode (hrival mode (rival_symm hpair))
    rw [set_slot_of_ne hother]
    exact hheld.exclusive mode other hpair hmode

/-- Emptying a slot that no link owns. -/
theorem Interface.Held.clear {iface : Interface} (hheld : iface.Held) {slot : XdpMode}
    (hslot : iface.linked slot = false) : (iface.set slot none).Held where
  pinned mode hpin := by
    rw [linked_set_of_not hslot rfl]
    exact hheld.pinned mode hpin
  owner mode hlinked := by
    rw [linked_set_of_not hslot rfl] at hlinked
    exact hheld.owner mode hlinked
  exclusive mode other hpair hmode := by
    have hne : mode ≠ slot := by
      rintro rfl
      exact hmode set_slot_self
    rw [set_slot_of_ne hne] at hmode
    by_cases hother : other = slot
    · rw [hother, set_slot_self]
    · rw [set_slot_of_ne hother]
      exact hheld.exclusive mode other hpair hmode

/-- A program in a slot that no link owns. -/
theorem Interface.Held.attach {iface : Interface} (hheld : iface.Held) {slot : XdpMode}
    (hrival : ∀ other, rival slot = some other → iface.slot other = none)
    (hslot : iface.linked slot = false) (prog : Nat) :
    (iface.set slot (some ⟨prog, false⟩)).Held where
  pinned mode hpin := by
    rw [linked_set_of_not hslot rfl]
    exact hheld.pinned mode hpin
  owner mode hlinked := by
    rw [linked_set_of_not hslot rfl] at hlinked
    exact hheld.owner mode hlinked
  exclusive := hheld.exclusive_set hrival _

/-- A new program for the link of the pin. -/
theorem Interface.Held.update {iface : Interface} (hheld : iface.Held) {slot : XdpMode}
    (hrival : ∀ other, rival slot = some other → iface.slot other = none)
    (hpin : iface.pin = some slot) (prog : Nat) :
    (iface.set slot (some ⟨prog, true⟩)).Held where
  pinned mode hmode := by
    obtain rfl : slot = mode := Option.some.inj (hpin.symm.trans hmode)
    rw [linked_set_self]
    exact ⟨rfl, (hheld.pinned slot hpin).2⟩
  owner mode hlinked := by
    by_cases hne : mode = slot
    · rw [hne]
      exact hpin
    · rw [linked_set_of_ne hne] at hlinked
      exact hheld.owner mode hlinked
  exclusive := hheld.exclusive_set hrival _

/-- The first link of an interface. -/
theorem Interface.Held.link {iface : Interface} (hheld : iface.Held) {slot : XdpMode}
    (hrival : ∀ other, rival slot = some other → iface.slot other = none)
    (hpin : iface.pin = none) (hslot : slot ≠ .offload) (prog : Nat) :
    Interface.Held { iface.set slot (some ⟨prog, true⟩) with pin := some slot } where
  pinned mode hmode := by
    cases hmode
    exact ⟨linked_set_self, hslot⟩
  owner mode hlinked := by
    by_cases hne : mode = slot
    · rw [hne]
    · have hold : iface.linked mode = true := (linked_set_of_ne hne).symm.trans hlinked
      have hsome := hheld.owner mode hold
      rw [hpin] at hsome
      cases hsome
  exclusive := hheld.exclusive_set hrival _

/-! ## Loads -/

theorem Replies.linkMode_ne_offload (r : Replies) : r.linkMode ≠ .offload := by
  unfold Replies.linkMode
  split_ifs <;> decide

/-- A successful attempt puts the program in one slot, offload exactly when that is the mode, and
    finds the rival of the slot empty. -/
theorem attempt_lands {iface iface' : Interface} {prog : Nat} {mode : XdpMode} {r : Replies}
    (hheld : iface.Held) (hlaw : r.Lawful iface) (h : Taken iface prog r mode iface') :
    iface'.Held ∧ ∃ slot linked, (slot = .offload ↔ mode = .offload) ∧
      (∀ other, rival slot = some other → iface.slot other = none) ∧
      iface'.slot = Function.update iface.slot slot (some ⟨prog, linked⟩) := by
  cases h with
  | netlink _ hattach =>
    have hrival := fun other => hlaw.attach_rival mode other hattach
    exact ⟨hheld.attach hrival (hlaw.attach_linked mode hattach) prog, mode, false, Iff.rfl,
      hrival, rfl⟩
  | @update slot hpin _ _ =>
    obtain ⟨hlinked, hslot⟩ := hheld.pinned slot hpin
    have hrival := fun other hpair =>
      hheld.exclusive slot other hpair (slot_ne_none_of_linked hlinked)
    exact ⟨hheld.update hrival hpin prog, slot, true, iff_of_false hslot (by decide), hrival, rfl⟩
  | link hpin _ hattach _ _ =>
    have hrival := fun other => hlaw.link_rival other hattach
    exact ⟨hheld.link hrival hpin r.linkMode_ne_offload prog, r.linkMode, true,
      iff_of_false r.linkMode_ne_offload (by decide), hrival, rfl⟩

/-- The kernel takes the attempt in a mode: netlink in offload and skb; in native the update of the
    pinned link, or a new link and its pin. -/
def Replies.Takes (r : Replies) (iface : Interface) : XdpMode → Prop
  | .native =>
    if iface.pin = none then
      (r.objGet = none ∨ r.objGet = some .enoent) ∧ r.linkAttach = true ∧
        iface.slot r.linkMode = none ∧ r.linkPin = true
    else r.objGet = none ∧ r.linkUpdate = true
  | mode => r.attach mode = true

theorem Taken.takes {iface iface' : Interface} {prog : Nat} {mode : XdpMode} {r : Replies}
    (h : Taken iface prog r mode iface') : r.Takes iface mode := by
  cases h with
  | netlink hmode hattach =>
    cases mode with
    | native => exact absurd rfl hmode
    | skb => exact hattach
    | offload => exact hattach
  | update hpin hget hupdate =>
    rw [Replies.Takes, if_neg (by rw [hpin]; nofun)]
    exact ⟨hget, hupdate⟩
  | link hpin hget hattach hempty hpinned =>
    rw [Replies.Takes, if_pos hpin]
    exact ⟨hget, hattach, hempty, hpinned⟩

/-- An attempt that the kernel takes succeeds. -/
theorem attempt_of_takes {iface : Interface} (hheld : iface.Held) {prog : Nat} {mode : XdpMode}
    {r : Replies} (h : r.Takes iface mode) : (attachOrUpdateLink iface prog mode r).1 = 0 := by
  have hnetlink : r.attach mode = true → (attachXdpReplace iface prog mode r).1 = 0 := by
    intro hattach
    rw [attachXdpReplace_eq, if_pos hattach]
  unfold attachOrUpdateLink
  cases mode with
  | offload => exact hnetlink h
  | skb => exact hnetlink h
  | native =>
    rw [if_neg (by decide)]
    cases hpin : iface.pin with
    | some slot =>
      rw [Replies.Takes, if_neg (by rw [hpin]; nofun)] at h
      have hlinked := (hheld.pinned slot hpin).1
      unfold bpfObjGet bpfLinkUpdate
      rw [h.1, hpin]
      dsimp only
      rw [if_pos ⟨h.2, hlinked⟩]
    | none =>
      rw [Replies.Takes, if_pos hpin] at h
      obtain ⟨hget, hattach, hempty, hpinned⟩ := h
      have hnone : bpfObjGet iface r.objGet = .error .enoent := by
        unfold bpfObjGet
        rcases hget with hget | hget
        · rw [hget, hpin]
        · rw [hget]
      rw [hnone]
      dsimp only
      rw [if_neg (not_not.mpr rfl), bpfProgramAttachXdp, if_pos ⟨hattach, hempty⟩]
      dsimp only
      rw [bpfLinkPin, if_pos ⟨hpinned, hpin⟩]

/-- The load finds nothing on the side that it does not replace: native and skb are empty when it
    is taken in offload, and offload is empty when it is taken in native or skb instead. -/
def LoadClean (mode : XdpMode) (r : Replies) (iface : Interface) : Prop :=
  if mode = .offload ∧ r.attach .offload = true then
    iface.slot .native = none ∧ iface.slot .skb = none
  else
    ∀ effective ∈ attempts mode, effective ≠ .offload → r.Takes iface effective →
      iface.slot .offload = none

/-- A load ends in offload if that was asked for and netlink took it. -/
theorem offload_iff_of_taken {iface iface' : Interface} {prog : Nat} {mode effective : XdpMode}
    {r : Replies} (hmem : effective ∈ attempts mode)
    (hfirst : effective ≠ mode → attachOrUpdateLink iface prog mode r = (-1, iface))
    (h : Taken iface prog r effective iface') :
    effective = .offload ↔ mode = .offload ∧ r.attach .offload = true := by
  constructor
  · rintro rfl
    refine ⟨?_, h.takes⟩
    cases mode with
    | offload => rfl
    | native => exact absurd hmem (by decide)
    | skb => exact absurd hmem (by decide)
  · rintro ⟨rfl, hattach⟩
    by_contra heffective
    have hfail := hfirst heffective
    rw [attachOrUpdateLink, if_pos (by decide), attachXdpReplace_eq, hattach] at hfail
    cases hfail

/-- A load that puts its program in a slot runs alone if every other slot was empty. -/
theorem onlyRuns_update_iff {iface iface' : Interface} {prog : Nat} {slot : XdpMode} {linked : Bool}
    (hslots : iface'.slot = Function.update iface.slot slot (some ⟨prog, linked⟩)) :
    OnlyRuns prog iface' ↔ ∀ other, other ≠ slot → iface.slot other = none := by
  have hself : iface'.slot slot = some ⟨prog, linked⟩ := by rw [hslots, Function.update_self]
  have hother : ∀ other, other ≠ slot → iface'.slot other = iface.slot other := by
    intro other hne
    rw [hslots, Function.update_of_ne hne]
  constructor
  · rintro ⟨mode, linked', -, hothers⟩ other hne
    obtain rfl : slot = mode := by
      by_contra hmode
      exact nomatch hself.symm.trans (hothers slot hmode)
    exact (hother other hne).symm.trans (hothers other hne)
  · intro hempty
    exact ⟨slot, linked, hself, fun other hne => (hother other hne).trans (hempty other hne)⟩

/-- A load that is taken leaves only its own program exactly when it is clean. -/
theorem taken_onlyRuns_iff {iface iface' : Interface} {prog : Nat} {mode effective : XdpMode}
    {r : Replies} (hheld : iface.Held) (hlaw : r.Lawful iface) (hmem : effective ∈ attempts mode)
    (hfirst : effective ≠ mode → attachOrUpdateLink iface prog mode r = (-1, iface))
    (h : Taken iface prog r effective iface') :
    OnlyRuns prog iface' ↔ LoadClean mode r iface := by
  obtain ⟨-, slot, linked, hoff, hrival, hslots⟩ := attempt_lands hheld hlaw h
  rw [onlyRuns_update_iff hslots, LoadClean]
  have hside := offload_iff_of_taken hmem hfirst h
  by_cases heffective : effective = .offload
  · rw [if_pos (hside.mp heffective)]
    obtain rfl : slot = .offload := hoff.mpr heffective
    constructor
    · intro hempty
      exact ⟨hempty .native (by decide), hempty .skb (by decide)⟩
    · rintro ⟨hnative, hskb⟩ other hother
      cases other with
      | native => exact hnative
      | skb => exact hskb
      | offload => exact absurd rfl hother
  · rw [if_neg (mt hside.mpr heffective)]
    have hslot : slot ≠ .offload := mt hoff.mp heffective
    constructor
    · intro hempty _ _ _ _
      exact hempty .offload hslot.symm
    · intro hclean other hother
      by_cases hoffload : other = .offload
      · rw [hoffload]
        exact hclean effective hmem heffective h.takes
      · exact hrival other (rival_of_ne hslot hoffload hother)

/-- A load that is refused in every attempt is clean. -/
theorem loadClean_of_refused {iface : Interface} (hheld : iface.Held) {prog : Nat} {mode : XdpMode}
    {r : Replies}
    (hfail : ∀ effective ∈ attempts mode,
      attachOrUpdateLink iface prog effective r = (-1, iface)) : LoadClean mode r iface := by
  have hrefused : ∀ effective ∈ attempts mode, ¬ r.Takes iface effective := by
    intro effective hmem htakes
    have hrc : (attachOrUpdateLink iface prog effective r).1 = 0 := attempt_of_takes hheld htakes
    rw [hfail effective hmem] at hrc
    cases hrc
  rw [LoadClean, if_neg]
  · intro effective hmem _ htakes
    exact absurd htakes (hrefused effective hmem)
  · rintro ⟨rfl, hattach⟩
    exact hrefused .offload (by decide) hattach

/-! ## Unloads -/

/-- The detach goes well: the kernel empties a slot that no link owns, or refuses with an error that
    counts as "nothing was attached". -/
def Detaches (iface : Interface) (mode : XdpMode) (reply : Option Errno) : Prop :=
  (∀ e, reply = some e → ignored e = true) ∧ (reply = none → iface.linked mode = false)

theorem detachMode_rc (iface : Interface) (mode : XdpMode) (reply : Option Errno) :
    (detachMode iface mode reply).1 = 0 ↔ Detaches iface mode reply := by
  unfold detachMode bpfXdpDetach Detaches
  have hneg : ¬ (-1 : Int) = 0 := by decide
  cases reply with
  | some e =>
    dsimp only
    split_ifs with hignored
    · refine iff_of_true rfl ⟨?_, nofun⟩
      rintro e' ⟨⟩
      exact hignored
    · exact iff_of_false hneg fun h => hignored (h.1 e rfl)
  | none =>
    dsimp only
    split_ifs with hlinked
    · rw [hlinked]
      exact iff_of_false hneg fun h => Bool.noConfusion (h.2 rfl)
    · exact iff_of_true rfl ⟨nofun, fun _ => Bool.not_eq_true _ ▸ hlinked⟩

/-- A detach that is refused leaves everything as it was, for the loader's eyes or not. -/
theorem detachMode_of_detaches {iface : Interface} {mode : XdpMode} {reply : Option Errno}
    (h : Detaches iface mode reply) :
    (detachMode iface mode reply).2 = if reply = none then iface.set mode none else iface := by
  obtain ⟨hrefused, hlinked⟩ := h
  unfold detachMode bpfXdpDetach
  cases reply with
  | some e =>
    dsimp only
    rw [if_pos (hrefused e rfl), if_neg (by nofun)]
  | none =>
    rw [hlinked rfl]
    rfl

theorem detachMode_held {iface : Interface} (hheld : iface.Held) (mode : XdpMode)
    (reply : Option Errno) : (detachMode iface mode reply).2.Held := by
  unfold detachMode bpfXdpDetach
  cases reply with
  | some e =>
    dsimp only
    split_ifs <;> exact hheld
  | none =>
    dsimp only
    split_ifs with hlinked
    · exact hheld
    · exact hheld.clear (Bool.eq_false_iff.2 hlinked)

/-- The link that goes takes its program with it. -/
theorem Interface.Held.unlink {iface : Interface} (hheld : iface.Held) {slot : XdpMode}
    (hpin : iface.pin = some slot) :
    Interface.Held { iface.set slot none with pin := none } where
  pinned _ hmode := nomatch hmode
  owner mode hlinked := by
    have hne : mode ≠ slot := by
      rintro rfl
      exact Bool.false_ne_true (linked_set_self.symm.trans hlinked)
    have hold : iface.linked mode = true := (linked_set_of_ne hne).symm.trans hlinked
    exact absurd (Option.some.inj ((hheld.owner mode hold).symm.trans hpin)) hne
  exclusive := hheld.exclusive_set
    (fun other hpair => hheld.exclusive slot other hpair
      (slot_ne_none_of_linked (hheld.pinned slot hpin).1)) none

theorem removePinned_held {iface : Interface} (hheld : iface.Held) (objGet unlink : Option Errno) :
    (removePinned iface objGet unlink).2.Held := by
  unfold removePinned
  cases hget : bpfObjGet iface objGet with
  | error errno => exact hheld
  | ok slot =>
    dsimp only
    cases unlink with
    | none => exact hheld.unlink (bpfObjGet_ok hget).2
    | some e =>
      dsimp only [unlinkPin]
      split_ifs <;> exact hheld

/-- `zereh_detach_xdp` after the pin was handled. -/
def detachAll (detach : XdpMode → Option Errno) (iface : Interface) : Int × Interface :=
  let (rc, iface) := detachMode iface .native (detach .native)
  if rc ≠ 0 then (-1, iface)
  else
    let (rc, iface) := detachMode iface .offload (detach .offload)
    if rc ≠ 0 then (-1, iface)
    else
      let (rc, iface) := detachMode iface .skb (detach .skb)
      if rc ≠ 0 then (-1, iface) else (0, iface)

theorem detachXdp_eq (cfg : Config) (ifnameOverride : Option CStr) (env : UnloadEnv)
    (iface : Interface) :
    detachXdp cfg ifnameOverride env iface =
      if env.ifindex = 0 ∨ buildPinPath (chosenInterface cfg ifnameOverride) = none then (-1, iface)
      else if (removePinned iface env.objGet env.unlink).1 ≠ 0 then
        (-1, (removePinned iface env.objGet env.unlink).2)
      else detachAll env.detach (removePinned iface env.objGet env.unlink).2 := by
  unfold detachXdp
  by_cases hindex : env.ifindex = 0
  · rw [if_pos hindex, if_pos (.inl hindex)]
  · rw [if_neg hindex]
    cases hpath : buildPinPath (chosenInterface cfg ifnameOverride) with
    | none => rw [if_pos (.inr rfl)]
    | some path =>
      rw [if_neg (by rintro (h | h); exacts [hindex h, nomatch h])]
      rfl

theorem detachAll_held {iface : Interface} (hheld : iface.Held) (detach : XdpMode → Option Errno) :
    (detachAll detach iface).2.Held := by
  have hnative := detachMode_held hheld .native (detach .native)
  have hoffload := detachMode_held hnative .offload (detach .offload)
  have hskb := detachMode_held hoffload .skb (detach .skb)
  unfold detachAll
  dsimp only
  split_ifs
  · exact hnative
  · exact hoffload
  · exact hskb
  · exact hskb

/-- A detach touches no other slot. -/
theorem detachMode_slot_of_ne {iface : Interface} {mode : XdpMode} {reply : Option Errno}
    (h : Detaches iface mode reply) (other : XdpMode) (hne : other ≠ mode) :
    (detachMode iface mode reply).2.slot other = iface.slot other := by
  rw [detachMode_of_detaches h]
  split_ifs
  · exact set_slot_of_ne hne
  · rfl

theorem detachMode_slot_self {iface : Interface} {mode : XdpMode} {reply : Option Errno}
    (h : Detaches iface mode reply) :
    (detachMode iface mode reply).2.slot mode =
      if reply = none then none else iface.slot mode := by
  rw [detachMode_of_detaches h]
  split_ifs
  · exact set_slot_self
  · rfl

theorem detaches_congr {iface iface' : Interface} {mode : XdpMode} {reply : Option Errno}
    (h : iface'.slot mode = iface.slot mode) :
    Detaches iface' mode reply ↔ Detaches iface mode reply := by
  unfold Detaches Interface.linked
  rw [h]

/-- The three detaches return 0 if each of them goes well on the interface as it was, and empty the
    slots in which the kernel was not asked in vain. -/
theorem detachAll_spec (iface : Interface) (detach : XdpMode → Option Errno) :
    ((detachAll detach iface).1 = 0 ↔ ∀ mode, Detaches iface mode (detach mode)) ∧
    ((detachAll detach iface).1 = 0 → ∀ mode, (detachAll detach iface).2.slot mode =
      if detach mode = none then none else iface.slot mode) := by
  have hneg : ¬ (-1 : Int) = 0 := by decide
  have hstop : ∀ {mode} {iface' : Interface}, iface'.slot mode = iface.slot mode →
      (detachMode iface' mode (detach mode)).1 ≠ 0 →
      ¬ ∀ mode, Detaches iface mode (detach mode) := by
    intro mode iface' hslot hrc hall
    exact hrc ((detachMode_rc ..).mpr ((detaches_congr hslot).mpr (hall mode)))
  unfold detachAll
  dsimp only
  by_cases hnative : (detachMode iface .native (detach .native)).1 ≠ 0
  · rw [if_pos hnative]
    exact ⟨iff_of_false hneg (hstop rfl hnative), fun h => absurd h hneg⟩
  rw [if_neg hnative]
  rw [not_not, detachMode_rc] at hnative
  have hoff1 := detachMode_slot_of_ne hnative .offload (by decide)
  have hskb1 := detachMode_slot_of_ne hnative .skb (by decide)
  have hnative1 := detachMode_slot_self hnative
  generalize (detachMode iface .native (detach .native)).2 = iface1 at *
  by_cases hoffload : (detachMode iface1 .offload (detach .offload)).1 ≠ 0
  · rw [if_pos hoffload]
    exact ⟨iff_of_false hneg (hstop hoff1 hoffload), fun h => absurd h hneg⟩
  rw [if_neg hoffload]
  rw [not_not, detachMode_rc] at hoffload
  have hskb2 := detachMode_slot_of_ne hoffload .skb (by decide)
  have hnative2 := detachMode_slot_of_ne hoffload .native (by decide)
  have hoff2 := detachMode_slot_self hoffload
  generalize (detachMode iface1 .offload (detach .offload)).2 = iface2 at *
  by_cases hskb : (detachMode iface2 .skb (detach .skb)).1 ≠ 0
  · rw [if_pos hskb]
    exact ⟨iff_of_false hneg (hstop (hskb2.trans hskb1) hskb),
      fun h => absurd h hneg⟩
  rw [if_neg hskb]
  rw [not_not, detachMode_rc] at hskb
  refine ⟨iff_of_true rfl fun mode => ?_, fun _ mode => ?_⟩
  · cases mode with
    | native => exact hnative
    | offload => exact (detaches_congr hoff1).mp hoffload
    | skb => exact (detaches_congr (hskb2.trans hskb1)).mp hskb
  · cases mode with
    | native => rw [detachMode_slot_of_ne hskb _ (by decide), hnative2, hnative1]
    | offload => rw [detachMode_slot_of_ne hskb _ (by decide), hoff2, hoff1]
    | skb => rw [detachMode_slot_self hskb, hskb2, hskb1]

/-- Nothing is removed where there is no pin to be seen; else its link goes, or `unlink` is refused. -/
theorem removePinned_cases (iface : Interface) (objGet unlink : Option Errno) :
    (iface.pin = none ∨ objGet ≠ none) ∧ removePinned iface objGet unlink = (0, iface) ∨
    ∃ slot, iface.pin = some slot ∧ objGet = none ∧
      (unlink = none ∧
          removePinned iface objGet unlink = (0, { iface.set slot none with pin := none }) ∨
        ∃ e, unlink = some e ∧
          removePinned iface objGet unlink = (if e = .enoent then 0 else -1, iface)) := by
  unfold removePinned bpfObjGet
  cases objGet with
  | some e => exact .inl ⟨.inr nofun, rfl⟩
  | none =>
    cases hpin : iface.pin with
    | none => exact .inl ⟨.inl rfl, rfl⟩
    | some slot =>
      refine .inr ⟨slot, rfl, rfl, ?_⟩
      cases unlink with
      | none => exact .inl ⟨rfl, rfl⟩
      | some e => exact .inr ⟨e, rfl, by cases e <;> rfl⟩

/-- What the removal of the pin returns. -/
theorem removePinned_rc (iface : Interface) (objGet unlink : Option Errno) :
    (removePinned iface objGet unlink).1 = 0 ↔
      (iface.pin ≠ none → objGet = none → unlink = none ∨ unlink = some .enoent) := by
  rcases removePinned_cases iface objGet unlink with
    ⟨hnone, hrun⟩ | ⟨slot, hpin, hget, ⟨hunlink, hrun⟩ | ⟨e, hunlink, hrun⟩⟩
  · rw [hrun]
    exact iff_of_true rfl fun hpin hget => (hnone.elim hpin fun h => h hget).elim
  · rw [hrun]
    exact iff_of_true rfl fun _ _ => .inl hunlink
  · rw [hrun, hunlink]
    by_cases he : e = .enoent
    · rw [if_pos he]
      exact iff_of_true rfl fun _ _ => .inr (congrArg some he)
    · rw [if_neg he]
      refine iff_of_false (show ¬ (-1 : Int) = 0 by decide) fun h => ?_
      rcases h (by rw [hpin]; nofun) hget with h | h
      · cases h
      · exact he (Option.some.inj h)

/-- The link that goes empties its slot; every other slot is as it was. -/
theorem removePinned_slot (iface : Interface) (objGet unlink : Option Errno) (mode : XdpMode) :
    (removePinned iface objGet unlink).2.slot mode =
      if iface.pin = some mode ∧ objGet = none ∧ unlink = none then none else iface.slot mode := by
  rcases removePinned_cases iface objGet unlink with
    ⟨hnone, hrun⟩ | ⟨slot, hpin, hget, ⟨hunlink, hrun⟩ | ⟨e, hunlink, hrun⟩⟩
  · rw [hrun, if_neg]
    rintro ⟨hpin, hget, -⟩
    exact hnone.elim (fun h => nomatch h.symm.trans hpin) fun h => h hget
  · rw [hrun]
    by_cases hslot : mode = slot
    · rw [hslot, if_pos ⟨hpin, hget, hunlink⟩]
      exact set_slot_self
    · rw [if_neg fun h => hslot (Option.some.inj (h.1.symm.trans hpin))]
      exact set_slot_of_ne hslot
  · rw [hrun]
    dsimp only
    rw [if_neg]
    rintro ⟨-, -, hnone⟩
    cases hunlink.symm.trans hnone

/-- Every call of an unload is answered so that it returns 0. -/
structure UnloadEnv.Passes (env : UnloadEnv) (cfg : Config) (ifnameOverride : Option CStr)
    (iface : Interface) : Prop where
  ifindex : env.ifindex ≠ 0
  path : buildPinPath (chosenInterface cfg ifnameOverride) ≠ none
  unlink : iface.pin ≠ none → env.objGet = none → env.unlink = none ∨ env.unlink = some .enoent
  refused : ∀ mode e, env.detach mode = some e → ignored e = true
  linked : ∀ mode, env.detach mode = none → iface.linked mode = true →
    env.objGet = none ∧ env.unlink = none

/-- The unload takes no refusal for an empty slot: where it goes through and the kernel refuses a
    detach, nothing is attached, or what is attached goes with the pin. -/
def UnloadClean (cfg : Config) (ifnameOverride : Option CStr) (env : UnloadEnv)
    (iface : Interface) : Prop :=
  env.Passes cfg ifnameOverride iface → ∀ mode, env.detach mode ≠ none →
    iface.slot mode = none ∨ (iface.pin = some mode ∧ env.objGet = none ∧ env.unlink = none)

/-- Once the pin was handled, no link owns a slot if it went or there was none. -/
theorem removePinned_linked {iface : Interface} (hheld : iface.Held) (objGet unlink : Option Errno)
    (mode : XdpMode) :
    (removePinned iface objGet unlink).2.linked mode = false ↔
      (iface.linked mode = true → objGet = none ∧ unlink = none) := by
  rw [Interface.linked, removePinned_slot]
  by_cases hgone : iface.pin = some mode ∧ objGet = none ∧ unlink = none
  · rw [if_pos hgone]
    exact iff_of_true rfl fun _ => hgone.2
  · rw [if_neg hgone, ← Bool.not_eq_true]
    constructor
    · intro hnot hlinked
      exact absurd hlinked hnot
    · intro hgoes hlinked
      exact hgone ⟨hheld.owner mode hlinked, hgoes hlinked⟩

theorem unload_rc {iface : Interface} (hheld : iface.Held) (cfg : Config)
    (ifnameOverride : Option CStr) (env : UnloadEnv) :
    (detachXdp cfg ifnameOverride env iface).1 = 0 ↔ env.Passes cfg ifnameOverride iface := by
  have hneg : ¬ (-1 : Int) = 0 := by decide
  rw [detachXdp_eq]
  by_cases hstop : env.ifindex = 0 ∨ buildPinPath (chosenInterface cfg ifnameOverride) = none
  · rw [if_pos hstop]
    exact iff_of_false hneg fun h => hstop.elim h.ifindex h.path
  rw [if_neg hstop]
  by_cases hunlink : (removePinned iface env.objGet env.unlink).1 ≠ 0
  · rw [if_pos hunlink]
    exact iff_of_false hneg fun h => hunlink ((removePinned_rc ..).mpr h.unlink)
  rw [if_neg hunlink, (detachAll_spec ..).1]
  rw [not_not, removePinned_rc] at hunlink
  rw [not_or] at hstop
  constructor
  · intro hall
    exact ⟨hstop.1, hstop.2, hunlink, fun mode => (hall mode).1,
      fun mode hnone => (removePinned_linked hheld ..).mp ((hall mode).2 hnone)⟩
  · intro h mode
    exact ⟨h.refused mode, fun hnone => (removePinned_linked hheld ..).mpr (h.linked mode hnone)⟩

/-! ## Histories -/

/-- One run of the control program on the interface. -/
inductive Op where
  | load (cfg : Config) (ifnameOverride : Option CStr) (env : LoadEnv)
  | unload (cfg : Config) (ifnameOverride : Option CStr) (env : UnloadEnv)

def Op.run (op : Op) (iface : Interface) : Int × Interface :=
  match op with
  | .load cfg ifnameOverride env => loadAndSwapXdp cfg ifnameOverride env iface
  | .unload cfg ifnameOverride env => detachXdp cfg ifnameOverride env iface

def opStep (iface : Interface) (op : Op) : Interface := (op.run iface).2

/-- The kernel answers by its rules. -/
def Op.Lawful (iface : Interface) : Op → Prop
  | .load _ _ env => env.replies.Lawful iface
  | .unload .. => True

/-- The operation leaves no program behind. -/
def Op.Clean (iface : Interface) : Op → Prop
  | .load cfg ifnameOverride env =>
    env.Reaches cfg ifnameOverride → LoadClean cfg.xdpMode env.replies iface
  | .unload cfg ifnameOverride env => UnloadClean cfg ifnameOverride env iface

/-- What is attached after an operation that returned 0. -/
def Op.Done (iface : Interface) (op : Op) : Prop :=
  (op.run iface).1 = 0 →
    match op with
    | .load cfg _ env =>
      ∃ prog, env.obj.findProgramByName cfg.xdpSection.bytes = some prog ∧
        OnlyRuns prog (op.run iface).2
    | .unload .. => ∀ mode, (op.run iface).2.slot mode = none

theorem load_held {iface : Interface} {cfg : Config} {ifnameOverride : Option CStr} {env : LoadEnv}
    (hheld : iface.Held) (hlaw : env.replies.Lawful iface) :
    (loadAndSwapXdp cfg ifnameOverride env iface).2.Held := by
  rcases loadAndSwapXdp_cases cfg ifnameOverride env iface with
    ⟨prog, -, effective, -, iface', htaken, -, hrun⟩ | ⟨-, hrun⟩
  · rw [hrun]
    exact (attempt_lands hheld hlaw htaken).1
  · rw [hrun]
    exact hheld

theorem load_done_iff {iface : Interface} {cfg : Config} {ifnameOverride : Option CStr}
    {env : LoadEnv} (hheld : iface.Held) (hlaw : env.replies.Lawful iface) :
    (Op.load cfg ifnameOverride env).Done iface ↔ (Op.load cfg ifnameOverride env).Clean iface := by
  unfold Op.Done
  dsimp only [Op.run, Op.Clean]
  rcases loadAndSwapXdp_cases cfg ifnameOverride env iface with
    ⟨prog, hprog, effective, hmem, iface', htaken, hfirst, hrun⟩ | ⟨hrefused, hrun⟩
  · have hreaches : env.Reaches cfg ifnameOverride := by
      by_contra hstop
      rw [loadAndSwapXdp_stops hstop iface] at hrun
      cases hrun
    rw [hrun, ← taken_onlyRuns_iff hheld hlaw hmem hfirst htaken]
    constructor
    · rintro hdone -
      obtain ⟨prog', hprog', hruns⟩ := hdone rfl
      rw [Option.some.inj (hprog.symm.trans hprog')]
      exact hruns
    · intro hclean _
      exact ⟨prog, hprog, hclean hreaches⟩
  · have hneg : ¬ (-1 : Int) = 0 := by decide
    rw [hrun]
    refine iff_of_true (fun h => absurd h hneg) fun hreaches => ?_
    obtain ⟨prog, hfail⟩ := hrefused hreaches
    exact loadClean_of_refused hheld hfail

theorem unload_held {iface : Interface} {cfg : Config} {ifnameOverride : Option CStr}
    {env : UnloadEnv} (hheld : iface.Held) : (detachXdp cfg ifnameOverride env iface).2.Held := by
  have hremoved := removePinned_held hheld env.objGet env.unlink
  rw [detachXdp_eq]
  split_ifs
  · exact hheld
  · exact hremoved
  · exact detachAll_held hremoved env.detach

/-- What an unload that goes through leaves in a slot: what was there, if the detach was refused
    and it did not go with the pin. -/
theorem unload_slot {iface : Interface} (hheld : iface.Held) {cfg : Config}
    {ifnameOverride : Option CStr} {env : UnloadEnv} (h : env.Passes cfg ifnameOverride iface)
    (mode : XdpMode) :
    (detachXdp cfg ifnameOverride env iface).2.slot mode =
      if env.detach mode = none ∨
          (iface.pin = some mode ∧ env.objGet = none ∧ env.unlink = none) then none
      else iface.slot mode := by
  have hrc := (unload_rc hheld cfg ifnameOverride env).mpr h
  rw [detachXdp_eq, if_neg (not_or.mpr ⟨h.ifindex, h.path⟩),
    if_neg (not_not.mpr ((removePinned_rc ..).mpr h.unlink))] at hrc ⊢
  rw [(detachAll_spec ..).2 hrc, removePinned_slot, ite_or]

theorem unload_done_iff {iface : Interface} {cfg : Config} {ifnameOverride : Option CStr}
    {env : UnloadEnv} (hheld : iface.Held) :
    (Op.unload cfg ifnameOverride env).Done iface ↔
      (Op.unload cfg ifnameOverride env).Clean iface := by
  unfold Op.Done
  dsimp only [Op.run, Op.Clean]
  rw [UnloadClean, unload_rc hheld]
  refine forall_congr' fun hpasses => forall_congr' fun mode => ?_
  rw [unload_slot hheld hpasses]
  constructor
  · intro hnone hrefused
    by_cases hpin : iface.pin = some mode ∧ env.objGet = none ∧ env.unlink = none
    · exact .inr hpin
    · rw [if_neg (not_or.mpr ⟨hrefused, hpin⟩)] at hnone
      exact .inl hnone
  · intro hclean
    split_ifs with hgone
    · rfl
    · rw [not_or] at hgone
      exact (hclean hgone.1).resolve_right hgone.2

/-- One operation: it does what it should exactly when it is clean, and keeps the invariant. -/
theorem op_step (iface : Interface) (op : Op) (hheld : iface.Held) (hlaw : op.Lawful iface) :
    (op.Done iface ↔ op.Clean iface) ∧ (opStep iface op).Held := by
  cases op with
  | load cfg ifnameOverride env => exact ⟨load_done_iff hheld hlaw, load_held hheld hlaw⟩
  | unload cfg ifnameOverride env => exact ⟨unload_done_iff hheld, unload_held hheld⟩

/-- **When only the new program runs.** Along every history of loads and unloads that starts with
    nothing attached, on a kernel that keeps native and skb apart and lets no netlink attach
    replace a link: each load that returns 0 leaves exactly its own program and each unload that
    returns 0 leaves none, if and only if no load is taken on one side of native and skb against
    offload while the other side is occupied, and no unload that goes through has a detach of an
    occupied slot refused. -/
theorem swap_runs (ops : List Op)
    (h : Along opStep (fun iface op => op.Lawful iface) ops .empty) :
    Along opStep (fun iface op => op.Done iface) ops .empty ↔
      Along opStep (fun iface op => op.Clean iface) ops .empty :=
  Along.iff_of_invariant op_step ops .empty Interface.held_empty h

/-- A kernel that takes the link and its updates, and netlink in the slots given. -/
def linkReplies (attach : XdpMode → Bool) : Replies where
  queried _ := true
  attach := attach
  objGet := none
  linkUpdate := true
  linkNative := true
  linkAttach := true
  linkPin := true

theorem linkReplies_lawful {attach : XdpMode → Bool} {iface : Interface}
    (hattach : ∀ mode, attach mode = true → mode = .offload)
    (hoffload : iface.linked .offload = false) (hskb : iface.slot .skb = none) :
    (linkReplies attach).Lawful iface where
  attach_linked mode h := by
    rw [hattach mode h]
    exact hoffload
  attach_rival mode other h hpair := by
    rw [hattach mode h] at hpair
    cases hpair
  link_rival other _ hpair := by
    cases hpair
    exact hskb

/-- A program behind the pinned link in native, and perhaps one in offload. -/
def nativeLinked (prog : Nat) (offload : Option Attached) : Interface where
  slot
    | .native => some ⟨prog, true⟩
    | .skb => none
    | .offload => offload
  pin := some .native

/-- A load in native on an empty interface, then one that replaces its program. -/
theorem run_native (prog : Nat) :
    opStep .empty (.load (modeConfig .native) none (routerLoad prog (linkReplies fun _ => false))) =
      nativeLinked prog none := by
  dsimp only [opStep, Op.run]
  rw [load_modeConfig]
  refine congrArg₂ Interface.mk (funext fun mode => ?_) rfl
  cases mode <;> rfl

theorem run_native_again (old prog : Nat) :
    opStep (nativeLinked old none)
      (.load (modeConfig .native) none (routerLoad prog (linkReplies fun _ => false))) =
        nativeLinked prog none := by
  dsimp only [opStep, Op.run]
  rw [load_modeConfig]
  refine congrArg₂ Interface.mk (funext fun mode => ?_) rfl
  cases mode <;> rfl

/-- A load in native finds offload empty, if it is empty. -/
theorem loadClean_native {r : Replies} {iface : Interface} (h : iface.slot .offload = none) :
    LoadClean .native r iface := by
  rw [LoadClean, if_neg fun h => XdpMode.noConfusion h.1]
  intros
  exact h

/-- Two loads in native and an unload. -/
theorem swap_runs_sample :
    Along opStep (fun iface op => op.Done iface)
      [.load (modeConfig .native) none (routerLoad 1 (linkReplies fun _ => false)),
       .load (modeConfig .native) none (routerLoad 2 (linkReplies fun _ => false)),
       .unload (modeConfig .native) none ⟨2, none, none, fun _ => some .enoent⟩] .empty := by
  refine (swap_runs _ ?_).mpr ?_
  · refine ⟨linkReplies_lawful nofun rfl rfl, ?_⟩
    rw [run_native]
    refine ⟨linkReplies_lawful nofun rfl rfl, ?_⟩
    rw [run_native_again]
    exact ⟨trivial, trivial⟩
  · refine ⟨fun _ => loadClean_native rfl, ?_⟩
    rw [run_native]
    refine ⟨fun _ => loadClean_native rfl, ?_⟩
    rw [run_native_again]
    refine ⟨fun _ mode _ => ?_, trivial⟩
    cases mode with
    | native => exact .inr ⟨rfl, rfl, rfl⟩
    | skb => exact .inl rfl
    | offload => exact .inl rfl

/-- A load in offload, after one in native, returns 0 and leaves both programs attached. -/
theorem swap_leaves_old :
    ¬ ∀ ops : List Op, Along opStep (fun iface op => op.Lawful iface) ops .empty →
      Along opStep (fun iface op => op.Done iface) ops .empty := by
  intro hall
  have hlawful : Along opStep (fun iface op => op.Lawful iface)
      [.load (modeConfig .native) none (routerLoad 1 (linkReplies fun _ => false)),
       .load (modeConfig .offload) none (routerLoad 2 (linkReplies (· = .offload)))] .empty := by
    refine ⟨linkReplies_lawful nofun rfl rfl, ?_⟩
    rw [run_native]
    exact ⟨linkReplies_lawful (fun mode h => of_decide_eq_true h) rfl rfl, trivial⟩
  obtain ⟨-, hsecond, -⟩ := hall _ hlawful
  rw [run_native] at hsecond
  have hrun : (Op.load (modeConfig .offload) none (routerLoad 2 (linkReplies (· = .offload)))).run
      (nativeLinked 1 none) = (0, nativeLinked 1 (some ⟨2, false⟩)) := by
    dsimp only [Op.run]
    rw [load_modeConfig]
    refine congrArg (Prod.mk 0) (congrArg₂ Interface.mk (funext fun mode => ?_) rfl)
    cases mode <;> rfl
  unfold Op.Done at hsecond
  rw [hrun] at hsecond
  obtain ⟨prog, -, mode, linked, -, hothers⟩ := hsecond rfl
  by_cases hmode : mode = .native
  · have hnone := hothers .offload (by rw [hmode]; decide)
    cases hnone
  · have hnone := hothers .native (Ne.symm hmode)
    cases hnone

end Zereh.Control
