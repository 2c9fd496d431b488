/-
  A load alone on its interface is the load of `Control.Attach`, however many frames come in between.

  `outcome` is what a load still comes to when no other process makes a call. A tick does not change it
  (`outcome_tick`) and brings the load nearer to its end (`left_tick`), a frame touches neither. So a load
  that makes enough ticks has returned what `zereh_load_and_swap_xdp` returns on the interface it found,
  and has left the interface as that call leaves it (`swap_refines`).

  While it runs, no slot that was taken is ever free: the frames of the slot are answered by the old program
  up to some point and by the new one from there on (`swap_no_gap`). Both need that no loaded program
  faults (`LoadJob.Safe`), as no generated program without placeholders does (`LoadJob.Good.safe`).
-/
import Zereh.Link.HotSwap

namespace Zereh.Link

open Lib CText Control Xdp

/-! ## The load in one piece -/

/-- The answers of a load, for the load in one piece. -/
def SwapEnv.toLoadEnv (env : SwapEnv) (cfg : Config) : LoadEnv where
  ifindex := env.ifindex
  memlock := env.memlock
  opened := env.opened
  loaded := env.loaded
  blacklistMap := some (decide (∀ i < cfg.blacklist.length, env.blacklistUpdated i = true))
  bloomMap := some (decide (∀ i < Control.bloomWords.toNat, env.bloomUpdated i = true))
  progArrayMap := some env.progUpdated
  obj := env.obj
  ensureDir := env.ensureDir
  replies := env.replies

/-- The attempts in these modes, one after the other. -/
def attachFrom (prog : Nat) (r : Replies) (iface : Interface) : List XdpMode → Int × Interface
  | [] => (-1, iface)
  | mode :: rest =>
    match attachOrUpdateLink iface prog mode r with
    | (rc, iface) => if rc = 0 then (0, iface) else attachFrom prog r iface rest

/-- The fallback chain is a list of attempts. -/
theorem attachFrom_attempts (prog : Nat) (r : Replies) (iface : Interface) (mode : XdpMode) :
    attachFrom prog r iface (attempts mode) =
      match attachWithFallback iface prog mode r with
      | (some _, iface) => (0, iface)
      | (none, iface) => (-1, iface) := by
  unfold attachWithFallback
  cases mode with
  | skb =>
    simp only [attempts, attachFrom]
    split_ifs <;> rfl
  | native =>
    simp only [attempts, attachFrom]
    split_ifs <;> rfl
  | offload =>
    simp only [attempts, attachFrom]
    split_ifs <;> rfl

section Outcome

variable (p : Nat) (job : LoadJob)

/-- The rest of the blacklist can be stored. -/
def BlacklistFrom (i : Nat) : Prop :=
  ∀ j cidr, i ≤ j → job.cfg.blacklist[j]? = some cidr →
    (parseCidrV4 cidr).isSome ∧ job.env.blacklistUpdated j = true

/-- The rest of the Bloom words can be stored. -/
def BloomFrom (i : Nat) : Prop :=
  ∀ j, i ≤ j → j < Control.bloomWords.toNat → job.env.bloomUpdated j = true

/-- The rest of the routes can be bound. -/
def ProgsFrom (i : Nat) : Prop :=
  ∀ j r, i ≤ j → job.cfg.routes[j]? = some r → r.target = .xdpProg →
    Bindable job.env.obj (job.env.progUpdated j) r

/-- What is still to be seeded goes through. -/
def SeedsFrom : LoadPc → Prop
  | .setup => ¬ (job.env.ifindex = 0 ∨ (!job.env.memlock) = true ∨ (!job.env.opened) = true ∨
      (!job.env.loaded) = true) ∧ BlacklistFrom job 0 ∧ BloomFrom job 0 ∧ ProgsFrom job 0
  | .blacklist i => BlacklistFrom job i ∧ BloomFrom job 0 ∧ ProgsFrom job 0
  | .bloom i => BloomFrom job i ∧ ProgsFrom job 0
  | .progs i => ProgsFrom job i
  | _ => True

/-- From `bpf_object__find_program_by_name` on. -/
def findOutcome (iface : Interface) : Int × Interface :=
  if job.env.obj.findProgramByName job.cfg.xdpSection.bytes = none ∨ !job.env.ensureDir ∨
      buildPinPath (chosenInterface job.cfg job.ifnameOverride) = none then (-1, iface)
  else attachFrom p job.env.replies iface (attempts job.cfg.xdpMode)

open Classical in
/-- What a load at `pc` returns and leaves, when it is alone from here on. -/
noncomputable def outcome (iface : Interface) : LoadPc → Int × Interface
  | .attempt mode rest => attachFrom p job.env.replies iface (mode :: rest)
  | .attach mode old rest =>
    match bpfXdpAttach iface p mode old (job.env.replies.attach mode) with
    | some iface => (0, iface)
    | none => attachFrom p job.env.replies iface rest
  | .update slot rest =>
    match bpfLinkUpdate iface slot p job.env.replies.linkUpdate with
    | some iface => (0, iface)
    | none => attachFrom p job.env.replies iface rest
  | .link rest =>
    match bpfProgramAttachXdp iface p job.env.replies.linkMode job.env.replies.linkAttach with
    | none => attachFrom p job.env.replies iface rest
    | some attached =>
      match bpfLinkPin attached job.env.replies.linkMode job.env.replies.linkPin with
      | none => attachFrom p job.env.replies (bpfLinkDestroy attached job.env.replies.linkMode) rest
      | some pinned => (0, pinned)
  | .pin rest =>
    match bpfLinkPin iface job.env.replies.linkMode job.env.replies.linkPin with
    | none => attachFrom p job.env.replies (bpfLinkDestroy iface job.env.replies.linkMode) rest
    | some pinned => (0, pinned)
  | .destroy rest =>
    attachFrom p job.env.replies (bpfLinkDestroy iface job.env.replies.linkMode) rest
  | .done rc => (rc, iface)
  | pc => if SeedsFrom job pc then findOutcome p job iface else (-1, iface)

/-- The ticks that a load at `pc` still makes, at most. An attempt makes four. -/
def left : LoadPc → Nat
  | .setup => job.cfg.blacklist.length + job.cfg.routes.length + Control.bloomWords.toNat + 17
  | .blacklist i => job.cfg.blacklist.length - i + job.cfg.routes.length + Control.bloomWords.toNat + 16
  | .bloom i => job.cfg.routes.length + (Control.bloomWords.toNat - i) + 15
  | .progs i => job.cfg.routes.length - i + 14
  | .find => 13
  | .attempt _ rest => 4 * rest.length + 4
  | .attach _ _ rest => 4 * rest.length + 1
  | .update _ rest => 4 * rest.length + 1
  | .link rest => 4 * rest.length + 3
  | .pin rest => 4 * rest.length + 2
  | .destroy rest => 4 * rest.length + 1
  | .done _ => 0

end Outcome

/-! ## One tick -/

section Tick

variable {p : Nat} {job : LoadJob} {maps : Maps} {iface : Interface}

theorem outcome_nextAttempt (rest : List XdpMode) :
    outcome p job iface (nextAttempt rest) = attachFrom p job.env.replies iface rest := by
  cases rest <;> rfl

/-- Before the first attempt only the seeding decides. -/
def LoadPc.early : LoadPc → Bool
  | .find => true
  | pc => pc.seeding

open Classical in
theorem outcome_early {pc : LoadPc} (h : pc.early = true) :
    outcome p job iface pc = if SeedsFrom job pc then findOutcome p job iface else (-1, iface) := by
  cases pc with
  | setup => rfl
  | blacklist i => rfl
  | bloom i => rfl
  | progs i => rfl
  | find => rfl
  | _ => cases h

theorem outcome_stopped {pc : LoadPc} (h : pc.early = true) (hseeds : ¬ SeedsFrom job pc) :
    outcome p job iface pc = (-1, iface) := by
  rw [outcome_early h, if_neg hseeds]

theorem outcome_early_congr {pc pc' : LoadPc} (h : pc.early = true) (h' : pc'.early = true)
    (hseeds : SeedsFrom job pc ↔ SeedsFrom job pc') :
    outcome p job iface pc' = outcome p job iface pc := by
  classical
  rw [outcome_early h, outcome_early h']
  exact if_congr hseeds.symm rfl rfl

/-- What holds from `i` on: it holds of entry `i` and from the next one on. -/
theorem forall_from_iff {α : Type} {P : Nat → α → Prop} {xs : List α} {i : Nat} {x : α}
    (hx : xs[i]? = some x) : (∀ j y, i ≤ j → xs[j]? = some y → P j y) ↔
      P i x ∧ ∀ j y, i + 1 ≤ j → xs[j]? = some y → P j y := by
  constructor
  · exact fun h => ⟨h i x le_rfl hx, fun j y hj => h j y (by omega)⟩
  · rintro ⟨hfirst, hrest⟩ j y hj hy
    rcases Nat.eq_or_lt_of_le hj with rfl | hlt
    · obtain rfl : x = y := Option.some.inj (hx.symm.trans hy)
      exact hfirst
    · exact hrest j y hlt hy

theorem forall_from_of_none {α : Type} {P : Nat → α → Prop} {xs : List α} {i : Nat}
    (hx : xs[i]? = none) (j : Nat) (y : α) (hj : i ≤ j) (hy : xs[j]? = some y) : P j y := by
  have hlen := List.getElem?_eq_none_iff.mp hx
  have hlt := (List.getElem?_eq_some_iff.mp hy).1
  omega

theorem bindRoute_isOk_iff (job : LoadJob) (maps : Maps) (updated : Bool) (route : Route) :
    (∃ maps', bindRoute job.env.obj (job.env.obj.findProgramByName (ascii "zereh_app_default"))
      updated route maps = .ok maps') ↔ (route.target = .xdpProg → Bindable job.env.obj updated route) := by
  constructor
  · rintro ⟨maps', hbind⟩ htarget
    exact bindable_of_bindRoute htarget hbind
  · intro hbindable
    by_cases htarget : route.target = .xdpProg
    · obtain ⟨hindex, hupdated, prog, name, hprog, hfd⟩ := hbindable htarget
      exact ⟨_, bindRoute_of_bindable htarget hindex hupdated hprog hfd maps⟩
    · exact ⟨_, bindRoute_of_ne htarget⟩

/-- A tick that seeds does not change what the load comes to. -/
theorem outcome_tick_early {pc pc' : LoadPc} {maps' : Maps} {iface' : Interface}
    (hpc : pc.early = true) (h : loadTick p job pc maps iface = (pc', maps', iface')) :
    outcome p job iface' pc' = outcome p job iface pc := by
  cases pc with
  | setup =>
    unfold loadTick at h
    dsimp only at h
    split_ifs at h with hcond <;> cases h
    · refine (outcome_stopped rfl ?_).symm
      exact fun hseeds => hseeds.1 hcond
    · exact outcome_early_congr rfl rfl (and_iff_right hcond)
  | blacklist i =>
    unfold loadTick at h
    dsimp only at h
    cases hcidr : job.cfg.blacklist[i]? with
    | none =>
      rw [hcidr] at h
      cases h
      exact outcome_early_congr rfl rfl (and_iff_right (forall_from_of_none hcidr))
    | some cidr =>
      rw [hcidr] at h
      dsimp only at h
      have hfrom : BlacklistFrom job i ↔ _ := forall_from_iff hcidr
      cases hkey : parseCidrV4 cidr with
      | none =>
        rw [hkey] at h
        cases h
        refine (outcome_stopped rfl fun hseeds => ?_).symm
        have := (hfrom.mp hseeds.1).1.1
        rw [hkey] at this
        cases this
      | some key =>
        rw [hkey] at h
        dsimp only at h
        split_ifs at h with hupdated <;> cases h
        · exact outcome_early_congr rfl rfl
            (and_congr_left' (hfrom.trans (and_iff_right ⟨by rw [hkey]; rfl, hupdated⟩)))
        · refine (outcome_stopped rfl ?_).symm
          exact fun hseeds => hupdated (hfrom.mp hseeds.1).1.2
  | bloom i =>
    unfold loadTick at h
    dsimp only at h
    split_ifs at h with hlt hupdated <;> cases h
    · refine outcome_early_congr rfl rfl (and_congr_left' ⟨fun hall j hj => hall j (by omega), ?_⟩)
      intro hall j hj hj'
      rcases Nat.eq_or_lt_of_le hj with rfl | hgt
      · exact hupdated
      · exact hall j hgt hj'
    · refine (outcome_stopped rfl ?_).symm
      exact fun hseeds => hupdated (hseeds.1 i le_rfl hlt)
    · refine outcome_early_congr rfl rfl (and_iff_right fun j hj hj' => ?_)
      omega
  | progs i =>
    unfold loadTick at h
    dsimp only at h
    cases hroute : job.cfg.routes[i]? with
    | none =>
      rw [hroute] at h
      cases h
      exact outcome_early_congr rfl rfl (iff_of_true (forall_from_of_none hroute) trivial)
    | some route =>
      rw [hroute] at h
      dsimp only at h
      have hfrom : ProgsFrom job i ↔ _ := forall_from_iff hroute
      have hok := bindRoute_isOk_iff job maps (job.env.progUpdated i) route
      cases hbind : bindRoute job.env.obj
          (job.env.obj.findProgramByName (ascii "zereh_app_default")) (job.env.progUpdated i) route maps with
      | ok bound =>
        rw [hbind] at h
        cases h
        exact outcome_early_congr rfl rfl (hfrom.trans (and_iff_right (hok.mp ⟨_, hbind⟩)))
      | error e =>
        rw [hbind] at h
        cases h
        refine (outcome_stopped rfl fun hseeds => ?_).symm
        obtain ⟨bound, hbind'⟩ := hok.mpr (hfrom.mp hseeds).1
        rw [hbind] at hbind'
        cases hbind'
  | find =>
    unfold loadTick at h
    dsimp only at h
    rw [outcome_early hpc, if_pos (show SeedsFrom job .find from trivial), findOutcome]
    split_ifs at h with hcond <;> cases h
    · exact (if_pos hcond).symm
    · rw [if_neg hcond]
      exact outcome_nextAttempt _
  | _ => cases hpc

/-- A tick of an attempt neither. -/
theorem outcome_tick_late {pc pc' : LoadPc} {maps' : Maps} {iface' : Interface}
    (hpc : pc.early = false) (h : loadTick p job pc maps iface = (pc', maps', iface')) :
    outcome p job iface' pc' = outcome p job iface pc := by
  have hneg : ¬ (-1 : Int) = 0 := by decide
  cases pc with
  | setup => cases hpc
  | blacklist i => cases hpc
  | bloom i => cases hpc
  | progs i => cases hpc
  | find => cases hpc
  | attempt mode rest =>
    unfold loadTick at h
    dsimp only at h
    show outcome p job iface' pc' = attachFrom p job.env.replies iface (mode :: rest)
    unfold attachFrom attachOrUpdateLink
    split_ifs at h with hmode
    · cases h
      rw [if_pos hmode, attachXdpReplace, outcome]
      cases bpfXdpAttach iface p mode (queryOld iface mode (job.env.replies.queried mode))
          (job.env.replies.attach mode) with
      | some attached => rfl
      | none => rfl
    · rw [if_neg hmode]
      cases hget : bpfObjGet iface job.env.replies.objGet with
      | ok slot =>
        rw [hget] at h
        cases h
        rw [outcome]
        dsimp only
        cases bpfLinkUpdate iface slot p job.env.replies.linkUpdate with
        | some updated => rfl
        | none => rfl
      | error errno =>
        rw [hget] at h
        dsimp only at h ⊢
        split_ifs at h with herrno <;> cases h
        · rw [if_pos herrno, outcome_nextAttempt]
          rfl
        · rw [if_neg herrno, outcome]
          cases bpfProgramAttachXdp iface p job.env.replies.linkMode job.env.replies.linkAttach with
          | none => rfl
          | some attached =>
            cases hpin : bpfLinkPin attached job.env.replies.linkMode job.env.replies.linkPin with
            | none => simp only [hpin, if_neg hneg]
            | some pinned => simp only [hpin, if_true]
  | attach mode old rest =>
    unfold loadTick at h
    dsimp only at h
    rw [outcome]
    cases hattach : bpfXdpAttach iface p mode old (job.env.replies.attach mode) with
    | some attached =>
      rw [hattach] at h
      cases h
      rfl
    | none =>
      rw [hattach] at h
      cases h
      exact outcome_nextAttempt rest
  | update slot rest =>
    unfold loadTick at h
    dsimp only at h
    rw [outcome]
    cases hupdate : bpfLinkUpdate iface slot p job.env.replies.linkUpdate with
    | some updated =>
      rw [hupdate] at h
      cases h
      rfl
    | none =>
      rw [hupdate] at h
      cases h
      exact outcome_nextAttempt rest
  | link rest =>
    unfold loadTick at h
    dsimp only at h
    rw [outcome]
    cases hattach : bpfProgramAttachXdp iface p job.env.replies.linkMode job.env.replies.linkAttach with
    | some attached =>
      rw [hattach] at h
      cases h
      rfl
    | none =>
      rw [hattach] at h
      cases h
      exact outcome_nextAttempt rest
  | pin rest =>
    unfold loadTick at h
    dsimp only at h
    rw [outcome]
    cases hpin : bpfLinkPin iface job.env.replies.linkMode job.env.replies.linkPin with
    | some pinned =>
      rw [hpin] at h
      cases h
      rfl
    | none =>
      rw [hpin] at h
      cases h
      rfl
  | destroy rest =>
    cases h
    exact outcome_nextAttempt rest
  | done rc =>
    cases h
    rfl

theorem outcome_tick {pc pc' : LoadPc} {maps' : Maps} {iface' : Interface}
    (h : loadTick p job pc maps iface = (pc', maps', iface')) :
    outcome p job iface' pc' = outcome p job iface pc := by
  cases hpc : pc.early with
  | true => exact outcome_tick_early hpc h
  | false => exact outcome_tick_late hpc h

theorem left_nextAttempt (rest : List XdpMode) : left job (nextAttempt rest) = 4 * rest.length := by
  cases rest with
  | nil => rfl
  | cons mode rest => rfl

/-- Every tick brings the load nearer to its end. -/
theorem left_tick {pc pc' : LoadPc} {maps' : Maps} {iface' : Interface}
    (h : loadTick p job pc maps iface = (pc', maps', iface')) : left job pc' ≤ left job pc - 1 := by
  cases pc with
  | setup =>
    unfold loadTick at h
    dsimp only at h
    split_ifs at h <;> cases h <;> simp only [left] <;> omega
  | blacklist i =>
    unfold loadTick at h
    dsimp only at h
    cases hcidr : job.cfg.blacklist[i]? with
    | none =>
      rw [hcidr] at h
      cases h
      simp only [left]
      omega
    | some cidr =>
      have hlt := (List.getElem?_eq_some_iff.mp hcidr).1
      rw [hcidr] at h
      dsimp only at h
      split at h
      · cases h
        simp only [left]
        omega
      · split_ifs at h <;> cases h <;> simp only [left] <;> omega
  | bloom i =>
    unfold loadTick at h
    dsimp only at h
    split_ifs at h <;> cases h <;> simp only [left] <;> omega
  | progs i =>
    unfold loadTick at h
    dsimp only at h
    cases hroute : job.cfg.routes[i]? with
    | none =>
      rw [hroute] at h
      cases h
      simp only [left]
      omega
    | some route =>
      have hlt := (List.getElem?_eq_some_iff.mp hroute).1
      rw [hroute] at h
      dsimp only at h
      split at h <;> cases h <;> simp only [left] <;> omega
  | find =>
    have hattempts : (attempts job.cfg.xdpMode).length ≤ 3 := by cases job.cfg.xdpMode <;> decide
    unfold loadTick at h
    dsimp only at h
    split_ifs at h <;> cases h
    · exact Nat.zero_le _
    · rw [left_nextAttempt]
      simp only [left]
      omega
  | attempt mode rest =>
    unfold loadTick at h
    dsimp only at h
    split_ifs at h
    · cases h
      simp only [left]
      omega
    · split at h
      · cases h
        simp only [left]
        omega
      · split_ifs at h <;> cases h
        · rw [left_nextAttempt]
          simp only [left]
          omega
        · simp only [left]
          omega
  | attach mode old rest =>
    unfold loadTick at h
    dsimp only at h
    split at h <;> cases h
    · exact Nat.zero_le _
    · exact (left_nextAttempt rest).le
  | update slot rest =>
    unfold loadTick at h
    dsimp only at h
    split at h <;> cases h
    · exact Nat.zero_le _
    · exact (left_nextAttempt rest).le
  | link rest =>
    unfold loadTick at h
    dsimp only at h
    split at h <;> cases h
    · simp only [left]
      omega
    · rw [left_nextAttempt]
      simp only [left]
      omega
  | pin rest =>
    unfold loadTick at h
    dsimp only at h
    split at h <;> cases h
    · exact Nat.zero_le _
    · simp only [left]
      omega
  | destroy rest =>
    cases h
    exact (left_nextAttempt rest).le
  | done rc =>
    cases h
    exact Nat.zero_le _

theorem eq_done_of_left (job : LoadJob) {pc : LoadPc} (h : left job pc = 0) : ∃ rc, pc = .done rc := by
  cases pc with
  | done rc => exact ⟨rc, rfl⟩
  | _ =>
    simp only [left] at h
    omega

end Tick

/-! ## The whole load -/

section Whole

variable (job : LoadJob)

theorem blacklistKeys_isOk_iff (cidrs : List CStr) :
    (∃ keys, blacklistKeys cidrs = .ok keys) ↔ ∀ cidr ∈ cidrs, (parseCidrV4 cidr).isSome := by
  refine ⟨?_, blacklistKeys_ok⟩
  rintro ⟨keys, hkeys⟩ cidr hcidr
  induction cidrs generalizing keys with
  | nil => cases hcidr
  | cons first cidrs ih =>
    unfold blacklistKeys at hkeys
    cases hfirst : parseCidrV4 first with
    | none =>
      rw [hfirst] at hkeys
      cases hkeys
    | some key =>
      rw [hfirst] at hkeys
      obtain ⟨rest, hrest, -⟩ := bind_eq_ok hkeys
      rcases List.mem_cons.mp hcidr with rfl | hmem
      · rw [hfirst]
        rfl
      · exact ih rest hrest hmem

theorem isOk_iff_exists {ε α : Type} (x : Except ε α) : x.isOk = true ↔ ∃ a, x = .ok a := by
  cases x with
  | error e =>
    refine iff_of_false Bool.false_ne_true ?_
    rintro ⟨a, ⟨⟩⟩
  | ok a => exact iff_of_true rfl ⟨a, rfl⟩

theorem blacklistSeeded_iff :
    blacklistSeeded job.cfg (job.env.toLoadEnv job.cfg).blacklistMap = true ↔ BlacklistFrom job 0 := by
  have hseed : (seedBlacklistMap job.cfg .created).isOk = true ↔
      ∀ cidr ∈ job.cfg.blacklist, (parseCidrV4 cidr).isSome := by
    rw [isOk_iff_exists, ← blacklistKeys_isOk_iff]
    constructor
    · rintro ⟨maps, hmaps⟩
      obtain ⟨keys, hkeys, -⟩ := bind_eq_ok hmaps
      exact ⟨keys, hkeys⟩
    · rintro ⟨keys, hkeys⟩
      exact ⟨_, by rw [seedBlacklistMap, hkeys]; rfl⟩
  show (decide _ && _) = true ↔ _
  rw [Bool.and_eq_true, decide_eq_true_iff, hseed]
  constructor
  · rintro ⟨hupdated, hkeys⟩ j cidr - hcidr
    exact ⟨hkeys cidr (List.mem_of_getElem? hcidr), hupdated j (List.getElem?_eq_some_iff.mp hcidr).1⟩
  · intro hfrom
    refine ⟨fun i hi => (hfrom i _ (Nat.zero_le _) (List.getElem?_eq_getElem hi)).2, ?_⟩
    intro cidr hmem
    obtain ⟨i, hi⟩ := List.mem_iff_getElem?.mp hmem
    exact (hfrom i cidr (Nat.zero_le _) hi).1

theorem bloomMap_iff :
    (job.env.toLoadEnv job.cfg).bloomMap = some false ↔ ¬ BloomFrom job 0 := by
  show some (decide _) = some false ↔ _
  rw [Option.some.injEq, decide_eq_false_iff_not]
  refine not_congr ⟨fun hall j _ => hall j, fun hfrom i hi => hfrom i (Nat.zero_le _) hi⟩

theorem progArraySeeded_iff :
    progArraySeeded job.cfg job.env.obj (job.env.toLoadEnv job.cfg).progArrayMap = true ↔
      ProgsFrom job 0 := by
  show (seedProgArray job.env.obj job.env.progUpdated job.cfg .created).isOk = true ↔ _
  rw [isOk_iff_exists]
  refine (bindLoop_isOk_iff ..).trans ⟨fun hall j r _ hr => ?_, fun hfrom k r hr => ?_⟩
  · have hroute := hall j r hr
    rwa [Nat.zero_add] at hroute
  · rw [Nat.zero_add]
    exact hfrom k r (Nat.zero_le _) hr

theorem findOutcome_eq {p : Nat} (iface : Interface)
    (hid : ∀ prog, job.env.obj.findProgramByName job.cfg.xdpSection.bytes = some prog → prog = p) :
    findOutcome p job iface =
      match job.env.obj.findProgramByName job.cfg.xdpSection.bytes with
      | none => (-1, iface)
      | some prog =>
        if !job.env.ensureDir then (-1, iface)
        else
          match buildPinPath (chosenInterface job.cfg job.ifnameOverride) with
          | none => (-1, iface)
          | some _ =>
            match attachWithFallback iface prog job.cfg.xdpMode job.env.replies with
            | (some _, iface) => (0, iface)
            | (none, iface) => (-1, iface) := by
  unfold findOutcome
  cases hprog : job.env.obj.findProgramByName job.cfg.xdpSection.bytes with
  | none => exact if_pos (.inl rfl)
  | some prog =>
    obtain rfl := hid prog hprog
    dsimp only
    by_cases hdir : (!job.env.ensureDir) = true
    · rw [if_pos (.inr (.inl hdir)), if_pos hdir]
    rw [if_neg hdir]
    cases hpath : buildPinPath (chosenInterface job.cfg job.ifnameOverride) with
    | none => exact if_pos (.inr (.inr rfl))
    | some path =>
      have hfound : ¬ (some prog = none ∨ (!job.env.ensureDir) = true ∨ some path = none) := by
        rintro (h | h | h)
        · cases h
        · exact hdir h
        · cases h
      rw [if_neg hfound]
      exact attachFrom_attempts prog job.env.replies iface job.cfg.xdpMode

/-- A load that starts comes to what the load in one piece does. -/
theorem outcome_setup {p : Nat} (iface : Interface)
    (hid : ∀ prog, job.env.obj.findProgramByName job.cfg.xdpSection.bytes = some prog → prog = p) :
    outcome p job iface .setup =
      loadAndSwapXdp job.cfg job.ifnameOverride (job.env.toLoadEnv job.cfg) iface := by
  classical
  rw [outcome_early rfl]
  unfold loadAndSwapXdp
  by_cases hseeds : SeedsFrom job .setup
  · rw [if_pos hseeds]
    obtain ⟨hready, hblacklist, hbloom, hprogs⟩ := hseeds
    rw [not_or, not_or, not_or] at hready
    have hseeded : ¬ (!blacklistSeeded job.cfg (job.env.toLoadEnv job.cfg).blacklistMap) = true := by
      rw [(blacklistSeeded_iff job).mpr hblacklist]
      decide
    have hbound : ¬ (!progArraySeeded job.cfg job.env.obj
        (job.env.toLoadEnv job.cfg).progArrayMap) = true := by
      rw [(progArraySeeded_iff job).mpr hprogs]
      decide
    refine Eq.symm ?_
    refine (if_neg hready.1).trans ?_
    refine (if_neg hready.2.1).trans ?_
    refine (if_neg hready.2.2.1).trans ?_
    refine (if_neg hready.2.2.2).trans ?_
    refine (if_neg hseeded).trans ?_
    refine (if_neg (mt (bloomMap_iff job).mp (not_not.mpr hbloom))).trans ?_
    refine (if_neg hbound).trans ?_
    refine Eq.symm ?_
    exact findOutcome_eq job iface hid
  · rw [if_neg hseeds]
    split_ifs with hindex hmemlock hopened hloaded hblacklist hbloom hprogs
    any_goals rfl
    -- nothing has stopped the load, so everything was seeded
    all_goals
      refine absurd ⟨?_, ?_, ?_, ?_⟩ hseeds
      · rintro (h | h | h | h)
        · exact hindex h
        · exact hmemlock h
        · exact hopened h
        · exact hloaded h
      · refine (blacklistSeeded_iff job).mp (Bool.eq_true_of_not_eq_false fun hfalse => ?_)
        rw [hfalse] at hblacklist
        exact hblacklist rfl
      · exact not_not.mp (mt (bloomMap_iff job).mpr hbloom)
      · refine (progArraySeeded_iff job).mp (Bool.eq_true_of_not_eq_false fun hfalse => ?_)
        rw [show (job.env.toLoadEnv job.cfg).obj = job.env.obj from rfl, hfalse] at hprogs
        exact hprogs rfl

end Whole

/-! ## Among frames -/

/-- No process but `p` makes a call. -/
def Alone (p : Nat) (e : Event) : Prop := ∀ q, e = .tick q → q = p

def isTick (p : Nat) : Event → Bool
  | .tick q => q = p
  | _ => false

/-- Frames and new processes touch neither the interface nor where a load stands. -/
theorem systemStep_of_not_tick {s s' : System} {e : Event} {o : Option Answer}
    (he : ∀ q, e ≠ .tick q) (h : systemStep s e = .ok (o, s')) :
    s'.iface = s.iface ∧ ∀ p l, s.HasLoad p l → ∃ l', s'.HasLoad p l' ∧ l'.job = l.job ∧ l'.pc = l.pc := by
  cases e with
  | load job =>
    cases h
    exact ⟨rfl, fun p l hl => ⟨l, hasLoad_append _ hl, rfl, rfl⟩⟩
  | unload job =>
    cases h
    exact ⟨rfl, fun p l hl => ⟨l, hasLoad_append _ hl, rfl, rfl⟩⟩
  | tick q => exact absurd rfl (he q)
  | frame mode cpu f =>
    unfold systemStep System.serve at h
    dsimp only at h
    split at h
    · cases h
      exact ⟨rfl, fun p l hl => ⟨l, hl, rfl, rfl⟩⟩
    · rename_i a ha
      split at h
      · rename_i m hm
        obtain ⟨⟨verdict, maps⟩, -, h⟩ := bind_eq_ok h
        cases h
        have hp := (List.getElem?_eq_some_iff.mp hm).1
        refine ⟨rfl, fun p l hl => ?_⟩
        by_cases hq : p = a.prog
        · subst hq
          rw [HasLoad.unique hm hl]
          exact ⟨_, (hasLoad_set_self hp).mpr rfl, rfl, rfl⟩
        · exact ⟨l, (hasLoad_set_of_ne _ hq).mpr hl, rfl, rfl⟩
      · cases h
        exact ⟨rfl, fun p l hl => ⟨l, hl, rfl, rfl⟩⟩

theorem jobsKept_step {s s' : System} {e : Event} {o : Option Answer}
    (h : systemStep s e = .ok (o, s')) : JobsKept s s' := by
  by_cases he : ∃ q, e = .tick q
  · obtain ⟨q, rfl⟩ := he
    cases h
    exact jobsKept_tick s q
  · intro p l hl
    obtain ⟨l', hl', hjob, -⟩ := (systemStep_of_not_tick (fun q hq => he ⟨q, hq⟩) h).2 p l hl
    exact ⟨l', hl', hjob⟩

/-- One event beside which load `p` is alone: a call of its own, or nothing that it sees. -/
theorem load_step {s s' : System} {e : Event} {o : Option Answer} {p : Nat} {l : Load}
    (halone : Alone p e) (hl : s.HasLoad p l) (h : systemStep s e = .ok (o, s')) :
    ∃ l', s'.HasLoad p l' ∧ l'.job = l.job ∧
      ((isTick p e = false ∧ l'.pc = l.pc ∧ s'.iface = s.iface) ∨
        isTick p e = true ∧
          ∃ maps', loadTick p l.job l.pc l.object.shared s.iface = (l'.pc, maps', s'.iface)) := by
  by_cases he : ∃ q, e = .tick q
  · obtain ⟨q, rfl⟩ := he
    obtain rfl := halone q rfl
    have hproc : s.procs[q]? = some (.load l) := hl
    have hp := (List.getElem?_eq_some_iff.mp hproc).1
    cases h
    unfold System.tick
    rw [hproc]
    exact ⟨_, (hasLoad_set_self hp).mpr rfl, rfl, .inr ⟨decide_eq_true rfl, _, rfl⟩⟩
  · have hno : ∀ q, e ≠ .tick q := fun q hq => he ⟨q, hq⟩
    obtain ⟨hiface, hloads⟩ := systemStep_of_not_tick hno h
    obtain ⟨l', hl', hjob, hpc⟩ := hloads p l hl
    refine ⟨l', hl', hjob, .inl ⟨?_, hpc, hiface⟩⟩
    cases e with
    | tick q => exact absurd rfl (hno q)
    | _ => rfl

/-- A run beside which load `p` is alone. -/
theorem alone_run {p : Nat} (events : List Event) {s s' : System} {l : Load}
    {outs : List (Event × Option Answer)} (halone : ∀ e ∈ events, Alone p e) (hl : s.HasLoad p l)
    (h : runOutputs systemStep events s = .ok (outs, s')) :
    ∃ l', s'.HasLoad p l' ∧ l'.job = l.job ∧
      outcome p l.job s'.iface l'.pc = outcome p l.job s.iface l.pc ∧
      left l.job l'.pc ≤ left l.job l.pc - events.countP (isTick p) := by
  induction events generalizing s l outs with
  | nil =>
    cases h
    exact ⟨l, hl, rfl, rfl, le_rfl⟩
  | cons e events ih =>
    obtain ⟨⟨o, s1⟩, hstep, h⟩ := bind_eq_ok h
    obtain ⟨⟨os, s2⟩, hrest, h⟩ := bind_eq_ok h
    cases h
    obtain ⟨l1, hl1, hjob1, hmove⟩ := load_step (halone e (.head _)) hl hstep
    have hfirst : outcome p l.job s1.iface l1.pc = outcome p l.job s.iface l.pc ∧
        left l.job l1.pc ≤ left l.job l.pc - if isTick p e then 1 else 0 := by
      rcases hmove with ⟨hno, hpc, hiface⟩ | ⟨htick, maps', hcall⟩
      · rw [hpc, hiface, hno]
        exact ⟨rfl, le_rfl⟩
      · rw [htick]
        exact ⟨outcome_tick hcall, left_tick hcall⟩
    obtain ⟨hout1, hleft1⟩ := hfirst
    obtain ⟨l2, hl2, hjob2, hout2, hleft2⟩ := ih (fun e he => halone e (.tail _ he)) hl1 hrest
    rw [hjob1] at hjob2 hout2 hleft2
    refine ⟨l2, hl2, hjob2, hout2.trans hout1, ?_⟩
    rw [List.countP_cons]
    omega

/-! ## Runs without a fault -/

/-- A link was attached and is not pinned yet. -/
def LoadPc.linking : LoadPc → Bool
  | .pin _ | .destroy _ => true
  | _ => false

theorem linking_nextAttempt (rest : List XdpMode) : (nextAttempt rest).linking = false := by
  cases rest <;> rfl

/-- A call before the first attempt leaves the interface alone. -/
theorem loadTick_early {p : Nat} {job : LoadJob} {pc pc' : LoadPc} {maps maps' : Maps}
    {iface iface' : Interface} (hpc : pc.early = true)
    (h : loadTick p job pc maps iface = (pc', maps', iface')) :
    iface' = iface ∧ pc'.linking = false := by
  cases pc with
  | setup =>
    unfold loadTick at h
    dsimp only at h
    split_ifs at h <;> cases h <;> exact ⟨rfl, rfl⟩
  | blacklist i =>
    unfold loadTick at h
    dsimp only at h
    split at h
    · cases h
      exact ⟨rfl, rfl⟩
    · split at h
      · cases h
        exact ⟨rfl, rfl⟩
      · split_ifs at h <;> cases h <;> exact ⟨rfl, rfl⟩
  | bloom i =>
    unfold loadTick at h
    dsimp only at h
    split_ifs at h <;> cases h <;> exact ⟨rfl, rfl⟩
  | progs i =>
    unfold loadTick at h
    dsimp only at h
    split at h
    · cases h
      exact ⟨rfl, rfl⟩
    · split at h <;> cases h <;> exact ⟨rfl, rfl⟩
  | find =>
    unfold loadTick at h
    dsimp only at h
    split_ifs at h <;> cases h
    · exact ⟨rfl, rfl⟩
    · exact ⟨rfl, linking_nextAttempt _⟩
  | _ => cases hpc

/-- No program faults, and every program in a slot was loaded. -/
structure Sound (s : System) : Prop where
  safe : ∀ p l, s.HasLoad p l → l.job.Safe
  slots : ∀ mode a, s.iface.slot mode = some a → ∃ l, s.HasLoad a.prog l

theorem sound_initial : Sound System.initial where
  safe p l h := by cases h
  slots mode a h := by cases h

section Sound

variable {s : System} (h : Sound s)

include h

theorem Sound.start {new : Proc} (hnew : ∀ l, new = .load l → l.job.Safe) :
    Sound { s with procs := s.procs ++ [new] } := by
  constructor
  · intro p l hl
    rcases hasLoad_append_cases hl with hold | ⟨-, hlast⟩
    · exact h.safe p l hold
    · exact hnew l hlast
  · intro mode a ha
    obtain ⟨l, hl⟩ := h.slots mode a ha
    exact ⟨l, hasLoad_append new hl⟩

/-- One load changes, and puts no program but its own in a slot. -/
theorem Sound.replace {p : Nat} {l : Load} (hl : s.HasLoad p l) (l' : Load) (hjob : l'.job = l.job)
    {iface : Interface}
    (hslots : ∀ mode a, iface.slot mode = some a → s.iface.slot mode = some a ∨ a.prog = p) :
    Sound ⟨iface, s.procs.set p (.load l')⟩ := by
  have hp := (List.getElem?_eq_some_iff.mp hl).1
  constructor
  · intro q m hm
    by_cases hq : q = p
    · subst hq
      rw [(hasLoad_set_self hp).mp hm, hjob]
      exact h.safe q l hl
    · exact h.safe q m ((hasLoad_set_of_ne _ hq).mp hm)
  · intro mode a ha
    by_cases hprog : a.prog = p
    · rw [hprog]
      exact ⟨l', (hasLoad_set_self hp).mpr rfl⟩
    · obtain ⟨m, hm⟩ := h.slots mode a ((hslots mode a ha).resolve_right hprog)
      exact ⟨m, (hasLoad_set_of_ne _ hprog).mpr hm⟩

theorem Sound.tick (p : Nat) : Sound (s.tick p) := by
  unfold System.tick
  cases hproc : s.procs[p]? with
  | none => exact h
  | some proc =>
    cases proc with
    | load l =>
      dsimp only
      refine h.replace hproc ⟨l.job, _, { l.object with shared := _ }⟩ (by rfl) fun mode a ha => ?_
      cases hearly : l.pc.early with
      | true =>
        obtain ⟨hsame, -⟩ := loadTick_early hearly (rfl : loadTick p l.job l.pc l.object.shared s.iface = _)
        exact .inl (hsame ▸ ha)
      | false =>
        have hseeded : l.pc.seeding = false := by
          cases hpc : l.pc <;> rw [hpc] at hearly <;> first | rfl | cases hearly
        exact (loadTick_attaching hseeded rfl).2.2.2 mode a ha
    | unload job pc =>
      refine ⟨fun q m hm => h.safe q m ((hasLoad_set_unload hproc).mp hm), fun mode a ha => ?_⟩
      obtain ⟨m, hm⟩ := h.slots mode a (unloadTick_slots rfl mode a ha)
      exact ⟨m, (hasLoad_set_unload hproc).mpr hm⟩

/-- An event goes through, and leaves the invariant. -/
theorem Sound.step (e : Event) (hsafe : ∀ job, e = .load job → job.Safe) :
    ∃ o s', systemStep s e = .ok (o, s') ∧ Sound s' := by
  cases e with
  | load job =>
    refine ⟨none, _, rfl, h.start ?_⟩
    rintro l ⟨⟩
    exact hsafe job rfl
  | unload job =>
    refine ⟨none, _, rfl, h.start ?_⟩
    rintro l ⟨⟩
  | tick p => exact ⟨none, _, rfl, h.tick p⟩
  | frame mode cpu frame =>
    unfold systemStep System.serve
    dsimp only
    cases hslot : s.iface.slot mode with
    | none => exact ⟨none, s, rfl, h⟩
    | some a =>
      obtain ⟨l, hl⟩ := h.slots mode a hslot
      obtain ⟨⟨verdict, maps⟩, hstep, -⟩ := h.safe _ l hl (l.object.view cpu) frame
      have hproc : s.procs[a.prog]? = some (.load l) := hl
      dsimp only
      rw [hproc]
      dsimp only
      rw [hstep]
      exact ⟨_, _, rfl, h.replace hl { l with object := l.object.store cpu maps } rfl fun _ _ => .inl⟩

end Sound

theorem sound_run (events : List Event) {s : System} (h : Sound s)
    (hsafe : ∀ job, .load job ∈ events → job.Safe) :
    ∃ outs s', runOutputs systemStep events s = .ok (outs, s') ∧ Sound s' := by
  induction events generalizing s with
  | nil => exact ⟨[], s, rfl, h⟩
  | cons e events ih =>
    obtain ⟨o, s1, hstep, h1⟩ := h.step e fun job he => hsafe job (he ▸ .head _)
    obtain ⟨outs, s', hrun, h'⟩ := ih h1 fun job hjob => hsafe job (.tail _ hjob)
    refine ⟨(e, o) :: outs, s', ?_, h'⟩
    rw [runOutputs, hstep, ok_bind]
    dsimp only
    rw [hrun, ok_bind]

/-- The state in which a load has just started. -/
def System.started (s : System) (job : LoadJob) : System :=
  { s with procs := s.procs ++ [.load ⟨job, .setup, .created⟩] }

theorem hasLoad_started (s : System) (job : LoadJob) :
    (s.started job).HasLoad s.procs.length ⟨job, .setup, .created⟩ := List.getElem?_concat_length ..

/-- A load after a history: every slot has a program that was loaded, and what comes after it runs. -/
theorem load_after {before events : List Event} {job : LoadJob}
    (hsafe : ∀ j, .load j ∈ before ++ .load job :: events → j.Safe)
    {outs0 : List (Event × Option Answer)} {s0 : System}
    (hbefore : runOutputs systemStep before System.initial = .ok (outs0, s0)) :
    Sound s0 ∧ ∃ outs s',
      runOutputs systemStep events (s0.started job) = .ok (outs, s') ∧
      runOutputs systemStep (.load job :: events) s0 = .ok ((.load job, none) :: outs, s') := by
  obtain ⟨outs1, s1, h1, hsound⟩ := sound_run before sound_initial
    fun j hj => hsafe j (List.mem_append_left _ hj)
  obtain ⟨rfl, rfl⟩ := Prod.mk.inj (Except.ok.inj (hbefore.symm.trans h1))
  have hstarted : Sound (s0.started job) := by
    refine hsound.start ?_
    rintro l ⟨⟩
    exact hsafe job (List.mem_append_right _ (.head _))
  obtain ⟨outs, s', hrun, -⟩ := sound_run events hstarted
    fun j hj => hsafe j (List.mem_append_right _ (.tail _ hj))
  refine ⟨hsound, outs, s', hrun, ?_⟩
  have hload : systemStep s0 (.load job) = .ok (none, s0.started job) := rfl
  rw [runOutputs, hload, ok_bind]
  dsimp only
  rw [hrun, ok_bind]

/-- **A load among frames is the load in one piece.** When no loaded program faults: after any history
    of loads, unloads and frames, a load during which no other process makes a call, and which makes as
    many calls as it can need, has returned; its result and the interface it leaves are those of
    `zereh_load_and_swap_xdp` on the interface it found, whatever frames came in between. -/
theorem swap_refines (before events : List Event) (job : LoadJob)
    (hsafe : ∀ j, .load j ∈ before ++ .load job :: events → j.Safe)
    (outs0 : List (Event × Option Answer)) (s0 : System)
    (hbefore : runOutputs systemStep before System.initial = .ok (outs0, s0))
    (hid : ∀ prog, job.env.obj.findProgramByName job.cfg.xdpSection.bytes = some prog →
      prog = s0.procs.length)
    (halone : ∀ e ∈ events, Alone s0.procs.length e)
    (hticks : left job .setup ≤ events.countP (isTick s0.procs.length)) :
    ∃ outs s' l rc, runOutputs systemStep (.load job :: events) s0 = .ok (outs, s') ∧
      s'.HasLoad s0.procs.length l ∧ l.job = job ∧ l.pc = .done rc ∧
      (rc, s'.iface) =
        loadAndSwapXdp job.cfg job.ifnameOverride (job.env.toLoadEnv job.cfg) s0.iface := by
  obtain ⟨-, outs, s', hrest, hrun⟩ := load_after hsafe hbefore
  obtain ⟨l, hl, hjob, hout, hleft⟩ := alone_run events halone (hasLoad_started s0 job) hrest
  obtain ⟨rc, hrc⟩ : ∃ rc, l.pc = .done rc := eq_done_of_left job (by dsimp only at hleft; omega)
  refine ⟨_, s', l, rc, hrun, hl, hjob, hrc, ?_⟩
  rw [hrc] at hout
  exact hout.trans (outcome_setup job s0.iface hid)

/-- A query to the native slot. -/
def nativeQuery : Event := .frame .native 0 ⟨⟨0, 0, 0⟩, questionFrame [1, 97]⟩

/-- The ticks of the first process, and a query among them. -/
def sampleTicks : List Event :=
  List.replicate 600 (.tick 0) ++ nativeQuery :: List.replicate 600 (.tick 0)

theorem mem_sampleTicks {e : Event} (h : e ∈ sampleTicks) : e = .tick 0 ∨ e = nativeQuery := by
  rcases List.mem_append.mp h with htick | hrest
  · exact .inl (List.eq_of_mem_replicate htick)
  · rcases List.mem_cons.mp hrest with hquery | htick
    · exact .inr hquery
    · exact .inl (List.eq_of_mem_replicate htick)

theorem alone_sampleTicks (e : Event) (h : e ∈ sampleTicks) : Alone 0 e := by
  rintro q rfl
  rcases mem_sampleTicks h with htick | hquery
  · cases htick
    rfl
  · cases hquery

theorem safe_sampleTicks (job : LoadJob) (h : .load job ∈ .load sampleJob :: sampleTicks) :
    job.Safe := by
  rcases List.mem_cons.mp h with hload | hmem
  · cases hload
    exact sampleJob_good.safe
  · rcases mem_sampleTicks hmem with htick | hquery
    · cases htick
    · cases hquery

theorem countP_sampleTicks : left sampleJob .setup ≤ sampleTicks.countP (isTick 0) := by
  have hticks : (List.replicate 600 (Event.tick 0)).countP (isTick 0) = 600 := by
    rw [List.countP_replicate]
    rfl
  unfold sampleTicks
  rw [List.countP_append, List.countP_cons, hticks]
  decide

theorem outcome_sampleJob : outcome 0 sampleJob .empty .setup = (0, nativeLinked 0 none) := by
  have hseeds : SeedsFrom sampleJob .setup := by
    refine ⟨by decide, fun j cidr _ h => ?_, fun _ _ _ => rfl, fun j r _ hr htarget => ?_⟩
    · cases h
    · obtain rfl := List.mem_singleton.mp (List.mem_of_getElem? hr)
      cases htarget
  rw [outcome_early rfl, if_pos hseeds]
  refine congrArg (Prod.mk 0) (congrArg₂ Interface.mk (funext fun mode => ?_) rfl)
  cases mode <;> rfl

/-- The load among the ticks has returned 0, with the program behind a link in native. -/
theorem swap_refines_sample :
    ∃ outs s' l, runOutputs systemStep (.load sampleJob :: sampleTicks) System.initial =
      .ok (outs, s') ∧ s'.HasLoad 0 l ∧ l.pc = .done 0 ∧ s'.iface = nativeLinked 0 none := by
  have hid : ∀ prog, sampleJob.env.obj.findProgramByName sampleJob.cfg.xdpSection.bytes = some prog →
      prog = 0 := by
    rintro prog ⟨⟩
    rfl
  obtain ⟨outs, s', l, rc, hrun, hl, -, hpc, hload⟩ := swap_refines [] sampleTicks sampleJob
    safe_sampleTicks [] System.initial rfl hid alone_sampleTicks countP_sampleTicks
  rw [← outcome_setup sampleJob _ hid, show System.initial.iface = .empty from rfl,
    outcome_sampleJob] at hload
  obtain ⟨rfl, hiface⟩ := Prod.mk.inj hload
  exact ⟨outs, s', l, hrun, hl, hpc, hiface⟩

/-! ## No gap -/

/-- The slot has its old program, and a link that may be taken back is not in it. -/
def OldThere (mode : XdpMode) (a : Attached) (job : LoadJob) (pc : LoadPc) (iface : Interface) : Prop :=
  iface.slot mode = some a ∧ (pc.linking = true → job.env.replies.linkMode ≠ mode)

/-- The slot has the new program, and the load has ended. -/
def NewThere (mode : XdpMode) (p : Nat) (pc : LoadPc) (iface : Interface) : Prop :=
  (∃ linked, iface.slot mode = some ⟨p, linked⟩) ∧ ∃ rc, pc = .done rc

section Gap

variable {mode : XdpMode} {a : Attached} {p : Nat} {job : LoadJob} {pc pc' : LoadPc}
  {maps maps' : Maps} {iface iface' : Interface}

theorem oldThere_of_not_linking (h : iface.slot mode = some a) (hpc : pc.linking = false) :
    OldThere mode a job pc iface := by
  refine ⟨h, fun hlinking => ?_⟩
  rw [hpc] at hlinking
  cases hlinking

/-- A program in a slot is the old one, or the new one and then the load has ended. -/
theorem oldThere_set {slot : XdpMode} {linked : Bool} (h : iface.slot mode = some a) :
    OldThere mode a job (.done 0) (iface.set slot (some ⟨p, linked⟩)) ∨
      NewThere mode p (.done 0) (iface.set slot (some ⟨p, linked⟩)) := by
  by_cases hmode : mode = slot
  · subst hmode
    exact .inr ⟨⟨linked, set_slot_self⟩, 0, rfl⟩
  · exact .inl (oldThere_of_not_linking ((set_slot_of_ne hmode).trans h) rfl)

/-- A call of the load keeps the old program in the slot, or puts the new one there and is its last. -/
theorem oldThere_tick (hold : OldThere mode a job pc iface)
    (h : loadTick p job pc maps iface = (pc', maps', iface')) :
    OldThere mode a job pc' iface' ∨ NewThere mode p pc' iface' := by
  obtain ⟨hslot, hlink⟩ := hold
  cases hearly : pc.early with
  | true =>
    obtain ⟨rfl, hno⟩ := loadTick_early hearly h
    exact .inl (oldThere_of_not_linking hslot hno)
  | false =>
    cases pc with
    | setup => cases hearly
    | blacklist i => cases hearly
    | bloom i => cases hearly
    | progs i => cases hearly
    | find => cases hearly
    | attempt mode' rest =>
      unfold loadTick at h
      dsimp only at h
      split_ifs at h
      · cases h
        exact .inl (oldThere_of_not_linking hslot rfl)
      · split at h
        · cases h
          exact .inl (oldThere_of_not_linking hslot rfl)
        · split_ifs at h <;> cases h
          · exact .inl (oldThere_of_not_linking hslot (linking_nextAttempt rest))
          · exact .inl (oldThere_of_not_linking hslot rfl)
    | attach mode' old rest =>
      unfold loadTick bpfXdpAttach at h
      dsimp only at h
      split at h
      · rename_i attached hattach
        split_ifs at hattach
        cases hattach
        cases h
        exact oldThere_set hslot
      · cases h
        exact .inl (oldThere_of_not_linking hslot (linking_nextAttempt rest))
    | update slot rest =>
      unfold loadTick at h
      dsimp only at h
      split at h
      · rename_i updated hupdate
        obtain ⟨-, rfl⟩ := bpfLinkUpdate_some hupdate
        cases h
        exact oldThere_set hslot
      · cases h
        exact .inl (oldThere_of_not_linking hslot (linking_nextAttempt rest))
    | link rest =>
      unfold loadTick at h
      dsimp only at h
      split at h
      · rename_i attached hattach
        -- the link went to a free slot, and this one is not
        obtain ⟨-, hfree, rfl⟩ := bpfProgramAttachXdp_some hattach
        cases h
        have hne : mode ≠ job.env.replies.linkMode := by
          rintro rfl
          rw [hslot] at hfree
          cases hfree
        exact .inl ⟨(set_slot_of_ne hne).trans hslot, fun _ => hne.symm⟩
      · cases h
        exact .inl (oldThere_of_not_linking hslot (linking_nextAttempt rest))
    | pin rest =>
      unfold loadTick at h
      dsimp only at h
      split at h
      · rename_i pinned hpin
        obtain ⟨-, -, rfl⟩ := bpfLinkPin_some hpin
        cases h
        exact .inl (oldThere_of_not_linking hslot rfl)
      · cases h
        exact .inl ⟨hslot, fun _ => hlink rfl⟩
    | destroy rest =>
      cases h
      have hne := hlink rfl
      exact .inl (oldThere_of_not_linking ((set_slot_of_ne hne.symm).trans hslot)
        (linking_nextAttempt rest))
    | done rc =>
      cases h
      exact .inl ⟨hslot, hlink⟩

/-- When the load has ended, nothing is changed any more. -/
theorem newThere_tick (hnew : NewThere mode p pc iface)
    (h : loadTick p job pc maps iface = (pc', maps', iface')) : NewThere mode p pc' iface' := by
  obtain ⟨hslot, rc, rfl⟩ := hnew
  cases h
  exact ⟨hslot, rc, rfl⟩

end Gap

/-- Who answered each frame that came to a slot. -/
def servedAt (mode : XdpMode) (outs : List (Event × Option Answer)) : List (Option Nat) :=
  outs.filterMap fun eo =>
    match eo.1 with
    | .frame m _ _ => if m = mode then some (eo.2.map (·.prog)) else none
    | _ => none

/-- The program in a slot answers what comes there. -/
theorem servedAt_step {s s' : System} {mode : XdpMode} {a : Attached} {l : Load} {e : Event}
    {o : Option Answer} (ha : s.iface.slot mode = some a) (hl : s.HasLoad a.prog l)
    (h : systemStep s e = .ok (o, s')) (outs : List (Event × Option Answer)) :
    servedAt mode ((e, o) :: outs) = servedAt mode outs ∨
      servedAt mode ((e, o) :: outs) = some a.prog :: servedAt mode outs := by
  cases e with
  | load job => exact .inl rfl
  | unload job => exact .inl rfl
  | tick q => exact .inl rfl
  | frame m cpu f =>
    by_cases hm : m = mode
    · subst hm
      have hproc : s.procs[a.prog]? = some (.load l) := hl
      unfold systemStep System.serve at h
      dsimp only at h
      rw [ha] at h
      dsimp only at h
      rw [hproc] at h
      obtain ⟨⟨verdict, maps⟩, -, h⟩ := bind_eq_ok h
      cases h
      exact .inr (List.filterMap_cons_some (if_pos rfl))
    · exact .inl (List.filterMap_cons_none (if_neg hm))

section Runs

variable {mode : XdpMode} {p : Nat} {l : Load} {s s' : System} {outs : List (Event × Option Answer)}

/-- From the end of the load on the new program answers. -/
theorem newThere_run (events : List Event) (halone : ∀ e ∈ events, Alone p e) (hl : s.HasLoad p l)
    (hnew : NewThere mode p l.pc s.iface) (h : runOutputs systemStep events s = .ok (outs, s')) :
    ∃ n, servedAt mode outs = List.replicate n (some p) := by
  induction events generalizing s l outs with
  | nil =>
    cases h
    exact ⟨0, rfl⟩
  | cons e events ih =>
    obtain ⟨⟨o, s1⟩, hstep, h⟩ := bind_eq_ok h
    obtain ⟨⟨os, s2⟩, hrest, h⟩ := bind_eq_ok h
    cases h
    obtain ⟨l1, hl1, hjob, hmove⟩ := load_step (halone e (.head _)) hl hstep
    have hnew1 : NewThere mode p l1.pc s1.iface := by
      rcases hmove with ⟨-, hpc, hiface⟩ | ⟨-, maps', hcall⟩
      · rwa [hpc, hiface]
      · exact newThere_tick hnew hcall
    obtain ⟨n, hn⟩ := ih (fun e he => halone e (.tail _ he)) hl1 hnew1 hrest
    obtain ⟨⟨linked, hslot⟩, -⟩ := hnew
    rcases servedAt_step hslot hl hstep os with hskip | hserved
    · exact ⟨n, hskip.trans hn⟩
    · exact ⟨n + 1, by rw [hserved, hn, List.replicate_succ]⟩

/-- Until then the old one does. -/
theorem oldThere_run {a : Attached} {m : Load} (events : List Event) (halone : ∀ e ∈ events, Alone p e)
    (hl : s.HasLoad p l) (ha : s.HasLoad a.prog m) (hold : OldThere mode a l.job l.pc s.iface)
    (h : runOutputs systemStep events s = .ok (outs, s')) :
    ∃ k n, servedAt mode outs = List.replicate k (some a.prog) ++ List.replicate n (some p) := by
  induction events generalizing s l m outs with
  | nil =>
    cases h
    exact ⟨0, 0, rfl⟩
  | cons e events ih =>
    obtain ⟨⟨o, s1⟩, hstep, h⟩ := bind_eq_ok h
    obtain ⟨⟨os, s2⟩, hrest, h⟩ := bind_eq_ok h
    cases h
    obtain ⟨l1, hl1, hjob, hmove⟩ := load_step (halone e (.head _)) hl hstep
    obtain ⟨m1, hm1, -⟩ := jobsKept_step hstep a.prog m ha
    have hnext : OldThere mode a l1.job l1.pc s1.iface ∨ NewThere mode p l1.pc s1.iface := by
      rcases hmove with ⟨-, hpc, hiface⟩ | ⟨-, maps', hcall⟩
      · rw [hpc, hiface, hjob]
        exact .inl hold
      · rw [hjob]
        exact oldThere_tick hold hcall
    have hrest' : ∃ k n, servedAt mode os =
        List.replicate k (some a.prog) ++ List.replicate n (some p) := by
      rcases hnext with hold1 | hnew1
      · exact ih (fun e he => halone e (.tail _ he)) hl1 hm1 hold1 hrest
      · obtain ⟨n, hn⟩ := newThere_run events (fun e he => halone e (.tail _ he)) hl1 hnew1 hrest
        exact ⟨0, n, hn⟩
    obtain ⟨k, n, hkn⟩ := hrest'
    rcases servedAt_step hold.1 ha hstep os with hskip | hserved
    · exact ⟨k, n, hskip.trans hkn⟩
    · exact ⟨k + 1, n, by rw [hserved, hkn, List.replicate_succ, List.cons_append]⟩

end Runs

/-- **No frame falls through a swap.** When no loaded program faults: after any history, during a load
    in which no other process makes a call, whatever its mode, its fallbacks and the answers of the
    kernel, every frame that comes to a slot with a program is answered, by the program that was there
    up to some frame and by the new one from there on. -/
theorem swap_no_gap (before events : List Event) (job : LoadJob)
    (hsafe : ∀ j, .load j ∈ before ++ .load job :: events → j.Safe)
    (outs0 : List (Event × Option Answer)) (s0 : System)
    (hbefore : runOutputs systemStep before System.initial = .ok (outs0, s0))
    (halone : ∀ e ∈ events, Alone s0.procs.length e) :
    ∃ outs s', runOutputs systemStep (.load job :: events) s0 = .ok (outs, s') ∧
      ∀ mode a, s0.iface.slot mode = some a → ∃ k n, servedAt mode outs =
        List.replicate k (some a.prog) ++ List.replicate n (some s0.procs.length) := by
  obtain ⟨hsound, outs, s', hrest, hrun⟩ := load_after hsafe hbefore
  refine ⟨_, s', hrun, fun mode a ha => ?_⟩
  obtain ⟨m, hm⟩ := hsound.slots mode a ha
  have hold : OldThere mode a job .setup (s0.started job).iface := oldThere_of_not_linking ha rfl
  obtain ⟨k, n, hkn⟩ := oldThere_run events halone (hasLoad_started s0 job) (hasLoad_append _ hm) hold
    hrest
  exact ⟨k, n, hkn⟩

/-- The first load has ended; while a second one makes its first call, the query is answered by the
    program of the first or of the second. -/
theorem swap_no_gap_sample : ∃ outs0 s0 outs s',
    runOutputs systemStep (.load sampleJob :: sampleTicks) System.initial = .ok (outs0, s0) ∧
    s0.iface.slot .native = some ⟨0, true⟩ ∧
    runOutputs systemStep [.load sampleJob, .tick s0.procs.length, nativeQuery] s0 = .ok (outs, s') ∧
    ∃ k n, servedAt .native outs =
      List.replicate k (some 0) ++ List.replicate n (some s0.procs.length) := by
  have hempty : runOutputs systemStep [] System.initial = .ok ([], System.initial) := rfl
  obtain ⟨-, outs0, s0, hrest, hrun0⟩ := load_after safe_sampleTicks hempty
  obtain ⟨l, hl, -, hout, hleft⟩ := alone_run sampleTicks alone_sampleTicks
    (hasLoad_started System.initial sampleJob) hrest
  obtain ⟨rc, hrc⟩ : ∃ rc, l.pc = .done rc := by
    have hticks := countP_sampleTicks
    dsimp only at hleft
    exact eq_done_of_left sampleJob (by omega)
  have hiface : s0.iface = nativeLinked 0 none := by
    rw [hrc] at hout
    exact congrArg Prod.snd (hout.trans outcome_sampleJob)
  have hslot : s0.iface.slot .native = some ⟨0, true⟩ := by
    rw [hiface]
    rfl
  have hlast : ∀ e ∈ [.load sampleJob, .tick s0.procs.length, nativeQuery],
      e = .load sampleJob ∨ e = .tick s0.procs.length ∨ e = nativeQuery := by
    simp only [List.mem_cons, List.not_mem_nil, or_false, imp_self, implies_true]
  obtain ⟨outs, s', hrun, hgap⟩ := swap_no_gap (.load sampleJob :: sampleTicks)
    [.tick s0.procs.length, nativeQuery] sampleJob
    (fun job hjob => by
      rcases List.mem_append.mp hjob with hfirst | hmem
      · exact safe_sampleTicks job hfirst
      · rcases hlast _ hmem with hload | htick | hquery
        · cases hload
          exact sampleJob_good.safe
        · cases htick
        · cases hquery)
    _ s0 hrun0
    (fun e he q hq => by
      rcases hlast e (.tail _ he) with rfl | rfl | rfl
      · cases hq
      · cases hq
        rfl
      · cases hq)
  exact ⟨_, s0, outs, s', hrun0, hslot, hrun, hgap .native _ hslot⟩

end Zereh.Link
