/-
  The releases of `deploy_prod.sh` over whole histories.

  `deploy_prod.sh` and `deploy_canary.sh` start with `make clean`, which removes `build/` and with it the
  releases and `build/xdp`; `make` does not make `build/xdp` again.

  * `at_most_one_release`: after any history of scripts there is at most one release.
  * `rollback_previous_fails`: so `rollback_release.sh` with `previous`, its default, fails and changes
    nothing.
  * `clean_deploy_stops`: a configuration that generates into a directory of `build/` other than those that
    `make` makes is never deployed by `deploy_prod.sh` or `deploy_canary.sh`. The defaults of
    `zereh_config_init_defaults` and `config.yaml` generate into `build/xdp`.
-/
import Zereh.Deploy.Scripts

namespace Zereh.Deploy

open Lib Control

variable {sys : System}

/-! ## Directories -/

/-- At most one directory in `build/release`. -/
def AtMostOne (t : FileTree) : Prop :=
  ∀ p ∈ t.dirs, ∀ q ∈ t.dirs, p.dropLast = releaseBase → q.dropLast = releaseBase → p = q

/-- In `build/` there is no directory but those that `make all` makes. -/
def Fresh (t : FileTree) : Prop := ∀ p ∈ t.dirs, buildDir <+: p → p ∈ [buildDir, generatedDir, binDir]

/-- What `make all` makes is no release. -/
theorem dropLast_ne_of_own {q : Path} (h : q ∈ [buildDir, generatedDir, binDir]) :
    q.dropLast ≠ releaseBase := by
  have hall : ∀ q ∈ [buildDir, generatedDir, binDir], q.dropLast ≠ releaseBase := by decide
  exact hall q h

theorem Fresh.no_release {t : FileTree} (h : Fresh t) {p : Path} (hp : p ∈ t.dirs) :
    p.dropLast ≠ releaseBase := by
  intro hrelease
  have hprefix : buildDir <+: p := by
    have hbase : buildDir <+: releaseBase := List.prefix_append _ _
    exact (hrelease ▸ hbase).trans (List.dropLast_prefix p)
  exact dropLast_ne_of_own (h p hp hprefix) hrelease

theorem Fresh.atMostOne {t : FileTree} (h : Fresh t) : AtMostOne t :=
  fun _ hp _ _ hrelease _ => absurd hrelease (h.no_release hp)

theorem AtMostOne.mono {t t' : FileTree} (h : AtMostOne t) (hsub : ∀ p ∈ t'.dirs, p ∈ t.dirs) :
    AtMostOne t' :=
  fun p hp q hq => h p (hsub p hp) q (hsub q hq)

/-- A command that leaves the directories keeps what only depends on them. -/
theorem keeps_of_dirs {P : FileTree → Prop} {c : Command World}
    (hP : ∀ t t' : FileTree, t'.dirs = t.dirs → P t → P t') (hc : ∀ w, (c w).2.tree.dirs = w.tree.dirs) :
    Triple (fun w => P w.tree) c (fun w => P w.tree) fun w => P w.tree :=
  fun w hw => ⟨fun _ => hP _ _ (hc w) hw, fun _ => hP _ _ (hc w) hw⟩

theorem fresh_congr (t t' : FileTree) (h : t'.dirs = t.dirs) (ht : Fresh t) : Fresh t' := by
  unfold Fresh
  rw [h]
  exact ht

theorem atMostOne_congr (t t' : FileTree) (h : t'.dirs = t.dirs) (ht : AtMostOne t) : AtMostOne t' :=
  ht.mono fun _ hp => h ▸ hp

/-! ## What the commands do to the directories -/

theorem dirs_zerehctl (started : Bool) (proc : Process) (args : List CStr) (w : World) :
    (zerehctl sys started proc args w).2.tree.dirs = w.tree.dirs := by
  unfold zerehctl
  split_ifs
  · exact (main_frame _ args w).dirs
  · rfl

theorem dirs_copy (ok : Bool) (src dst : Path) (w : World) :
    (copy ok src dst w).2.tree.dirs = w.tree.dirs := by
  unfold copy onTree
  dsimp only
  split
  · rfl
  · split_ifs
    · rfl
    · rfl

theorem dirs_foldl {β : Type} {f : FileTree → β → FileTree} (h : ∀ t b, (f t b).dirs = t.dirs) (bs : List β)
    (t : FileTree) : (bs.foldl f t).dirs = t.dirs := by
  induction bs generalizing t with
  | nil => rfl
  | cons b bs ih => exact (ih (f t b)).trans (h t b)

theorem dirs_remove (t : FileTree) (p : Path) : (t.remove p).dirs = t.dirs := rfl

theorem dirs_build (env : MakeEnv) (t : FileTree) (p : Path) : (env.build t p).dirs = t.dirs := by
  unfold MakeEnv.build
  split_ifs
  · rfl
  · rfl

theorem mem_dirs_mkdir {env : MakeEnv} {t : FileTree} {p q : Path} (h : q ∈ (env.mkdir t p).dirs) :
    q <+: p ∨ q ∈ t.dirs := by
  unfold MakeEnv.mkdir at h
  split_ifs at h
  · rcases List.mem_append.mp h with h | h
    · exact .inl (((List.mem_inits _ _).mp h))
    · exact .inr h
  · exact .inr h

theorem mem_dirs_makeFiles {dirs files : List Path} {env : MakeEnv} {w : World} {q : Path}
    (h : q ∈ (makeFiles dirs files env w).2.tree.dirs) : (∃ p ∈ dirs, q <+: p) ∨ q ∈ w.tree.dirs := by
  have hdirs : (makeFiles dirs files env w).2.tree.dirs = (dirs.foldl env.mkdir w.tree).dirs :=
    dirs_foldl (dirs_build env) _ _
  rw [hdirs] at h
  generalize w.tree = t at h ⊢
  induction dirs generalizing t with
  | nil => exact .inr h
  | cons p dirs ih =>
    rcases ih (t := env.mkdir t p) (dirs_foldl (dirs_build env) _ _) h with ⟨p', hp', hpre⟩ | hmem
    · exact .inl ⟨p', .tail _ hp', hpre⟩
    · exact (mem_dirs_mkdir hmem).imp_left fun hpre => ⟨p, .head _, hpre⟩

/-- `make all` makes no directory in `build/` but its own. -/
theorem mem_dirs_makeAll {env : MakeEnv} {w : World} {q : Path} (h : q ∈ (makeAll env w).2.tree.dirs) :
    q = [] ∨ q ∈ [buildDir, generatedDir, binDir] ∨ q ∈ w.tree.dirs := by
  have hown : ∀ p ∈ [generatedDir, binDir], ∀ q ∈ p.inits,
      q = [] ∨ q ∈ [buildDir, generatedDir, binDir] := by decide
  rcases mem_dirs_makeFiles h with ⟨p, hp, hpre⟩ | hmem
  · exact (hown p hp q ((List.mem_inits _ _).mpr hpre)).imp_right .inl
  · exact .inr (.inr hmem)

/-! ## At most one release -/

/-- Whatever `c` does, there is at most one release after it if there was at most one before. -/
def KeepsOne (c : Command World) : Prop :=
  Triple (fun w => AtMostOne w.tree) c (fun w => AtMostOne w.tree) fun w => AtMostOne w.tree

theorem keepsOne_of_dirs {c : Command World} (hc : ∀ w, (c w).2.tree.dirs = w.tree.dirs) : KeepsOne c :=
  keeps_of_dirs atMostOne_congr hc

/-- A target makes no release by itself. -/
theorem keepsOne_makeFiles {dirs : List Path} (files : List Path) (env : MakeEnv)
    (h : ∀ p ∈ dirs, ∀ q ∈ p.inits, q.dropLast ≠ releaseBase) : KeepsOne (makeFiles dirs files env) := by
  have hkeep (w : World) (hw : AtMostOne w.tree) : AtMostOne (makeFiles dirs files env w).2.tree := by
    have hold (q : Path) (hq : q ∈ (makeFiles dirs files env w).2.tree.dirs)
        (hrelease : q.dropLast = releaseBase) : q ∈ w.tree.dirs := by
      rcases mem_dirs_makeFiles hq with ⟨p, hp, hpre⟩ | hold
      · exact absurd hrelease (h p hp q ((List.mem_inits _ _).mpr hpre))
      · exact hold
    intro p hp q hq hprelease hqrelease
    exact hw p (hold p hp hprelease) q (hold q hq hqrelease) hprelease hqrelease
  exact fun w hw => ⟨fun _ => hkeep w hw, fun _ => hkeep w hw⟩

theorem keepsOne_makeAll (env : MakeEnv) : KeepsOne (makeAll env) :=
  keepsOne_makeFiles _ env (by decide)

/-- `make clean` leaves nothing in `build/`, or fails and leaves a part. -/
theorem triple_makeClean (left : Option (Path → Bool)) :
    Triple (fun w => AtMostOne w.tree) (makeClean left) (fun w => Fresh w.tree)
      fun w => AtMostOne w.tree := by
  intro w hw
  unfold makeClean onTree
  cases left with
  | some left =>
    refine ⟨fun h => absurd h Bool.false_ne_true, fun _ => ?_⟩
    exact hw.mono fun p hp => (FileTree.mem_dirs_removeAll hp).1
  | none =>
    refine ⟨fun _ p hp hbuild => ?_, fun h => absurd h.symm Bool.false_ne_true⟩
    have hdirs : (cleanedFiles.foldl FileTree.remove (w.tree.removeAll buildDir fun _ => false)).dirs =
        (w.tree.removeAll buildDir fun _ => false).dirs := dirs_foldl dirs_remove _ _
    exact absurd ((FileTree.mem_dirs_removeAll (hdirs ▸ hp)).2 hbuild) Bool.false_ne_true

theorem Fresh.makeAll {w : World} (h : Fresh w.tree) (env : MakeEnv) :
    Fresh (Deploy.makeAll env w).2.tree := by
  intro p hp hbuild
  rcases mem_dirs_makeAll hp with rfl | hown | hold
  · exact absurd hbuild (by decide)
  · exact hown
  · exact h p hold hbuild

theorem triple_makeAll_fresh (env : MakeEnv) :
    Triple (fun w => Fresh w.tree) (makeAll env) (fun w => Fresh w.tree) fun w => AtMostOne w.tree :=
  fun _ hw => ⟨fun _ => hw.makeAll env, fun _ => (hw.makeAll env).atMostOne⟩

/-- A release directory in a tree without releases is the only one. -/
theorem triple_mkdirAll (ok : Bool) (name : List UInt8) :
    Triple (fun w => Fresh w.tree) (mkdirAll ok (releaseBase ++ [name])) (fun w => AtMostOne w.tree)
      fun w => AtMostOne w.tree := by
  intro w hw
  unfold mkdirAll onTree
  cases ok with
  | false => exact ⟨fun _ => hw.atMostOne, fun _ => hw.atMostOne⟩
  | true =>
    have hone (p : Path) (hp : p ∈ (w.tree.mkdirAll (releaseBase ++ [name])).dirs)
        (hrelease : p.dropLast = releaseBase) : p = releaseBase ++ [name] := by
      rcases List.mem_append.mp hp with hp | hp
      · rcases List.prefix_concat_iff.mp ((List.mem_inits _ _).mp hp) with hp | hp
        · exact hp
        · have hlength := congrArg List.length hrelease
          have hle := hp.length_le
          rw [List.length_dropLast] at hlength
          rw [show releaseBase.length = 2 from rfl] at hlength hle
          omega
      · exact absurd hrelease (hw.no_release hp)
    have hkeep : AtMostOne (w.tree.mkdirAll (releaseBase ++ [name])) := fun p hp q hq hprelease hqrelease =>
      (hone p hp hprelease).trans (hone q hq hqrelease).symm
    exact ⟨fun _ => hkeep, fun _ => hkeep⟩

theorem keepsOne_whenever {p : World → Bool} {cs : List (Command World)} (h : ∀ c ∈ cs, KeepsOne c) :
    KeepsOne (whenever p cs) :=
  Triple.whenever (Triple.imp (Triple.script h) (fun _ hw => hw.1) (fun _ hw => hw) fun _ hw => hw)
    fun _ hw _ => hw

theorem keepsOne_zerehctl (started : Bool) (proc : Process) (args : List CStr) :
    KeepsOne (zerehctl sys started proc args) := keepsOne_of_dirs (dirs_zerehctl started proc args)

theorem keepsOne_require (p : World → Bool) : KeepsOne (require p) := keepsOne_of_dirs fun _ => rfl

theorem keepsOne_depsCheck (ok : Bool) : KeepsOne (makeDepsCheck ok) := keepsOne_of_dirs fun _ => rfl

theorem keepsOne_deployDev (env : ScriptEnv) (configArg iface : CStr) :
    KeepsOne (deployDev sys env configArg iface) := by
  exact .cons (keepsOne_depsCheck _) <| .cons (keepsOne_makeAll _) <|
    .cons (keepsOne_zerehctl _ _ _) <| .cons (keepsOne_zerehctl _ _ _) <| .nil fun _ hw => hw

theorem keepsOne_healthCheck (env : ScriptEnv) (linkShown : Bool) (configArg iface withLoad : CStr) :
    KeepsOne (healthCheck sys env linkShown configArg iface withLoad) := by
  have hlink := keepsOne_whenever (p := fun _ => decide (iface.bytes ≠ []))
    fun c (hc : c ∈ [require fun _ => linkShown]) =>
      List.mem_singleton.mp hc ▸ keepsOne_require fun _ => linkShown
  refine .cons (keepsOne_require _) <| .cons (keepsOne_require _) <| .cons (keepsOne_depsCheck _) <|
    .cons (keepsOne_makeAll _) <| .cons (keepsOne_zerehctl _ _ _) <|
    .cons (keepsOne_zerehctl _ _ _) <| .cons (keepsOne_require _) <| .cons hlink <| .cons ?_ <|
    .nil fun _ hw => hw
  refine keepsOne_whenever fun c hc => ?_
  rw [List.mem_cons, List.mem_singleton] at hc
  rcases hc with rfl | rfl
  · exact keepsOne_require _
  · exact keepsOne_zerehctl _ _ _

/-- From the clean on, up to the first load: the directory of a new release is the only one. -/
theorem keepsOne_deployProd (env : ReleaseEnv) (configArg iface : CStr) :
    KeepsOne (deployProd sys env configArg iface) := by
  have hgenerate (config : CStr) : Triple (fun w => Fresh w.tree)
      (zerehctl sys env.started env.generate (generateArgs config)) (fun w => Fresh w.tree)
      fun w => AtMostOne w.tree :=
    Triple.imp (keeps_of_dirs fresh_congr (dirs_zerehctl _ _ _)) (fun _ hw => hw) (fun _ hw => hw)
      fun _ hw => hw.atMostOne
  have hcopy (ok : Bool) (src dst : Path) : KeepsOne (copy ok src dst) :=
    keepsOne_of_dirs (dirs_copy ok src dst)
  have hkeep (ok : Bool) (src dst : Path) : KeepsOne (whenever (isFile src) [copy ok src dst]) :=
    keepsOne_whenever fun c hc => List.mem_singleton.mp hc ▸ hcopy ok src dst
  exact .cons (keepsOne_depsCheck _) <| .cons (triple_makeClean _) <| .cons (triple_makeAll_fresh _) <|
    .cons (hgenerate _) <| .cons (triple_mkdirAll _ _) <| .cons (hcopy _ _ _) <|
    .cons (hkeep _ _ _) <| .cons (hkeep _ _ _) <| .cons (hkeep _ _ _) <|
    .cons (keepsOne_zerehctl _ _ _) <| .nil fun _ hw => hw

theorem keepsOne_deployCanary (env : CanaryEnv) (configArg canary primary promote : CStr) :
    KeepsOne (deployCanary sys env configArg canary primary promote) := by
  have hclean : KeepsOne (makeClean env.clean) :=
    Triple.imp (triple_makeClean _) (fun _ hw => hw) (fun _ hw => hw.atMostOne) fun _ hw => hw
  refine .cons (keepsOne_require _) <| .cons (keepsOne_require _) <| .cons (keepsOne_require _) <|
    .cons (keepsOne_depsCheck _) <| .cons hclean <| .cons (keepsOne_makeAll _) <|
    .cons (keepsOne_zerehctl _ _ _) <| .cons (keepsOne_zerehctl _ _ _) <|
    .cons (keepsOne_healthCheck _ _ _ _ _) <| .cons ?_ <| .nil fun _ hw => hw
  exact keepsOne_whenever fun c hc => List.mem_singleton.mp hc ▸ keepsOne_zerehctl _ _ _

theorem keepsOne_rollback (env : ScriptEnv) (selectorArg iface : CStr) :
    KeepsOne (rollbackRelease sys env selectorArg iface) := by
  intro w hw
  unfold rollbackRelease
  split
  · exact ⟨fun _ => hw, fun _ => hw⟩
  · have hmake : KeepsOne (whenever (fun w => !(isFile zerehctlPath w && env.executable))
        [makeAll env.make]) :=
      keepsOne_whenever fun c hc => List.mem_singleton.mp hc ▸ keepsOne_makeAll _
    exact Triple.cons (keepsOne_require _) (.cons hmake <| .cons (keepsOne_zerehctl _ _ _) <|
      .cons (keepsOne_zerehctl _ _ _) <| .nil fun _ hw => hw) w hw

theorem keepsOne_recipe (target : Target) : KeepsOne (target.recipe sys) := by
  cases target with
  | buildMetadata => exact keepsOne_of_dirs fun _ => rfl
  | generate started proc | load started proc | unload started proc | generateLoad started proc =>
    exact keepsOne_zerehctl _ _ _
  | deployDev env => exact keepsOne_deployDev _ _ _
  | deployProd env => exact keepsOne_deployProd _ _ _
  | deployCanary env canary primary promote => exact keepsOne_deployCanary _ _ _ _ _
  | healthCheck env linkShown => exact keepsOne_healthCheck _ _ _ _ _
  | rollbackRelease env => exact keepsOne_rollback _ _ _

theorem keepsOne_target (target : Target) (depsCheck : Bool) (env : MakeEnv) :
    KeepsOne (target.make sys depsCheck env) := by
  have hdirs : ∀ p ∈ target.dirs, ∀ q ∈ p.inits, q.dropLast ≠ releaseBase := by
    have hall : ∀ p ∈ [generatedDir, binDir, xdpDir], ∀ q ∈ p.inits, q.dropLast ≠ releaseBase := by decide
    have hsub : ∀ p ∈ target.dirs, p ∈ [generatedDir, binDir, xdpDir] := by
      cases target with
      | buildMetadata => exact fun p hp => List.mem_cons.mpr (.inl (List.mem_singleton.mp hp))
      | load _ _ | unload _ _ => exact fun p hp => List.mem_append_left [xdpDir] hp
      | generate _ _ | generateLoad _ _ | deployDev _ | deployProd _ | deployCanary _ _ _ _
      | healthCheck _ _ | rollbackRelease _ => exact fun p hp => hp
    exact fun p hp => hall p (hsub p hp)
  refine Triple.script fun c hc => ?_
  rcases List.mem_append.mp hc with hc | hc
  · split_ifs at hc
    · exact List.mem_singleton.mp hc ▸ keepsOne_depsCheck depsCheck
    · cases hc
  · rcases List.mem_cons.mp hc with rfl | hc
    · exact keepsOne_makeFiles _ env hdirs
    · exact List.mem_singleton.mp hc ▸ keepsOne_recipe target

/-! ## Histories -/

/-- What happens on the host: scripts, targets, `zerehctl` by itself, and an operator who writes and
    removes files. -/
inductive Op where
  | dev (env : ScriptEnv) (configArg iface : CStr)
  | prod (env : ReleaseEnv) (configArg iface : CStr)
  | canary (env : CanaryEnv) (configArg iface primary promote : CStr)
  | health (env : ScriptEnv) (linkShown : Bool) (configArg iface withLoad : CStr)
  | rollback (env : ScriptEnv) (selectorArg iface : CStr)
  | make (env : MakeEnv)
  | target (goal : Target) (depsCheck : Bool) (env : MakeEnv)
  | clean (left : Option (Path → Bool))
  | zerehctl (started : Bool) (proc : Process) (args : List CStr)
  | write (p : Path) (content : List UInt8)
  | remove (p : Path)

def Op.command (sys : System) : Op → Command World
  | .dev env configArg iface => deployDev sys env configArg iface
  | .prod env configArg iface => deployProd sys env configArg iface
  | .canary env configArg iface primary promote => deployCanary sys env configArg iface primary promote
  | .health env linkShown configArg iface withLoad =>
      healthCheck sys env linkShown configArg iface withLoad
  | .rollback env selectorArg iface => rollbackRelease sys env selectorArg iface
  | .make env => makeAll env
  | .target goal depsCheck env => goal.make sys depsCheck env
  | .clean left => makeClean left
  | .zerehctl started proc args => Deploy.zerehctl sys started proc args
  | .write p content => onTree fun t => (true, t.put p content)
  | .remove p => onTree fun t => (true, t.remove p)

def history (sys : System) (ops : List Op) (w : World) : World :=
  ops.foldl (fun w op => (op.command sys w).2) w

theorem keepsOne_command (op : Op) : KeepsOne (op.command sys) := by
  cases op with
  | dev env configArg iface => exact keepsOne_deployDev env configArg iface
  | prod env configArg iface => exact keepsOne_deployProd env configArg iface
  | canary env configArg iface primary promote =>
    exact keepsOne_deployCanary env configArg iface primary promote
  | health env linkShown configArg iface withLoad =>
    exact keepsOne_healthCheck env linkShown configArg iface withLoad
  | rollback env selectorArg iface => exact keepsOne_rollback env selectorArg iface
  | make env => exact keepsOne_makeAll env
  | target goal depsCheck env => exact keepsOne_target goal depsCheck env
  | clean left =>
    exact Triple.imp (triple_makeClean left) (fun _ hw => hw) (fun _ hw => hw.atMostOne) fun _ hw => hw
  | zerehctl started proc args => exact keepsOne_zerehctl started proc args
  | write p content => exact keepsOne_of_dirs fun _ => rfl
  | remove p => exact keepsOne_of_dirs fun _ => rfl

/-- After any history there is at most one release if there was at most one before it. -/
theorem history_atMostOne (ops : List Op) {w : World} (h : AtMostOne w.tree) :
    AtMostOne (history sys ops w).tree := by
  induction ops generalizing w with
  | nil => exact h
  | cons op ops ih =>
    refine ih ?_
    cases hok : (op.command sys w).1 with
    | true => exact (keepsOne_command op w h).1 hok
    | false => exact (keepsOne_command op w h).2 hok

theorem length_le_one {α : Type} : ∀ {l : List α}, l.Nodup → (∀ a ∈ l, ∀ b ∈ l, a = b) → l.length ≤ 1
  | [], _, _ => Nat.zero_le 1
  | [_], _, _ => le_rfl
  | a :: b :: l, hnodup, h => by
    have heq := h a List.mem_cons_self b (List.mem_cons_of_mem _ List.mem_cons_self)
    exact absurd (heq ▸ List.mem_cons_self) (List.nodup_cons.mp hnodup).1

theorem length_subdirs_le {t : FileTree} (h : AtMostOne t) : (t.subdirs releaseBase).length ≤ 1 := by
  unfold FileTree.subdirs
  rw [List.length_mergeSort]
  refine length_le_one (List.nodup_dedup _) fun p hp q hq => ?_
  rw [List.mem_dedup, List.mem_filter, decide_eq_true_iff] at hp hq
  exact h p hp.1 q hq.1 hp.2.2 hq.2.2

/-- After any history that begins without releases there is at most one directory in `build/release`. -/
theorem at_most_one_release (ops : List Op) (w : World) (h : w.tree.subdirs releaseBase = []) :
    ((history sys ops w).tree.subdirs releaseBase).length ≤ 1 := by
  refine length_subdirs_le (history_atMostOne ops fun p hp _ _ hrelease _ => ?_)
  have hmem : p ∈ w.tree.subdirs releaseBase := by
    unfold FileTree.subdirs
    rw [List.mem_mergeSort, List.mem_dedup, List.mem_filter, decide_eq_true_iff]
    refine ⟨hp, ?_, hrelease⟩
    rintro rfl
    exact absurd hrelease (by decide)
  rw [h] at hmem
  cases hmem

/-- `previous` is never found, in no state that a history reaches: the script fails, and nothing is changed.
    (A directory of that name would be taken as it is.) -/
theorem rollback_previous_fails (ops : List Op) (w : World) (h : w.tree.subdirs releaseBase = [])
    (env : ScriptEnv) (iface : CStr)
    (hplain : sys.place (CStr.lit "previous") ∉ (history sys ops w).tree.dirs)
    (hbase : sys.place (CStr.lit "build/release/previous") ∉ (history sys ops w).tree.dirs) :
    ((history sys ops w).tree.subdirs releaseBase).length ≤ 1 ∧
      rollbackRelease sys env CStr.empty iface (history sys ops w) = (false, history sys ops w) := by
  have hlength : ((history sys ops w).tree.subdirs releaseBase).length ≤ 1 := at_most_one_release ops w h
  have hnone : resolveReleaseDir sys (CStr.lit "previous") (history sys ops w).tree = none := by
    have hname : CStr.ofBytes (ascii "build/release/" ++ (CStr.lit "previous").bytes) =
        CStr.lit "build/release/previous" := by decide
    rw [← hname] at hbase
    unfold resolveReleaseDir
    dsimp only
    rw [if_neg (FileTree.isDir_iff.not.mpr hplain), if_neg (FileTree.isDir_iff.not.mpr hbase),
      List.length_map]
    split_ifs with hempty hlatest hprevious hfew
    · rfl
    · exact absurd hlatest (by decide)
    · rfl
    · omega
    · rfl
  refine ⟨hlength, ?_⟩
  unfold rollbackRelease
  rw [show orDefault CStr.empty "previous" = CStr.lit "previous" from rfl, hnone]

/-! ### A small host -/

def sampleScript : ScriptEnv where
  depsCheck := true
  clean := none
  make := ⟨true, fun _ => true, fun _ => []⟩
  started := true
  executable := true
  rootCmd := true
  version := sampleProcess
  generate := sampleProcess
  load := sampleProcess

def sampleRelease (timestamp : String) : ReleaseEnv :=
  { sampleScript with
    timestamp := ascii timestamp
    mkdir := true
    copied := fun _ => true }

/-- The host after its configuration has been replaced. -/
def movedWorld : World :=
  { sampleWorld with tree := sampleWorld.tree.put [ascii "config.yaml"] (ascii "moved") }

/-- Two deployments succeed, each with a release. The second has removed that of the first. -/
theorem rollback_previous_sample :
    let ops : List Op :=
      [.prod (sampleRelease "20260101T000000Z") CStr.empty CStr.empty,
        .prod (sampleRelease "20260102T000000Z") CStr.empty CStr.empty]
    let w := history sampleSystem ops movedWorld
    releaseBase ++ [ascii "20260102T000000Z"] ∈ w.tree.dirs ∧
      (w.tree.subdirs releaseBase).length ≤ 1 ∧
      rollbackRelease sampleSystem sampleScript CStr.empty CStr.empty w = (false, w) := by
  intro ops w
  have hdirs : releaseBase ++ [ascii "20260102T000000Z"] ∈ w.tree.dirs ∧
      sampleSystem.place (CStr.lit "previous") ∉ w.tree.dirs ∧
      sampleSystem.place (CStr.lit "build/release/previous") ∉ w.tree.dirs := by
    decide +kernel
  have hfilter : movedWorld.tree.dirs.filter (fun q => decide (q ≠ [] ∧ q.dropLast = releaseBase)) = [] := by
    decide +kernel
  have hnone : movedWorld.tree.subdirs releaseBase = [] := by
    rw [FileTree.subdirs, hfilter]
    exact List.mergeSort_nil
  exact ⟨hdirs.1, rollback_previous_fails ops movedWorld hnone _ _ hdirs.2.1 hdirs.2.2⟩

/-! ## After a clean -/

section Stops

variable {proc : Process} {cfg : Config}

theorem readConfig_of_file {tree tree' : FileTree} {config : CStr}
    (h : tree'.files (sys.place config) = tree.files (sys.place config)) :
    readConfig sys proc tree' config = readConfig sys proc tree config := by
  unfold readConfig
  rw [h]

theorem generateXdpSource_unwritten (cfg : Config) (file : Option (List UInt8)) :
    ∃ e, generateXdpSource cfg file false = .error e := by
  cases file with
  | none => exact ⟨_, rfl⟩
  | some content => exact ⟨_, rfl⟩

theorem generateSource_fails (proc : Process) {tree : FileTree}
    (h : tree.writable (sys.place cfg.generatedSource) = false) :
    (generateSource sys proc cfg tree).1 = false := by
  obtain ⟨e, he⟩ := generateXdpSource_unwritten cfg (tree.files (sys.place cfg.templatePath))
  unfold generateSource
  dsimp only
  rw [h, Bool.false_and, he]
  cases e with
  | readTemplate path => rfl
  | writeSource path =>
    cases proc.torn with
    | none => rfl
    | some torn => rfl

/-- `generate` ends with 1 when the directory of its source is not there. -/
theorem zerehctl_generate_fails (started : Bool) {config : CStr} {w : World}
    (h : ∀ cfg, readConfig sys proc w.tree config = (true, cfg) →
      w.tree.writable (sys.place cfg.generatedSource) = false) :
    (zerehctl sys started proc (generateArgs config) w).1 = false ∧
      (zerehctl sys started proc (generateArgs config) w).2.interfaces = w.interfaces := by
  have hcommand (prog : CStr) :
      (commandWithConfig sys proc prog (CStr.lit "generate") config none w).rc = 1 ∧
        (commandWithConfig sys proc prog (CStr.lit "generate") config none w).world.interfaces =
          w.interfaces := by
    rw [commandWithConfig_generate]
    obtain ⟨read, cfg, hread⟩ : ∃ read cfg, readConfig sys proc w.tree config = (read, cfg) := ⟨_, _, rfl⟩
    rw [hread]
    cases read with
    | false => exact ⟨rfl, rfl⟩
    | true =>
      show (generateCommand sys proc cfg w).rc = 1 ∧
        (generateCommand sys proc cfg w).world.interfaces = w.interfaces
      have hfails := generateSource_fails proc (h cfg hread)
      obtain ⟨ok, tree, heq⟩ : ∃ ok tree, generateSource sys proc cfg w.tree = (ok, tree) := ⟨_, _, rfl⟩
      rw [heq] at hfails
      cases hfails
      unfold generateCommand generateObject
      rw [heq]
      exact ⟨rfl, rfl⟩
  have hargs : parseArgs [CStr.lit "-c", config] (CStr.lit "config.yaml", none) = some (config, none) :=
    (parseArgs_eq_some_iff _ _ _).mpr ⟨[.config config], rfl, rfl⟩
  have hended : (main sys proc (CStr.lit "./build/bin/zerehctl") (generateArgs config) w).rc = 1 ∧
      (main sys proc (CStr.lit "./build/bin/zerehctl") (generateArgs config) w).world.interfaces =
        w.interfaces := by
    unfold generateArgs
    rw [main_eq _ (by decide) (by decide) (by decide), hargs]
    cases proc.calloc with
    | false => exact ⟨rfl, rfl⟩
    | true => exact hcommand _
  unfold zerehctl
  split_ifs
  · exact ⟨decide_eq_false (by rw [hended.1]; decide), hended.2⟩
  · exact ⟨rfl, rfl⟩

/-- Since `w₀` no interface is touched and no release added. -/
def Untouched (w₀ w : World) : Prop :=
  w.interfaces = w₀.interfaces ∧ ∀ p ∈ w.tree.dirs, p.dropLast = releaseBase → p ∈ w₀.tree.dirs

/-- And the configuration is the same file. -/
def Unread (config : Path) (w₀ w : World) : Prop :=
  Untouched w₀ w ∧ w.tree.files config = w₀.tree.files config

theorem files_foldl {f : FileTree → Path → FileTree} {q : Path}
    (h : ∀ t p, p ≠ q → (f t p).files q = t.files q) {ps : List Path} (hq : q ∉ ps) (t : FileTree) :
    (ps.foldl f t).files q = t.files q := by
  induction ps generalizing t with
  | nil => rfl
  | cons p ps ih =>
    rw [List.mem_cons, not_or] at hq
    exact (ih hq.2 (f t p)).trans (h t p (Ne.symm hq.1))

variable {config : Path} {w₀ : World}

theorem files_makeClean {w : World} {q : Path} (hbuild : ¬buildDir <+: q) (hcleaned : q ∉ cleanedFiles) :
    (makeClean none w).2.tree.files q = w.tree.files q := by
  show (cleanedFiles.foldl FileTree.remove (w.tree.removeAll buildDir fun _ => false)).files q = _
  rw [files_foldl (fun t p hp => Function.update_of_ne (Ne.symm hp) ..) hcleaned]
  exact FileTree.files_removeAll hbuild

theorem files_makeAll {env : MakeEnv} {w : World} {q : Path} (hbuilt : q ∉ builtFiles) :
    (makeAll env w).2.tree.files q = w.tree.files q := by
  have hwritten (t : FileTree) (p : Path) (hp : p ≠ q) : (env.build t p).files q = t.files q := by
    unfold MakeEnv.build
    split_ifs
    · exact Function.update_of_ne (Ne.symm hp) ..
    · rfl
  have hdirs (t : FileTree) (p : Path) : (env.mkdir t p).files = t.files := by
    unfold MakeEnv.mkdir
    split_ifs
    · rfl
    · rfl
  show (builtFiles.foldl env.build (env.mkdir (env.mkdir w.tree generatedDir) binDir)).files q = _
  rw [files_foldl hwritten hbuilt, hdirs, hdirs]

theorem not_built {p : Path} (hbuild : ¬buildDir <+: p) : p ∉ builtFiles := by
  intro hmem
  have hall : ∀ p ∈ builtFiles, buildDir <+: p := by decide
  exact hbuild (hall p hmem)

theorem unread_clean (w₀ : World) (left : Option (Path → Bool)) (hbuild : ¬buildDir <+: config)
    (hcleaned : config ∉ cleanedFiles) :
    Triple (Unread config w₀) (makeClean left) (fun w => Unread config w₀ w ∧ Fresh w.tree)
      (Untouched w₀) := by
  intro w hw
  cases left with
  | some left =>
    refine ⟨fun h => absurd h Bool.false_ne_true, fun _ => ⟨hw.1.1, fun p hp => ?_⟩⟩
    exact hw.1.2 p (FileTree.mem_dirs_removeAll hp).1
  | none =>
    have hdirs : (makeClean none w).2.tree.dirs = (w.tree.removeAll buildDir fun _ => false).dirs :=
      dirs_foldl dirs_remove _ _
    refine ⟨fun _ => ⟨⟨⟨hw.1.1, fun p hp => ?_⟩, (files_makeClean hbuild hcleaned).trans hw.2⟩,
      fun p hp hpre => ?_⟩, fun h => absurd h.symm Bool.false_ne_true⟩
    · exact hw.1.2 p (FileTree.mem_dirs_removeAll (hdirs ▸ hp)).1
    · exact absurd ((FileTree.mem_dirs_removeAll (hdirs ▸ hp)).2 hpre) Bool.false_ne_true

theorem unread_makeAll (env : MakeEnv) (hbuild : ¬buildDir <+: config) :
    Triple (fun w => Unread config w₀ w ∧ Fresh w.tree) (makeAll env)
      (fun w => Unread config w₀ w ∧ Fresh w.tree) (Untouched w₀) := by
  intro w ⟨hw, hfresh⟩
  have hfresh' := hfresh.makeAll env
  have huntouched : Untouched w₀ (makeAll env w).2 :=
    ⟨hw.1.1, fun p hp hrelease => absurd hrelease (hfresh'.no_release hp)⟩
  exact ⟨fun _ => ⟨⟨huntouched, (files_makeAll (not_built hbuild)).trans hw.2⟩, hfresh'⟩,
    fun _ => huntouched⟩

/-- Every configuration that can be read from the file generates into a directory in `build/` which `make`
    does not make. -/
def GeneratesAside (sys : System) (config : CStr) (w : World) : Prop :=
  ∀ proc cfg, readConfig sys proc w.tree config = (true, cfg) →
    buildDir <+: (sys.place cfg.generatedSource).dropLast ∧
      (sys.place cfg.generatedSource).dropLast ∉ [buildDir, generatedDir, binDir]

theorem unread_generate (started : Bool) (proc : Process) {config : CStr}
    (haside : GeneratesAside sys config w₀) :
    Triple (fun w => Unread (sys.place config) w₀ w ∧ Fresh w.tree)
      (zerehctl sys started proc (generateArgs config)) (fun _ => False) (Untouched w₀) := by
  intro w ⟨hw, hfresh⟩
  have hnodir (cfg : Config) (hread : readConfig sys proc w.tree config = (true, cfg)) :
      w.tree.writable (sys.place cfg.generatedSource) = false := by
    obtain ⟨hbuild, hown⟩ := haside proc cfg ((readConfig_of_file hw.2).symm.trans hread)
    exact decide_eq_false fun h => hown (hfresh _ h.2.1 hbuild)
  obtain ⟨hfails, hinterfaces⟩ := zerehctl_generate_fails started hnodir
  refine ⟨fun h => absurd (h.symm.trans hfails) (by decide), fun _ => ⟨hinterfaces.trans hw.1.1, ?_⟩⟩
  rw [dirs_zerehctl]
  exact hw.1.2

/-- `deploy_prod.sh` and `deploy_canary.sh` stop at `generate`, with no interface touched and no release
    made, for every configuration that generates into a directory in `build/` which `make` does not make.
    The configuration itself is a file that `make clean` leaves. -/
theorem clean_deploy_stops (configArg iface : CStr) (w : World)
    (hkept : ¬buildDir <+: sys.place (orDefault configArg "config.yaml"))
    (hcleaned : sys.place (orDefault configArg "config.yaml") ∉ cleanedFiles)
    (haside : GeneratesAside sys (orDefault configArg "config.yaml") w) (env : ReleaseEnv)
    (canaryEnv : CanaryEnv) (primary promote : CStr) :
    let prod := deployProd sys env configArg iface w
    let canary := deployCanary sys canaryEnv configArg iface primary promote w
    prod.1 = false ∧ Untouched w prod.2 ∧ canary.1 = false ∧ Untouched w canary.2 := by
  generalize hconfig : orDefault configArg "config.yaml" = config at hkept hcleaned haside
  have hstop {c : Command World}
      (h : Triple (Unread (sys.place config) w) c (fun _ => False) (Untouched w)) :
      (c w).1 = false ∧ Untouched w (c w).2 := by
    obtain ⟨hok, hfail⟩ := h w ⟨⟨rfl, fun _ hp _ => hp⟩, rfl⟩
    have hfalse : (c w).1 = false := Bool.eq_false_iff.mpr hok
    exact ⟨hfalse, hfail hfalse⟩
  have hrequire (p : World → Bool) :
      Triple (Unread (sys.place config) w) (require p) (Unread (sys.place config) w) (Untouched w) :=
    Triple.require (fun _ hw _ => hw) fun _ hw => hw.1
  have hclean (left : Option (Path → Bool)) := unread_clean w left hkept hcleaned
  have hprod : Triple (Unread (sys.place config) w) (deployProd sys env configArg iface) (fun _ => False)
      (Untouched w) := by
    unfold deployProd
    rw [hconfig]
    exact .cons (hrequire fun _ => env.depsCheck) <| .cons (hclean _) <|
      .cons (unread_makeAll _ hkept) <| .cons (unread_generate _ _ haside) <| .of_false fun _ h => h
  have hcanary : Triple (Unread (sys.place config) w)
      (deployCanary sys canaryEnv configArg iface primary promote) (fun _ => False) (Untouched w) := by
    unfold deployCanary
    rw [hconfig]
    exact .cons (hrequire _) <| .cons (hrequire _) <| .cons (hrequire _) <|
      .cons (hrequire fun _ => canaryEnv.depsCheck) <| .cons (hclean _) <|
      .cons (unread_makeAll _ hkept) <| .cons (unread_generate _ _ haside) <| .of_false fun _ h => h
  exact ⟨(hstop hprod).1, (hstop hprod).2, (hstop hcanary).1, (hstop hcanary).2⟩

theorem clean_deploy_sample :
    let canaryEnv : CanaryEnv := { sampleScript with
      health := sampleScript, linkShown := true, promoteRootCmd := true, promoteLoad := sampleProcess }
    let prod := deployProd sampleSystem (sampleRelease "20260101T000000Z") CStr.empty (CStr.lit "eth1")
      sampleWorld
    let canary := deployCanary sampleSystem canaryEnv CStr.empty (CStr.lit "eth1") (CStr.lit "eth0")
      (CStr.lit "--promote") sampleWorld
    prod.1 = false ∧ Untouched sampleWorld prod.2 ∧ canary.1 = false ∧ Untouched sampleWorld canary.2 := by
  have haside : GeneratesAside sampleSystem (CStr.lit "config.yaml") sampleWorld := by
    intro proc cfg hread
    cases hinit : proc.yamlInit with
    | false =>
      have hnone : readConfig sampleSystem proc sampleWorld.tree (CStr.lit "config.yaml") =
          (false, configInitDefaults) := by
        unfold readConfig
        rw [hinit]
        split
        · rfl
        · rfl
      cases hnone.symm.trans hread
    | true =>
      cases (readConfig_sample proc hinit).symm.trans hread
      decide +kernel
  intro canaryEnv
  exact clean_deploy_stops CStr.empty (CStr.lit "eth1") sampleWorld (by decide +kernel)
    (by decide +kernel) haside (sampleRelease "20260101T000000Z") canaryEnv (CStr.lit "eth0")
    (CStr.lit "--promote")

end Stops

end Zereh.Deploy
