/-
  What runs after a deployment.

  `deploy_dev.sh`, `deploy_prod.sh`, `deploy_canary.sh --promote` and `rollback_release.sh` end with a
  `generate` and a `load` of one configuration, two processes that share nothing but the files.

  * `Built`: the object in the tree is what the compiler made of the source in the tree, and that source
    is generated from the template and the configuration in the tree.
  * `deployment_runs`: when one of the scripts succeeds, the configuration that was in its file at the start
    is built in this sense at the end, and a slot of the interface has the router of that object.

  Between the two the scripts also copy a release, and the health check of a canary builds and generates
  once more. The paths of a configuration must not meet (`Apart`).
-/
import Zereh.Deploy.Promotion
import Zereh.Deploy.Releases

namespace Zereh.Deploy

open Lib Control

variable {sys : System} {proc : Process} {config iface : CStr} {cfg cfg' : Config} {t t' : FileTree}
  {w w' : World}

/-! ## What is built -/

/-- The file reads as `cfg`. -/
def ReadsAs (sys : System) (config : CStr) (cfg : Config) (t : FileTree) : Prop :=
  ∃ text doc, t.files (sys.place config) = some text ∧ sys.yamlLoad text = some doc ∧
    parseConfigYaml doc = .ok cfg

/-- Nothing that is generated lies on the configuration, on the template or in a release, and the object
    does not lie on the source. -/
structure Apart (sys : System) (config : CStr) (cfg : Config) : Prop where
  config : ¬Generates sys cfg (sys.place config)
  template : ¬Generates sys cfg (sys.place cfg.templatePath)
  object : sys.place cfg.generatedSource ≠ sys.place cfg.generatedObject
  release : ∀ p, p = sys.place cfg.templatePath ∨ Generates sys cfg p → ¬releaseBase <+: p

/-- `seen` is the tree that the compiler saw. -/
structure Built (sys : System) (config : CStr) (cfg : Config) (t : FileTree) : Prop where
  reads : ReadsAs sys config cfg t
  source : ∃ source, generateXdpSource cfg (t.files (sys.place cfg.templatePath)) true = .ok source ∧
    t.files (sys.place cfg.generatedSource) = some source
  object : ∃ seen : FileTree,
    (∀ p, p ≠ sys.place cfg.generatedObject → ¬releaseBase <+: p → seen.files p = t.files p) ∧
      sys.clang (compilerArgs sys cfg) seen = (true, t.files (sys.place cfg.generatedObject))

/-- A slot of interface `i` has the router of the object in the tree. -/
def Runs (sys : System) (cfg : Config) (i : Nat) (w : World) : Prop :=
  ∃ content obj prog mode linked, w.tree.files (sys.place cfg.generatedObject) = some content ∧
    sys.openObject content = some obj ∧ obj.findProgramByName cfg.xdpSection.bytes = some prog ∧
    (w.interfaces i).slot mode = some ⟨prog, linked⟩

theorem ReadsAs.unique (h : ReadsAs sys config cfg t) (h' : ReadsAs sys config cfg' t) : cfg = cfg' := by
  obtain ⟨text, doc, hfile, hload, hparse⟩ := h
  obtain ⟨text', doc', hfile', hload', hparse'⟩ := h'
  cases hfile.symm.trans hfile'
  cases hload.symm.trans hload'
  cases hparse.symm.trans hparse'
  rfl

theorem ReadsAs.congr (h : ReadsAs sys config cfg t)
    (heq : t'.files (sys.place config) = t.files (sys.place config)) : ReadsAs sys config cfg t' := by
  unfold ReadsAs
  rw [heq]
  exact h

theorem readsAs_of_readConfig (h : readConfig sys proc t config = (true, cfg)) :
    ReadsAs sys config cfg t := by
  unfold readConfig at h
  split at h
  · cases h
  · next text hfile =>
    split_ifs at h
    · cases h
    · split at h
      · cases h
      · next doc hload =>
        split at h
        · next hparse =>
          cases h
          exact ⟨text, doc, hfile, hload, hparse⟩
        · cases h

/-- Files in a release may change. -/
theorem Built.congr (h : Built sys config cfg t) (hapart : Apart sys config cfg)
    (hconfig : ¬releaseBase <+: sys.place config)
    (heq : ∀ p, ¬releaseBase <+: p → t'.files p = t.files p) : Built sys config cfg t' := by
  obtain ⟨source, hgen, hsource⟩ := h.source
  obtain ⟨seen, hseen, hclang⟩ := h.object
  have htemplate := heq _ (hapart.release _ (.inl rfl))
  have hsource' := heq _ (hapart.release _ (.inr (.inl rfl)))
  have hobject := heq _ (hapart.release _ (.inr (.inr rfl)))
  refine ⟨h.reads.congr (heq _ hconfig), ⟨source, ?_, hsource'.trans hsource⟩, seen, ?_, ?_⟩
  · rw [htemplate]
    exact hgen
  · intro p hp hrelease
    exact (hseen p hp hrelease).trans (heq p hrelease).symm
  · rw [hobject]
    exact hclang

/-! ## Generating -/

theorem generateSource_ok (h : generateSource sys proc cfg t = (true, t')) :
    ∃ source, generateXdpSource cfg (t.files (sys.place cfg.templatePath)) true = .ok source ∧
      t' = t.put (sys.place cfg.generatedSource) source := by
  unfold generateSource at h
  dsimp only at h
  split at h
  · next source heq =>
    cases h
    cases hwritten : t.writable (sys.place cfg.generatedSource) && proc.torn.isNone with
    | true =>
      rw [hwritten] at heq
      exact ⟨source, heq, rfl⟩
    | false =>
      rw [hwritten] at heq
      obtain ⟨e, he⟩ := generateXdpSource_unwritten cfg (t.files (sys.place cfg.templatePath))
      cases he.symm.trans heq
  · cases h
  · split at h
    · cases h
    · cases h

theorem compileGeneratedBpf_ok (h : compileGeneratedBpf sys proc cfg t = (true, t')) :
    sys.clang (compilerArgs sys cfg) t = (true, t'.files (sys.place cfg.generatedObject)) ∧
      ∀ p, p ≠ sys.place cfg.generatedObject → t'.files p = t.files p := by
  unfold compileGeneratedBpf at h
  split_ifs at h
  · cases h
  · dsimp only at h
    split at h
    · next ok content heq =>
      cases h
      have hobject := congrArg (Prod.mk true)
        (Function.update_self (sys.place cfg.generatedObject) (some content) t.files)
      exact ⟨heq.trans hobject.symm, fun p hp => Function.update_of_ne hp ..⟩
    · next ok heq =>
      cases h
      have hobject := congrArg (Prod.mk true)
        (Function.update_self (sys.place cfg.generatedObject) none t.files)
      exact ⟨heq.trans hobject.symm, fun p hp => Function.update_of_ne hp ..⟩

theorem generateObject_built (hapart : Apart sys config cfg) (hreads : ReadsAs sys config cfg w.tree)
    (h : generateObject sys proc cfg w = (none, w')) : Built sys config cfg w'.tree := by
  have hframe := (generateObject_frame sys proc cfg w).1
  rw [h] at hframe
  unfold generateObject at h
  obtain ⟨ok, mid, hsource⟩ : ∃ ok mid, generateSource sys proc cfg w.tree = (ok, mid) := ⟨_, _, rfl⟩
  rw [hsource] at h
  cases ok with
  | false => cases h
  | true =>
    obtain ⟨source, hgen, hmid⟩ := generateSource_ok hsource
    obtain ⟨ok, tree, hcompile⟩ : ∃ ok tree, compileGeneratedBpf sys proc cfg mid = (ok, tree) :=
      ⟨_, _, rfl⟩
    dsimp only at h
    rw [hcompile] at h
    cases ok with
    | false => cases h
    | true =>
      cases h
      obtain ⟨hclang, hsame⟩ := compileGeneratedBpf_ok hcompile
      refine ⟨hreads.congr (hframe.files _ hapart.config), ⟨source, ?_, ?_⟩, mid, ?_, hclang⟩
      · rw [hframe.files _ hapart.template]
        exact hgen
      · rw [hsame _ hapart.object, hmid]
        exact Function.update_self ..
      · exact fun p hp _ => (hsame p hp).symm

/-! ## Loading -/

theorem slot_of_taken {i i' : Interface} {prog : Nat} {r : Replies} {mode : XdpMode}
    (h : Taken i prog r mode i') : ∃ slot linked, i'.slot slot = some ⟨prog, linked⟩ := by
  cases h with
  | netlink => exact ⟨mode, false, Function.update_self ..⟩
  | @update slot => exact ⟨slot, true, Function.update_self ..⟩
  | link => exact ⟨r.linkMode, true, Function.update_self ..⟩

theorem opened_of_load {ifname : Option CStr} {env : LoadEnv} {i : Interface}
    (h : (loadAndSwapXdp cfg ifname env i).1 = 0) : env.opened = true := by
  by_contra hopened
  have hstop : ¬ env.Reaches cfg ifname := fun hreaches => hopened hreaches.opened
  rw [loadAndSwapXdp_stops hstop i] at h
  cases h

theorem slot_of_load {ifname : Option CStr} {env : LoadEnv} {i : Interface}
    (h : (loadAndSwapXdp cfg ifname env i).1 = 0) :
    ∃ prog mode linked, env.obj.findProgramByName cfg.xdpSection.bytes = some prog ∧
      (loadAndSwapXdp cfg ifname env i).2.slot mode = some ⟨prog, linked⟩ := by
  rcases loadAndSwapXdp_cases cfg ifname env i with
    ⟨prog, hprog, _, -, i', htaken, -, hrun⟩ | ⟨-, hfail⟩
  · obtain ⟨slot, linked, hslot⟩ := slot_of_taken htaken
    refine ⟨prog, slot, linked, hprog, ?_⟩
    rw [hrun]
    exact hslot
  · have hrc : (-1 : Int) = 0 := (congrArg Prod.fst hfail).symm.trans h
    exact absurd hrc (by decide)

theorem runs_of_load {ifname : Option CStr} (h : (loadObject sys proc cfg ifname w).1 = 0) :
    Runs sys cfg (sys.ifNameToIndex (chosenInterface cfg ifname)) (loadObject sys proc cfg ifname w).2 := by
  unfold loadObject at h
  have hopened := opened_of_load h
  rw [Bool.and_eq_true, Option.isSome_iff_exists] at hopened
  obtain ⟨-, obj, hobj⟩ := hopened
  obtain ⟨content, hfile, hopen⟩ := Option.bind_eq_some_iff.mp hobj
  obtain ⟨prog, slot, linked, hprog, hslot⟩ := slot_of_load h
  dsimp only at hprog
  rw [hobj] at hprog
  refine ⟨content, obj, prog, slot, linked, hfile, hopen, hprog, ?_⟩
  refine Eq.trans ?_ hslot
  exact congrArg (Interface.slot · slot) (Function.update_self ..)

/-! ## The two processes -/

theorem zerehctl_command (word : String) {started : Bool} (hnul : (0 : UInt8) ∉ ascii word)
    (hhash : ascii word ≠ ascii "hash") (hversion : ascii word ≠ ascii "version") (given : List Opt)
    (h : (zerehctl sys started proc (CStr.lit word :: given.flatMap Opt.args) w).1 = true) :
    let ended := commandWithConfig sys proc (CStr.lit "./build/bin/zerehctl") (CStr.lit word)
      (settings given).1 (settings given).2 w
    ended.rc = 0 ∧
      (zerehctl sys started proc (CStr.lit word :: given.flatMap Opt.args) w).2 = ended.world := by
  intro ended
  have hended : proc.calloc = true →
      main sys proc (CStr.lit "./build/bin/zerehctl") (CStr.lit word :: given.flatMap Opt.args) w =
        ended := by
    intro hcalloc
    rw [main_eq _ hnul hhash hversion, hcalloc,
      (parseArgs_eq_some_iff _ _ (settings given)).mpr ⟨given, rfl, rfl⟩]
    rfl
  unfold zerehctl at h ⊢
  split_ifs at h ⊢
  · have hrc := of_decide_eq_true h
    cases hcalloc : proc.calloc with
    | true =>
      rw [hended hcalloc] at hrc
      exact ⟨hrc, congrArg Ended.world (hended hcalloc)⟩
    | false =>
      rw [main_eq _ hnul hhash hversion, hcalloc] at hrc
      have hrc : (1 : Int) = 0 := hrc
      exact absurd hrc (by decide)

theorem generateCommand_ok (h : (generateCommand sys proc cfg w).rc = 0) :
    generateObject sys proc cfg w = (none, (generateCommand sys proc cfg w).world) := by
  unfold generateCommand at h ⊢
  obtain ⟨failed, w', hgen⟩ : ∃ failed w', generateObject sys proc cfg w = (failed, w') := ⟨_, _, rfl⟩
  rw [hgen] at h ⊢
  cases failed with
  | some line =>
    have hrc : (1 : Int) = 0 := h
    exact absurd hrc (by decide)
  | none => rfl

theorem loadCommand_ok {ifname : Option CStr} (h : (loadCommand sys proc cfg ifname w).rc = 0) :
    (loadObject sys proc cfg ifname w).1 = 0 ∧
      (loadCommand sys proc cfg ifname w).world = (loadObject sys proc cfg ifname w).2 := by
  unfold loadCommand at h ⊢
  dsimp only at h ⊢
  split_ifs at h ⊢ with hrc
  · have hfalse : (1 : Int) = 0 := h
    exact absurd hfalse (by decide)
  · exact ⟨not_not.mp hrc, rfl⟩

/-- A run that needs the configuration succeeds only if it can be read. -/
theorem reads_of_ok {lines : List Line} {run : Config → Ended}
    {ended : Ended} (hrun : ended = match readConfig sys proc w.tree config with
      | (false, _) => ⟨1, lines, w⟩
      | (true, cfg) => run cfg) (h : ended.rc = 0) :
    ∃ cfg, readConfig sys proc w.tree config = (true, cfg) ∧ ended = run cfg := by
  obtain ⟨ok, cfg, hread⟩ : ∃ ok cfg, readConfig sys proc w.tree config = (ok, cfg) := ⟨_, _, rfl⟩
  rw [hread] at hrun
  cases ok with
  | false =>
    rw [hrun] at h
    have hrc : (1 : Int) = 0 := h
    exact absurd hrc (by decide)
  | true => exact ⟨cfg, hread, hrun⟩

/-- The options of `loadArgs`. -/
def loadOpts (config iface : CStr) : List Opt :=
  [.config config] ++ if iface.bytes = [] then [] else [.interface iface]

theorem loadArgs_eq (config iface : CStr) :
    loadArgs config iface = CStr.lit "load" :: (loadOpts config iface).flatMap Opt.args := by
  unfold loadArgs loadOpts
  split_ifs
  · rfl
  · rfl

theorem zerehctl_generate {started : Bool}
    (h : (zerehctl sys started proc (generateArgs config) w).1 = true) :
    ∃ cfg, ReadsAs sys config cfg w.tree ∧
      generateObject sys proc cfg w = (none, (zerehctl sys started proc (generateArgs config) w).2) := by
  obtain ⟨hrc, hworld⟩ := zerehctl_command "generate" (by decide) (by decide) (by decide)
    [.config config] h
  obtain ⟨cfg, hread, hrun⟩ := reads_of_ok (commandWithConfig_generate sys proc _ _ _ w) hrc
  rw [hrun] at hrc hworld
  refine ⟨cfg, readsAs_of_readConfig hread, (generateCommand_ok hrc).trans ?_⟩
  rw [← hworld]
  rfl

theorem zerehctl_load {started : Bool}
    (h : (zerehctl sys started proc (loadArgs config iface) w).1 = true) :
    ∃ cfg, ReadsAs sys config cfg w.tree ∧
      (zerehctl sys started proc (loadArgs config iface) w).2.tree = w.tree ∧
      Runs sys cfg (sys.ifNameToIndex (chosenInterface cfg (some iface)))
        (zerehctl sys started proc (loadArgs config iface) w).2 := by
  rw [loadArgs_eq] at h ⊢
  obtain ⟨hrc, hworld⟩ := zerehctl_command "load" (by decide) (by decide) (by decide)
    (loadOpts config iface) h
  have hconfig : (settings (loadOpts config iface)).1 = config := by
    unfold loadOpts
    split_ifs
    · rfl
    · rfl
  have hchosen (cfg : Config) :
      chosenInterface cfg (settings (loadOpts config iface)).2 = chosenInterface cfg (some iface) := by
    unfold loadOpts
    split_ifs with hiface
    · exact (if_neg (not_not.mpr hiface)).symm
    · rfl
  obtain ⟨cfg, hread, hrun⟩ := reads_of_ok (commandWithConfig_load sys proc _ _ _ w) hrc
  rw [hconfig] at hread
  rw [hrun] at hrc hworld
  obtain ⟨hload, hended⟩ := loadCommand_ok hrc
  have hruns := runs_of_load hload
  rw [hchosen] at hruns
  rw [hworld, hended]
  exact ⟨cfg, readsAs_of_readConfig hread, (loadObject_frame sys proc cfg _ w).1, hruns⟩

/-! ## The scripts -/

/-- The configuration is the file it was in `t`. -/
def Kept (sys : System) (config : CStr) (t : FileTree) (w : World) : Prop :=
  w.tree.files (sys.place config) = t.files (sys.place config)

/-- And it is built. -/
def Ready (sys : System) (config : CStr) (t : FileTree) (w : World) : Prop :=
  Kept sys config t w ∧
    ∃ cfg, ReadsAs sys config cfg t ∧ Apart sys config cfg ∧ Built sys config cfg w.tree

/-- The interface that is named runs what was built of the configuration in `t`. -/
def Deployed (sys : System) (config iface : CStr) (t : FileTree) (w : World) : Prop :=
  ∃ cfg, ReadsAs sys config cfg t ∧ Built sys config cfg w.tree ∧
    Runs sys cfg (sys.ifNameToIndex (chosenInterface cfg (some iface))) w

section Steps

variable {P Q : World → Prop} {c : Command World}

/-- Only success is looked at. -/
theorem triple_ok (h : ∀ w, P w → (c w).1 = true → Q (c w).2) : Triple P c Q fun _ => True :=
  fun w hw => ⟨h w hw, fun _ => trivial⟩

theorem kept_of_files (h : ∀ w, (c w).1 = true →
    (c w).2.tree.files (sys.place config) = w.tree.files (sys.place config)) :
    Triple (Kept sys config t) c (Kept sys config t) fun _ => True :=
  triple_ok fun w hw hok => (h w hok).trans hw

theorem kept_require (p : World → Bool) :
    Triple (Kept sys config t) (require p) (Kept sys config t) fun _ => True :=
  kept_of_files fun _ _ => rfl

theorem kept_makeAll (env : MakeEnv) (hbuilt : sys.place config ∉ builtFiles) :
    Triple (Kept sys config t) (makeAll env) (Kept sys config t) fun _ => True :=
  kept_of_files fun _ _ => files_makeAll hbuilt

theorem kept_makeClean (left : Option (Path → Bool)) (hbuild : ¬buildDir <+: sys.place config)
    (hcleaned : sys.place config ∉ cleanedFiles) :
    Triple (Kept sys config t) (makeClean left) (Kept sys config t) fun _ => True := by
  refine kept_of_files fun w hok => ?_
  cases left with
  | some left => cases hok
  | none => exact files_makeClean hbuild hcleaned

theorem kept_load (started : Bool) (proc : Process) (iface : CStr) :
    Triple (Kept sys config t) (zerehctl sys started proc (loadArgs config iface)) (Kept sys config t)
      fun _ => True := by
  refine kept_of_files fun w hok => ?_
  obtain ⟨cfg, -, htree, -⟩ := zerehctl_load hok
  rw [htree]

theorem ready_generate (started : Bool) (proc : Process)
    (hapart : ∀ cfg, ReadsAs sys config cfg t → Apart sys config cfg) :
    Triple (Kept sys config t) (zerehctl sys started proc (generateArgs config)) (Ready sys config t)
      fun _ => True := by
  refine triple_ok fun w hw hok => ?_
  obtain ⟨cfg, hreads, hgen⟩ := zerehctl_generate hok
  have hreads₀ : ReadsAs sys config cfg t := hreads.congr hw.symm
  have hpaths := hapart cfg hreads₀
  refine ⟨?_, cfg, hreads₀, hpaths, generateObject_built hpaths hreads hgen⟩
  have hframe := (generateObject_frame sys proc cfg w).1.files _ hpaths.config
  rw [hgen] at hframe
  exact hframe.trans hw

theorem deployed_load (started : Bool) (proc : Process) (iface : CStr) :
    Triple (Ready sys config t) (zerehctl sys started proc (loadArgs config iface))
      (Deployed sys config iface t) fun _ => True := by
  refine triple_ok fun w ⟨hkept, cfg, hreads, _, hbuilt⟩ hok => ?_
  obtain ⟨cfg', hreads', htree, hruns⟩ := zerehctl_load hok
  obtain rfl := hreads'.unique hbuilt.reads
  refine ⟨cfg', hreads, ?_, hruns⟩
  rw [htree]
  exact hbuilt

/-- What a script does in a release does not touch what is built. -/
theorem ready_of_release (hconfig : ¬releaseBase <+: sys.place config)
    (h : ∀ w p, ¬releaseBase <+: p → (c w).2.tree.files p = w.tree.files p) :
    Triple (Ready sys config t) c (Ready sys config t) fun _ => True := by
  refine triple_ok fun w ⟨hkept, cfg, hreads, hapart, hbuilt⟩ _ => ?_
  exact ⟨(h w _ hconfig).trans hkept, cfg, hreads, hapart, hbuilt.congr hapart hconfig (h w)⟩

theorem files_copy {ok : Bool} {src dst p : Path} {w : World} (hdst : releaseBase <+: dst)
    (hp : ¬releaseBase <+: p) : (copy ok src dst w).2.tree.files p = w.tree.files p := by
  have hne : p ≠ dst := by
    rintro rfl
    exact hp hdst
  unfold copy onTree
  dsimp only
  split
  · rfl
  · split_ifs
    · exact Function.update_of_ne hne ..
    · rfl

end Steps

/-- A run of a script that ends with a load; of `deploy_canary.sh` the one that promotes. -/
inductive Deployment where
  | dev (env : ScriptEnv) (configArg iface : CStr)
  | prod (env : ReleaseEnv) (configArg iface : CStr)
  | promotion (env : CanaryEnv) (configArg canary primary : CStr) (hprimary : primary.bytes ≠ [])
  | rollback (env : ScriptEnv) (selectorArg iface : CStr)

namespace Deployment

def command (sys : System) : Deployment → Command World
  | dev env configArg iface => deployDev sys env configArg iface
  | prod env configArg iface => deployProd sys env configArg iface
  | promotion env configArg canary primary _ =>
      deployCanary sys env configArg canary primary (CStr.lit "--promote")
  | rollback env selectorArg iface => rollbackRelease sys env selectorArg iface

/-- The configuration that it deploys, if there is one. -/
def configPath (sys : System) (t : FileTree) : Deployment → Option CStr
  | dev _ configArg _ => some (orDefault configArg "config.yaml")
  | prod _ configArg _ => some (orDefault configArg "config.yaml")
  | promotion _ configArg _ _ _ => some (orDefault configArg "config.yaml")
  | rollback _ selectorArg _ =>
      (resolveReleaseDir sys (orDefault selectorArg "previous") t).map fun release =>
        CStr.ofBytes (release.bytes ++ ascii "/config.yaml")

def target : Deployment → CStr
  | dev _ _ iface => iface
  | prod _ _ iface => iface
  | promotion _ _ _ primary _ => primary
  | rollback _ _ iface => iface

/-- The files that `make` writes or removes in it. -/
def makes : Deployment → Path → Prop
  | dev .., p => p ∈ builtFiles
  | prod .., p => buildDir <+: p ∨ p ∈ cleanedFiles
  | promotion .., p => buildDir <+: p ∨ p ∈ cleanedFiles
  | rollback .., p => p ∈ builtFiles

end Deployment

section Scripts

variable (hapart : ∀ cfg, ReadsAs sys config cfg t → Apart sys config cfg)

include hapart

theorem dev_deployed (env : ScriptEnv) {configArg : CStr} (iface : CStr)
    (harg : orDefault configArg "config.yaml" = config) (hbuilt : sys.place config ∉ builtFiles) :
    Triple (Kept sys config t) (deployDev sys env configArg iface) (Deployed sys config iface t)
      fun _ => True := by
  unfold deployDev
  rw [harg]
  exact .cons (kept_require fun _ => env.depsCheck) <| .cons (kept_makeAll _ hbuilt) <|
    .cons (ready_generate _ _ hapart) <| .cons (deployed_load _ _ _) <| .nil fun _ hw => hw

theorem prod_deployed (env : ReleaseEnv) {configArg : CStr} (iface : CStr)
    (harg : orDefault configArg "config.yaml" = config) (hbuild : ¬buildDir <+: sys.place config)
    (hcleaned : sys.place config ∉ cleanedFiles) :
    Triple (Kept sys config t) (deployProd sys env configArg iface) (Deployed sys config iface t)
      fun _ => True := by
  have hconfig : ¬releaseBase <+: sys.place config := fun h =>
    hbuild ((List.prefix_append buildDir [ascii "release"]).trans h)
  have hmkdir : Triple (Ready sys config t) (mkdirAll env.mkdir (releaseBase ++ [env.timestamp]))
      (Ready sys config t) fun _ => True := by
    refine ready_of_release hconfig fun w p _ => ?_
    unfold mkdirAll onTree
    cases env.mkdir with
    | false => rfl
    | true => rfl
  have hcopy (ok : Bool) (src : Path) (name : List UInt8) :
      Triple (Ready sys config t) (copy ok src (releaseBase ++ [env.timestamp] ++ [name]))
        (Ready sys config t) fun _ => True := by
    refine ready_of_release hconfig fun w p hp => files_copy ?_ hp
    exact (List.prefix_append _ _).trans (List.prefix_append _ _)
  have hkeep (ok : Bool) (src : Path) (name : List UInt8) :
      Triple (Ready sys config t)
        (whenever (isFile src) [copy ok src (releaseBase ++ [env.timestamp] ++ [name])])
        (Ready sys config t) fun _ => True :=
    Triple.whenever_one (hcopy ok src name)
  unfold deployProd
  rw [harg]
  exact .cons (kept_require fun _ => env.depsCheck) <| .cons (kept_makeClean _ hbuild hcleaned) <|
    .cons (kept_makeAll _ (not_built hbuild)) <| .cons (ready_generate _ _ hapart) <|
    .cons hmkdir <| .cons (hcopy _ _ _) <| .cons (hkeep _ _ _) <| .cons (hkeep _ _ _) <|
    .cons (hkeep _ _ _) <| .cons (deployed_load _ _ _) <| .nil fun _ hw => hw

/-- The health check generates again: its object is the one that is promoted. -/
theorem healthCheck_ready (env : ScriptEnv) (linkShown : Bool) {configArg : CStr} (iface : CStr)
    (harg : orDefault configArg "config.yaml" = config) (hbuild : ¬buildDir <+: sys.place config) :
    Triple (Kept sys config t) (healthCheck sys env linkShown configArg iface CStr.empty)
      (Ready sys config t) fun _ => True := by
  have hversion : Triple (Kept sys config t) (zerehctl sys env.started env.version [CStr.lit "version"])
      (Kept sys config t) fun _ => True := by
    refine kept_of_files fun w _ => ?_
    unfold zerehctl
    split_ifs
    · rfl
    · rfl
  have hready (p : World → Bool) : Triple (Ready sys config t) (require p) (Ready sys config t)
      fun _ => True := Triple.require (fun _ hw _ => hw) fun _ _ => trivial
  have hlink : Triple (Ready sys config t)
      (whenever (fun _ => decide (iface.bytes ≠ [])) [require fun _ => linkShown])
      (Ready sys config t) fun _ => True :=
    Triple.whenever_one (hready _)
  unfold healthCheck
  rw [harg]
  refine .cons (kept_require _) <| .cons (kept_require _) <|
    .cons (kept_require fun _ => env.depsCheck) <| .cons (kept_makeAll _ (not_built hbuild)) <|
    .cons hversion <| .cons (ready_generate _ _ hapart) <| .cons (hready _) <| .cons hlink <|
    .cons ?_ <| .nil fun _ hw => hw
  exact Triple.whenever (.of_false fun _ hw => absurd hw.2 (by decide)) fun _ hw _ => hw

theorem promotion_deployed (env : CanaryEnv) {configArg canary primary : CStr}
    (harg : orDefault configArg "config.yaml" = config) (hprimary : primary.bytes ≠ [])
    (hbuild : ¬buildDir <+: sys.place config) (hcleaned : sys.place config ∉ cleanedFiles) :
    Triple (Kept sys config t) (deployCanary sys env configArg canary primary (CStr.lit "--promote"))
      (Deployed sys config primary t) fun _ => True := by
  have hgenerate : Triple (Kept sys config t) (zerehctl sys env.started env.generate (generateArgs config))
      (Kept sys config t) fun _ => True :=
    Triple.imp (ready_generate _ _ hapart) (fun _ hw => hw) (fun _ hw => hw.1) fun _ hw => hw
  have hagain : orDefault config "config.yaml" = config := by
    rw [← harg]
    unfold orDefault
    by_cases hempty : configArg.bytes = []
    · rw [if_pos hempty]
      rfl
    · rw [if_neg hempty, if_neg hempty]
  unfold deployCanary
  rw [harg]
  refine .cons (kept_require _) <| .cons (kept_require _) <| .cons (kept_require _) <|
    .cons (kept_require fun _ => env.depsCheck) <| .cons (kept_makeClean _ hbuild hcleaned) <|
    .cons (kept_makeAll _ (not_built hbuild)) <| .cons hgenerate <| .cons (kept_load _ _ _) <|
    .cons (healthCheck_ready hapart _ _ _ hagain hbuild) <| .cons ?_ <| .nil fun _ hw => hw
  refine Triple.whenever (.cons (Triple.imp (deployed_load _ _ _) (fun _ hw => hw.1) (fun _ hw => hw)
    fun _ hw => hw) (.nil fun _ hw => hw)) fun _ _ hp => ?_
  rw [decide_eq_true hprimary] at hp
  exact absurd hp (by decide)

theorem rollback_deployed (env : ScriptEnv) (selectorArg iface : CStr) {release : CStr} {w : World}
    (hresolve : resolveReleaseDir sys (orDefault selectorArg "previous") w.tree = some release)
    (hrelease : CStr.ofBytes (release.bytes ++ ascii "/config.yaml") = config)
    (hbuilt : sys.place config ∉ builtFiles) (hkept : Kept sys config t w)
    (hok : (rollbackRelease sys env selectorArg iface w).1 = true) :
    Deployed sys config iface t (rollbackRelease sys env selectorArg iface w).2 := by
  have hmake : Triple (Kept sys config t)
      (whenever (fun w => !(isFile zerehctlPath w && env.executable)) [makeAll env.make])
      (Kept sys config t) fun _ => True :=
    Triple.whenever_one (kept_makeAll _ hbuilt)
  have hscript : Triple (Kept sys config t) (script [
      require (isFile (sys.place config)),
      whenever (fun w => !(isFile zerehctlPath w && env.executable)) [makeAll env.make],
      zerehctl sys env.started env.generate (generateArgs config),
      zerehctl sys env.rootCmd env.load (loadArgs config iface)]) (Deployed sys config iface t)
      fun _ => True :=
    .cons (kept_require _) <| .cons hmake <| .cons (ready_generate _ _ hapart) <|
      .cons (deployed_load _ _ _) <| .nil fun _ hw => hw
  unfold rollbackRelease at hok ⊢
  rw [hresolve] at hok ⊢
  dsimp only at hok ⊢
  rw [hrelease] at hok ⊢
  exact (hscript w hkept).1 hok

end Scripts

/-- When a deployment succeeds, the configuration that was in its file at the start is built, and the
    interface runs the router of that object. -/
theorem deployment_runs (d : Deployment) (w : World)
    (hkept : ∀ config, d.configPath sys w.tree = some config → ¬d.makes (sys.place config))
    (hapart : ∀ config cfg, d.configPath sys w.tree = some config → ReadsAs sys config cfg w.tree →
      Apart sys config cfg)
    (hok : (d.command sys w).1 = true) :
    ∃ config, d.configPath sys w.tree = some config ∧
      Deployed sys config d.target w.tree (d.command sys w).2 := by
  cases d with
  | dev env configArg iface =>
    refine ⟨_, rfl, ?_⟩
    exact (dev_deployed (fun cfg => hapart _ cfg rfl) env iface rfl (hkept _ rfl) w rfl).1 hok
  | prod env configArg iface =>
    obtain ⟨hbuild, hcleaned⟩ := not_or.mp (hkept _ rfl)
    refine ⟨_, rfl, ?_⟩
    exact (prod_deployed (fun cfg => hapart _ cfg rfl) env iface rfl hbuild hcleaned w rfl).1 hok
  | promotion env configArg canary primary hprimary =>
    obtain ⟨hbuild, hcleaned⟩ := not_or.mp (hkept _ rfl)
    refine ⟨_, rfl, ?_⟩
    exact (promotion_deployed (fun cfg => hapart _ cfg rfl) env rfl hprimary hbuild hcleaned w rfl).1 hok
  | rollback env selectorArg iface =>
    cases hresolve : resolveReleaseDir sys (orDefault selectorArg "previous") w.tree with
    | none =>
      have hfail : rollbackRelease sys env selectorArg iface w = (false, w) := by
        unfold rollbackRelease
        rw [hresolve]
      exact absurd ((congrArg Prod.fst hfail).symm.trans hok) Bool.false_ne_true
    | some release =>
      have hconfig : (Deployment.rollback env selectorArg iface).configPath sys w.tree =
          some (CStr.ofBytes (release.bytes ++ ascii "/config.yaml")) :=
        congrArg
          (Option.map fun release : CStr => CStr.ofBytes (release.bytes ++ ascii "/config.yaml")) hresolve
      refine ⟨_, hconfig, ?_⟩
      exact rollback_deployed (fun cfg => hapart _ cfg hconfig) env selectorArg iface hresolve rfl
        (hkept _ hconfig) rfl hok

theorem readsAs_sample {cfg : Config}
    (h : ReadsAs sampleSystem (CStr.lit "config.yaml") cfg movedWorld.tree) : cfg = movedConfig := by
  obtain ⟨text, doc, hfile, hload, hparse⟩ := h
  have hplace : sampleSystem.place (CStr.lit "config.yaml") = [ascii "config.yaml"] := by decide +kernel
  have hmoved : movedWorld.tree.files (sampleSystem.place (CStr.lit "config.yaml")) =
      some (ascii "moved") := by
    rw [hplace]
    dsimp only [movedWorld, FileTree.put]
    rw [Function.update_self]
  have hdoc : sampleSystem.yamlLoad (ascii "moved") = some movedDocument := by
    dsimp only [sampleSystem]
    exact (if_neg (by decide)).trans (if_pos rfl)
  cases hmoved.symm.trans hfile
  cases hdoc.symm.trans hload
  cases parse_movedDocument.symm.trans hparse
  rfl

/-- A production deployment of the configuration that generates at the root. -/
theorem deployment_sample :
    let d : Deployment := .prod (sampleRelease "20260101T000000Z") CStr.empty (CStr.lit "eth0")
    ∃ config, d.configPath sampleSystem movedWorld.tree = some config ∧
      Deployed sampleSystem config d.target movedWorld.tree (d.command sampleSystem movedWorld).2 := by
  intro d
  refine deployment_runs d movedWorld ?_ ?_ ?_
  · rintro config hconfig
    cases hconfig
    show ¬(_ ∨ _)
    decide +kernel
  · rintro config cfg hconfig hreads
    cases hconfig
    cases readsAs_sample hreads
    refine ⟨?_, ?_, by decide +kernel, ?_⟩
    · show ¬(_ ∨ _)
      decide +kernel
    · show ¬(_ ∨ _)
      decide +kernel
    · rintro p (rfl | rfl | rfl)
      · decide +kernel
      · decide +kernel
      · decide +kernel
  · decide +kernel

end Zereh.Deploy
