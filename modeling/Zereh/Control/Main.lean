/-
  `control/main.c` and `control/compiler.c`: one run of `zerehctl` on the files and interfaces of a host.

  * `parseArgs_eq_some_iff`: the options are pairs `-c x` and `-i x` in any order, the last of each counts,
    and whatever follows `-c` or `-i` is its value.
  * `main_frame`: what a run may write. Only `generate` and `generate-load` write files, those of the
    configuration; only `load`, `unload` and `generate-load` touch an interface, one.
  * `generate_load_eq`: `generate-load` is `generate` and then `load`, unless the first one overwrites the
    configuration.
  * `unload_interface`: which interface `unload` works on, also when the configuration cannot be read.

  libyaml, libbpf, `clang` and the lookup of names are parameters. A path given to `fopen` is resolved by
  `place`. `clang` writes the file after `-o` and nothing else. Lines are those that `main` prints; what the
  functions it calls print is not repeated here.
-/
import Zereh.Lib.Script
import Zereh.Control.Accepted
import Zereh.Control.Codegen
import Zereh.Control.Provenance
import Zereh.Control.Swap

namespace Zereh.Control

open Lib CText

/-! ## The host -/

/-- `zereh_build_info.h`. -/
structure Build where
  version : List UInt8
  revision : List UInt8
  timestampUtc : List UInt8

structure System where
  build : Build
  /-- `yaml_parser_load` on the text of a file. -/
  yamlLoad : List UInt8 → Option YamlDocument
  place : CStr → Path
  ifNameToIndex : CStr → Nat
  /-- The last `-I` of `zereh_compile_generated_bpf`, if the architecture has one. -/
  archInclude : Option (List UInt8)
  /-- For its arguments and the files: whether the compiler exits with 0, and what is at the output then. -/
  clang : List (List UInt8) → FileTree → Bool × Option (List UInt8)
  /-- `bpf_object__open_file` on the content of a file. -/
  openObject : List UInt8 → Option BpfObject

/-- The files, and the interfaces by their index. -/
structure World where
  tree : FileTree
  interfaces : Nat → Interface

/-- What the system answers to the calls of one process. `torn` is what a failed `fwrite` leaves. -/
structure Process where
  calloc : Bool
  yamlInit : Bool
  torn : Option (List UInt8)
  forked : Bool
  load : LoadEnv
  unload : UnloadEnv

/-- What `main` prints. -/
inductive Line where
  | usage (prog : CStr)
  | unknownHash (name : CStr)
  | hash (h : UInt64)
  | version (build : Build)
  | noMemory
  | parseFailed (path : CStr)
  | unloadRequires
  | proceeding (path : CStr)
  | unloadFailed
  | generationFailed
  | compileFailed
  | generated (source object : CStr)
  | loadFailed

/-- Without the last newline. -/
def Line.text : Line → List UInt8
  | .usage prog =>
      ascii "Usage:\n" ++
        ascii "  " ++ prog.bytes ++ ascii " generate -c <config.yaml>\n" ++
        ascii "  " ++ prog.bytes ++ ascii " load -c <config.yaml> [-i ifname]\n" ++
        ascii "  " ++ prog.bytes ++ ascii " unload -c <config.yaml> [-i ifname]\n" ++
        ascii "  " ++ prog.bytes ++ ascii " generate-load -c <config.yaml> [-i ifname]\n" ++
        ascii "  " ++ prog.bytes ++ ascii " hash <domain> [fnv1a|siphash]\n" ++
        ascii "  " ++ prog.bytes ++ ascii " version"
  | .unknownHash name => ascii "unknown hash algorithm: " ++ name.bytes
  | .hash h => ascii "0x" ++ hexPadded h.toNat
  | .version build =>
      ascii "zereh version: " ++ build.version ++
        ascii "\nzereh revision: " ++ build.revision ++
        ascii "\nzereh build timestamp (UTC): " ++ build.timestampUtc ++
        ascii "\nlicense: AGPL-3.0-or-later" ++
        ascii "\ncommercial holder: IO-SEC Nordic AB" ++
        ascii "\ncommercial contact: commercial-license@io-sec.eu"
  | .noMemory => ascii "failed to allocate config"
  | .parseFailed path => ascii "failed to parse config: " ++ path.bytes
  | .unloadRequires =>
      ascii "unload requires either a valid config or explicit interface override (-i)"
  | .proceeding path =>
      ascii "warning: failed to parse config (" ++ path.bytes ++
        ascii "); proceeding with explicit interface override"
  | .unloadFailed => ascii "unload failed"
  | .generationFailed => ascii "generation failed"
  | .compileFailed => ascii "compile failed"
  | .generated source object =>
      ascii "generated and compiled: " ++ source.bytes ++ ascii " -> " ++ object.bytes
  | .loadFailed => ascii "load failed"

/-! ## The functions that `main` calls -/

variable (sys : System) (proc : Process)

/-- The interface that `cfg` holds when `zereh_parse_config_yaml` returns, valid or not. It is read from the
    `global` section and, if that has no error, from the root; nothing after that changes it
    (`interfaceIn_eq`). -/
def interfaceIn (doc : YamlDocument) : CStr :=
  match doc.getRootNode with
  | some (.mapping pairs) =>
    let root := YamlNode.mapping pairs
    let name (map : YamlNode) : Config → Parsed Config :=
      textField (ifnamsiz - 1) (mapGet doc map "interface") setInterface
    match subsection (mapGet doc root "global") (parseGlobalKeys doc) configInitDefaults with
    | .error _ =>
      match subsection (mapGet doc root "global") name configInitDefaults with
      | .ok cfg => cfg.interface
      | .error _ => configInitDefaults.interface
    | .ok cfg =>
      match name root cfg with
      | .ok cfg => cfg.interface
      | .error _ => cfg.interface
  | _ => configInitDefaults.interface

/-- `zereh_parse_config_yaml`: whether it returns 0, and `cfg` after it. Of a configuration that is not
    valid only the interface is looked at, so only that is kept. -/
def readConfig (tree : FileTree) (path : CStr) : Bool × Config :=
  match tree.files (sys.place path) with
  | none => (false, configInitDefaults)
  | some text =>
    if !proc.yamlInit then (false, configInitDefaults)
    else
      match sys.yamlLoad text with
      | none => (false, configInitDefaults)
      | some doc =>
        match parseConfigYaml doc with
        | .ok cfg => (true, cfg)
        | .error _ => (false, { configInitDefaults with interface := interfaceIn doc })

/-- `zereh_generate_xdp_source` with its files: whether it returns 0. -/
def generateSource (cfg : Config) (tree : FileTree) : Bool × FileTree :=
  let source := sys.place cfg.generatedSource
  let template := tree.files (sys.place cfg.templatePath)
  match generateXdpSource cfg template (tree.writable source && proc.torn.isNone) with
  | .ok text => (true, tree.put source text)
  | .error (.readTemplate _) => (false, tree)
  | .error (.writeSource _) =>
    match proc.torn with
    | some torn => (false, if tree.writable source then tree.put source torn else tree)
    | none => (false, tree)

/-- The arguments of `zereh_compile_generated_bpf`. -/
def compilerArgs (cfg : Config) : List (List UInt8) :=
  [ascii "clang", ascii "-O3", ascii "-g", ascii "-target", ascii "bpf", ascii "-D__TARGET_ARCH_x86",
      ascii "-Wall", ascii "-Werror"] ++
    (if cfg.optimizeJumpTables then [] else [ascii "-fno-jump-tables"]) ++
    [ascii "-I./xdp", ascii "-I./include", ascii "-I/usr/include"] ++ sys.archInclude.toList ++
    [ascii "-c", cfg.generatedSource.bytes, ascii "-o", cfg.generatedObject.bytes]

/-- `zereh_compile_generated_bpf`. -/
def compileGeneratedBpf (cfg : Config) (tree : FileTree) : Bool × FileTree :=
  if !proc.forked then (false, tree)
  else
    let object := sys.place cfg.generatedObject
    match sys.clang (compilerArgs sys cfg) tree with
    | (ok, some content) => (ok, tree.put object content)
    | (ok, none) => (ok, tree.remove object)

/-- `zereh_load_and_swap_xdp` with the object file and the interface. -/
def loadObject (cfg : Config) (ifnameOverride : Option CStr) (w : World) : Int × World :=
  let ifindex := sys.ifNameToIndex (chosenInterface cfg ifnameOverride)
  let object := (w.tree.files (sys.place cfg.generatedObject)).bind sys.openObject
  let env := { proc.load with
    ifindex := ifindex, opened := proc.load.opened && object.isSome, obj := object.getD proc.load.obj }
  match loadAndSwapXdp cfg ifnameOverride env (w.interfaces ifindex) with
  | (rc, iface) => (rc, { w with interfaces := Function.update w.interfaces ifindex iface })

/-- `zereh_detach_xdp` with the interface. -/
def detachInterface (cfg : Config) (ifnameOverride : Option CStr) (w : World) : Int × World :=
  let ifindex := sys.ifNameToIndex (chosenInterface cfg ifnameOverride)
  let env := { proc.unload with ifindex := ifindex }
  match detachXdp cfg ifnameOverride env (w.interfaces ifindex) with
  | (rc, iface) => (rc, { w with interfaces := Function.update w.interfaces ifindex iface })

/-! ## The commands -/

/-- `strcmp (s, word) == 0`. -/
def isWord (s : CStr) (word : String) : Bool := s.bytes == ascii word

/-- The loop over `argv[2]` and after: the configuration and the interface. -/
def parseArgs : List CStr → CStr × Option CStr → Option (CStr × Option CStr)
  | [], opts => some opts
  | [_], _ => none
  | arg :: value :: args, opts =>
    if isWord arg "-c" then parseArgs args (value, opts.2)
    else if isWord arg "-i" then parseArgs args (opts.1, some value)
    else none

structure Ended where
  rc : Int
  lines : List Line
  world : World

/-- `hash`. -/
def hashCommand (prog : CStr) (args : List CStr) (w : World) : Ended :=
  match args with
  | [] => ⟨1, [.usage prog], w⟩
  | [domain] => ⟨0, [.hash (hashDomain domain .fnv1a)], w⟩
  | domain :: name :: _ =>
    if caseEq name.bytes (ascii "siphash") then ⟨0, [.hash (hashDomain domain .siphash)], w⟩
    else if caseEq name.bytes (ascii "fnv1a") || caseEq name.bytes (ascii "fnv-1a") then
      ⟨0, [.hash (hashDomain domain .fnv1a)], w⟩
    else ⟨1, [.unknownHash name], w⟩

/-- `unload`. -/
def unloadCommand (configPath : CStr) (ifnameOverride : Option CStr) (w : World) : Ended :=
  let detach (lines : List Line) (cfg : Config) : Ended :=
    match detachInterface sys proc cfg ifnameOverride w with
    | (rc, w) => if rc ≠ 0 then ⟨1, lines ++ [.unloadFailed], w⟩ else ⟨0, lines, w⟩
  match readConfig sys proc w.tree configPath with
  | (true, cfg) => detach [] cfg
  | (false, cfg) =>
    match ifnameOverride with
    | none => ⟨1, [.parseFailed configPath, .unloadRequires], w⟩
    | some _ => detach [.proceeding configPath] cfg

/-- The two steps of `generate`: the line of the one that fails, if one does. -/
def generateObject (cfg : Config) (w : World) : Option Line × World :=
  match generateSource sys proc cfg w.tree with
  | (false, tree) => (some .generationFailed, { w with tree := tree })
  | (true, tree) =>
    match compileGeneratedBpf sys proc cfg tree with
    | (false, tree) => (some .compileFailed, { w with tree := tree })
    | (true, tree) => (none, { w with tree := tree })

/-- `generate`. -/
def generateCommand (cfg : Config) (w : World) : Ended :=
  match generateObject sys proc cfg w with
  | (some line, w) => ⟨1, [line], w⟩
  | (none, w) => ⟨0, [.generated cfg.generatedSource cfg.generatedObject], w⟩

/-- `load`. -/
def loadCommand (cfg : Config) (ifnameOverride : Option CStr) (w : World) : Ended :=
  match loadObject sys proc cfg ifnameOverride w with
  | (rc, w) => if rc ≠ 0 then ⟨1, [.loadFailed], w⟩ else ⟨0, [], w⟩

/-- `generate-load`. -/
def generateLoadCommand (cfg : Config) (ifnameOverride : Option CStr) (w : World) : Ended :=
  match generateObject sys proc cfg w with
  | (some line, w) => ⟨1, [line], w⟩
  | (none, w) => loadCommand sys proc cfg ifnameOverride w

/-- `main` from where the options are read. -/
def commandWithConfig (prog cmd configPath : CStr) (ifnameOverride : Option CStr) (w : World) : Ended :=
  if isWord cmd "unload" then unloadCommand sys proc configPath ifnameOverride w
  else
    match readConfig sys proc w.tree configPath with
    | (false, _) => ⟨1, [.parseFailed configPath], w⟩
    | (true, cfg) =>
      if isWord cmd "generate" then generateCommand sys proc cfg w
      else if isWord cmd "load" then loadCommand sys proc cfg ifnameOverride w
      else if isWord cmd "generate-load" then generateLoadCommand sys proc cfg ifnameOverride w
      else ⟨1, [.usage prog], w⟩

/-- `main`. -/
def main (prog : CStr) (args : List CStr) (w : World) : Ended :=
  match args with
  | [] => ⟨1, [.usage prog], w⟩
  | cmd :: args =>
    if isWord cmd "hash" then hashCommand prog args w
    else if isWord cmd "version" then ⟨0, [.version sys.build], w⟩
    else if !proc.calloc then ⟨1, [.noMemory], w⟩
    else
      match parseArgs args (CStr.lit "config.yaml", none) with
      | none => ⟨1, [.usage prog], w⟩
      | some (configPath, ifnameOverride) =>
        commandWithConfig sys proc prog cmd configPath ifnameOverride w

/-! ## Arguments -/

inductive Opt where
  | config (path : CStr)
  | interface (name : CStr)

def Opt.args : Opt → List CStr
  | .config path => [CStr.lit "-c", path]
  | .interface name => [CStr.lit "-i", name]

def Opt.apply (opts : CStr × Option CStr) : Opt → CStr × Option CStr
  | .config path => (path, opts.2)
  | .interface name => (opts.1, some name)

theorem eq_lit_of_isWord {s : CStr} {word : String} (hnul : (0 : UInt8) ∉ ascii word)
    (h : isWord s word = true) : s = CStr.lit word := by
  rw [isWord, beq_iff_eq] at h
  cases s
  rw [CStr.mk.injEq]
  exact h.trans (CStr.bytes_ofBytes hnul).symm

/-- The options are accepted exactly when they are pairs, and the last of each kind counts. -/
theorem parseArgs_eq_some_iff (args : List CStr) (opts r : CStr × Option CStr) :
    parseArgs args opts = some r ↔
      ∃ given : List Opt, args = given.flatMap Opt.args ∧ given.foldl Opt.apply opts = r := by
  constructor
  · intro h
    fun_induction parseArgs args opts with
    | case1 opts =>
      cases h
      exact ⟨[], rfl, rfl⟩
    | case2 opts => cases h
    | case3 arg value args opts hc ih =>
      obtain ⟨given, rfl, hr⟩ := ih h
      exact ⟨.config value :: given, by rw [eq_lit_of_isWord (by decide) hc]; rfl, hr⟩
    | case4 arg value args opts hc hi ih =>
      obtain ⟨given, rfl, hr⟩ := ih h
      exact ⟨.interface value :: given, by rw [eq_lit_of_isWord (by decide) hi]; rfl, hr⟩
    | case5 arg value args opts hc hi => cases h
  · rintro ⟨given, rfl, rfl⟩
    induction given generalizing opts with
    | nil => rfl
    | cons opt given ih =>
      cases opt with
      | config path => exact ih (path, opts.2)
      | interface name => exact ih (opts.1, some name)

/-! ## What a run writes -/

/-- `p` is a file that `generate` writes for `cfg`. -/
def Generates (cfg : Config) (p : Path) : Prop :=
  p = sys.place cfg.generatedSource ∨ p = sys.place cfg.generatedObject

/-- From one tree to another only the files of `cfg` change. -/
structure Rewrites (cfg : Config) (t t' : FileTree) : Prop where
  dirs : t'.dirs = t.dirs
  files : ∀ p, ¬Generates sys cfg p → t'.files p = t.files p

section Frame

variable {sys : System} {proc : Process} {cfg : Config}

theorem rewrites_refl (t : FileTree) : Rewrites sys cfg t t := ⟨rfl, fun _ _ => rfl⟩

theorem Rewrites.trans {t t' t'' : FileTree} (h : Rewrites sys cfg t t') (h' : Rewrites sys cfg t' t'') :
    Rewrites sys cfg t t'' :=
  ⟨h'.dirs.trans h.dirs, fun p hp => (h'.files p hp).trans (h.files p hp)⟩

theorem rewrites_update (t : FileTree) {q : Path} (hq : Generates sys cfg q) (c : Option (List UInt8)) :
    Rewrites sys cfg t { t with files := Function.update t.files q c } :=
  ⟨rfl, fun p hp => Function.update_of_ne (fun heq : p = q => hp (heq ▸ hq)) ..⟩

theorem generateSource_rewrites (sys : System) (proc : Process) (cfg : Config) (t : FileTree) :
    Rewrites sys cfg t (generateSource sys proc cfg t).2 := by
  unfold generateSource
  dsimp only
  split
  · exact rewrites_update t (.inl rfl) _
  · exact rewrites_refl t
  · split
    · split_ifs
      · exact rewrites_update t (.inl rfl) _
      · exact rewrites_refl t
    · exact rewrites_refl t

theorem compileGeneratedBpf_rewrites (sys : System) (proc : Process) (cfg : Config) (t : FileTree) :
    Rewrites sys cfg t (compileGeneratedBpf sys proc cfg t).2 := by
  unfold compileGeneratedBpf
  split_ifs
  · exact rewrites_refl t
  · dsimp only
    split
    · exact rewrites_update t (.inr rfl) _
    · exact rewrites_update t (.inr rfl) _

theorem generateObject_frame (sys : System) (proc : Process) (cfg : Config) (w : World) :
    Rewrites sys cfg w.tree (generateObject sys proc cfg w).2.tree ∧
      (generateObject sys proc cfg w).2.interfaces = w.interfaces := by
  have hsource := generateSource_rewrites sys proc cfg w.tree
  unfold generateObject
  split
  · next tree heq =>
    rw [heq] at hsource
    exact ⟨hsource, rfl⟩
  · next tree heq =>
    rw [heq] at hsource
    have hobject := compileGeneratedBpf_rewrites sys proc cfg tree
    split
    · next tree' heq' =>
      rw [heq'] at hobject
      exact ⟨hsource.trans hobject, rfl⟩
    · next tree' heq' =>
      rw [heq'] at hobject
      exact ⟨hsource.trans hobject, rfl⟩

/-- From one state of the interfaces to another only the one of the name changes. -/
def Touches (sys : System) (cfg : Config) (ifnameOverride : Option CStr) (f f' : Nat → Interface) : Prop :=
  ∀ i, f' i ≠ f i → i ≠ 0 ∧ i = sys.ifNameToIndex (chosenInterface cfg ifnameOverride)

theorem touches_refl (ifnameOverride : Option CStr) (f : Nat → Interface) :
    Touches sys cfg ifnameOverride f f := fun _ h => absurd rfl h

variable {ifnameOverride : Option CStr}

theorem touches_update {f : Nat → Interface} {iface : Interface}
    (h : sys.ifNameToIndex (chosenInterface cfg ifnameOverride) = 0 → iface = f 0) :
    Touches sys cfg ifnameOverride f
      (Function.update f (sys.ifNameToIndex (chosenInterface cfg ifnameOverride)) iface) := by
  intro i hi
  have heq : i = sys.ifNameToIndex (chosenInterface cfg ifnameOverride) := by
    by_contra hne
    exact hi (Function.update_of_ne hne ..)
  refine ⟨fun hzero => hi ?_, heq⟩
  rw [hzero] at heq ⊢
  rw [← heq, Function.update_self]
  exact h heq.symm

theorem loadObject_frame (sys : System) (proc : Process) (cfg : Config)
    (ifnameOverride : Option CStr) (w : World) :
    (loadObject sys proc cfg ifnameOverride w).2.tree = w.tree ∧
      Touches sys cfg ifnameOverride w.interfaces
        (loadObject sys proc cfg ifnameOverride w).2.interfaces := by
  refine ⟨rfl, ?_⟩
  show Touches sys cfg ifnameOverride w.interfaces (Function.update _ _ (loadAndSwapXdp _ _ _ _).2)
  refine touches_update fun hzero => ?_
  unfold loadAndSwapXdp
  rw [if_pos hzero, hzero]

theorem detachInterface_frame (sys : System) (proc : Process) (cfg : Config)
    (ifnameOverride : Option CStr) (w : World) :
    (detachInterface sys proc cfg ifnameOverride w).2.tree = w.tree ∧
      Touches sys cfg ifnameOverride w.interfaces
        (detachInterface sys proc cfg ifnameOverride w).2.interfaces := by
  refine ⟨rfl, ?_⟩
  show Touches sys cfg ifnameOverride w.interfaces (Function.update _ _ (detachXdp _ _ _ _).2)
  refine touches_update fun hzero => ?_
  unfold detachXdp
  rw [if_pos hzero, hzero]

theorem loadCommand_frame (sys : System) (proc : Process) (cfg : Config)
    (ifnameOverride : Option CStr) (w : World) :
    (loadCommand sys proc cfg ifnameOverride w).world.tree = w.tree ∧
      Touches sys cfg ifnameOverride w.interfaces
        (loadCommand sys proc cfg ifnameOverride w).world.interfaces := by
  have hframe := loadObject_frame sys proc cfg ifnameOverride w
  unfold loadCommand
  dsimp only
  split_ifs
  · exact hframe
  · exact hframe

theorem generateCommand_frame (sys : System) (proc : Process) (cfg : Config) (w : World) :
    Rewrites sys cfg w.tree (generateCommand sys proc cfg w).world.tree ∧
      (generateCommand sys proc cfg w).world.interfaces = w.interfaces := by
  have hframe := generateObject_frame sys proc cfg w
  unfold generateCommand
  split
  · next heq => rw [heq] at hframe; exact hframe
  · next heq => rw [heq] at hframe; exact hframe

theorem generateLoadCommand_frame (sys : System) (proc : Process) (cfg : Config)
    (ifnameOverride : Option CStr) (w : World) :
    Rewrites sys cfg w.tree (generateLoadCommand sys proc cfg ifnameOverride w).world.tree ∧
      Touches sys cfg ifnameOverride w.interfaces
        (generateLoadCommand sys proc cfg ifnameOverride w).world.interfaces := by
  have hframe := generateObject_frame sys proc cfg w
  unfold generateLoadCommand
  split
  · next heq =>
    rw [heq] at hframe
    refine ⟨hframe.1, ?_⟩
    rw [hframe.2]
    exact touches_refl _ _
  · next w' heq =>
    rw [heq] at hframe
    have hload := loadCommand_frame sys proc cfg ifnameOverride w'
    rw [hframe.2] at hload
    rw [hload.1]
    exact ⟨hframe.1, hload.2⟩

end Frame

/-- The configuration and the interface that the options name. -/
def settings (given : List Opt) : CStr × Option CStr :=
  given.foldl Opt.apply (CStr.lit "config.yaml", none)

/-- The file is written by a run with these arguments: `generate` is asked for, and the configuration
    names it. -/
def MayWrite (args : List CStr) (w : World) (p : Path) : Prop :=
  ∃ cmd given cfg, args = cmd :: given.flatMap Opt.args ∧
    (isWord cmd "generate" = true ∨ isWord cmd "generate-load" = true) ∧
    readConfig sys proc w.tree (settings given).1 = (true, cfg) ∧ Generates sys cfg p

/-- The interface is touched by a run with these arguments: `load` or `unload` is asked for, and the options
    or the configuration name it. -/
def MayTouch (args : List CStr) (w : World) (i : Nat) : Prop :=
  ∃ cmd given, args = cmd :: given.flatMap Opt.args ∧
    (isWord cmd "load" = true ∨ isWord cmd "unload" = true ∨ isWord cmd "generate-load" = true) ∧
    i ≠ 0 ∧ i = sys.ifNameToIndex
      (chosenInterface (readConfig sys proc w.tree (settings given).1).2 (settings given).2)

section MainFrame

variable {sys : System} {proc : Process} {cfg : Config} {w w' : World} {cmd : CStr} {given : List Opt}

theorem Rewrites.mayWrite (h : Rewrites sys cfg w.tree w'.tree)
    (hcmd : isWord cmd "generate" = true ∨ isWord cmd "generate-load" = true)
    (hconfig : readConfig sys proc w.tree (settings given).1 = (true, cfg)) (p : Path)
    (hp : w'.tree.files p ≠ w.tree.files p) :
    MayWrite sys proc (cmd :: given.flatMap Opt.args) w p := by
  refine ⟨cmd, given, cfg, rfl, hcmd, hconfig, ?_⟩
  by_contra hgen
  exact hp (h.files p hgen)

theorem Touches.mayTouch {ok : Bool} (h : Touches sys cfg (settings given).2 w.interfaces w'.interfaces)
    (hcmd : isWord cmd "load" = true ∨ isWord cmd "unload" = true ∨ isWord cmd "generate-load" = true)
    (hconfig : readConfig sys proc w.tree (settings given).1 = (ok, cfg)) (i : Nat)
    (hi : w'.interfaces i ≠ w.interfaces i) :
    MayTouch sys proc (cmd :: given.flatMap Opt.args) w i := by
  obtain ⟨hzero, heq⟩ := h i hi
  refine ⟨cmd, given, rfl, hcmd, hzero, ?_⟩
  rw [hconfig]
  exact heq

theorem unloadCommand_frame (sys : System) (proc : Process) (configPath : CStr)
    (ifnameOverride : Option CStr) (w : World) :
    (unloadCommand sys proc configPath ifnameOverride w).world.tree = w.tree ∧
      Touches sys (readConfig sys proc w.tree configPath).2 ifnameOverride w.interfaces
        (unloadCommand sys proc configPath ifnameOverride w).world.interfaces := by
  have hframe (cfg : Config) := detachInterface_frame sys proc cfg ifnameOverride w
  unfold unloadCommand
  split
  · next cfg heq =>
    rw [heq]
    dsimp only
    split_ifs
    · exact hframe cfg
    · exact hframe cfg
  · next cfg heq =>
    rw [heq]
    split
    · exact ⟨rfl, touches_refl _ _⟩
    · dsimp only
      split_ifs
      · exact hframe cfg
      · exact hframe cfg

/-- From one world to another only what the arguments permit changes. -/
structure Permitted (sys : System) (proc : Process) (args : List CStr) (w w' : World) : Prop where
  dirs : w'.tree.dirs = w.tree.dirs
  files : ∀ p, w'.tree.files p ≠ w.tree.files p → MayWrite sys proc args w p
  interfaces : ∀ i, w'.interfaces i ≠ w.interfaces i → MayTouch sys proc args w i

theorem permitted_refl {args : List CStr} : Permitted sys proc args w w :=
  ⟨rfl, fun _ h => absurd rfl h, fun _ h => absurd rfl h⟩

theorem commandWithConfig_permitted (prog cmd : CStr) (given : List Opt) (w : World) :
    Permitted sys proc (cmd :: given.flatMap Opt.args) w
      (commandWithConfig sys proc prog cmd (settings given).1 (settings given).2 w).world := by
  unfold commandWithConfig
  by_cases hunload : isWord cmd "unload" = true
  · rw [if_pos hunload]
    have hframe := unloadCommand_frame sys proc (settings given).1 (settings given).2 w
    refine ⟨congrArg _ hframe.1, fun p hp => absurd (by rw [hframe.1]) hp, ?_⟩
    exact hframe.2.mayTouch (.inr (.inl hunload)) rfl
  · rw [if_neg hunload]
    split
    · exact permitted_refl
    · next cfg hconfig =>
      split_ifs with hgenerate hload hboth
      · have hframe := generateCommand_frame sys proc cfg w
        refine ⟨hframe.1.dirs, hframe.1.mayWrite (.inl hgenerate) hconfig, ?_⟩
        exact fun i hi => absurd (by rw [hframe.2]) hi
      · have hframe := loadCommand_frame sys proc cfg (settings given).2 w
        refine ⟨congrArg _ hframe.1, fun p hp => absurd (by rw [hframe.1]) hp, ?_⟩
        exact hframe.2.mayTouch (.inl hload) hconfig
      · have hframe := generateLoadCommand_frame sys proc cfg (settings given).2 w
        refine ⟨hframe.1.dirs, hframe.1.mayWrite (.inr hboth) hconfig, ?_⟩
        exact hframe.2.mayTouch (.inr (.inr hboth)) hconfig
      · exact permitted_refl

/-- A run changes no directory, only the files that `generate` is to write, and only the interface that
    is to be loaded or unloaded. -/
theorem main_frame (prog : CStr) (args : List CStr) (w : World) :
    Permitted sys proc args w (main sys proc prog args w).world := by
  unfold main
  cases args with
  | nil => exact permitted_refl
  | cons cmd args =>
    dsimp only
    split_ifs
    · unfold hashCommand
      split
      · exact permitted_refl
      · exact permitted_refl
      · split_ifs
        · exact permitted_refl
        · exact permitted_refl
        · exact permitted_refl
    · exact permitted_refl
    · exact permitted_refl
    · cases hargs : parseArgs args (CStr.lit "config.yaml", none) with
      | none => exact permitted_refl
      | some opts =>
        obtain ⟨given, rfl, rfl⟩ := (parseArgs_eq_some_iff _ _ _).mp hargs
        exact commandWithConfig_permitted prog cmd given w

/-! ## Two runs and one -/

theorem isWord_lit {word other : String} (hnul : (0 : UInt8) ∉ ascii word) :
    isWord (CStr.lit word) other = (ascii word == ascii other) := by
  rw [isWord, CStr.lit, CStr.bytes_ofBytes hnul]

/-- A command with options. -/
theorem main_eq {word : String} (prog : CStr) (hnul : (0 : UInt8) ∉ ascii word)
    (hhash : ascii word ≠ ascii "hash") (hversion : ascii word ≠ ascii "version") (args : List CStr)
    (w : World) :
    main sys proc prog (CStr.lit word :: args) w =
      if !proc.calloc then ⟨1, [.noMemory], w⟩
      else
        match parseArgs args (CStr.lit "config.yaml", none) with
        | none => ⟨1, [.usage prog], w⟩
        | some (configPath, ifnameOverride) =>
          commandWithConfig sys proc prog (CStr.lit word) configPath ifnameOverride w := by
  unfold main
  dsimp only
  rw [isWord_lit hnul, isWord_lit hnul, if_neg (by simpa using hhash), if_neg (by simpa using hversion)]

/-- The file of the configuration is the same after `generate`. -/
theorem readConfig_generateObject (proc : Process) {configPath : CStr} (w : World)
    (hconfig : ¬Generates sys cfg (sys.place configPath)) :
    readConfig sys proc (generateObject sys proc cfg w).2.tree configPath =
      readConfig sys proc w.tree configPath := by
  unfold readConfig
  rw [(generateObject_frame sys proc cfg w).1.files _ hconfig]

theorem commandWithConfig_generate (sys : System) (proc : Process) (prog configPath : CStr)
    (ifnameOverride : Option CStr) (w : World) :
    commandWithConfig sys proc prog (CStr.lit "generate") configPath ifnameOverride w =
      match readConfig sys proc w.tree configPath with
      | (false, _) => ⟨1, [.parseFailed configPath], w⟩
      | (true, cfg) => generateCommand sys proc cfg w := rfl

theorem commandWithConfig_load (sys : System) (proc : Process) (prog configPath : CStr)
    (ifnameOverride : Option CStr) (w : World) :
    commandWithConfig sys proc prog (CStr.lit "load") configPath ifnameOverride w =
      match readConfig sys proc w.tree configPath with
      | (false, _) => ⟨1, [.parseFailed configPath], w⟩
      | (true, cfg) => loadCommand sys proc cfg ifnameOverride w := rfl

theorem commandWithConfig_generateLoad (prog configPath : CStr) (ifnameOverride : Option CStr) (w : World)
    (hkept : ∀ cfg, readConfig sys proc w.tree configPath = (true, cfg) →
      ¬Generates sys cfg (sys.place configPath)) :
    let run (word : String) := commandWithConfig sys proc prog (CStr.lit word) configPath ifnameOverride
    run "generate-load" w =
      if (run "generate" w).rc = 0 then run "load" (run "generate" w).world else run "generate" w := by
  have hboth : commandWithConfig sys proc prog (CStr.lit "generate-load") configPath ifnameOverride w =
      match readConfig sys proc w.tree configPath with
      | (false, _) => ⟨1, [.parseFailed configPath], w⟩
      | (true, cfg) => generateLoadCommand sys proc cfg ifnameOverride w := rfl
  intro run
  obtain ⟨ok, cfg, hconfig⟩ : ∃ ok cfg, readConfig sys proc w.tree configPath = (ok, cfg) := ⟨_, _, rfl⟩
  rw [hconfig] at hboth
  have hgenerated := commandWithConfig_generate sys proc prog configPath ifnameOverride w
  rw [hconfig] at hgenerated
  cases ok with
  | false =>
    rw [show run "generate-load" w = _ from hboth, show run "generate" w = _ from hgenerated]
    rfl
  | true =>
    obtain ⟨failed, w', hgen⟩ : ∃ failed w', generateObject sys proc cfg w = (failed, w') := ⟨_, _, rfl⟩
    have hagain := readConfig_generateObject proc w (hkept cfg hconfig)
    rw [hgen, hconfig] at hagain
    dsimp only at hboth hgenerated hagain
    unfold generateLoadCommand at hboth
    unfold generateCommand at hgenerated
    rw [hgen] at hboth hgenerated
    rw [show run "generate-load" w = _ from hboth, show run "generate" w = _ from hgenerated]
    cases failed with
    | some line => rfl
    | none =>
      have hloaded := commandWithConfig_load sys proc prog configPath ifnameOverride w'
      rw [hagain] at hloaded
      exact hloaded.symm

/-- `generate-load` is `generate` followed by `load`, as two processes with the same answers, unless the
    first writes the file that holds the configuration. It prints what the last of them prints: the
    line of a `generate` that succeeds is left out. -/
theorem generate_load_eq (prog : CStr) (args : List CStr) (w : World)
    (hkept : ∀ configPath ifnameOverride cfg,
      parseArgs args (CStr.lit "config.yaml", none) = some (configPath, ifnameOverride) →
      readConfig sys proc w.tree configPath = (true, cfg) → ¬Generates sys cfg (sys.place configPath)) :
    let generated := main sys proc prog (CStr.lit "generate" :: args) w
    main sys proc prog (CStr.lit "generate-load" :: args) w =
      if generated.rc = 0 then main sys proc prog (CStr.lit "load" :: args) generated.world
      else generated := by
  intro generated
  unfold generated
  rw [main_eq _ (by decide) (by decide) (by decide), main_eq _ (by decide) (by decide) (by decide),
    main_eq _ (by decide) (by decide) (by decide)]
  cases proc.calloc with
  | false => rfl
  | true =>
    cases hargs : parseArgs args (CStr.lit "config.yaml", none) with
    | none => rfl
    | some opts =>
      obtain ⟨configPath, ifnameOverride⟩ := opts
      exact commandWithConfig_generateLoad prog configPath ifnameOverride w
        (hkept configPath ifnameOverride · hargs)

end MainFrame

/-! ## Unloading -/

section Unload

variable {doc : YamlDocument} {cfg : Config}

theorem parseGlobalKeys_interface {map : YamlNode} {cfg' : Config}
    (h : parseGlobalKeys doc map cfg = .ok cfg') :
    ∃ cfg'', textField (ifnamsiz - 1) (mapGet doc map "interface") setInterface cfg = .ok cfg'' ∧
      cfg'.interface = cfg''.interface := by
  obtain ⟨cfg'', hname, hrest⟩ := bind_eq_ok h
  have hleaves : Leaves Config.interface (field (mapGet doc map "xdp_mode") parseXdpMode setXdpMode >=>
      field (mapGet doc map "default_action") parseDefaultAction setDefaultAction) :=
    .comp (field_leaves fun _ _ => rfl) (field_leaves fun _ _ => rfl)
  exact ⟨cfg'', hname, hleaves _ _ hrest⟩

theorem parseGlobalFilters_interface (doc : YamlDocument) (root : YamlNode) :
    Leaves Config.interface (parseGlobalFilters doc root) := by
  have hkeys : ∀ key node, Leaves Config.interface (parseFilterKeys doc key node) := by
    intro key node
    refine .comp ?_ <| .comp ?_ <| .comp ?_ ?_
    all_goals exact field_leaves fun _ _ => rfl
  exact .comp (subsection_leaves (hkeys _)) (hkeys _ root)

theorem parseCodegenOptions_interface (doc : YamlDocument) (root : YamlNode) :
    Leaves Config.interface (parseCodegenOptions doc root) := by
  refine subsection_leaves fun node => .comp ?_ <| .comp ?_ ?_
  all_goals exact field_leaves fun _ _ => rfl

/-- After the global section no step of `zereh_parse_config_yaml` touches the interface. -/
theorem parseHead_interface {root : YamlNode} {cfg' : Config} (h : parseHead doc root cfg = .ok cfg') :
    ∃ g, parseGlobalSection doc root cfg = .ok g ∧ cfg'.interface = g.interface := by
  obtain ⟨g, hglobal, hrest⟩ := bind_eq_ok h
  have hpaths : Leaves Config.interface (parsePaths doc root) := by
    refine .comp ?_ <| .comp ?_ <| .comp ?_ ?_
    all_goals exact textField_leaves fun _ _ => rfl
  have hport : Leaves Config.interface (parseKernelPort doc root) := field_leaves fun _ _ => rfl
  have hleaves := (orSay_leaves (m := .invalidGlobalFilters) (parseGlobalFilters_interface doc root)).comp <|
    hpaths.comp <| (orSay_leaves (m := .invalidKernelPort) hport).comp <|
      orSay_leaves (m := .invalidCodegenOptions) (parseCodegenOptions_interface doc root)
  exact ⟨g, orSay_eq_ok hglobal, hleaves _ _ hrest⟩

theorem interfaceIn_eq (h : parseConfigYaml doc = .ok cfg) : cfg.interface = interfaceIn doc := by
  unfold parseConfigYaml at h
  split at h
  · next pairs hroot =>
    unfold interfaceIn
    rw [hroot]
    obtain ⟨head, hhead, h⟩ := bind_eq_ok h
    have hcfg : cfg.interface = head.interface := by
      split at h
      · cases h
      · next node hnode =>
        obtain ⟨routed, hroutes, h⟩ := bind_eq_ok h
        have hrouted : routed.interface = head.interface := by
          have hparse := orSay_eq_ok hroutes
          unfold parseRoutes at hparse
          split at hparse
          · obtain ⟨routes, -, hparse⟩ := bind_eq_ok hparse
            cases hparse
            rfl
          · cases hparse
        split_ifs at h
        cases h
        exact hrouted
    obtain ⟨g, hglobal, hg⟩ := parseHead_interface hhead
    obtain ⟨nested, hnested, hroot'⟩ := bind_eq_ok hglobal
    obtain ⟨named, hnamed, hg'⟩ := parseGlobalKeys_interface hroot'
    dsimp only
    rw [hnested]
    dsimp only
    rw [hnamed, hcfg, hg, hg']
  · cases h

/-- The interface of the configuration, if it cannot be read that of the defaults. -/
def namedInterface (tree : FileTree) (configPath : CStr) : CStr :=
  match (tree.files (sys.place configPath)).bind fun text =>
    if proc.yamlInit then sys.yamlLoad text else none with
  | none => configInitDefaults.interface
  | some doc => interfaceIn doc

theorem readConfig_interface (sys : System) (proc : Process) (tree : FileTree) (configPath : CStr) :
    (readConfig sys proc tree configPath).2.interface = namedInterface sys proc tree configPath := by
  unfold readConfig namedInterface
  cases tree.files (sys.place configPath) with
  | none => rfl
  | some text =>
    cases proc.yamlInit with
    | false => rfl
    | true =>
      show (match sys.yamlLoad text with
        | none => (false, configInitDefaults)
        | some doc => _).2.interface =
        match sys.yamlLoad text with
        | none => configInitDefaults.interface
        | some doc => interfaceIn doc
      cases sys.yamlLoad text with
      | none => rfl
      | some doc =>
        dsimp only
        split
        · next hparse => exact interfaceIn_eq hparse
        · rfl

/-- `zereh_detach_xdp` looks at nothing in the configuration but the interface. -/
theorem detachXdp_congr (cfg cfg' : Config) {ifname ifname' : Option CStr} (env : UnloadEnv)
    (iface : Interface) (h : chosenInterface cfg ifname = chosenInterface cfg' ifname') :
    detachXdp cfg ifname env iface = detachXdp cfg' ifname' env iface := by
  unfold detachXdp
  rw [h]

/-- `unload` works on the interface after `-i`, and when that is empty on the one that the configuration
    names: then also if the configuration is rejected, where `eth0` stands in for one that names none. Only
    without `-i` a rejected configuration stops it. -/
theorem unload_interface (prog : CStr) (given : List Opt) (w : World) (hcalloc : proc.calloc = true) :
    let ended := main sys proc prog (CStr.lit "unload" :: given.flatMap Opt.args) w
    let configPath := (settings given).1
    let ifnameOverride := (settings given).2
    let named := namedInterface sys proc w.tree configPath
    let target := chosenInterface (setInterface named configInitDefaults) ifnameOverride
    let ifindex := sys.ifNameToIndex target
    let detached := detachXdp (setInterface target configInitDefaults) none
      { proc.unload with ifindex := ifindex } (w.interfaces ifindex)
    if ifnameOverride = none ∧ (readConfig sys proc w.tree configPath).1 = false then
      ended = ⟨1, [.parseFailed configPath, .unloadRequires], w⟩
    else
      (ended.rc = 0 ↔ detached.1 = 0) ∧
        ended.world = { w with interfaces := Function.update w.interfaces ifindex detached.2 } := by
  intro ended configPath ifnameOverride named target ifindex detached
  have hended : ended = unloadCommand sys proc configPath ifnameOverride w := by
    unfold ended
    rw [main_eq _ (by decide) (by decide) (by decide), hcalloc,
      (parseArgs_eq_some_iff _ _ (settings given)).mpr ⟨given, rfl, rfl⟩]
    rfl
  -- the two configurations differ in nothing that is looked at
  have hdetach (cfg : Config) (hcfg : (readConfig sys proc w.tree configPath).2 = cfg) :
      detachInterface sys proc cfg ifnameOverride w =
        (detached.1, { w with interfaces := Function.update w.interfaces ifindex detached.2 }) := by
    have hinterface := readConfig_interface sys proc w.tree configPath
    rw [hcfg] at hinterface
    have hchosen : chosenInterface cfg ifnameOverride = target := by
      unfold target chosenInterface
      rw [hinterface]
      rfl
    unfold detachInterface
    rw [hchosen]
    have hsame : detachXdp cfg ifnameOverride { proc.unload with ifindex := ifindex }
        (w.interfaces ifindex) = detached := detachXdp_congr _ _ _ _ hchosen
    dsimp only
    rw [hsame]
  have hcommand (lines : List Line) (cfg : Config) (hcfg : (readConfig sys proc w.tree configPath).2 = cfg)
      (h : ended = match detachInterface sys proc cfg ifnameOverride w with
        | (rc, w) => if rc ≠ 0 then ⟨1, lines ++ [.unloadFailed], w⟩ else ⟨0, lines, w⟩) :
      (ended.rc = 0 ↔ detached.1 = 0) ∧
        ended.world = { w with interfaces := Function.update w.interfaces ifindex detached.2 } := by
    rw [hdetach cfg hcfg] at h
    dsimp only at h
    rw [h]
    split_ifs with hrc
    · exact ⟨⟨fun h => absurd (show (1 : Int) = 0 from h) (by decide), fun h => absurd h hrc⟩, rfl⟩
    · exact ⟨⟨fun _ => not_not.mp hrc, fun _ => rfl⟩, rfl⟩
  unfold unloadCommand at hended
  obtain ⟨ok, cfg, hread⟩ : ∃ ok cfg, readConfig sys proc w.tree configPath = (ok, cfg) := ⟨_, _, rfl⟩
  rw [hread] at hended ⊢
  cases ok with
  | true =>
    rw [if_neg (fun h => Bool.noConfusion h.2)]
    exact hcommand [] cfg (congrArg Prod.snd hread) hended
  | false =>
    cases hname : ifnameOverride with
    | none =>
      rw [hname] at hended
      rw [if_pos ⟨rfl, rfl⟩]
      exact hended
    | some name =>
      rw [if_neg (fun h => absurd h.1 (Option.some_ne_none name))]
      rw [hname] at hcommand
      rw [hname] at hended
      exact hcommand [.proceeding configPath] cfg (congrArg Prod.snd hread) hended

end Unload

/-! ## A small host -/

/-- The sample configuration with its source and its object at the root. -/
def movedDocument : YamlDocument where
  nodes :=
    [.mapping [(2, 3), (9, 10), (11, 12)],
      .scalar (ascii "routes"), .sequence [4],
      .mapping [(5, 6), (7, 8)],
      .scalar (ascii "domain"), .scalar (ascii "a"),
      .scalar (ascii "target"), .scalar (ascii "user_space"),
      .scalar (ascii "generated_source"), .scalar (ascii "router.c"),
      .scalar (ascii "generated_object"), .scalar (ascii "router.o")]

def movedConfig : Config :=
  { spelledConfig "a" with
    generatedSource := CStr.lit "router.c"
    generatedObject := CStr.lit "router.o" }

set_option maxRecDepth 4000 in
theorem parse_movedDocument : parseConfigYaml movedDocument = .ok movedConfig := by decide +kernel

/-- Two texts are configurations. The compiler marks the source it is given, and an object is what has the
    mark: the number of its router is its length. Paths are those of the repository. -/
def sampleSystem : System where
  build := ⟨ascii "0.1.0", ascii "nogit", ascii "unknown"⟩
  yamlLoad text :=
    if text = ascii "plain" then some (sampleDocument "0")
    else if text = ascii "moved" then some movedDocument
    else none
  place path := path.bytes.splitOn 47
  ifNameToIndex name := if isWord name "eth0" then 2 else 0
  archInclude := none
  clang args tree :=
    match (args[args.length - 3]?).bind fun source => tree.files (source.splitOn 47) with
    | some source => (true, some (ascii "elf" ++ source))
    | none => (false, none)
  openObject content := if (ascii "elf").isPrefixOf content then some (routerObject content.length) else none

def sampleProcess : Process where
  calloc := true
  yamlInit := true
  torn := none
  forked := true
  load := routerLoad 7 ⟨fun _ => true, fun _ => true, some .enoent, true, true, true, true⟩
  unload := ⟨2, some .enoent, none, fun _ => none⟩

/-- A configuration and a short template, with the directory for the source. -/
def sampleWorld : World where
  tree :=
    { dirs := [[], [ascii "build"], [ascii "build", ascii "xdp"]]
      files := fun p =>
        if p = [ascii "config.yaml"] then some (ascii "plain")
        else if p = [ascii "xdp", ascii "xdp_template.c"] then
          some (ascii "cap __ZEREH_MAX_PACKET_SIZE__")
        else none }
  interfaces _ := .empty

/-- No configuration and an empty name: it is `eth0` that is unloaded. -/
theorem unload_interface_sample :
    let ended := main sampleSystem sampleProcess (CStr.lit "zerehctl")
      [CStr.lit "unload", CStr.lit "-c", CStr.lit "other.yaml", CStr.lit "-i", CStr.empty] sampleWorld
    let detached := detachXdp configInitDefaults none sampleProcess.unload .empty
    (ended.rc = 0 ↔ detached.1 = 0) ∧
      ended.world = { sampleWorld with
        interfaces := Function.update sampleWorld.interfaces 2 detached.2 } :=
  unload_interface sampleSystem sampleProcess (CStr.lit "zerehctl")
    [.config (CStr.lit "other.yaml"), .interface CStr.empty] sampleWorld rfl

theorem readConfig_sample (proc : Process) (hinit : proc.yamlInit = true) :
    readConfig sampleSystem proc sampleWorld.tree (CStr.lit "config.yaml") = (true, sampleConfig 0) := by
  have hplace : sampleSystem.place (CStr.lit "config.yaml") = [ascii "config.yaml"] := by decide +kernel
  have hfile : sampleWorld.tree.files (sampleSystem.place (CStr.lit "config.yaml")) =
      some (ascii "plain") := by
    rw [hplace]
    dsimp only [sampleWorld]
    exact if_pos rfl
  have hload : sampleSystem.yamlLoad (ascii "plain") = some (sampleDocument "0") := by
    dsimp only [sampleSystem]
    exact if_pos rfl
  unfold readConfig
  rw [hfile]
  dsimp only
  rw [hinit, hload]
  dsimp only
  rw [parse_sampleDocument_zero]
  rfl

/-- The configuration is generated and loaded. -/
theorem generate_load_sample :
    let generated := main sampleSystem sampleProcess (CStr.lit "zerehctl") [CStr.lit "generate"] sampleWorld
    generated.rc = 0 ∧
      main sampleSystem sampleProcess (CStr.lit "zerehctl") [CStr.lit "generate-load"] sampleWorld =
        main sampleSystem sampleProcess (CStr.lit "zerehctl") [CStr.lit "load"] generated.world := by
  intro generated
  have hrc : generated.rc = 0 := by decide +kernel
  refine ⟨hrc, (generate_load_eq (CStr.lit "zerehctl") [] sampleWorld ?_).trans (if_pos hrc)⟩
  intro configPath ifnameOverride cfg hargs hconfig
  cases hargs
  cases (readConfig_sample sampleProcess rfl).symm.trans hconfig
  unfold Generates
  decide +kernel

end Zereh.Control
