/-
  `scripts/deploy_dev.sh`, `deploy_prod.sh`, `deploy_canary.sh`, `health_check.sh` and
  `rollback_release.sh`, and the targets of the `Makefile` that build, run `zerehctl` or run a script, as
  commands on the files and interfaces of a host.

  All of them run with `set -e` in the root of the repository. What a command of the system answers
  is in the `..Env` of the script. `make` runs with the directories of the `Makefile`: `BUILD_DIR` is not
  set to another one. A target that fails may have done a part of its work; a copy that fails leaves the
  file as it was. Log lines are left out.
-/
import Zereh.Control.Main

namespace Zereh.Deploy

open Lib Control

/-! ## The tree -/

def buildDir : Path := [ascii "build"]
def binDir : Path := buildDir ++ [ascii "bin"]
def generatedDir : Path := buildDir ++ [ascii "generated"]
def xdpDir : Path := buildDir ++ [ascii "xdp"]
def releaseBase : Path := buildDir ++ [ascii "release"]

def zerehctlPath : Path := binDir ++ [ascii "zerehctl"]
def licensePath : Path := generatedDir ++ [ascii "zereh_license.txt"]
def routerSource : Path := xdpDir ++ [ascii "router_generated.c"]
def routerObjectPath : Path := xdpDir ++ [ascii "router_generated.o"]

/-- What `make clean` removes besides the build directory. -/
def cleanedFiles : List Path :=
  [[ascii "control", ascii "zerehctl"], [ascii "apps", ascii "zereh_rx"],
    [ascii "apps", ascii "mock_dns_server"], [ascii "xdp", ascii "router_generated.c"],
    [ascii "xdp", ascii "router_generated.o"]]

/-- What `make build-metadata` writes. -/
def metadataFiles : List Path := [generatedDir ++ [ascii "zereh_build_info.h"], licensePath]

/-- What `make all` writes. -/
def builtFiles : List Path :=
  metadataFiles ++
    [zerehctlPath, binDir ++ [ascii "zereh_rx"], binDir ++ [ascii "mock_dns_server"]]

/-! ## Commands -/

def onTree (f : FileTree → Bool × FileTree) : Command World :=
  fun w => ((f w.tree).1, { w with tree := (f w.tree).2 })

/-- `make deps-check`. -/
def makeDepsCheck (ok : Bool) : Command World := fun w => (ok, w)

/-- `make clean`; `left` is what a failing `rm -rf` leaves. -/
def makeClean (left : Option (Path → Bool)) : Command World :=
  onTree fun t =>
    match left with
    | some left => (false, t.removeAll buildDir left)
    | none => (true, cleanedFiles.foldl FileTree.remove (t.removeAll buildDir fun _ => false))

/-- What a target makes when it fails, and the content of what it makes. -/
structure MakeEnv where
  ok : Bool
  made : Path → Bool
  content : Path → List UInt8

def MakeEnv.mkdir (env : MakeEnv) (t : FileTree) (p : Path) : FileTree :=
  if env.ok || env.made p then t.mkdirAll p else t

def MakeEnv.build (env : MakeEnv) (t : FileTree) (p : Path) : FileTree :=
  if env.ok || env.made p then t.put p (env.content p) else t

/-- A target that makes these directories and writes these files. -/
def makeFiles (dirs files : List Path) (env : MakeEnv) : Command World :=
  onTree fun t => (env.ok, files.foldl env.build (dirs.foldl env.mkdir t))

/-- `make all`, the first target. -/
def makeAll : MakeEnv → Command World := makeFiles [generatedDir, binDir] builtFiles

/-- `mkdir -p`. -/
def mkdirAll (ok : Bool) (p : Path) : Command World :=
  onTree fun t => if ok then (true, t.mkdirAll p) else (false, t)

/-- `cp -f`. -/
def copy (ok : Bool) (src dst : Path) : Command World :=
  onTree fun t =>
    match t.files src with
    | none => (false, t)
    | some content => if ok && t.writable dst then (true, t.put dst content) else (false, t)

variable (sys : System)

/-- `./build/bin/zerehctl`, or the same with `sudo`, that starts or not. -/
def zerehctl (started : Bool) (proc : Process) (args : List CStr) : Command World :=
  fun w =>
    if started && (w.tree.files zerehctlPath).isSome then
      let ended := main sys proc (CStr.lit "./build/bin/zerehctl") args w
      (decide (ended.rc = 0), ended.world)
    else (false, w)

/-- `generate -c "$CONFIG_PATH"`. -/
def generateArgs (config : CStr) : List CStr := [CStr.lit "generate", CStr.lit "-c", config]

/-- `load -c "$CONFIG_PATH"`, with `-i` unless the interface is empty. -/
def loadArgs (config iface : CStr) : List CStr :=
  [CStr.lit "load", CStr.lit "-c", config] ++ if iface.bytes = [] then [] else [CStr.lit "-i", iface]

/-- `[[ -f path ]]`. -/
def isFile (p : Path) (w : World) : Bool := (w.tree.files p).isSome

/-- `${1:-word}`. -/
def orDefault (arg : CStr) (word : String) : CStr := if arg.bytes = [] then CStr.lit word else arg

/-! ## The scripts -/

/-- What the system answers to a script. `executable` is whether `zerehctl`, when it is there, may be
    executed. -/
structure ScriptEnv where
  depsCheck : Bool
  clean : Option (Path → Bool)
  make : MakeEnv
  started : Bool
  executable : Bool
  rootCmd : Bool
  version : Process
  generate : Process
  load : Process

/-- `deploy_dev.sh`. -/
def deployDev (env : ScriptEnv) (configArg iface : CStr) : Command World :=
  let config := orDefault configArg "config.yaml"
  script [
    makeDepsCheck env.depsCheck,
    makeAll env.make,
    zerehctl sys env.started env.generate (generateArgs config),
    zerehctl sys env.rootCmd env.load (loadArgs config iface)]

/-- What `deploy_prod.sh` needs besides: the time, and whether it can write the release. -/
structure ReleaseEnv extends ScriptEnv where
  timestamp : List UInt8
  mkdir : Bool
  copied : Path → Bool

/-- `deploy_prod.sh`. -/
def deployProd (env : ReleaseEnv) (configArg iface : CStr) : Command World :=
  let config := orDefault configArg "config.yaml"
  let release := releaseBase ++ [env.timestamp]
  let keep (src : Path) (name : String) : Command World :=
    whenever (isFile src) [copy (env.copied src) src (release ++ [ascii name])]
  script [
    makeDepsCheck env.depsCheck,
    makeClean env.clean,
    makeAll env.make,
    zerehctl sys env.started env.generate (generateArgs config),
    mkdirAll env.mkdir release,
    copy (env.copied (sys.place config)) (sys.place config) (release ++ [ascii "config.yaml"]),
    keep licensePath "zereh_license.txt",
    keep routerObjectPath "router_generated.o",
    keep routerSource "router_generated.c",
    zerehctl sys env.rootCmd env.load (loadArgs config iface)]

/-- `health_check.sh`; `linkShown` is whether `ip link show` finds the interface. -/
def healthCheck (env : ScriptEnv) (linkShown : Bool) (configArg iface withLoad : CStr) : Command World :=
  let config := orDefault configArg "config.yaml"
  script [
    require fun _ => decide (withLoad.bytes = []) || isWord withLoad "--with-load",
    require (isFile (sys.place config)),
    makeDepsCheck env.depsCheck,
    makeAll env.make,
    zerehctl sys env.started env.version [CStr.lit "version"],
    zerehctl sys env.started env.generate (generateArgs config),
    require fun w => isFile routerSource w && isFile routerObjectPath w,
    whenever (fun _ => decide (iface.bytes ≠ [])) [require fun _ => linkShown],
    whenever (fun _ => isWord withLoad "--with-load") [
      require fun _ => decide (iface.bytes ≠ []),
      zerehctl sys env.rootCmd env.load (loadArgs config iface)]]

/-- The answers to `deploy_canary.sh`: to its own commands, to its health check and to the promotion. -/
structure CanaryEnv extends ScriptEnv where
  health : ScriptEnv
  linkShown : Bool
  promoteRootCmd : Bool
  promoteLoad : Process

/-- `deploy_canary.sh`. -/
def deployCanary (env : CanaryEnv) (configArg canary primary promote : CStr) : Command World :=
  let config := orDefault configArg "config.yaml"
  script [
    require fun _ => decide (canary.bytes ≠ []),
    require fun _ => decide (promote.bytes = []) || isWord promote "--promote",
    require (isFile (sys.place config)),
    makeDepsCheck env.depsCheck,
    makeClean env.clean,
    makeAll env.make,
    zerehctl sys env.started env.generate (generateArgs config),
    zerehctl sys env.rootCmd env.load (loadArgs config canary),
    healthCheck sys env.health env.linkShown config canary CStr.empty,
    whenever (fun _ => decide (primary.bytes ≠ []) && isWord promote "--promote")
      [zerehctl sys env.promoteRootCmd env.promoteLoad (loadArgs config primary)]]

/-- `resolve_release_dir`. -/
def resolveReleaseDir (selector : CStr) (t : FileTree) : Option CStr :=
  let inBase (name : List UInt8) : CStr := CStr.ofBytes (ascii "build/release/" ++ name)
  let dirs := (t.subdirs releaseBase).map fun p => inBase (p.getLastD [])
  if t.isDir (sys.place selector) then some selector
  else if t.isDir (sys.place (inBase selector.bytes)) then some (inBase selector.bytes)
  else if dirs = [] then none
  else if isWord selector "latest" then dirs[dirs.length - 1]?
  else if isWord selector "previous" then if dirs.length < 2 then none else dirs[dirs.length - 2]?
  else none

/-- `rollback_release.sh`. -/
def rollbackRelease (env : ScriptEnv) (selectorArg iface : CStr) : Command World :=
  fun w =>
    match resolveReleaseDir sys (orDefault selectorArg "previous") w.tree with
    | none => (false, w)
    | some release =>
      let config := CStr.ofBytes (release.bytes ++ ascii "/config.yaml")
      script [
        require (isFile (sys.place config)),
        whenever (fun w => !(isFile zerehctlPath w && env.executable)) [makeAll env.make],
        zerehctl sys env.started env.generate (generateArgs config),
        zerehctl sys env.rootCmd env.load (loadArgs config iface)] w

/-! ## The targets -/

/-- The targets of the `Makefile` besides `all` and `clean` that write into `build/`, run `zerehctl` or run
    a script. -/
inductive Target where
  | buildMetadata
  | generate (started : Bool) (proc : Process)
  | load (started : Bool) (proc : Process)
  | unload (started : Bool) (proc : Process)
  | generateLoad (started : Bool) (proc : Process)
  | deployDev (env : ScriptEnv)
  | deployProd (env : ReleaseEnv)
  | deployCanary (env : CanaryEnv) (canary primary : CStr) (promote : Bool)
  | healthCheck (env : ScriptEnv) (linkShown : Bool)
  | rollbackRelease (env : ScriptEnv)

namespace Target

/-- The directories among the prerequisites. -/
def dirs : Target → List Path
  | buildMetadata => [generatedDir]
  | load .. | unload .. => [generatedDir, binDir]
  | _ => [generatedDir, binDir, xdpDir]

def files : Target → List Path
  | buildMetadata => metadataFiles
  | _ => metadataFiles ++ [zerehctlPath]

def checksDeps : Target → Bool
  | buildMetadata | unload .. => false
  | _ => true

/-- The words of the recipe of `deploy-canary` after the configuration; a variable that is empty is none. -/
def canaryWords (canary primary : CStr) (promote : Bool) : List CStr :=
  [canary, primary, if promote then CStr.lit "--promote" else CStr.empty].filter fun word =>
    decide (word.bytes ≠ [])

def recipe (sys : System) : Target → Command World
  | buildMetadata => script []
  | generate started proc => zerehctl sys started proc (generateArgs (CStr.lit "config.yaml"))
  | load started proc => zerehctl sys started proc (loadArgs (CStr.lit "config.yaml") CStr.empty)
  | unload started proc =>
      zerehctl sys started proc [CStr.lit "unload", CStr.lit "-c", CStr.lit "config.yaml"]
  | generateLoad started proc =>
      zerehctl sys started proc [CStr.lit "generate-load", CStr.lit "-c", CStr.lit "config.yaml"]
  | deployDev env => Deploy.deployDev sys env (CStr.lit "config.yaml") CStr.empty
  | deployProd env => Deploy.deployProd sys env (CStr.lit "config.yaml") CStr.empty
  | deployCanary env canary primary promote =>
      let word (i : Nat) : CStr := (canaryWords canary primary promote).getD i CStr.empty
      Deploy.deployCanary sys env (CStr.lit "config.yaml") (word 0) (word 1) (word 2)
  | healthCheck env linkShown =>
      Deploy.healthCheck sys env linkShown (CStr.lit "config.yaml") CStr.empty CStr.empty
  | rollbackRelease env => Deploy.rollbackRelease sys env (CStr.lit "previous") CStr.empty

/-- The target with its prerequisites. -/
def make (sys : System) (target : Target) (depsCheck : Bool) (env : MakeEnv) : Command World :=
  script
    ((if target.checksDeps then [makeDepsCheck depsCheck] else []) ++
      [makeFiles target.dirs target.files env, target.recipe sys])

end Target

end Zereh.Deploy
