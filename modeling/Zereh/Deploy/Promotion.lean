/-
  `deploy_canary.sh` as a gate: the primary interface is loaded only after everything else went well.

  * `canary_gate`: without a flag only the canary interface is touched. A run with `--promote` is that run,
    after which the primary interface is loaded if all builds, the load of the canary and its health check
    went well. With any other flag nothing is done.
-/
import Zereh.Deploy.Scripts

namespace Zereh.Deploy

open Lib Control

variable {sys : System}

/-! ## The interfaces that a command touches -/

/-- `c` changes no interface but those in `S`. -/
def Confined (S : Nat → Prop) (c : Command World) : Prop :=
  ∀ w i, (c w).2.interfaces i ≠ w.interfaces i → S i

theorem Confined.mono {S S' : Nat → Prop} {c : Command World} (h : Confined S c) (hS : ∀ i, S i → S' i) :
    Confined S' c := fun w i hi => hS i (h w i hi)

theorem confined_script {S : Nat → Prop} {cs : List (Command World)} (h : ∀ c ∈ cs, Confined S c) :
    Confined S (script cs) := by
  intro w i hi
  by_contra hS
  have hkeeps : Triple (fun w' => w'.interfaces i = w.interfaces i) (script cs) _ _ :=
    Triple.script fun c hc w' hw' => by
      have hsame : (c w').2.interfaces i = w.interfaces i := by
        rw [← hw']
        by_contra hne
        exact hS (h c hc w' i hne)
      exact ⟨fun _ => hsame, fun _ => hsame⟩
  cases hok : (script cs w).1 with
  | true => exact hi ((hkeeps w rfl).1 hok)
  | false => exact hi ((hkeeps w rfl).2 hok)

theorem confined_whenever {S : Nat → Prop} {p : World → Bool} {cs : List (Command World)}
    (h : ∀ c ∈ cs, Confined S c) : Confined S (whenever p cs) := by
  intro w i hi
  unfold whenever at hi
  split_ifs at hi
  · exact confined_script h w i hi
  · exact absurd rfl hi

theorem confined_require (S : Nat → Prop) (p : World → Bool) : Confined S (require p) :=
  fun _ _ hi => absurd rfl hi

theorem confined_onTree (S : Nat → Prop) (f : FileTree → Bool × FileTree) : Confined S (onTree f) :=
  fun _ _ hi => absurd rfl hi

/-- The interface that `zerehctl` may touch is the one its arguments name. -/
theorem confined_zerehctl {S : Nat → Prop} {started : Bool} {proc : Process} {args : List CStr}
    (h : ∀ w i, MayTouch sys proc args w i → S i) : Confined S (zerehctl sys started proc args) := by
  intro w i hi
  unfold zerehctl at hi
  split_ifs at hi
  · exact h w i ((main_frame _ args w).interfaces i hi)
  · exact absurd rfl hi

theorem confined_command (S : Nat → Prop) (started : Bool) (proc : Process) {word : String}
    (args : List CStr)
    (hword : ascii word ≠ ascii "load" ∧ ascii word ≠ ascii "unload" ∧ ascii word ≠ ascii "generate-load")
    (hnul : (0 : UInt8) ∉ ascii word) :
    Confined S (zerehctl sys started proc (CStr.lit word :: args)) := by
  refine confined_zerehctl fun w i ⟨cmd, given, hargs, hcmd, _⟩ => ?_
  cases hargs
  rw [isWord_lit hnul, isWord_lit hnul, isWord_lit hnul, beq_iff_eq, beq_iff_eq, beq_iff_eq] at hcmd
  rcases hcmd with h | h | h
  · exact absurd h hword.1
  · exact absurd h hword.2.1
  · exact absurd h hword.2.2

theorem confined_load (started : Bool) (proc : Process) (config : CStr) {iface : CStr}
    (hiface : iface.bytes ≠ []) :
    Confined (· = sys.ifNameToIndex iface) (zerehctl sys started proc (loadArgs config iface)) := by
  refine confined_zerehctl fun w i ⟨cmd, given, hargs, hcmd, hzero, hi⟩ => ?_
  unfold loadArgs at hargs
  rw [if_neg hiface] at hargs
  obtain ⟨hcmd', hgiven⟩ := List.cons.inj hargs
  have hsettings : settings given = (config, some iface) := by
    have hparse := (parseArgs_eq_some_iff _ (CStr.lit "config.yaml", none) _).mpr
      ⟨given, rfl, rfl⟩
    rw [← hgiven] at hparse
    have hpair := (parseArgs_eq_some_iff _ (CStr.lit "config.yaml", none) _).mpr
      ⟨[.config config, .interface iface], rfl, rfl⟩
    exact Option.some.inj (hparse.symm.trans hpair)
  rw [hi, hsettings]
  unfold chosenInterface
  dsimp only
  rw [if_pos hiface]

/-- Without `--with-load` the health check touches no interface. -/
theorem confined_healthCheck (S : Nat → Prop) (env : ScriptEnv) (linkShown : Bool) (config iface : CStr) :
    Confined S (healthCheck sys env linkShown config iface CStr.empty) := by
  unfold healthCheck
  refine confined_script fun c hc => ?_
  simp only [List.mem_cons, List.not_mem_nil, or_false] at hc
  rcases hc with rfl | rfl | rfl | rfl | rfl | rfl | rfl | rfl | rfl
  · exact confined_require S _
  · exact confined_require S _
  · exact confined_require S fun _ => env.depsCheck
  · exact confined_onTree S _
  · exact confined_command S _ _ [] (by decide) (by decide)
  · exact confined_command S _ _ _ (by decide) (by decide)
  · exact confined_require S _
  · exact confined_whenever fun c hc => List.mem_singleton.mp hc ▸ confined_require S _
  · intro w i hi
    exact absurd rfl hi

/-! ## The gate -/

/-- `deploy_canary.sh` up to the health check. -/
def canarySteps (sys : System) (env : CanaryEnv) (config canary promote : CStr) : List (Command World) := [
  require fun _ => decide (canary.bytes ≠ []),
  require fun _ => decide (promote.bytes = []) || isWord promote "--promote",
  require (isFile (sys.place config)),
  makeDepsCheck env.depsCheck,
  makeClean env.clean,
  makeAll env.make,
  zerehctl sys env.started env.generate (generateArgs config),
  zerehctl sys env.rootCmd env.load (loadArgs config canary),
  healthCheck sys env.health env.linkShown config canary CStr.empty]

/-- Its last command. -/
def promotion (sys : System) (env : CanaryEnv) (config primary promote : CStr) : Command World :=
  whenever (fun _ => decide (primary.bytes ≠ []) && isWord promote "--promote")
    [zerehctl sys env.promoteRootCmd env.promoteLoad (loadArgs config primary)]

theorem deployCanary_eq (env : CanaryEnv) (configArg canary primary promote : CStr) (w : World) :
    let config := orDefault configArg "config.yaml"
    let tested := script (canarySteps sys env config canary promote) w
    deployCanary sys env configArg canary primary promote w =
      if tested.1 then script [promotion sys env config primary promote] tested.2 else tested :=
  script_append (canarySteps sys env _ canary promote) [promotion sys env _ primary promote] w

/-- A canary run without a name for the canary stops at once. -/
theorem confined_canarySteps (env : CanaryEnv) (config canary promote : CStr) :
    Confined (· = sys.ifNameToIndex canary) (script (canarySteps sys env config canary promote)) := by
  by_cases hcanary : canary.bytes = []
  · intro w i hi
    unfold canarySteps script require at hi
    rw [decide_eq_false (not_not.mpr hcanary)] at hi
    exact absurd rfl hi
  · refine confined_script fun c hc => ?_
    unfold canarySteps at hc
    simp only [List.mem_cons, List.not_mem_nil, or_false] at hc
    rcases hc with rfl | rfl | rfl | rfl | rfl | rfl | rfl | rfl | rfl
    · exact confined_require _ _
    · exact confined_require _ _
    · exact confined_require _ _
    · exact confined_require _ fun _ => env.depsCheck
    · exact confined_onTree _ _
    · exact confined_onTree _ _
    · exact confined_command _ _ _ _ (by decide) (by decide)
    · exact confined_load _ _ _ hcanary
    · exact confined_healthCheck _ _ _ _ _

/-- The steps are the same with and without a valid flag. -/
theorem canarySteps_flag (env : CanaryEnv) (config canary : CStr) {promote : CStr}
    (hpromote : isWord promote "--promote" = true) (w : World) :
    script (canarySteps sys env config canary promote) w =
      script (canarySteps sys env config canary CStr.empty) w := by
  have hflag : (require fun _ => decide (promote.bytes = []) || isWord promote "--promote" :
      Command World) = require fun _ => decide (CStr.empty.bytes = []) || isWord CStr.empty "--promote" := by
    rw [hpromote, Bool.or_true]
    rfl
  unfold canarySteps
  rw [hflag]

theorem promotion_none (env : CanaryEnv) (config primary : CStr) {promote : CStr}
    (h : (decide (primary.bytes ≠ []) && isWord promote "--promote") = false) (w : World) :
    script [promotion sys env config primary promote] w = (true, w) := by
  unfold promotion whenever
  rw [h]
  rfl

/-- Without a flag, `deploy_canary.sh` touches no interface but the canary. With `--promote` it is the same
    run, after which the primary interface is loaded if that run succeeded. Any other flag stops it. -/
theorem canary_gate (env : CanaryEnv) (configArg canary primary promote : CStr) (w : World) :
    let config := orDefault configArg "config.yaml"
    let tested := deployCanary sys env configArg canary primary CStr.empty w
    (∀ i, i = sys.ifNameToIndex canary ∨ tested.2.interfaces i = w.interfaces i) ∧
      deployCanary sys env configArg canary primary promote w =
        if promote.bytes = [] then tested
        else if isWord promote "--promote" then
          if tested.1 && decide (primary.bytes ≠ []) then
            zerehctl sys env.promoteRootCmd env.promoteLoad (loadArgs config primary) tested.2
          else tested
        else (false, w) := by
  intro config tested
  have htested : tested = script (canarySteps sys env config canary CStr.empty) w := by
    unfold tested
    rw [deployCanary_eq]
    split_ifs with hok
    · rw [promotion_none env _ primary (by rw [show isWord CStr.empty "--promote" = false from rfl,
        Bool.and_false])]
      exact Prod.ext hok.symm rfl
    · rfl
  refine ⟨fun i => ?_, ?_⟩
  · by_contra h
    rw [not_or, htested] at h
    exact h.1 (confined_canarySteps env _ canary CStr.empty w i h.2)
  · by_cases hnone : promote.bytes = []
    · obtain rfl : promote = CStr.empty := by
        cases promote
        rw [CStr.empty, CStr.mk.injEq]
        exact hnone
      rw [if_pos hnone]
    · rw [if_neg hnone]
      by_cases hpromote : isWord promote "--promote" = true
      · rw [if_pos hpromote, deployCanary_eq, canarySteps_flag env _ canary hpromote, ← htested]
        cases hok : tested.1 with
        | false => rfl
        | true =>
          rw [if_pos rfl, Bool.true_and, script_singleton]
          unfold promotion whenever
          rw [hpromote, Bool.and_true]
          split_ifs with hprimary
          · exact script_singleton _ _
          · exact Prod.ext hok.symm rfl
      · rw [if_neg hpromote]
        unfold deployCanary
        rw [script_cons]
        by_cases hcanary : canary.bytes = []
        · rw [require, decide_eq_false (not_not.mpr hcanary)]
          rfl
        · rw [require, decide_eq_true hcanary, if_pos rfl, script_cons, require, decide_eq_false hnone,
            Bool.eq_false_iff.mpr hpromote]
          rfl

end Zereh.Deploy
