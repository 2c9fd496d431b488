/-
  The program array, from the configured names to the tail calls.

  The loader writes one slot for each `xdp_prog` route, in the order of the routes, and a later
  route may write the slot of an earlier one. Seeding succeeds exactly when every route can be
  bound by itself (`seedProgArray_isOk_iff`); after it, every route runs the program that was
  resolved for it exactly when no two routes with one index resolve to different programs
  (`tailCalls_honoured_iff`).
-/
import Zereh.Control.Accepted
import Zereh.Control.Loader
import Zereh.Link.Dispatch

namespace Zereh.Link

open Lib CText Control Xdp

/-- The program of a route as the loader resolves it. -/
def tailProgram (obj : BpfObject) (route : Route) : Except BindError (Nat × List UInt8) :=
  resolveTailProgram obj route (obj.findProgramByName (ascii "zereh_app_default"))

/-- Nothing stands against binding the route: its index is in the array, a program with a
    descriptor is found, and the kernel takes the update. -/
def Bindable (obj : BpfObject) (updated : Bool) (route : Route) : Prop :=
  route.progIndex < progArrayMax ∧ updated = true ∧
    ∃ prog name, tailProgram obj route = .ok (prog, name) ∧ 0 ≤ obj.programFd prog

/-! ## One route -/

theorem bindRoute_of_ne {obj : BpfObject} {updated : Bool} {route : Route} {maps : Maps}
    (h : route.target ≠ .xdpProg) :
    bindRoute obj (obj.findProgramByName (ascii "zereh_app_default")) updated route maps =
      .ok maps := if_pos h

/-- A route that is bound writes its program to its slot, and nothing else. -/
theorem bindRoute_of_bindable {obj : BpfObject} {updated : Bool} {route : Route} {prog : Nat}
    {name : List UInt8} (htarget : route.target = .xdpProg) (hindex : route.progIndex < progArrayMax)
    (hupdated : updated = true) (hprog : tailProgram obj route = .ok (prog, name))
    (hfd : 0 ≤ obj.programFd prog) (maps : Maps) :
    bindRoute obj (obj.findProgramByName (ascii "zereh_app_default")) updated route maps =
      .ok (setProg maps route.progIndex.toNat prog) := by
  unfold tailProgram at hprog
  unfold bindRoute
  rw [if_neg (not_not.mpr htarget)]
  dsimp only
  rw [if_neg (UInt32.not_le.mpr hindex), hprog]
  change (if obj.programFd prog < 0 then _ else _) = _
  rw [if_neg (not_lt.mpr hfd), hupdated]
  rfl

/-- Binding succeeds only so. -/
theorem bindable_of_bindRoute {obj : BpfObject} {updated : Bool} {route : Route} {maps maps' : Maps}
    (htarget : route.target = .xdpProg)
    (h : bindRoute obj (obj.findProgramByName (ascii "zereh_app_default")) updated route maps =
      .ok maps') : Bindable obj updated route := by
  unfold bindRoute at h
  rw [if_neg (not_not.mpr htarget)] at h
  dsimp only at h
  by_cases hindex : route.progIndex ≥ progArrayMax
  · rw [if_pos hindex] at h
    cases h
  · rw [if_neg hindex] at h
    obtain ⟨⟨prog, name⟩, hprog, h⟩ := bind_eq_ok h
    dsimp only at h
    by_cases hfd : obj.programFd prog < 0
    · rw [if_pos hfd] at h
      cases h
    · rw [if_neg hfd] at h
      cases updated with
      | false => cases h
      | true => exact ⟨UInt32.not_le.mp hindex, rfl, prog, name, hprog, not_lt.mp hfd⟩

/-! ## All routes -/

section Loop

variable {obj : BpfObject} {updated : Nat → Bool}

/-- A bound route, in the loop or alone. -/
theorem bindLoop_isOk_iff (obj : BpfObject) (updated : Nat → Bool) (routes : List Route) (i : Nat)
    (maps : Maps) :
    (∃ maps', bindLoop obj (obj.findProgramByName (ascii "zereh_app_default")) updated i routes
      maps = .ok maps') ↔
    ∀ k r, routes[k]? = some r → r.target = .xdpProg → Bindable obj (updated (i + k)) r := by
  induction routes generalizing i maps with
  | nil => simp [bindLoop]
  | cons first routes ih =>
    constructor
    · rintro ⟨maps', h⟩ k r hk htarget
      obtain ⟨maps1, h1, h⟩ := bind_eq_ok h
      cases k with
      | zero =>
        obtain rfl : first = r := Option.some.inj hk
        exact bindable_of_bindRoute htarget h1
      | succ k =>
        have := (ih (i + 1) maps1).mp ⟨maps', h⟩ k r hk htarget
        rwa [Nat.add_right_comm] at this
    · intro hall
      have hrest : ∀ k r, routes[k]? = some r → r.target = .xdpProg →
          Bindable obj (updated (i + 1 + k)) r := by
        intro k r hk htarget
        rw [Nat.add_right_comm]
        exact hall (k + 1) r hk htarget
      have hfirst : ∃ maps1, bindRoute obj (obj.findProgramByName (ascii "zereh_app_default"))
          (updated i) first maps = .ok maps1 := by
        by_cases htarget : first.target = .xdpProg
        · obtain ⟨hindex, hupdated, prog, name, hprog, hfd⟩ := hall 0 first rfl htarget
          exact ⟨_, bindRoute_of_bindable htarget hindex hupdated hprog hfd maps⟩
        · exact ⟨maps, bindRoute_of_ne htarget⟩
      obtain ⟨maps1, h1⟩ := hfirst
      obtain ⟨maps', h⟩ := (ih (i + 1) maps1).mpr hrest
      exact ⟨maps', by rw [bindLoop, h1]; exact h⟩

/-- A slot that holds `prog` keeps it while every later route with its index resolves to
    `prog`. -/
theorem bindLoop_keeps {key prog : Nat} (routes : List Route) (i : Nat) {maps maps' : Maps}
    (h : bindLoop obj (obj.findProgramByName (ascii "zereh_app_default")) updated i routes maps =
      .ok maps') (hslot : maps.progArray key = some prog)
    (hagree : ∀ r ∈ routes, r.target = .xdpProg → r.progIndex.toNat = key →
      ∃ name, tailProgram obj r = .ok (prog, name)) :
    maps'.progArray key = some prog := by
  induction routes generalizing i maps with
  | nil =>
    cases h
    exact hslot
  | cons first routes ih =>
    obtain ⟨maps1, h1, h⟩ := bind_eq_ok h
    refine ih (i + 1) h ?_ fun r hr => hagree r (.tail _ hr)
    by_cases htarget : first.target = .xdpProg
    · obtain ⟨hindex, hupdated, prog1, name1, hprog1, hfd⟩ := bindable_of_bindRoute htarget h1
      rw [bindRoute_of_bindable htarget hindex hupdated hprog1 hfd] at h1
      cases h1
      by_cases hkey : first.progIndex.toNat = key
      · obtain ⟨name, hname⟩ := hagree first (.head _) htarget hkey
        obtain ⟨rfl, -⟩ := Prod.mk.inj (Except.ok.inj (hprog1.symm.trans hname))
        rw [← hkey]
        exact Function.update_self ..
      · exact (Function.update_of_ne (Ne.symm hkey) ..).trans hslot
    · rw [bindRoute_of_ne htarget] at h1
      cases h1
      exact hslot

/-- Without conflicts every route finds its program in its slot. -/
theorem bindLoop_bound (routes : List Route) (i : Nat) {maps maps' : Maps}
    (h : bindLoop obj (obj.findProgramByName (ascii "zereh_app_default")) updated i routes maps =
      .ok maps')
    (hagree : ∀ r ∈ routes, ∀ s ∈ routes, r.target = .xdpProg → s.target = .xdpProg →
      r.progIndex = s.progIndex → (tailProgram obj r).map Prod.fst = (tailProgram obj s).map Prod.fst)
    (r : Route) (hr : r ∈ routes) (htarget : r.target = .xdpProg) :
    ∃ prog name, tailProgram obj r = .ok (prog, name) ∧
      maps'.progArray r.progIndex.toNat = some prog := by
  induction routes generalizing i maps with
  | nil => cases hr
  | cons first routes ih =>
    obtain ⟨maps1, h1, h⟩ := bind_eq_ok h
    rcases List.mem_cons.mp hr with rfl | hr'
    · obtain ⟨hindex, hupdated, prog, name, hprog, hfd⟩ := bindable_of_bindRoute htarget h1
      rw [bindRoute_of_bindable htarget hindex hupdated hprog hfd] at h1
      cases h1
      refine ⟨prog, name, hprog, bindLoop_keeps routes (i + 1) h (Function.update_self ..) ?_⟩
      intro s hs hstarget hkey
      have heq := hagree r (.head _) s (.tail _ hs) htarget hstarget (UInt32.toNat_inj.mp hkey.symm)
      rw [hprog] at heq
      cases hsprog : tailProgram obj s with
      | error e => rw [hsprog] at heq; cases heq
      | ok found =>
        rw [hsprog] at heq
        obtain rfl : prog = found.1 := Except.ok.inj heq
        exact ⟨found.2, rfl⟩
    · exact ih (i + 1) h (fun r hr s hs => hagree r (.tail _ hr) s (.tail _ hs)) hr'

end Loop

/-! ## The tail calls -/

/-- The action of a bound route leaves for the program in its slot. -/
theorem targetAction_of_slot {r : Route} (htarget : r.target = .xdpProg)
    (hindex : r.progIndex < progArrayMax) {st : XdpState} {prog : Nat}
    (hslot : st.maps.progArray r.progIndex.toNat = some prog) (h : Headers) :
    targetAction r h st = .ok (.leave prog, st) := by
  have hlt : r.progIndex.toNat < progArrayEntries := UInt32.lt_iff_toNat_lt.mp hindex
  unfold targetAction
  rw [htarget]
  dsimp only
  unfold bpfTailCall
  rw [if_pos hlt, hslot]

/-- **When the configured programs run.** After a seeding that succeeds, every `xdp_prog` route
    has the program resolved for it in its slot, and its tail call goes there, exactly when no two
    `xdp_prog` routes with one index resolve to different programs. And seeding succeeds exactly
    when every such route can be bound. -/
theorem tailCalls_honoured_iff (obj : BpfObject) (updated : Nat → Bool) (cfg : Config)
    (maps : Maps) :
    (∀ maps', seedProgArray obj updated cfg maps = .ok maps' →
      ((∀ r ∈ cfg.routes, r.target = .xdpProg → ∃ prog name, tailProgram obj r = .ok (prog, name) ∧
        maps'.progArray r.progIndex.toNat = some prog ∧
        ∀ (h : Headers) (st : XdpState), st.maps.progArray = maps'.progArray →
          targetAction r h st = .ok (.leave prog, st)) ↔
      ∀ r ∈ cfg.routes, ∀ s ∈ cfg.routes, r.target = .xdpProg → s.target = .xdpProg →
        r.progIndex = s.progIndex →
          (tailProgram obj r).map Prod.fst = (tailProgram obj s).map Prod.fst)) ∧
    ((∃ maps', seedProgArray obj updated cfg maps = .ok maps') ↔
      ∀ i r, cfg.routes[i]? = some r → r.target = .xdpProg → Bindable obj (updated i) r) := by
  have hok := bindLoop_isOk_iff obj updated cfg.routes 0 maps
  simp only [Nat.zero_add] at hok
  refine ⟨fun maps' hseed => ⟨fun hall r hr s hs hrt hst hindex => ?_, ?_⟩, hok⟩
  · obtain ⟨prog, name, hprog, hslot, -⟩ := hall r hr hrt
    obtain ⟨prog', name', hprog', hslot', -⟩ := hall s hs hst
    rw [hindex] at hslot
    obtain rfl : prog = prog' := Option.some.inj (hslot.symm.trans hslot')
    rw [hprog, hprog']
    rfl
  · intro hagree r hr htarget
    obtain ⟨prog, name, hprog, hslot⟩ := bindLoop_bound cfg.routes 0 hseed hagree r hr htarget
    refine ⟨prog, name, hprog, hslot, fun h st hst => ?_⟩
    obtain ⟨i, hi⟩ := List.mem_iff_getElem?.mp hr
    obtain ⟨hindex, -⟩ := hok.mp ⟨maps', hseed⟩ i r hi htarget
    exact targetAction_of_slot htarget hindex (hst ▸ hslot) h

/-- Two routes for "a" and "b" to the programs of these names, both at the default index 0. -/
def progDocument (first second : String) : YamlDocument where
  nodes :=
    [.mapping [(2, 3)],
      .scalar (ascii "routes"), .sequence [4, 11],
      .mapping [(5, 6), (7, 8), (9, 10)],
      .scalar (ascii "domain"), .scalar (ascii "a"),
      .scalar (ascii "target"), .scalar (ascii "xdp_prog"),
      .scalar (ascii "prog_name"), .scalar (ascii first),
      .mapping [(5, 12), (7, 8), (9, 13)],
      .scalar (ascii "b"), .scalar (ascii second)]

/-- A route without filters to a program. -/
def progRoute (domain progName : String) : Route :=
  { sampleRoute 0 with
    domain := CStr.lit domain
    hash := hashDomain (CStr.lit domain) .fnv1a
    target := .xdpProg
    progName := CStr.lit progName
    bloomEnabled := false
    bloomSize := 0
    bloomHashFunctions := 0
    bloomSeeds := [] }

def progConfig (first second : String) : Config :=
  { configInitDefaults with routes := [progRoute "a" first, progRoute "b" second] }

set_option maxRecDepth 4000 in
theorem parse_progDocument :
    parseConfigYaml (progDocument "p" "q") = .ok (progConfig "p" "q") := by decide +kernel

/-- An object with the programs "p" and "q". -/
def progObject : BpfObject where
  findProgramByName name :=
    if name = ascii "p" then some 1 else if name = ascii "q" then some 2 else none
  programFd prog := 3 + prog

theorem tailCalls_honoured_sample :
    ∀ r ∈ (progConfig "p" "p").routes, r.target = .xdpProg → ∃ prog name,
      tailProgram progObject r = .ok (prog, name) ∧
      (setProg (setProg .created 0 1) 0 1).progArray r.progIndex.toNat = some prog ∧
      ∀ (h : Headers) (st : XdpState),
        st.maps.progArray = (setProg (setProg .created 0 1) 0 1).progArray →
          targetAction r h st = .ok (.leave prog, st) := by
  refine ((tailCalls_honoured_iff progObject (fun _ => true) (progConfig "p" "p") .created).1 _
    rfl).mpr ?_
  intro r hr s hs _ _ _
  simp only [progConfig, List.mem_cons, List.not_mem_nil, or_false] at hr hs
  rcases hr with rfl | rfl <;> rcases hs with rfl | rfl <;> rfl

/-- The route of "a" asks for "p", and the slot of both routes holds "q". -/
theorem tailCall_overwritten :
    ¬ ∀ (doc : YamlDocument) (cfg : Config), parseConfigYaml doc = .ok cfg →
      ∀ (obj : BpfObject) (updated : Nat → Bool) (maps maps' : Maps),
        seedProgArray obj updated cfg maps = .ok maps' →
          ∀ r ∈ cfg.routes, r.target = .xdpProg → ∃ prog name,
            tailProgram obj r = .ok (prog, name) ∧
              maps'.progArray r.progIndex.toNat = some prog := by
  intro hall
  obtain ⟨prog, name, hprog, hslot⟩ := hall _ _ parse_progDocument progObject (fun _ => true)
    .created (setProg (setProg .created 0 1) 0 2) rfl (progRoute "a" "p") (.head _) rfl
  have hone : tailProgram progObject (progRoute "a" "p") = .ok (1, ascii "p") := rfl
  obtain ⟨rfl, -⟩ := Prod.mk.inj (Except.ok.inj (hprog.symm.trans hone))
  exact absurd (Option.some.inj hslot) (by decide)

end Zereh.Link
