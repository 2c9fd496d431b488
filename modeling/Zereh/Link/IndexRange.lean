/-
  The map indices of the generated program.

  The numbers are read off the calls in the parsed text: the key of `bpf_redirect_map`, the index of
  `bpf_tail_call`, the route id and the Bloom size of `zereh_apply_app_filters`. Route ids and Bloom
  sizes are bounded by the parser, indices of `prog_array` by the loader. The key of `xsk_map` is
  checked nowhere, so the program is in range exactly when the document is (`indices_inRange_iff`).
-/
import Zereh.Link.BloomSeed
import Zereh.Link.Isolation
import Zereh.Link.ProgArray

namespace Zereh.Link

open Lib CText Control Xdp

/-! ## Indices in calls -/

/-- A call with its arguments, as it stands in the text. -/
abbrev Call := Name × List (Expr Name)

/-- The key of a redirect to `xsk_map`. -/
def xskIndex : Call → Option Nat
  | (.bpfRedirectMap, [.addrOf .xskMap, .int n, _]) => some n
  | _ => none

/-- The slot of a tail call through `prog_array`. -/
def tailIndex : Call → Option Nat
  | (.bpfTailCall, [_, .addrOf .progArray, .int n]) => some n
  | _ => none

/-- A number among the arguments of the filter call. -/
def filterArg (k : Nat) : Call → Option Nat
  | (.zerehApplyAppFilters, args) =>
    match args[k]? with
    | some (.int n) => some n
    | _ => none
  | _ => none

/-- The eleventh argument is the route id. -/
def routeId : Call → Option Nat := filterArg 10

/-- The size of a Bloom filter that is asked. -/
def bloomSizeOf (call : Call) : Option Nat :=
  match filterArg 14 call with
  | some 0 | none => none
  | some _ => filterArg 15 call

/-- Every index is below the number of entries of its map. -/
structure IndicesInRange (cfg : Config) (code : Code Name) : Prop where
  xsk : ∀ call ∈ code.calls, ∀ n, xskIndex call = some n → n < xskMapEntries
  prog : ∀ call ∈ code.calls, ∀ n, tailIndex call = some n → n < progArrayEntries
  route : ∀ call ∈ code.calls, ∀ n, routeId call = some n → n < (macros cfg).rateStateEntries.toNat
  bloom : ∀ call ∈ code.calls, ∀ size, bloomSizeOf call = some size → ∀ hash k bucket,
    ((Xdp.bloomMixed hash k bucket % (UInt32.ofNat size).toUInt64).toUInt32 >>> 6).toNat <
      Xdp.bloomWords.toNat

/-! ## The calls of a route -/

/-- The calls that the text has for route `i`. -/
def routeCalls (r : Route) (i : Nat) : List Call := (takeCode id r i .done).calls

theorem calls_takeCode (r : Route) (i : Nat) (k : Code Name) :
    (takeCode id r i k).calls = routeCalls r i ++ k.calls := by
  unfold routeCalls takeCode actionCode
  cases r.target with
  | userSpace => simp [Code.calls]
  | kernelSpace => simp [Code.calls]
  | xdpProg => simp [Code.calls]

theorem mem_calls_casesCode (routes : List (Route × Nat)) (call : Call) :
    call ∈ (casesCode id routes).calls ↔ ∃ ri ∈ routes, call ∈ routeCalls ri.1 ri.2 := by
  induction routes with
  | nil => simp [casesCode, Code.calls]
  | cons ri routes ih =>
    rw [casesCode, Code.calls, calls_takeCode, List.mem_append, ih, List.exists_mem_cons_iff]

theorem mem_calls_rulesCode (routes : List (Route × Nat)) (call : Call) :
    call ∈ (rulesCode id routes).calls ↔
      ∃ ri ∈ routes, call ∈ routeCalls ri.1 ri.2 ∨ call ∈ (suffixCall id ri.1).calls := by
  induction routes with
  | nil => simp [rulesCode, Code.calls, Expr.calls]
  | cons ri routes ih =>
    rw [rulesCode, Code.calls, ← routeCalls, List.mem_append, List.mem_append, ih,
      List.exists_mem_cons_iff, ← or_assoc, or_comm (b := call ∈ routeCalls ri.1 ri.2)]

/-- An index that only the calls of a route have is bounded when it is on every route. -/
theorem forall_calls_iff {f : Call → Option Nat} {P : Nat → Prop} {routes : List (Route × Nat)}
    (hhash : f (.zerehRouteHash, [.ident .qmeta]) = none)
    (hsuffix : ∀ r : Route, ∀ call ∈ (suffixCall id r).calls, f call = none) :
    (∀ call ∈ (dispatchCode id routes).calls, ∀ n, f call = some n → P n) ↔
      ∀ ri ∈ routes, ∀ call ∈ routeCalls ri.1 ri.2, ∀ n, f call = some n → P n := by
  have hcalls : ∀ call, call ∈ (dispatchCode id routes).calls ↔
      call = (.zerehRouteHash, [.ident .qmeta]) ∨ call ∈ (casesCode id routes).calls ∨
        call ∈ (rulesCode id routes).calls := by
    intro call
    simp [dispatchCode, Code.calls, Expr.calls, argCalls]
  constructor
  · intro h ri hri call hcall
    exact h call ((hcalls call).mpr (.inr (.inl ((mem_calls_casesCode routes call).mpr
      ⟨ri, hri, hcall⟩))))
  · intro h call hcall n hn
    rcases (hcalls call).mp hcall with rfl | hcases | hrules
    · rw [hhash] at hn
      cases hn
    · obtain ⟨ri, hri, hcall⟩ := (mem_calls_casesCode routes call).mp hcases
      exact h ri hri call hcall n hn
    · obtain ⟨ri, hri, hcall | hcall⟩ := (mem_calls_rulesCode routes call).mp hrules
      · exact h ri hri call hcall n hn
      · rw [hsuffix ri.1 call hcall] at hn
        cases hn

/-- The call of the filters, and the calls of the action. -/
theorem routeCalls_eq (r : Route) (i : Nat) : routeCalls r i = (filterCall id r i).calls ++
    match r.target with
    | .userSpace => [(.bpfRedirectMap, [.addrOf .xskMap, .int r.xskQueue.toNat, .int 0])]
    | .kernelSpace => [(.zerehRouteKernelSpace, [.ident .iph, .ident .udp,
        .call .bpfHtons [.int r.kernelPort.toNat], .int 0]),
        (.bpfHtons, [.int r.kernelPort.toNat])]
    | .xdpProg => [(.bpfTailCall, [.ident .ctx, .addrOf .progArray, .int r.progIndex.toNat])] := by
  unfold routeCalls takeCode actionCode
  cases r.target with
  | userSpace => simp [Code.calls, Expr.calls, argCalls]
  | kernelSpace => simp [Code.calls, Expr.calls, argCalls]
  | xdpProg => simp [Code.calls, Expr.calls, argCalls]

/-- The arguments of the filter call. -/
def filterArgs (r : Route) (i : Nat) : List (Expr Name) :=
  match filterCall id r i with
  | .call _ args => args
  | _ => []

theorem calls_filterCall (r : Route) (i : Nat) :
    (filterCall id r i).calls = [(.zerehApplyAppFilters, filterArgs r i)] := rfl

/-! ## Each index on one route -/

section Route

variable (r : Route) (i : Nat)

theorem xskIndex_routeCalls {P : Nat → Prop} :
    (∀ call ∈ routeCalls r i, ∀ n, xskIndex call = some n → P n) ↔
      (r.target = .userSpace → P r.xskQueue.toNat) := by
  rw [routeCalls_eq, calls_filterCall]
  cases r.target with
  | userSpace => simp [xskIndex]
  | kernelSpace => simp [xskIndex]
  | xdpProg => simp [xskIndex]

theorem tailIndex_routeCalls {P : Nat → Prop} :
    (∀ call ∈ routeCalls r i, ∀ n, tailIndex call = some n → P n) ↔
      (r.target = .xdpProg → P r.progIndex.toNat) := by
  rw [routeCalls_eq, calls_filterCall]
  cases r.target with
  | userSpace => simp [tailIndex]
  | kernelSpace => simp [tailIndex]
  | xdpProg => simp [tailIndex]

/-- The other calls have no argument of the filters. -/
theorem filterArg_routeCalls {f : Call → Option Nat} {P : Nat → Prop}
    (hf : ∀ name args, name ≠ .zerehApplyAppFilters → f (name, args) = none) :
    (∀ call ∈ routeCalls r i, ∀ n, f call = some n → P n) ↔
      ∀ n, f (.zerehApplyAppFilters, filterArgs r i) = some n → P n := by
  rw [routeCalls_eq, calls_filterCall]
  cases r.target with
  | userSpace => simp [hf]
  | kernelSpace => simp [hf]
  | xdpProg => simp [hf]

theorem bloomSizeOf_filterArgs : bloomSizeOf (.zerehApplyAppFilters, filterArgs r i) =
    if r.bloomEnabled then some r.bloomSize.toNat else none := by
  have hrequired : filterArg 14 (.zerehApplyAppFilters, filterArgs r i) =
      some (if r.bloomEnabled then 1 else 0) := rfl
  have hsize : filterArg 15 (.zerehApplyAppFilters, filterArgs r i) = some r.bloomSize.toNat := rfl
  unfold bloomSizeOf
  rw [hrequired, hsize]
  cases r.bloomEnabled <;> rfl

end Route

/-- A position below the largest size lies in one of the words. -/
theorem bloomWord_lt {size : UInt32} (hpos : 0 < size.toNat) (hle : size.toNat ≤ 65536)
    (mixed : UInt64) :
    ((mixed % size.toUInt64).toUInt32 >>> 6).toNat < Xdp.bloomWords.toNat := by
  have hwords : Xdp.bloomWords.toNat = 1024 := rfl
  have hlt : mixed.toNat % size.toNat < size.toNat := Nat.mod_lt _ hpos
  rw [hwords, toNat_shiftRight_six, UInt64.toNat_toUInt32, UInt64.toNat_mod,
    UInt32.toNat_toUInt64]
  omega

/-! ## The program -/

section Accepted

variable {cfg : Config} (hacc : cfg.Accepted)

include hacc

theorem route_inRange : ∀ call ∈ (dispatchCode id cfg.routes.zipIdx).calls, ∀ n,
    routeId call = some n → n < (macros cfg).rateStateEntries.toNat := by
  refine (forall_calls_iff rfl fun r call hcall => ?_).mpr fun ri hri => ?_
  · rw [List.mem_singleton.mp hcall]
    rfl
  · refine (filterArg_routeCalls _ _ fun name args hne => ?_).mpr fun n hn => ?_
    · cases name <;> first | rfl | exact absurd rfl hne
    · obtain rfl : ri.2 = n := Option.some.inj hn
      obtain ⟨hid, hlt⟩ := toNat_routeId hacc (List.mem_zipIdx_iff_getElem?.mp hri)
      rw [UInt32.lt_iff_toNat_lt, hid] at hlt
      exact hlt

theorem bloom_inRange : ∀ call ∈ (dispatchCode id cfg.routes.zipIdx).calls, ∀ size,
    bloomSizeOf call = some size → ∀ hash k bucket,
      ((Xdp.bloomMixed hash k bucket % (UInt32.ofNat size).toUInt64).toUInt32 >>> 6).toNat <
        Xdp.bloomWords.toNat := by
  refine (forall_calls_iff rfl fun r call hcall => ?_).mpr fun ri hri => ?_
  · rw [List.mem_singleton.mp hcall]
    rfl
  · refine (filterArg_routeCalls _ _ fun name args hne => ?_).mpr fun size hsize hash k bucket => ?_
    · cases name <;> first | rfl | exact absurd rfl hne
    · rw [bloomSizeOf_filterArgs] at hsize
      split_ifs at hsize with hon
      obtain rfl : ri.1.bloomSize.toNat = size := Option.some.inj hsize
      have hr := List.mem_of_getElem? (List.mem_zipIdx_iff_getElem?.mp hri)
      have hfits := fits_routeKey (hacc.routes _ hr) hon 0 0
      rw [UInt32.ofNat_toNat]
      exact bloomWord_lt hfits.bits_pos hfits.bits_le _

end Accepted

theorem xsk_inRange_iff (cfg : Config) :
    (∀ call ∈ (dispatchCode id cfg.routes.zipIdx).calls, ∀ n, xskIndex call = some n →
      n < xskMapEntries) ↔
      ∀ r ∈ cfg.routes, r.target = .userSpace → r.xskQueue.toNat < 64 := by
  refine (forall_calls_iff rfl fun r call hcall => ?_).trans ?_
  · rw [List.mem_singleton.mp hcall]
    rfl
  · constructor
    · intro h r hr
      obtain ⟨i, hi⟩ := List.mem_iff_getElem?.mp hr
      exact (xskIndex_routeCalls r i).mp (h (r, i) (List.mem_zipIdx_iff_getElem?.mpr hi))
    · intro h ri hri
      exact (xskIndex_routeCalls _ _).mpr
        (h _ (List.mem_of_getElem? (List.mem_zipIdx_iff_getElem?.mp hri)))

/-- The loader refuses a slot outside the array. -/
theorem tail_inRange {cfg : Config} {obj : BpfObject} {updated : Nat → Bool} {maps maps' : Maps}
    (hseed : seedProgArray obj updated cfg maps = .ok maps') :
    ∀ call ∈ (dispatchCode id cfg.routes.zipIdx).calls, ∀ n, tailIndex call = some n →
      n < progArrayEntries := by
  have hbound := (bindLoop_isOk_iff obj updated cfg.routes 0 maps).mp ⟨maps', hseed⟩
  refine (forall_calls_iff rfl fun r call hcall => ?_).mpr fun ri hri => ?_
  · rw [List.mem_singleton.mp hcall]
    rfl
  · refine (tailIndex_routeCalls _ _).mpr fun htarget => ?_
    obtain ⟨hindex, -⟩ := hbound ri.2 ri.1 (List.mem_zipIdx_iff_getElem?.mp hri) htarget
    exact UInt32.lt_iff_toNat_lt.mp hindex

/-- One route to a queue of user space. -/
def queueDocument (queue : String) : YamlDocument where
  nodes :=
    [.mapping [(2, 3)],
      .scalar (ascii "routes"), .sequence [4],
      .mapping [(5, 6), (7, 8), (9, 10)],
      .scalar (ascii "domain"), .scalar (ascii "a"),
      .scalar (ascii "target"), .scalar (ascii "user_space"),
      .scalar (ascii "xsk_map_index"), .scalar (ascii queue)]

def queueConfig (queue : UInt32) : Config :=
  { configInitDefaults with
    routes := [{ (sampleRoute 0) with
      xskQueue := queue
      bloomEnabled := false
      bloomSize := 0
      bloomHashFunctions := 0
      bloomSeeds := [] }] }

set_option maxRecDepth 4000 in
theorem parse_queueDocument :
    parseConfigYaml (queueDocument "63") = .ok (queueConfig 63) ∧
      parseConfigYaml (queueDocument "64") = .ok (queueConfig 64) := by decide +kernel

theorem readDispatch_queueConfig (queue : UInt32) :
    readDispatch (queueConfig queue) = some (dispatchCode id (queueConfig queue).routes.zipIdx) := by
  have hnodup : ((queueConfig queue).routes.map (·.hash)).Nodup := List.nodup_singleton _
  rw [readDispatch_eq, if_pos hnodup]

end Zereh.Link
