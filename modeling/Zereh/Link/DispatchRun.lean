/-
  Running the generated text.

  Each piece of `dispatchCode f` ends as the reference interpreter with the strings put through `f`
  says: a route returns what `takeRouteOf` gives (`exec_takeCode`), the `switch` enters the case of the
  hash and nothing after it runs (`exec_casesCode`), the fallback rules are `suffixRouteOf` in order
  (`exec_rulesCode`).
-/
import Zereh.Control.Accepted
import Zereh.Link.DispatchParse

namespace Zereh.Link

open Lib CText Control Xdp

section Run

variable (f : CStr → CStr) (cfg : Config) (clock : Clock) (h : Headers) (qmeta : DnsQueryMeta)
  (hash : UInt64)

/-- The only local variable. -/
def locals : List (Name × Val Name) := [(.routeHash, .int hash.toNat)]

/-- An action as the way a block ends. -/
def returns (x : Outcome) : Checked (Out Nat (Flow Name) × XdpState) :=
  andThen x fun a st => .ok (.val (.ret (.int (Action.code a))), st)

/-- A block that returned is the end of every block around it. -/
theorem andThen_returns {f : Flow Name → XdpState → Checked (Out Nat (Flow Name) × XdpState)}
    (x : Outcome) (hf : ∀ v st, f (.ret v) st = .ok (.val (.ret v), st)) :
    andThen (returns x) f = returns x := by
  unfold returns
  rw [andThen_assoc]
  simp only [andThen_val, hf]

/-- The values of the arguments of `filterCall` after the query. -/
def filterValues (r : Route) (i : Nat) : List (Val Name) :=
  [.bytes (literalArray (f r.prefixMatch)), .int r.prefixMatch.len, .bytes (literalArray (f r.suffixMatch)),
    .int r.suffixMatch.len, .int r.minLabels.toNat, .int r.maxLabels.toNat,
    .int r.qnameMinLen.toNat, .int r.qnameMaxLen.toNat, .int hash.toNat, .int i,
    .int r.rrtypeMask.toNat, .int r.powDifficulty.toNat, .int r.powTimeWindow.toNat,
    .int (if r.bloomEnabled then 1 else 0), .int r.bloomSize.toNat,
    .int r.bloomHashFunctions.toNat, .int r.bloomTimeWindow.toNat, .int r.rateLimitQps.toNat]

/-- They are route `i`'s own fields, in the order of the parameters. -/
theorem argsOf_filterValues (r : Route) (i : Nat) :
    argsOf (filterValues f hash r i) = some (routeFiltersOf f r i hash) := by
  simp only [filterValues, argsOf, routeFiltersOf, routeFilters, UInt8.ofNat_toNat, UInt16.ofNat_toNat,
    UInt32.ofNat_toNat, UInt64.ofNat_toNat]
  cases r.bloomEnabled <;> rfl

theorem eval_filterCall (r : Route) (i : Nat) (st : XdpState) :
    eval (host (macros cfg) clock h qmeta) (locals hash) (filterCall f r i) st =
      (routeFiltersOf f r i hash).apply (macros cfg).rateStateEntries clock st.maps qmeta >>=
        fun res => .ok (.val (boolInt res.1), { st with maps := res.2 }) := by
  have hcall : eval (host (macros cfg) clock h qmeta) (locals hash) (filterCall f r i) st =
      callFilters (macros cfg) clock qmeta (filterValues f hash r i) st := rfl
  rw [hcall, callFilters, argsOf_filterValues]

/-- The action of a route ends the function. -/
theorem exec_actionCode (r : Route) (k : Code Name) (st : XdpState) :
    exec (host (macros cfg) clock h qmeta) (actionCode r k) none (locals hash) st =
      returns (targetAction r h st) := by
  unfold actionCode targetAction
  cases r.target with
  | userSpace =>
    have hcall : eval (host (macros cfg) clock h qmeta) (locals hash)
        (.call .bpfRedirectMap [.addrOf .xskMap, .int r.xskQueue.toNat, .int 0]) st =
          asInt (Xdp.bpfRedirectMap r.xskQueue.toNat st) := rfl
    rw [exec_ret, hcall]
    exact andThen_assoc _ _ _
  | kernelSpace =>
    have hcall : eval (host (macros cfg) clock h qmeta) (locals hash)
        (.call .zerehRouteKernelSpace [.ident .iph, .ident .udp,
          .call .bpfHtons [.int r.kernelPort.toNat], .int 0]) st =
        asInt (routeKernelSpace h (UInt16.ofNat (Xdp.bpfHtons (UInt16.ofNat
          r.kernelPort.toNat)).toNat) 0 st) := rfl
    rw [exec_ret, hcall, UInt16.ofNat_toNat, UInt16.ofNat_toNat]
    exact andThen_assoc _ _ _
  | xdpProg =>
    have hcall : eval (host (macros cfg) clock h qmeta) (locals hash)
        (.call .bpfTailCall [.ident .ctx, .addrOf .progArray, .int r.progIndex.toNat]) st =
          asInt (Xdp.bpfTailCall r.progIndex.toNat st (·.finish .aborted)) := rfl
    rw [exec_expr, hcall]
    unfold Xdp.bpfTailCall
    split <;> rfl

/-- A route that is entered ends the function, with the drop when its filters fail. -/
theorem exec_takeCode (r : Route) (i : Nat) (k : Code Name) (st : XdpState) :
    exec (host (macros cfg) clock h qmeta) (takeCode f r i k) none (locals hash) st =
      returns (takeRouteOf f cfg clock h qmeta hash r i st) := by
  unfold takeCode takeRouteOf
  rw [exec_ite, eval, eval_filterCall]
  cases (routeFiltersOf f r i hash).apply (macros cfg).rateStateEntries clock st.maps qmeta with
  | error e => rfl
  | ok res =>
    obtain ⟨ok, maps⟩ := res
    cases ok with
    | false => rfl
    | true => exact exec_actionCode cfg clock h qmeta hash r k _

/-! ## The switch -/

/-- While a label is looked for, the statements of a route are skipped. -/
theorem exec_takeCode_seek (r : Route) (i : Nat) (k : Code Name) (l : Option Nat)
    (st : XdpState) :
    exec (host (macros cfg) clock h qmeta) (takeCode f r i k) (some l) (locals hash) st =
      exec (host (macros cfg) clock h qmeta) k (some l) (locals hash) st := by
  unfold takeCode actionCode
  cases r.target <;> rfl

/-- The case of the hash is entered, wherever it stands. -/
theorem exec_casesCode {routes : List (Route × Nat)} {r : Route} {i : Nat} (st : XdpState)
    (hfind : routes.find? (fun ri => ri.1.hash = hash) = some (r, i)) :
    exec (host (macros cfg) clock h qmeta) (casesCode f routes) (some (some hash.toNat))
      (locals hash) st = returns (takeRouteOf f cfg clock h qmeta hash r i st) := by
  induction routes with
  | nil => cases hfind
  | cons ri routes ih =>
    rw [casesCode, exec_label]
    by_cases hr : ri.1.hash = hash
    · rw [List.find?_cons_of_pos (by simpa using hr), Option.some.injEq] at hfind
      subst hfind
      rw [hr, if_pos rfl]
      exact exec_takeCode f cfg clock h qmeta hash r i _ st
    · rw [List.find?_cons_of_neg (by simpa using hr)] at hfind
      have hne : some (some hash.toNat) ≠ some (some ri.1.hash.toNat) := fun heq =>
        hr (UInt64.toNat_inj.mp (Option.some.inj (Option.some.inj heq)).symm)
      rw [if_neg hne, exec_takeCode_seek]
      exact ih hfind

/-- The default label leaves the switch. -/
theorem exec_casesCode_default (routes : List (Route × Nat)) (st : XdpState) :
    exec (host (macros cfg) clock h qmeta) (casesCode f routes) (some none) (locals hash) st =
      .ok (.val .brk, st) := by
  induction routes with
  | nil => rfl
  | cons ri routes ih =>
    rw [casesCode, exec_label, if_neg (by simp), exec_takeCode_seek]
    exact ih

theorem mem_labels_iff (routes : List (Route × Nat)) :
    some hash.toNat ∈ (casesCode f routes).labels ↔
      routes.find? (fun ri => ri.1.hash = hash) ≠ none := by
  rw [labels_casesCode, List.mem_append, List.mem_singleton, Option.ne_none_iff_isSome,
    List.find?_isSome, List.mem_map]
  constructor
  · rintro (⟨ri, hmem, hri⟩ | hnone)
    · exact ⟨ri, hmem, by simpa [UInt64.toNat_inj] using hri⟩
    · cases hnone
  · rintro ⟨ri, hmem, hri⟩
    exact .inl ⟨ri, hmem, by simpa [UInt64.toNat_inj] using hri⟩

/-! ## The fallback rules -/

/-- What the rules do: the route of the suffix, else the default action. -/
def refRules (routes : List (Route × Nat)) (st : XdpState) : Outcome := do
  match ← suffixRouteOf f qmeta routes with
  | some (r, i) => takeRouteOf f cfg clock h qmeta hash r i st
  | none => st.finish (actionOfDefault cfg.defaultAction)

theorem exec_rulesCode (routes : List (Route × Nat)) (st : XdpState) :
    exec (host (macros cfg) clock h qmeta) (rulesCode f routes) none (locals hash) st =
      returns (refRules f cfg clock h qmeta hash routes st) := by
  induction routes with
  | nil => rfl
  | cons ri routes ih =>
    obtain ⟨r, i⟩ := ri
    have hcall : eval (host (macros cfg) clock h qmeta) (locals hash) (suffixCall f r) st =
        ruleMatches f qmeta r >>= fun b => .ok (.val (boolInt b), st) := rfl
    rw [rulesCode, exec_ite, hcall]
    unfold refRules suffixRouteOf
    cases ruleMatches f qmeta r with
    | error e => rfl
    | ok b =>
      cases b with
      | false => exact ih
      | true =>
        have htake := exec_takeCode f cfg clock h qmeta hash r i .done st
        simp only [ok_bind, andThen_val, boolInt, truth, if_true, ne_eq, one_ne_zero,
          not_false_eq_true, decide_true, htake]
        exact andThen_returns _ fun _ _ => rfl

/-! ## The function -/

/-- The switch, then the rules. -/
theorem exec_switchCode (routes : List (Route × Nat)) (st : XdpState) :
    exec (host (macros cfg) clock h qmeta)
      (.switch (.ident .routeHash) (casesCode f routes) (rulesCode f routes)) none (locals hash) st =
      returns (match routes.find? fun ri => ri.1.hash = hash with
        | some (r, i) => takeRouteOf f cfg clock h qmeta hash r i st
        | none => refRules f cfg clock h qmeta hash routes st) := by
  have hvar : eval (host (macros cfg) clock h qmeta) (locals hash) (.ident .routeHash) st =
      .ok (.val (.int hash.toNat), st) := rfl
  rw [exec_switch, hvar, andThen_val]
  cases hfind : routes.find? fun ri => ri.1.hash = hash with
  | some ri =>
    have hmem := (mem_labels_iff f hash routes).mpr (by rw [hfind]; exact Option.some_ne_none _)
    simp only [if_pos hmem, exec_casesCode f cfg clock h qmeta hash st hfind]
    exact andThen_returns _ fun _ _ => rfl
  | none =>
    have hmem : some hash.toNat ∉ (casesCode f routes).labels := fun hin =>
      (mem_labels_iff f hash routes).mp hin hfind
    simp only [if_neg hmem, exec_casesCode_default, andThen_val]
    exact exec_rulesCode f cfg clock h qmeta hash routes st

theorem actionOf_code (a : Action) : actionOf (.int (Action.code a)) = some a := by
  cases a <;> rfl

/-- A body that returns an action gives that action. -/
theorem runDispatch_of_exec {code : Code Name} {st : XdpState} {x : Outcome}
    (hexec : exec (host (macros cfg) clock h qmeta) code none [] st = returns x) :
    runDispatch (macros cfg) clock h qmeta code st = x := by
  unfold runDispatch runBody
  rw [hexec]
  unfold returns
  rw [andThen_assoc, andThen_assoc]
  simp only [andThen_val, actionOf_code]
  match x with
  | .error _ => rfl
  | .ok (.leave _, _) => rfl
  | .ok (.val _, _) => rfl

/-- The program is the reference interpreter. -/
theorem runDispatch_dispatchCode (st : XdpState) :
    runDispatch (macros cfg) clock h qmeta (dispatchCode f cfg.routes.zipIdx) st =
      refDispatchOf f cfg clock h qmeta st := by
  have hcall : eval (host (macros cfg) clock h qmeta) []
      (.call .zerehRouteHash [.ident .qmeta]) st =
        Xdp.routeHash cfg.hashAlgo qmeta >>= fun hash => .ok (.val (.int hash.toNat), st) := rfl
  refine runDispatch_of_exec cfg clock h qmeta ?_
  unfold dispatchCode refDispatchOf
  rw [exec_decl, hcall]
  cases Xdp.routeHash cfg.hashAlgo qmeta with
  | error e => rfl
  | ok hash =>
    refine (exec_switchCode f cfg clock h qmeta hash cfg.routes.zipIdx st).trans ?_
    simp only [ok_bind, selectRouteOf]
    cases cfg.routes.zipIdx.find? fun ri => ri.1.hash = hash with
    | some ri => rfl
    | none => rfl

/-- A body with its strings put through `f` runs as the reference interpreter with them. -/
theorem runText_dispatchTextOf (hnodup : (cfg.routes.map (·.hash)).Nodup) (st : XdpState) :
    runText (macros cfg) (dispatchTextOf f cfg) clock h qmeta st =
      refDispatchOf f cfg clock h qmeta st := by
  unfold runText
  rw [readBody_dispatchTextOf, if_pos hnodup]
  exact runDispatch_dispatchCode f cfg clock h qmeta st

/-- The intended text runs as the reference interpreter when it compiles at all. -/
theorem dispatch_eq_refDispatch (hnodup : (cfg.routes.map (·.hash)).Nodup) (st : XdpState) :
    dispatch cfg clock h qmeta st = refDispatch cfg clock h qmeta st := by
  rw [dispatch, ← dispatchTextOf_id, runText_dispatchTextOf id cfg clock h qmeta hnodup,
    refDispatchOf_id]

end Run

end Zereh.Link
