/-
  The statements of the generated text.

  `dispatchCode f routes` is the program the text is meant to be, with the strings in its literals put
  through `f`. Parsing the tokens of the text gives exactly it when the hashes of the routes are
  distinct, and nothing otherwise: a `switch` with a repeated label is not C.
-/
import Mathlib.Data.List.Nodup
import Zereh.Link.DispatchLex

namespace Zereh.Link

open Lib CText Control Xdp

/-! ## The program -/

section Program

variable (f : CStr → CStr)

/-- The call of `zereh_apply_app_filters` for route `i`. -/
def filterCall (r : Route) (i : Nat) : Expr Name :=
  .call .zerehApplyAppFilters
    [.ident .qmeta, .str (f r.prefixMatch).bytes, .int r.prefixMatch.len, .str (f r.suffixMatch).bytes,
      .int r.suffixMatch.len, .int r.minLabels.toNat, .int r.maxLabels.toNat,
      .int r.qnameMinLen.toNat, .int r.qnameMaxLen.toNat, .ident .routeHash, .int i,
      .int r.rrtypeMask.toNat, .int r.powDifficulty.toNat, .int r.powTimeWindow.toNat,
      .int (if r.bloomEnabled then 1 else 0), .int r.bloomSize.toNat,
      .int r.bloomHashFunctions.toNat, .int r.bloomTimeWindow.toNat, .int r.rateLimitQps.toNat]

/-- The action of a route, before `k`. -/
def actionCode (r : Route) (k : Code Name) : Code Name :=
  match r.target with
  | .userSpace => .ret (.call .bpfRedirectMap [.addrOf .xskMap, .int r.xskQueue.toNat, .int 0]) k
  | .kernelSpace =>
      .ret (.call .zerehRouteKernelSpace [.ident .iph, .ident .udp,
        .call .bpfHtons [.int r.kernelPort.toNat], .int 0]) k
  | .xdpProg =>
      .expr (.call .bpfTailCall [.ident .ctx, .addrOf .progArray, .int r.progIndex.toNat])
        (.ret (.ident .xdpDrop) k)

/-- Drop when the filters say no, else the action. -/
def takeCode (r : Route) (i : Nat) (k : Code Name) : Code Name :=
  .ite (.not (filterCall f r i)) (.ret (.ident .xdpDrop) .done) (actionCode r k)

/-- The body of the `switch`. -/
def casesCode : List (Route × Nat) → Code Name
  | [] => .label none (.brk .done)
  | (r, i) :: routes => .label (some r.hash.toNat) (takeCode f r i (casesCode routes))

/-- The test of a fallback rule. -/
def suffixCall (r : Route) : Expr Name :=
  .call .zerehMatchSuffix
    [.member .qmeta .qname, .member .qmeta .qnameLen, .str (f r.domain).bytes, .int r.domain.len]

/-- The fallback rules and the default action. -/
def rulesCode : List (Route × Nat) → Code Name
  | [] => .ret (.ident .zerehDefaultAction) .done
  | (r, i) :: routes => .ite (suffixCall f r) (takeCode f r i .done) (rulesCode routes)

/-- The body of `zereh_dispatch`. -/
def dispatchCode (routes : List (Route × Nat)) : Code Name :=
  .decl .routeHash (.call .zerehRouteHash [.ident .qmeta])
    (.switch (.ident .routeHash) (casesCode f routes) (rulesCode f routes))

theorem labels_takeCode (r : Route) (i : Nat) (k : Code Name) :
    (takeCode f r i k).labels = k.labels := by
  unfold takeCode actionCode
  cases r.target <;> rfl

theorem labels_casesCode (routes : List (Route × Nat)) :
    (casesCode f routes).labels = routes.map (fun ri => some ri.1.hash.toNat) ++ [none] := by
  induction routes with
  | nil => rfl
  | cons ri routes ih =>
    rw [casesCode, Code.labels, labels_takeCode, ih]
    rfl

theorem labels_rulesCode (routes : List (Route × Nat)) : (rulesCode f routes).labels = [] := by
  induction routes with
  | nil => rfl
  | cons ri routes ih => exact ih

/-- The labels are distinct exactly when the hashes are. -/
theorem nodup_labels_iff (routes : List (Route × Nat)) :
    (casesCode f routes).labels.Nodup ↔ (routes.map fun ri => ri.1.hash).Nodup := by
  have hinj : Function.Injective fun h : UInt64 => some h.toNat := fun a b h =>
    UInt64.toNat_inj.mp (Option.some.inj h)
  have hmap : routes.map (fun ri => some ri.1.hash.toNat) =
      (routes.map fun ri => ri.1.hash).map fun h => some h.toNat := by
    rw [List.map_map]
    rfl
  have hnone : ∀ a ∈ (routes.map fun ri => ri.1.hash).map (fun h => some h.toNat),
      ∀ b ∈ [none], a ≠ b := by
    intro a ha b hb
    obtain ⟨h, -, rfl⟩ := List.mem_map.mp ha
    rw [List.mem_singleton.mp hb]
    exact Option.some_ne_none _
  rw [labels_casesCode, hmap, List.nodup_append, List.nodup_map_iff hinj]
  exact ⟨fun h => h.1, fun h => ⟨h, List.nodup_singleton _, hnone⟩⟩

/-! ## Tokens to statements -/

section Parse

variable {N : Nat} {ts us : Toks} {k : Code Name}

/-- The condition, up to the block that drops. -/
theorem parses_filterCall (r : Route) (i : Nat) (ts : Toks) :
    ParsesExpr 24 (([.punct .bang, .ident .zerehApplyAppFilters, .punct .lparen, .ident .qmeta,
      .punct .comma] : Toks) ++ filterTokens f r i ++ ts) (.not (filterCall f r i))
      (dropBlock.tail ++ ts) := by
  intro n hn
  obtain ⟨n, rfl⟩ := Nat.exists_eq_add_of_le' hn
  rfl

/-- The block that drops, after its brace. -/
theorem parses_dropBlock (ts : Toks) :
    Parses 3 (.kw .returnK :: .ident .xdpDrop :: .punct .semi :: .punct .rbrace :: ts)
      (.ret (.ident .xdpDrop) .done) (.punct .rbrace :: ts) := by
  intro n hn
  obtain ⟨n, rfl⟩ := Nat.exists_eq_add_of_le' hn
  rfl

theorem parses_action (r : Route) (hN : 8 ≤ N) (h : Parses N ts k us) :
    Parses (N + 2) (actionTokens r ++ ts) (actionCode r k) us := by
  unfold actionTokens actionCode
  cases r.target with
  | userSpace =>
    refine (parses_return ?_ h).mono (by omega)
    intro n hn
    obtain ⟨n, rfl⟩ := Nat.exists_eq_add_of_le' (hN.trans hn)
    rfl
  | kernelSpace =>
    refine (parses_return ?_ h).mono (by omega)
    intro n hn
    obtain ⟨n, rfl⟩ := Nat.exists_eq_add_of_le' (hN.trans hn)
    rfl
  | xdpProg =>
    have hret : Parses (N + 1) (.kw .returnK :: .ident .xdpDrop :: .punct .semi :: ts)
        (.ret (.ident .xdpDrop) k) us := by
      refine parses_return ?_ h
      intro n hn
      obtain ⟨n, rfl⟩ := Nat.exists_eq_add_of_le' (hN.trans hn)
      rfl
    refine parses_call ?_ hret
    intro n hn
    obtain ⟨n, rfl⟩ := Nat.exists_eq_add_of_le' (hN.trans (Nat.le_of_succ_le hn))
    rfl

/-- What a route adds to a case or a rule costs three units of fuel. -/
theorem parses_take (r : Route) (i : Nat) (hN : 24 ≤ N) (h : Parses N ts k us) :
    Parses (N + 3) (filterHead ++ filterTokens f r i ++ actionTokens r ++ ts) (takeCode f r i k) us := by
  have hcond := parses_filterCall f r i (actionTokens r ++ ts)
  have hbody := parses_dropBlock (actionTokens r ++ ts)
  have hif := parses_if (hcond.mono (by omega : 24 ≤ N + 2)) (hbody.mono (by omega)) rfl
    (parses_action r (by omega) h)
  rw [takeCode]
  simpa only [filterHead, List.cons_append, List.nil_append, List.append_assoc] using hif

/-- The cases of `m` routes cost `4 * m` units. -/
theorem parses_cases (routes : List (Route × Nat)) (ts : Toks) :
    Parses (4 * routes.length + 24)
      (routes.flatMap (fun ri => caseTokens f ri.1 ri.2) ++
        .kw .defaultK :: .punct .colon :: .kw .breakK :: .punct .semi :: .punct .rbrace :: ts)
      (casesCode f routes) (.punct .rbrace :: ts) := by
  induction routes with
  | nil => exact (parses_default (parses_break parses_rbrace)).mono (by omega)
  | cons ri routes ih =>
    have hcase := (parses_case (v := ri.1.hash.toNat)
      (parses_take f ri.1 ri.2 (by omega) ih)).mono
        (by rw [List.length_cons]; omega : _ ≤ 4 * (ri :: routes).length + 24)
    simpa only [casesCode, caseTokens, List.flatMap_cons, List.cons_append, List.nil_append,
      List.append_assoc] using hcase

/-- The test of a rule, up to its block. -/
theorem parses_suffixCall (r : Route) (ts : Toks) :
    ParsesExpr 24 (([.ident .zerehMatchSuffix, .punct .lparen, .ident .qmeta, .arrow,
      .ident .qname, .punct .comma, .ident .qmeta, .arrow, .ident .qnameLen, .punct .comma,
      .str (f r.domain).bytes, .punct .comma, .int r.domain.len, .punct .rparen] : Toks) ++ ts)
      (suffixCall f r) ts := by
  intro n hn
  obtain ⟨n, rfl⟩ := Nat.exists_eq_add_of_le' hn
  rfl

theorem parses_rules (routes : List (Route × Nat)) :
    Parses (routes.length + 27)
      (routes.flatMap (fun ri => ruleTokens f ri.1 ri.2) ++
        ([.kw .returnK, .ident .zerehDefaultAction, .punct .semi] : Toks))
      (rulesCode f routes) [] := by
  induction routes with
  | nil =>
    intro n hn
    obtain ⟨n, rfl⟩ := Nat.exists_eq_add_of_le' hn
    rfl
  | cons ri routes ih =>
    have hle : 24 + 3 ≤ routes.length + 27 := by omega
    have htest := fun ts => (parses_suffixCall f ri.1 ts).mono
      (by omega : 24 ≤ routes.length + 27)
    have hclose : ∀ ts : Toks, Parses 24 (.punct .rbrace :: ts) .done (.punct .rbrace :: ts) :=
      fun _ => parses_rbrace.mono (by omega)
    have hbody := fun ts => (parses_take f ri.1 ri.2 le_rfl (hclose ts)).mono hle
    have hif := (parses_if (htest _) (hbody _) (labels_takeCode f _ _ _) ih).mono
      (by rw [List.length_cons, Nat.add_right_comm] : _ ≤ (ri :: routes).length + 27)
    simpa only [rulesCode, ruleTokens, List.flatMap_cons, List.cons_append, List.nil_append,
      List.append_assoc] using hif

end Parse

theorem two_mul_length_le (routes : List (Route × Nat)) :
    2 * routes.length ≤ (routes.flatMap fun ri => caseTokens f ri.1 ri.2).length := by
  induction routes with
  | nil => exact Nat.zero_le _
  | cons ri routes ih =>
    rw [List.flatMap_cons, List.length_append, List.length_cons]
    have : 2 ≤ (caseTokens f ri.1 ri.2).length := by
      simp only [caseTokens, List.length_append, List.length_cons, List.length_nil]
      omega
    omega

/-- A body parses to its program, unless two of the hashes are the same. -/
theorem parse_dispatchTokens (routes : List (Route × Nat)) :
    parse (dispatchTokens f routes) =
      if (routes.map fun ri => ri.1.hash).Nodup then some (dispatchCode f routes) else none := by
  have hvar : ∀ ts : Toks, ParsesExpr (4 * routes.length + 27)
      (.ident .routeHash :: .punct .rparen :: ts) (.ident .routeHash) (.punct .rparen :: ts) := by
    intro ts n hn
    obtain ⟨n, rfl⟩ := Nat.exists_eq_add_of_le' ((Nat.le_add_left 27 _).trans hn)
    rfl
  have hhash : ∀ ts : Toks, ParsesExpr (4 * routes.length + 28)
      (.ident .zerehRouteHash :: .punct .lparen :: .ident .qmeta :: .punct .rparen :: ts)
      (.call .zerehRouteHash [.ident .qmeta]) ts := by
    intro ts n hn
    obtain ⟨n, rfl⟩ := Nat.exists_eq_add_of_le' ((Nat.le_add_left 28 _).trans hn)
    rfl
  have hcases := fun ts => (parses_cases f routes ts).mono
    (by omega : _ ≤ 4 * routes.length + 27)
  have hrules := (parses_rules f routes).mono (by omega : _ ≤ 4 * routes.length + 27)
  have hlen := two_mul_length_le f routes
  have hfuel : 4 * routes.length + 29 ≤ 2 * (dispatchTokens f routes).length + 2 := by
    simp only [dispatchTokens, List.length_append, List.length_cons, List.length_nil]
    omega
  have htokens : dispatchTokens f routes = .ident .u64 :: .ident .routeHash :: .punct .assign ::
      .ident .zerehRouteHash :: .punct .lparen :: .ident .qmeta :: .punct .rparen ::
      .punct .semi :: .kw .switchK :: .punct .lparen :: .ident .routeHash :: .punct .rparen ::
      .punct .lbrace :: (routes.flatMap (fun ri => caseTokens f ri.1 ri.2) ++ .kw .defaultK ::
      .punct .colon :: .kw .breakK :: .punct .semi :: .punct .rbrace ::
      (routes.flatMap (fun ri => ruleTokens f ri.1 ri.2) ++
        ([.kw .returnK, .ident .zerehDefaultAction, .punct .semi] : Toks))) := by
    simp only [dispatchTokens, List.cons_append, List.nil_append, List.append_assoc]
  split_ifs with hnodup
  · have hlabels := (nodup_labels_iff f routes).mpr hnodup
    refine parse_of_parses ?_ hfuel (labels_rulesCode f routes)
    rw [htokens]
    exact parses_decl (hhash _) (parses_switch (hvar _) (hcases _) hlabels hrules)
  · have hlabels := (nodup_labels_iff f routes).not.mpr hnodup
    refine parse_of_rejects ?_ hfuel
    rw [htokens]
    exact rejects_decl (hhash _) (rejects_switch (hvar _) (hcases _) hlabels hrules)

/-- **The emitted text is the program.** For every configuration, whatever bytes its strings
    hold and whatever they have been rewritten to, the text lexes and parses to `dispatchCode`, unless
    two routes share a hash. -/
theorem readBody_dispatchTextOf (cfg : Config) :
    readBody (dispatchTextOf f cfg) =
      if (cfg.routes.map (·.hash)).Nodup then some (dispatchCode f cfg.routes.zipIdx) else none := by
  have hhash : cfg.routes.zipIdx.map (fun ri => ri.1.hash) = cfg.routes.map (·.hash) := by
    calc cfg.routes.zipIdx.map (fun ri => ri.1.hash)
        = (cfg.routes.zipIdx.map Prod.fst).map (·.hash) := by rw [List.map_map]; rfl
      _ = cfg.routes.map (·.hash) := by rw [List.zipIdx_map_fst]
  simp only [readBody, lex_dispatchTextOf, Option.bind_eq_bind, Option.bind_some]
  rw [parse_dispatchTokens, hhash]

end Program

theorem readDispatch_eq (cfg : Config) :
    readDispatch cfg =
      if (cfg.routes.map (·.hash)).Nodup then some (dispatchCode id cfg.routes.zipIdx) else none := by
  rw [readDispatch, ← dispatchTextOf_id, readBody_dispatchTextOf]

theorem readDispatch_isSome_iff (cfg : Config) :
    (readDispatch cfg).isSome ↔ (cfg.routes.map (·.hash)).Nodup := by
  rw [readDispatch_eq]
  split_ifs with hnodup
  · exact ⟨fun _ => hnodup, fun _ => rfl⟩
  · exact ⟨fun h => (by cases h), fun h => absurd h hnodup⟩

end Zereh.Link
