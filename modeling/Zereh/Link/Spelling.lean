/-
  Two spellings of one configuration.

  `Respelled` configurations differ in the case of letters in domains, patterns and Bloom seeds,
  and in a trailing dot of domains and seeds. What goes through `zereh_normalize_domain` does not
  see the difference: the hashes of the routes and the maps that the loader fills are the same
  (`Respelled.hash`, `SeededFrom.unique`). The rules and the patterns are compared as they stand in
  the two texts. So the programs answer a frame alike when every comparison that its query comes to
  has the same result in both (`respelled_same_verdict`).
-/
import Zereh.Link.CaseLabels
import Zereh.Link.Decision
import Zereh.Link.ProgArray

namespace Zereh.Link

open Lib CText Control Xdp

/-! ## Names -/

/-- The second name is the first with a trailing dot, up to the case of letters. -/
def AddsDot (s s' : CStr) : Prop :=
  s.bytes.getLast? ≠ some 46 ∧ lower s'.bytes = lower s.bytes ++ [46]

/-- Equal up to the case of letters and a single trailing dot. -/
def SameName (s s' : CStr) : Prop :=
  lower s.bytes = lower s'.bytes ∨ AddsDot s s' ∨ AddsDot s' s

theorem normalizeLoop_lower (n : Nat) (s : List UInt8) :
    normalizeLoop n (lower s) = normalizeLoop n s := by
  induction s generalizing n with
  | nil => rfl
  | cons c s ih =>
    cases n with
    | zero => rfl
    | succ n =>
      have hlast : tolower c = 46 ∧ lower s = [] ↔ c = 46 ∧ s = [] :=
        and_congr tolower_eq_dot List.map_eq_nil_iff
      have hlower : lower (c :: s) = tolower c :: lower s := rfl
      rw [hlower, normalizeLoop, normalizeLoop, ih n, tolower_tolower]
      simp only [hlast]

/-- The dot that is dropped, wherever the output buffer ends. -/
theorem normalizeLoop_concat_dot (n : Nat) {s : List UInt8} (hdot : s.getLast? ≠ some 46) :
    normalizeLoop n (s ++ [46]) = normalizeLoop n s := by
  induction s generalizing n with
  | nil => cases n <;> rfl
  | cons c s ih =>
    cases n with
    | zero => rfl
    | succ n =>
      have hc : ¬ (c = 46 ∧ s = []) := by
        rintro ⟨rfl, rfl⟩
        exact hdot rfl
      have hs : s.getLast? ≠ some 46 := by
        cases s with
        | nil => nofun
        | cons d s => rwa [List.getLast?_cons_cons] at hdot
      rw [List.cons_append, normalizeLoop, normalizeLoop, if_neg hc, if_neg (by simp), ih n hs]

theorem AddsDot.normalize {s s' : CStr} (h : AddsDot s s') :
    normalizeDomain s' = normalizeDomain s := by
  unfold normalizeDomain
  have hdot : (lower s.bytes).getLast? ≠ some 46 := by
    rw [getLast?_lower]
    intro hlast
    obtain ⟨c, hc, hc'⟩ := Option.map_eq_some_iff.mp hlast
    exact h.1 (tolower_eq_dot.mp hc' ▸ hc)
  rw [← normalizeLoop_lower, h.2, normalizeLoop_concat_dot _ hdot, normalizeLoop_lower]

/-- Normalization maps both spellings to one name. -/
theorem SameName.normalize {s s' : CStr} (h : SameName s s') :
    normalizeDomain s = normalizeDomain s' := by
  rcases h with h | h | h
  · unfold normalizeDomain
    rw [← normalizeLoop_lower, h, normalizeLoop_lower]
  · exact h.normalize.symm
  · exact h.normalize

theorem SameName.hashDomain {s s' : CStr} (h : SameName s s') (algo : HashAlgorithm) :
    hashDomain s algo = hashDomain s' algo :=
  hashDomain_congr h.normalize algo

/-! ## Configurations -/

/-- A route with its domain, patterns and seeds spelled in another way. The hash is not written in
    a configuration. -/
structure RespelledRoute (r r' : Route) : Prop where
  domain : SameName r.domain r'.domain
  prefixMatch : lower r.prefixMatch.bytes = lower r'.prefixMatch.bytes
  suffixMatch : lower r.suffixMatch.bytes = lower r'.suffixMatch.bytes
  bloomSeeds : List.Forall₂ SameName r.bloomSeeds r'.bloomSeeds
  rest : { r with
    domain := r'.domain
    hash := r'.hash
    prefixMatch := r'.prefixMatch
    suffixMatch := r'.suffixMatch
    bloomSeeds := r'.bloomSeeds } = r'

/-- A configuration with its routes spelled in another way. -/
structure Respelled (cfg cfg' : Config) : Prop where
  routes : List.Forall₂ RespelledRoute cfg.routes cfg'.routes
  rest : { cfg with routes := cfg'.routes } = cfg'

section Routes

variable {r r' : Route} (h : RespelledRoute r r')

include h

theorem RespelledRoute.target : r.target = r'.target := by rw [← h.rest]

theorem RespelledRoute.progIndex : r.progIndex = r'.progIndex := by rw [← h.rest]

theorem RespelledRoute.tailProgram (obj : BpfObject) {prog : Nat} {name : List UInt8}
    (hprog : tailProgram obj r = .ok (prog, name)) : tailProgram obj r' = .ok (prog, name) := by
  have hname : r.progName = r'.progName := by rw [← h.rest]
  unfold Link.tailProgram resolveTailProgram at hprog ⊢
  rw [hname, h.progIndex] at hprog
  dsimp only at hprog ⊢
  split_ifs at hprog ⊢
  · split at hprog
    · cases hprog
    · exact hprog
  · split at hprog
    · exact hprog
    · split at hprog
      · exact hprog
      · cases hprog

end Routes

/-! ## Maps -/

theorem seedsLoop_congr {seeds seeds' : List CStr} (h : List.Forall₂ SameName seeds seeds')
    (algo : HashAlgorithm) (bits : UInt32) (hashFunctions : UInt8) (window : UInt16)
    (bucket : UInt64) (words : Nat → UInt64) :
    seedsLoop algo bits hashFunctions window bucket seeds words =
      seedsLoop algo bits hashFunctions window bucket seeds' words := by
  induction h generalizing words with
  | nil => rfl
  | cons hseed _ ih =>
    unfold seedsLoop
    simp only [hseed.hashDomain algo, ih]

/-- The Bloom words see only the hashes of the seeds. -/
theorem routesLoop_congr {routes routes' : List Route}
    (h : List.Forall₂ RespelledRoute routes routes') (algo : HashAlgorithm) (now : UInt64)
    (words : Nat → UInt64) :
    routesLoop algo now routes words = routesLoop algo now routes' words := by
  induction h generalizing words with
  | nil => rfl
  | @cons r r' _ _ hroute _ ih =>
    have henabled : r.bloomEnabled = r'.bloomEnabled := by rw [← hroute.rest]
    have hsize : r.bloomSize = r'.bloomSize := by rw [← hroute.rest]
    have hfunctions : r.bloomHashFunctions = r'.bloomHashFunctions := by rw [← hroute.rest]
    have hwindow : r.bloomTimeWindow = r'.bloomTimeWindow := by rw [← hroute.rest]
    have hbits : routeBloomBits r = routeBloomBits r' := by
      simp only [routeBloomBits, henabled, hsize]
    have hcount : routeBloomHashFunctions r = routeBloomHashFunctions r' := by
      simp only [routeBloomHashFunctions, henabled, hfunctions]
    have hbucket : routeBucket r now = routeBucket r' now := by
      simp only [routeBucket, hwindow]
    unfold routesLoop
    simp only [henabled, hbits, hcount, hbucket, hwindow, seedsLoop_congr hroute.bloomSeeds, ih]

/-- A route is bound alike. -/
theorem bindRoute_congr {r r' : Route} (h : RespelledRoute r r') {obj : BpfObject} {updated : Bool}
    {maps maps' : Maps}
    (hrun : bindRoute obj (obj.findProgramByName (ascii "zereh_app_default")) updated r maps =
      .ok maps') :
    bindRoute obj (obj.findProgramByName (ascii "zereh_app_default")) updated r' maps =
      .ok maps' := by
  by_cases htarget : r.target = .xdpProg
  · obtain ⟨hindex, hupdated, prog, name, hprog, hfd⟩ := bindable_of_bindRoute htarget hrun
    rw [bindRoute_of_bindable htarget hindex hupdated hprog hfd, h.progIndex] at hrun
    rw [h.target] at htarget
    rw [h.progIndex] at hindex
    rw [bindRoute_of_bindable htarget hindex hupdated (h.tailProgram obj hprog) hfd, hrun]
  · rw [bindRoute_of_ne htarget] at hrun
    rw [h.target] at htarget
    rw [bindRoute_of_ne htarget, hrun]

theorem bindLoop_congr {routes routes' : List Route}
    (h : List.Forall₂ RespelledRoute routes routes') {obj : BpfObject} {updated : Nat → Bool}
    (i : Nat) {maps maps' : Maps}
    (hrun : bindLoop obj (obj.findProgramByName (ascii "zereh_app_default")) updated i routes maps =
      .ok maps') :
    bindLoop obj (obj.findProgramByName (ascii "zereh_app_default")) updated i routes' maps =
      .ok maps' := by
  induction h generalizing i maps with
  | nil => exact hrun
  | cons hroute _ ih =>
    obtain ⟨maps1, hfirst, hrun⟩ := bind_eq_ok hrun
    unfold bindLoop
    rw [bindRoute_congr hroute hfirst]
    exact ih (i + 1) hrun

/-- What the loader makes of maps with a configuration: the blacklist, then the Bloom words, then
    the program array. -/
def SeededFrom (cfg : Config) (obj : BpfObject) (updated : Nat → Bool) (now : UInt64)
    (base maps : Maps) : Prop :=
  ∃ listed, seedBlacklistMap cfg base = .ok listed ∧
    seedProgArray obj updated cfg (seedBloomMap cfg now listed) = .ok maps

/-- Both spellings fill the maps alike. -/
theorem Respelled.seededFrom {cfg cfg' : Config} (h : Respelled cfg cfg') {obj : BpfObject}
    {updated : Nat → Bool} {now : UInt64} {base maps : Maps}
    (hmaps : SeededFrom cfg obj updated now base maps) :
    SeededFrom cfg' obj updated now base maps := by
  obtain ⟨listed, hlisted, hbound⟩ := hmaps
  have hblacklist : cfg.blacklist = cfg'.blacklist := by rw [← h.rest]
  have halgo : cfg.hashAlgo = cfg'.hashAlgo := by rw [← h.rest]
  have hbloom : seedBloomMap cfg' now listed = seedBloomMap cfg now listed := by
    simp only [seedBloomMap, ← halgo, routesLoop_congr h.routes]
  refine ⟨listed, ?_, ?_⟩
  · rw [← hlisted, seedBlacklistMap, seedBlacklistMap, hblacklist]
  · rw [hbloom]
    exact bindLoop_congr h.routes 0 hbound

theorem SeededFrom.unique {cfg : Config} {obj : BpfObject} {updated : Nat → Bool} {now : UInt64}
    {base maps maps' : Maps} (h : SeededFrom cfg obj updated now base maps)
    (h' : SeededFrom cfg obj updated now base maps') : maps = maps' := by
  obtain ⟨listed, hlisted, hbound⟩ := h
  obtain ⟨listed', hlisted', hbound'⟩ := h'
  cases hlisted.symm.trans hlisted'
  exact Except.ok.inj (hbound.symm.trans hbound')

/-! ## One route in two spellings -/

section TwoSpellings

variable {r r' : Route} (h : RespelledRoute r r')

include h

theorem RespelledRoute.targetAction (hd : Headers) (st : XdpState) :
    targetAction r hd st = targetAction r' hd st := by
  rw [← h.rest]
  rfl

theorem RespelledRoute.earlyOk_iff (qmeta : DnsQueryMeta) : EarlyOk qmeta r ↔ EarlyOk qmeta r' := by
  rw [← h.rest]
  exact ⟨fun h => ⟨h.labels, h.length, h.type⟩, fun h => ⟨h.labels, h.length, h.type⟩⟩

/-- Behind the patterns, the filters of both spellings are the same. -/
theorem RespelledRoute.apply {f f' : CStr → CStr} {qmeta : DnsQueryMeta} (i : Nat) (hash : UInt64)
    (hname : (routeFiltersOf f r i hash).NameOk qmeta)
    (hname' : (routeFiltersOf f' r' i hash).NameOk qmeta) (entries : UInt32) (clock : Clock)
    (maps : Maps) :
    (routeFiltersOf f r i hash).apply entries clock maps qmeta =
      (routeFiltersOf f' r' i hash).apply entries clock maps qmeta := by
  have hrest : lateFilters (routeFiltersOf f r i hash) = lateFilters (routeFiltersOf f' r' i hash) := by
    rw [← h.rest]
    rfl
  have hlimit : (routeFiltersOf f r i hash).rateLimitQps = (routeFiltersOf f' r' i hash).rateLimitQps := by
    rw [← h.rest]
    rfl
  have hid : (routeFiltersOf f r i hash).routeId = (routeFiltersOf f' r' i hash).routeId := rfl
  rw [apply_eq_lateFilters hname, apply_eq_lateFilters hname', hrest, hlimit, hid]

end TwoSpellings

/-! ## Two programs -/

section TwoPrograms

variable {cfg cfg' : Config} (h : Respelled cfg cfg') (hcfg : cfg.Accepted) (hcfg' : cfg'.Accepted)

include h

theorem Respelled.hashAlgo : cfg.hashAlgo = cfg'.hashAlgo := by rw [← h.rest]

theorem Respelled.macros : macros cfg = macros cfg' := by
  have hlength : cfg.routes.length = cfg'.routes.length := h.routes.length_eq
  rw [← h.rest]
  simp only [Control.macros, hlength]

include hcfg hcfg'

/-- The hashes are those of the normalized domains. -/
theorem Respelled.hash : cfg.routes.map (·.hash) = cfg'.routes.map (·.hash) := by
  have hpairs : ∀ r r', r ∈ cfg.routes → r' ∈ cfg'.routes → RespelledRoute r r' →
      r.hash = r'.hash := by
    intro r r' hr hr' hroute
    rw [(hcfg.routes r hr).texts.hash_eq, (hcfg'.routes r' hr').texts.hash_eq, ← h.hashAlgo]
    exact hroute.domain.hashDomain cfg.hashAlgo
  have hroutes := h.routes
  revert hpairs hroutes
  generalize cfg.routes = routes
  generalize cfg'.routes = routes'
  intro hpairs hroutes
  induction hroutes with
  | nil => rfl
  | cons hroute _ ih =>
    rw [List.map_cons, List.map_cons, hpairs _ _ (.head _) (.head _) hroute,
      ih fun r r' hr hr' => hpairs r r' (.tail _ hr) (.tail _ hr')]


end TwoPrograms

/-! ## Literals -/

/-- Two searches through related lists end at one place, or there is a first place where the two
    tests differ. -/
theorem findIdx?_eq_or_differs {α : Type} {R : α → α → Prop} {l l' : List α} (h : List.Forall₂ R l l')
    (p p' : α → Bool) :
    l.findIdx? p = l'.findIdx? p' ∨ ∃ (i : Nat) (a a' : α), l[i]? = some a ∧ l'[i]? = some a' ∧
      p a ≠ p' a' ∧
      ∀ j < i, ∀ b b', l[j]? = some b → l'[j]? = some b' → p b = false ∧ p' b' = false := by
  induction h with
  | nil => exact .inl rfl
  | @cons a a' l l' _ _ ih =>
    by_cases hsame : p a = p' a'
    · rw [List.findIdx?_cons, List.findIdx?_cons, ← hsame]
      cases hfound : p a with
      | true => exact .inl rfl
      | false =>
        rcases ih with heq | ⟨i, b, b', hb, hb', hdiffers, hbefore⟩
        · rw [heq]
          exact .inl rfl
        · refine .inr ⟨i + 1, b, b', hb, hb', hdiffers, fun j hj c c' hc hc' => ?_⟩
          cases j with
          | zero =>
            cases hc
            cases hc'
            exact ⟨hfound, hsame.symm.trans hfound⟩
          | succ j => exact hbefore j (by omega) c c' hc hc'
    · exact .inr ⟨0, a, a', rfl, rfl, hsame, nofun⟩

/-- A query comes to a literal that the two programs decide differently: the domain of a rule that
    both get to, or a pattern of the route that both select. -/
inductive LiteralsDiffer (f f' : CStr → CStr) (qmeta : DnsQueryMeta) (cfg cfg' : Config) : Prop
  | domain {i : Nat} {r r' : Route} (hr : cfg.routes[i]? = some r) (hr' : cfg'.routes[i]? = some r')
      (unhashed : ∀ s ∈ cfg.routes, s.hash ≠ hashBytes qmeta.qname cfg.hashAlgo)
      (before : ∀ j < i, ∀ s s', cfg.routes[j]? = some s → cfg'.routes[j]? = some s' →
        ¬ RuleAgrees f qmeta s ∧ ¬ RuleAgrees f' qmeta s')
      (differs : ¬ (RuleAgrees f qmeta r ↔ RuleAgrees f' qmeta r'))
  | patterns {i : Nat} {r r' : Route} (hr : cfg.routes[i]? = some r) (hr' : cfg'.routes[i]? = some r')
      (selected : selectedIndexOf f qmeta cfg = some i ∧ selectedIndexOf f' qmeta cfg' = some i)
      (early : EarlyOk qmeta r) (differs : ¬ (PatternsAgree f qmeta r ↔ PatternsAgree f' qmeta r'))

section TwoPrograms

variable {cfg cfg' : Config} (h : Respelled cfg cfg') (hcfg : cfg.Accepted) (hcfg' : cfg'.Accepted)

include h hcfg hcfg'

theorem Respelled.selectedIndex {f f' : CStr → CStr} {qmeta : DnsQueryMeta}
    (hno : ¬ LiteralsDiffer f f' qmeta cfg cfg') :
    selectedIndexOf f qmeta cfg = selectedIndexOf f' qmeta cfg' := by
  have hexact : (cfg.routes.findIdx? fun r => r.hash = hashBytes qmeta.qname cfg.hashAlgo) =
      cfg'.routes.findIdx? fun r => r.hash = hashBytes qmeta.qname cfg'.hashAlgo := by
    have hmap := congrArg (List.findIdx? fun x => decide (x = hashBytes qmeta.qname cfg.hashAlgo))
      (h.hash hcfg hcfg')
    rw [List.findIdx?_map, List.findIdx?_map] at hmap
    rw [← h.hashAlgo]
    exact hmap
  unfold selectedIndexOf
  rw [← hexact]
  cases hfound : cfg.routes.findIdx? fun r => r.hash = hashBytes qmeta.qname cfg.hashAlgo with
  | some i => rfl
  | none =>
    rw [List.findIdx?_eq_none_iff] at hfound
    rcases findIdx?_eq_or_differs h.routes (fun r => decide (RuleAgrees f qmeta r))
      (fun r => decide (RuleAgrees f' qmeta r)) with heq | ⟨i, r, r', hr, hr', hdiffers, hbefore⟩
    · exact heq
    · refine absurd (.domain hr hr' (fun s hs => of_decide_eq_false (hfound s hs)) ?_ ?_) hno
      · intro j hj s s' hs hs'
        obtain ⟨h1, h2⟩ := hbefore j hj s s' hs hs'
        exact ⟨of_decide_eq_false h1, of_decide_eq_false h2⟩
      · exact mt decide_eq_decide.mpr hdiffers

/-- The decisions are one, or the query comes to a literal that decides differently. -/
theorem Respelled.decision_eq {f f' : CStr → CStr} {qmeta : DnsQueryMeta}
    (hno : ¬ LiteralsDiffer f f' qmeta cfg cfg') :
    decision f qmeta cfg = decision f' qmeta cfg' := by
  have hindex := h.selectedIndex hcfg hcfg' hno
  have hdefault : cfg.defaultAction = cfg'.defaultAction := by rw [← h.rest]
  unfold decision
  rw [← hindex, hdefault]
  cases hselected : selectedIndexOf f qmeta cfg with
  | none => rfl
  | some i =>
    dsimp only
    have hlength : cfg.routes.length = cfg'.routes.length := h.routes.length_eq
    have hpass : ((cfg.routes[i]?).any fun r => EarlyOk qmeta r ∧ PatternsAgree f qmeta r) =
        (cfg'.routes[i]?).any fun r => EarlyOk qmeta r ∧ PatternsAgree f' qmeta r := by
      by_cases hi : i < cfg.routes.length
      · have hi' : i < cfg'.routes.length := hlength ▸ hi
        have hroute : RespelledRoute cfg.routes[i] cfg'.routes[i] := h.routes.get hi hi'
        have hr := List.getElem?_eq_getElem hi
        have hr' := List.getElem?_eq_getElem hi'
        rw [hr, hr', Option.any_some, Option.any_some, decide_eq_decide, ← hroute.earlyOk_iff]
        refine and_congr_right fun hearly => not_not.mp fun hdiffers => ?_
        exact hno (.patterns hr hr' ⟨hselected, hindex.symm.trans hselected⟩ hearly hdiffers)
      · rw [List.getElem?_eq_none (by omega), List.getElem?_eq_none (by omega)]
        rfl
    rw [hpass]

end TwoPrograms

/-- What two programs have to agree on when a query comes to their dispatch: no literal is overrun,
    and each literal that the query comes to takes it in both or in neither. -/
structure LiteralsAgree (cfg cfg' : Config) (qmeta : DnsQueryMeta) : Prop where
  noSplice : NoSplice cfg ∧ NoSplice cfg'
  noOverrun : ¬ DispatchOverrun (rewritten cfg) qmeta cfg ∧
    ¬ DispatchOverrun (rewritten cfg') qmeta cfg'
  literals : ¬ LiteralsDiffer (rewritten cfg) (rewritten cfg') qmeta cfg cfg'

/-- The dispatches of both spellings: they compile together, and then answer alike. -/
theorem Respelled.generatedDispatch {cfg cfg' : Config} (h : Respelled cfg cfg') (hcfg : cfg.Accepted)
    (hcfg' : cfg'.Accepted) (clock : Clock) {hd : Headers} {qmeta : DnsQueryMeta} {st : XdpState}
    (hquery : parseDnsQuery st.pkt hd.udp = .ok (some qmeta)) (hagree : LiteralsAgree cfg cfg' qmeta) :
    generatedDispatch cfg clock hd qmeta st = generatedDispatch cfg' clock hd qmeta st := by
  obtain ⟨⟨hsplice, hsplice'⟩, ⟨hover, hover'⟩, hliterals⟩ := hagree
  have hdecision := h.decision_eq hcfg hcfg' hliterals
  by_cases hnodup : (cfg.routes.map (·.hash)).Nodup
  · have hnodup' := hnodup
    rw [h.hash hcfg hcfg'] at hnodup'
    rw [generatedDispatch_eq hsplice hnodup, generatedDispatch_eq hsplice' hnodup']
    have hfirst := refDispatchOf_decided hcfg clock hquery hover
    have hsecond := refDispatchOf_decided hcfg' clock hquery hover'
    rw [← hdecision] at hsecond
    revert hfirst hsecond
    generalize decision (rewritten cfg) qmeta cfg = d
    generalize refDispatchOf (rewritten cfg) cfg clock hd qmeta st = out
    generalize refDispatchOf (rewritten cfg') cfg' clock hd qmeta st = out'
    intro hfirst hsecond
    cases hfirst with
    | pass =>
      cases hsecond
      rfl
    | drop =>
      cases hsecond
      rfl
    | @limiter r i hr hearly hpatterns =>
      cases hsecond with
      | @limiter r' _ hr' hearly' hpatterns' =>
        have hroute : RespelledRoute r r' := by
          obtain ⟨hi, rfl⟩ := List.getElem?_eq_some_iff.mp hr
          obtain ⟨hi', rfl⟩ := List.getElem?_eq_some_iff.mp hr'
          exact h.routes.get hi hi'
        have hlens : ∀ {algo : HashAlgorithm} {s : Route}, s.Accepted algo →
            s.prefixMatch.len ≤ 255 ∧ s.suffixMatch.len ≤ 255 := fun hs =>
          ⟨Nat.le_trans hs.texts.prefix_len (by decide), Nat.le_trans hs.texts.suffix_len (by decide)⟩
        have happly := hroute.apply i (hashBytes qmeta.qname cfg.hashAlgo)
          ((nameOkOf_iff (hlens (hcfg.routes r (List.mem_of_getElem? hr))) i _).mpr
            ⟨hearly, hpatterns⟩)
          ((nameOkOf_iff (hlens (hcfg'.routes r' (List.mem_of_getElem? hr'))) i _).mpr
            ⟨hearly', hpatterns'⟩)
          (Control.macros cfg).rateStateEntries clock st.maps
        dsimp only [takeRouteOf]
        rw [← h.hashAlgo, ← h.macros, happly]
        simp only [hroute.targetAction]
  · have hnodup' := hnodup
    rw [h.hash hcfg hcfg'] at hnodup'
    have hnone : readBody (generatedText cfg) = none :=
      Option.not_isSome_iff_eq_none.mp (mt (readGenerated_isSome_iff hsplice).mp hnodup)
    have hnone' : readBody (generatedText cfg') = none :=
      Option.not_isSome_iff_eq_none.mp (mt (readGenerated_isSome_iff hsplice').mp hnodup')
    unfold Link.generatedDispatch runText
    rw [hnone, hnone']

/-- **When the spelling of names does not matter.** Two accepted configurations that differ in the
    case of letters in domains, patterns and seeds and in a trailing dot of domains and seeds, each
    with the maps seeded from it, give every frame the same verdict, if the literals agree on its
    query or it does not come to the dispatch. And they agree unless the query comes to a literal
    that the two programs decide differently, or a string holds a placeholder. -/
theorem respelled_same_verdict (doc doc' : YamlDocument) (cfg cfg' : Config)
    (hparse : parseConfigYaml doc = .ok cfg) (hparse' : parseConfigYaml doc' = .ok cfg')
    (h : Respelled cfg cfg') (obj : BpfObject) (updated : Nat → Bool) (now : UInt64)
    (base maps maps' : Maps) (hmaps : SeededFrom cfg obj updated now base maps)
    (hmaps' : SeededFrom cfg' obj updated now base maps') (clock : Clock) (pkt : List UInt8) :
    ((∀ hd qmeta, dispatched (macros cfg) maps pkt = .ok (some (hd, qmeta)) →
        LiteralsAgree cfg cfg' qmeta) →
      generatedRouter cfg clock ⟨pkt, maps, none⟩ = generatedRouter cfg' clock ⟨pkt, maps', none⟩) ∧
    ∀ qmeta, LiteralsAgree cfg cfg' qmeta ∨
      LiteralsDiffer (rewritten cfg) (rewritten cfg') qmeta cfg cfg' ∨
        ¬ PlaceholderFree cfg ∨ ¬ PlaceholderFree cfg' := by
  have hcfg := accepted_of_parse hparse
  have hcfg' := accepted_of_parse hparse'
  refine ⟨fun hagree => ?_, fun qmeta => ?_⟩
  · obtain rfl : maps = maps' := (h.seededFrom hmaps).unique hmaps'
    unfold generatedRouter
    rw [← h.macros]
    rcases dispatched_cases (macros cfg) maps pkt with
      ⟨-, a, ha⟩ | ⟨hd, qmeta, hsome, -, hquery, heq⟩
    · rw [ha _ _ rfl rfl, ha _ _ rfl rfl]
    · rw [heq _ _ rfl rfl, heq _ _ rfl rfl]
      exact h.generatedDispatch hcfg hcfg' clock hquery (hagree hd qmeta hsome)
  · by_cases hdiffer : LiteralsDiffer (rewritten cfg) (rewritten cfg') qmeta cfg cfg'
    · exact .inr (.inl hdiffer)
    by_cases hfree : PlaceholderFree cfg
    · by_cases hfree' : PlaceholderFree cfg'
      · exact .inl ⟨⟨hfree.noSplice, hfree'.noSplice⟩,
          ⟨not_dispatchOverrun_of_free hfree qmeta, not_dispatchOverrun_of_free hfree' qmeta⟩,
          hdiffer⟩
      · exact .inr (.inr (.inr hfree'))
    · exact .inr (.inr (.inl hfree))

theorem respelled_spelledConfig : Respelled (spelledConfig "a") (spelledConfig "A.") where
  routes := .cons
    { domain := .inr (.inl ⟨by decide, by decide⟩)
      prefixMatch := rfl
      suffixMatch := rfl
      bloomSeeds := .nil
      rest := rfl } .nil
  rest := rfl

/-- An object without programs, for routes that need none. -/
def emptyObject : BpfObject := ⟨fun _ => none, fun _ => -1⟩

theorem seededFrom_spelledConfig (domain : String) :
    SeededFrom (spelledConfig domain) emptyObject (fun _ => true) 0 .created
      (seedBloomMap (spelledConfig domain) 0 .created) :=
  ⟨.created, rfl, rfl⟩

theorem dispatched_exact :
    dispatched (macros (spelledConfig "a")) (seedBloomMap (spelledConfig "a") 0 .created)
      (questionFrame [1, 97]) = .ok (some (⟨14, 34⟩, sampleQuery)) := rfl

theorem placeholderFree_spelledConfig (domain : String) (h : 90 ∉ (CStr.lit domain).bytes) :
    PlaceholderFree (spelledConfig domain) := by
  refine .of_no_z fun r hr => ?_
  rw [List.mem_singleton.mp hr]
  exact ⟨h, nofun, nofun⟩

/-- A query to the written program for a domain without placeholders. -/
theorem generatedRouter_spelledConfig (domain : String) (h : 90 ∉ (CStr.lit domain).bytes)
    {clock : Clock} {st : XdpState} {hd : Headers} {qmeta : DnsQueryMeta}
    (hquery : dispatched (macros (spelledConfig domain)) st.maps st.pkt = .ok (some (hd, qmeta))) :
    generatedRouter (spelledConfig domain) clock st =
      refDispatch (spelledConfig domain) clock hd qmeta st := by
  rw [generatedRouter_eq (List.cons_ne_nil _ _) (placeholderFree_spelledConfig domain h)]
  have hnodup : ((spelledConfig domain).routes.map (·.hash)).Nodup := List.nodup_singleton _
  exact router_eq_refDispatch hnodup hquery clock

/-- The name itself is found by its hash in both spellings. -/
theorem respelled_same_verdict_sample :
    generatedRouter (spelledConfig "a") ⟨0, 0, 0⟩
        ⟨questionFrame [1, 97], seedBloomMap (spelledConfig "a") 0 .created, none⟩ =
      generatedRouter (spelledConfig "A.") ⟨0, 0, 0⟩
        ⟨questionFrame [1, 97], seedBloomMap (spelledConfig "A.") 0 .created, none⟩ := by
  have hfree := placeholderFree_spelledConfig "a" (by decide)
  have hfree' := placeholderFree_spelledConfig "A." (by decide)
  refine (respelled_same_verdict (spelledDocument "a") (spelledDocument "A.") _ _
    parse_spelledDocument.1 parse_spelledDocument.2.1 respelled_spelledConfig emptyObject
    (fun _ => true) 0 .created _ _ (seededFrom_spelledConfig "a") (seededFrom_spelledConfig "A.")
    ⟨0, 0, 0⟩ (questionFrame [1, 97])).1 fun hd qmeta hsome => ?_
  obtain ⟨rfl, rfl⟩ : ⟨14, 34⟩ = hd ∧ sampleQuery = qmeta :=
    Prod.mk.inj (Option.some.inj (Except.ok.inj (dispatched_exact.symm.trans hsome)))
  refine ⟨⟨hfree.noSplice, hfree'.noSplice⟩,
    ⟨not_dispatchOverrun_of_free hfree _, not_dispatchOverrun_of_free hfree' _⟩, ?_⟩
  rintro (⟨-, -, hunhashed, -, -⟩ | ⟨hr, hr', -, -, hdiffers⟩)
  · exact hunhashed _ (List.mem_singleton_self _) (by decide +kernel)
  · -- neither route has a pattern
    obtain rfl := List.mem_singleton.mp (List.mem_of_getElem? hr)
    obtain rfl := List.mem_singleton.mp (List.mem_of_getElem? hr')
    exact hdiffers (iff_of_true ⟨.inl rfl, .inl rfl⟩ ⟨.inl rfl, .inl rfl⟩)

theorem dispatched_subdomain (domain : String) (maps : Maps) (hmaps : maps.ipBlacklist = []) :
    dispatched (macros (spelledConfig domain)) maps (questionFrame [1, 98, 1, 97]) =
      .ok (some (⟨14, 34⟩, subdomainQuery)) := by
  obtain ⟨trie, xsk, progs, bloom, rate⟩ := maps
  obtain rfl : trie = [] := hmaps
  have hmacros : macros (spelledConfig domain) = macros (spelledConfig "a") := rfl
  rw [hmacros]
  rfl

/-- "b.a" goes to the route in the program for "a" and is passed by the program for "A.". -/
theorem spelling_decides_fallback :
    ¬ ∀ (doc doc' : YamlDocument) (cfg cfg' : Config), parseConfigYaml doc = .ok cfg →
      parseConfigYaml doc' = .ok cfg' → Respelled cfg cfg' →
      ∀ (obj : BpfObject) (updated : Nat → Bool) (now : UInt64) (base maps maps' : Maps),
        SeededFrom cfg obj updated now base maps → SeededFrom cfg' obj updated now base maps' →
        ∀ (clock : Clock) (pkt : List UInt8) (out out' : Out Nat Action) (st st' : XdpState),
          generatedRouter cfg clock ⟨pkt, maps, none⟩ = .ok (out, st) →
          generatedRouter cfg' clock ⟨pkt, maps', none⟩ = .ok (out', st') → out = out' := by
  intro hall
  have hfirst : generatedRouter (spelledConfig "a") ⟨0, 0, 0⟩ ⟨questionFrame [1, 98, 1, 97],
      seedBloomMap (spelledConfig "a") 0 .created, none⟩ = .ok (.val .aborted, _) :=
    (generatedRouter_spelledConfig "a" (by decide) (dispatched_subdomain "a" _ rfl)).trans rfl
  have hsecond : generatedRouter (spelledConfig "A.") ⟨0, 0, 0⟩ ⟨questionFrame [1, 98, 1, 97],
      seedBloomMap (spelledConfig "A.") 0 .created, none⟩ = .ok (.val .pass, _) :=
    (generatedRouter_spelledConfig "A." (by decide) (dispatched_subdomain "A." _ rfl)).trans rfl
  have hsame := hall (spelledDocument "a") (spelledDocument "A.") _ _ parse_spelledDocument.1
    parse_spelledDocument.2.1 respelled_spelledConfig emptyObject (fun _ => true) 0 .created _ _
    (seededFrom_spelledConfig "a") (seededFrom_spelledConfig "A.") _ _ _ _ _ _ hfirst hsecond
  cases hsame

end Zereh.Link
