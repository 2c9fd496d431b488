/-
  The per-route rate limiter over whole runs.

  `rateRun` makes one call of `zereh_rate_limit_allow` after another for a route on one CPU,
  `cpuRun` for the calls of all CPUs in any interleaving, each CPU on its own copy of the map.

  * `Counts`: along a run with non-decreasing seconds, `count` is the number of calls in the
    current window, capped at `qps` (`rateStep_counts`, one step; `rateRun_window`, a run).
  * On one CPU the decisions are those of `Lib.window`: the first `qps` calls of a second.
  * Over all CPUs each CPU admits up to `qps` (`admitted_cpuRun`), so the whole route stays
    within `qps` in a second exactly when one CPU makes all its calls or they are at most
    `qps` in number. The state is per CPU, not per route.
-/
import Zereh.Lib.Window
import Zereh.Xdp.Filters

namespace Zereh.Xdp

open Lib

/-! ## One CPU -/

/-- Calls of `zereh_rate_limit_allow` for one route, at the given clock values. -/
def rateRun (entries routeId qps : UInt32) : List UInt64 → Maps → List Bool × Maps
  | [], maps => ([], maps)
  | ns :: calls, maps =>
      let (allowed, maps) := rateLimitAllow entries ns routeId qps maps
      let (rest, maps) := rateRun entries routeId qps calls maps
      (allowed :: rest, maps)

/-- The state after the calls in seconds `past` (newest first): `count` of them in the
    current window, capped at `qps`, and none after it. -/
structure Counts (qps : UInt32) (past : List UInt64) (state : RateState) : Prop where
  count : state.count.toNat = min (past.count state.windowSec) qps.toNat
  newest : past.head?.getD 0 = state.windowSec
  sorted : ∀ t ∈ past, t ≤ state.windowSec

theorem counts_zero (qps : UInt32) : Counts qps [] {} := ⟨by simp, rfl, by simp⟩

/-- One call: the decision is that of the window, and the count stays in step. -/
theorem rateStep_counts {qps : UInt32} (hq : 0 < qps) {past : List UInt64} {state : RateState}
    (h : Counts qps past state) {now : UInt64} (hnow : past.head?.getD 0 ≤ now) :
    (rateStep qps now state).1 = decide (past.count now < qps.toNat) ∧
      Counts qps (now :: past) (rateStep qps now state).2 := by
  have hq' : 0 < qps.toNat := UInt32.lt_iff_toNat_lt.mp hq
  have hqlt := qps.toNat_lt
  have hc := h.count
  unfold rateStep
  by_cases hw : state.windowSec = now
  · subst hw
    have hsorted : ∀ t ∈ state.windowSec :: past, t ≤ state.windowSec := by
      intro t ht
      rcases List.mem_cons.mp ht with rfl | ht
      · exact UInt64.le_refl _
      · exact h.sorted t ht
    rw [if_neg (by simp)]
    by_cases hfull : state.count ≥ qps
    · have hfull' := UInt32.le_iff_toNat_le.mp hfull
      rw [if_pos hfull]
      refine ⟨by simp; omega, ⟨?_, rfl, hsorted⟩⟩
      show state.count.toNat = min (List.count state.windowSec (state.windowSec :: past)) _
      rw [List.count_cons_self]
      omega
    · have hlt : state.count.toNat < qps.toNat := by
        rw [ge_iff_le, UInt32.le_iff_toNat_le] at hfull
        omega
      rw [if_neg hfull]
      refine ⟨by simp; omega, ⟨?_, rfl, hsorted⟩⟩
      rw [List.count_cons_self]
      simp only [UInt32.toNat_add, UInt32.toNat_one]
      omega
  · -- a new second: no earlier call was made in it
    have hlt : state.windowSec < now :=
      UInt64.lt_of_le_of_ne (by rw [← h.newest]; exact hnow) hw
    have hnone : past.count now = 0 := by
      rw [List.count_eq_zero]
      intro hmem
      exact UInt64.not_le.mpr hlt (h.sorted now hmem)
    rw [if_pos hw]
    refine ⟨by simp [hnone, hq'], ⟨?_, rfl, ?_⟩⟩
    · rw [List.count_cons_self, hnone]
      simp only [UInt32.toNat_one]
      omega
    · intro t ht
      rcases List.mem_cons.mp ht with rfl | ht
      · exact UInt64.le_refl _
      · exact UInt64.le_trans (h.sorted t ht) (UInt64.le_of_lt hlt)

section Run

variable {entries routeId qps : UInt32}

theorem rateLimitAllow_eq (hq : 0 < qps) (hid : routeId < entries) (ns : UInt64) (maps : Maps) :
    rateLimitAllow entries ns routeId qps maps =
      ((rateStep qps (nowSec ns) (maps.routeRateState routeId.toNat)).1,
        maps.setRate routeId.toNat
          (rateStep qps (nowSec ns) (maps.routeRateState routeId.toNat)).2) := by
  have h0 : qps ≠ 0 := fun h => by rw [h] at hq; exact absurd hq (by decide)
  unfold rateLimitAllow
  rw [if_neg h0, if_neg (UInt32.not_le.mpr hid)]

/-- A run decides like the window, and leaves the count in step. -/
theorem rateRun_window (hq : 0 < qps) (hid : routeId < entries) (calls : List UInt64) :
    ∀ (maps : Maps) (past : List UInt64), Counts qps past (maps.routeRateState routeId.toNat) →
      (past.head?.getD 0 :: calls.map nowSec).Pairwise (· ≤ ·) →
      (rateRun entries routeId qps calls maps).1 = window qps.toNat past (calls.map nowSec) ∧
        Counts qps ((calls.map nowSec).reverse ++ past)
          ((rateRun entries routeId qps calls maps).2.routeRateState routeId.toNat) := by
  induction calls with
  | nil =>
    intro maps past h _
    exact ⟨rfl, h⟩
  | cons ns calls ih =>
    intro maps past h hsorted
    rw [List.map_cons, List.pairwise_cons, List.pairwise_cons] at hsorted
    obtain ⟨hfirst, hnext, hrest⟩ := hsorted
    obtain ⟨hdec, hcnt⟩ := rateStep_counts hq h (hfirst (nowSec ns) (by simp))
    obtain ⟨h1, h2⟩ := ih
      (rateLimitAllow entries ns routeId qps maps).2 (nowSec ns :: past)
      (by rw [rateLimitAllow_eq hq hid]; simpa using hcnt)
      (List.pairwise_cons.mpr ⟨hnext, hrest⟩)
    constructor
    · rw [List.map_cons, window, ← hdec, ← h1, rateRun, rateLimitAllow_eq hq hid]
    · rw [List.map_cons, List.reverse_cons, List.append_assoc]
      exact h2

/-- The state of the route after a prefix of a run. -/
def stateAfter (entries routeId qps : UInt32) (calls : List UInt64) (maps : Maps) : RateState :=
  (rateRun entries routeId qps calls maps).2.routeRateState routeId.toNat

/-- **The limiter admits exactly its quota on a CPU.** From the zeroed state, with
    non-decreasing seconds, call `i` returns true exactly when it is among the first
    `min n qps` of the `n` calls made in its second, and `count` never exceeds `qps`. -/
theorem rateRun_exact (entries routeId qps : UInt32) (hq : 0 < qps) (hid : routeId < entries)
    (maps : Maps) (hzero : maps.routeRateState routeId.toNat = {}) (calls : List UInt64)
    (hsorted : (calls.map nowSec).Pairwise (· ≤ ·)) :
    (∀ i, ∀ hi : i < calls.length, (rateRun entries routeId qps calls maps).1[i]? =
      some (decide (((calls.take i).map nowSec).count (nowSec calls[i]) <
        min ((calls.map nowSec).count (nowSec calls[i])) qps.toNat))) ∧
    (rateRun entries routeId qps calls maps).1.length = calls.length ∧
    ∀ k, (stateAfter entries routeId qps (calls.take k) maps).count ≤ qps := by
  have hstart : Counts qps [] (maps.routeRateState routeId.toNat) := hzero ▸ counts_zero qps
  have hrun : ∀ cs : List UInt64, (cs.map nowSec).Pairwise (· ≤ ·) → _ := fun cs hcs =>
    rateRun_window hq hid cs maps [] hstart
      (List.pairwise_cons.mpr ⟨fun _ _ => UInt64.zero_le, hcs⟩)
  refine ⟨fun i hi => ?_, ?_, fun k => ?_⟩
  · rw [(hrun calls hsorted).1, getElem?_window, List.getElem?_map, List.getElem?_eq_getElem hi,
      Option.map_some, Option.map_some, List.count_nil, Nat.zero_add, List.map_take]
    -- the call itself is one of its second, so the rank is below the number of calls
    have hlt : ((calls.map nowSec).take i).count (nowSec calls[i]) <
        (calls.map nowSec).count (nowSec calls[i]) := by
      have hsplit := List.take_append_drop i (calls.map nowSec)
      have hmem : nowSec calls[i] ∈ (calls.map nowSec).drop i := by
        rw [List.drop_eq_getElem_cons (by simpa using hi)]
        simp
      rw [← List.one_le_count_iff] at hmem
      have := congrArg (List.count (nowSec calls[i])) hsplit
      rw [List.count_append] at this
      omega
    congr 1
    exact decide_eq_decide.mpr (by omega)
  · rw [(hrun calls hsorted).1, length_window, List.length_map]
  · have hk := (hrun (calls.take k) (by rw [List.map_take]; exact hsorted.take)).2.count
    rw [UInt32.le_iff_toNat_le]
    unfold stateAfter
    omega

/-- Three calls against a quota of one, the first two in one second. -/
theorem rateRun_exact_sample :
    (rateRun 1 0 1 [0, 1, 1000000000] .created).1[0]? = some true ∧
      (rateRun 1 0 1 [0, 1, 1000000000] .created).1[1]? = some false ∧
      (rateRun 1 0 1 [0, 1, 1000000000] .created).1[2]? = some true := by
  have h := rateRun_exact 1 0 1 (by decide) (by decide) .created rfl [0, 1, 1000000000]
    (by decide)
  exact ⟨(h.1 0 (by decide)).trans (by decide), (h.1 1 (by decide)).trans (by decide),
    (h.1 2 (by decide)).trans (by decide)⟩

end Run

/-! ## All CPUs -/

section Cpus

variable {n : Nat} {entries routeId qps : UInt32}

/-- Calls for one route on `n` CPUs in the order they happen, each on the maps of its CPU. -/
def cpuRun (entries routeId qps : UInt32) :
    List (Fin n × UInt64) → (Fin n → Maps) → List Bool × (Fin n → Maps)
  | [], cpus => ([], cpus)
  | (c, ns) :: calls, cpus =>
      let (allowed, maps) := rateLimitAllow entries ns routeId qps (cpus c)
      let (rest, cpus) := cpuRun entries routeId qps calls (Function.update cpus c maps)
      (allowed :: rest, cpus)

/-- The seconds of a CPU's own calls. -/
def secondsOn (c : Fin n) (calls : List (Fin n × UInt64)) : List UInt64 :=
  (calls.filter fun e => e.1 = c).map fun e => nowSec e.2

/-- The seconds of all calls. -/
def seconds (calls : List (Fin n × UInt64)) : List UInt64 := calls.map fun e => nowSec e.2

theorem secondsOn_cons_self (c : Fin n) (ns : UInt64) (calls : List (Fin n × UInt64)) :
    secondsOn c ((c, ns) :: calls) = nowSec ns :: secondsOn c calls := by
  simp [secondsOn]

theorem secondsOn_cons_of_ne {c d : Fin n} (h : c ≠ d) (ns : UInt64)
    (calls : List (Fin n × UInt64)) : secondsOn d ((c, ns) :: calls) = secondsOn d calls := by
  simp [secondsOn, h]

theorem mem_secondsOn {c : Fin n} {calls : List (Fin n × UInt64)} {s : UInt64} :
    s ∈ secondsOn c calls ↔ ∃ e ∈ calls, e.1 = c ∧ nowSec e.2 = s := by
  simp only [secondsOn, List.mem_map, List.mem_filter, decide_eq_true_eq, and_assoc]

theorem sum_count_secondsOn (s : UInt64) (calls : List (Fin n × UInt64)) :
    ∑ c, (secondsOn c calls).count s = (seconds calls).count s := by
  induction calls with
  | nil => simp [secondsOn, seconds]
  | cons e calls ih =>
    obtain ⟨c, ns⟩ := e
    have hone : ∀ d, (secondsOn d ((c, ns) :: calls)).count s =
        (secondsOn d calls).count s + if c = d then (if nowSec ns = s then 1 else 0) else 0 := by
      intro d
      by_cases hcd : c = d
      · subst hcd
        simp [secondsOn_cons_self, List.count_cons]
      · simp [secondsOn_cons_of_ne hcd, hcd]
    rw [Finset.sum_congr rfl fun d _ => hone d, Finset.sum_add_distrib, ih,
      Finset.sum_ite_eq, if_pos (Finset.mem_univ c)]
    simp [seconds, List.count_cons]

/-- The capped counts after one more call on CPU `c`. -/
theorem sum_min_update (past : Fin n → List UInt64) (c : Fin n) (now s : UInt64) (q : Nat) :
    ∑ d, min ((Function.update past c (now :: past c) d).count s) q =
      (if now = s ∧ decide ((past c).count now < q) = true then 1 else 0) +
        ∑ d, min ((past d).count s) q := by
  rw [← Finset.add_sum_erase _ _ (Finset.mem_univ c),
    ← Finset.add_sum_erase (a := c) _ (fun d => min ((past d).count s) q) (Finset.mem_univ c),
    Function.update_self, Finset.sum_congr rfl fun d hd => by
      rw [Function.update_of_ne (Finset.ne_of_mem_erase hd)]]
  rw [List.count_cons, ← Nat.add_assoc]
  congr 1
  by_cases hs : now = s
  · subst hs
    simp only [beq_self_eq_true, if_true, true_and, decide_eq_true_eq]
    split_ifs <;> omega
  · simp [hs]

/-- Each CPU admits its own calls of a second up to `qps`. -/
theorem admitted_cpuRun (hq : 0 < qps) (hid : routeId < entries) (s : UInt64)
    (calls : List (Fin n × UInt64)) : ∀ (cpus : Fin n → Maps) (past : Fin n → List UInt64),
      (∀ c, Counts qps (past c) ((cpus c).routeRateState routeId.toNat)) →
      (∀ c, ((past c).head?.getD 0 :: secondsOn c calls).Pairwise (· ≤ ·)) →
      admitted s (seconds calls) (cpuRun entries routeId qps calls cpus).1 +
          ∑ c, min ((past c).count s) qps.toNat =
        ∑ c, min ((past c).count s + (secondsOn c calls).count s) qps.toNat := by
  induction calls with
  | nil =>
    intro cpus past _ _
    simp [admitted, seconds, secondsOn]
  | cons e calls ih =>
    obtain ⟨c, ns⟩ := e
    intro cpus past hcounts hsorted
    have hc := hsorted c
    rw [secondsOn_cons_self, List.pairwise_cons, List.pairwise_cons] at hc
    obtain ⟨hfirst, hnext, hrest⟩ := hc
    obtain ⟨hdec, hcnt⟩ := rateStep_counts hq (hcounts c) (hfirst (nowSec ns) (by simp))
    have hstep := ih (Function.update cpus c (rateLimitAllow entries ns routeId qps (cpus c)).2)
      (Function.update past c (nowSec ns :: past c))
      (by
        intro d
        by_cases hdc : d = c
        · subst hdc
          rw [Function.update_self, Function.update_self, rateLimitAllow_eq hq hid]
          simpa using hcnt
        · rw [Function.update_of_ne hdc, Function.update_of_ne hdc]
          exact hcounts d)
      (by
        intro d
        by_cases hdc : d = c
        · subst hdc
          rw [Function.update_self]
          exact List.pairwise_cons.mpr ⟨hnext, hrest⟩
        · rw [Function.update_of_ne hdc, ← secondsOn_cons_of_ne (Ne.symm hdc) ns]
          exact hsorted d)
    have hsum : ∑ d, min ((Function.update past c (nowSec ns :: past c) d).count s +
        (secondsOn d calls).count s) qps.toNat =
          ∑ d, min ((past d).count s + (secondsOn d ((c, ns) :: calls)).count s) qps.toNat := by
      refine Finset.sum_congr rfl fun d _ => ?_
      by_cases hdc : d = c
      · subst hdc
        rw [Function.update_self, secondsOn_cons_self, List.count_cons, List.count_cons]
        congr 1
        omega
      · rw [Function.update_of_ne hdc, secondsOn_cons_of_ne (Ne.symm hdc)]
    rw [hsum, sum_min_update, ← hdec, rateLimitAllow_eq hq hid] at hstep
    rw [← hstep, seconds, List.map_cons, ← seconds, cpuRun, rateLimitAllow_eq hq hid,
      admitted_cons]
    dsimp only
    omega

/-- **When the quota holds for the whole route.** On `n` CPUs, from zeroed state and with each
    CPU's seconds non-decreasing, the calls of a route admitted in a second stay within `qps`
    exactly when one CPU makes all calls of that second, or they are at most `qps`. -/
theorem cpuRun_admitted_le_iff (entries routeId qps : UInt32) (hq : 0 < qps)
    (hid : routeId < entries) (cpus : Fin n → Maps)
    (hzero : ∀ c, (cpus c).routeRateState routeId.toNat = {}) (calls : List (Fin n × UInt64))
    (hsorted : ∀ c, (secondsOn c calls).Pairwise (· ≤ ·)) (s : UInt64) :
    admitted s (seconds calls) (cpuRun entries routeId qps calls cpus).1 ≤ qps.toNat ↔
      (∀ e ∈ calls, ∀ f ∈ calls, nowSec e.2 = s → nowSec f.2 = s → e.1 = f.1) ∨
        (seconds calls).count s ≤ qps.toNat := by
  have h := admitted_cpuRun hq hid s calls cpus (fun _ => [])
    (fun c => hzero c ▸ counts_zero qps)
    (fun c => List.pairwise_cons.mpr ⟨fun _ _ => UInt64.zero_le, hsorted c⟩)
  simp only [List.count_nil, Nat.zero_min, Finset.sum_const_zero, Nat.add_zero,
    Nat.zero_add] at h
  have hone : (∀ c d, (secondsOn c calls).count s ≠ 0 → (secondsOn d calls).count s ≠ 0 → c = d) ↔
      ∀ e ∈ calls, ∀ f ∈ calls, nowSec e.2 = s → nowSec f.2 = s → e.1 = f.1 := by
    simp only [ne_eq, List.count_eq_zero, not_not, mem_secondsOn]
    constructor
    · intro h e he f hf hes hfs
      exact h e.1 f.1 ⟨e, he, rfl, hes⟩ ⟨f, hf, rfl, hfs⟩
    · rintro h c d ⟨e, he, rfl, hes⟩ ⟨f, hf, rfl, hfs⟩
      exact h e he f hf hes hfs
  rw [h, sum_min_le_iff _ _ (UInt32.lt_iff_toNat_lt.mp hq), hone, sum_count_secondsOn]

/-- Two calls in one second, on one of two CPUs, against a quota of one. -/
theorem cpuRun_admitted_le_sample :
    admitted 0 (seconds [((0 : Fin 2), 0), (0, 1)])
      (cpuRun 1 0 1 [((0 : Fin 2), 0), (0, 1)] fun _ => .created).1 ≤ (1 : UInt32).toNat := by
  have hcpu : ∀ e ∈ [((0 : Fin 2), (0 : UInt64)), (0, 1)], e.1 = 0 := by simp
  exact (cpuRun_admitted_le_iff 1 0 1 (by decide) (by decide) (fun _ => .created) (fun _ => rfl)
    [((0 : Fin 2), 0), (0, 1)] (by decide) 0).mpr
    (.inl fun e he f hf _ _ => (hcpu e he).trans (hcpu f hf).symm)

/-- Two CPUs admit two calls of second 0 against a quota of one. -/
theorem cpuRun_admitted_two :
    ¬ ∀ (n : Nat) (qps : UInt32), 0 < qps → ∀ (entries routeId : UInt32), routeId < entries →
      ∀ (calls : List (Fin n × UInt64)), (∀ c, (secondsOn c calls).Pairwise (· ≤ ·)) →
        ∀ s, admitted s (seconds calls)
          (cpuRun entries routeId qps calls fun _ => .created).1 ≤ qps.toNat := by
  intro h
  exact absurd (h 2 1 (by decide) 1 0 (by decide) [(0, 0), (1, 0)] (by decide) 0) (by decide)

end Cpus

end Zereh.Xdp
