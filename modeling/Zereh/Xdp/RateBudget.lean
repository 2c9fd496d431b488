/-
  What a rejected packet does to the rate budget of its route.

  `zereh_apply_app_filters` runs eight filters in a row, and the rate limiter, the only one
  with a side effect, is the sixth. `apply_of_not_nameOk` and `apply_of_nameOk` cut the call at
  the limiter; `remaining` is the number of calls the limiter still admits in a second
  (`count_rateRun`). A packet that the limiter admits and that proof of work or the Bloom filter
  then rejects has used up one unit, every other rejected packet none.
-/
import Zereh.Xdp.RateLimit

namespace Zereh.Xdp

open Lib

/-! ## What the limiter still admits -/

/-- The calls still admitted in second `now`. -/
def remaining (qps : UInt32) (now : UInt64) (state : RateState) : Nat :=
  if state.windowSec ≠ now then qps.toNat else qps.toNat - state.count.toNat

/-- One call is admitted while something remains, and takes one unit. -/
theorem rateStep_remaining {qps : UInt32} (hq : qps ≠ 0) (now : UInt64) (state : RateState) :
    (rateStep qps now state).1 = decide (0 < remaining qps now state) ∧
      remaining qps now (rateStep qps now state).2 = remaining qps now state - 1 := by
  have hq' : 0 < qps.toNat := by
    rw [← UInt32.toNat_zero, ← UInt32.lt_iff_toNat_lt]
    exact UInt32.pos_iff_ne_zero.mpr hq
  have hqlt := qps.toNat_lt
  unfold rateStep remaining
  by_cases hw : state.windowSec = now
  · rw [if_neg (not_not.mpr hw), if_neg (not_not.mpr hw)]
    by_cases hfull : state.count ≥ qps
    · have hfull' := UInt32.le_iff_toNat_le.mp hfull
      rw [if_pos hfull]
      refine ⟨by simp; omega, ?_⟩
      rw [if_neg (not_not.mpr hw)]
      dsimp only
      omega
    · have hlt : state.count.toNat < qps.toNat := by
        rw [ge_iff_le, UInt32.le_iff_toNat_le] at hfull
        omega
      rw [if_neg hfull]
      refine ⟨by simp; omega, ?_⟩
      rw [if_neg (not_not.mpr hw), UInt32.toNat_add, UInt32.toNat_one]
      omega
  · rw [if_pos hw, if_pos hw, if_neg (by simp)]
    exact ⟨by simp [hq'], by simp⟩

section Budget

variable {entries routeId qps : UInt32}

/-- Further calls in second `now` are admitted up to what remains. -/
theorem count_rateRun (hq : qps ≠ 0) (hid : routeId < entries) {now : UInt64}
    (calls : List UInt64) : ∀ maps : Maps, (∀ ns ∈ calls, nowSec ns = now) →
      (rateRun entries routeId qps calls maps).1.count true =
        min calls.length (remaining qps now (maps.routeRateState routeId.toNat)) := by
  induction calls with
  | nil =>
    intro maps _
    simp [rateRun]
  | cons ns calls ih =>
    intro maps hnow
    have hns : nowSec ns = now := hnow ns (by simp)
    obtain ⟨hdec, hrem⟩ := rateStep_remaining hq now (maps.routeRateState routeId.toNat)
    have hrest := ih (rateLimitAllow entries ns routeId qps maps).2
      (fun t ht => hnow t (by simp [ht]))
    rw [rateLimitAllow_eq (UInt32.pos_iff_ne_zero.mpr hq) hid, setRate_self, hns, hrem] at hrest
    rw [rateRun, rateLimitAllow_eq (UInt32.pos_iff_ne_zero.mpr hq) hid, hns]
    dsimp only
    rw [List.count_cons, hrest, hdec, List.length_cons]
    by_cases hpos : 0 < remaining qps now (maps.routeRateState routeId.toNat)
    · simp only [hpos, decide_true, beq_self_eq_true, if_true]
      omega
    · simp only [hpos, decide_false, beq_true, Bool.false_eq_true, if_false]
      omega

end Budget

/-- The limiter admits the same number of further calls in second `now` from both maps,
    however many are made. -/
def SameBudget (entries routeId qps : UInt32) (now : UInt64) (maps maps' : Maps) : Prop :=
  ∀ calls : List UInt64, (∀ ns ∈ calls, nowSec ns = now) →
    (rateRun entries routeId qps calls maps').1.count true =
      (rateRun entries routeId qps calls maps).1.count true

/-- A call that was refused leaves the maps as they were. -/
theorem rateLimitAllow_refused {entries routeId qps : UInt32} {ns : UInt64} {maps maps' : Maps}
    (h : rateLimitAllow entries ns routeId qps maps = (false, maps')) : maps' = maps := by
  unfold rateLimitAllow at h
  split at h
  · cases h
  · split at h
    · cases h; rfl
    · unfold rateStep at h
      split_ifs at h
      · cases h
      · cases h
        simp [Maps.setRate]
      · cases h

/-- The limiter touches the state of its own route only. -/
theorem rateLimitAllow_of_ne (entries : UInt32) (ns : UInt64) (routeId qps : UInt32) (maps : Maps)
    {j : Nat} (hj : j ≠ routeId.toNat) :
    (rateLimitAllow entries ns routeId qps maps).2.routeRateState j = maps.routeRateState j := by
  unfold rateLimitAllow
  split_ifs
  · rfl
  · rfl
  · exact setRate_of_ne maps hj _

/-! ## The Bloom filter does not see the rate state -/

theorem bloomTestBit_congr {maps maps' : Maps} (h : maps'.powBloom = maps.powBloom)
    (bit bits : UInt32) : bloomTestBit maps' bit bits = bloomTestBit maps bit bits := by
  unfold bloomTestBit
  rw [h]

theorem bucketLoop_congr {maps maps' : Maps} (h : maps'.powBloom = maps.powBloom)
    (qnameHash : UInt64) (bits : UInt32) (hashFunctions : UInt8) (bucket : UInt64) (n k : Nat) :
    bucketLoop maps' qnameHash bits hashFunctions bucket n k =
      bucketLoop maps qnameHash bits hashFunctions bucket n k := by
  induction n generalizing k with
  | zero => rfl
  | succ n ih => simp only [bucketLoop, bloomTestBit_congr h, ih]

theorem bloomAllow_congr {maps maps' : Maps} (h : maps'.powBloom = maps.powBloom) (ns : UInt64)
    (qnameHash : UInt64) (bits : UInt32) (hashFunctions : UInt8) (timeWindow : UInt16) :
    bloomAllow maps' ns qnameHash bits hashFunctions timeWindow =
      bloomAllow maps ns qnameHash bits hashFunctions timeWindow := by
  simp only [bloomAllow, bloomBucketMatch, bucketLoop_congr h]

theorem rateLimitAllow_powBloom (entries : UInt32) (ns : UInt64) (routeId qps : UInt32)
    (maps : Maps) : (rateLimitAllow entries ns routeId qps maps).2.powBloom = maps.powBloom := by
  unfold rateLimitAllow
  split_ifs <;> rfl

/-! ## Rejection -/

namespace FilterArgs

variable (a : FilterArgs) (entries : UInt32) (clock : Clock) (maps : Maps) (qmeta : DnsQueryMeta)

/-- The five filters before the limiter pass. -/
structure NameOk : Prop where
  labels : ¬ (qmeta.labelDepth < a.minLabels ∨ qmeta.labelDepth > a.maxLabels)
  length : ¬ (qmeta.qnameLen < a.qnameMinLen.toNat ∨ qmeta.qnameLen > a.qnameMaxLen.toNat)
  type : typeAllowed qmeta.qtype a.rrtypeMask = true
  prefixOk : matchPrefix qmeta.qname qmeta.qnameLen a.pfx a.prefixLen = .ok true
  suffixOk : matchSuffix qmeta.qname qmeta.qnameLen a.sfx a.suffixLen = .ok true

/-- The limiter has quota left for the route in the current second. -/
structure QuotaLeft : Prop where
  limited : a.rateLimitQps ≠ 0
  inMap : a.routeId < entries
  unused : (maps.routeRateState a.routeId.toNat).windowSec ≠ nowSec clock.rateNs ∨
    (maps.routeRateState a.routeId.toNat).count < a.rateLimitQps

/-- One of the two filters after the limiter rejects. -/
def LateReject : Prop :=
  powAllow clock.powNs a.hash qmeta.dnsId a.powDifficulty a.powTimeWindow = .ok false ∨
    powAllow clock.powNs a.hash qmeta.dnsId a.powDifficulty a.powTimeWindow = .ok true ∧
      a.bloomRequired ≠ 0 ∧
      bloomAllow maps clock.bloomNs a.hash a.bloomSize a.bloomHashFunctions a.bloomTimeWindow =
        .ok false

variable {a entries clock maps qmeta} {maps' : Maps}

/-- A rejection before the limiter is reached. -/
theorem apply_of_not_nameOk (h : ¬ a.NameOk qmeta) {ok : Bool}
    (hrun : a.apply entries clock maps qmeta = .ok (ok, maps')) : ok = false ∧ maps' = maps := by
  unfold apply applyAppFilters at hrun
  by_cases h1 : qmeta.labelDepth < a.minLabels ∨ qmeta.labelDepth > a.maxLabels
  · rw [if_pos h1] at hrun
    cases hrun
    exact ⟨rfl, rfl⟩
  by_cases h2 : qmeta.qnameLen < a.qnameMinLen.toNat ∨ qmeta.qnameLen > a.qnameMaxLen.toNat
  · rw [if_neg h1, if_pos h2] at hrun
    cases hrun
    exact ⟨rfl, rfl⟩
  rw [if_neg h1, if_neg h2] at hrun
  cases h3 : typeAllowed qmeta.qtype a.rrtypeMask with
  | false =>
    rw [h3] at hrun
    cases hrun
    exact ⟨rfl, rfl⟩
  | true =>
    rw [h3] at hrun
    cases hp : matchPrefix qmeta.qname qmeta.qnameLen a.pfx a.prefixLen with
    | error e => rw [hp] at hrun; cases hrun
    | ok p =>
      cases p with
      | false => rw [hp] at hrun; cases hrun; exact ⟨rfl, rfl⟩
      | true =>
        cases hs : matchSuffix qmeta.qname qmeta.qnameLen a.sfx a.suffixLen with
        | error e => rw [hp, hs] at hrun; cases hrun
        | ok s =>
          cases s with
          | false => rw [hp, hs] at hrun; cases hrun; exact ⟨rfl, rfl⟩
          | true => exact absurd ⟨h1, h2, h3, hp, hs⟩ h

/-- From the limiter on. -/
theorem apply_of_nameOk (h : a.NameOk qmeta) :
    a.apply entries clock maps qmeta =
      (let (allowed, maps') := rateLimitAllow entries clock.rateNs a.routeId a.rateLimitQps maps
      if !allowed then .ok (false, maps')
      else do
        if !(← powAllow clock.powNs a.hash qmeta.dnsId a.powDifficulty a.powTimeWindow) then
          .ok (false, maps')
        else if a.bloomRequired ≠ 0 then do
          if !(← bloomAllow maps clock.bloomNs a.hash a.bloomSize a.bloomHashFunctions
              a.bloomTimeWindow) then .ok (false, maps')
          else .ok (true, maps')
        else .ok (true, maps')) := by
  have hb := rateLimitAllow_powBloom entries clock.rateNs a.routeId a.rateLimitQps maps
  unfold apply applyAppFilters
  rw [if_neg h.labels, if_neg h.length, h.type, h.prefixOk, ok_bind, h.suffixOk, ok_bind]
  simp only [Bool.not_true, Bool.false_eq_true, if_false, bloomAllow_congr hb]

/-- After the limiter admitted the packet, a rejection comes from a later filter. -/
theorem lateReject_of_apply (h : a.NameOk qmeta)
    (hallowed : (rateLimitAllow entries clock.rateNs a.routeId a.rateLimitQps maps).1 = true)
    (hrun : a.apply entries clock maps qmeta = .ok (false, maps')) :
    a.LateReject clock maps qmeta ∧
      maps' = (rateLimitAllow entries clock.rateNs a.routeId a.rateLimitQps maps).2 := by
  rw [apply_of_nameOk h] at hrun
  generalize rateLimitAllow entries clock.rateNs a.routeId a.rateLimitQps maps = r at hallowed hrun ⊢
  obtain ⟨allowed, next⟩ := r
  obtain rfl : allowed = true := hallowed
  unfold LateReject
  simp only [Bool.not_true, Bool.false_eq_true, if_false] at hrun
  cases hp : powAllow clock.powNs a.hash qmeta.dnsId a.powDifficulty a.powTimeWindow with
  | error e => rw [hp] at hrun; cases hrun
  | ok p =>
    rw [hp, ok_bind] at hrun
    cases p with
    | false => cases hrun; exact ⟨.inl rfl, rfl⟩
    | true =>
      simp only [Bool.not_true, Bool.false_eq_true, if_false] at hrun
      split_ifs at hrun with hreq
      · cases hb : bloomAllow maps clock.bloomNs a.hash a.bloomSize a.bloomHashFunctions
          a.bloomTimeWindow with
        | error e => rw [hb] at hrun; cases hrun
        | ok b =>
          rw [hb, ok_bind] at hrun
          cases b with
          | false => cases hrun; exact ⟨.inr ⟨rfl, hreq, rfl⟩, rfl⟩
          | true => cases hrun
      · cases hrun

/-- Admitted by the limiter and rejected by a later filter. -/
theorem apply_of_lateReject (h : a.NameOk qmeta)
    (hallowed : (rateLimitAllow entries clock.rateNs a.routeId a.rateLimitQps maps).1 = true)
    (hlate : a.LateReject clock maps qmeta) :
    a.apply entries clock maps qmeta =
      .ok (false, (rateLimitAllow entries clock.rateNs a.routeId a.rateLimitQps maps).2) := by
  rw [apply_of_nameOk h]
  generalize rateLimitAllow entries clock.rateNs a.routeId a.rateLimitQps maps = r at hallowed ⊢
  obtain ⟨allowed, next⟩ := r
  obtain rfl : allowed = true := hallowed
  rcases hlate with hp | ⟨hp, hreq, hb⟩
  · simp [hp]
  · simp [hp, hreq, hb]

/-- An admitted call has used one unit of what remained. -/
theorem not_sameBudget_of_quotaLeft (h : a.QuotaLeft entries clock maps) :
    (rateLimitAllow entries clock.rateNs a.routeId a.rateLimitQps maps).1 = true ∧
      ¬ SameBudget entries a.routeId a.rateLimitQps (nowSec clock.rateNs) maps
        (rateLimitAllow entries clock.rateNs a.routeId a.rateLimitQps maps).2 := by
  have hq := h.limited
  have hpos := UInt32.pos_iff_ne_zero.mpr hq
  obtain ⟨hdec, hrem⟩ := rateStep_remaining hq (nowSec clock.rateNs)
    (maps.routeRateState a.routeId.toNat)
  have hleft : 0 < remaining a.rateLimitQps (nowSec clock.rateNs)
      (maps.routeRateState a.routeId.toNat) := by
    have hpos' := UInt32.lt_iff_toNat_lt.mp hpos
    rw [UInt32.toNat_zero] at hpos'
    unfold remaining
    rcases h.unused with hw | hc
    · rw [if_pos hw]
      exact hpos'
    · rw [UInt32.lt_iff_toNat_lt] at hc
      split_ifs <;> omega
  rw [rateLimitAllow_eq hpos h.inMap]
  refine ⟨by rw [hdec]; simpa using hleft, fun hsame => ?_⟩
  -- as many calls as remained are all admitted before, and one fewer after
  have hcount := hsame (List.replicate (remaining a.rateLimitQps (nowSec clock.rateNs)
    (maps.routeRateState a.routeId.toNat)) clock.rateNs)
    (fun ns hns => by rw [List.eq_of_mem_replicate hns])
  have hnow : ∀ n, ∀ ns ∈ List.replicate n clock.rateNs, nowSec ns = nowSec clock.rateNs :=
    fun n ns hns => by rw [List.eq_of_mem_replicate hns]
  rw [count_rateRun hq h.inMap _ _ (hnow _), count_rateRun hq h.inMap _ _ (hnow _), setRate_self,
    hrem, List.length_replicate] at hcount
  omega

/-- Without quota left the limiter leaves the budget alone. -/
theorem sameBudget_of_not_quotaLeft (h : ¬ a.QuotaLeft entries clock maps) :
    (rateLimitAllow entries clock.rateNs a.routeId a.rateLimitQps maps).2 = maps := by
  by_cases hq : a.rateLimitQps = 0
  · rw [rateLimitAllow, if_pos hq]
  · cases hr : rateLimitAllow entries clock.rateNs a.routeId a.rateLimitQps maps with
    | mk allowed maps' =>
      cases allowed with
      | false => exact rateLimitAllow_refused hr
      | true =>
        refine absurd ⟨hq, ?_, ?_⟩ h
        · by_contra hid
          rw [rateLimitAllow, if_neg hq, if_pos (UInt32.not_lt.mp hid)] at hr
          cases hr
        · by_contra hun
          push Not at hun
          have hfull : rateStep a.rateLimitQps (nowSec clock.rateNs)
              (maps.routeRateState a.routeId.toNat) =
                (false, maps.routeRateState a.routeId.toNat) := by
            unfold rateStep
            rw [if_neg (not_not.mpr hun.1), if_pos (UInt32.not_lt.mp hun.2)]
          rw [rateLimitAllow, if_neg hq, hfull] at hr
          split_ifs at hr <;> cases hr

end FilterArgs

/-- **When a rejected packet costs nothing.** A rejection by `zereh_apply_app_filters` leaves
    the budget of the route in the current second and the state of every other route as they
    were, except in one case: the packet passes the five filters before the limiter, the
    limiter has quota left, and proof of work or the Bloom filter rejects. -/
theorem rejected_keeps_budget_iff (a : FilterArgs) (entries : UInt32) (clock : Clock) (maps : Maps)
    (qmeta : DnsQueryMeta) :
    (∀ maps', a.apply entries clock maps qmeta = .ok (false, maps') →
      SameBudget entries a.routeId a.rateLimitQps (nowSec clock.rateNs) maps maps' ∧
        ∀ j, j ≠ a.routeId.toNat → maps'.routeRateState j = maps.routeRateState j) ↔
    ¬ (a.NameOk qmeta ∧ a.QuotaLeft entries clock maps ∧ a.LateReject clock maps qmeta) := by
  constructor
  · rintro h ⟨hname, hquota, hlate⟩
    obtain ⟨hallowed, hdiff⟩ := FilterArgs.not_sameBudget_of_quotaLeft hquota
    exact hdiff (h _ (FilterArgs.apply_of_lateReject hname hallowed hlate)).1
  · intro h maps' hrun
    have hsame : maps' = maps := by
      by_cases hname : a.NameOk qmeta
      · by_cases hallowed :
          (rateLimitAllow entries clock.rateNs a.routeId a.rateLimitQps maps).1 = true
        · obtain ⟨hlate, rfl⟩ := FilterArgs.lateReject_of_apply hname hallowed hrun
          exact FilterArgs.sameBudget_of_not_quotaLeft fun hquota => h ⟨hname, hquota, hlate⟩
        · rw [FilterArgs.apply_of_nameOk hname] at hrun
          cases hr : rateLimitAllow entries clock.rateNs a.routeId a.rateLimitQps maps with
          | mk allowed next =>
            rw [hr, Bool.not_eq_true] at hallowed
            obtain rfl : allowed = false := hallowed
            rw [hr] at hrun
            cases hrun
            exact rateLimitAllow_refused hr
      · exact (FilterArgs.apply_of_not_nameOk hname hrun).2
    subst hsame
    exact ⟨fun _ _ => rfl, fun _ _ => rfl⟩

/-- A query for the name "a", hash as FNV-1a gives it. -/
def sampleQuery : DnsQueryMeta where
  qnameHash := 4953267810257967366
  dnsId := 0
  qtype := 1
  qclass := 1
  opcode := 0
  isTruncated := false
  labelDepth := 1
  qname := [97]

/-- A route with one query a second and the hardest proof of work. -/
def samplePowRoute : FilterArgs where
  pfx := []
  prefixLen := 0
  sfx := []
  suffixLen := 0
  minLabels := 1
  maxLabels := 127
  qnameMinLen := 1
  qnameMaxLen := 255
  hash := 4953267810257967366
  routeId := 0
  rrtypeMask := 7
  powDifficulty := 63
  powTimeWindow := 0
  bloomRequired := 0
  bloomSize := 0
  bloomHashFunctions := 0
  bloomTimeWindow := 0
  rateLimitQps := 1

/-- A query without proof of work is rejected and takes the whole quota of the second. -/
theorem rejected_takes_budget :
    ¬ ∀ (a : FilterArgs) (entries : UInt32) (clock : Clock) (maps : Maps) (qmeta : DnsQueryMeta)
      (maps' : Maps), a.apply entries clock maps qmeta = .ok (false, maps') →
        SameBudget entries a.routeId a.rateLimitQps (nowSec clock.rateNs) maps maps' ∧
          ∀ j, j ≠ a.routeId.toNat → maps'.routeRateState j = maps.routeRateState j := by
  intro h
  have hquota : samplePowRoute.QuotaLeft 1 ⟨0, 0, 0⟩ .created :=
    ⟨by decide, by decide, .inr (by decide)⟩
  obtain ⟨hallowed, hdiff⟩ := FilterArgs.not_sameBudget_of_quotaLeft hquota
  have hname : samplePowRoute.NameOk sampleQuery :=
    ⟨by decide, by decide, by decide, by decide, by decide⟩
  have hpow : powBucketOk 4953267810257967366 0 63 0 = false := by decide +kernel
  have hlate : samplePowRoute.LateReject ⟨0, 0, 0⟩ .created sampleQuery :=
    .inl (congrArg Except.ok hpow)
  exact hdiff (h samplePowRoute 1 ⟨0, 0, 0⟩ .created sampleQuery _
    (FilterArgs.apply_of_lateReject hname hallowed hlate)).1

end Zereh.Xdp
