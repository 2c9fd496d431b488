/-
  The proof of work of `zereh_pow_bucket_ok` and `zereh_pow_allow`.

  * `powBucketOk_card`: `zereh_mix64` is a bijection, so for every query id and bucket exactly
    `2^(64 - d)` of the 64-bit hashes solve difficulty `d`.
  * `powAllow_window`: what solves the bucket of a second is let in for a whole window from then on,
    and what is let in solves a bucket that ended less than a window ago, or has not ended.

  A count of hashes, not of names: nothing here says how hard it is to find a name with a hash.
-/
import Zereh.Lib.Words
import Zereh.Xdp.Safety

namespace Zereh.Xdp

open Lib

/-! ## The cost of a token -/

theorem mix64_bijective : Function.Bijective mix64 := by
  have hshift : Function.Bijective fun x : UInt64 => x ^^^ (x >>> 33) :=
    xorShift_bijective (by decide) (by decide)
  have hfirst : Function.Bijective fun x : UInt64 => x * 0xff51afd7ed558ccd :=
    mul_bijective (d := 0x4f74430c22a54005) (by decide)
  have hsecond : Function.Bijective fun x : UInt64 => x * 0xc4ceb9fe1a85ec53 :=
    mul_bijective (d := 0x9cb4b2f8129337db) (by decide)
  exact hshift.comp (hsecond.comp (hshift.comp (hfirst.comp hshift)))

/-- `leading` of `zereh_pow_bucket_ok`. -/
def leadingZeros (x : UInt64) : Nat := if x = 0 then 64 else clzll x

theorem le_leadingZeros_iff (x : UInt64) {d : Nat} (hd : d ≤ 63) :
    d ≤ leadingZeros x ↔ x.toNat < 2 ^ (64 - d) := by
  unfold leadingZeros
  by_cases hx : x = 0
  · have hpos : 0 < 2 ^ (64 - d) := Nat.pow_pos (by decide)
    rw [if_pos hx, hx]
    exact ⟨fun _ => hpos, fun _ => by omega⟩
  · have hne : x.toNat ≠ 0 := fun h => hx (UInt64.toNat_inj.mp h)
    have hlog : x.toNat.log2 < 64 := (Nat.log2_lt hne).mpr x.toNat_lt
    rw [if_neg hx, clzll, ← Nat.log2_lt hne]
    omega

/-- **What a difficulty costs.** For every query id, bucket and difficulty up to 63, the hashes that
    solve it are `2^(64 - d)` in number. -/
theorem powBucketOk_card (dnsId : UInt16) (difficulty : UInt8) (bucket : UInt64)
    (hd : difficulty ≤ 63) :
    Function.Bijective mix64 ∧
      Nat.card {hash : UInt64 // powBucketOk hash dnsId difficulty bucket = true} =
        2 ^ (64 - difficulty.toNat) := by
  have hle : difficulty.toNat ≤ 63 := UInt8.le_iff_toNat_le.mp hd
  have hkey : Function.Bijective fun hash : UInt64 =>
      mix64 (hash ^^^ (dnsId.toUInt64 * 0x9e3779b97f4a7c15) ^^^ (bucket * 0x517cc1b727220a95)) :=
    mix64_bijective.comp ((xor_bijective _).comp (xor_bijective _))
  have hok : ∀ hash, powBucketOk hash dnsId difficulty bucket = true ↔
      (mix64 (hash ^^^ (dnsId.toUInt64 * 0x9e3779b97f4a7c15) ^^^
        (bucket * 0x517cc1b727220a95))).toNat < 2 ^ (64 - difficulty.toNat) := by
    intro hash
    rw [← le_leadingZeros_iff _ hle]
    exact decide_eq_true_iff
  refine ⟨mix64_bijective, ?_⟩
  calc Nat.card {hash : UInt64 // powBucketOk hash dnsId difficulty bucket = true}
      = Nat.card {hash : UInt64 // (mix64 (hash ^^^ (dnsId.toUInt64 * 0x9e3779b97f4a7c15) ^^^
          (bucket * 0x517cc1b727220a95))).toNat < 2 ^ (64 - difficulty.toNat)} :=
        Nat.card_congr (Equiv.subtypeEquivRight hok)
    _ = Nat.card {x : UInt64 // x.toNat < 2 ^ (64 - difficulty.toNat)} :=
        card_comp hkey fun x => x.toNat < 2 ^ (64 - difficulty.toNat)
    _ = 2 ^ (64 - difficulty.toNat) := card_lt (Nat.sub_le 64 _)

theorem powBucketOk_card_sample :
    Nat.card {hash : UInt64 // powBucketOk hash 4660 22 0 = true} = 2 ^ 42 :=
  (powBucketOk_card 4660 22 0 (by decide)).2

/-! ## The life of a token -/

/-- The bucket of a second. -/
theorem toNat_div_window (t : UInt64) (window : UInt16) :
    (t / window.toUInt64).toNat = t.toNat / window.toNat := by
  rw [UInt64.toNat_div, UInt16.toNat_toUInt64]

/-- A query is let in by its own bucket or the one before. -/
theorem powAllow_iff {ns hash : UInt64} {dnsId : UInt16} {difficulty : UInt8} {window : UInt16}
    (hd : difficulty ≠ 0) (hw : window ≠ 0) :
    powAllow ns hash dnsId difficulty window = .ok true ↔
      powBucketOk hash dnsId difficulty (nowSec ns / window.toUInt64) = true ∨
        nowSec ns / window.toUInt64 > 0 ∧
          powBucketOk hash dnsId difficulty (nowSec ns / window.toUInt64 - 1) = true := by
  unfold powAllow
  rw [if_neg hd, if_neg hw, divAt_ok _ (toUInt64_window_ne hw), ok_bind]
  split_ifs with hnow hprev
  · exact iff_of_true rfl (.inl hnow)
  · exact iff_of_true rfl (.inr hprev)
  · exact iff_of_false (fun h => nomatch h) (not_or.mpr ⟨hnow, hprev⟩)

theorem toNat_sub_one {b : UInt64} (h : b > 0) : (b - 1).toNat = b.toNat - 1 := by
  have hone : 1 ≤ b := by
    rw [UInt64.le_iff_toNat_le]
    exact UInt64.lt_iff_toNat_lt.mp h
  exact UInt64.toNat_sub_of_le _ _ hone

section Window

variable {ns hash : UInt64} {dnsId : UInt16} {difficulty : UInt8} {window : UInt16}
  (hd : difficulty ≠ 0) (hw : window ≠ 0)

include hd hw

/-- In a whole window the clock gets no further than the next bucket. -/
theorem powAllow_of_bucket {t : UInt64} (hle : t ≤ nowSec ns)
    (hwithin : (nowSec ns).toNat ≤ t.toNat + window.toNat)
    (hok : powBucketOk hash dnsId difficulty (t / window.toUInt64) = true) :
    powAllow ns hash dnsId difficulty window = .ok true := by
  have hpos : 0 < window.toNat := Nat.pos_of_ne_zero fun h => hw (UInt16.toNat_inj.mp h)
  rw [powAllow_iff hd hw]
  generalize nowSec ns = now at hle hwithin ⊢
  have hnow := toNat_div_window now window
  have htoken := toNat_div_window t window
  have hmono : t.toNat / window.toNat ≤ now.toNat / window.toNat :=
    Nat.div_le_div_right (UInt64.le_iff_toNat_le.mp hle)
  have hnext : now.toNat / window.toNat ≤ t.toNat / window.toNat + 1 := by
    rw [← Nat.add_div_right _ hpos]
    exact Nat.div_le_div_right hwithin
  by_cases hsame : now / window.toUInt64 = t / window.toUInt64
  · rw [hsame]
    exact .inl hok
  · -- the clock is in the bucket after the token's, which is not bucket 0
    have hne : (now / window.toUInt64).toNat ≠ (t / window.toUInt64).toNat :=
      fun h => hsame (UInt64.toNat_inj.mp h)
    have hlater : now / window.toUInt64 > 0 := by
      rw [gt_iff_lt, UInt64.lt_iff_toNat_lt, UInt64.toNat_zero]
      omega
    have hprev : now / window.toUInt64 - 1 = t / window.toUInt64 := by
      rw [← UInt64.toNat_inj, toNat_sub_one hlater]
      omega
    rw [hprev]
    exact .inr ⟨hlater, hok⟩

theorem bucket_of_powAllow (h : powAllow ns hash dnsId difficulty window = .ok true) :
    ∃ b : UInt64, powBucketOk hash dnsId difficulty b = true ∧
      (nowSec ns).toNat < (b.toNat + 1) * window.toNat + window.toNat := by
  have hpos : 0 < window.toNat := Nat.pos_of_ne_zero fun h => hw (UInt16.toNat_inj.mp h)
  rw [powAllow_iff hd hw] at h
  generalize nowSec ns = now at h ⊢
  have hnow := toNat_div_window now window
  have hend : now.toNat < now.toNat / window.toNat * window.toNat + window.toNat := by
    have := Nat.lt_mul_of_div_lt (Nat.lt_succ_self (now.toNat / window.toNat)) hpos
    rwa [Nat.succ_mul] at this
  rcases h with hok | ⟨hlater, hok⟩
  · refine ⟨_, hok, ?_⟩
    rw [hnow, Nat.succ_mul]
    omega
  · have hge : 1 ≤ now.toNat / window.toNat := hnow ▸ UInt64.lt_iff_toNat_lt.mp hlater
    refine ⟨_, hok, ?_⟩
    rw [toNat_sub_one hlater, hnow, Nat.sub_add_cancel hge]
    exact hend

end Window

/-- **How long a token lives.** A token for the bucket of second `t` is let in at every second from
    `t` to `t + w`. A token that is let in at second `now` is one for a bucket `b` whose interval
    `[b*w, (b+1)*w)` ends later than `now - w`. -/
theorem powAllow_window (hash : UInt64) (dnsId : UInt16) (difficulty : UInt8) (hd : 1 ≤ difficulty)
    (window : UInt16) (hw : 1 ≤ window) (ns : UInt64) :
    (∀ t : UInt64, t ≤ nowSec ns → (nowSec ns).toNat ≤ t.toNat + window.toNat →
      powBucketOk hash dnsId difficulty (t / window.toUInt64) = true →
        powAllow ns hash dnsId difficulty window = .ok true) ∧
    (powAllow ns hash dnsId difficulty window = .ok true →
      ∃ b : UInt64, powBucketOk hash dnsId difficulty b = true ∧
        (nowSec ns).toNat < (b.toNat + 1) * window.toNat + window.toNat) := by
  have hd0 : difficulty ≠ 0 := by
    rintro rfl
    exact absurd hd (by decide)
  have hw0 : window ≠ 0 := by
    rintro rfl
    exact absurd hw (by decide)
  exact ⟨fun t => powAllow_of_bucket hd0 hw0, bucket_of_powAllow hd0 hw0⟩

/-- A hash that solves difficulty 2 in the second minute is let in at the end of the third. -/
theorem powAllow_window_sample :
    powBucketOk 1 4660 2 1 = true ∧ powAllow 179000000000 1 4660 2 60 = .ok true :=
  ⟨by decide +kernel, (powAllow_window 1 4660 2 (by decide) 60 (by decide) 179000000000).1 119
    (by decide) (by decide) (by decide +kernel)⟩

end Zereh.Xdp
