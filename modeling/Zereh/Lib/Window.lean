/-
  Fixed-window admission, over any type of windows.

  `window q past ts` decides a sequence of calls made in the windows `ts`, after calls in the
  windows `past`: a call is admitted when fewer than `q` calls came before it in its window.
  `getElem?_window` reads one decision off, `admitted` counts the admitted calls of a window,
  `sum_min_le_iff` says when several such windows together stay within one quota.
-/
import Mathlib.Algebra.BigOperators.Fin
import Mathlib.Algebra.Order.BigOperators.Group.Finset
import Mathlib.Tactic.Common

namespace Lib

variable {τ : Type} [DecidableEq τ]

/-- The decisions of a limiter with quota `q`. -/
def window (q : Nat) : List τ → List τ → List Bool
  | _, [] => []
  | past, t :: ts => decide (past.count t < q) :: window q (t :: past) ts

/-- How many calls of window `s` were admitted. -/
def admitted (s : τ) (ts : List τ) (bs : List Bool) : Nat :=
  (ts.zip bs).countP fun p => p.1 = s ∧ p.2 = true

theorem length_window (q : Nat) (past ts : List τ) : (window q past ts).length = ts.length := by
  induction ts generalizing past with
  | nil => rfl
  | cons t ts ih => rw [window, List.length_cons, ih, List.length_cons]

/-- Decision `i`: fewer than `q` earlier calls in the same window. -/
theorem getElem?_window (q : Nat) (past ts : List τ) (i : Nat) :
    (window q past ts)[i]? = ts[i]?.map fun t => decide (past.count t + (ts.take i).count t < q) := by
  induction ts generalizing past i with
  | nil => simp [window]
  | cons t ts ih =>
    cases i with
    | zero => simp [window]
    | succ i =>
      rw [window, List.getElem?_cons_succ, List.getElem?_cons_succ, ih]
      congr 1
      funext u
      rw [List.take_succ_cons, List.count_cons, List.count_cons]
      congr 2
      omega

theorem admitted_cons (s t : τ) (ts : List τ) (b : Bool) (bs : List Bool) :
    admitted s (t :: ts) (b :: bs) = (if t = s ∧ b = true then 1 else 0) + admitted s ts bs := by
  simp only [admitted, List.zip_cons_cons, List.countP_cons, decide_eq_true_eq]
  omega

/-! ## Several windows under one quota -/

/-- The capped counts of several parties stay within one quota exactly when at most one party
    has calls, or the calls are no more than the quota. -/
theorem sum_min_le_iff {ι : Type} [Fintype ι] [DecidableEq ι] (n : ι → Nat) (q : Nat) (hq : 0 < q) :
    ∑ c, min (n c) q ≤ q ↔ (∀ c d, n c ≠ 0 → n d ≠ 0 → c = d) ∨ ∑ c, n c ≤ q := by
  constructor
  · intro h
    by_contra hcon
    push Not at hcon
    obtain ⟨⟨c, d, hc, hd, hcd⟩, hlt⟩ := hcon
    by_cases hall : ∀ e, n e ≤ q
    · rw [Finset.sum_congr rfl fun e _ => Nat.min_eq_left (hall e)] at h
      exact absurd h (Nat.not_le.mpr hlt)
    · push Not at hall
      obtain ⟨e, he⟩ := hall
      -- one party is over the quota, and another one has calls too
      obtain ⟨f, hf, hfe⟩ : ∃ f, n f ≠ 0 ∧ f ≠ e := by
        by_cases hce : c = e
        · exact ⟨d, hd, fun hde => hcd (hce.trans hde.symm)⟩
        · exact ⟨c, hc, hce⟩
      have hpair : ∑ x ∈ ({e, f} : Finset ι), min (n x) q ≤ ∑ x, min (n x) q :=
        Finset.sum_le_sum_of_subset (Finset.subset_univ _)
      rw [Finset.sum_pair (Ne.symm hfe)] at hpair
      omega
  · rintro (hone | hsum)
    · by_cases hex : ∃ c, n c ≠ 0
      · obtain ⟨c, hc⟩ := hex
        have hz : ∀ d, d ∈ Finset.univ → d ≠ c → min (n d) q = 0 := by
          intro d _ hdc
          have : n d = 0 := by
            by_contra hd
            exact hdc (hone d c hd hc)
          omega
        rw [Finset.sum_eq_single c hz (fun h => absurd (Finset.mem_univ c) h)]
        omega
      · push Not at hex
        rw [Finset.sum_congr rfl fun c _ => by rw [hex c, Nat.zero_min]]
        simp
    · exact (Finset.sum_le_sum fun c _ => Nat.min_le_left _ _).trans hsum

end Lib
