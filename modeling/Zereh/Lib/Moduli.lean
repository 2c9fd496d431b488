/-
  Pairwise coprime moduli tell words apart.

  A number that many coprime moduli divide is a multiple of their product. So if the product of the
  moduli is large enough, one of them leaves no remainder of one list of words among the remainders
  of another, as long as the lists have no word in common (`exists_modulus_apart`). Which modulus it
  is depends on the words; that there is one only on their size and number.
-/
import Mathlib.Algebra.BigOperators.Ring.List
import Mathlib.Algebra.Order.BigOperators.Group.List
import Mathlib.Algebra.Order.Monoid.Unbundled.Basic
import Mathlib.Data.Int.ModEq
import Mathlib.Data.Nat.GCD.BigOperators
import Mathlib.Tactic.Common

namespace Lib.Moduli

theorem prod_dvd_of_pairwise {ps : List Nat} (hps : ps.Pairwise Nat.Coprime) {n : Nat}
    (h : ∀ p ∈ ps, p ∣ n) : ps.prod ∣ n := by
  induction ps with
  | nil => exact one_dvd n
  | cons p ps ih =>
    obtain ⟨hp, hrest⟩ := List.pairwise_cons.mp hps
    have hcop : Nat.Coprime p ps.prod := Nat.coprime_list_prod_right_iff.mpr hp
    rw [List.prod_cons]
    exact hcop.mul_dvd_of_dvd_of_dvd (h p (.head _)) (ih hrest fun q hq => h q (.tail _ hq))

/-- A number below the product is divided by no more than some of the moduli. -/
theorem exists_not_dvd {ps : List Nat} (hps : ps.Pairwise Nat.Coprime) {n : Nat} (hn : n ≠ 0)
    (hlt : n < ps.prod) : ∃ p ∈ ps, ¬ p ∣ n := by
  by_contra hall
  push Not at hall
  have hle := Nat.le_of_dvd (Nat.pos_of_ne_zero hn) (prod_dvd_of_pairwise hps hall)
  omega

/-- The distance of two words. -/
def gap (x y : Nat) : Nat := ((x : Int) - y).natAbs

theorem gap_ne_zero {x y : Nat} (h : x ≠ y) : gap x y ≠ 0 := by
  unfold gap
  omega

theorem gap_le {x y b : Nat} (hx : x ≤ b) (hy : y ≤ b) : gap x y ≤ b := by
  unfold gap
  omega

theorem dvd_gap {x y p : Nat} (h : x % p = y % p) : p ∣ gap x y := by
  have hdvd : (p : Int) ∣ (x : Int) - y := (Nat.modEq_iff_dvd.mp (Eq.symm h : y ≡ x [MOD p]))
  exact Int.natCast_dvd.mp hdvd

/-- All distances between two lists, multiplied. -/
def gaps (xs ys : List Nat) : Nat := (xs.flatMap fun x => ys.map (gap x)).prod

/-- **Some modulus tells the two lists apart.** -/
theorem exists_modulus_apart {ps xs ys : List Nat} {b : Nat} (hps : ps.Pairwise Nat.Coprime)
    (hx : ∀ x ∈ xs, x ≤ b) (hy : ∀ y ∈ ys, y ≤ b) (hne : ∀ x ∈ xs, ∀ y ∈ ys, x ≠ y)
    (hlarge : b ^ (xs.length * ys.length) < ps.prod) :
    ∃ p ∈ ps, ∀ x ∈ xs, ∀ y ∈ ys, x % p ≠ y % p := by
  have hmem : ∀ d, d ∈ xs.flatMap (fun x => ys.map (gap x)) ↔ ∃ x ∈ xs, ∃ y ∈ ys, gap x y = d := by
    simp only [List.mem_flatMap, List.mem_map, implies_true]
  have hzero : gaps xs ys ≠ 0 := by
    intro h
    obtain ⟨x, hxs, y, hys, hgap⟩ := (hmem 0).mp (List.prod_eq_zero_iff.mp h)
    exact gap_ne_zero (hne x hxs y hys) hgap
  have hlen : (xs.flatMap fun x => ys.map (gap x)).length = xs.length * ys.length := by
    simp
  have hle : gaps xs ys ≤ b ^ (xs.length * ys.length) := by
    rw [← hlen]
    refine List.prod_le_pow_card _ b fun d hd => ?_
    obtain ⟨x, hxs, y, hys, rfl⟩ := (hmem d).mp hd
    exact gap_le (hx x hxs) (hy y hys)
  obtain ⟨p, hp, hnot⟩ := exists_not_dvd hps hzero (Nat.lt_of_le_of_lt hle hlarge)
  refine ⟨p, hp, fun x hxs y hys heq => hnot ?_⟩
  exact (dvd_gap heq).trans (List.dvd_prod ((hmem _).mpr ⟨x, hxs, y, hys, rfl⟩))

end Lib.Moduli
