/-
  64-bit words that are mixed without loss, and how many there are of a kind.

  A xor with a constant, a xor with the own upper half shifted down and a multiplication by an
  invertible word are bijections. So a condition on the result of such steps has as many solutions
  as the condition itself (`card_comp`), and `card_lt` counts the words below a power of two.
-/
import Mathlib.Logic.Function.Basic
import Mathlib.SetTheory.Cardinal.Finite
import Mathlib.Tactic.Common

namespace Lib

/-! ## Bijections -/

theorem xor_bijective (c : UInt64) : Function.Bijective fun x : UInt64 => x ^^^ c := by
  have hinv : Function.Involutive fun x : UInt64 => x ^^^ c := by
    intro x
    change x ^^^ c ^^^ c = x
    rw [UInt64.xor_assoc, UInt64.xor_self, UInt64.xor_zero]
  exact hinv.bijective

/-- Shifted out twice by half the width or more, nothing is left. -/
theorem shiftRight_shiftRight {k : UInt64} (hk : 32 ≤ k) (hlt : k < 64) (x : UInt64) :
    x >>> k >>> k = 0 := by
  have hlow : 32 ≤ k.toNat := UInt64.le_iff_toNat_le.mp hk
  have hhigh : k.toNat < 64 := UInt64.lt_iff_toNat_lt.mp hlt
  have hmod : k.toNat % 64 = k.toNat := Nat.mod_eq_of_lt hhigh
  have hsize : x.toNat < 2 ^ (k.toNat + k.toNat) :=
    Nat.lt_of_lt_of_le x.toNat_lt (Nat.pow_le_pow_right (by decide) (by omega))
  rw [← UInt64.toNat_inj, UInt64.toNat_shiftRight, UInt64.toNat_shiftRight, hmod,
    Nat.shiftRight_eq_div_pow, Nat.shiftRight_eq_div_pow, Nat.div_div_eq_div_mul, ← Nat.pow_add,
    Nat.div_eq_of_lt hsize]
  rfl

theorem xorShift_bijective {k : UInt64} (hk : 32 ≤ k) (hlt : k < 64) :
    Function.Bijective fun x : UInt64 => x ^^^ (x >>> k) := by
  have hinv : Function.Involutive fun x : UInt64 => x ^^^ (x >>> k) := by
    intro x
    change x ^^^ (x >>> k) ^^^ ((x ^^^ (x >>> k)) >>> k) = x
    rw [UInt64.shiftRight_xor, shiftRight_shiftRight hk hlt, UInt64.xor_zero, UInt64.xor_assoc,
      UInt64.xor_self, UInt64.xor_zero]
  exact hinv.bijective

theorem mul_bijective {c d : UInt64} (h : c * d = 1) :
    Function.Bijective fun x : UInt64 => x * c := by
  have hleft : Function.LeftInverse (fun x : UInt64 => x * d) fun x => x * c := by
    intro x
    change x * c * d = x
    rw [UInt64.mul_assoc, h, UInt64.mul_one]
  have hright : Function.RightInverse (fun x : UInt64 => x * d) fun x => x * c := by
    intro x
    change x * d * c = x
    rw [UInt64.mul_assoc, UInt64.mul_comm d c, h, UInt64.mul_one]
  exact ⟨hleft.injective, hright.surjective⟩

/-! ## Counting -/

/-- A condition on the image under a bijection has as many solutions as the condition. -/
theorem card_comp {α β : Type} {f : α → β} (hf : Function.Bijective f) (p : β → Prop) :
    Nat.card {a // p (f a)} = Nat.card {b // p b} :=
  Nat.card_congr ((Equiv.ofBijective f hf).subtypeEquiv fun _ => Iff.rfl)

theorem card_lt {n : Nat} (hn : n ≤ 64) : Nat.card {x : UInt64 // x.toNat < 2 ^ n} = 2 ^ n := by
  have hle : 2 ^ n ≤ 2 ^ 64 := Nat.pow_le_pow_right (by decide) hn
  have hback : ∀ i : Fin (2 ^ n), (UInt64.ofNat i).toNat = i := by
    intro i
    rw [UInt64.toNat_ofNat']
    exact Nat.mod_eq_of_lt (Nat.lt_of_lt_of_le i.isLt hle)
  have hequiv : {x : UInt64 // x.toNat < 2 ^ n} ≃ Fin (2 ^ n) :=
    { toFun := fun x => ⟨x.1.toNat, x.2⟩
      invFun := fun i => ⟨UInt64.ofNat i, by rw [hback]; exact i.isLt⟩
      left_inv := fun x => Subtype.ext (UInt64.ofNat_toNat)
      right_inv := fun i => Fin.ext (hback i) }
  rw [Nat.card_congr hequiv, Nat.card_eq_fintype_card, Fintype.card_fin]

end Lib
