/-
  The Internet checksum: one's-complement sums of 16-bit words.

  `words` cuts a byte string into words in network order, an odd last byte padded with zero;
  `onesSum` adds them with end-around carry. A string verifies when the sum is all ones, that is
  when the plain sum of its words is a nonzero multiple of 65535 (`verifies_iff`). A store changes
  the plain sum by the words it replaces (`wordSum_set`), so whether a change keeps a checksum is
  arithmetic modulo 65535.
-/
import Zereh.Lib.Bytes
import Zereh.Lib.Checked

namespace Lib

/-- The 16-bit words of a byte string. -/
def words : List UInt8 → List Nat
  | [] => []
  | [a] => [256 * a.toNat]
  | a :: b :: rest => (256 * a.toNat + b.toNat) :: words rest

/-- Addition with end-around carry. -/
def onesAdd (a b : Nat) : Nat := if a + b < 65536 then a + b else a + b - 65535

def onesSum (ws : List Nat) : Nat := ws.foldr onesAdd 0

/-- The words sum to all ones. -/
def Verifies (l : List UInt8) : Prop := onesSum (words l) = 65535

/-- The sum without carries. -/
def wordSum (l : List UInt8) : Nat := (words l).sum

/-! ## End-around carry -/

theorem words_lt (l : List UInt8) : ∀ w ∈ words l, w < 65536 := by
  induction l using words.induct with
  | case1 => simp [words]
  | case2 a =>
    have := a.toNat_lt
    simp only [words, List.mem_singleton, forall_eq]
    omega
  | case3 a b rest ih =>
    have ha := a.toNat_lt
    have hb := b.toNat_lt
    simp only [words, List.mem_cons, forall_eq_or_imp]
    exact ⟨by omega, ih⟩

/-- Carries change a sum by multiples of 65535, and do not make it zero. -/
theorem onesSum_spec (ws : List Nat) (h : ∀ w ∈ ws, w < 65536) :
    onesSum ws < 65536 ∧ onesSum ws % 65535 = ws.sum % 65535 ∧ (onesSum ws = 0 ↔ ws.sum = 0) := by
  induction ws with
  | nil => exact ⟨by decide, rfl, Iff.rfl⟩
  | cons w ws ih =>
    obtain ⟨hlt, hmod, hzero⟩ := ih fun v hv => h v (.tail _ hv)
    have hw := h w (.head _)
    have hstep : onesSum (w :: ws) = onesAdd w (onesSum ws) := rfl
    rw [hstep, List.sum_cons, onesAdd]
    split_ifs <;> omega

theorem verifies_iff (l : List UInt8) : Verifies l ↔ 0 < wordSum l ∧ wordSum l % 65535 = 0 := by
  obtain ⟨hlt, hmod, hzero⟩ := onesSum_spec (words l) (words_lt l)
  unfold Verifies wordSum
  omega

/-! ## Sums of pieces -/

theorem wordSum_cons_cons (a b : UInt8) (rest : List UInt8) :
    wordSum (a :: b :: rest) = 256 * a.toNat + b.toNat + wordSum rest := rfl

theorem wordSum_append (l m : List UInt8) (h : l.length % 2 = 0) :
    wordSum (l ++ m) = wordSum l + wordSum m := by
  induction l using words.induct with
  | case1 => simp [wordSum, words]
  | case2 a => simp at h
  | case3 a b rest ih =>
    have hrest : rest.length % 2 = 0 := by
      rw [List.length_cons, List.length_cons] at h
      omega
    rw [List.cons_append, List.cons_append, wordSum_cons_cons, wordSum_cons_cons, ih hrest]
    omega

/-- Two neighbouring bytes at an even offset are one word of the sum. -/
theorem wordSum_set (l : List UInt8) (k : Nat) (a b : UInt8) (hk : k + 1 < l.length)
    (heven : k % 2 = 0) :
    wordSum ((l.set k a).set (k + 1) b) + (256 * (byteAt l k).toNat + (byteAt l (k + 1)).toNat) =
      wordSum l + (256 * a.toNat + b.toNat) := by
  induction l using words.induct generalizing k with
  | case1 => simp at hk
  | case2 c => simp at hk
  | case3 c d rest ih =>
    match k with
    | 0 =>
      have hc : byteAt (c :: d :: rest) 0 = c := rfl
      have hd : byteAt (c :: d :: rest) (0 + 1) = d := rfl
      have hset : ((c :: d :: rest).set 0 a).set (0 + 1) b = a :: b :: rest := rfl
      rw [hset, hc, hd, wordSum_cons_cons, wordSum_cons_cons]
      omega
    | 1 => omega
    | k + 2 =>
      have hrest : k + 1 < rest.length := by
        rw [List.length_cons, List.length_cons] at hk
        omega
      have hset : ((c :: d :: rest).set (k + 2) a).set (k + 2 + 1) b =
          c :: d :: (rest.set k a).set (k + 1) b := rfl
      have h0 : byteAt (c :: d :: rest) (k + 2) = byteAt rest k := rfl
      have h1 : byteAt (c :: d :: rest) (k + 2 + 1) = byteAt rest (k + 1) := rfl
      have := ih k hrest (by omega)
      rw [hset, h0, h1, wordSum_cons_cons, wordSum_cons_cons]
      omega

end Lib
