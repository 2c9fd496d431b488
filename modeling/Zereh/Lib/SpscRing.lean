/-
  Rings with one producer and one consumer.

  Entry `k` of a ring of size `n` is in slot `k % n`. The producer reserves entries, stores into them and
  submits them; the consumer peeks at what is submitted, loads it and releases it. The four counters only
  grow, a ring with 32-bit counters is the same ring as long as `n` divides `2 ^ 32`.

  `window lo hi` lists the entries from `lo` up to `hi`. A store into a reserved entry changes none of the
  entries before it that are not released (`window_store`).
-/
import Mathlib.Data.List.Range
import Mathlib.Tactic.Common

namespace Lib

structure SpscRing (α : Type) (n : Nat) where
  slots : Nat → α
  reserved : Nat
  produced : Nat
  peeked : Nat
  consumed : Nat

namespace SpscRing

variable {α : Type} {n : Nat}

def empty (a : α) : SpscRing α n := ⟨fun _ => a, 0, 0, 0, 0⟩

/-! ## The producer -/

/-- Reserve `k` entries: the first of them, or nothing when there is no room for all. -/
def reserve (r : SpscRing α n) (k : Nat) : Option (Nat × SpscRing α n) :=
  if r.reserved + k ≤ r.consumed + n then some (r.reserved, { r with reserved := r.reserved + k })
  else none

def store (r : SpscRing α n) (idx : Nat) (a : α) : SpscRing α n :=
  { r with slots := Function.update r.slots (idx % n) a }

def submit (r : SpscRing α n) (k : Nat) : SpscRing α n := { r with produced := r.produced + k }

/-- Reserve, store and submit one entry. -/
def put (r : SpscRing α n) (a : α) : Option (SpscRing α n) :=
  (r.reserve 1).map fun idx => (idx.2.store idx.1 a).submit 1

/-! ## The consumer -/

/-- Up to `k` entries that are submitted: how many, and the first of them. -/
def peek (r : SpscRing α n) (k : Nat) : Nat × Nat × SpscRing α n :=
  let got := min k (r.produced - r.peeked)
  (got, r.peeked, { r with peeked := r.peeked + got })

def load (r : SpscRing α n) (idx : Nat) : α := r.slots (idx % n)

def release (r : SpscRing α n) (k : Nat) : SpscRing α n := { r with consumed := r.consumed + k }

/-- Peek at one entry and load it. -/
def take (r : SpscRing α n) : Option (α × SpscRing α n) :=
  match r.peek 1 with
  | (0, _, _) => none
  | (_ + 1, idx, r) => some (r.load idx, r)

/-- Release everything that is peeked at. -/
def free (r : SpscRing α n) : SpscRing α n := r.release (r.peeked - r.consumed)

/-! ## Windows -/

/-- The counters are in their order, and no slot holds two entries. -/
structure Ok (r : SpscRing α n) : Prop where
  consumed_le : r.consumed ≤ r.peeked
  peeked_le : r.peeked ≤ r.produced
  produced_le : r.produced ≤ r.reserved
  reserved_le : r.reserved ≤ r.consumed + n

theorem ok_empty (a : α) : (empty a : SpscRing α n).Ok :=
  ⟨le_rfl, le_rfl, le_rfl, Nat.zero_le _⟩

/-- The entries from `lo` up to `hi`. -/
def window (r : SpscRing α n) (lo hi : Nat) : List α := (List.range' lo (hi - lo)).map r.load

section Window

variable (r : SpscRing α n)

theorem length_window (lo hi : Nat) : (r.window lo hi).length = hi - lo := by
  rw [window, List.length_map, List.length_range']

theorem window_self (lo : Nat) : r.window lo lo = [] := by
  rw [window, Nat.sub_self]
  rfl

theorem window_cons {lo hi : Nat} (h : lo < hi) : r.window lo hi = r.load lo :: r.window (lo + 1) hi := by
  obtain ⟨d, hd⟩ : ∃ d, hi - lo = d + 1 := ⟨hi - lo - 1, by omega⟩
  rw [window, window, hd, List.range'_succ, List.map_cons, show hi - (lo + 1) = d by omega]

theorem window_succ {lo hi : Nat} (h : lo ≤ hi) : r.window lo (hi + 1) = r.window lo hi ++ [r.load hi] := by
  have hlast : lo + 1 * (hi - lo) = hi := by omega
  rw [window, window, show hi + 1 - lo = hi - lo + 1 by omega, List.range'_concat, List.map_append,
    hlast]
  rfl

variable {r}

theorem window_congr {r' : SpscRing α n} {lo hi : Nat}
    (h : ∀ k, lo ≤ k → k < hi → r'.load k = r.load k) : r'.window lo hi = r.window lo hi := by
  refine List.map_congr_left fun k hk => ?_
  rw [List.mem_range'_1] at hk
  exact h k hk.1 (by omega)

/-- Different entries of one window are in different slots. -/
theorem mod_ne_of_lt {k idx : Nat} (hk : k < idx) (hidx : idx < k + n) : k % n ≠ idx % n := by
  intro h
  have hzero := Nat.sub_mod_eq_zero_of_mod_eq h.symm
  rw [Nat.mod_eq_of_lt (by omega)] at hzero
  omega

theorem load_store_self (idx : Nat) (a : α) : (r.store idx a).load idx = a := Function.update_self ..

/-- A store leaves the entries before it that are at most a ring away. -/
theorem window_store {lo hi idx : Nat} (hhi : hi ≤ idx) (hidx : idx < lo + n) (a : α) :
    (r.store idx a).window lo hi = r.window lo hi := by
  refine window_congr fun k hlo hk => ?_
  exact Function.update_of_ne (mod_ne_of_lt (by omega) (by omega)) ..

theorem take_eq : r.take =
    if r.peeked < r.produced then some (r.load r.peeked, { r with peeked := r.peeked + 1 }) else none := by
  unfold take peek
  dsimp only
  by_cases h : r.peeked < r.produced
  · rw [if_pos h, Nat.min_eq_left (show 1 ≤ r.produced - r.peeked by omega)]
    rfl
  · rw [if_neg h, show r.produced - r.peeked = 0 by omega]
    rfl

theorem free_eq (h : r.consumed ≤ r.peeked) : r.free = { r with consumed := r.peeked } := by
  rw [free, release, Nat.add_sub_cancel' h]

/-- One entry is put into a ring whose producer has reserved nothing else. -/
theorem put_eq (hfilled : r.reserved = r.produced) (a : α) :
    r.put a = if r.produced + 1 ≤ r.consumed + n then
      some { r.store r.produced a with reserved := r.produced + 1, produced := r.produced + 1 }
    else none := by
  unfold put reserve
  rw [hfilled]
  split_ifs
  · rfl
  · rfl

end Window

end SpscRing

end Lib
