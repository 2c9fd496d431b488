/-
  Objects on the heap and the library functions that fill them.

  A `Run` has the state of an allocator that is not looked into: `Allocator.malloc` answers a size
  with fresh memory, whose bytes are whatever it likes, or refuses. A run that does not return ends
  in a `Trap`, an access outside an object or a loop whose rounds run out.

  `Yields P x`: from every state of the allocator the run `x` returns, with a value in `P`.
  `YieldsSome P x`: what it returns is not null. The rules follow the shape of the program;
  `calloc`, `realloc`, `memcpy` and `vsnprintf` have one lemma each. `safe_memcpy` and
  `safe_terminate` are about an object that starts with a text: the text goes on with what is copied
  behind it.
-/
import Mathlib.Data.List.Infix
import Zereh.Lib.Checked

namespace Lib

/-- Why a run does not return. -/
inductive Trap where
  | fault (f : Fault)
  | endless
  deriving DecidableEq, Repr

/-- What `malloc` answers to a size, and the allocator after it. -/
structure Allocator (σ : Type) where
  malloc : Nat → σ → Option (List UInt8) × σ

abbrev Run (σ : Type) := StateT σ (Except Trap)

/-- A checked access as part of a run. -/
def check {σ α : Type} (x : Checked α) : Run σ α := fun s =>
  match x with
  | .ok a => .ok (a, s)
  | .error f => .error (.fault f)

section Functions

variable {σ : Type} (heap : Allocator σ)

/-- `calloc (1, n)`. -/
def calloc (n : Nat) : Run σ (Option (List UInt8)) := fun s =>
  let (mem, s') := heap.malloc n s
  .ok (mem.map fun _ => List.replicate n 0, s')

/-- `realloc (m, n)`: fresh memory that starts with the bytes of the old object. -/
def realloc (m : List UInt8) (n : Nat) : Run σ (Option (List UInt8)) := fun s =>
  let (mem, s') := heap.malloc n s
  .ok (mem.map fun fresh => m.take n ++ fresh.drop m.length, s')

end Functions

/-- `memcpy (m + off, src, n)`. -/
def memcpy (m : List UInt8) (off : Nat) (src : List UInt8) (n : Nat) : Checked (List UInt8) :=
  if src.length < n then .error (.read src.length)
  else if m.length < off + n then .error (.write m.length)
  else .ok (m.take off ++ (src.take n ++ m.drop (off + n)))

def intMax : Nat := 2147483647

/-- `vsnprintf (m + off, size, ..)` for a format that prints `text`: the result, and the object
    after it. Nothing is written for size 0 and when the length does not fit an `int`. -/
def vsnprintf (text m : List UInt8) (off size : Nat) : Checked (Int × List UInt8) :=
  if intMax < text.length then .ok (-1, m)
  else if size = 0 then .ok (text.length, m)
  else do
    let m ← memcpy m off text (min text.length (size - 1))
    let m ← writeAt m (off + min text.length (size - 1)) 0
    .ok (text.length, m)

/-! ## Runs that return -/

/-- From every state of the allocator the run returns a value in `P`. -/
def Yields {σ α : Type} (P : α → Prop) (x : Run σ α) : Prop :=
  ∀ s, ∃ a s', x s = .ok (a, s') ∧ P a

section Yields

variable {σ α β : Type} {P : α → Prop} {Q : β → Prop} {x : Run σ α}

theorem yields_pure {a : α} (h : P a) : Yields P (pure a : Run σ α) := fun s => ⟨a, s, rfl, h⟩

theorem Yields.bind {f : α → Run σ β} (hx : Yields P x) (hf : ∀ a, P a → Yields Q (f a)) :
    Yields Q (x >>= f) := by
  intro s
  obtain ⟨a, s', hs', ha⟩ := hx s
  obtain ⟨b, s'', hs'', hb⟩ := hf a ha s'
  refine ⟨b, s'', ?_, hb⟩
  change (x s >>= fun p => f p.1 p.2) = _
  rw [hs']
  exact hs''

/-- The run returns a value in `P`, and not the null that stands for a failure. -/
def YieldsSome (P : α → Prop) (x : Run σ (Option α)) : Prop :=
  Yields (fun r => ∃ a, r = some a ∧ P a) x

theorem yieldsSome_pure {a : α} (h : P a) : YieldsSome P (pure (some a) : Run σ (Option α)) :=
  yields_pure ⟨a, rfl, h⟩

theorem YieldsSome.bind {y : Run σ (Option α)} {f : Option α → Run σ β} (hy : YieldsSome P y)
    (hf : ∀ a, P a → Yields Q (f (some a))) : Yields Q (y >>= f) := by
  refine Yields.bind hy fun r hr => ?_
  obtain ⟨a, rfl, ha⟩ := hr
  exact hf a ha

theorem yields_check {y : Checked α} (h : Safe P y) : Yields P (check y : Run σ α) := by
  intro s
  obtain ⟨a, rfl, ha⟩ := h
  exact ⟨a, s, rfl, ha⟩

end Yields

/-! ## Memory -/

section Memory

variable {σ : Type} {heap : Allocator σ}

/-- Every request is granted, with memory of the size asked for. -/
def Allocator.Grants (heap : Allocator σ) : Prop :=
  ∀ n s, ∃ mem s', heap.malloc n s = (some mem, s') ∧ mem.length = n

theorem yields_calloc (h : heap.Grants) (n : Nat) :
    YieldsSome (fun m => m = List.replicate n 0) (calloc heap n) := by
  intro s
  obtain ⟨mem, s', hmem, -⟩ := h n s
  exact ⟨_, s', by rw [calloc, hmem]; rfl, _, rfl, rfl⟩

/-- A larger object starts with the old one. -/
theorem yields_realloc (h : heap.Grants) {m : List UInt8} {n : Nat} (hn : m.length ≤ n) :
    YieldsSome (fun next => next.length = n ∧ m <+: next) (realloc heap m n) := by
  intro s
  obtain ⟨mem, s', hmem, hlen⟩ := h n s
  refine ⟨_, s', by rw [realloc, hmem]; rfl, _, rfl, ?_, ?_⟩
  · rw [List.length_append, List.length_take, List.length_drop]
    omega
  · rw [List.take_of_length_le hn]
    exact List.prefix_append ..

/-- A copy behind a text that the object starts with. -/
theorem safe_memcpy {m text src : List UInt8} {n : Nat} (htext : text <+: m) (hn : n ≤ src.length)
    (hroom : text.length + n ≤ m.length) :
    Safe (fun m' => m'.length = m.length ∧ text ++ src.take n <+: m')
      (memcpy m text.length src n) := by
  refine ⟨_, by rw [memcpy, if_neg (by omega), if_neg (by omega)], ?_, ?_⟩
  · simp only [List.length_append, List.length_take, List.length_drop]
    omega
  · rw [← List.prefix_iff_eq_take.mp htext, ← List.append_assoc]
    exact List.prefix_append ..

/-- The NUL behind a text. -/
theorem safe_terminate {m text : List UInt8} (htext : text <+: m) (hroom : text.length < m.length) :
    Safe (fun m' => m'.length = m.length ∧ text ++ [0] <+: m') (writeAt m text.length 0) := by
  refine ⟨_, writeAt_ok 0 hroom, List.length_set, ?_⟩
  obtain ⟨rest, rfl⟩ := htext
  cases rest with
  | nil =>
    rw [List.append_nil] at hroom
    omega
  | cons c rest =>
    rw [List.set_append_right _ _ (Nat.le_refl _), Nat.sub_self, List.set_cons_zero]
    exact ⟨rest, by rw [List.append_assoc]; rfl⟩

theorem safe_vsnprintf {m text out : List UInt8} {size : Nat} (htext : text <+: m)
    (hint : out.length ≤ intMax) (hsize : out.length < size)
    (hroom : text.length + out.length < m.length) :
    Safe (fun r => r.2.length = m.length ∧ text ++ out ++ [0] <+: r.2)
      (vsnprintf out m text.length size) := by
  have hmin : min out.length (size - 1) = out.length := by omega
  rw [vsnprintf, if_neg (by omega), if_neg (by omega), hmin]
  refine Safe.bind (safe_memcpy htext (Nat.le_refl _) (by omega)) fun m' hm' => ?_
  obtain ⟨hlen, hcopied⟩ := hm'
  rw [List.take_length] at hcopied
  rw [← List.length_append]
  refine Safe.bind (safe_terminate hcopied (by rw [List.length_append]; omega)) fun m'' hm'' => ?_
  exact safe_ok ⟨hm''.1.trans hlen, hm''.2⟩

end Memory

end Lib
