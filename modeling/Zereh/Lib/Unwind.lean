/-
  Machines with outputs, and what one owner of inputs sees.

  `runOutputs` feeds a list of inputs to a fallible step. `Unwinding step mine R` is the step
  condition of noninterference: related states answer an own input alike and stay related, any
  other input leaves the state related to what it was. Hence the answers to the own inputs are
  those of the run in which nothing else happened (`Unwinding.run`).
-/
import Zereh.Lib.Checked

namespace Lib

variable {σ ι ω : Type}

/-- Each input with its output, and the last state. -/
def runOutputs (step : σ → ι → Checked (ω × σ)) : List ι → σ → Checked (List (ι × ω) × σ)
  | [], s => .ok ([], s)
  | i :: is, s => do
      let (o, s) ← step s i
      let (os, s) ← runOutputs step is s
      .ok ((i, o) :: os, s)

/-- `R` relates states that look alike to the owner of the inputs in `mine`. -/
structure Unwinding (step : σ → ι → Checked (ω × σ)) (mine : ι → Bool) (R : σ → σ → Prop) :
    Prop where
  own : ∀ s t i, R s t → mine i = true →
    ∃ o s' t', step s i = .ok (o, s') ∧ step t i = .ok (o, t') ∧ R s' t'
  other : ∀ s t i, R s t → mine i = false → ∃ o s', step s i = .ok (o, s') ∧ R s' t

theorem Unwinding.run {step : σ → ι → Checked (ω × σ)} {mine : ι → Bool} {R : σ → σ → Prop}
    (h : Unwinding step mine R) (is : List ι) (s t : σ) (hst : R s t) :
    ∃ all s' own t', runOutputs step is s = .ok (all, s') ∧
      runOutputs step (is.filter mine) t = .ok (own, t') ∧
      all.filter (fun io => mine io.1) = own ∧ R s' t' := by
  induction is generalizing s t with
  | nil => exact ⟨[], s, [], t, rfl, rfl, rfl, hst⟩
  | cons i is ih =>
    cases hi : mine i with
    | true =>
      obtain ⟨o, s1, t1, hs, ht, h1⟩ := h.own s t i hst hi
      obtain ⟨all, s', own, t', hall, hown, heq, h'⟩ := ih s1 t1 h1
      refine ⟨(i, o) :: all, s', (i, o) :: own, t', ?_, ?_, ?_, h'⟩
      · rw [runOutputs, hs, ok_bind]
        dsimp only
        rw [hall, ok_bind]
      · rw [List.filter_cons_of_pos hi, runOutputs, ht, ok_bind]
        dsimp only
        rw [hown, ok_bind]
      · rw [List.filter_cons_of_pos (by exact hi), heq]
    | false =>
      have hne : ¬ mine i = true := by rw [hi]; exact Bool.false_ne_true
      obtain ⟨o, s1, hs, h1⟩ := h.other s t i hst hi
      obtain ⟨all, s', own, t', hall, hown, heq, h'⟩ := ih s1 t h1
      refine ⟨(i, o) :: all, s', own, t', ?_, ?_, ?_, h'⟩
      · rw [runOutputs, hs, ok_bind]
        dsimp only
        rw [hall, ok_bind]
      · rwa [List.filter_cons_of_neg hne]
      · rwa [List.filter_cons_of_neg (by exact hne)]

end Lib
