/-
  Machines with outputs against a specification that only remembers a history.

  `answers astep` runs a total machine `astep : α → ι → ω × α`. `Simulation step astep P R` is the step
  condition: from related states, on an input that `P` allows in the abstract state, the fallible
  machine returns the same output and stays related. So a whole run returns the outputs of the
  specification (`Simulation.run`).
-/
import Zereh.Lib.Steps
import Zereh.Lib.Unwind

namespace Lib

variable {σ α ι ω : Type}

/-- The outputs of a total machine, and its last state. -/
def answers (astep : α → ι → ω × α) : List ι → α → List ω × α
  | [], a => ([], a)
  | i :: is, a =>
      let (o, a) := astep a i
      let (os, a) := answers astep is a
      (o :: os, a)

theorem answers_cons (astep : α → ι → ω × α) (i : ι) (is : List ι) (a : α) :
    answers astep (i :: is) a =
      ((astep a i).1 :: (answers astep is (astep a i).2).1, (answers astep is (astep a i).2).2) := rfl

theorem answers_append (astep : α → ι → ω × α) (is js : List ι) (a : α) :
    (answers astep (is ++ js) a).2 = (answers astep js (answers astep is a).2).2 := by
  induction is generalizing a with
  | nil => rfl
  | cons i is ih =>
    rw [List.cons_append, answers_cons, answers_cons]
    exact ih _

/-- `R` relates a state of the machine to what the specification remembers. -/
def Simulation (step : σ → ι → Checked (ω × σ)) (astep : α → ι → ω × α) (P : α → ι → Prop)
    (R : σ → α → Prop) : Prop :=
  ∀ s a i, R s a → P a i → ∃ s', step s i = .ok ((astep a i).1, s') ∧ R s' (astep a i).2

theorem Simulation.run {step : σ → ι → Checked (ω × σ)} {astep : α → ι → ω × α}
    {P : α → ι → Prop} {R : σ → α → Prop} (h : Simulation step astep P R) (is : List ι) (s : σ)
    (a : α) (hR : R s a) (hP : Along (fun a i => (astep a i).2) P is a) :
    ∃ s', runOutputs step is s = .ok (is.zip (answers astep is a).1, s') ∧
      R s' (answers astep is a).2 := by
  induction is generalizing s a with
  | nil => exact ⟨s, rfl, hR⟩
  | cons i is ih =>
    obtain ⟨hfirst, hrest⟩ := hP
    obtain ⟨s1, hstep, hR1⟩ := h s a i hR hfirst
    obtain ⟨s', hrun, hR'⟩ := ih s1 (astep a i).2 hR1 hrest
    refine ⟨s', ?_, hR'⟩
    rw [runOutputs, hstep, ok_bind]
    dsimp only
    rw [hrun, ok_bind]
    rfl

end Lib
