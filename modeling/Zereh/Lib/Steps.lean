/-
  Programs that are a sequence of fallible steps on one state.

  A step is `σ → Except ε σ`, steps are chained with `>=>`. `Keeps P f`: when `f` returns from
  a state with `P`, the new state has `P`. A chain keeps what its steps keep.

  `Leaves π f`: the part `π` of the state is the same after `f`. `Moves π R f`: it goes from one value
  to another along `R`. In a chain the steps that leave the part drop out.

  `Demands Q f`: `f` returns only if `Q`. A chain demands what its steps demand.

  `Commutes f g`: the two steps may be taken in either order.

  `Mirrors π Q f g`: `f` returns exactly when `Q` holds and `g` returns from the part `π` of the state,
  and then `g` ends in that part of where `f` ends. A chain mirrors a chain step by step.

  For histories of total steps, `Along step P` says that every input meets `P` in the state it
  finds. What one step makes equivalent under an invariant is equivalent along every history
  (`Along.iff_of_invariant`).
-/
import Mathlib.Control.Basic
import Mathlib.Logic.Basic
import Mathlib.Tactic.Common

namespace Lib

variable {ε σ : Type}

/-- `f` keeps `P` whenever it returns. -/
def Keeps (P : σ → Prop) (f : σ → Except ε σ) : Prop := ∀ s s', f s = .ok s' → P s → P s'

theorem bind_eq_ok {α β : Type} {x : Except ε α} {f : α → Except ε β} {b : β}
    (h : x >>= f = .ok b) : ∃ a, x = .ok a ∧ f a = .ok b := by
  cases x with
  | error e => cases h
  | ok a => exact ⟨a, rfl, h⟩

theorem bind_eq_ok_iff {α β : Type} {x : Except ε α} {h : α → Except ε β} {b : β} :
    x >>= h = .ok b ↔ ∃ a, x = .ok a ∧ h a = .ok b := by
  constructor
  · exact bind_eq_ok
  · rintro ⟨a, rfl, hb⟩
    exact hb

/-- The first step has succeeded. -/
theorem fish_ok {f g : σ → Except ε σ} {s t : σ} (h : f s = .ok t) : (f >=> g) s = g t := by
  rw [Bind.kleisliRight, h]
  rfl

theorem Keeps.comp {P : σ → Prop} {f g : σ → Except ε σ} (hf : Keeps P f) (hg : Keeps P g) :
    Keeps P (f >=> g) := by
  intro s s' h hs
  obtain ⟨a, ha, hb⟩ := bind_eq_ok h
  exact hg a s' hb (hf s a ha hs)

/-! ## One part of the state -/

section Parts

variable {β : Type} {π : σ → β} {R S : β → β → Prop} {f g : σ → Except ε σ}

/-- `f` does not touch the part `π`. -/
def Leaves (π : σ → β) (f : σ → Except ε σ) : Prop := ∀ s s', f s = .ok s' → π s' = π s

/-- `f` moves the part `π` along `R`. -/
def Moves (π : σ → β) (R : β → β → Prop) (f : σ → Except ε σ) : Prop :=
  ∀ s s', f s = .ok s' → R (π s) (π s')

theorem Leaves.comp (hf : Leaves π f) (hg : Leaves π g) : Leaves π (f >=> g) := by
  intro s s' h
  obtain ⟨a, ha, hb⟩ := bind_eq_ok h
  exact (hg a s' hb).trans (hf s a ha)

theorem Leaves.then (hf : Leaves π f) (hg : Moves π R g) : Moves π R (f >=> g) := by
  intro s s' h
  obtain ⟨a, ha, hb⟩ := bind_eq_ok h
  exact hf s a ha ▸ hg a s' hb

theorem Moves.then_leaves (hf : Moves π R f) (hg : Leaves π g) : Moves π R (f >=> g) := by
  intro s s' h
  obtain ⟨a, ha, hb⟩ := bind_eq_ok h
  rw [hg a s' hb]
  exact hf s a ha

theorem Moves.comp (hf : Moves π R f) (hg : Moves π S g) :
    Moves π (fun x z => ∃ y, R x y ∧ S y z) (f >=> g) := by
  intro s s' h
  obtain ⟨a, ha, hb⟩ := bind_eq_ok h
  exact ⟨π a, hf s a ha, hg a s' hb⟩

end Parts

/-! ## Conditions -/

section Conditions

variable {P Q : Prop} {f g : σ → Except ε σ}

/-- `f` fails in every state unless `Q`. -/
def Demands (Q : Prop) (f : σ → Except ε σ) : Prop := ∀ s s', f s = .ok s' → Q

theorem Demands.comp (hf : Demands P f) (hg : Demands Q g) : Demands (P ∧ Q) (f >=> g) := by
  intro s s' h
  obtain ⟨a, ha, hb⟩ := bind_eq_ok h
  exact ⟨hf s a ha, hg a s' hb⟩

theorem Demands.imp (hf : Demands P f) (h : P → Q) : Demands Q f := fun s s' hs => h (hf s s' hs)

end Conditions

/-! ## Order -/

section Order

variable {f g h : σ → Except ε σ}

/-- The order of `f` and `g` does not matter. -/
def Commutes (f g : σ → Except ε σ) : Prop := f >=> g = g >=> f

theorem commutes_pure : Commutes (pure : σ → Except ε σ) g := by
  unfold Commutes
  rw [fish_pipe, fish_pure]

theorem Commutes.symm (hfg : Commutes f g) : Commutes g f := Eq.symm hfg

theorem Commutes.comp (hg : Commutes f g) (hh : Commutes f h) : Commutes f (g >=> h) := by
  unfold Commutes at *
  calc f >=> g >=> h = (f >=> g) >=> h := (fish_assoc f g h).symm
    _ = g >=> f >=> h := by rw [hg, fish_assoc]
    _ = (g >=> h) >=> f := by rw [hh, fish_assoc]

end Order

/-! ## Runs side by side -/

section Mirrors

variable {τ : Type} {π : σ → τ} {P Q : Prop} {f f' : σ → Except ε σ} {g g' : τ → Except ε τ}

/-- `f` succeeds as `g` does on the part `π`, if `Q` holds, and not otherwise. -/
def Mirrors (π : σ → τ) (Q : Prop) (f : σ → Except ε σ) (g : τ → Except ε τ) : Prop :=
  ∀ s t, (∃ s', f s = .ok s' ∧ π s' = t) ↔ Q ∧ g (π s) = .ok t

theorem Mirrors.comp (hf : Mirrors π P f g) (hf' : Mirrors π Q f' g') :
    Mirrors π (P ∧ Q) (f >=> f') (g >=> g') := by
  intro s t
  constructor
  · rintro ⟨s'', hrun, rfl⟩
    obtain ⟨s', hs', hs''⟩ := bind_eq_ok hrun
    obtain ⟨hP, hg⟩ := (hf s (π s')).mp ⟨s', hs', rfl⟩
    obtain ⟨hQ, hg'⟩ := (hf' s' (π s'')).mp ⟨s'', hs'', rfl⟩
    exact ⟨⟨hP, hQ⟩, bind_eq_ok_iff.mpr ⟨π s', hg, hg'⟩⟩
  · rintro ⟨⟨hP, hQ⟩, hrun⟩
    obtain ⟨t', hg, hg'⟩ := bind_eq_ok hrun
    obtain ⟨s', hs', rfl⟩ := (hf s t').mpr ⟨hP, hg⟩
    obtain ⟨s'', hs'', rfl⟩ := (hf' s' t).mpr ⟨hQ, hg'⟩
    exact ⟨s'', bind_eq_ok_iff.mpr ⟨s', hs', hs''⟩, rfl⟩

theorem Mirrors.congr (hf : Mirrors π P f g) (h : P ↔ Q) : Mirrors π Q f g := by
  intro s t
  rw [hf s t, h]

/-- A step without a condition of its own, before others. -/
theorem Mirrors.then (hf : Mirrors π True f g) (hf' : Mirrors π Q f' g') :
    Mirrors π Q (f >=> f') (g >=> g') := (hf.comp hf').congr (iff_of_eq (true_and Q))

/-- A step without a condition of its own, after others. -/
theorem Mirrors.before (hf : Mirrors π Q f g) (hf' : Mirrors π True f' g') :
    Mirrors π Q (f >=> f') (g >=> g') := (hf.comp hf').congr (iff_of_eq (and_true Q))

end Mirrors

/-! ## Histories -/

section Histories

variable {ι : Type} {step : σ → ι → σ}

/-- Every input of a history meets `P` in the state that it finds. -/
def Along (step : σ → ι → σ) (P : σ → ι → Prop) : List ι → σ → Prop
  | [], _ => True
  | i :: is, s => P s i ∧ Along step P is (step s i)

/-- Two conditions that one step makes equivalent under an invariant it keeps are equivalent along
    every history. -/
theorem Along.iff_of_invariant {P Q R : σ → ι → Prop} {inv : σ → Prop}
    (hstep : ∀ s i, inv s → P s i → (Q s i ↔ R s i) ∧ inv (step s i)) (is : List ι) (s : σ)
    (hinv : inv s) (h : Along step P is s) : Along step Q is s ↔ Along step R is s := by
  induction is generalizing s with
  | nil => exact Iff.rfl
  | cons i is ih =>
    obtain ⟨hP, hrest⟩ := h
    obtain ⟨hiff, hnext⟩ := hstep s i hinv hP
    exact and_congr hiff (ih (step s i) hnext hrest)

end Histories

end Lib
