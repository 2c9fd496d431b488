/-
  Scripts that stop at the first command that fails, and the tree of directories and files they
  work on.

  A command is a step with an exit status. `script` runs a list of them as a shell does under `set -e`.
  `Triple P c Q E`: from a state with `P`, `c` succeeds in a state with `Q` or fails in one with `E`. A
  script meets a triple command by command (`Triple.cons`), and what every command keeps, however
  it ends, the script keeps (`Triple.script`).

  A path is the list of names from the root of the tree. `subdirs` lists the directories in a
  directory in the order of their names.
-/
import Mathlib.Data.List.Basic
import Mathlib.Data.List.Dedup
import Mathlib.Data.List.Infix
import Mathlib.Logic.Function.Basic
import Mathlib.Tactic.Common

namespace Lib

/-! ## Commands -/

/-- Whether the exit status is 0, and what is left. -/
abbrev Command (σ : Type) := σ → Bool × σ

section Commands

variable {σ : Type}

def script : List (Command σ) → Command σ
  | [], s => (true, s)
  | c :: cs, s => if (c s).1 then script cs (c s).2 else (false, (c s).2)

/-- `if p; then cs; fi`. -/
def whenever (p : σ → Bool) (cs : List (Command σ)) : Command σ :=
  fun s => if p s then script cs s else (true, s)

/-- `if ! p; then exit 1; fi`. -/
def require (p : σ → Bool) : Command σ := fun s => (p s, s)

def Triple (P : σ → Prop) (c : Command σ) (Q E : σ → Prop) : Prop :=
  ∀ s, P s → ((c s).1 = true → Q (c s).2) ∧ ((c s).1 = false → E (c s).2)

theorem script_cons (c : Command σ) (cs : List (Command σ)) (s : σ) :
    script (c :: cs) s = if (c s).1 then script cs (c s).2 else (false, (c s).2) := rfl

theorem script_singleton (c : Command σ) (s : σ) : script [c] s = c s := by
  rw [script_cons]
  split_ifs with h
  · exact Prod.ext h.symm rfl
  · exact Prod.ext (Bool.eq_false_iff.mpr h).symm rfl

theorem script_append (cs ds : List (Command σ)) (s : σ) :
    script (cs ++ ds) s = if (script cs s).1 then script ds (script cs s).2 else script cs s := by
  induction cs generalizing s with
  | nil => rfl
  | cons c cs ih =>
    rw [List.cons_append, script_cons, script_cons]
    by_cases h : (c s).1 = true
    · rw [if_pos h, if_pos h]
      exact ih (c s).2
    · rw [if_neg h, if_neg h]
      rfl

variable {P Q R E P' Q' E' : σ → Prop} {c : Command σ} {cs : List (Command σ)} {p : σ → Bool}

theorem Triple.imp (h : Triple P c Q E) (hP : ∀ s, P' s → P s) (hQ : ∀ s, Q s → Q' s)
    (hE : ∀ s, E s → E' s) : Triple P' c Q' E' := by
  intro s hs
  obtain ⟨hok, hfail⟩ := h s (hP s hs)
  exact ⟨fun heq => hQ _ (hok heq), fun heq => hE _ (hfail heq)⟩

theorem Triple.of_false (h : ∀ s, ¬P s) : Triple P c Q E := fun s hs => absurd hs (h s)

theorem Triple.nil (h : ∀ s, P s → Q s) : Triple P (script []) Q E := by
  intro s hs
  exact ⟨fun _ => h s hs, fun heq => by cases heq⟩

theorem Triple.cons (hc : Triple P c Q E) (hcs : Triple Q (script cs) R E) :
    Triple P (script (c :: cs)) R E := by
  intro s hs
  obtain ⟨hok, hfail⟩ := hc s hs
  rw [script_cons]
  cases heq : (c s).1 with
  | true => exact hcs _ (hok heq)
  | false => exact ⟨fun h => absurd h Bool.false_ne_true, fun _ => hfail heq⟩

theorem Triple.script (h : ∀ c ∈ cs, Triple P c P P) : Triple P (script cs) P P := by
  induction cs with
  | nil => exact Triple.nil fun _ hs => hs
  | cons c cs ih =>
    exact Triple.cons (h c List.mem_cons_self) (ih fun c hc => h c (List.mem_cons_of_mem _ hc))

theorem Triple.whenever (hthen : Triple (fun s => P s ∧ p s = true) (Lib.script cs) Q E)
    (helse : ∀ s, P s → p s = false → Q s) : Triple P (whenever p cs) Q E := by
  intro s hs
  unfold Lib.whenever
  cases hp : p s with
  | true => exact hthen s ⟨hs, hp⟩
  | false => exact ⟨fun _ => helse s hs hp, fun h => absurd h Bool.true_eq_false.mp⟩

theorem Triple.whenever_one (h : Triple P c P E) : Triple P (Lib.whenever p [c]) P E :=
  .whenever (.cons (h.imp (fun _ hs => hs.1) (fun _ hs => hs) fun _ hs => hs) (.nil fun _ hs => hs))
    fun _ hs _ => hs

theorem Triple.require (h : ∀ s, P s → p s = true → Q s) (hE : ∀ s, P s → E s) :
    Triple P (require p) Q E :=
  fun s hs => ⟨h s hs, fun _ => hE s hs⟩

end Commands

/-! ## Files -/

abbrev Path := List (List UInt8)

structure FileTree where
  dirs : List Path
  files : Path → Option (List UInt8)

namespace FileTree

variable (t : FileTree) (p : Path)

/-- `fopen` for writing gives a file: its directory is there, and it is no directory. -/
def writable : Bool := decide (p ≠ [] ∧ p.dropLast ∈ t.dirs ∧ p ∉ t.dirs)

/-- `[[ -d p ]]`. -/
def isDir : Bool := decide (p ∈ t.dirs)

def put (content : List UInt8) : FileTree := { t with files := Function.update t.files p (some content) }

def remove : FileTree := { t with files := Function.update t.files p none }

/-- `mkdir -p`. -/
def mkdirAll : FileTree := { t with dirs := p.inits ++ t.dirs }

/-- `rm -rf`, where it may leave what `left` says. -/
def removeAll (left : Path → Bool) : FileTree where
  dirs := t.dirs.filter fun q => !p.isPrefixOf q || left q
  files := fun q => if p.isPrefixOf q && !left q then none else t.files q

variable {t p}

theorem isDir_iff : t.isDir p = true ↔ p ∈ t.dirs := decide_eq_true_iff

theorem files_removeAll {left : Path → Bool} {q : Path} (h : ¬p <+: q) :
    (t.removeAll p left).files q = t.files q := by
  have hunder : p.isPrefixOf q = false := by
    rw [Bool.eq_false_iff]
    exact fun hq => h (List.isPrefixOf_iff_prefix.mp hq)
  show (if p.isPrefixOf q && !left q then none else t.files q) = t.files q
  rw [hunder]
  rfl

theorem mem_dirs_removeAll {left : Path → Bool} {q : Path} (h : q ∈ (t.removeAll p left).dirs) :
    q ∈ t.dirs ∧ (p <+: q → left q = true) := by
  obtain ⟨hmem, hkept⟩ := List.mem_filter.mp h
  refine ⟨hmem, fun hunder => ?_⟩
  rw [List.isPrefixOf_iff_prefix.mpr hunder] at hkept
  exact hkept

variable (t p)

/-- Byte order of the last names. -/
def nameLe (p q : Path) : Bool :=
  !(q.getLastD []).lex (p.getLastD []) fun a b => Nat.blt a.toNat b.toNat

/-- `find p -mindepth 1 -maxdepth 1 -type d | sort`. -/
def subdirs : List Path :=
  (t.dirs.filter fun q => decide (q ≠ [] ∧ q.dropLast = p)).dedup.mergeSort nameLe

end FileTree

end Lib
