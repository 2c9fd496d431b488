/-
  Reading C text: characters to tokens.

  The lexer is a transducer: `step` takes a mode and a character to the next mode and the tokens
  finished by it, so that the tokens of a concatenation are found piece by piece (`run_append`).
  It knows identifiers, keywords, decimal, octal and hexadecimal integers with a suffix, string
  literals with the simple escapes, block comments and the punctuation of a function body without
  arithmetic. A word is looked up in `words`, the reserved words and the names in scope; one that
  is not there has no token, as an undeclared name does not compile.

  `literal` reads one string literal and stops behind it.

  `run_decimal` and `run_hexPadded` read back what `printf` writes for `%u` and `%016llx`.
-/
import Mathlib.Data.Nat.Digits.Defs
import Zereh.Lib.Bytes
import Zereh.Lib.CStdlib

namespace Lib.CText

inductive Keyword where
  | caseK
  | defaultK
  | returnK
  | breakK
  | ifK
  | switchK
  deriving DecidableEq, Repr

inductive Punct where
  | lparen
  | rparen
  | lbrace
  | rbrace
  | comma
  | semi
  | colon
  | bang
  | amp
  | assign
  deriving DecidableEq, Repr

inductive Token (ι : Type) where
  | ident (x : ι)
  | kw (k : Keyword)
  | int (n : Nat)
  | str (s : List UInt8)
  | punct (p : Punct)
  | arrow
  deriving DecidableEq, Repr

/-- What has been read of an unfinished token. -/
inductive Mode where
  | start
  | word (acc : List UInt8)
  | zero
  | hexStart
  | num (base val : Nat)
  | suffix (val : Nat)
  | str (acc : List UInt8)
  | strEsc (acc : List UInt8)
  | slash
  | comment
  | commentStar
  | minus
  deriving DecidableEq, Repr

def isAlpha (c : UInt8) : Bool := (97 ≤ c && c ≤ 122) || (65 ≤ c && c ≤ 90) || c == 95

/-- A character that ends a word or a number. -/
def isDelim (c : UInt8) : Bool := !(isAlpha c || isDigit c)

def punctOf (c : UInt8) : Option Punct :=
  match c with
  | 40 => some .lparen
  | 41 => some .rparen
  | 123 => some .lbrace
  | 125 => some .rbrace
  | 44 => some .comma
  | 59 => some .semi
  | 58 => some .colon
  | 33 => some .bang
  | 38 => some .amp
  | 61 => some .assign
  | _ => none

/-- Digit value in base 16. -/
def digitVal (c : UInt8) : Option Nat :=
  if 48 ≤ c ∧ c ≤ 57 then some (c.toNat - 48)
  else if 97 ≤ c ∧ c ≤ 102 then some (c.toNat - 87)
  else if 65 ≤ c ∧ c ≤ 70 then some (c.toNat - 55)
  else none

/-- `u`, `U`, `l`, `L`. -/
def isSuffix (c : UInt8) : Bool := c == 117 || c == 85 || c == 108 || c == 76

/-- The character that a simple escape denotes. -/
def escape (c : UInt8) : Option UInt8 :=
  match c with
  | 97 => some 7
  | 98 => some 8
  | 102 => some 12
  | 110 => some 10
  | 114 => some 13
  | 116 => some 9
  | 118 => some 11
  | 92 => some 92
  | 39 => some 39
  | 34 => some 34
  | 63 => some 63
  | _ => none

/-- The reserved words. -/
def reserved {ι : Type} : List (List UInt8 × Token ι) :=
  [(ascii "case", .kw .caseK), (ascii "default", .kw .defaultK), (ascii "return", .kw .returnK),
    (ascii "break", .kw .breakK), (ascii "if", .kw .ifK), (ascii "switch", .kw .switchK)]

/-- The token of a word. -/
def wordOf {ι : Type} (table : List (List UInt8 × Token ι)) (w : List UInt8) : Option (Token ι) :=
  (table.find? fun row => row.1 = w).map Prod.snd

section Lexer

variable {ι : Type} (words : List UInt8 → Option (Token ι))

/-- The token of a finished word or number. -/
def flush : Mode → Option (Token ι)
  | .word w => words w
  | .zero => some (.int 0)
  | .num _ v => some (.int v)
  | .suffix v => some (.int v)
  | _ => none

/-- The first character of a token. -/
def first (c : UInt8) : Option (Mode × List (Token ι)) :=
  if c = 32 ∨ (9 ≤ c ∧ c ≤ 13) then some (.start, [])
  else if isAlpha c then some (.word [c], [])
  else if c = 48 then some (.zero, [])
  else if isDigit c then some (.num 10 (c.toNat - 48), [])
  else if c = 34 then some (.str [], [])
  else if c = 47 then some (.slash, [])
  else if c = 45 then some (.minus, [])
  else (punctOf c).map fun p => (.start, [.punct p])

/-- A character after a finished word or number. -/
def endToken (m : Mode) (c : UInt8) : Option (Mode × List (Token ι)) := do
  let t ← flush words m
  let (m', ts) ← first c
  some (m', t :: ts)

/-- A character inside a number: another digit, a suffix, or its end. -/
def number (base val : Nat) (c : UInt8) : Option (Mode × List (Token ι)) :=
  match digitVal c with
  | some d => if d < base then some (.num base (base * val + d), []) else none
  | none =>
      if isSuffix c then some (.suffix val, [])
      else if isDelim c then endToken words (.num base val) c
      else none

def step (m : Mode) (c : UInt8) : Option (Mode × List (Token ι)) :=
  match m with
  | .start => first c
  | .word acc => if isDelim c then endToken words m c else some (.word (acc ++ [c]), [])
  | .zero => if c = 120 ∨ c = 88 then some (.hexStart, []) else number words 8 0 c
  | .hexStart => (digitVal c).map fun d => (.num 16 d, [])
  | .num base val => number words base val c
  | .suffix val =>
      if isSuffix c then some (.suffix val, [])
      else if isDelim c then endToken words m c
      else none
  | .str acc =>
      if c = 34 then some (.start, [.str acc])
      else if c = 92 then some (.strEsc acc, [])
      else if c = 10 then none
      else some (.str (acc ++ [c]), [])
  | .strEsc acc => (escape c).map fun b => (.str (acc ++ [b]), [])
  | .slash => if c = 42 then some (.comment, []) else none
  | .comment => some (if c = 42 then .commentStar else .comment, [])
  | .commentStar => some (if c = 47 then .start else if c = 42 then .commentStar else .comment, [])
  | .minus => if c = 62 then some (.start, [.arrow]) else none

/-- The tokens finished by a text, and the mode after it. -/
def run : Mode → List UInt8 → Option (Mode × List (Token ι))
  | m, [] => some (m, [])
  | m, c :: cs => do
      let (m₁, t₁) ← step words m c
      let (m₂, t₂) ← run m₁ cs
      some (m₂, t₁ ++ t₂)

/-- The tokens of a whole text. -/
def lex (text : List UInt8) : Option (List (Token ι)) := do
  let (m, ts) ← run words .start text
  if m = .start then some ts else (flush words m).map fun t => ts ++ [t]

/-- The string literal that a text goes on with: the bytes it denotes, and the text behind its
    closing quote. -/
def literal : Mode → List UInt8 → Option (List UInt8 × List UInt8)
  | _, [] => none
  | m, c :: cs =>
    match step words m c with
    | some (m', []) => literal m' cs
    | some (_, [.str s]) => some (s, cs)
    | _ => none

variable {words}

theorem run_append {m m₁ m₂ : Mode} {a b : List UInt8} {t₁ t₂ : List (Token ι)}
    (ha : run words m a = some (m₁, t₁)) (hb : run words m₁ b = some (m₂, t₂)) :
    run words m (a ++ b) = some (m₂, t₁ ++ t₂) := by
  induction a generalizing m t₁ with
  | nil =>
    cases ha
    exact hb
  | cons c cs ih =>
    simp only [run, Option.bind_eq_bind, Option.bind_eq_some_iff, Option.some.injEq] at ha
    obtain ⟨⟨m', t'⟩, hstep, ⟨m'', t''⟩, hrest, heq⟩ := ha
    obtain ⟨rfl, rfl⟩ := Prod.mk.inj heq
    simp only [List.cons_append, run, hstep, Option.bind_eq_bind, Option.bind_some, ih hrest,
      List.append_assoc]

/-- A text without a finished token is part of the literal. -/
theorem literal_of_run {m m' : Mode} {text : List UInt8} (h : run words m text = some (m', []))
    (rest : List UInt8) : literal words m (text ++ rest) = literal words m' rest := by
  induction text generalizing m with
  | nil =>
    cases h
    rfl
  | cons c cs ih =>
    simp only [run, Option.bind_eq_bind, Option.bind_eq_some_iff, Option.some.injEq] at h
    obtain ⟨⟨m₁, t₁⟩, hstep, ⟨m₂, t₂⟩, hrest, heq⟩ := h
    obtain ⟨rfl, hts⟩ := Prod.mk.inj heq
    obtain ⟨rfl, rfl⟩ := List.append_eq_nil_iff.mp hts
    simp only [List.cons_append, literal, hstep, ih hrest]

theorem lex_of_run {text : List UInt8} {ts : List (Token ι)}
    (h : run words .start text = some (.start, ts)) : lex words text = some ts := by
  simp [lex, h]

theorem digitVal_of_isDelim {c : UInt8} (h : isDelim c = true) : digitVal c = none := by
  unfold isDelim isAlpha isDigit at h
  unfold digitVal
  grind

theorem isSuffix_of_isDelim {c : UInt8} (h : isDelim c = true) : isSuffix c = false := by
  by_contra hsuffix
  simp only [Bool.not_eq_false, isSuffix, Bool.or_eq_true, beq_iff_eq] at hsuffix
  rcases hsuffix with ((rfl | rfl) | rfl) | rfl <;> exact absurd h (by decide)

theorem digitVal_lt {c : UInt8} {d : Nat} (h : digitVal c = some d) : d < 16 := by
  unfold digitVal at h
  split_ifs at h <;> simp only [Option.some.injEq, UInt8.le_iff_toNat_le] at * <;> grind

/-- A mode that gives up its number at a byte and reads the byte afresh. -/
theorem run_of_flush {m m' : Mode} {val : Nat} {c : UInt8} {cs : List UInt8} {ts : List (Token ι)}
    (hstep : ∀ m₁ t₁, step words .start c = some (m₁, t₁) →
      step words m c = some (m₁, .int val :: t₁))
    (h : run words .start (c :: cs) = some (m', ts)) :
    run words m (c :: cs) = some (m', .int val :: ts) := by
  simp only [run, Option.bind_eq_bind, Option.bind_eq_some_iff, Option.some.injEq] at h ⊢
  obtain ⟨⟨m₁, t₁⟩, hfirst, ⟨m₂, t₂⟩, hrest, heq⟩ := h
  obtain ⟨rfl, rfl⟩ := Prod.mk.inj heq
  exact ⟨(m₁, .int val :: t₁), hstep m₁ t₁ hfirst, (m₂, t₂), hrest, rfl⟩

/-- A delimiter ends the number and is read afresh. -/
theorem run_after_number {base val : Nat} {text : List UInt8} {c : UInt8} {cs : List UInt8}
    {m' : Mode} {ts : List (Token ι)} (htext : text = c :: cs) (hc : isDelim c = true)
    (h : run words .start text = some (m', ts)) :
    run words (.num base val) text = some (m', .int val :: ts) := by
  subst htext
  have hdigit := digitVal_of_isDelim hc
  have hsuffix := isSuffix_of_isDelim hc
  refine run_of_flush (fun m₁ t₁ hfirst => ?_) h
  simp only [step] at hfirst ⊢
  simp [number, hdigit, hsuffix, hc, endToken, flush, hfirst]

/-! ## Numbers as `printf` writes them -/

/-- `%u` and `%zu`. -/
def decimal (n : Nat) : List UInt8 := (Nat.toDigits 10 n).map byteOf

/-- `%x`. -/
def hex (n : Nat) : List UInt8 := (Nat.toDigits 16 n).map byteOf

/-- `%016llx`. -/
def hexPadded (n : Nat) : List UInt8 := List.replicate (16 - (hex n).length) 48 ++ hex n

theorem digitVal_digitChar {d : Nat} (hd : d < 16) : digitVal (byteOf d.digitChar) = some d := by
  have h : ∀ d : Fin 16, digitVal (byteOf (Nat.digitChar d)) = some d.val := by decide
  exact h ⟨d, hd⟩

/-- The bytes of a number are digits. -/
theorem digit_of_mem_toDigits {base : Nat} (hb : 1 < base) (hbase : base ≤ 16) (n : Nat) {c : UInt8}
    (hc : c ∈ (Nat.toDigits base n).map byteOf) : ∃ d : Fin 16, c = byteOf (Nat.digitChar d) := by
  induction n using Nat.strongRecOn with
  | ind n ih =>
    rcases Nat.lt_or_ge n base with hlt | hge
    · rw [Nat.toDigits_of_lt_base hlt, List.map_singleton, List.mem_singleton] at hc
      exact ⟨⟨n, by omega⟩, hc⟩
    · rw [Nat.toDigits_of_base_le hb hge, List.map_append, List.map_singleton] at hc
      rcases List.mem_append.mp hc with hc | hc
      · exact ih (n / base) (Nat.div_lt_self (by omega) hb) hc
      · have hmod := Nat.mod_lt n (show 0 < base by omega)
        exact ⟨⟨n % base, by omega⟩, List.mem_singleton.mp hc⟩

/-- One digit inside a number. -/
theorem run_digit {base : Nat} (hbase : base ≤ 16) {d : Nat} (hd : d < base) (val : Nat) :
    run words (.num base val) [byteOf d.digitChar] = some (.num base (base * val + d), []) := by
  have hval := digitVal_digitChar (Nat.lt_of_lt_of_le hd hbase)
  simp [run, step, number, hval, hd]

/-- The digits of `n`, read from value 0. -/
theorem run_toDigits {base : Nat} (hb : 1 < base) (hbase : base ≤ 16) (n : Nat) :
    run words (.num base 0) ((Nat.toDigits base n).map byteOf) = some (.num base n, []) := by
  induction n using Nat.strongRecOn with
  | ind n ih =>
    rcases Nat.lt_or_ge n base with hlt | hge
    · rw [Nat.toDigits_of_lt_base hlt, List.map_singleton, run_digit hbase hlt, Nat.mul_zero,
        Nat.zero_add]
    · rw [Nat.toDigits_of_base_le hb hge, List.map_append, List.map_singleton]
      have hdiv : n / base < n := Nat.div_lt_self (by omega) hb
      have := run_append (ih _ hdiv) (run_digit hbase (Nat.mod_lt n (by omega)) (n / base))
      rwa [Nat.div_add_mod] at this

/-- The first digit of a decimal number that is not zero starts it. -/
theorem run_start_decimal {n : Nat} (hn : n ≠ 0) :
    run words .start (decimal n) = some (.num 10 n, []) := by
  unfold decimal
  induction n using Nat.strongRecOn with
  | ind n ih =>
    rcases Nat.lt_or_ge n 10 with hlt | hge
    · have h : ∀ d : Fin 10, d.val ≠ 0 →
          first (ι := ι) (byteOf (Nat.digitChar d)) = some (.num 10 d.val, []) := by
        intro d hd
        match d, hd with
        | 1, _ | 2, _ | 3, _ | 4, _ | 5, _ | 6, _ | 7, _ | 8, _ | 9, _ => rfl
      rw [Nat.toDigits_of_lt_base hlt, List.map_singleton]
      simp [run, step, h ⟨n, hlt⟩ hn]
    · rw [Nat.toDigits_of_base_le (by decide) hge, List.map_append, List.map_singleton]
      have hdiv : n / 10 < n := Nat.div_lt_self (by omega) (by decide)
      have hne : n / 10 ≠ 0 := by omega
      have := run_append (ih _ hdiv hne)
        (run_digit (by decide) (Nat.mod_lt n (by decide)) (n / 10))
      rwa [Nat.div_add_mod] at this

/-- A decimal number followed by a delimiter. -/
theorem run_decimal (n : Nat) {text : List UInt8} {c : UInt8} {cs : List UInt8} {m' : Mode}
    {ts : List (Token ι)} (htext : text = c :: cs) (hc : isDelim c = true)
    (h : run words .start text = some (m', ts)) :
    run words .start (decimal n ++ text) = some (m', .int n :: ts) := by
  by_cases hn : n = 0
  · subst hn
    -- a lone 0 is read as an octal number without further digits
    have hnum : run words (.num 8 0) text = some (m', .int 0 :: ts) :=
      run_after_number htext hc h
    have hstart : run words .start (decimal 0) = some (.zero, []) := rfl
    have hx : c ≠ 120 ∧ c ≠ 88 := by
      constructor <;> (rintro rfl; exact absurd hc (by decide))
    have hzero : run words .zero text = run words (.num 8 0) text := by
      rw [htext, run, run, step, step, if_neg (by simp [hx])]
    exact run_append hstart (hzero.trans hnum)
  · exact run_append (run_start_decimal hn) (run_after_number htext hc h)

/-- After `0x` the first digit behaves as one inside a hexadecimal number. -/
theorem run_hexStart {c : UInt8} {cs : List UInt8} (hc : (digitVal c).isSome) :
    run words .hexStart (c :: cs) = run words (.num 16 0) (c :: cs) := by
  obtain ⟨d, hd⟩ := Option.isSome_iff_exists.mp hc
  simp [run, step, number, hd, digitVal_lt hd]

theorem run_zeros (k : Nat) :
    run words (.num 16 0) (List.replicate k 48) = some (.num 16 0, []) := by
  induction k with
  | zero => rfl
  | succ k ih => exact run_append (a := [48]) (run_digit (d := 0) (by decide) (by decide) 0) ih

theorem run_hexPadded (n : Nat) :
    run words (.num 16 0) (hexPadded n) = some (.num 16 n, []) :=
  run_append (run_zeros _) (run_toDigits (by decide) (by decide) n)

/-- A hexadecimal number starts with a digit. -/
theorem hex_eq_cons (n : Nat) : ∃ c cs, hex n = c :: cs ∧ (digitVal c).isSome := by
  unfold hex
  induction n using Nat.strongRecOn with
  | ind n ih =>
    rcases Nat.lt_or_ge n 16 with hlt | hge
    · rw [Nat.toDigits_of_lt_base hlt]
      exact ⟨_, [], rfl, by rw [digitVal_digitChar hlt]; rfl⟩
    · obtain ⟨c, cs, h, hc⟩ := ih (n / 16) (Nat.div_lt_self (by omega) (by decide))
      rw [Nat.toDigits_of_base_le (by decide) hge, List.map_append, h]
      exact ⟨c, _, rfl, hc⟩

theorem hexPadded_eq_cons (n : Nat) : ∃ c cs, hexPadded n = c :: cs ∧ (digitVal c).isSome := by
  unfold hexPadded
  cases 16 - (hex n).length with
  | zero => exact hex_eq_cons n
  | succ k => exact ⟨48, _, rfl, by decide⟩

/-- A delimiter ends a number with a suffix and is read afresh. -/
theorem run_after_suffix {val : Nat} {text : List UInt8} {c : UInt8} {cs : List UInt8} {m' : Mode}
    {ts : List (Token ι)} (htext : text = c :: cs) (hc : isDelim c = true)
    (h : run words .start text = some (m', ts)) :
    run words (.suffix val) text = some (m', .int val :: ts) := by
  subst htext
  have hsuffix := isSuffix_of_isDelim hc
  refine run_of_flush (fun m₁ t₁ hfirst => ?_) h
  simp only [step] at hfirst ⊢
  simp [hsuffix, hc, endToken, flush, hfirst]

/-- `0x`, digits, a suffix and a delimiter. -/
theorem run_hexLiteral {digits sfx : List UInt8} {n : Nat}
    (hdigits : run words (.num 16 0) digits = some (.num 16 n, []))
    (hcons : ∃ c cs, digits = c :: cs ∧ (digitVal c).isSome)
    (hsfx : run words (.num 16 n) sfx = some (.suffix n, [])) {text : List UInt8} {c : UInt8}
    {cs : List UInt8} {m' : Mode} {ts : List (Token ι)} (htext : text = c :: cs)
    (hc : isDelim c = true) (h : run words .start text = some (m', ts)) :
    run words .start ([48, 120] ++ digits ++ sfx ++ text) = some (m', .int n :: ts) := by
  obtain ⟨d, ds, rfl, hd⟩ := hcons
  have hstart : run words .start [48, 120] = some (.hexStart, []) := rfl
  have hhex := run_append hstart ((run_hexStart hd).trans hdigits)
  exact run_append (run_append hhex hsfx) (run_after_suffix htext hc h)

end Lexer

end Lib.CText
