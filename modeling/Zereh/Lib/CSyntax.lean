/-
  Reading C text: tokens to statements.

  `Code` is the body of a function without loops: labels, declarations, expression statements,
  `return`, `break`, `if` without `else`, and `switch`. A statement carries what follows it in
  its block, so a body is one term and a run over it is a structural recursion. Case labels
  stand directly in the body of a `switch`; one that occurs twice there, or anywhere else, does
  not parse.

  The parser is recursive descent on a fuel of twice the number of tokens. There is one rule
  for each kind of statement (`parses_case` and so on), for every fuel from some point on.
-/
import Zereh.Lib.CLex

namespace Lib.CText

inductive Expr (ι : Type) where
  | int (n : Nat)
  | str (s : List UInt8)
  | ident (x : ι)
  | addrOf (x : ι)
  | member (x f : ι)
  | not (e : Expr ι)
  | call (f : ι) (args : List (Expr ι))

/-- Statements, each with the rest of its block. The label `none` is `default`. -/
inductive Code (ι : Type) where
  | done
  | label (l : Option Nat) (k : Code ι)
  | decl (x : ι) (e : Expr ι) (k : Code ι)
  | expr (e : Expr ι) (k : Code ι)
  | ret (e : Expr ι) (k : Code ι)
  | brk (k : Code ι)
  | ite (cond : Expr ι) (body k : Code ι)
  | switch (e : Expr ι) (body k : Code ι)

variable {ι : Type}

/-- The labels that stand directly in a block. -/
def Code.labels : Code ι → List (Option Nat)
  | .done => []
  | .label l k => l :: k.labels
  | .decl _ _ k | .expr _ k | .ret _ k | .brk k | .ite _ _ k | .switch _ _ k => k.labels

mutual

/-- The calls in an expression, each with its arguments. -/
def Expr.calls : Expr ι → List (ι × List (Expr ι))
  | .not e => e.calls
  | .call f args => (f, args) :: argCalls args
  | _ => []

def argCalls : List (Expr ι) → List (ι × List (Expr ι))
  | [] => []
  | e :: es => e.calls ++ argCalls es

end

/-- The calls in a block, wherever they stand. -/
def Code.calls : Code ι → List (ι × List (Expr ι))
  | .done => []
  | .label _ k | .brk k => k.calls
  | .decl _ e k | .expr e k | .ret e k => e.calls ++ k.calls
  | .ite e body k | .switch e body k => e.calls ++ (body.calls ++ k.calls)

abbrev Tokens (ι : Type) := List (Token ι)

mutual

/-- An expression and the tokens after it. -/
def parseExpr : Nat → Tokens ι → Option (Expr ι × Tokens ι)
  | 0, _ => none
  | n + 1, ts =>
    match ts with
    | .punct .bang :: ts => do
        let (e, ts) ← parseExpr n ts
        some (.not e, ts)
    | .punct .amp :: .ident x :: ts => some (.addrOf x, ts)
    | .int v :: ts => some (.int v, ts)
    | .str s :: ts => some (.str s, ts)
    | .ident f :: .punct .lparen :: ts => do
        let (args, ts) ← parseArgs n ts
        some (.call f args, ts)
    | .ident x :: .arrow :: .ident f :: ts => some (.member x f, ts)
    | .ident x :: ts => some (.ident x, ts)
    | _ => none

/-- Arguments up to the closing parenthesis. -/
def parseArgs : Nat → Tokens ι → Option (List (Expr ι) × Tokens ι)
  | 0, _ => none
  | n + 1, ts => do
    let (e, ts) ← parseExpr n ts
    match ts with
    | .punct .comma :: ts => do
        let (es, ts) ← parseArgs n ts
        some (e :: es, ts)
    | .punct .rparen :: ts => some ([e], ts)
    | _ => none

end

/-- The statements of a block and the tokens after it, the closing brace first. -/
def parseCode : Nat → Tokens ι → Option (Code ι × Tokens ι)
  | 0, _ => none
  | n + 1, ts =>
    match ts with
    | [] => some (.done, [])
    | .punct .rbrace :: ts => some (.done, .punct .rbrace :: ts)
    | .kw .caseK :: .int v :: .punct .colon :: ts => do
        let (k, ts) ← parseCode n ts
        some (.label (some v) k, ts)
    | .kw .defaultK :: .punct .colon :: ts => do
        let (k, ts) ← parseCode n ts
        some (.label none k, ts)
    | .kw .breakK :: .punct .semi :: ts => do
        let (k, ts) ← parseCode n ts
        some (.brk k, ts)
    | .kw .returnK :: ts => do
        let (e, ts) ← parseExpr n ts
        match ts with
        | .punct .semi :: ts => do
            let (k, ts) ← parseCode n ts
            some (.ret e k, ts)
        | _ => none
    | .kw .ifK :: .punct .lparen :: ts => do
        let (cond, ts) ← parseExpr n ts
        match ts with
        | .punct .rparen :: .punct .lbrace :: ts => do
            let (body, ts) ← parseCode n ts
            match ts with
            | .punct .rbrace :: ts => do
                let (k, ts) ← parseCode n ts
                if body.labels = [] then some (.ite cond body k, ts) else none
            | _ => none
        | _ => none
    | .kw .switchK :: .punct .lparen :: ts => do
        let (e, ts) ← parseExpr n ts
        match ts with
        | .punct .rparen :: .punct .lbrace :: ts => do
            let (body, ts) ← parseCode n ts
            match ts with
            | .punct .rbrace :: ts => do
                let (k, ts) ← parseCode n ts
                if body.labels.Nodup then some (.switch e body k, ts) else none
            | _ => none
        | _ => none
    | .ident _ :: .ident x :: .punct .assign :: ts => do
        let (e, ts) ← parseExpr n ts
        match ts with
        | .punct .semi :: ts => do
            let (k, ts) ← parseCode n ts
            some (.decl x e k, ts)
        | _ => none
    | ts => do
        let (e, ts) ← parseExpr n ts
        match ts with
        | .punct .semi :: ts => do
            let (k, ts) ← parseCode n ts
            some (.expr e k, ts)
        | _ => none

/-- The body of a function. -/
def parse (ts : Tokens ι) : Option (Code ι) :=
  match parseCode (2 * ts.length + 2) ts with
  | some (k, []) => if k.labels = [] then some k else none
  | _ => none

/-! ## One rule for each statement -/

/-- The expression is read whenever the fuel is at least `N`. -/
def ParsesExpr (N : Nat) (ts : Tokens ι) (e : Expr ι) (us : Tokens ι) : Prop :=
  ∀ n, N ≤ n → parseExpr n ts = some (e, us)

/-- The block is read whenever the fuel is at least `N`. -/
def Parses (N : Nat) (ts : Tokens ι) (k : Code ι) (us : Tokens ι) : Prop :=
  ∀ n, N ≤ n → parseCode n ts = some (k, us)

section Rules

variable {N M v : Nat} {ts ts' us us' : Tokens ι} {k body : Code ι} {e : Expr ι}

theorem Parses.mono (h : Parses N ts k us) (hle : N ≤ M) : Parses M ts k us :=
  fun n hn => h n (hle.trans hn)

theorem ParsesExpr.mono (h : ParsesExpr N ts e us) (hle : N ≤ M) : ParsesExpr M ts e us :=
  fun n hn => h n (hle.trans hn)

/-- A step of the parser takes one unit of fuel. -/
theorem Parses.of_succ (h : ∀ n, N ≤ n → parseCode (n + 1) ts = some (k, us)) :
    Parses (N + 1) ts k us := by
  intro n hn
  obtain ⟨m, rfl⟩ : ∃ m, n = m + 1 := ⟨n - 1, by omega⟩
  exact h m (by omega)

theorem parses_rbrace : Parses 1 (.punct .rbrace :: ts) .done (.punct .rbrace :: ts) :=
  .of_succ fun _ _ => rfl

theorem parses_case (h : Parses N ts k ts') :
    Parses (N + 1) (.kw .caseK :: .int v :: .punct .colon :: ts) (.label (some v) k) ts' := by
  refine .of_succ fun n hn => ?_
  change Option.bind (parseCode n ts) _ = _
  rw [h n hn]
  rfl

theorem parses_default (h : Parses N ts k ts') :
    Parses (N + 1) (.kw .defaultK :: .punct .colon :: ts) (.label none k) ts' := by
  refine .of_succ fun n hn => ?_
  change Option.bind (parseCode n ts) _ = _
  rw [h n hn]
  rfl

theorem parses_break (h : Parses N ts k ts') :
    Parses (N + 1) (.kw .breakK :: .punct .semi :: ts) (.brk k) ts' := by
  refine .of_succ fun n hn => ?_
  change Option.bind (parseCode n ts) _ = _
  rw [h n hn]
  rfl

theorem parses_return (he : ParsesExpr N ts e (.punct .semi :: us)) (h : Parses N us k ts') :
    Parses (N + 1) (.kw .returnK :: ts) (.ret e k) ts' := by
  refine .of_succ fun n hn => ?_
  change Option.bind (parseExpr n ts) _ = _
  rw [he n hn]
  change Option.bind (parseCode n us) _ = _
  rw [h n hn]
  rfl

theorem parses_if (he : ParsesExpr N ts e (.punct .rparen :: .punct .lbrace :: us))
    (hbody : Parses N us body (.punct .rbrace :: us')) (hlabels : body.labels = [])
    (h : Parses N us' k ts') :
    Parses (N + 1) (.kw .ifK :: .punct .lparen :: ts) (.ite e body k) ts' := by
  refine .of_succ fun n hn => ?_
  change Option.bind (parseExpr n ts) _ = _
  rw [he n hn]
  change Option.bind (parseCode n us) _ = _
  rw [hbody n hn]
  change Option.bind (parseCode n us') _ = _
  rw [h n hn]
  exact if_pos hlabels

/-- A `switch` is read up to the test of its labels. -/
theorem parseCode_switch {n : Nat} (hn : N ≤ n)
    (he : ParsesExpr N ts e (.punct .rparen :: .punct .lbrace :: us))
    (hbody : Parses N us body (.punct .rbrace :: us')) (h : Parses N us' k ts') :
    parseCode (n + 1) (.kw .switchK :: .punct .lparen :: ts) =
      if body.labels.Nodup then some (.switch e body k, ts') else none := by
  change Option.bind (parseExpr n ts) _ = _
  rw [he n hn]
  change Option.bind (parseCode n us) _ = _
  rw [hbody n hn]
  change Option.bind (parseCode n us') _ = _
  rw [h n hn]
  rfl

theorem parses_switch (he : ParsesExpr N ts e (.punct .rparen :: .punct .lbrace :: us))
    (hbody : Parses N us body (.punct .rbrace :: us')) (hlabels : body.labels.Nodup)
    (h : Parses N us' k ts') :
    Parses (N + 1) (.kw .switchK :: .punct .lparen :: ts) (.switch e body k) ts' :=
  .of_succ fun _ hn => (parseCode_switch hn he hbody h).trans (if_pos hlabels)

/-- A declaration is read as its expression and what follows. -/
theorem parseCode_decl {n : Nat} {x y : ι} (hn : N ≤ n)
    (he : ParsesExpr N ts e (.punct .semi :: us)) :
    parseCode (n + 1) (.ident x :: .ident y :: .punct .assign :: ts) =
      (parseCode n us).map fun r => (.decl y e r.1, r.2) := by
  change Option.bind (parseExpr n ts) _ = _
  rw [he n hn]
  change Option.bind (parseCode n us) _ = _
  cases parseCode n us <;> rfl

theorem parses_decl {x y : ι} (he : ParsesExpr N ts e (.punct .semi :: us))
    (h : Parses N us k ts') :
    Parses (N + 1) (.ident x :: .ident y :: .punct .assign :: ts) (.decl y e k) ts' := by
  refine .of_succ fun n hn => ?_
  rw [parseCode_decl hn he, h n hn]
  rfl

theorem parses_call {f : ι}
    (he : ParsesExpr N (.ident f :: .punct .lparen :: ts) e (.punct .semi :: us))
    (h : Parses N us k ts') :
    Parses (N + 1) (.ident f :: .punct .lparen :: ts) (.expr e k) ts' := by
  refine .of_succ fun n hn => ?_
  change Option.bind (parseExpr n (.ident f :: .punct .lparen :: ts)) _ = _
  rw [he n hn]
  change Option.bind (parseCode n us) _ = _
  rw [h n hn]
  rfl

/-- No fuel from `N` on gives a block. -/
def Rejects (N : Nat) (ts : Tokens ι) : Prop := ∀ n, N ≤ n → parseCode n ts = none

theorem Rejects.of_succ (h : ∀ n, N ≤ n → parseCode (n + 1) ts = none) : Rejects (N + 1) ts := by
  intro n hn
  obtain ⟨m, rfl⟩ : ∃ m, n = m + 1 := ⟨n - 1, by omega⟩
  exact h m (by omega)

theorem rejects_switch (he : ParsesExpr N ts e (.punct .rparen :: .punct .lbrace :: us))
    (hbody : Parses N us body (.punct .rbrace :: us')) (hlabels : ¬ body.labels.Nodup)
    (h : Parses N us' k ts') : Rejects (N + 1) (.kw .switchK :: .punct .lparen :: ts) :=
  .of_succ fun _ hn => (parseCode_switch hn he hbody h).trans (if_neg hlabels)

theorem rejects_decl {x y : ι} (he : ParsesExpr N ts e (.punct .semi :: us)) (h : Rejects N us) :
    Rejects (N + 1) (.ident x :: .ident y :: .punct .assign :: ts) := by
  refine .of_succ fun n hn => ?_
  rw [parseCode_decl hn he, h n hn]
  rfl

theorem parse_of_rejects (h : Rejects N ts) (hN : N ≤ 2 * ts.length + 2) : parse ts = none := by
  simp [parse, h _ hN]

/-- Twice the number of tokens is fuel enough when it is at least what the rules ask for. -/
theorem parse_of_parses (h : Parses N ts k []) (hN : N ≤ 2 * ts.length + 2)
    (hlabels : k.labels = []) : parse ts = some k := by
  simp [parse, h _ hN, hlabels]

end Rules

end Lib.CText
