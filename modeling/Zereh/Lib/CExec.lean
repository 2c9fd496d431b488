/-
  Running C text: the meaning of `Code` over a host.

  The host supplies the objects and functions in scope. A call changes the state of the host and
  gives a value, or leaves the program for good, as a tail call does. `exec` runs a block; when it
  looks for a label it skips statements until it finds it, which is how `switch` enters its body.
  Arguments are evaluated from left to right.
-/
import Zereh.Lib.Checked
import Zereh.Lib.CSyntax

namespace Lib.CText

/-- Values: integers, character pointers by the array they point to, addresses of objects. The array
    of a literal ends in a NUL. -/
inductive Val (ι : Type) where
  | int (n : Nat)
  | bytes (s : List UInt8)
  | addr (x : ι)

/-- A value, or the program has been left. -/
inductive Out (ρ α : Type) where
  | val (a : α)
  | leave (r : ρ)

/-- How a block ends. -/
inductive Flow (ι : Type) where
  | next
  | brk
  | ret (v : Val ι)

structure Host (ι σ ρ : Type) where
  ident : ι → Option (Val ι)
  member : ι → ι → Option (Val ι)
  call : ι → List (Val ι) → σ → Checked (Out ρ (Val ι) × σ)

variable {ι σ ρ α β : Type}

/-- Go on with the value, unless the program has been left. -/
def andThen (x : Checked (Out ρ α × σ)) (f : α → σ → Checked (Out ρ β × σ)) :
    Checked (Out ρ β × σ) :=
  match x with
  | .error e => .error e
  | .ok (.leave r, s) => .ok (.leave r, s)
  | .ok (.val a, s) => f a s

@[simp] theorem andThen_val (a : α) (s : σ) (f : α → σ → Checked (Out ρ β × σ)) :
    andThen (.ok (.val a, s)) f = f a s := rfl

theorem andThen_assoc {γ : Type} (x : Checked (Out ρ α × σ)) (f : α → σ → Checked (Out ρ β × σ))
    (g : β → σ → Checked (Out ρ γ × σ)) :
    andThen (andThen x f) g = andThen x fun a s => andThen (f a s) g := by
  match x with
  | .error _ => rfl
  | .ok (.leave _, _) => rfl
  | .ok (.val _, _) => rfl

/-- A value that must exist. -/
def known (v : Option α) (s : σ) : Checked (Out ρ α × σ) :=
  match v with
  | some a => .ok (.val a, s)
  | none => .error .stuck

def truth : Val ι → Bool
  | .int n => n ≠ 0
  | _ => true

section Run

variable [DecidableEq ι] (host : Host ι σ ρ)

mutual

def eval (locals : List (ι × Val ι)) : Expr ι → σ → Checked (Out ρ (Val ι) × σ)
  | .int n, s => .ok (.val (.int n), s)
  | .str t, s => .ok (.val (.bytes (t ++ [0])), s)
  | .ident x, s => known ((locals.lookup x).or (host.ident x)) s
  | .addrOf x, s => .ok (.val (.addr x), s)
  | .member x f, s => known (host.member x f) s
  | .not e, s =>
      andThen (eval locals e s) fun v s => .ok (.val (.int (if truth v then 0 else 1)), s)
  | .call f args, s => andThen (evalArgs locals args s) fun vs s => host.call f vs s

def evalArgs (locals : List (ι × Val ι)) : List (Expr ι) → σ → Checked (Out ρ (List (Val ι)) × σ)
  | [], s => .ok (.val [], s)
  | e :: es, s =>
      andThen (eval locals e s) fun v s =>
        andThen (evalArgs locals es s) fun vs s => .ok (.val (v :: vs), s)

end

/-- Run a block. With `some l` the label `l` is looked for first. -/
def exec : Code ι → Option (Option Nat) → List (ι × Val ι) → σ → Checked (Out ρ (Flow ι) × σ)
  | .done, _, _, s => .ok (.val .next, s)
  | .label l k, seek, locals, s => exec k (if seek = some l then none else seek) locals s
  | .decl x e k, none, locals, s =>
      andThen (eval host locals e s) fun v s => exec k none ((x, v) :: locals) s
  | .expr e k, none, locals, s => andThen (eval host locals e s) fun _ s => exec k none locals s
  | .ret e _, none, locals, s => andThen (eval host locals e s) fun v s => .ok (.val (.ret v), s)
  | .brk _, none, _, s => .ok (.val .brk, s)
  | .ite c body k, none, locals, s =>
      andThen (eval host locals c s) fun v s =>
        if truth v then
          andThen (exec body none locals s) fun flow s =>
            match flow with
            | .next => exec k none locals s
            | flow => .ok (.val flow, s)
        else exec k none locals s
  | .switch e body k, none, locals, s =>
      andThen (eval host locals e s) fun v s =>
        match v with
        | .int n =>
            let l := if some n ∈ body.labels then some n else none
            andThen (exec body (some l) locals s) fun flow s =>
              match flow with
              | .ret v => .ok (.val (.ret v), s)
              | _ => exec k none locals s
        | _ => .error .stuck
  | .decl _ _ k, some l, locals, s | .expr _ k, some l, locals, s | .ret _ k, some l, locals, s
  | .brk k, some l, locals, s | .ite _ _ k, some l, locals, s | .switch _ _ k, some l, locals, s =>
      exec k (some l) locals s

/-! ## One rule for each statement -/

section Rules

variable {k body : Code ι} {e : Expr ι} {locals : List (ι × Val ι)} {s : σ}

theorem exec_label (l : Option Nat) (seek : Option (Option Nat)) :
    exec host (.label l k) seek locals s =
      exec host k (if seek = some l then none else seek) locals s := rfl

theorem exec_decl (x : ι) : exec host (.decl x e k) none locals s =
    andThen (eval host locals e s) fun v s => exec host k none ((x, v) :: locals) s := rfl

theorem exec_expr : exec host (.expr e k) none locals s =
    andThen (eval host locals e s) fun _ s => exec host k none locals s := rfl

theorem exec_ret : exec host (.ret e k) none locals s =
    andThen (eval host locals e s) fun v s => .ok (.val (.ret v), s) := rfl

theorem exec_ite : exec host (.ite e body k) none locals s =
    andThen (eval host locals e s) fun v s =>
      if truth v then
        andThen (exec host body none locals s) fun flow s =>
          match flow with
          | .next => exec host k none locals s
          | flow => .ok (.val flow, s)
      else exec host k none locals s := rfl

theorem exec_switch : exec host (.switch e body k) none locals s =
    andThen (eval host locals e s) fun v s =>
      match v with
      | .int n =>
          andThen (exec host body (some (if some n ∈ body.labels then some n else none)) locals s)
            fun flow s =>
              match flow with
              | .ret v => .ok (.val (.ret v), s)
              | _ => exec host k none locals s
      | _ => .error .stuck := rfl

end Rules

/-- Run a function body: the value it returns, or how the program was left. -/
def runBody (code : Code ι) (s : σ) : Checked (Out ρ (Val ι) × σ) :=
  andThen (exec host code none [] s) fun flow s =>
    match flow with
    | .ret v => .ok (.val v, s)
    | _ => .error .stuck

end Run

end Lib.CText
