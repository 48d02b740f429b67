import PropTable.Program

/-!
A stack machine for postfix programs, over any kind of value.

Each variable pushes its value; each connective replaces its operands on the stack by its
own value, which is also recorded as a step.
-/

namespace PropTable

/-- What a replay computes: the value of each variable number, which may be missing, and of
each connective for its operands. -/
structure Algebra (α : Type) where
  leaf : Int → Except Fault α
  not : α → α
  binary : Binary → α → α → α

namespace Replay

/-- Applies a connective to the operands on top of a stack; the right operand lies above the
left one.  The result is its value and the stack below its operands. -/
def combine {α : Type} (alg : Algebra α) : Connective → List α → Option (α × List α)
  | .not, a :: rest => some (alg.not a, rest)
  | .binary op, b :: a :: rest => some (alg.binary op a b, rest)
  | _, _ => none

/-- Replays a token: the steps that it records, one or none, and the stack after it. -/
def step {α : Type} (alg : Algebra α) (stack : List α) :
    Token → Except Fault (List α × List α)
  | .var id => do
    let a ← alg.leaf id
    return ([], a :: stack)
  | .sign symbol => match Connective.ofSymbol? symbol with
    | none => .error (.unknownSymbol symbol)
    | some c => match combine alg c stack with
      | some (a, rest) => .ok ([a], a :: rest)
      | none => .error (.flaw (.operandsMissing symbol))

/-- Replays tokens in turn: all steps in order, and the final stack. -/
def run {α : Type} (alg : Algebra α) : List Token → List α → Except Fault (List α × List α)
  | [], stack => .ok ([], stack)
  | t :: rest, stack => do
    let (now, stack) ← step alg stack t
    let (later, stack) ← run alg rest stack
    return (now ++ later, stack)

theorem run_append {α : Type} (alg : Algebra α) (xs ys : List Token) (stack : List α) :
    run alg (xs ++ ys) stack = do
      let (steps, stack) ← run alg xs stack
      let (later, stack) ← run alg ys stack
      return (steps ++ later, stack) := by
  induction xs generalizing stack with
  | nil =>
    simp only [List.nil_append, run, bind, Except.bind, pure, Except.pure]
    cases run alg ys stack <;> rfl
  | cons x xs ih =>
    simp only [List.cons_append, run, ih, bind, Except.bind, pure, Except.pure]
    cases step alg stack x with
    | error e => rfl
    | ok r =>
      simp only
      cases run alg xs r.2 with
      | error e => rfl
      | ok s =>
        simp only
        cases run alg ys s.2 with
        | error e => rfl
        | ok t => simp only [List.append_assoc]

end Replay

end PropTable
