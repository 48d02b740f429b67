import PropTable.Number.Binary64
import PropTable.Replay

/-!
Assignments of truth values to numbered variables, and the values of a program under one.
-/

namespace PropTable

/-- The truth values of the variables, the first variable first. -/
abbrev Assignment := List Bool

/-- All assignments of `n` variables, from all true to all false; the last variable changes
fastest. -/
def assignments : Nat → List Assignment
  | 0 => [[]]
  | n + 1 => (assignments n).map (true :: ·) ++ (assignments n).map (false :: ·)

/-- All assignments of a number of variables, which must not be below zero. -/
def assignments? (n : Int) : Except Fault (List Assignment) :=
  if 0 ≤ n then .ok (assignments n.toNat)
  else if n ≤ -Number.Binary64.infinityBound then .error .countOutOfRange
  else .error .negativeCount

/-- Row `r` of the assignments of `n` variables: variable `i` is false where bit `n - i - 1`
of `r` is set. -/
def assignmentAt (n r : Nat) : Assignment :=
  (List.range n).map fun i => !r.testBit (n - i - 1)

namespace Assignment

/-- The value in a place.  Places count from zero, and those below zero count back from the
end. -/
def value? (a : Assignment) (place : Int) : Option Bool :=
  let fromStart := if 0 ≤ place then place else place + a.length
  if fromStart < 0 then none else a[fromStart.toNat]?

/-- The value of the variable with a number.  Number 1 is the first variable, number 0 the
last one, and the numbers below count back from that. -/
def value (a : Assignment) (id : Int) : Except Fault Bool :=
  match a.value? (id - 1) with
  | some b => .ok b
  | none => .error (.noValue (id - 1))

def algebra (a : Assignment) : Algebra Bool where
  leaf := a.value
  not b := !b
  binary op := op.apply

end Assignment

/-- The truth value of a connective for a list of operands, whose number has to be right. -/
def Connective.valueOf : Connective → List Bool → Except Fault Bool
  | .not, [a] => .ok (!a)
  | .binary op, [a, b] => .ok (op.apply a b)
  | c, operands => .error (.operandCount c operands.length)

/-- The values of the connectives of a program in turn, and the value of the whole, which is
the only one left at the end. -/
def Program.run (p : Program) (a : Assignment) : Except Fault (List Bool × Bool) := do
  let (steps, stack) ← Replay.run a.algebra p.tokens []
  match stack with
  | [result] => return (steps, result)
  | _ => throw (.flaw (.valuesLeft stack.length))

end PropTable
