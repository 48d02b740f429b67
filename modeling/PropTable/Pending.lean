import PropTable.Fault

/-!
The connectives that wait for their right operand, on one stack for each level of
parentheses.  A stack lists its connectives from the last one pushed to the first.
-/

namespace PropTable

inductive Grouping where
  | right
  | left
deriving DecidableEq, Repr

/-- Whether a pending connective leaves the stack before a new one is pushed.  A chain that
is grouped to the right keeps those of equal precedence waiting; one that is grouped to the
left lets them go, unless the new connective is a negation. -/
def Grouping.releases : Grouping → (pending new : Connective) → Bool
  | right, pending, new => new.precedence < pending.precedence
  | left, pending, new =>
    new.precedence < pending.precedence ||
      (new.arity == 2 && new.precedence == pending.precedence)

/-- The stacks of pending connectives and the current level.  A level that is left keeps its
stack, which is used again when a level is entered; a negative level counts from the last
stack. -/
structure Pending where
  waiting : List (List Connective) := [[]]
  level : Int := 0
deriving DecidableEq

namespace Pending

def slot? (p : Pending) : Option Nat :=
  if 0 ≤ p.level then
    if p.level < p.waiting.length then some p.level.toNat else none
  else if 0 ≤ p.level + p.waiting.length then some (p.level + p.waiting.length).toNat
  else none

def current? (p : Pending) : Option (List Connective) := p.slot?.bind (p.waiting[·]?)

def replaceCurrent (p : Pending) (stack : List Connective) : Pending :=
  match p.slot? with
  | some k => { p with waiting := p.waiting.set k stack }
  | none => p

def deepen (p : Pending) : Pending :=
  { waiting := if (p.waiting.length : Int) = p.level + 1 then p.waiting ++ [[]] else p.waiting
    level := p.level + 1 }

/-- Empties the current stack; what it held comes out in the order in which it leaves. -/
def drain (p : Pending) : Except Fault (List Connective) × Pending :=
  match p.current? with
  | some stack => (.ok stack, p.replaceCurrent [])
  | none => (.error .noStack, p)

/-- Leaves a level of parentheses, whose stack is emptied. -/
def leave (p : Pending) : Except Fault (List Connective) × Pending :=
  match p.drain with
  | (.ok released, p) => (.ok released, { p with level := p.level - 1 })
  | (.error e, p) => (.error e, p)

/-- Pushes a connective; those that it releases come out in the order in which they leave. -/
def place (g : Grouping) (c : Connective) (p : Pending) :
    Except Fault (List Connective) × Pending :=
  match p.current? with
  | some stack =>
    (.ok (stack.takeWhile (g.releases · c)),
      p.replaceCurrent (c :: stack.dropWhile (g.releases · c)))
  | none => (.error .noStack, p)

/-- Pushes the connective that a symbol stands for.  The current stack is looked up before
the symbol. -/
def push (g : Grouping) (symbol : String) (p : Pending) :
    Except Fault (List Connective) × Pending :=
  match p.current?, Connective.ofSymbol? symbol with
  | none, _ => (.error .noStack, p)
  | some _, none => (.error (.unknownSymbol symbol), p)
  | some _, some c => p.place g c

inductive Operation where
  | push (symbol : String)
  | deepen
  | leave
  | drain
deriving DecidableEq, Repr

/-- What an operation yields, and the state after it. -/
def perform (g : Grouping) (p : Pending) : Operation → Except Fault (List Connective) × Pending
  | .push symbol => p.push g symbol
  | .deepen => (.ok [], p.deepen)
  | .leave => p.leave
  | .drain => p.drain

/-- The symbols of a stack, from the first pushed to the last. -/
def stackSymbols (stack : List Connective) : List String := (stack.map (·.symbol)).reverse

/-- How many stacks belong to the current level and those around it.  A level before the
last stack counts from the end. -/
def shownCount (p : Pending) : Nat :=
  let stop := p.level + 1
  if stop < 0 then (stop + p.waiting.length).toNat else stop.toNat

/-- The stacks up to the current level, each after its number. -/
def stacksText : Nat → List (List Connective) → List String
  | _, [] => []
  | k, stack :: rest =>
    (toString k ++ ": " ++ Text.quotedList (stackSymbols stack)) :: stacksText (k + 1) rest

def text (p : Pending) : String :=
  " ".intercalate (stacksText 0 (p.waiting.take p.shownCount))

end Pending

end PropTable
