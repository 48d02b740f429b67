import PropTable.Pending
import PropTable.Program
import PropTable.Settings
import PropTable.Text.Blank
import PropTable.Text.Letter

/-!
From the text of a formula to its postfix program, in one pass over its characters.

Connectives wait on the stack of their level until one that binds less strongly, a closing
parenthesis or the end of the text releases them; operands go straight to the program.  On
the way the scan checks that operands and connectives alternate and that parentheses match.
-/

namespace PropTable

/-- The state of the scan before a character. -/
structure Scan where
  program : Program
  pending : Pending := {}
  /-- Whether an operand has to come next. -/
  expectsOperand : Bool := true
  /-- The positions of the parentheses that are still open, the last one first. -/
  opens : List Nat := []
deriving DecidableEq

namespace Scan

def start (source : String) : Scan := { program := { source } }

/-- Pushes a connective, after which an operand has to come. -/
def pushConnective (g : Grouping) (c : Connective) (s : Scan) : Except Fault Scan := do
  let (released, pending) := s.pending.place g c
  return { s with
    program := s.program.emit ((← released).map (·.token)), pending, expectsOperand := true }

def openLevel (position : Nat) (s : Scan) : Except Fault Scan :=
  if s.expectsOperand then
    .ok { s with pending := s.pending.deepen, opens := position :: s.opens }
  else .error (.flaw (.openAfterOperand position))

def closeLevel (position : Nat) (s : Scan) : Except Fault Scan :=
  match s.opens with
  | [] => .error (.flaw (.unopened position))
  | _ :: outer =>
    if s.expectsOperand then .error (.flaw (.closeBeforeOperand position))
    else do
      let (released, pending) := s.pending.leave
      return { s with
        program := s.program.emit ((← released).map (·.token)), pending, opens := outer }

/-- Reads a connective.  A negation stands where an operand is expected, the others after
one. -/
def readConnective (g : Grouping) (position : Nat) (c : Connective) (s : Scan) :
    Except Fault Scan :=
  match c, s.expectsOperand with
  | .not, false => .error (.flaw (.negationAfterOperand position))
  | .binary op, true => .error (.flaw (.leftOperandMissing op position))
  | c, _ => s.pushConnective g c

def readVariable (strict : Bool) (position : Nat) (c : Char) (s : Scan) : Except Fault Scan :=
  if strict && !Text.isLetter c then .error (.flaw (.unknownSymbol c position))
  else if s.expectsOperand then
    .ok { s with program := (s.program.mention c.toString).1, expectsOperand := false }
  else .error (.flaw (.operatorMissing c position))

def step (g : Grouping) (strict : Bool) (position : Nat) (c : Char) (s : Scan) :
    Except Fault Scan :=
  if c = '(' then s.openLevel position
  else if c = ')' then s.closeLevel position
  else match Connective.ofChar? c with
    | some op => s.readConnective g position op
    | none => s.readVariable strict position c

def run (g : Grouping) (strict : Bool) : Nat → List Char → Scan → Except Fault Scan
  | _, [], s => .ok s
  | position, c :: rest, s => do
    let next ← s.step g strict position c
    run g strict (position + 1) rest next

/-- The end of the text, which has the given length: no parenthesis is open, no operand is
missing, and the connectives that still wait leave. -/
def finish (length : Nat) (s : Scan) : Except Fault Program :=
  match s.opens with
  | position :: _ => .error (.flaw (.unclosed position))
  | [] =>
    if s.expectsOperand then .error (.flaw (.operandMissingAtEnd length))
    else do
      let (released, _) := s.pending.drain
      return s.program.emit ((← released).map (·.token))

/-- The characters that are read, with their positions and the states before them, up to and
including the first one that is refused. -/
def visits (g : Grouping) (strict : Bool) : Nat → List Char → Scan → List (Nat × Char × Scan)
  | _, [], _ => []
  | position, c :: rest, s =>
    (position, c, s) ::
      match s.step g strict position c with
      | .ok s => visits g strict (position + 1) rest s
      | .error _ => []

end Scan

namespace Program

/-- The postfix program of a text that has no blanks at its ends. -/
def ofChars (g : Grouping) (strict : Bool) (cs : List Char) : Except Fault Program :=
  if cs.isEmpty then .error (.flaw .blank)
  else do
    let s ← (Scan.start (String.ofList cs)).run g strict 0 cs
    s.finish cs.length

/-- The postfix program of a formula, its chains grouped as said.  Blanks at the two ends of
the text do not count; those inside it are variables. -/
def ofTextGrouped (g : Grouping) (settings : Settings) (text : String) :
    Except Fault Program :=
  ofChars g settings.strict (Text.trim text.toList)

/-- The postfix program of a formula, chains of one precedence being grouped to the right. -/
def ofText (settings : Settings) (text : String) : Except Fault Program :=
  ofTextGrouped .right settings text

end Program

end PropTable
