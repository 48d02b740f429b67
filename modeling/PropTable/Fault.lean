import PropTable.Connective
import PropTable.Text.Numeral
import PropTable.Text.Quoted

/-!
What can be wrong with a formula, and with a program that is not one; the messages, and the
columns they point to.
-/

namespace PropTable

inductive ComplaintKind where
  | proposition
  | malformed
  | unknownToken
  | tooManyVariables
deriving DecidableEq, Repr

namespace ComplaintKind

def all : List ComplaintKind := [proposition, malformed, unknownToken, tooManyVariables]

def name : ComplaintKind → String
  | proposition => "PropositionError"
  | malformed => "MalformedExpression"
  | unknownToken => "UnknownToken"
  | tooManyVariables => "TooManyVariables"

def ofName? (name : String) : Option ComplaintKind := all.find? (·.name == name)

end ComplaintKind

structure Complaint where
  kind : ComplaintKind
  message : String
  position : Option Int
deriving DecidableEq

/-- The message, followed by the column if there is one. -/
def Complaint.text (c : Complaint) : String :=
  match c.position with
  | none => c.message
  | some k => c.message ++ " (columna " ++ toString k ++ ")"

/-- What is wrong with a proposition.  A position counts the characters before the one at
fault. -/
inductive Flaw where
  | blank
  | openAfterOperand (position : Nat)
  | unopened (position : Nat)
  | closeBeforeOperand (position : Nat)
  | negationAfterOperand (position : Nat)
  | leftOperandMissing (op : Binary) (position : Nat)
  | unknownSymbol (c : Char) (position : Nat)
  | operatorMissing (c : Char) (position : Nat)
  | unclosed (position : Nat)
  | operandMissingAtEnd (position : Nat)
  | operandsMissing (symbol : String)
  | valuesLeft (count : Nat)
  /-- The message tells the number of rows, which therefore has to be one that can be written. -/
  | tooManyVariables (count maximum : Nat) (h : Text.IsWritable (Nat.pow 2 count))
deriving DecidableEq

namespace Flaw

def kind : Flaw → ComplaintKind
  | unknownSymbol .. => .unknownToken
  | tooManyVariables .. => .tooManyVariables
  | _ => .malformed

/-- The column of the fault.  A program that does not come from a text has none. -/
def position? : Flaw → Option Nat
  | openAfterOperand k | unopened k | closeBeforeOperand k | negationAfterOperand k
  | leftOperandMissing _ k | unknownSymbol _ k | operatorMissing _ k | unclosed k
  | operandMissingAtEnd k => some k
  | blank | operandsMissing _ | valuesLeft _ | tooManyVariables .. => none

def message : Flaw → String
  | blank => "Escribe una proposición."
  | openAfterOperand _ => "Falta un operador antes de '('"
  | unopened _ => "Paréntesis no balanceados: ')' sin abrir"
  | closeBeforeOperand _ => "Falta un operando antes de ')'"
  | negationAfterOperand _ => "'~' no puede seguir a un operando"
  | leftOperandMissing op _ => "Falta el operando izquierdo de '" ++ op.sign.toString ++ "'"
  | unknownSymbol c _ => "Símbolo no reconocido: " ++ Text.quoted c.toString
  | operatorMissing c _ => "Falta un operador antes de " ++ Text.quoted c.toString
  | unclosed _ => "Paréntesis no balanceados: '(' sin cerrar"
  | operandMissingAtEnd _ => "La proposición termina sin operando"
  | operandsMissing symbol => "A '" ++ symbol ++ "' le faltan operandos"
  | valuesLeft count =>
    "Expresión inválida: quedan " ++ toString count ++ " valores en la pila"
  | tooManyVariables count maximum _ =>
    toString count ++ " variables exceden el máximo de " ++ toString maximum ++ " (" ++
      toString (Nat.pow 2 count) ++ " filas)."

def complaint (f : Flaw) : Complaint :=
  { kind := f.kind, message := f.message, position := f.position?.map Int.ofNat }

end Flaw

/-- Why an operation on a formula or a program has no result. -/
inductive Fault where
  | flaw (f : Flaw)
  /-- A token names a variable that has no symbol. -/
  | unknownId (id : Int)
  /-- A symbol that is neither a connective nor a numbered variable. -/
  | unknownSymbol (symbol : String)
  /-- The assignment has no value in a place.  Places count from zero, and those below zero
  count back from the end. -/
  | noValue (place : Int)
  /-- No stack stands for the level of parentheses. -/
  | noStack
  | noToken
  | negativeCount
  /-- A count of variables below all floating-point numbers. -/
  | countOutOfRange
  /-- A number with too many digits to be written into a message. -/
  | longNumeral
  /-- A connective with a number of operands that is not its own. -/
  | operandCount (c : Connective) (count : Nat)
deriving DecidableEq

/-- Whether a place is a signed word of 64 bits, as every place in a list is. -/
def Fault.isWord (place : Int) : Bool := -Int.pow 2 63 ≤ place && place < Int.pow 2 63

/-- What is said of a number of operands that a connective does not take. -/
def Fault.operandCountMessage (count : Nat) : Connective → String
  | .not => "_operator.not_() takes exactly one argument (" ++ toString count ++ " given)"
  | .binary .and => "and_ expected 2 arguments, got " ++ toString count
  | .binary .or => "or_ expected 2 arguments, got " ++ toString count
  | .binary .xor => "xor expected 2 arguments, got " ++ toString count
  | .binary .iff => "eq expected 2 arguments, got " ++ toString count
  | .binary .implies => match count with
    | 0 => "_implies() missing 2 required positional arguments: 'a' and 'b'"
    | 1 => "_implies() missing 1 required positional argument: 'b'"
    | n => "_implies() takes 2 positional arguments but " ++ toString n ++ " were given"

/-- The refusal of a program for the number of its variables, unless there are so many that the
number of rows cannot be told. -/
def Fault.tooManyVariables (count maximum : Nat) : Fault :=
  if h : Text.IsWritable (Nat.pow 2 count) then .flaw (.tooManyVariables count maximum h)
  else .longNumeral

/-- The message without a column. -/
def Fault.message : Fault → String
  | flaw f => f.message
  | unknownId id => toString id
  | unknownSymbol symbol => Text.quoted symbol
  | noValue place =>
    if isWord place then "tuple index out of range"
    else "cannot fit 'int' into an index-sized integer"
  | noStack => "list index out of range"
  | noToken => "pop from empty list"
  | negativeCount => "'float' object cannot be interpreted as an integer"
  | countOutOfRange => "int too large to convert to float"
  | longNumeral =>
    "Exceeds the limit (" ++ toString Text.maxDigits ++ " digits) for integer string " ++
      "conversion; use sys.set_int_max_str_digits() to increase the limit"
  | operandCount c count => operandCountMessage count c

end PropTable
