import PropTable.Text.Blank
import PropTable.Text.DecimalDigit

/-!
Integers read from text: blanks around, a sign, decimal digits of any script, and single
underscores between digits.  Numbers of too many digits are neither read nor written.
-/

namespace PropTable
namespace Text

inductive NumeralFault where
  | malformed
  | tooLong (digits : Nat)

/-- The greatest number of digits that is read or written. -/
def maxDigits : Nat := 4300

/-- A number that can be written in decimal. -/
def IsWritable (n : Nat) : Prop := (Nat.toDigits 10 n).length ≤ maxDigits

instance (n : Nat) : Decidable (IsWritable n) := inferInstanceAs (Decidable (_ ≤ _))

/-- The blanks that may surround a numeral: all but the information separators. -/
def isNumeralBlank (c : Char) : Bool :=
  isBlank c && !(0x1C ≤ c.toNat && c.toNat ≤ 0x1F)

def isDigit (c : Char) : Bool := (digitValue? c).isSome

/-- Digits in groups, a single underscore between two groups.  The flag says whether the
character before is a digit. -/
def isGrouped : Bool → List Char → Bool
  | afterDigit, [] => afterDigit
  | afterDigit, c :: rest =>
    if c = '_' then afterDigit && isGrouped false rest else isDigit c && isGrouped true rest

/-- The number that a run of digits denotes. -/
def digitsValue (digits : List Nat) : Nat := digits.foldl (fun n d => 10 * n + d) 0

/-- The sign at the start of a numeral, true for a minus, and what follows it. -/
def readSign : List Char → Bool × List Char
  | '-' :: rest => (true, rest)
  | '+' :: rest => (false, rest)
  | cs => (false, cs)

/-- The integer that a text denotes.  A well-formed run of too many digits is refused for its
length whatever follows it. -/
def readInt (cs : List Char) : Except NumeralFault Int :=
  let (negative, body) := readSign (cs.dropWhile isNumeralBlank)
  let run := body.takeWhile fun c => isDigit c || c = '_'
  let rest := body.dropWhile fun c => isDigit c || c = '_'
  let digits := run.filterMap digitValue?
  if !isGrouped false run then .error .malformed
  else if digits.length > maxDigits then .error (.tooLong digits.length)
  else if !rest.all isNumeralBlank then .error .malformed
  else
    let n : Int := digitsValue digits
    .ok (if negative then -n else n)

end Text
end PropTable
