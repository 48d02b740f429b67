/-!
The six connectives of propositional logic: how each is written, how strongly it binds and
what it computes.
-/

namespace PropTable

inductive Binary where
  | and
  | or
  | xor
  | implies
  | iff
deriving DecidableEq, Repr

/-- Negation, or a connective that joins two operands. -/
inductive Connective where
  | not
  | binary (op : Binary)
deriving DecidableEq, Repr

namespace Binary

def sign : Binary → Char
  | and => '&'
  | or => '|'
  | xor => '^'
  | implies => '>'
  | iff => '<'

/-- How strongly the connective binds.  Disjunction and exclusive disjunction bind alike. -/
def precedence : Binary → Nat
  | and => 4
  | or => 3
  | xor => 3
  | implies => 2
  | iff => 1

/-- The truth function.  An implication fails only for a true premise and a false
conclusion. -/
def apply : Binary → Bool → Bool → Bool
  | and, a, b => a && b
  | or, a, b => a || b
  | xor, a, b => a != b
  | implies, a, b => !(a && !b)
  | iff, a, b => a == b

end Binary

namespace Connective

/-- All connectives, in the order of the legend. -/
def all : List Connective :=
  [not, binary .and, binary .or, binary .xor, binary .implies, binary .iff]

/-- The character that stands for the connective in a formula. -/
def sign : Connective → Char
  | not => '~'
  | binary op => op.sign

def symbol (c : Connective) : String := String.singleton c.sign

def name : Connective → String
  | not => "NOT"
  | binary .and => "AND"
  | binary .or => "OR"
  | binary .xor => "XOR"
  | binary .implies => "IMPLIES"
  | binary .iff => "IFF"

/-- How strongly the connective binds; negation binds most. -/
def precedence : Connective → Nat
  | not => 5
  | binary op => op.precedence

def arity : Connective → Nat
  | not => 1
  | binary _ => 2

/-- The command for the connective in LaTeX.  That of negation takes its operand in braces;
the others stand between their operands. -/
def latex : Connective → String
  | not => "\\overline"
  | binary .and => "\\land\x7b\x7d"
  | binary .or => "\\lor\x7b\x7d"
  | binary .xor => "\\oplus\x7b\x7d"
  | binary .implies => "\\implies\x7b\x7d"
  | binary .iff => "\\iff\x7b\x7d"

def glyph : Connective → Char
  | not => '¬'
  | binary .and => '∧'
  | binary .or => '∨'
  | binary .xor => '⊕'
  | binary .implies => '→'
  | binary .iff => '↔'

def ofChar? : Char → Option Connective
  | '~' => some not
  | '&' => some (binary .and)
  | '|' => some (binary .or)
  | '^' => some (binary .xor)
  | '>' => some (binary .implies)
  | '<' => some (binary .iff)
  | _ => none

/-- The connective that a symbol stands for: one of the six signs and nothing else. -/
def ofSymbol? (s : String) : Option Connective :=
  match s.toList with
  | [c] => ofChar? c
  | _ => none

@[simp] theorem ofChar?_sign (c : Connective) : ofChar? c.sign = some c := by
  cases c with
  | not => rfl
  | binary op => cases op <;> rfl

theorem sign_ne_open (c : Connective) : c.sign ≠ '(' := by
  cases c with
  | not => decide
  | binary op => cases op <;> decide

theorem sign_ne_close (c : Connective) : c.sign ≠ ')' := by
  cases c with
  | not => decide
  | binary op => cases op <;> decide

theorem toNat_sign_lt (c : Connective) : c.sign.toNat < 0x80 := by
  cases c with
  | not => decide
  | binary op => cases op <;> decide

@[simp] theorem ofSymbol?_singleton (c : Char) : ofSymbol? (String.singleton c) = ofChar? c := by
  simp [ofSymbol?]

theorem ofChar?_eq_some_iff {x : Char} {c : Connective} : ofChar? x = some c ↔ x = c.sign := by
  constructor
  · intro h
    unfold ofChar? at h
    split at h <;> simp_all [sign, Binary.sign] <;> subst h <;> rfl
  · rintro rfl
    exact ofChar?_sign c

end Connective

/-- The formula with its connectives written by their mathematical signs. -/
def prettyChars (cs : List Char) : List Char :=
  cs.map fun c => match Connective.ofChar? c with
    | some op => op.glyph
    | none => c

def pretty (formula : String) : String := String.ofList (prettyChars formula.toList)

end PropTable
