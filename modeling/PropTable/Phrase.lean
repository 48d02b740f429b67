import PropTable.Formula
import PropTable.Text.Letter

/-!
The grammar of formulas: phrases with their parentheses, the levels at which they may stand,
and the texts they are read from.

An operand of a binary connective binds more strongly than the connective, but the right one
may bind alike, so that chains of one precedence group to the right.
-/

namespace PropTable

/-- A formula as it is written, over single characters. -/
inductive Phrase where
  | var (c : Char)
  | paren (f : Phrase)
  | not (f : Phrase)
  | binary (op : Binary) (left right : Phrase)
deriving DecidableEq, Repr

namespace Phrase

def text : Phrase → List Char
  | var c => [c]
  | paren f => '(' :: f.text ++ [')']
  | not f => Connective.not.sign :: f.text
  | binary op f g => f.text ++ op.sign :: g.text

def formula : Phrase → Formula Char
  | var c => .var c
  | paren f => f.formula
  | not f => .not f.formula
  | binary op f g => .binary op f.formula g.formula

/-- Whether a character can be a variable: no parenthesis and no connective, and a letter if
the reading is strict. -/
def IsVariable (strict : Bool) (c : Char) : Prop :=
  c ≠ '(' ∧ c ≠ ')' ∧ Connective.ofChar? c = none ∧ (strict = true → Text.isLetter c = true)

instance (strict : Bool) (c : Char) : Decidable (IsVariable strict c) :=
  inferInstanceAs (Decidable (_ ∧ _ ∧ _ ∧ _))

/-- Whether a phrase may stand where nothing binds less strongly than `level`.  Variables and
phrases in parentheses stand everywhere; a negation and the connectives do up to their own
precedence. -/
def Fits (strict : Bool) : Nat → Phrase → Prop
  | _, var c => IsVariable strict c
  | _, paren f => Fits strict 1 f
  | level, not f => level ≤ Connective.not.precedence ∧ Fits strict Connective.not.precedence f
  | level, binary op f g =>
    level ≤ op.precedence ∧ Fits strict (op.precedence + 1) f ∧ Fits strict op.precedence g

/-- Whether a text is a formula, read as the given phrase. -/
def Reads (strict : Bool) (cs : List Char) (f : Phrase) : Prop := Fits strict 1 f ∧ f.text = cs

theorem Fits.mono {strict : Bool} {low high : Nat} (h : low ≤ high) {f : Phrase}
    (hf : Fits strict high f) : Fits strict low f := by
  cases f with
  | var c => exact hf
  | paren f => exact hf
  | not f => exact ⟨Nat.le_trans h hf.1, hf.2⟩
  | binary op f g => exact ⟨Nat.le_trans h hf.1, hf.2⟩

end Phrase

end PropTable
