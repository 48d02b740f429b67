import PropTable.Replay
import PropTable.Settings

/-!
Labels: the text of the subformula that each connective of a program completes.
-/

namespace PropTable

/-- A text for a subformula, and whether it has a connective of its own. -/
structure Label where
  text : String
  composite : Bool := true

namespace Label

/-- A label as an operand: one with a connective stands in parentheses. -/
def wrapped (a : Label) : String := if a.composite then "(" ++ a.text ++ ")" else a.text

/-- How a connective is written between wrapped operands. -/
def plainSign (style : Style) (c : Connective) : String :=
  match style with
  | .unicode => c.glyph.toString
  | _ => c.symbol

/-- The label of a negation.  In LaTeX a bar over the operand needs no parentheses. -/
def not (style : Style) (a : Label) : Label :=
  match style with
  | .latex => { text := Connective.not.latex ++ "\x7b" ++ a.text ++ "\x7d" }
  | style => { text := plainSign style .not ++ a.wrapped }

/-- The label of two operands joined.  The LaTeX style adds no parentheses. -/
def binary (style : Style) (op : Binary) (a b : Label) : Label :=
  match style with
  | .latex => { text := a.text ++ (Connective.binary op).latex ++ b.text }
  | style => { text := a.wrapped ++ plainSign style (.binary op) ++ b.wrapped }

def algebra (style : Style) (m : Numbering) : Algebra Label where
  leaf id := match m.symbolOf? id with
    | some s => .ok { text := s, composite := false }
    | none => .error (.unknownId id)
  not := not style
  binary := binary style

end Label

/-- One label for each connective of the program, in the order in which a replay computes
their values. -/
def Program.labels (p : Program) (style : Style) : Except Fault (List String) := do
  let (steps, _) ← Replay.run (Label.algebra style p.numbering) p.tokens []
  return steps.map (·.text)

end PropTable
