/-!
Settings: the bound on the number of variables, which variables are admitted, and how a
table is written.
-/

namespace PropTable

/-- How labels write the connectives. -/
inductive Style where
  | latex
  | unicode
  | ascii
deriving DecidableEq, Repr

namespace Style

def all : List Style := [latex, unicode, ascii]

def name : Style → String
  | latex => "latex"
  | unicode => "unicode"
  | ascii => "ascii"

def ofName? (name : String) : Option Style := all.find? (·.name == name)

/-- The style of labels for any name: a name that is not one of the three stands for the
plain style. -/
def ofName (name : String) : Style := (ofName? name).getD ascii

end Style

/-- The settings that a table is built with.

A table of `n` variables has `2 ^ n` rows, so their number is bounded.  With `strict`, only
letters are variables. -/
structure Settings where
  maxVariables : Nat := 12
  strict : Bool := false
  style : Style := .latex
  trueGlyph : String := "T"
  falseGlyph : String := "F"
deriving DecidableEq

/-- The text that stands for a truth value in a row. -/
def Settings.glyph (s : Settings) (value : Bool) : String :=
  if value then s.trueGlyph else s.falseGlyph

end PropTable
