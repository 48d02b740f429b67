import PropTable.Assignment
import PropTable.Label

/-!
Truth tables: one column for each connective and one row for each assignment, with the
verdict on the formula and a report in markdown.
-/

namespace PropTable

/-- A row: the values of the variables, of the connectives, and of the whole formula. -/
structure Row where
  assignment : Assignment
  values : List Bool
  result : Bool
deriving DecidableEq

inductive Verdict where
  | tautology
  | contradiction
  | contingency
deriving DecidableEq, Repr

def Verdict.name : Verdict → String
  | tautology => "tautology"
  | contradiction => "contradiction"
  | contingency => "contingency"

structure Table where
  program : Program
  headers : List String
  rows : List Row
  settings : Settings := {}

def Program.row (p : Program) (a : Assignment) : Except Fault Row := do
  let (values, result) ← p.run a
  return { assignment := a, values, result }

namespace Table

/-- The truth table of a program: first the bound on the variables is checked, then the
headers are made, then the rows. -/
def build (settings : Settings) (p : Program) : Except Fault Table :=
  if settings.maxVariables < p.variableCount then
    .error (.tooManyVariables p.variableCount settings.maxVariables)
  else do
    let headers ← p.labels settings.style
    let rows ← (assignments p.variableCount).mapM p.row
    return { program := p, headers, rows, settings }

/-- The verdict that the results give.  A table without rows is a tautology. -/
def verdict (t : Table) : Verdict :=
  if t.rows.all (·.result) then .tautology
  else if t.rows.any (·.result) then .contingency
  else .contradiction

def glyphs (t : Table) (values : List Bool) : List String := values.map t.settings.glyph

/-- A header as it stands in its cell: LaTeX is set between dollar signs. -/
def headerCell (t : Table) (header : String) : String :=
  match t.settings.style with
  | .latex => " $" ++ header ++ "$ |"
  | _ => " " ++ header ++ " |"

def headerLine (t : Table) : String :=
  "| " ++ ",".intercalate t.program.variableNames ++ " |" ++
    String.join (t.headers.map t.headerCell)

def dividerLine (t : Table) : String :=
  "|-|" ++ String.join (t.headers.map fun _ => "-|")

def rowLine (t : Table) (row : Row) : String :=
  "|" ++ ",".intercalate (t.glyphs row.assignment) ++ "|" ++
    String.join ((t.glyphs row.values).map (· ++ "|"))

/-- The table in markdown: the variables share the first cell of a line, and each connective
has a cell of its own. -/
def markdown (t : Table) : String :=
  "\n".intercalate (t.headerLine :: t.dividerLine :: t.rows.map t.rowLine)

end Table

structure Report.Row where
  assignment : List String
  values : List String
  result : String
deriving DecidableEq

structure Report where
  proposition : String
  listing : List String
  variableNames : List String
  headers : List String
  rows : List Report.Row
  verdict : Verdict
  markdown : String
deriving DecidableEq

/-- The report on a table, whose program has to show in symbols. -/
def Table.report (t : Table) : Except Fault Report := do
  let listing ← t.program.listing
  return {
    proposition := t.program.source
    listing
    variableNames := t.program.variableNames
    headers := t.headers
    rows := t.rows.map fun row =>
      { assignment := t.glyphs row.assignment
        values := t.glyphs row.values
        result := t.settings.glyph row.result }
    verdict := t.verdict
    markdown := t.markdown }

def Program.markdown (settings : Settings) (p : Program) : Except Fault String := do
  return (← Table.build settings p).markdown

end PropTable
