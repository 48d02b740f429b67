import PropTable.Scan
import PropTable.Table

/-!
The journal of a table: a line for each character that is scanned, one for the program and
one for the table, up to the first fault.
-/

namespace PropTable

namespace Journal

/-- A character with its position and the connectives that wait when it is read. -/
def scanLine (visit : Nat × Char × Scan) : String :=
  "Procesando token " ++ Text.quoted visit.2.1.toString ++ " (pos " ++ toString visit.1 ++
    ") pendientes=[" ++ visit.2.2.pending.text ++ "]"

def programLine (p : Program) : Except Fault String := do
  let listing ← p.listing
  return "RPN de " ++ Text.quoted p.source ++ ": " ++ Text.quotedList listing

def tableLine (t : Table) : String :=
  "Tabla de " ++ Text.quoted t.program.source ++ ": " ++ toString t.headers.length ++
    " columnas, " ++ toString t.rows.length ++ " filas"

def scanLines (settings : Settings) (text : String) : List String :=
  let cs := Text.trim text.toList
  ((Scan.start (String.ofList cs)).visits .right settings.strict 0 cs).map scanLine

/-- The lines after those for the characters, and the fault that ends them. -/
def closingLines (settings : Settings) (text : String) : List String × Option Fault :=
  match Program.ofText settings text with
  | .error e => ([], some e)
  | .ok p => match programLine p with
    | .error e => ([], some e)
    | .ok line => match Table.build settings p with
      | .error e => ([line], some e)
      | .ok t => ([line, tableLine t], none)

end Journal

/-- The journal of the table of a text, and the fault that ends it, if one does. -/
def journal (settings : Settings) (text : String) : List String × Option Fault :=
  let (lines, fault) := Journal.closingLines settings text
  (Journal.scanLines settings text ++ lines, fault)

end PropTable
