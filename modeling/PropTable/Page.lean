import PropTable.Service

/-!
The page: a form for a formula and its style, with the table or the reason why there is none.

A page is made of pieces, markup that is written as it is and slots whose text is escaped, so
that no text can change the markup.
-/

namespace PropTable
namespace Page

def escapeChar : Char → List Char
  | '&' => "&amp;".toList
  | '<' => "&lt;".toList
  | '>' => "&gt;".toList
  | '"' => "&#34;".toList
  | '\x27' => "&#39;".toList
  | c => [c]

def escape (s : String) : String := String.ofList (s.toList.flatMap escapeChar)

inductive Piece where
  | markup (text : String)
  | slot (text : String)

def Piece.written : Piece → String
  | markup text => text
  | slot text => escape text

inductive Outcome where
  | nothing
  | table (p : Service.Presentation)
  | complaint (message : String)

/-- What a page shows: the formula in the form, the style that is selected, and the outcome. -/
structure View where
  formula : String
  selected : Option Style
  outcome : Outcome

open Piece

/-- A text between two pieces of markup. -/
def framed (before text after : String) : List Piece := [markup before, slot text, markup after]

def head : List Piece :=
  [markup "<!doctype html>\n<html lang=\"es\">\n<head>\n  <meta charset=\"utf-8\">\n",
   markup "  <title>Tabla de verdad</title>\n  <style>\n",
   markup "    body \x7b font-family: sans-serif; margin: 2rem; \x7d\n",
   markup "    table \x7b border-collapse: collapse; \x7d\n",
   markup "    th, td \x7b border: 1px solid #999; padding: .25rem .5rem; text-align: center; \x7d\n",
   markup "    .error \x7b color: #b00; \x7d\n",
   markup "    pre \x7b background: #f4f4f4; padding: .5rem; \x7d\n",
   markup "  </style>\n</head>\n"]

def legend : List Piece :=
  [markup "<body>\n  <h1>Generar tabla de verdad</h1>\n",
   markup "  <p>Símbolos de los operadores:</p>\n  <ul>\n    "] ++
  Connective.all.flatMap (fun c =>
    framed "<li><code>" c.symbol "</code> - " ++ [slot c.name, markup "</li>"]) ++
  [markup "\n  </ul>\n  <p>También se admiten paréntesis.</p>\n\n"]

def styleOption (selected : Option Style) (style : Style) : List Piece :=
  framed "<option value=\"" style.name
    (if selected = some style then "\" selected>" else "\" >") ++
  [slot style.name, markup "</option>"]

def form (v : View) : List Piece :=
  framed "  <form method=\"post\">\n    <label>Proposición <input name=\"formula\" value=\""
    v.formula "\" placeholder=\"ej.: p&q|~r\"></label>\n" ++
  [markup "    <select name=\"style\">\n      "] ++
  Style.all.flatMap (styleOption v.selected) ++
  [markup "\n    </select>\n    <button type=\"submit\">Generar tabla de verdad</button>\n",
   markup "  </form>\n\n  "]

def complaintPart : Outcome → List Piece
  | .complaint message => framed "<p class=\"error\">" message "</p>"
  | _ => []

def headerCells (texts : List String) : List Piece := texts.flatMap (framed "<th>" · "</th>")

def dataCells (texts : List String) : List Piece := texts.flatMap (framed "<td>" · "</td>")

def tableRow (row : Report.Row) : List Piece :=
  [markup "\n      <tr>\n        "] ++ dataCells row.assignment ++ [markup "\n        "] ++
    dataCells row.values ++ [markup "\n      </tr>\n      "]

/-- The table with its title and its report. -/
def tablePart : Outcome → List Piece
  | .table p =>
    framed "\n    <h2>" p.pretty "</h2>\n    <p>RPN: <code>" ++
    [slot (" ".intercalate p.report.listing), markup "</code> &mdash; "] ++
    [slot p.report.verdict.name, markup "</p>\n    <table>\n      <tr>\n        "] ++
    headerCells p.report.variableNames ++ [markup "\n        "] ++ headerCells p.report.headers ++
    [markup "\n      </tr>\n      "] ++ p.report.rows.flatMap tableRow ++
    framed "\n    </table>\n    <pre>" p.report.markdown "</pre>\n  "
  | _ => []

def pieces (v : View) : List Piece :=
  head ++ legend ++ form v ++ complaintPart v.outcome ++ [markup "\n\n  "] ++
    tablePart v.outcome ++ [markup "\n</body>\n</html>"]

def write (v : View) : String := String.join ((pieces v).map Piece.written)

/-- The style that a value selects, if it is the name of one. -/
def selectedStyle : Json.Value → Option Style
  | .str name => Style.ofName? name
  | _ => none

/-- The view before a form is sent: an empty formula and the configured style. -/
def emptyView (config : Service.Config) : View :=
  { formula := "", selected := selectedStyle (Service.configStyle config), outcome := .nothing }

/-- The view for a form, whose fields may be missing, unless the configuration is wrong in
itself. -/
def formView (config : Service.Config) (fields : List (String × String)) :
    Except Service.Refusal View :=
  let formula := Text.trimmed ((fields.lookup "formula").getD "")
  let style := match fields.lookup "style" with
    | some name => .str name
    | none => Service.configStyle config
  let selected := selectedStyle style
  match Service.present config formula style with
  | .ok p => .ok { formula, selected, outcome := .table p }
  | .error refusal => match refusal.told? with
    | some (_, message, _) => .ok { formula, selected, outcome := .complaint message }
    | none => .error refusal

end Page
end PropTable
