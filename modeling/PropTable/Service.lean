import PropTable.Association
import PropTable.Settings.Glyphs
import PropTable.Scan
import PropTable.Table

/-!
The table service: a JSON request with a proposition is answered with the table or with the
reason why there is none.
-/

namespace PropTable
namespace Service

abbrev Config := List (String × Json.Value)

/-- The configuration of the service when nothing is changed. -/
def baseConfig : Config :=
  [("TRUTHTABLE_MAX_VARIABLES", .int 12), ("TRUTHTABLE_STRICT", .bool false),
   ("TRUTHTABLE_STYLE", .str "latex")]

/-- The configuration with some keys changed or added. -/
def configWith (changes : Config) : Config :=
  changes.foldl (fun config p => enter p.1 p.2 config) baseConfig

/-- The style of the configuration, which need not be one of the three. -/
def configStyle (config : Config) : Json.Value :=
  (config.lookup Options.Field.style.key).getD .null

inductive Refusal where
  | misfit (m : Misfit)
  | fault (f : Fault)
  /-- The body of a request could not be read to its end. -/
  | unread

/-- The report on a table, and the formula in mathematical signs. -/
structure Presentation where
  report : Report
  pretty : String

/-- The options for a request.  A style that is given replaces the configured one. -/
def optionsFor (config : Config) (style : Json.Value) : Except Misfit Options :=
  Options.ofMapping config [("style", if style.isTruthy then style else .null)]

/-- The report on a table, whose glyphs are looked at when its rows are written. -/
def report (options : Options) (table : Table) : Except Refusal Report := do
  let report ← table.report.mapError .fault
  (options.checkRows table.rows).mapError .misfit
  return report

/-- The table of a formula.  The options are read first, then the formula. -/
def present (config : Config) (formula : String) (style : Json.Value) :
    Except Refusal Presentation := do
  let options ← (optionsFor config style).mapError .misfit
  let program ← (Program.ofText options.settings formula).mapError .fault
  let table ← (Table.build options.settings program).mapError .fault
  let report ← report options table
  return { report, pretty := pretty program.source }

/-- What is told about a refusal that the user can mend: a kind, a message and a column.  The
others come from a configuration that is wrong in itself or a body that breaks off its reading. -/
def Refusal.told? : Refusal → Option (String × String × Option Int)
  | misfit m => if m.isAboutValue then some ("InvalidSettings", m.message, none) else none
  | fault (.flaw f) =>
    some (f.complaint.kind.name, f.complaint.text, f.complaint.position)
  | fault .longNumeral => some ("InvalidSettings", Fault.longNumeral.message, none)
  | fault _ | unread => none

def rowValue (row : Report.Row) : Json.Value :=
  .object [("assignment", .ofTexts row.assignment), ("values", .ofTexts row.values),
    ("result", .str row.result)]

def reportFields (r : Report) : List (String × Json.Value) :=
  [("proposition", .str r.proposition), ("postfix", .ofTexts r.listing),
   ("variables", .ofTexts r.variableNames), ("headers", .ofTexts r.headers),
   ("rows", .list (r.rows.map rowValue)), ("classification", .str r.verdict.name),
   ("markdown", .str r.markdown)]

def Presentation.value (p : Presentation) : Json.Value :=
  .object (reportFields p.report ++ [("formula_pretty", .str p.pretty)])

/-- An answer: a status and a JSON value. -/
structure Answer where
  status : Nat
  body : Json.Value

def complaintAnswer (kind message : String) (position : Option Int) : Answer :=
  { status := 400
    body := .object [("error", .str kind), ("message", .str message),
      ("position", match position with
        | some k => .int k
        | none => .null)] }

def invalidRequest : Answer :=
  complaintAnswer "InvalidRequest"
    "Se espera un objeto JSON con \"proposition\" de tipo texto." none

/-- The proposition and the style of a payload.  Null stands for a request without fields, and
a request without a proposition for one with an empty proposition. -/
def request? : Json.Value → Option (String × Json.Value)
  | .null => some ("", .null)
  | .object fields => match fields.lookup "proposition" with
    | none => some ("", (fields.lookup "style").getD .null)
    | some (.str formula) => some (formula, (fields.lookup "style").getD .null)
    | some _ => none
  | _ => none

/-- The answer to a payload, unless the configuration is wrong in itself. -/
def answer (config : Config) (payload : Json.Value) : Except Refusal Answer :=
  match request? payload with
  | none => .ok invalidRequest
  | some (formula, style) => match present config formula style with
    | .ok p => .ok { status := 200, body := p.value }
    | .error refusal => match refusal.told? with
      | some (kind, message, position) => .ok (complaintAnswer kind message position)
      | none => .error refusal

/-- A request as it is sent. -/
structure Request where
  contentType : String
  body : String

/-- What becomes of a text that is read as JSON. -/
inductive Reading where
  | value (v : Json.Value)
  | malformed
  /-- The reading is broken off, as that of values nested too deep. -/
  | aborted

/-- The framework that hands over the requests. -/
structure Framework where
  /-- Whether a content type announces JSON. -/
  isJson : String → Bool
  read : String → Reading
  /-- The payload of a request, asked for in silence.  There is none if that fails. -/
  payload? : Request → Option Json.Value

/-- The framework for a way to read, with null for the body that is not announced as JSON or is
malformed. -/
def Framework.ofReading (isJson : String → Bool) (read : String → Reading) : Framework where
  isJson := isJson
  read := read
  payload? r :=
    if isJson r.contentType then
      match read r.body with
      | .value v => some v
      | .malformed => some .null
      | .aborted => none
    else some .null

/-- The answer to a request, unless it has no payload or the configuration is wrong in itself. -/
def exchange (w : Framework) (config : Config) (r : Request) : Except Refusal Answer :=
  match w.payload? r with
  | some payload => answer config payload
  | none => .error .unread

end Service
end PropTable
