import PropTable.Json.Value
import PropTable.Settings
import PropTable.Text.Numeral

/-!
Settings from loosely typed values: merged from a configuration and overrides, converted and
checked.
-/

namespace PropTable

inductive Misfit where
  | unknownStyle (given : Json.Value)
  | boundTooSmall
  | malformedNumeral (text : String)
  /-- A numeral of too many digits. -/
  | longNumeral (digits : Nat)
  | notANumber
  | infinite
  /-- A value of a sort that stands for no number. -/
  | notNumeric (given : Json.Value)
  /-- A value of a sort that cannot be compared with a number. -/
  | notComparable (given : Json.Value)
  | unknownField (name : String)
  /-- A name that is taken where fields are given. -/
  | takenField (name : String)
  /-- A name that is taken where overrides are given. -/
  | takenOverride (name : String)
  /-- A glyph that is no text, in a place of the cell that the variables share. -/
  | unjoinable (place : Nat) (given : Json.Value)
  /-- A glyph that is no text, in a cell of its own. -/
  | unwritable (given : Json.Value)

namespace Misfit

/-- The literal of a text as far as a message shows it. -/
def shownLiteral (text : String) : String :=
  String.ofList ((Text.quotedChars text.toList).take 200)

def message : Misfit → String
  | unknownStyle given =>
    "Estilo no reconocido: " ++ given.literal ++ ". Usa uno de: " ++
      ", ".intercalate (Style.all.map Style.name) ++ "."
  | boundTooSmall => "max_variables debe ser positivo."
  | malformedNumeral text => "invalid literal for int() with base 10: " ++ shownLiteral text
  | longNumeral digits =>
    "Exceeds the limit (" ++ toString Text.maxDigits ++
      " digits) for integer string conversion: value has " ++ toString digits ++
      " digits; use sys.set_int_max_str_digits() to increase the limit"
  | notANumber => "cannot convert float NaN to integer"
  | infinite => "cannot convert float infinity to integer"
  | notNumeric given =>
    "int() argument must be a string, a bytes-like object or a real number, not '" ++
      given.sortName ++ "'"
  | notComparable given =>
    "'<' not supported between instances of '" ++ given.sortName ++ "' and 'int'"
  | unknownField name =>
    "Settings.__init__() got an unexpected keyword argument '" ++ name ++ "'"
  | takenField name => "Settings.__init__() got multiple values for argument '" ++ name ++ "'"
  | takenOverride name =>
    "Settings.from_mapping() got multiple values for argument '" ++ name ++ "'"
  | unjoinable place given =>
    "sequence item " ++ toString place ++ ": expected str instance, " ++ given.sortName ++
      " found"
  | unwritable (.list _) => "can only concatenate list (not \"str\") to list"
  | unwritable given =>
    "unsupported operand type(s) for +: '" ++ given.sortName ++ "' and 'str'"

/-- Whether the value has the right sort and is refused for what it is. -/
def isAboutValue : Misfit → Bool
  | unknownStyle _ | boundTooSmall | malformedNumeral _ | longNumeral _ | notANumber => true
  | infinite | notNumeric _ | notComparable _ | unknownField _ | takenField _
  | takenOverride _ | unjoinable .. | unwritable _ => false

end Misfit

/-- Settings that have been checked but may still hold values of any sort: whether a run is
strict is told by the truth of a value, and a glyph need not be a text. -/
structure Options where
  maxVariables : Nat
  strict : Json.Value
  style : Style
  trueGlyph : Json.Value
  falseGlyph : Json.Value

namespace Options

def ofSettings (s : Settings) : Options :=
  { maxVariables := s.maxVariables, strict := .bool s.strict, style := s.style
    trueGlyph := .str s.trueGlyph, falseGlyph := .str s.falseGlyph }

inductive Field where
  | maxVariables
  | strict
  | style
  | trueGlyph
  | falseGlyph
deriving DecidableEq, Repr

namespace Field

def all : List Field := [maxVariables, strict, style, trueGlyph, falseGlyph]

/-- The name of the field as an override. -/
def name : Field → String
  | maxVariables => "max_variables"
  | strict => "strict"
  | style => "style"
  | trueGlyph => "true_symbol"
  | falseGlyph => "false_symbol"

/-- The key of the field in a configuration. -/
def key : Field → String
  | maxVariables => "TRUTHTABLE_MAX_VARIABLES"
  | strict => "TRUTHTABLE_STRICT"
  | style => "TRUTHTABLE_STYLE"
  | trueGlyph => "TRUTHTABLE_TRUE_SYMBOL"
  | falseGlyph => "TRUTHTABLE_FALSE_SYMBOL"

end Field

/-- The value of a field, as a mapping would give it. -/
def value (o : Options) : Field → Json.Value
  | .maxVariables => .int o.maxVariables
  | .strict => o.strict
  | .style => .str o.style.name
  | .trueGlyph => o.trueGlyph
  | .falseGlyph => o.falseGlyph

/-- The value of a field that is not given. -/
def defaultValue (field : Field) : Json.Value := (ofSettings {}).value field

def glyph (o : Options) (value : Bool) : Json.Value := if value then o.trueGlyph else o.falseGlyph

def styleOf : Json.Value → Except Misfit Style
  | .str s => match Style.ofName? s with
    | some style => .ok style
    | none => .error (.unknownStyle (.str s))
  | v => .error (.unknownStyle v)

/-- The integer that a value stands for.  The fraction of a number is cut off. -/
def integerOf : Json.Value → Except Misfit Int
  | .int n => .ok n
  | .bool b => .ok (if b then 1 else 0)
  | .float .notANumber => .error .notANumber
  | .float (.infinite _) => .error .infinite
  | .float (.finite negative mantissa exponent) =>
    .ok (Number.Binary64.wholePart negative mantissa exponent)
  | .str s => match Text.readInt s.toList with
    | .ok n => .ok n
    | .error .malformed => .error (.malformedNumeral s)
    | .error (.tooLong digits) => .error (.longNumeral digits)
  | v => .error (.notNumeric v)

/-- The letters of the plain alphabet in lower case. -/
def lowered (cs : List Char) : List Char := cs.map Char.toLower

/-- A text for strictness is read as a truth value; other values stay as they are. -/
def strictOf : Json.Value → Json.Value
  | .str s =>
    .bool (["1", "true", "yes", "on"].contains (String.ofList (lowered s.toList)))
  | v => v

/-- The bound that a value gives as it is, with no text read as a number. -/
def boundOf : Json.Value → Except Misfit Int
  | .int n => .ok n
  | .bool b => integerOf (.bool b)
  | .float x => integerOf (.float x)
  | v => .error (.notComparable v)

/-- Checks the style, then the bound. -/
def check (bound : Except Misfit Int) (strict style trueGlyph falseGlyph : Json.Value) :
    Except Misfit Options := do
  let style ← styleOf style
  let maxVariables ← bound
  if maxVariables < 1 then throw .boundTooSmall
  else return { maxVariables := maxVariables.toNat, strict, style, trueGlyph, falseGlyph }

/-- Refuses the first name that is not the name of a field.  The name `self` stands for the
settings themselves and is taken. -/
def checkNames (given : List (String × Json.Value)) : Except Misfit Unit :=
  match (given.map (·.1)).find? fun name => !(Field.all.map Field.name).contains name with
  | some name => .error (if name = "self" then .takenField name else .unknownField name)
  | none => .ok ()

/-- Refuses the first name that is taken by what overrides are given beside, whatever its
value. -/
def checkOverrideNames (overrides : List (String × Json.Value)) : Except Misfit Unit :=
  match (overrides.map (·.1)).find? ["cls", "config"].contains with
  | some name => .error (.takenOverride name)
  | none => .ok ()

/-- The settings with the given fields, the others having their defaults.  The names are
checked first, then the style, then the bound. -/
def ofFields (given : List (String × Json.Value)) : Except Misfit Options := do
  checkNames given
  let value (field : Field) : Json.Value := (given.lookup field.name).getD (defaultValue field)
  check (boundOf (value .maxVariables)) (value .strict) (value .style) (value .trueGlyph)
    (value .falseGlyph)

/-- The value given for a field: an override that is not null, or else what the configuration
has under the key of the field, which may be null. -/
def given? (config overrides : List (String × Json.Value)) (field : Field) :
    Option Json.Value :=
  match overrides.lookup field.name with
  | none | some .null => config.lookup field.key
  | some v => some v

/-- The settings of a configuration with overrides.  After the names that no override can have,
the bound is converted to an integer; then an override that is not null and names no field is
refused; the style and the bound are checked last. -/
def ofMapping (config overrides : List (String × Json.Value)) : Except Misfit Options := do
  checkOverrideNames overrides
  let value (field : Field) : Json.Value :=
    (given? config overrides field).getD (defaultValue field)
  let bound ← integerOf (value .maxVariables)
  checkNames (overrides.filter fun p => !p.2.isNull)
  check (.ok bound) (strictOf (value .strict)) (value .style) (value .trueGlyph)
    (value .falseGlyph)

/-- The text of a glyph.  A glyph that is no text has none, and a row that shows it cannot be
written. -/
def textOf : Json.Value → String
  | .str s => s
  | _ => ""

def settings (o : Options) : Settings :=
  { maxVariables := o.maxVariables, strict := o.strict.isTruthy, style := o.style
    trueGlyph := textOf o.trueGlyph, falseGlyph := textOf o.falseGlyph }

@[simp] theorem settings_ofSettings (s : Settings) : (ofSettings s).settings = s := rfl

end Options

end PropTable
