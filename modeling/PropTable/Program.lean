import PropTable.Association
import PropTable.Fault

/-!
Postfix programs: a list of tokens over numbered variables.
-/

namespace PropTable

/-- A token of a postfix program: a variable by its number, or a symbol that should be a
connective. -/
inductive Token where
  | var (id : Int)
  | sign (symbol : String)
deriving DecidableEq, Repr

def Connective.token (c : Connective) : Token := .sign c.symbol

/-- The variables of a program in the order of their first mention, with the number of each
symbol and the symbol of each number. -/
structure Numbering where
  names : List String := []
  ids : List (String × Int) := []
  symbols : List (Int × String) := []
deriving DecidableEq

namespace Numbering

def idOf? (m : Numbering) (symbol : String) : Option Int := m.ids.lookup symbol

def symbolOf? (m : Numbering) (id : Int) : Option String := m.symbols.lookup id

/-- The number of a symbol, which is given the next one if it has none. -/
def intern (m : Numbering) (symbol : String) : Numbering × Int :=
  match m.idOf? symbol with
  | some id => (m, id)
  | none =>
    let id : Int := (m.names.length + 1 : Nat)
    ({ names := m.names ++ [symbol]
       ids := enter symbol id m.ids
       symbols := enter id symbol m.symbols }, id)

/-- The numbering in which each pair ties a symbol to a number, later pairs replacing
earlier ones. -/
def ofPairs (names : List String) (pairs : List (String × Int)) : Numbering :=
  { names
    ids := pairs.foldl (fun ids p => enter p.1 p.2 ids) []
    symbols := pairs.foldl (fun symbols p => enter p.2 p.1 symbols) [] }

end Numbering

/-- A postfix program, with the text that it comes from. -/
structure Program where
  source : String := ""
  tokens : List Token := []
  numbering : Numbering := {}
deriving DecidableEq

namespace Program

def variableNames (p : Program) : List String := p.numbering.names

def variableCount (p : Program) : Nat := p.variableNames.length

def variableIds (p : Program) : Except Fault (List Int) :=
  p.variableNames.mapM fun s => match p.numbering.idOf? s with
    | some id => .ok id
    | none => .error (.unknownSymbol s)

def symbolOf (p : Program) : Token → Except Fault String
  | .var id => match p.numbering.symbolOf? id with
    | some s => .ok s
    | none => .error (.unknownId id)
  | .sign s => .ok s

/-- The program in symbols, each variable number replaced by its symbol. -/
def listing (p : Program) : Except Fault (List String) := p.tokens.mapM p.symbolOf

def emit (p : Program) (tokens : List Token) : Program :=
  { p with tokens := p.tokens ++ tokens }

/-- Numbers a variable without using it. -/
def declare (p : Program) (symbol : String) : Program × Int :=
  let (numbering, id) := p.numbering.intern symbol
  ({ p with numbering }, id)

def mention (p : Program) (symbol : String) : Program × Int :=
  let (p, id) := p.declare symbol
  (p.emit [.var id], id)

end Program

end PropTable
