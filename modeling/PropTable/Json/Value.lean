import PropTable.Number.Shortest
import PropTable.Text.Quoted

/-!
JSON values, and the literals in which messages show them.
-/

namespace PropTable
namespace Json

/-- A JSON value.  An object lists its fields in the order of their first appearance, each
name once. -/
inductive Value where
  | null
  | bool (b : Bool)
  | int (n : Int)
  | float (x : Number.Binary64)
  | str (s : String)
  | list (items : List Value)
  | object (fields : List (String × Value))
deriving Inhabited

namespace Value

/-- Whether a value counts as given: all do but null, false, zero and what is empty. -/
def isTruthy : Value → Bool
  | null => false
  | bool b => b
  | int n => n != 0
  | float x => !x.isZero
  | str s => !s.isEmpty
  | list items => !items.isEmpty
  | object fields => !fields.isEmpty

def isNull : Value → Bool
  | null => true
  | _ => false

/-- The sort of a value, as messages name it. -/
def sortName : Value → String
  | null => "NoneType"
  | bool _ => "bool"
  | int _ => "int"
  | float _ => "float"
  | str _ => "str"
  | list _ => "list"
  | object _ => "dict"

mutual

/-- The literal of a value: texts quoted, the items of a list in square brackets, the fields
of an object in braces. -/
def literal : Value → String
  | null => "None"
  | bool true => "True"
  | bool false => "False"
  | int n => toString n
  | float x => Number.shortest x
  | str s => Text.quoted s
  | list items => "[" ++ literalItems items ++ "]"
  | object fields => "\x7b" ++ literalFields fields ++ "\x7d"

def literalItems : List Value → String
  | [] => ""
  | [v] => literal v
  | v :: w :: rest => literal v ++ ", " ++ literalItems (w :: rest)

def literalFields : List (String × Value) → String
  | [] => ""
  | [(name, v)] => Text.quoted name ++ ": " ++ literal v
  | (name, v) :: w :: rest =>
    Text.quoted name ++ ": " ++ literal v ++ ", " ++ literalFields (w :: rest)

end

def ofTexts (texts : List String) : Value := list (texts.map str)

end Value

end Json
end PropTable
