import PropTable.Program

/-!
Programs edited by hand, one step at a time.
-/

namespace PropTable

inductive Edit where
  | variable (symbol : String)
  | declare (symbol : String)
  | token (t : Token)
  | pop
deriving DecidableEq

inductive Edit.Result where
  | nothing
  | id (id : Int)
  | token (t : Token)
deriving DecidableEq

/-- A program after an edit, and what the edit gives back.  Tokens go, but a number once
given stays. -/
def Program.edit (p : Program) : Edit → Program × Except Fault Edit.Result
  | .variable symbol =>
    let (p, id) := p.mention symbol
    (p, .ok (.id id))
  | .declare symbol =>
    let (p, id) := p.declare symbol
    (p, .ok (.id id))
  | .token t => (p.emit [t], .ok .nothing)
  | .pop => match p.tokens.getLast? with
    | some t => ({ p with tokens := p.tokens.dropLast }, .ok (.token t))
    | none => (p, .error .noToken)

def Program.edits (p : Program) (edits : List Edit) : Program :=
  edits.foldl (fun p e => (p.edit e).1) p

end PropTable
