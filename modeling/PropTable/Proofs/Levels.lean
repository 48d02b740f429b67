import PropTable.Scan

/-!
# Pending connectives as a current stack and the stacks around it

As long as no level is left that was not entered, the level points at a stack, and the
stacks above it are empty.  `Pending.ofLevels` is the general form of such a state, and each
operation has one equation on it, so that nothing below needs to know how levels are
counted.
-/

namespace PropTable
namespace Pending

/-- The state with the given current stack and the stacks of the levels around it, the
innermost first; `spare` empty stacks are left over from levels that were left. -/
def ofLevels (current : List Connective) (around : List (List Connective)) (spare : Nat) :
    Pending :=
  { waiting := around.reverse ++ current :: List.replicate spare []
    level := around.length }

theorem initial_eq_ofLevels : ({} : Pending) = ofLevels [] [] 0 := rfl

variable (current : List Connective) (around : List (List Connective)) (spare : Nat)

@[simp] theorem slot?_ofLevels : (ofLevels current around spare).slot? = some around.length := by
  have h : (around.length : Int) < around.length + (spare + 1) := by omega
  simp [slot?, ofLevels, h]

@[simp] theorem current?_ofLevels : (ofLevels current around spare).current? = some current := by
  rw [current?, slot?_ofLevels, Option.bind_some, ofLevels, List.getElem?_append_right (by simp)]
  simp

@[simp] theorem replaceCurrent_ofLevels (stack : List Connective) :
    (ofLevels current around spare).replaceCurrent stack = ofLevels stack around spare := by
  simp only [replaceCurrent, slot?_ofLevels]
  simp [ofLevels]

/-- A level that is entered starts with an empty stack, an old one or a new one. -/
theorem deepen_ofLevels :
    (ofLevels current around spare).deepen = ofLevels [] (current :: around) (spare - 1) := by
  cases spare with
  | zero => simp [deepen, ofLevels]
  | succ spare =>
    have h : ¬((spare : Int) + 1 + 1 = 1) := by omega
    simp [deepen, ofLevels, List.replicate_succ, h]

theorem drain_ofLevels :
    (ofLevels current around spare).drain = (.ok current, ofLevels [] around spare) := by
  simp [drain]

/-- The level around takes over as it was, and the stack of the level that is left stays
behind empty. -/
theorem leave_ofLevels (outer : List Connective) :
    (ofLevels current (outer :: around) spare).leave =
      (.ok current, ofLevels outer around (spare + 1)) := by
  simp only [leave, drain_ofLevels]
  simp [ofLevels, List.replicate_succ]

theorem place_ofLevels (g : Grouping) (c : Connective) :
    (ofLevels current around spare).place g c =
      (.ok (current.takeWhile (g.releases · c)),
        ofLevels (c :: current.dropWhile (g.releases · c)) around spare) := by
  simp [place]

end Pending
end PropTable
