/-!
Association lists that keep the order in which their keys came.
-/

namespace PropTable

/-- Enters a pair.  A known key keeps its place and takes the new value; a new key goes to
the end. -/
def enter {α β : Type} [BEq α] (a : α) (b : β) : List (α × β) → List (α × β)
  | [] => [(a, b)]
  | (k, v) :: rest => if a == k then (k, b) :: rest else (k, v) :: enter a b rest

end PropTable
