/-!
Sets of characters given by closed ranges of code points.
-/

namespace PropTable
namespace Text

/-- Closed ranges of code points, listed in ascending order. -/
abbrev Ranges := List (Nat × Nat)

namespace Ranges

/-- Whether a code point lies in one of the ranges.  The search ends at the first range
that begins beyond the code point, which is why the ranges are listed in ascending
order. -/
def contains : Ranges → Nat → Bool
  | [], _ => false
  | (low, high) :: rest, n => if n < low then false else n ≤ high || contains rest n

/-- The first code point of the range that holds a code point. -/
def start? : Ranges → Nat → Option Nat
  | [], _ => none
  | (low, high) :: rest, n =>
    if n < low then none else if n ≤ high then some low else start? rest n

end Ranges

end Text
end PropTable
