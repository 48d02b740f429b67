/-!
Binary floating-point numbers of 64 bits, as exact dyadic fractions, and their whole parts.
-/

namespace PropTable
namespace Number

/-- A binary floating-point number.  A finite one is `mantissa * 2 ^ exponent` with its sign;
the mantissa has 53 bits, or fewer at the least exponent. -/
inductive Binary64 where
  | finite (negative : Bool) (mantissa : Nat) (exponent : Int)
  | infinite (negative : Bool)
  | notANumber
deriving DecidableEq, Inhabited

namespace Binary64

def minExponent : Int := -1074

/-- The least whole number that is rounded to infinity. -/
def infinityBound : Nat := Nat.pow 2 1024 - Nat.pow 2 970

/-- The whole part of a finite number, its fraction being cut off. -/
def wholePart (negative : Bool) (mantissa : Nat) (exponent : Int) : Int :=
  let whole : Int := ((mantissa * Nat.pow 2 exponent.toNat) / Nat.pow 2 (-exponent).toNat : Nat)
  if negative then -whole else whole

def isZero : Binary64 → Bool
  | .finite _ mantissa _ => mantissa == 0
  | _ => false

end Binary64

end Number
end PropTable
