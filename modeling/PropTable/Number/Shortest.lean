import PropTable.Number.Binary64

/-!
The text of a floating-point number: the fewest decimal digits that read back, positionally
from 10^-4 up to 10^16 and otherwise with an exponent.
-/

namespace PropTable
namespace Number

/-- Whether the decimal `candidate * 10 ^ power` rounds to `mantissa * 2 ^ exponent`: it lies
between the midpoints to the two neighbours, and may be a midpoint when the mantissa is
even.  Below a power of two the lower neighbour is half as far. -/
def readsBack (mantissa : Nat) (exponent : Int) (candidate : Nat) (power : Int) : Bool :=
  let below := if mantissa = Nat.pow 2 52 && Binary64.minExponent < exponent then 1 else 2
  let scale := exponent - 2
  let decimal := candidate * Nat.pow 10 power.toNat * Nat.pow 2 (-scale).toNat
  let unit := Nat.pow 2 scale.toNat * Nat.pow 10 (-power).toNat
  let low := (4 * mantissa - below) * unit
  let high := (4 * mantissa + 2) * unit
  if mantissa % 2 = 0 then low ≤ decimal && decimal ≤ high else low < decimal && decimal < high

/-- The least power of ten above a positive fraction, searched upward from a power that is
surely not above it. -/
def leastPowerAbove (num den : Nat) : Nat → Int → Int
  | 0, k => k
  | fuel + 1, k =>
    if num * Nat.pow 10 (-k).toNat < den * Nat.pow 10 k.toNat then k
    else leastPowerAbove num den fuel (k + 1)

/-- The digits and the power of ten of the shortest decimal that reads back, the nearest one
of its length.  The value is a fraction below `10 ^ top`; the count of digits runs from
`17 - fuel`, and seventeen digits always suffice. -/
def shortestFrom (mantissa : Nat) (exponent : Int) (num den : Nat) (top : Int) :
    Nat → Nat × Int
  | 0 =>
    let power := top - 17
    (num * Nat.pow 10 (-power).toNat / (den * Nat.pow 10 power.toNat), power)
  | fuel + 1 =>
    let power := top - (17 - fuel : Nat)
    let n := num * Nat.pow 10 (-power).toNat
    let d := den * Nat.pow 10 power.toNat
    let lower := n / d
    let lowerHits := readsBack mantissa exponent lower power
    let upperHits := readsBack mantissa exponent (lower + 1) power
    if lowerHits && upperHits then
      (if 2 * (n % d) < d then lower
        else if d < 2 * (n % d) then lower + 1
        else lower + lower % 2, power)
    else if lowerHits then (lower, power)
    else if upperHits then (lower + 1, power)
    else shortestFrom mantissa exponent num den top fuel

/-- The decimal digits of a number, without zeros at the end. -/
def significantDigits (n : Nat) : List Char :=
  ((Nat.toDigits 10 n).reverse.dropWhile (· == '0')).reverse

/-- Where the decimal point stands in `0.d₁d₂… * 10 ^ point`, when the digits are those of
`n * 10 ^ power`. -/
def pointOf (n : Nat) (power : Int) : Int := (Nat.toDigits 10 n).length + power

/-- Exponents have a sign and at least two digits. -/
def exponentText (e : Int) : List Char :=
  let digits := Nat.toDigits 10 e.natAbs
  (if e < 0 then '-' else '+') :: (if digits.length < 2 then '0' :: digits else digits)

/-- The digits with their decimal point: positionally if the point is above -4 and at most
16, with at least one digit on either side. -/
def layout (digits : List Char) (point : Int) : List Char :=
  if -4 < point && point ≤ 16 then
    if point ≤ 0 then ['0', '.'] ++ List.replicate (-point).toNat '0' ++ digits
    else if digits.length ≤ point.toNat then
      digits ++ List.replicate (point.toNat - digits.length) '0' ++ ['.', '0']
    else digits.take point.toNat ++ '.' :: digits.drop point.toNat
  else
    match digits with
    | [d] => d :: 'e' :: exponentText (point - 1)
    | d :: rest => d :: '.' :: rest ++ 'e' :: exponentText (point - 1)
    | [] => []

def shortest : Binary64 → String
  | .notANumber => "nan"
  | .infinite negative => if negative then "-inf" else "inf"
  | .finite negative mantissa exponent =>
    let text :=
      if mantissa = 0 then ['0', '.', '0']
      else
        let num := mantissa * Nat.pow 2 exponent.toNat
        let den := Nat.pow 2 (-exponent).toNat
        -- `2 ^ b ≤ value` gives `10 ^ (b * 30103 / 100000 - 1) < value`
        let bits : Int := (num.log2 : Int) - (den.log2 : Int) - 1
        let top := leastPowerAbove num den 8 (bits * 30103 / 100000 - 1)
        let (n, power) := shortestFrom mantissa exponent num den top 17
        layout (significantDigits n) (pointOf n power)
    String.ofList (if negative then '-' :: text else text)

end Number
end PropTable
