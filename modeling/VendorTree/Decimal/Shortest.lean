import VendorTree.Decimal.Basic

/-!
# Shortest decimals

A stored number is written with the fewest decimal digits that identify it: of the decimals with so
few digits that are stored as this number, the nearest. Numbers of middle size are written with a
point and the others with an exponent.
-/

namespace VendorTree

namespace Stored

/-! ### Digits -/

/-- `a * 10 ^ i ≤ b * 2 ^ j` -/
def scaledAtMost (a : Nat) (i : Int) (b : Nat) (j : Int) : Bool :=
  a * Nat.pow 10 i.toNat * Nat.pow 2 (-j).toNat ≤ b * Nat.pow 2 j.toNat * Nat.pow 10 (-i).toNat

/-- `b * 2 ^ j ≤ a * 10 ^ i` -/
def scaledAtLeast (a : Nat) (i : Int) (b : Nat) (j : Int) : Bool :=
  b * Nat.pow 2 j.toNat * Nat.pow 10 (-i).toNat ≤ a * Nat.pow 10 i.toNat * Nat.pow 2 (-j).toNat

/-- Whether `digits * 10 ^ power` is stored as `mantissa * 2 ^ exponent`. It lies between the
midpoints to the neighbours, of which the lower one is nearer above a power of two. The midpoints
themselves belong to the even mantissas. -/
def readsBack (mantissa : Nat) (exponent : Int) (digits : Nat) (power : Int) : Bool :=
  let narrow := mantissa = Nat.pow 2 (mantissaSize - 1) ∧ leastExponent < exponent
  let low := 4 * mantissa - if narrow then 1 else 2
  let high := 4 * mantissa + 2
  scaledAtLeast digits power low (exponent - 2) && scaledAtMost digits power high (exponent - 2) &&
    (mantissa % 2 = 0 ||
      !scaledAtMost digits power low (exponent - 2) &&
      !scaledAtLeast digits power high (exponent - 2))

/-- The number of decimal digits that identify every number. -/
def digitLimit : Nat := 17

/-- The least power of ten above a positive quotient. -/
def powerAbove (num den : Nat) : Int :=
  if den ≤ num then Decimal.digitCount (num / den)
  else
    let zeros := (List.range powerBound.toNat).find? fun zeros =>
      den ≤ num * Nat.pow 10 (zeros + 1)
    0 - zeros.getD 0

/-- Of the two decimals that end at a power of ten and enclose a positive number, the one that is
stored as this number; of two such, the nearer. -/
def digitsAt? (mantissa : Nat) (exponent power : Int) : Option Nat :=
  let (num, den) := scaledDown mantissa 1 (-exponent)
  let num := num * Nat.pow 10 (-power).toNat
  let den := den * Nat.pow 10 power.toNat
  let below := num / den
  match readsBack mantissa exponent below power, readsBack mantissa exponent (below + 1) power with
  | true, true => some (roundedQuotient num den)
  | true, false => some below
  | false, true => some (below + 1)
  | false, false => none

/-- The fewest digits that identify a positive number, and the power of ten at which they end. -/
def shortestDigits (mantissa : Nat) (exponent : Int) : Nat × Int :=
  let (num, den) := scaledDown mantissa 1 (-exponent)
  let above := powerAbove num den
  let found := (List.range digitLimit).findSome? fun (n : Nat) =>
    let power : Int := above - (n + 1)
    (digitsAt? mantissa exponent power).map fun digits => (digits, power)
  found.getD (0, 0)

/-! ### Layout -/

/-- The number of digits in front of the point from which on a number has an exponent. -/
def pointLimit : Int := 16

/-- The number of zeros behind the point from which on a number has an exponent. -/
def zeroLimit : Int := 4

/-- An exponent with its sign and at least two digits. -/
def exponentText (exponent : Int) : List Char :=
  let digits := Nat.toDigits 10 exponent.natAbs
  'e' :: (if exponent < 0 then '-' else '+') :: List.replicate (2 - digits.length) '0' ++ digits

/-- Digits with a point after the first `point` of them, or with an exponent. -/
def layOut (digits : List Char) (point : Int) : List Char :=
  let zeros (n : Int) := List.replicate n.toNat '0'
  if point ≤ -zeroLimit ∨ pointLimit < point then
    digits.take 1 ++ (if digits.length = 1 then [] else '.' :: digits.drop 1) ++
      exponentText (point - 1)
  else if point ≤ 0 then '0' :: '.' :: zeros (-point) ++ digits
  else
    let whole := digits.take point.toNat
    let fraction := digits.drop point.toNat
    whole ++ zeros (point - digits.length) ++ '.' :: if fraction = [] then ['0'] else fraction

def text : Stored → String
  | .finite negative mantissa exponent =>
    let size :=
      if mantissa = 0 then ['0', '.', '0']
      else
        let (digits, power) := shortestDigits mantissa exponent
        let chars := Nat.toDigits 10 digits
        layOut (chars.reverse.dropWhile (· = '0')).reverse (power + chars.length)
    String.ofList (if negative then '-' :: size else size)
  | .infinite negative => if negative then "-inf" else "inf"
  | .notANumber => "nan"

end Stored

end VendorTree
