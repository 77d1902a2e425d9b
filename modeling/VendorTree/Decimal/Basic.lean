/-!
# Decimal numbers

A number with a decimal point or an exponent, kept exactly, and the binary number that it becomes
when it is stored: the nearest one with 53 significant binary digits. Of two that are equally near,
the one with the even mantissa is stored.
-/

namespace VendorTree

/-- A decimal number: `digits * 10 ^ exponent` with a sign, or one of the values that are no
numbers. -/
inductive Decimal
  | finite (negative : Bool) (digits : Nat) (exponent : Int)
  | infinite (negative : Bool)
  | notANumber
  deriving DecidableEq, Repr

/-- A stored number: `mantissa * 2 ^ exponent` with a sign, or one of the values that are no
numbers. -/
inductive Stored
  | finite (negative : Bool) (mantissa : Nat) (exponent : Int)
  | infinite (negative : Bool)
  | notANumber
  deriving DecidableEq, Repr

namespace Decimal

def digitsValue (ds : List Char) : Nat := ds.foldl (fun n d => 10 * n + (d.toNat - 48)) 0

/-- The number with the given digits before and after the point and the given exponent. -/
def ofParts (negative : Bool) (whole fraction : List Char) (exponent : Int) : Decimal :=
  .finite negative (digitsValue (whole ++ fraction)) (exponent - fraction.length)

def digitCount (n : Nat) : Nat := (Nat.toDigits 10 n).length

end Decimal

/-! ### Rounding -/

/-- The quotient rounded to a whole number. A half goes to the even neighbour. -/
def roundedQuotient (num den : Nat) : Nat :=
  let quotient := num / den
  let rest := 2 * (num % den)
  if rest < den ∨ (rest = den ∧ quotient % 2 = 0) then quotient else quotient + 1

/-- The numerator and the denominator of `num / den / 2 ^ exponent`. -/
def scaledDown (num den : Nat) (exponent : Int) : Nat × Nat :=
  (num * Nat.pow 2 (-exponent).toNat, den * Nat.pow 2 exponent.toNat)

namespace Stored

/-- The number of binary digits of a mantissa. -/
def mantissaSize : Nat := 53

/-- The exponent of the smallest positive number. -/
def leastExponent : Int := -1074

/-- The exponent of the largest numbers. -/
def greatestExponent : Int := 971

/-- The exponent of the binary place to which a positive quotient is rounded. -/
def placeOf (num den : Nat) : Int :=
  let guess : Int := max leastExponent ((num.log2 : Int) - den.log2 - mantissaSize)
  let (n, d) := scaledDown num den guess
  if n / d < Nat.pow 2 mantissaSize then guess else guess + 1

/-- The stored number of a quotient. A mantissa that grew by rounding is halved. -/
def ofQuotient (negative : Bool) (num den : Nat) : Stored :=
  if num = 0 then .finite negative 0 leastExponent
  else
    let place := placeOf num den
    let (n, d) := scaledDown num den place
    let mantissa := roundedQuotient n d
    let (mantissa, place) :=
      if mantissa = Nat.pow 2 mantissaSize then (mantissa / 2, place + 1) else (mantissa, place)
    if greatestExponent < place then .infinite negative else .finite negative mantissa place

/-- The power of ten below whose inverse every number is stored as zero, and above which every
number is too large. -/
def powerBound : Int := 400

/-- The stored number of a decimal one. -/
def ofDecimal : Decimal → Stored
  | .finite negative digits exponent =>
    let size := exponent + Decimal.digitCount digits
    if digits = 0 ∨ size < -powerBound then .finite negative 0 leastExponent
    else if powerBound < size then .infinite negative
    else ofQuotient negative (digits * Nat.pow 10 exponent.toNat) (Nat.pow 10 (-exponent).toNat)
  | .infinite negative => .infinite negative
  | .notANumber => .notANumber

def whole? : Stored → Option Int
  | .finite negative mantissa exponent =>
    let divisor := Nat.pow 2 (-exponent).toNat
    if mantissa % divisor = 0 then
      let size : Int := (mantissa / divisor * Nat.pow 2 exponent.toNat : Nat)
      some (if negative then -size else size)
    else none
  | .infinite _ | .notANumber => none

end Stored

end VendorTree
