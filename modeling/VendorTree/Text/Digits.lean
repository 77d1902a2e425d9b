/-!
# Digits

The digits of written numbers in the bases up to sixteen, with an underscore perhaps between two of
them, and the values of digits.
-/

namespace VendorTree.Text

def isDecimal (c : Char) : Bool := '0' ≤ c && c ≤ '9'

def isHexadecimal (c : Char) : Bool :=
  isDecimal c || ('a' ≤ c && c ≤ 'f') || ('A' ≤ c && c ≤ 'F')

def isOctal (c : Char) : Bool := '0' ≤ c && c ≤ '7'

def isBinary (c : Char) : Bool := c = '0' || c = '1'

/-- The digits that follow a first one, each of them perhaps after an underscore, and the rest. -/
def moreDigits (ok : Char → Bool) : List Char → List Char × List Char
  | [] => ([], [])
  | c :: rest =>
    if ok c then
      let (ds, rest) := moreDigits ok rest
      (c :: ds, rest)
    else match c, rest with
      | '_', d :: rest' =>
        if ok d then
          let (ds, rest'') := moreDigits ok rest'
          (d :: ds, rest'')
        else ([], c :: rest)
      | _, _ => ([], c :: rest)

/-- One or more digits and the rest. -/
def digitRun (ok : Char → Bool) : List Char → Option (List Char × List Char)
  | c :: rest =>
    if ok c then
      let (ds, rest) := moreDigits ok rest
      some (c :: ds, rest)
    else none
  | [] => none

/-- The value of a digit in any base up to sixteen. -/
def digitValue (c : Char) : Nat :=
  if isDecimal c then c.toNat - 48 else if 'a' ≤ c then c.toNat - 87 else c.toNat - 55

def valueIn (base : Nat) (ds : List Char) : Nat :=
  ds.foldl (fun n d => base * n + digitValue d) 0

end VendorTree.Text
