import VendorTree.Data
import VendorTree.Text.Digits

/-!
# Numbers, dates and times in documents

A number is read from the front of a list of characters as far as it reaches; an underscore may
stand between two of its digits. A date is checked against the calendar.
-/

namespace VendorTree.Toml

open Text (digitRun isBinary isDecimal isHexadecimal isOctal valueIn)

/-! ### Numbers -/

/-- The number of digits that a whole number in decimal notation may have. -/
def wholeDigitLimit : Nat := 4300

inductive Number
  | whole (i : Int)
  /-- A whole number with more digits than can be converted. -/
  | outsized
  | decimal (d : Decimal)

/-- A whole number in a base other than ten, from behind its leading zero. -/
def readBased : List Char → Option (Number × List Char)
  | 'x' :: rest => based 16 isHexadecimal rest
  | 'o' :: rest => based 8 isOctal rest
  | 'b' :: rest => based 2 isBinary rest
  | _ => none
where
  /-- The digits in the base. -/
  based (base : Nat) (ok : Char → Bool) (s : List Char) : Option (Number × List Char) :=
    (digitRun ok s).map fun (ds, rest) => (.whole (valueIn base ds), rest)

/-- The sign in front of a number, true for a minus, and the rest. -/
def readSign : List Char → Bool × List Char
  | '-' :: rest => (true, rest)
  | '+' :: rest => (false, rest)
  | s => (false, s)

/-- The digits in front of the point: a lone zero, or digits that do not start with one. -/
def readWhole : List Char → Option (List Char × List Char)
  | '0' :: rest => some (['0'], rest)
  | s => digitRun isDecimal s

/-- The digits behind a point, if there are any. -/
def readFraction : List Char → Option (List Char) × List Char
  | '.' :: rest =>
    match digitRun isDecimal rest with
    | some (ds, rest) => (some ds, rest)
    | none => (none, '.' :: rest)
  | s => (none, s)

/-- The exponent behind its mark, if there is one. -/
def readExponent : List Char → Option Int × List Char
  | c :: rest =>
    if c = 'e' ∨ c = 'E' then
      let (negative, digits) := readSign rest
      match digitRun isDecimal digits with
      | some (ds, rest) =>
        let n : Int := Decimal.digitsValue ds
        (some (if negative then -n else n), rest)
      | none => (none, c :: rest)
    else (none, c :: rest)
  | [] => (none, [])

def readDecimal (s : List Char) : Option (Number × List Char) := do
  let (negative, s) := readSign s
  let (whole, s) ← readWhole s
  let (fraction, s) := readFraction s
  let (exponent, s) := readExponent s
  if fraction.isNone ∧ exponent.isNone then
    if wholeDigitLimit < whole.length then return (.outsized, s)
    else
      let n : Int := Decimal.digitsValue whole
      return (.whole (if negative then -n else n), s)
  else
    return (.decimal (.ofParts negative whole (fraction.getD []) (exponent.getD 0)), s)

def readNumber : List Char → Option (Number × List Char)
  | '0' :: rest => (readBased rest).or (readDecimal ('0' :: rest))
  | s => readDecimal s

/-- One of the values that are written as a word, perhaps with a sign. -/
def readSpecial (s : List Char) : Option (Decimal × List Char) :=
  let (negative, s) := readSign s
  if ['i', 'n', 'f'].isPrefixOf s then some (.infinite negative, s.drop 3)
  else if ['n', 'a', 'n'].isPrefixOf s then some (.notANumber, s.drop 3)
  else none

/-! ### Dates and times -/

/-- Two decimal digits that make a number in a range. -/
def twoDigits (low high : Nat) : List Char → Option (Nat × List Char)
  | a :: b :: rest =>
    let n := valueIn 10 [a, b]
    if isDecimal a && isDecimal b && low ≤ n && n ≤ high then some (n, rest) else none
  | _ => none

/-- The rest behind a character that must come first. -/
def expect (c : Char) : List Char → Option (List Char)
  | d :: rest => if d = c then some rest else none
  | [] => none

/-- The number of digits of a fraction of a second that are kept. -/
def fractionDigits : Nat := 6

/-- The fraction of a second behind a point in microseconds, zero if there is none, and the rest. -/
def readMicroseconds : List Char → Nat × List Char
  | '.' :: d :: rest =>
    let digits := (d :: rest).takeWhile isDecimal
    let kept := digits.take fractionDigits
    if isDecimal d then
      (valueIn 10 kept * Nat.pow 10 (fractionDigits - kept.length), (d :: rest).drop digits.length)
    else (0, '.' :: d :: rest)
  | s => (0, s)

/-- A time of day and the rest behind it. -/
def readTime (s : List Char) : Option (TimeOfDay × List Char) := do
  let (hour, s) ← twoDigits 0 23 s
  let (minute, s) ← twoDigits 0 59 (← expect ':' s)
  let (second, s) ← twoDigits 0 59 (← expect ':' s)
  let (microsecond, s) := readMicroseconds s
  return (⟨hour, minute, second, microsecond⟩, s)

/-- The distance from universal time in minutes, if it is given, and the rest. -/
def readOffset : List Char → Option Int × List Char
  | c :: rest =>
    if c = 'Z' ∨ c = 'z' then (some 0, rest)
    else if c = '+' ∨ c = '-' then
      let distance : Option (Nat × List Char) := do
        let (hours, s) ← twoDigits 0 23 rest
        let (minutes, s) ← twoDigits 0 59 (← expect ':' s)
        return (60 * hours + minutes, s)
      match distance with
      | some (minutes, rest) => (some (if c = '-' then -(minutes : Int) else minutes), rest)
      -- a sign without a distance is left to what follows the moment
      | none => (none, c :: rest)
    else (none, c :: rest)
  | [] => (none, [])

def daysInMonth (year month : Nat) : Nat :=
  if month = 2 then
    if year % 4 = 0 ∧ (year % 100 ≠ 0 ∨ year % 400 = 0) then 29 else 28
  else if month ∈ [4, 6, 9, 11] then 30 else 31

/-- A day by its numbers, and the rest behind it. -/
def readDay (s : List Char) : Option (Day × List Char) := do
  let (century, s) ← twoDigits 0 99 s
  let (ofCentury, s) ← twoDigits 0 99 s
  let (month, s) ← twoDigits 1 12 (← expect '-' s)
  let (day, s) ← twoDigits 1 31 (← expect '-' s)
  return (⟨100 * century + ofCentury, month, day⟩, s)

def inCalendar (d : Day) : Bool := 1 ≤ d.year && d.day ≤ daysInMonth d.year d.month

/-- A day with the time of day that may follow it, and the rest. -/
def readTimeAfter (d : Day) : List Char → Moment × List Char
  | c :: rest =>
    if c = 'T' ∨ c = 't' ∨ c = ' ' then
      match readTime rest with
      | some (time, s) =>
        let (offset, s) := readOffset s
        (.dayTime d time offset, s)
      | none => (.day d, c :: rest)
    else (.day d, c :: rest)
  | [] => (.day d, [])

/-- A day, a day with a time of day, or a time of day: nothing in its place if the calendar does not
have the day, and the rest behind it. -/
def readMoment (s : List Char) : Option (Option Moment × List Char) :=
  match readDay s with
  | some (d, s) =>
    let (moment, s) := readTimeAfter d s
    some (if inCalendar d then some moment else none, s)
  | none => (readTime s).map fun (time, s) => (some (.time time), s)

end VendorTree.Toml
