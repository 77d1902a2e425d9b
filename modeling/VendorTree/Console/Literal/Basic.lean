import VendorTree.Console.Literal.Token

/-!
# Literals

A literal is a constant value that is written out: a number, perhaps with a sign or with an
imaginary part, texts, tuples, sets and tables of other literals. What is a key of a table or an
item of a set must not hold a set or a table itself. The value is of no concern here, only whether
there is one.
-/

namespace VendorTree.Console.Literal

/-- What is known about the value of a literal. -/
inductive Shape
  | real
  | imaginary
  | signedReal
  /-- Any other value that can be a key. -/
  | key
  /-- A value that cannot be a key. -/
  | holder
  /-- No value, but the word that makes an empty set if it is called. -/
  | setWord
  deriving DecidableEq, Repr

namespace Shape

def isValue (s : Shape) : Bool := s ≠ .setWord

def isKey (s : Shape) : Bool := s ≠ .setWord && s ≠ .holder

/-- The value with a sign in front of it. Only plain numbers can have one. -/
def signed? : Shape → Option Shape
  | .real => some .signedReal
  | .imaginary => some .key
  | _ => none

/-- The sum or the difference of two values. Only a real and an imaginary part have one. -/
def sum? (a b : Shape) : Option Shape :=
  if (a = .real ∨ a = .signedReal) ∧ b = .imaginary then some .key else none

/-- A value that is followed by a pair of brackets with nothing between them. -/
def called? (s : Shape) : Option Shape := if s = .setWord then some .holder else none

end Shape

abbrev Read := Option (Shape × List Token)

/-- Apply what was read to brackets with nothing between them, if they follow. -/
def readCall (s : Shape) : List Token → Read
  | .symbol '(' :: .symbol ')' :: rest => s.called?.map fun s => (s, rest)
  | ts => some (s, ts)

mutual
/-- A value that may be a sum. The number bounds how deep literals lie in each other and how long
they are. -/
def readSum : (fuel : Nat) → List Token → Read
  | 0, _ => none
  | fuel + 1, ts => do
    let (left, rest) ← readSigned fuel ts
    match rest with
    | .symbol c :: more =>
      if c = '+' ∨ c = '-' then
        let (right, rest) ← readSigned fuel more
        return (← left.sum? right, rest)
      else return (left, rest)
    | rest => return (left, rest)
/-- A value that may have a sign. -/
def readSigned : (fuel : Nat) → List Token → Read
  | 0, _ => none
  | fuel + 1, ts =>
    match ts with
    | .symbol '+' :: rest | .symbol '-' :: rest => do
      let (s, rest) ← readSigned fuel rest
      return (← s.signed?, rest)
    | .number imaginary :: rest => some (if imaginary then .imaginary else .real, rest)
    | .text :: rest => some (.key, rest.dropWhile (· = .text))
    | .bytes :: rest => some (.key, rest.dropWhile (· = .bytes))
    | .constant :: rest => some (.key, rest)
    | .setWord :: rest => readCall .setWord rest
    | .symbol '(' :: rest => do
      let (s, rest) ← readTuple fuel rest
      readCall s rest
    | .symbol '\x7b' :: rest => readBraces fuel rest
    | _ => none
/-- What follows an opening bracket: a value in brackets or a tuple. -/
def readTuple : (fuel : Nat) → List Token → Read
  | 0, _ => none
  | _ + 1, .symbol ')' :: rest => some (.key, rest)
  | fuel + 1, ts => do
    let (first, rest) ← readSum fuel ts
    match rest with
    | .symbol ')' :: rest => return (first, rest)
    | .symbol ',' :: rest => if first.isValue then readItems fuel ')' first.isKey rest else none
    | _ => none
/-- What follows an opening brace: a table, or a set if its first item has no value. -/
def readBraces : (fuel : Nat) → List Token → Read
  | 0, _ => none
  | _ + 1, .symbol '\x7d' :: rest => some (.holder, rest)
  | fuel + 1, ts => do
    let (first, rest) ← readSum fuel ts
    if first.isKey then
      match rest with
      -- the first field is read once more, now with its value
      | .symbol ':' :: _ => readFields fuel ts
      | .symbol '\x7d' :: rest => return (.holder, rest)
      | .symbol ',' :: rest =>
        let (items, rest) ← readItems fuel '\x7d' true rest
        if items.isKey then return (.holder, rest) else none
      | _ => none
    else none
/-- Further items up to a closing bracket: all of them can be keys, if the items before can, or not
all of them. -/
def readItems : (fuel : Nat) → (closing : Char) → (keys : Bool) → List Token → Read
  | 0, _, _, _ => none
  | fuel + 1, closing, keys, ts =>
    if ts.head? = some (.symbol closing) then some (if keys then .key else .holder, ts.drop 1)
    else do
      let (item, rest) ← readSum fuel ts
      let keys := keys && item.isKey
      if item.isValue then
        if rest.head? = some (.symbol ',') then readItems fuel closing keys (rest.drop 1)
        else if rest.head? = some (.symbol closing) then
          return (if keys then .key else .holder, rest.drop 1)
        else none
      else none
/-- The fields of a table up to its closing brace. -/
def readFields : (fuel : Nat) → List Token → Read
  | 0, _ => none
  | fuel + 1, ts =>
    if ts.head? = some (.symbol '\x7d') then some (.holder, ts.drop 1)
    else do
      let (first, rest) ← readSum fuel ts
      if first.isKey ∧ rest.head? = some (.symbol ':') then
        let (value, rest) ← readSum fuel (rest.drop 1)
        if value.isValue then
          if rest.head? = some (.symbol ',') then readFields fuel (rest.drop 1)
          else if rest.head? = some (.symbol '\x7d') then return (.holder, rest.drop 1)
          else none
        else none
      else none
end

/-- A text is a literal. Several values with commas between them are a tuple. -/
def isLiteral (s : List Char) : Bool :=
  match scan s with
  | none | some [] => false
  | some ts =>
    match readTuple (6 * (ts.length + 2)) (ts ++ [.symbol ')']) with
    | some (shape, []) => shape.isValue
    | _ => false

end VendorTree.Console.Literal
