import VendorTree.Toml.Draft
import VendorTree.Toml.Number
import VendorTree.Toml.Text

/-!
# Reading documents

A document is a sequence of lines: headers, which say what table the following lines belong to, and
keys with their values, which may be lists and tables in turn. Reading takes statement after
statement from the front of the text.
-/

namespace VendorTree.Toml

/-- Why a text is not a document. -/
inductive Malformation
  /-- It does not have the form of one. -/
  | form
  | misfit (misfit : Misfit)
  deriving DecidableEq, Repr

def Malformation.message : Malformation → String
  | .form => "The text does not have the form of a document"
  | .misfit m => m.message

/-- Why a text is not read as a document. -/
inductive ReadError
  | malformed (reason : Malformation)
  /-- A whole number in it has too many digits. -/
  | outsized
  /-- Its values lie too deep in each other. -/
  | tooDeep
  deriving DecidableEq, Repr

/-- A part that is there or makes the text malformed. -/
def orMalformed {α : Type} : Option α → Except ReadError α
  | some a => .ok a
  | none => .error (.malformed .form)

/-- A change of a document that fits or makes the text malformed. -/
def orMisfit {α : Type} (change : Except Misfit α) : Except ReadError α :=
  change.mapError fun misfit => .malformed (.misfit misfit)

/-! ### Keys -/

/-- A character of a key without quotes. -/
def isKeyChar (c : Char) : Bool := c.isAlphanum || c = '-' || c = '_'

def readKeyPart : List Char → Option (String × List Char)
  | [] => none
  | c :: rest =>
    if isKeyChar c then
      some (String.ofList ((c :: rest).takeWhile isKeyChar), (c :: rest).dropWhile isKeyChar)
    else if c = '"' then (readQuoted .plain rest).map fun (s, rest) => (String.ofList s, rest)
    else if c = '\'' then (readLiteral rest).map fun (s, rest) => (String.ofList s, rest)
    else none

/-- A key of parts with dots between them: the parts before the last, the last part, and the rest
behind the blanks that follow. The number bounds how many parts there are. -/
def readKeyWithin : (parts : Nat) → List Char → Option ((List String × String) × List Char)
  | 0, _ => none
  | parts + 1, s => do
    let (part, s) ← readKeyPart s
    match skipSpaces s with
    | '.' :: rest => do
      let ((way, last), s) ← readKeyWithin parts (skipSpaces rest)
      return ((part :: way, last), s)
    | s => return (([], part), s)

def readKey (s : List Char) : Except ReadError ((List String × String) × List Char) :=
  orMalformed (readKeyWithin s.length s)

/-! ### Values -/

/-- A value other than a list or table. -/
def readScalar (s : List Char) : Except ReadError (Data × List Char) :=
  let text (r : Option (List Char × List Char)) : Except ReadError (Data × List Char) :=
    (orMalformed r).map fun (t, rest) => (.text (String.ofList t), rest)
  match s with
  | '"' :: '"' :: '"' :: rest => text (readQuotedLines .plain (dropFirstLineEnd rest))
  | '"' :: rest => text (readQuoted .plain rest)
  | '\'' :: '\'' :: '\'' :: rest => text (readLiteralLines (dropFirstLineEnd rest))
  | '\'' :: rest => text (readLiteral rest)
  | s =>
    if "true".toList.isPrefixOf s then .ok (.bool true, s.drop 4)
    else if "false".toList.isPrefixOf s then .ok (.bool false, s.drop 5)
    -- a moment starts with digits as a number does, so it is tried first
    else match readMoment s with
      | some (moment, rest) => (orMalformed moment).map fun m => (.moment m, rest)
      | none => match readNumber s with
        | some (.whole i, rest) => .ok (.int i, rest)
        | some (.outsized, _) => .error .outsized
        | some (.decimal d, rest) => .ok (.decimal d, rest)
        | none => (orMalformed (readSpecial s)).map fun (d, rest) => (.decimal d, rest)

/-- The room for values that lie in each other. A list takes two parts of it, and a table on one
line takes three. -/
def roomForValues : Nat := 986

mutual
/-- A value, for which there is some room. The other number bounds how many values there are. -/
def readValueWithin : (fuel room : Nat) → List Char → Except ReadError (Data × List Char)
  | 0, _, _ => .error (.malformed .form)
  | fuel + 1, room, '[' :: rest =>
    if room < 2 then .error .tooDeep
    else do
      let (items, rest) ← readItems fuel (room - 2) rest
      return (.list items, rest)
  | fuel + 1, room, '\x7b' :: rest =>
    if room < 3 then .error .tooDeep
    else match skipSpaces rest with
      | '\x7d' :: rest => return (.table [], rest)
      | rest => do
        let (fields, rest) ← readPairs fuel (room - 3) [] rest
        return (.table (finishFields fields), rest)
  | _ + 1, _, s => readScalar s
/-- The items of a list up to its closing bracket. -/
def readItems : (fuel room : Nat) → List Char → Except ReadError (List Data × List Char)
  | 0, _, _ => .error (.malformed .form)
  | fuel + 1, room, s => do
    match ← orMalformed (skipBlanks false s) with
    | ']' :: rest => return ([], rest)
    | s => do
      let (item, s) ← readValueWithin fuel room s
      match ← orMalformed (skipBlanks false s) with
      | ']' :: rest => return ([item], rest)
      -- the closing bracket may follow a comma
      | ',' :: rest => do
        let (items, rest) ← readItems fuel room rest
        return (item :: items, rest)
      | _ => .error (.malformed .form)
/-- The keys and values of a table on one line up to its closing brace. -/
def readPairs : (fuel room : Nat) → Fields → List Char → Except ReadError (Fields × List Char)
  | 0, _, _, _ => .error (.malformed .form)
  | fuel + 1, room, fields, s => do
    let ((way, last), s) ← readKey s
    let s ← orMalformed (expect '=' s)
    let (value, s) ← readValueWithin fuel room (skipSpaces s)
    let fields ← orMisfit (Fields.assignInLine way last value fields)
    match skipSpaces s with
    | '\x7d' :: rest => return (fields, rest)
    | ',' :: rest => readPairs fuel room fields (skipSpaces rest)
    | _ => .error (.malformed .form)
end

def readValue (s : List Char) : Except ReadError (Data × List Char) :=
  readValueWithin (2 * s.length + 2) roomForValues s

/-! ### Lines -/

/-- A document in the making: its fields, and the table that the next lines belong to. -/
structure Progress where
  fields : Fields
  header : List String

/-- A header of a table or of the next table of a list, from its first bracket on. -/
def readHeader (p : Progress) : List Char → Except ReadError (Progress × List Char)
  | '[' :: '[' :: rest => do
    let ((way, last), s) ← readKey (skipSpaces rest)
    let fields ← orMisfit (Fields.beginNext way last p.fields)
    let s ← orMalformed (expect ']' s)
    let s ← orMalformed (expect ']' s)
    return (⟨fields, way ++ [last]⟩, s)
  | '[' :: rest => do
    let ((way, last), s) ← readKey (skipSpaces rest)
    let fields ← orMisfit (Fields.declare way last p.fields)
    let s ← orMalformed (expect ']' s)
    return (⟨fields, way ++ [last]⟩, s)
  | _ => .error (.malformed .form)

def readAssignment (p : Progress) (s : List Char) : Except ReadError (Progress × List Char) := do
  let ((way, last), s) ← readKey s
  let s ← orMalformed (expect '=' s)
  let (value, s) ← readValue (skipSpaces s)
  let fields ← orMisfit (Fields.assign p.header way last value p.fields)
  return ({ p with fields }, s)

/-- The rest behind the end of a line, before which only blanks and a comment may stand. -/
def endLine (s : List Char) : Except ReadError (List Char) := do
  match ← orMalformed (skipComment (skipSpaces s)) with
  | [] => return []
  | '\n' :: rest => return rest
  | _ => .error (.malformed .form)

/-- The lines of a document, of which there may be as many as the number says. -/
def readLinesWithin : (lines : Nat) → Progress → List Char → Except ReadError Progress
  | 0, _, _ => .error (.malformed .form)
  | lines + 1, p, s =>
    match skipSpaces s with
    | [] => .ok p
    | '\n' :: rest => readLinesWithin lines p rest
    | '#' :: rest => do readLinesWithin lines p (← endLine ('#' :: rest))
    | '[' :: rest => do
      let (p, s) ← readHeader p ('[' :: rest)
      readLinesWithin lines p (← endLine s)
    | s => do
      let (p, s) ← readAssignment p s
      readLinesWithin lines p (← endLine s)

/-- The table that a text stands for as a document. -/
def readDocument (s : String) : Except ReadError Data := do
  let s := unifyLineEnds s.toList
  let p ← readLinesWithin (s.length + 1) ⟨[], []⟩ s
  return .table (finishFields p.fields)

end VendorTree.Toml
