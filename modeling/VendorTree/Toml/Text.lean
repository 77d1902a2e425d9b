/-!
# Quoted texts and blanks in documents

The leaves of a document that are made of characters: blanks, comments, and the four kinds of quoted
text. Each function takes its part from the front of a list of characters and leaves the rest, and
answers nothing where the characters are not of that kind. A text in double quotes is read by a
machine that takes one character at a time.
-/

namespace VendorTree.Toml

def isControl (c : Char) : Bool := c.toNat < 0x20 || c.toNat = 0x7f

/-- A character that may not stand in a comment or in a text on one line. -/
def isBarred (c : Char) : Bool := isControl c && c ≠ '\t'

/-- A character that may not stand in a text of several lines. -/
def isBarredInLines (c : Char) : Bool := isBarred c && c ≠ '\n'

def isSpace (c : Char) : Bool := c = ' ' || c = '\t'

def isBlank (c : Char) : Bool := isSpace c || c = '\n'

/-! ### Blanks and comments -/

/-- The rest after the blanks of a line. -/
def skipSpaces (s : List Char) : List Char := s.dropWhile isSpace

/-- The rest after a comment, from the end of its line on. A text without comment stays. -/
def skipComment : List Char → Option (List Char)
  | '#' :: rest =>
    if (rest.takeWhile (· ≠ '\n')).any isBarred then none else some (rest.dropWhile (· ≠ '\n'))
  | s => some s

/-- The rest after blanks, line ends and comments; `inComment` says that a comment has begun. -/
def skipBlanks (inComment : Bool) : List Char → Option (List Char)
  | [] => some []
  | c :: rest =>
    if c = '\n' then skipBlanks false rest
    else if inComment then if isBarred c then none else skipBlanks true rest
    else if isSpace c then skipBlanks false rest
    else if c = '#' then skipBlanks true rest
    else some (c :: rest)

/-- The text with each line end written as one character. -/
def unifyLineEnds : List Char → List Char
  | '\r' :: '\n' :: rest => '\n' :: unifyLineEnds rest
  | c :: rest => c :: unifyLineEnds rest
  | [] => []

/-! ### Texts in double quotes -/

def hexValue? (c : Char) : Option Nat :=
  if '0' ≤ c ∧ c ≤ '9' then some (c.toNat - 48)
  else if 'a' ≤ c ∧ c ≤ 'f' then some (c.toNat - 87)
  else if 'A' ≤ c ∧ c ≤ 'F' then some (c.toNat - 55)
  else none

def charOfNat? (n : Nat) : Option Char := if n.isValidChar then some (Char.ofNat n) else none

/-- The character that an escape of one letter stands for. -/
def escapedChar? : Char → Option Char
  | 'b' => some '\x08'
  | 't' => some '\t'
  | 'n' => some '\n'
  | 'f' => some '\x0c'
  | 'r' => some '\r'
  | '"' => some '"'
  | '\\' => some '\\'
  | _ => none

/-- What the reader of a text in double quotes is in the middle of. -/
inductive QuoteState
  | plain
  | escape
  /-- So many more hexadecimal digits belong to a character whose number so far is given. -/
  | hex (more : Nat) (value : Nat)
  /-- A backslash and a blank were read: the line must end. -/
  | lineEnd
  /-- Blanks and line ends are passed over. -/
  | blanks

def pushChar (c : Char) (r : Option (List Char × List Char)) : Option (List Char × List Char) :=
  r.map fun (s, rest) => (c :: s, rest)

/-- Read a text in double quotes on one line, up to its closing quote. -/
def readQuoted : QuoteState → List Char → Option (List Char × List Char)
  | _, [] => none
  | .plain, c :: rest =>
    if c = '"' then some ([], rest)
    else if c = '\\' then readQuoted .escape rest
    else if isBarred c then none
    else pushChar c (readQuoted .plain rest)
  | .escape, c :: rest =>
    if c = 'u' then readQuoted (.hex 3 0) rest
    else if c = 'U' then readQuoted (.hex 7 0) rest
    else match escapedChar? c with
      | some e => pushChar e (readQuoted .plain rest)
      | none => none
  | .hex more value, c :: rest =>
    match hexValue? c with
    | none => none
    | some d =>
      match more with
      | more + 1 => readQuoted (.hex more (16 * value + d)) rest
      | 0 => match charOfNat? (16 * value + d) with
        | some e => pushChar e (readQuoted .plain rest)
        | none => none
  | .lineEnd, _ | .blanks, _ => none

/-- At most two further closing quotes belong to a text of several lines. -/
def takeExtraQuotes (quote : Char) (s : List Char) : List Char × List Char :=
  let extra := (s.take 2).takeWhile (· = quote)
  (extra, s.drop extra.length)

/-- Read a text of several lines in double quotes, up to its closing quotes. -/
def readQuotedLines : QuoteState → List Char → Option (List Char × List Char)
  | _, [] => none
  | state, c :: rest =>
    match state with
    | .escape =>
      if c = 'u' then readQuotedLines (.hex 3 0) rest
      else if c = 'U' then readQuotedLines (.hex 7 0) rest
      -- blanks may stand behind the mark if nothing else does on its line
      else if isSpace c then readQuotedLines .lineEnd rest
      else if c = '\n' then readQuotedLines .blanks rest
      else match escapedChar? c with
        | some e => pushChar e (readQuotedLines .plain rest)
        | none => none
    | .hex more value =>
      match hexValue? c with
      | none => none
      | some d =>
        match more with
        | more + 1 => readQuotedLines (.hex more (16 * value + d)) rest
        | 0 => match charOfNat? (16 * value + d) with
          | some e => pushChar e (readQuotedLines .plain rest)
          | none => none
    | .lineEnd =>
      if isSpace c then readQuotedLines .lineEnd rest
      else if c = '\n' then readQuotedLines .blanks rest
      else none
    | state =>
      if (state matches .blanks) && isBlank c then readQuotedLines .blanks rest
      else if ['"', '"', '"'].isPrefixOf (c :: rest) then
        some (takeExtraQuotes '"' (rest.drop 2))
      else if c = '\\' then readQuotedLines .escape rest
      else if isBarredInLines c then none
      else pushChar c (readQuotedLines .plain rest)

/-! ### Texts in single quotes -/

/-- Read a text in single quotes on one line, up to its closing quote. -/
def readLiteral : List Char → Option (List Char × List Char)
  | [] => none
  | c :: rest =>
    if c = '\'' then some ([], rest)
    else if isBarred c then none
    else pushChar c (readLiteral rest)

/-- Read a text of several lines in single quotes, up to its closing quotes. -/
def readLiteralLines : List Char → Option (List Char × List Char)
  | [] => none
  | c :: rest =>
    if ['\'', '\'', '\''].isPrefixOf (c :: rest) then some (takeExtraQuotes '\'' (rest.drop 2))
    else if isBarredInLines c then none
    else pushChar c (readLiteralLines rest)

/-- The rest after a line end in front, which does not belong to a text of several lines. -/
def dropFirstLineEnd : List Char → List Char
  | '\n' :: rest => rest
  | s => s

end VendorTree.Toml
