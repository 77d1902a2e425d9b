import VendorTree.Text.Digits
import VendorTree.Text.Word

/-!
# Tokens of literals

A literal is written with numbers, quoted texts, a few words, brackets and signs. What does not
belong to any of these is no literal. Line ends count as blanks between brackets; elsewhere the
first one after a token ends the literal.
-/

namespace VendorTree.Console.Literal

inductive Token
  /-- A number without sign, which is imaginary or real. -/
  | number (imaginary : Bool)
  | text
  | bytes
  /-- A word or a sign that stands for a value of its own. -/
  | constant
  | setWord
  | symbol (c : Char)
  deriving DecidableEq, Repr

open Text (digitRun isBinary isDecimal isHexadecimal isOctal)

/-! ### Numbers -/

/-- The rest behind an underscore that may come first. -/
def skipUnderscore : List Char → List Char
  | '_' :: rest => rest
  | s => s

/-- The class of the digits behind a base letter. -/
def baseDigits? (letter : Char) : Option (Char → Bool) :=
  if letter ∈ ['x', 'X'] then some isHexadecimal
  else if letter ∈ ['o', 'O'] then some isOctal
  else if letter ∈ ['b', 'B'] then some isBinary
  else none

/-- The rest behind the exponent that may come first. -/
def skipExponent : List Char → Option (List Char)
  | c :: rest =>
    if c = 'e' ∨ c = 'E' then
      let digits := match rest with
        | d :: more => if d = '+' ∨ d = '-' then more else d :: more
        | [] => []
      (digitRun isDecimal digits).map Prod.snd
    else some (c :: rest)
  | [] => some []

/-- The number of digits that a whole number may have. -/
def wholeDigitLimit : Nat := 4300

/-- The digits of a whole number: it does not begin with a zero unless it is one, and it is not too
long. -/
def isWhole (digits : List Char) : Bool :=
  if digits.head? = some '0' then digits.all (· = '0') else digits.length ≤ wholeDigitLimit

def scanDecimal (s : List Char) : Option (Token × List Char) := do
  let (whole, afterWhole) := (digitRun isDecimal s).getD ([], s)
  let (hasFraction, afterFraction) := match afterWhole with
    | '.' :: rest => (true, ((digitRun isDecimal rest).map Prod.snd).getD rest)
    | rest => (false, rest)
  let afterExponent ← skipExponent afterFraction
  let isFractional := hasFraction || afterExponent.length < afterFraction.length
  match afterExponent with
  | c :: rest =>
    if c = 'j' ∨ c = 'J' then return (.number true, rest)
    else if isFractional || isWhole whole then return (.number false, c :: rest) else none
  | [] => if isFractional || isWhole whole then return (.number false, []) else none

def scanNumber : List Char → Option (Token × List Char)
  | '0' :: letter :: rest =>
    match baseDigits? letter with
    | some ok => (digitRun ok (skipUnderscore rest)).map fun (_, rest) => (.number false, rest)
    | none => scanDecimal ('0' :: letter :: rest)
  | s => scanDecimal s

def startsNumber : List Char → Bool
  | '.' :: c :: _ => isDecimal c
  | c :: _ => isDecimal c
  | [] => false

/-! ### Quoted texts -/

structure Quoting where
  quote : Char
  /-- The quotes are written three times, and there may be line ends between them. -/
  triple : Bool
  /-- Backslashes stand for themselves. -/
  raw : Bool
  bytes : Bool

/-- What the scanner of a quoted text is in the middle of. -/
inductive QuoteState
  | plain
  | escape
  /-- So many more hexadecimal digits follow, and the number so far. -/
  | hex (more : Nat) (value : Nat)
  /-- The name of a character must begin. -/
  | nameStart
  | name

/-- The number of hexadecimal digits behind an escape letter. -/
def Quoting.hexDigits? (q : Quoting) (letter : Char) : Option Nat :=
  if letter = 'x' then some 2
  else if q.bytes then none
  else if letter = 'u' then some 4
  else if letter = 'U' then some 8
  else none

def isNameChar (c : Char) : Bool := c.isAlphanum || c = ' ' || c = '-'

/-- The rest behind the closing quotes of a quoted text. -/
def scanQuoted (q : Quoting) : QuoteState → List Char → Option (List Char)
  | _, [] => none
  | state, c :: rest =>
    if q.bytes && 0x80 ≤ c.toNat then none
    else match state with
      | .plain =>
        if q.triple && [q.quote, q.quote, q.quote].isPrefixOf (c :: rest) then some (rest.drop 2)
        else if !q.triple && c = q.quote then some rest
        else if !q.triple && c = '\n' then none
        else scanQuoted q (if c = '\\' then .escape else .plain) rest
      | .escape =>
        -- the mark stays in a raw text, and yet a quote behind it closes nothing
        if q.raw then scanQuoted q .plain rest
        else match q.hexDigits? c with
          | some count => scanQuoted q (.hex (count - 1) 0) rest
          | none => scanQuoted q (if c = 'N' && !q.bytes then .nameStart else .plain) rest
      | .hex more value =>
        if isHexadecimal c then
          let value := 16 * value + Text.digitValue c
          match more with
          | more + 1 => scanQuoted q (.hex more value) rest
          | 0 => if value < 0x110000 then scanQuoted q .plain rest else none
        else none
      | .nameStart =>
        if c = '\x7b' && (rest.head?.map isNameChar).getD false then scanQuoted q .name rest
        else none
      | .name =>
        if c = '\x7d' then scanQuoted q .plain rest
        else if isNameChar c then scanQuoted q .name rest
        else none

/-- The quoting that letters in front of a quote ask for: raw, bytes or neither. -/
def quotingOf? (letters : List Char) (quote : Char) (triple : Bool) : Option Quoting :=
  let small := letters.map Char.toLower
  if small = [] ∨ small = ['u'] then some ⟨quote, triple, false, false⟩
  else if small = ['r'] then some ⟨quote, triple, true, false⟩
  else if small = ['b'] then some ⟨quote, triple, false, true⟩
  else if small = ['b', 'r'] ∨ small = ['r', 'b'] then some ⟨quote, triple, true, true⟩
  else none

/-- A quoted text behind the letters in front of it, from its first quote on. -/
def scanText (letters : List Char) : List Char → Option (Token × List Char)
  | [] => none
  | quote :: rest => do
    let triple := [quote, quote].isPrefixOf rest
    let q ← quotingOf? letters quote triple
    let rest ← scanQuoted q .plain (if triple then rest.drop 2 else rest)
    return (if q.bytes then .bytes else .text, rest)

/-! ### All tokens -/

def isQuote (c : Char) : Bool := c = '"' || c = '\''

def wordToken? (word : List Char) : Option Token :=
  let word := String.ofList word
  if word ∈ ["True", "False", "None"] then some .constant
  else if word = "set" then some .setWord
  else none

/-- A token that begins with a letter: a word, or a quoted text with letters in front of it. -/
def scanWord (s : List Char) : Option (Token × List Char) :=
  let word := s.takeWhile Text.isWordChar
  let rest := s.drop word.length
  if (rest.head?.map isQuote).getD false then scanText word rest
  else (wordToken? word).map fun token => (token, rest)

def scanToken (s : List Char) : Option (Token × List Char) :=
  match s with
  | [] => none
  | c :: rest =>
    if startsNumber s then scanNumber s
    else if ['.', '.', '.'].isPrefixOf s then some (.constant, s.drop 3)
    else if isQuote c then scanText [] s
    else if Text.isWordChar c then scanWord s
    else if c ∈ ['(', ')', '\x7b', '\x7d', ',', ':', '+', '-'] then some (.symbol c, rest)
    else none

def isSpace (c : Char) : Bool := c = ' ' || c = '\t' || c = '\x0c'

/-- The rest behind a comment that may come first. -/
def skipComment : List Char → List Char
  | '#' :: rest => rest.dropWhile (· ≠ '\n')
  | s => s

/-- The number of brackets that may be open at a time. -/
def bracketLimit : Nat := 200

/-- The number of open brackets after a token. There is none if too many are open, or one is closed
that was not opened. -/
def openAfter? (opened : Nat) : Token → Option Nat
  | .symbol '(' | .symbol '\x7b' => if opened < bracketLimit then some (opened + 1) else none
  | .symbol ')' | .symbol '\x7d' => if opened = 0 then none else some (opened - 1)
  | _ => some opened

/-- Only blanks, line ends and comments are left. The number bounds the lines. -/
def isBlankRest : (lines : Nat) → List Char → Bool
  | 0, _ => false
  | lines + 1, s =>
    match skipComment (s.dropWhile isSpace) with
    | [] => true
    | '\n' :: rest => isBlankRest lines rest
    | _ => false

/-- The tokens of a text in which brackets are open. The other number bounds the steps. -/
def scanWithin : (steps opened : Nat) → List Char → Option (List Token)
  | 0, _, _ => none
  | steps + 1, opened, s =>
    match skipComment (s.dropWhile isSpace) with
    | [] => some []
    | '\\' :: '\n' :: rest => scanWithin steps opened rest
    | '\n' :: rest =>
      if opened = 0 then (if isBlankRest (rest.length + 1) rest then some [] else none)
      else scanWithin steps opened rest
    | s => do
      let (token, rest) ← scanToken s
      let opened ← openAfter? opened token
      return token :: (← scanWithin steps opened rest)

/-- The text with each line end written as one line feed. -/
def unifyLineEnds : List Char → List Char
  | '\r' :: '\n' :: rest => '\n' :: unifyLineEnds rest
  | '\r' :: rest => '\n' :: unifyLineEnds rest
  | c :: rest => c :: unifyLineEnds rest
  | [] => []

/-- The rest behind the blanks in front of a line, and whether there are any. A form feed begins the
line anew. -/
def skipIndent : (indented : Bool) → List Char → Bool × List Char
  | indented, '\\' :: '\n' :: rest => skipIndent indented rest
  | indented, c :: rest =>
    if c = '\x0c' then skipIndent false rest
    else if isSpace c then skipIndent true rest
    else (indented, c :: rest)
  | indented, [] => (indented, [])

/-- The rest behind the lines that hold nothing but a comment. No blanks are in front of the first
other line. The number bounds the lines. -/
def skipCommentLines : (lines : Nat) → List Char → Option (List Char)
  | 0, _ => none
  | lines + 1, s =>
    let (indented, s) := skipIndent false s
    match skipComment s with
    | '\n' :: rest => skipCommentLines lines rest
    | _ => if indented then none else some s

def scan (s : List Char) : Option (List Token) := do
  let s := unifyLineEnds s
  if '\x00' ∈ s then none
  else
    let s ← skipCommentLines (s.length + 1) s
    scanWithin (s.length + 1) 0 s

end VendorTree.Console.Literal
