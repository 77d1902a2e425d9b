import VendorTree.Text.Quoted
import VendorTree.Toml.Text

/-!
# Writing documents

The forms in which texts and truth values are written so that they are read again.
-/

namespace VendorTree.Toml

/-- How a character is written inside double quotes. -/
def writeChar (c : Char) : List Char :=
  if c = '"' then ['\\', '"']
  else if c = '\\' then ['\\', '\\']
  else if c = '\x08' then ['\\', 'b']
  else if c = '\n' then ['\\', 'n']
  else if c = '\x0c' then ['\\', 'f']
  else if c = '\r' then ['\\', 'r']
  else if isBarred c then '\\' :: 'u' :: Text.hexDigits 4 c.toNat
  else [c]

def writeText (s : List Char) : List Char := '"' :: s.flatMap writeChar ++ ['"']

def writeBool (b : Bool) : List Char := (if b then "true" else "false").toList

def writePair (key : String) (value : List Char) : List Char :=
  key.toList ++ [' ', '=', ' '] ++ value

end VendorTree.Toml
