import VendorTree.Decimal.Shortest
import VendorTree.Moment
import VendorTree.Text.Quoted

/-!
# Data

The values that a document holds before it is known what they are for, and how they are shown in
reports.
-/

namespace VendorTree

/-- A value of a document. -/
inductive Data
  | null
  | bool (b : Bool)
  | int (i : Int)
  | decimal (d : Decimal)
  | text (s : String)
  | moment (m : Moment)
  | list (items : List Data)
  | table (fields : List (String × Data))

namespace Data

def kind : Data → String
  | .null => "NoneType"
  | .bool _ => "bool"
  | .int _ => "int"
  | .decimal _ => "float"
  | .text _ => "str"
  | .moment m => m.kind
  | .list _ => "list"
  | .table _ => "dict"

/-- The number of digits that a whole number may have to be shown. -/
def shownDigitLimit : Nat := 4300

/-- A whole number, unless it has too many digits to be shown. -/
def wholeText? (i : Int) : Option String :=
  if i.natAbs < Nat.pow 10 shownDigitLimit then some (toString i) else none

mutual
/-- A value in full, unless a number in it cannot be shown. -/
def text? : Data → Option String
  | .null => some "None"
  | .bool b => some (if b then "True" else "False")
  | .int i => wholeText? i
  | .decimal d => some (Stored.ofDecimal d).text
  | .text s => some (Text.quoted s)
  | .moment m => some m.text
  | .list items => (itemTexts? items).map fun texts => "[" ++ ", ".intercalate texts ++ "]"
  | .table fields =>
    (fieldTexts? fields).map fun texts => "\x7b" ++ ", ".intercalate texts ++ "\x7d"
def itemTexts? : List Data → Option (List String)
  | [] => some []
  | d :: ds => do return (← text? d) :: (← itemTexts? ds)
def fieldTexts? : List (String × Data) → Option (List String)
  | [] => some []
  | (k, d) :: rest => do return (Text.quoted k ++ ": " ++ (← text? d)) :: (← fieldTexts? rest)
end

/-- The text of a value for a report. -/
def shown (d : Data) : String := d.text?.getD ("<unprintable " ++ d.kind ++ " object>")

end Data

end VendorTree
