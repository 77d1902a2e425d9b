import VendorTree.Schema

/-!
# Reports on data

All errors in data as one text: a headline with their number, and for each error its place and a
line that says what is wrong and shows the value that was found. Long values are abbreviated.
-/

namespace VendorTree

namespace Text

/-- The first characters of a text that fit into so many bytes. -/
def takeBytes : (bytes : Nat) → List Char → List Char
  | _, [] => []
  | bytes, c :: cs => if c.utf8Size ≤ bytes then c :: takeBytes (bytes - c.utf8Size) cs else []

/-- The number of bytes that a value in a report may have. -/
def shownBytes : Nat := 50

/-- A text, or its beginning and its end if it is long. -/
def abbreviated (s : String) : String :=
  if s.utf8ByteSize ≤ shownBytes then s
  else
    let start := takeBytes (shownBytes / 2) s.toList
    let tail := (takeBytes (shownBytes / 2 - 1) s.toList.reverse).reverse
    String.ofList (start ++ ['.', '.', '.'] ++ tail)

end Text

namespace Issue

/-- The value that was found, with the names of the complaint and of the kind of the value. -/
def evidence (i : Issue) : String :=
  "[type=" ++ i.complaint.label ++ ", input_value=" ++ Text.abbreviated i.found.shown ++
    ", input_type=" ++ i.found.kind ++ "]"

def reportLines (i : Issue) : List String :=
  (if i.place = [] then [] else [".".intercalate i.place]) ++
    ["  " ++ i.complaint.message ++ " " ++ i.evidence]

end Issue

/-- The report on the errors in data that are to be of some model. -/
def reportText (model : String) (issues : List Issue) : String :=
  let errors := if issues.length = 1 then " validation error for " else " validation errors for "
  "\n".intercalate
    ((toString issues.length ++ errors ++ model) :: issues.flatMap Issue.reportLines)

end VendorTree
