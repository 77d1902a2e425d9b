import VendorTree.Data

/-!
# Checking data

A schema says which data are accepted and what they mean. Checking goes on after the first error, so
that the answer for data that are not accepted lists every error with its place.
-/

namespace VendorTree

inductive Complaint
  | missing
  | extraForbidden
  | boolParsing
  | boolType
  | stringType
  | stringTooShort
  | listType
  /-- The value is not a table, as the named model needs it. -/
  | modelType (model : String)
  /-- The parts are accepted and do not fit together. -/
  | value (reason : String)

namespace Complaint

def label : Complaint → String
  | .missing => "missing"
  | .extraForbidden => "extra_forbidden"
  | .boolParsing => "bool_parsing"
  | .boolType => "bool_type"
  | .stringType => "string_type"
  | .stringTooShort => "string_too_short"
  | .listType => "list_type"
  | .modelType _ => "model_type"
  | .value _ => "value_error"

def message : Complaint → String
  | .missing => "Field required"
  | .extraForbidden => "Extra inputs are not permitted"
  | .boolParsing => "Input should be a valid boolean, unable to interpret input"
  | .boolType => "Input should be a valid boolean"
  | .stringType => "Input should be a valid string"
  | .stringTooShort => "String should have at least 1 character"
  | .listType => "Input should be a valid list"
  | .modelType model => "Input should be a valid dictionary or instance of " ++ model
  | .value reason => "Value error, " ++ reason

end Complaint

/-- An error in data: the way to its place, what is wrong there, and the value that was found. -/
structure Issue where
  place : List String
  complaint : Complaint
  found : Data

def textsBefore : List String → List String → Bool
  | [], _ => true
  | _ :: _, [] => false
  | a :: as, b :: bs => if a = b then textsBefore as bs else a < b

/-- Issues in the order of their places; at one place, in the order of identifiers and wordings. -/
def sortIssues (issues : List Issue) : List Issue :=
  issues.mergeSort fun a b =>
    if a.place ≠ b.place then textsBefore a.place b.place
    else textsBefore [a.complaint.label, a.complaint.message]
      [b.complaint.label, b.complaint.message]

/-- A checked value, or all the errors that were found. -/
def Checked (α : Type) : Type := Except (List Issue) α

namespace Checked

variable {α β : Type}

/-- Both parts are checked, and the errors of both are kept. -/
instance : Applicative Checked where
  pure a := Except.ok a
  seq f x := match f, x () with
    | .ok g, .ok a => .ok (g a)
    | .ok _, .error es => .error es
    | .error es, .ok _ => .error es
    | .error es, .error fs => .error (es ++ fs)

/-- The data are wrong at this very place. -/
def reject (complaint : Complaint) (found : Data) : Checked α := .error [⟨[], complaint, found⟩]

/-- The errors of a part, seen from the whole that holds the part under `key`. -/
def under (key : String) : Checked α → Checked α
  | .ok a => .ok a
  | .error es => .error (es.map fun e => { e with place := key :: e.place })

/-- A further check of a value whose parts are accepted. -/
def andThen (x : Checked α) (f : α → Checked β) : Checked β :=
  match x with
  | .ok a => f a
  | .error es => .error es

/-- Check each item of a list; their places are their positions. -/
def items (check : Data → Checked α) : (position : Nat) → List Data → Checked (List α)
  | _, [] => .ok []
  | position, d :: ds =>
    List.cons <$> under (toString position) (check d) <*> items check (position + 1) ds

end Checked

/-! ### Simple values -/

namespace Data

def noWords : List String := ["0", "off", "f", "false", "n", "no"]

/-- The texts that stand for yes, in small letters. -/
def yesWords : List String := ["1", "on", "t", "true", "y", "yes"]

/-- The bound below which the size of a number lies that fits into 64 bits with a sign. -/
def wordBound : Nat := Nat.pow 2 63

/-- A number that fits into 64 bits with a sign. -/
def fitsWord (i : Int) : Bool := -wordBound ≤ i && i < wordBound

/-- The whole number that a decimal number is once it is stored, if its size is below the bound. -/
def storedWhole? (d : Decimal) : Option Int :=
  (Stored.ofDecimal d).whole?.filter fun i => i.natAbs < wordBound

/-- The truth value that a whole number stands for. -/
def boolOfWhole? (i : Int) : Option Bool :=
  if i = 0 then some false else if i = 1 then some true else none

/-- The truth value that a text stands for, whatever the case of its letters. -/
def boolOfWord? (s : String) : Option Bool :=
  let word := s.map Char.toLower
  if word ∈ noWords then some false else if word ∈ yesWords then some true else none

/-- A truth value: one itself, a number that is zero or one, or a text that stands for yes or no. A
text, and a number that is whole and fits into a word, can be understood and stand for neither. -/
def toBool (d : Data) : Checked Bool :=
  let understood (b? : Option Bool) : Checked Bool := match b? with
    | some b => .ok b
    | none => .reject .boolParsing d
  match d with
  | .bool b => .ok b
  | .int i => if fitsWord i then understood (boolOfWhole? i) else .reject .boolType d
  | .decimal x => match storedWhole? x with
    | some i => understood (boolOfWhole? i)
    | none => .reject .boolType d
  | .text s => understood (boolOfWord? s)
  | .null | .moment _ | .list _ | .table _ => .reject .boolType d

/-- A truth value, or nothing where the value is empty. -/
def toOptionalBool : Data → Checked (Option Bool)
  | .null => .ok none
  | d => some <$> d.toBool

def toText : Data → Checked String
  | .text s => .ok s
  | d => .reject .stringType d

def toOptionalText : Data → Checked (Option String)
  | .null => .ok none
  | d => some <$> d.toText

/-- The items of a list, each of them checked. -/
def toListOf {α : Type} (check : Data → Checked α) : Data → Checked (List α)
  | .list ds => Checked.items check 0 ds
  | d => .reject .listType d

end Data

/-! ### Tables -/

abbrev TableFields := List (String × Data)

/-- The first of the given keys that a table has, with its value. -/
def TableFields.find? (fields : TableFields) (keys : List String) : Option (String × Data) :=
  keys.findSome? fun key => (fields.lookup key).map fun d => (key, d)

/-- Check the field that a table has under one of the given keys. An absent field has a default. -/
def TableFields.checkOr {α : Type} (fields : TableFields) (keys : List String) (default : α)
    (check : Data → Checked α) : Checked α :=
  match fields.find? keys with
  | some (key, d) => Checked.under key (check d)
  | none => .ok default

/-- No key of a table is left over when each field was taken from the first of its keys. -/
def TableFields.checkNoExtra (fields : TableFields) (keys : List (List String)) : Checked Unit :=
  let taken := keys.filterMap fun ks => (fields.find? ks).map Prod.fst
  let extra := fields.filter fun (key, _) => key ∉ taken
  if extra.isEmpty then .ok () else .error (extra.map fun (key, d) => ⟨[key], .extraForbidden, d⟩)

abbrev NonemptyText := { s : String // s ≠ "" }

def TableFields.checkName (fields : TableFields) : Checked NonemptyText :=
  Checked.under "name" (match fields.lookup "name" with
    | none => .reject .missing (.table fields)
    | some (.text s) =>
      if h : s = "" then .reject .stringTooShort (.text s) else .ok ⟨s, h⟩
    | some d => .reject .stringType d)

end VendorTree
