import VendorTree.Data

/-!
# Documents in the making

The tables of a document grow while its lines are read. A table remembers how it came to be, which
decides whether it may be declared or extended later: by a header of its own, by a header below it,
or by a dotted key. The values that a line assigns are never extended. A line that breaks these
rules does not fit, and there is a message that says why.
-/

namespace VendorTree.Toml

/-- How a table came to be. -/
inductive Mark
  /-- A header below it named it. -/
  | implied
  /-- A dotted key named it. -/
  | dotted
  /-- It has a header of its own. -/
  | declared
  deriving DecidableEq

/-- A part of a document in the making. -/
inductive Draft
  | value (v : Data)
  | table (mark : Mark) (fields : List (String × Draft))
  /-- A list of tables that grows by headers: the finished ones, and the fields of the last. -/
  | tables (finished : List Data) (last : List (String × Draft))

abbrev Fields := List (String × Draft)

/-- Why a line does not fit into a document. -/
inductive Misfit
  /-- A header names what has a header or a value already. -/
  | declaredAgain (key : List String)
  /-- A dotted key leads into a table that has a header of its own. -/
  | closed (key : List String)
  /-- A key leads into a list or a table that was assigned as a value. -/
  | fixed (key : List String)
  /-- A key occurs twice in a table on one line. -/
  | repeated (key : String)
  /-- Something else has a value already. -/
  | overwritten
  deriving DecidableEq, Repr

namespace Misfit

/-- The parts of a key between parentheses, each quoted. -/
def keyText : List String → String
  | [part] => "(" ++ Text.quoted part ++ ",)"
  | parts => "(" ++ ", ".intercalate (parts.map Text.quoted) ++ ")"

def message : Misfit → String
  | .declaredAgain key => "Cannot declare " ++ keyText key ++ " twice"
  | .closed key => "Cannot redefine namespace " ++ keyText key
  | .fixed key => "Cannot mutate immutable namespace " ++ keyText key
  | .repeated key => "Duplicate inline table key " ++ Text.quoted key
  | .overwritten => "Cannot overwrite a value"

end Misfit

mutual
/-- The finished form of a part. -/
def Draft.finish : Draft → Data
  | .value v => v
  | .table _ fields => .table (finishFields fields)
  | .tables finished last => .list (finished ++ [.table (finishFields last)])
def finishFields : List (String × Draft) → List (String × Data)
  | [] => []
  | (k, d) :: rest => (k, d.finish) :: finishFields rest
end

namespace Fields

def set (key : String) (d : Draft) : Fields → Fields
  | [] => [(key, d)]
  | (k, e) :: rest => if k = key then (key, d) :: rest else (k, e) :: set key d rest

/-- The fields inside a part, and how the part is put together again. -/
abbrev Opened := Fields × (Fields → Draft)

/-- A value that holds other values. -/
def isContainer : Data → Bool
  | .list _ | .table _ => true
  | _ => false

/-- Why a way does not go on below a value. -/
def blocked (fixed : Misfit) (v : Data) : Misfit := if isContainer v then fixed else .overwritten

/-- Open a part on the way of a header. What is missing is implied, and of a list of tables the last
one is meant. -/
def openForHeader (fixed : Misfit) : Option Draft → Except Misfit Opened
  | none => .ok ([], .table .implied)
  | some (.table mark fields) => .ok (fields, .table mark)
  | some (.tables finished last) => .ok (last, .tables finished)
  | some (.value v) => .error (blocked fixed v)

/-- Open a part on the way of a dotted key. Only tables without a header of their own are open;
`here` is the key of the part. -/
def openForKey (fixed : Misfit) (here : List String) : Option Draft → Except Misfit Opened
  | none => .ok ([], .table .dotted)
  | some (.table mark fields) =>
    if mark = .declared then .error (.closed here) else .ok (fields, .table .dotted)
  | some (.tables ..) => .error (.closed here)
  | some (.value v) => .error (blocked fixed v)

/-- Change the fields at the end of a way, which has come past the keys in `before`. -/
def within (enter : List String → Option Draft → Except Misfit Opened)
    (change : Fields → Except Misfit Fields) :
    (before : List String) → List String → Fields → Except Misfit Fields
  | _, [], fields => change fields
  | before, key :: keys, fields => do
    let (inner, close) ← enter (before ++ [key]) (fields.lookup key)
    return fields.set key (close (← within enter change (before ++ [key]) keys inner))

/-- Change the fields of the table that a header names. -/
def withinHeader (fixed : Misfit) (change : Fields → Except Misfit Fields) (header : List String) :
    Fields → Except Misfit Fields :=
  within (fun _ => openForHeader fixed) change [] header

/-- Declare a table by a header of its own. -/
def declare (way : List String) (key : String) : Fields → Except Misfit Fields :=
  let again := Misfit.declaredAgain (way ++ [key])
  withinHeader again (fun fields => match fields.lookup key with
    | none => .ok (fields.set key (.table .declared []))
    | some (.table .implied inner) => .ok (fields.set key (.table .declared inner))
    | some (.value v) => .error (blocked again v)
    | some _ => .error again) way

/-- Begin the next table of a list. -/
def beginNext (way : List String) (key : String) : Fields → Except Misfit Fields :=
  let fixed := Misfit.fixed (way ++ [key])
  withinHeader fixed (fun fields => match fields.lookup key with
    | none => .ok (fields.set key (.tables [] []))
    | some (.tables finished last) =>
      .ok (fields.set key (.tables (finished ++ [.table (finishFields last)]) []))
    | some (.value v) => .error (blocked fixed v)
    | some (.table ..) => .error .overwritten) way

/-- Assign a value under a dotted key, below a header. A key is assigned once. -/
def assign (header way : List String) (key : String) (v : Data) : Fields → Except Misfit Fields :=
  let fixed := Misfit.fixed (header ++ way)
  withinHeader fixed (within (openForKey fixed) (fun fields =>
    if (fields.lookup key).isNone then .ok (fields.set key (.value v)) else .error .overwritten)
    header way) header

/-- Assign a value under a dotted key in a table on one line. -/
def assignInLine (way : List String) (key : String) (v : Data) : Fields → Except Misfit Fields :=
  let fixed := Misfit.fixed (way ++ [key])
  within (openForKey fixed) (fun fields => match fields.lookup key with
    | none => .ok (fields.set key (.value v))
    | some (.value w) => .error (if isContainer w then fixed else .repeated key)
    | some _ => .error (.repeated key)) [] way

end Fields

end VendorTree.Toml
