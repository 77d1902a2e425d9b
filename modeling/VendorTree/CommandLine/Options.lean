/-!
# Options

The arguments of a command are options and operands. An option is a word after two dashes or a
letter after one; letters can be written together. An option with a value takes the text attached to
it or else the next argument, whatever that looks like. Two dashes alone end the options.
-/

namespace VendorTree.CommandLine

/-- An option that a command knows: its names with their dashes, and whether a value belongs to
it. -/
structure OptionRule (κ : Type) where
  names : List String
  key : κ
  takesValue : Bool := false

/-- An option as it is given. Without a value, the text is empty. -/
structure Given (κ : Type) where
  key : κ
  value : String := ""

structure Arguments (κ : Type) where
  options : List (Given κ)
  operands : List String

inductive OptionFault
  | unknown (name : String)
  | missingValue
  | needlessValue (name : String)

namespace Arguments

variable {κ : Type}

def ruleFor? (rules : List (OptionRule κ)) (name : String) : Option (OptionRule κ) :=
  rules.find? fun r => name ∈ r.names

/-- Letters after one dash: the options that are given, and the one that awaits its value. -/
def readLetters (rules : List (OptionRule κ)) :
    List Char → Except OptionFault (List (Given κ) × Option κ)
  | [] => .ok ([], none)
  | c :: cs =>
    let name := String.ofList ['-', c]
    match ruleFor? rules name with
    | none => .error (.unknown name)
    | some rule =>
      if !rule.takesValue then
        (readLetters rules cs).map fun (given, awaiting) => (⟨rule.key, ""⟩ :: given, awaiting)
      else if cs = [] then .ok ([], some rule.key)
      else .ok ([⟨rule.key, String.ofList cs⟩], none)

/-- A word after two dashes. A value is attached to it by an equals sign. -/
def readWord (rules : List (OptionRule κ)) (argument : List Char) :
    Except OptionFault (List (Given κ) × Option κ) :=
  let name := String.ofList (argument.takeWhile (· ≠ '='))
  match ruleFor? rules name, argument.dropWhile (· ≠ '=') with
  | none, _ => .error (.unknown name)
  | some rule, [] => .ok (if rule.takesValue then ([], some rule.key) else ([⟨rule.key, ""⟩], none))
  | some rule, _ :: value =>
    if rule.takesValue then .ok ([⟨rule.key, String.ofList value⟩], none)
    else .error (.needlessValue name)

/-- Read an argument that begins with a dash. -/
def readOption (rules : List (OptionRule κ)) :
    List Char → Except OptionFault (List (Given κ) × Option κ)
  | '-' :: '-' :: word => readWord rules ('-' :: '-' :: word)
  | argument => readLetters rules (argument.drop 1)

/-- An argument that gives options. A dash alone is an operand. -/
def givesOption : List Char → Bool
  | '-' :: _ :: _ => true
  | _ => false

def withOperand (argument : String) (a : Arguments κ) : Arguments κ :=
  { a with operands := argument :: a.operands }

def withOptions (given : List (Given κ)) (a : Arguments κ) : Arguments κ :=
  { a with options := given ++ a.options }

/-- Read arguments, the first of which may be the value that an option awaits. If the operands are
not `mixed` with the options, the first operand ends the options. -/
def readAfter (rules : List (OptionRule κ)) (mixed : Bool) :
    (awaiting : Option κ) → List String → Except OptionFault (Arguments κ)
  | none, [] => .ok ⟨[], []⟩
  | some _, [] => .error .missingValue
  -- an awaited value is taken as it is, even if it looks like an option
  | some key, value :: rest => (readAfter rules mixed none rest).map (withOptions [⟨key, value⟩])
  | none, argument :: rest =>
    if argument = "--" then .ok ⟨[], rest⟩
    else if givesOption argument.toList then
      match readOption rules argument.toList with
      | .error fault => .error fault
      | .ok (given, awaiting) => (readAfter rules mixed awaiting rest).map (withOptions given)
    else if mixed then (readAfter rules mixed none rest).map (withOperand argument)
    else .ok ⟨[], argument :: rest⟩

def read (rules : List (OptionRule κ)) (mixed : Bool) (arguments : List String) :
    Except OptionFault (Arguments κ) :=
  readAfter rules mixed none arguments

variable [DecidableEq κ]

def has (a : Arguments κ) (key : κ) : Bool := a.options.any fun g => g.key = key

def values (a : Arguments κ) (key : κ) : List String :=
  (a.options.filter fun g => g.key = key).map Given.value

/-- The value of an option that counts: of several, the last one. -/
def value? (a : Arguments κ) (key : κ) : Option String := (a.values key).getLast?

end Arguments

end VendorTree.CommandLine
