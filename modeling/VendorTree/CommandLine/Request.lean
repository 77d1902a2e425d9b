import VendorTree.Command.Create
import VendorTree.Command.Prune
import VendorTree.CommandLine.Options

/-!
# Requests

What the arguments of the program ask for. The first operand names a command, and the arguments
after it are read by the rules of that command. A request for help or for the version is granted
before anything else is looked at, once the arguments can be read at all. It is granted also among
operands of which the first does not name a command.
-/

namespace VendorTree.CommandLine

/-- What can be asked of the program. -/
inductive Request
  | help
  | version
  | create (request : CreateRequest)
  | project (request : ProjectRequest)
  | vendor (request : VendorRequest)
  | check (names : List String)

/-- Why arguments ask for nothing. -/
inductive Refusal
  | options (fault : OptionFault)
  | unknownCommand (name : String)
  | missingOperand
  | extraOperand
  /-- A path among them cannot be passed to the system. -/
  | unusablePath

structure Settings where
  verbose : Bool := false
  quiet : Bool := false

/-! ### Operands and values -/

def readArguments {κ : Type} (rules : List (OptionRule κ)) (mixed : Bool)
    (arguments : List String) : Except Refusal (Arguments κ) :=
  (Arguments.read rules mixed arguments).mapError .options

def pathOf (text : String) : Except Refusal Path :=
  if '\x00' ∈ text.toList then .error .unusablePath else .ok (Path.ofString text)

def optionalPath : Option String → Except Refusal (Option Path)
  | none => .ok none
  | some text => (pathOf text).map some

def helpNames : List String := ["--help", "-h"]

/-- What is asked by operands of which the first names no command. They are read once more as
arguments, in which a request that is granted first may be found. -/
def readStray {κ : Type} (rules : List (OptionRule κ)) (urgent? : Arguments κ → Option Request) :
    List String → Except Refusal Request
  | [] => throw .missingOperand
  | name :: rest => do
    match urgent? (← readArguments rules false (name :: rest)) with
    | some request => return request
    | none => throw (.unknownCommand name)

def helpAmong? {κ : Type} [DecidableEq κ] (help : κ) (a : Arguments κ) : Option Request :=
  if a.has help then some .help else none

/-! ### Commands -/

/-- The options of the command that creates a configuration. -/
inductive CreateOption
  | help
  | output
  | force
  | all
  deriving DecidableEq

def CreateOption.rules : List (OptionRule CreateOption) :=
  [{ names := ["--output", "-o"], key := .output, takesValue := true },
    { names := ["--force", "-f"], key := .force }, { names := ["--all"], key := .all },
    { names := helpNames, key := .help }]

/-- What is asked of the command that creates a configuration. There are no commands below it that
an operand could name. -/
def readCreate (arguments : List String) : Except Refusal Request := do
  let a ← readArguments CreateOption.rules false arguments
  if a.has .help then return .help
  let output ← optionalPath (a.value? .output)
  if a.operands ≠ [] then readStray CreateOption.rules (helpAmong? .help) a.operands
  else return .create { output, force := a.has .force, everyPolicy := a.has .all }

inductive ProjectOption
  | help
  | package
  | name
  | config
  | policy (policy : Policy)
  | all
  | none
  deriving DecidableEq

def policyOption : Policy → String
  | .nestedVendor => "--nested-vendor"
  | .unusedPackages => "--unused-packages"
  | .nonGo => "--non-go"
  | .goTests => "--go-tests"

def ProjectOption.rules : List (OptionRule ProjectOption) :=
  [{ names := ["--package", "-p"], key := .package, takesValue := true },
    { names := ["--name"], key := .name, takesValue := true },
    { names := ["--config", "-c"], key := .config, takesValue := true },
    { names := ["--all"], key := .all }, { names := ["--none"], key := .none },
    { names := helpNames, key := .help }] ++
  Policy.all.map fun policy => { names := [policyOption policy], key := .policy policy }

/-- What is asked of the command that prunes one project. Its operand is the directory. -/
def readProject (arguments : List String) : Except Refusal Request := do
  let a ← readArguments ProjectOption.rules true arguments
  -- help is given even where the operand is missing
  if a.has .help then return .help
  let config ← optionalPath (a.value? .config)
  match a.operands with
  | [] => throw .missingOperand
  | root :: rest =>
    let root ← pathOf root
    if rest ≠ [] then throw .extraOperand
    return .project {
      root, config
      packages := a.values .package
      name := a.value? .name
      policies := .ofTest fun policy => a.has (.policy policy)
      everyPolicy := a.has .all
      noPolicy := a.has .none }

inductive VendorOption
  | help
  | lock
  | config
  deriving DecidableEq

def VendorOption.rules : List (OptionRule VendorOption) :=
  [{ names := ["--lock", "-l"], key := .lock, takesValue := true },
    { names := ["--config", "-c"], key := .config, takesValue := true },
    { names := helpNames, key := .help }]

/-- What is asked of the command that prunes a vendor directory. Its operand, if there is one, is
the directory. -/
def readVendor (arguments : List String) : Except Refusal Request := do
  let a ← readArguments VendorOption.rules true arguments
  if a.has .help then return .help
  let lock ← pathOf ((a.value? .lock).getD standardLockName)
  let config ← optionalPath (a.value? .config)
  let dir ← pathOf (a.operands.head?.getD standardVendorName)
  if a.operands.length > 1 then throw .extraOperand
  return .vendor { dir, lock, config }

/-- The rule for the option for help, where there is no other one. -/
def helpRules : List (OptionRule Unit) := [{ names := helpNames, key := () }]

/-- What is asked of the command that checks names. Its operands are the names. -/
def readCheck (arguments : List String) : Except Refusal Request := do
  let a ← readArguments helpRules true arguments
  if a.has () then return .help
  if a.operands = [] then throw .missingOperand
  return .check a.operands

/-- What is asked of the command that prunes. Its first operand is one of two commands. -/
def readPrune (arguments : List String) : Except Refusal Request := do
  let a ← readArguments helpRules false arguments
  if a.has () then return .help
  match a.operands with
  | "project" :: rest => readProject rest
  | "vendor" :: rest => readVendor rest
  | operands => readStray helpRules (helpAmong? ()) operands

/-! ### The program -/

inductive ProgramOption
  | help
  | version
  | verbose
  | quiet
  deriving DecidableEq

def ProgramOption.rules : List (OptionRule ProgramOption) :=
  [{ names := ["--version", "-V"], key := .version },
    { names := ["--verbose", "-v"], key := .verbose },
    { names := ["--quiet", "-q"], key := .quiet }, { names := helpNames, key := .help }]

/-- The request that is granted first: of help and the version, the one that is asked for first. -/
def ProgramOption.urgent? (a : Arguments ProgramOption) : Option Request :=
  a.options.findSome? fun g => match g.key with
    | .help => some .help
    | .version => some .version
    | .verbose | .quiet => none

/-- What the arguments of the program ask for. -/
def readRequest (arguments : List String) : Except Refusal (Settings × Request) := do
  let a ← readArguments ProgramOption.rules false arguments
  let settings := { verbose := a.has .verbose, quiet := a.has .quiet }
  let request ← match ProgramOption.urgent? a with
    | some request => pure request
    | none => match a.operands with
      | "init" :: rest => readCreate rest
      | "prune" :: rest => readPrune rest
      | "check" :: rest => readCheck rest
      | operands => readStray ProgramOption.rules ProgramOption.urgent? operands
  return (settings, request)

end VendorTree.CommandLine
