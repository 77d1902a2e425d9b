import VendorTree.Console.Basic
import VendorTree.Engine
import VendorTree.FileSystem.RealPath
import VendorTree.Loading

/-!
# Commands

A command works on a file system and prints lines. It may stop early, and whether it does or not,
the file system and the lines are as they are by then.
-/

namespace VendorTree

open Console (Line MarkupFault Stream Table)

/-- What a command works on: the file system, and the lines printed so far, oldest first. -/
structure Session where
  files : FileSystem
  lines : List Line := []

/-- Why a command stops early. -/
inductive Halt
  /-- The arguments are not those of a command. -/
  | misuse
  /-- A failure that was reported. -/
  | reported
  /-- A text to be printed has markup that is not right. -/
  | markup (fault : MarkupFault)
  | load (fault : LoadFault)
  /-- A call failed where no failure is expected. -/
  | fault (fault : Fault)
  /-- A path has no real path. -/
  | realPath (fault : RealPathFault)

/-- The exit code of a command that stopped early. -/
def Halt.exitCode : Halt → Nat
  | .misuse => 2
  | _ => 1

abbrev Command := ExceptT Halt (StateM Session)

namespace Command

variable {α : Type}

def printLines (stream : Stream) (lines : List String) : Command Unit :=
  modify fun s => { s with lines := s.lines ++ lines.map (⟨stream, ·⟩) }

def print (stream : Stream) (markup : String) : Command Unit :=
  match Console.render markup with
  | .ok text => printLines stream (Console.laidOutLines text)
  | .error fault => throw (.markup fault)

@[simp] theorem files_printLines (stream : Stream) (lines : List String) (s : Session) :
    ((printLines stream lines).run s).2.files = s.files := rfl

@[simp] theorem files_print (stream : Stream) (markup : String) (s : Session) :
    ((print stream markup).run s).2.files = s.files := by
  unfold print
  split <;> rfl

/-- A table is printed, or nothing of it. -/
def printTable (t : Table) : Command Unit :=
  match t.lines with
  | .ok lines => printLines .output lines
  | .error fault => throw (.markup fault)

@[simp] theorem files_printTable (t : Table) (s : Session) :
    ((printTable t).run s).2.files = s.files := by
  unfold printTable
  split <;> rfl

def success (message : String) : Command Unit := print .output ("[success]" ++ message ++ "[/]")

def information (message : String) : Command Unit := print .output ("[info]" ++ message ++ "[/]")

def warning (message : String) : Command Unit :=
  print .errors ("[warning]Warning:[/] " ++ message)

def error (message : String) : Command Unit := print .errors ("[error]Error:[/] " ++ message)

/-- Say what failed, and stop. -/
def failWith (message : String) : Command α := do
  error message
  throw .reported

/-- Look something up in the file system, where no failure is expected. -/
def query (f : FileSystem → Except Fault α) : Command α := do
  match f (← get).files with
  | .ok a => return a
  | .error fault => throw (.fault fault)

/-- Say why a document was not loaded, and stop. -/
def reportLoad (kind : DocumentKind) (context : String) (fault : LoadFault) : Command α :=
  match fault.fullMessage? kind with
  | none => throw (.load fault)
  | some message => failWith (context ++ message)

/-- The configuration to use, from the given path or from where one is found. -/
def loadConfig (env : Environment) (path : Option Path) : Command Config := do
  match (← get).files.resolveConfig env path none with
  | .ok config => return config
  | .error fault => reportLoad .config "Failed to load config: " fault

/-- How a record is shown: in full, or, unless all are wanted, by its text if it is a warning. -/
def recordLines (verbose : Bool) (r : Record) : List String :=
  if verbose then
    Console.textLines (r.event.level.label ++ " " ++ r.source.label ++ ": " ++ r.event.text)
  else if r.event.level = .warning then Console.textLines r.event.text
  else []

/-- A run on the file system. What it reports is printed, and it is left to the command what becomes
of a fault. -/
def runAction {ε : Type} (verbose : Bool) (action : Action ε FileSystem α) :
    Command (Except ε α) := do
  let s ← get
  let (result, run) := action ⟨s.files, []⟩
  set { s with files := run.world }
  printLines .errors (run.journal.flatMap (recordLines verbose))
  return result

end Command

end VendorTree
