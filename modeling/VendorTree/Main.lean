import VendorTree.FileSystem.Document
import VendorTree.FileSystem.Snapshot
import VendorTree.Program

/-!
# Command line

A dry run of the program. The tree to work on is described by a document on standard input, and the
tree that is left is shown after what the program prints.
-/

namespace VendorTree

partial def readRest (input : IO.FS.Stream) (before : String) : IO String := do
  let line ← input.getLine
  if line.isEmpty then return before else readRest input (before ++ line)

/-- The settings that the process has. -/
def processEnvironment : IO Environment := do
  return { home := (← IO.getEnv "HOME").getD "/", configHome := ← IO.getEnv "XDG_CONFIG_HOME" }

def printLine (line : Console.Line) : IO Unit :=
  match line.stream with
  | .output => IO.println line.text
  | .errors => IO.eprintln line.text

/-- Run the program on the tree that standard input describes. -/
def dryRun (arguments : List String) : IO UInt32 := do
  match FileSystem.ofDocument? (← readRest (← IO.getStdin) "") with
  | none =>
    IO.eprintln "The tree on standard input cannot be read."
    return 1
  | some files =>
    let tools := diskTools [] .standard
    let (result, session) := runProgram (← processEnvironment) tools arguments files
    session.lines.forM printLine
    (session.files.store.image []).forM IO.println
    return (exitCode result).toUInt32

end VendorTree

def main (arguments : List String) : IO UInt32 := VendorTree.dryRun arguments
