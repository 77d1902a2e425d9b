import VendorTree.Command.Check
import VendorTree.CommandLine.Request

/-!
# The program

Carries out what the arguments ask for.
-/

namespace VendorTree

open CommandLine (Request Refusal Settings readRequest)

def versionText : String := applicationName ++ " version 0.1.0"

def usageLines : List String :=
  ["Usage: " ++ applicationName ++ " [--version] [--verbose] [--quiet] COMMAND",
    "  init [--output FILE] [--force] [--all]",
    "  prune project [--package PACKAGE]... [--name NAME] [--config FILE] [POLICY]... ROOT",
    "  prune vendor [--lock FILE] [--config FILE] [DIR]",
    "  check NAME...",
    "Policies: --nested-vendor, --unused-packages, --non-go, --go-tests, --all, --none"]

namespace Command

def carryOut (env : Environment) (tools : Tools FileSystem) (s : Settings) :
    Request → Command Unit
  | .help => printLines .output usageLines
  | .version => printLines .output [versionText]
  | .create request => createConfig request
  | .project request => pruneProject env tools s.verbose s.quiet request
  | .vendor request => pruneVendor env tools s.verbose s.quiet request
  | .check names => checkNames names

def program (env : Environment) (tools : Tools FileSystem) (arguments : List String) :
    Command Unit :=
  match readRequest arguments with
  | .ok (settings, request) => carryOut env tools settings request
  | .error _ => do
    printLines .errors usageLines
    throw .misuse

end Command

/-- Run the program on a file system: how it ends, and what it works on by then. -/
def runProgram (env : Environment) (tools : Tools FileSystem) (arguments : List String)
    (files : FileSystem) : Except Halt Unit × Session :=
  (Command.program env tools arguments).run { files }

def exitCode : Except Halt Unit → Nat
  | .ok () => 0
  | .error halt => halt.exitCode

end VendorTree
