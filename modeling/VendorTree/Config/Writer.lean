import VendorTree.Config.Basic
import VendorTree.Toml.Writer

/-!
# Writing configurations

The choices for all projects come first, one to a line. The entries of the projects follow: as one
list with an entry to a line if all of them are short enough, and as a table for each one otherwise.
What an entry does not choose is left out.
-/

namespace VendorTree.Config

def choiceKey (p : Policy) : String := p.keys.headD ""

def line (s : List Char) : List Char := s ++ ['\n']

def overridePairs (o : Override) : List (List Char) :=
  Toml.writePair "name" (Toml.writeText o.project.toList) ::
    Policy.all.filterMap fun p =>
      (o.choices.get p).map fun b => Toml.writePair (choiceKey p) (Toml.writeBool b)

def overrideItem (o : Override) : List Char :=
  "    \x7b ".toList ++ [',', ' '].intercalate (overridePairs o) ++ " \x7d,".toList

/-- The number of characters that an item of the list of entries may have. -/
def lineLimit : Nat := 100

def overrideList (os : List Override) : List Char :=
  line "project = [".toList ++ os.flatMap (fun o => line (overrideItem o)) ++ line [']']

def overrideTable (o : Override) : List Char :=
  line [] ++ line "[[prune.project]]".toList ++ (overridePairs o).flatMap line

/-- The entries, in one of the two forms. -/
def writeOverrides (os : List Override) : List Char :=
  if os = [] then []
  else if os.all fun o => (overrideItem o).length ≤ lineLimit then overrideList os
  else os.flatMap overrideTable

def writePolicies (s : PolicySet) : List Char :=
  Policy.all.flatMap fun p => line (Toml.writePair (choiceKey p) (Toml.writeBool (s.has p)))

/-- The document that describes a configuration. -/
def write (c : Config) : String :=
  String.ofList (line "[prune]".toList ++ writePolicies c.policies ++ writeOverrides c.overrides)

end VendorTree.Config
