import VendorTree.Policy
import VendorTree.Schema

/-!
# Configurations

Which policies are applied: a choice for all projects, and per project the choices that differ from
it. A project has at most one entry.
-/

namespace VendorTree

/-- The choices of a project. What is not chosen is taken from the choice for all projects. -/
structure Choices where
  nestedVendor : Option Bool
  unusedPackages : Option Bool
  nonGo : Option Bool
  goTests : Option Bool
  deriving DecidableEq

namespace Choices

def get (c : Choices) : Policy → Option Bool
  | .nestedVendor => c.nestedVendor
  | .unusedPackages => c.unusedPackages
  | .nonGo => c.nonGo
  | .goTests => c.goTests

def ofTest (f : Policy → Option Bool) : Choices :=
  ⟨f .nestedVendor, f .unusedPackages, f .nonGo, f .goTests⟩

end Choices

structure Override where
  name : NonemptyText
  choices : Choices
  deriving DecidableEq

namespace Override

def project (o : Override) : String := o.name.val

end Override

structure Config where
  /-- The choice for all projects. -/
  policies : PolicySet
  /-- The entries of the projects. -/
  overrides : List Override
  distinct : (overrides.map Override.project).Nodup
  deriving DecidableEq

namespace Config

/-- The choice where nothing is said: nested vendor trees are removed. -/
def standardPolicies : PolicySet := .ofList [.nestedVendor]

def ofPolicies (policies : PolicySet) : Config := ⟨policies, [], by simp⟩

def standard : Config := ofPolicies standardPolicies

/-- The policies of a project: its own choices where it has an entry and chooses, and those for all
projects otherwise. -/
def policiesFor (c : Config) (project : String) : PolicySet :=
  match c.overrides.find? fun o => o.project = project with
  | none => c.policies
  | some o => .ofTest fun p => (o.choices.get p).getD (c.policies.has p)

end Config

end VendorTree
