import VendorTree.Config.Basic
import VendorTree.Repeats
import VendorTree.Text.Quoted

/-!
# The schema of configurations

A configuration document is a table with at most the key `prune`, whose table chooses policies and
lists projects. Each choice may be written with dashes or with underscores in its key. No other key
is accepted anywhere.
-/

namespace VendorTree

/-- The keys under which the projects are listed, the preferred one first. -/
def projectKeys : List String := ["project", "projects"]

/-- All keys of choices. -/
def choiceKeys : List (List String) := Policy.all.map Policy.keys

namespace Override

def ofData : Data → Checked Override
  | .table fields =>
    let choice (p : Policy) := TableFields.checkOr fields p.keys none Data.toOptionalBool
    (fun name v u n t (_ : Unit) => (⟨name, ⟨v, u, n, t⟩⟩ : Override))
      <$> TableFields.checkName fields
      <*> choice .nestedVendor <*> choice .unusedPackages <*> choice .nonGo <*> choice .goTests
      <*> TableFields.checkNoExtra fields (["name"] :: choiceKeys)
  | d => .reject (.modelType "ProjectPruneConfig") d

end Override

namespace Config

/-- The configuration with these choices and entries, which a value describes, if no project has
two. -/
def ofOverrides (policies : PolicySet) (overrides : List Override) (found : Data) :
    Checked Config :=
  let repeats := repeatsInOnePass (overrides.map Override.project)
  if h : repeats = [] then .ok ⟨policies, overrides, nodup_of_repeatsInOnePass_eq_nil h⟩
  else .reject (.value ("Projects configured more than once: " ++ Text.quotedList repeats)) found

/-- The configuration that the table under `prune` describes. -/
def ofSection : Data → Checked Config
  | .table fields =>
    let choice (p : Policy) :=
      TableFields.checkOr fields p.keys (standardPolicies.has p) Data.toBool
    let parts := (fun v u n t overrides (_ : Unit) => ((⟨v, u, n, t⟩ : PolicySet), overrides))
      <$> choice .nestedVendor <*> choice .unusedPackages <*> choice .nonGo <*> choice .goTests
      <*> TableFields.checkOr fields projectKeys [] (Data.toListOf Override.ofData)
      <*> TableFields.checkNoExtra fields (projectKeys :: choiceKeys)
    parts.andThen fun (policies, overrides) => ofOverrides policies overrides (.table fields)
  | d => .reject (.modelType "PruneConfig") d

def ofData : Data → Checked Config
  | .table fields =>
    (fun config (_ : Unit) => config)
      <$> TableFields.checkOr fields ["prune"] standard ofSection
      <*> TableFields.checkNoExtra fields [["prune"]]
  | d => .reject (.modelType "Config") d

end Config

end VendorTree
