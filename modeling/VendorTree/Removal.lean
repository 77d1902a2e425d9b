import VendorTree.Action

/-!
# Removing planned paths

A plan is a list of paths to remove one after the other. A path that is already gone is passed over;
any other failure ends the work, and what was removed before stays removed.
-/

namespace VendorTree

variable {σ : Type}

/-- How one path is removed. -/
abbrev Remover (σ : Type) := Path → Action Fault σ Unit

/-- Remove the paths in order. The answer lists those that were there and are removed. -/
def removeAll (source : Source) (remove : Remover σ) : List Path → Action Fault σ (List Path)
  | [] => pure []
  | path :: rest => do
    if ← Action.unlessMissing (remove path) then
      Action.note source (.removed path)
      return path :: (← removeAll source remove rest)
    else
      Action.note source (.alreadyGone path)
      removeAll source remove rest

/-- A remover that fails with the given fault on some paths, before it acts, and is `remove`
otherwise. Paths are known by their text. -/
def failingOn (faults : List (String × Fault)) (remove : Remover σ) : Remover σ := fun path =>
  match faults.lookup path.text with
  | some fault => Action.fail fault
  | none => remove path

end VendorTree
