import VendorTree.Proofs.Losses

/-!
# Files that removals do not touch

A file is still there after removals whose paths do not lead to it, nor to a directory above it in
the case of whole trees.
-/

namespace VendorTree

variable {fs₀ fs fs' : FileSystem} {p : Path} {k key : Key} {contents : ByteArray}
  {touched : Key → Prop}

/-- Since the first file system entries were removed at most, and the file at a key was not. As long
as a process has lost no directory, it is where it was. -/
structure Spared (fs₀ fs : FileSystem) (k : Key) (contents : ByteArray) : Prop where
  within : fs.store.Within fs₀.store
  present : fs.store.get? k = some (.file contents)
  here : fs.here.lost = 0 → fs.here = fs₀.here

namespace Spared

theorem refl (h : fs.store.get? k = some (.file contents)) : Spared fs fs k contents :=
  ⟨fun _ _ hn => hn, h, fun _ => rfl⟩

theorem of_loses (h : Spared fs₀ fs k contents) (hloses : LosesOnly fs touched fs')
    (hk : ¬ touched k) : Spared fs₀ fs' k contents where
  within := hloses.within.trans h.within
  present := (hloses.same k hk).trans h.present
  here hlost := by
    have hsame := hloses.here hlost
    rw [hsame] at hlost ⊢
    exact h.here hlost

end Spared

theorem diskRemove_spares (habs : p.isAbsolute = true)
    (hsafe : ∀ key, fs₀.Reaches p key → key ≠ k) :
    Action.Maintains (Spared fs₀ · k contents) (diskRemove p) :=
  fun r hr => hr.of_loses (diskRemove_loses p r) fun hk =>
    hsafe k (FileSystem.leads_of_within hr.within habs hk) rfl

theorem diskRemoveTree_spares (habs : p.isAbsolute = true)
    (hsafe : ∀ key, fs₀.Reaches p key → ¬ key <+: k) :
    Action.Maintains (Spared fs₀ · k contents) (diskRemoveTree p) :=
  fun r hr => hr.of_loses (diskRemoveTree_loses habs r) fun ⟨key, hkey, hk⟩ =>
    hsafe key (FileSystem.leads_of_within hr.within habs hkey) hk

end VendorTree
