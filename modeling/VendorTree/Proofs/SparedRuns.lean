import VendorTree.Proofs.PlannedRuns
import VendorTree.Proofs.Spared
import VendorTree.Proofs.Survivors

/-!
# Files that a run does not touch

A run on a directory plans to remove a file only if its policies take the file, seen from that
directory, whatever else the run does and however it ends.
-/

namespace VendorTree

open VendorTree.Action (Maintains)

variable {fs₀ fs : FileSystem} {k base : Key} {contents : ByteArray} {l : Listing}
  {rule : PreservationRule} {used : List String} {policies : PolicySet}
  {faults : List (String × Fault)} {root : Path}

/-! ### Planned removals -/

theorem takesFile_of_unused {names : List String} {node : Node} (hl : l.Describes fs.store base)
    (hn : fs.store.get? (base ++ names) = some node)
    (hchosen : policies.unusedPackages = true) (hkeeps : rule.keeps (entryText names) = false)
    (hunused : packageOf (entryText names) ∈ l.unusedPackages used) :
    policies.takesFile rule used names = true := by
  have hused := (packageOf_mem_unused hl hn).1 hunused
  simp [PolicySet.takesFile, hchosen, hkeeps, hused]

/-- The files that a run plans to remove are files that the policies take. -/
theorem takesFile_of_mem_plan {e : Planned} (hl : l.Describes fs.store base)
    (he : e ∈ l.plan Listing.nestedVendors rule used policies) (hroot : l.root = root) :
    (e.stage.remover = .tree ∧ ∃ names node, fs.store.get? (base ++ names) = some node ∧
      node.kind ≠ .file ∧ names.getLast? = some vendorName ∧ e.path = root.below names ∧
        policies.nestedVendor = true) ∨
    (e.stage.remover = .entry ∧ ∃ names node, names ≠ [] ∧
      fs.store.get? (base ++ names) = some node ∧ node.kind ≠ .link ∧ e.path = root.below names ∧
        (node.kind = .file → policies.takesFile rule used names = true)) := by
  have hfile : ∀ {test : String → Bool} {p : Path}, p ∈ l.filesThat test →
      (∀ names contents, names ≠ [] → fs.store.get? (base ++ names) = some (.file contents) →
        test (entryText names) = true → policies.takesFile rule used names = true) →
      ∃ names node, names ≠ [] ∧ fs.store.get? (base ++ names) = some node ∧ node.kind ≠ .link ∧
        p = root.below names ∧ (node.kind = .file → policies.takesFile rule used names = true) := by
    intro test p hp htakes
    obtain ⟨names, contents, hne, hn, htest, rfl⟩ := (mem_filesThat hl hroot).1 hp
    exact ⟨names, _, hne, hn, by simp [Node.kind], rfl, fun _ => htakes names contents hne hn htest⟩
  rcases Listing.mem_plan.1 he with ⟨hchosen, hstage, hp⟩ | ⟨hchosen, hstage, hp⟩ |
    ⟨hchosen, hstage, hp⟩ | ⟨hchosen, hstage, hp⟩ | ⟨hstage, hp⟩ <;> rw [hstage]
  · obtain ⟨names, node, hn, hkind, hlast, hpath⟩ := mem_nestedVendors hl hroot hp
    exact .inl ⟨rfl, names, node, hn, hkind, hlast, hpath, hchosen⟩
  · refine .inr ⟨rfl, hfile hp fun names contents hne hn htest => ?_⟩
    simp only [Bool.and_eq_true, Bool.not_eq_true', decide_eq_true_eq] at htest
    exact takesFile_of_unused hl hn hchosen htest.1 htest.2
  · refine .inr ⟨rfl, hfile hp fun names contents hne hn htest => ?_⟩
    simp only [Bool.and_eq_true, Bool.not_eq_true'] at htest
    simp [PolicySet.takesFile, hchosen, htest.1, htest.2]
  · refine .inr ⟨rfl, hfile hp fun names contents hne hn htest => ?_⟩
    simp [PolicySet.takesFile, hchosen, htest]
  · obtain ⟨names, hne, hn, hpath⟩ := (mem_dirPaths hl hroot).1 (mem_sweepOrder.1 hp)
    exact .inr ⟨rfl, names, _, hne, hn, by simp [Node.kind], hpath, by simp [Node.kind]⟩

theorem exists_names_of_mem_plan {e : Planned} (hl : l.Describes fs.store base)
    (he : e ∈ l.plan Listing.nestedVendors rule used policies) (hroot : l.root = root) :
    ∃ names node, names ≠ [] ∧ fs.store.get? (base ++ names) = some node ∧
      e.path = root.below names := by
  rcases takesFile_of_mem_plan hl he hroot with ⟨-, names, node, hn, -, hlast, hp, -⟩ |
    ⟨-, names, node, hne, hn, -, hp, -⟩
  · refine ⟨names, node, ?_, hn, hp⟩
    rintro rfl
    simp at hlast
  · exact ⟨names, node, hne, hn, hp⟩

/-- A vendor tree above a file makes the policies take it. -/
theorem not_prefix_of_vendor {s : Store} {names : List String} {node : Node}
    (hchosen : policies.nestedVendor = true) (hlast : names.getLast? = some vendorName)
    (hn : s.get? (base ++ names) = some node) (hkind : node.kind ≠ .file)
    (hfile : s.get? k = some (.file contents))
    (hspares : ∀ names, names ≠ [] → k = base ++ names →
      policies.takesFile rule used names = false) : ¬ base ++ names <+: k := by
  rintro ⟨rest, hk⟩
  obtain ⟨outer, rfl⟩ := List.getLast?_eq_some_iff.1 hlast
  have hrest : rest ≠ [] := by
    rintro rfl
    rw [List.append_nil] at hk
    rw [hk, hfile] at hn
    exact hkind (Option.some.inj hn ▸ rfl)
  have hspared := hspares (outer ++ [vendorName] ++ rest) (by simp) (by simp [← hk])
  have hmem : vendorName ∈ (outer ++ [vendorName] ++ rest).dropLast := by
    rw [List.dropLast_append_of_ne_nil hrest]
    simp
  rw [PolicySet.takesFile, hchosen, List.contains_iff_mem.2 hmem] at hspared
  simp at hspared

/-- A planned removal does not touch a file that the policies do not take. -/
theorem removal_spares {e : Planned} (h : Spared fs₀ fs k contents)
    (hl : l.Describes (fs.asListed l.root base).store base) (habs : l.root.isAbsolute = true)
    (hopen : fs.openDirectory l.root = .ok (some base))
    (hspares : ∀ names, names ≠ [] → k = base ++ names →
      policies.takesFile rule used names = false)
    (he : e ∈ l.plan Listing.nestedVendors rule used policies) :
    Maintains (Spared fs₀ · k contents) ((diskTools faults rule).removal e) := by
  have hroot := FileSystem.leads_of_within h.within habs (FileSystem.openDirectory_ok hopen).2.1
  have hleads : ∀ {names : List String} {node : Node} {key : Key},
      (fs.asListed l.root base).store.get? (base ++ names) = some node → names ≠ [] →
      fs₀.Reaches (l.root.below names) key → key = base ++ names := by
    intro names node key hn hne hkey
    obtain ⟨node', hn', -⟩ := FileSystem.exists_of_get?_asListed hn
    exact FileSystem.reaches_below hroot (h.within _ _ hn') hne hkey
  -- a listing takes a file for what it is
  have hfile : (fs.asListed l.root base).store.get? k = some (.file contents) := by
    rw [FileSystem.get?_asListed, h.present]
    rfl
  rcases takesFile_of_mem_plan hl he rfl with ⟨htree, names, node, hn, hkind, hlast, hp, hchosen⟩ |
    ⟨hentry, names, node, hne, hn, -, hp, htakes⟩
  · have hne : names ≠ [] := by
      rintro rfl
      simp at hlast
    rw [Tools.removal, htree, hp]
    refine failingOn_maintains (diskRemoveTree_spares habs fun key hkey => ?_)
    rw [hleads hn hne hkey]
    exact not_prefix_of_vendor hchosen hlast hn hkind hfile hspares
  · have hother : base ++ names ≠ k := by
      intro hk
      rw [hk, hfile] at hn
      have htaken := htakes (Option.some.inj hn ▸ rfl)
      simp [hspares names hne hk.symm] at htaken
    rw [Tools.removal, hentry, hp]
    refine failingOn_maintains (diskRemove_spares habs fun key hkey => ?_)
    rw [hleads hn hne hkey]
    exact hother

/-! ### Runs -/

theorem visitAll_maintains {I : FileSystem → Prop} (root : Path) (visited : List (List String)) :
    Maintains I (visitAll root visited) := by
  induction visited with
  | nil => exact Maintains.pure _
  | cons names rest ih =>
    refine ((Maintains.query _).mapError _).bind fun view => Maintains.bind ?_ fun _ =>
      ih.bind fun _ => Maintains.pure _
    intro r hr
    obtain ⟨journal, hnotes⟩ := noteLinks_run root
      (view.directoryLinks.map fun n => entryText (names ++ [n])) r
    rwa [hnotes]

theorem diskSnapshot_maintains {I : FileSystem → Prop} (path : Path) :
    Maintains I (diskSnapshot path) := by
  refine ((Maintains.query _).mapError _).bind fun root => ((Maintains.query _).mapError _).bind
    fun isDir => ?_
  cases isDir with
  | false => exact Maintains.fail _
  | true =>
    exact ((Maintains.query _).mapError _).bind fun key => (Maintains.query _).bind fun below =>
      (visitAll_maintains root _).bind fun l => (Maintains.note _ _).bind fun _ => Maintains.pure _

theorem plan_of_empty (h : ∀ kind, l.ofKind kind = []) :
    l.plan Listing.nestedVendors rule used policies = [] := by
  have hdirs : l.dirs = [] := h .directory
  have hfiles : l.files = [] := h .file
  have hlinks : l.links = [] := h .link
  simp [Listing.plan, planIf, Listing.nestedVendors, Listing.unusedFiles, Listing.nonGoFiles,
    Listing.testFiles, Listing.dirPaths, sweepOrder, outermostVendors, hdirs, hfiles, hlinks]

/-- A run maintains what the removals maintain that are planned for the directory of the root. -/
theorem prune_maintains {I : FileSystem → Prop}
    (h : ∀ fs (l : Listing) base, I fs → fs.absolute root = .ok l.root →
      fs.openDirectory l.root = .ok (some base) → l.Describes (fs.asListed l.root base).store base →
        ∀ e ∈ l.plan Listing.nestedVendors rule used policies,
          Maintains I ((diskTools faults rule).removal e)) :
    Maintains I ((diskTools faults rule).prune root used policies) := by
  refine (diskSnapshot_maintains root).bind_of_ok fun r l r' hr hlisted hr' => ?_
  obtain ⟨-, habs, hdescribes⟩ := diskSnapshot_ok hlisted
  have hplan : ∀ e ∈ l.plan Listing.nestedVendors rule used policies,
      Maintains I ((diskTools faults rule).removal e) := by
    rcases hdescribes with ⟨base, hopen, hl⟩ | ⟨-, hnone⟩
    · exact h r.world l base hr habs hopen hl
    · rw [plan_of_empty hnone]
      simp
  have hask : ∀ p, Maintains I (diskHoldsEntry p) := fun p => Maintains.query _
  have hrun : Maintains I ((diskTools faults rule).pruneListing l used policies) :=
    pruneListing_maintains hask hplan
  exact hrun r' hr'

/-- A run does not touch a file that the policies do not take, seen from the directory to which the
root of the run leads. -/
theorem prune_spares
    (hspares : ∀ base names, fs₀.store.walkFrom true (fs₀.start root) root.steps =
      .ok (.entry base) → names ≠ [] → k = base ++ names →
        policies.takesFile rule used names = false) :
    Maintains (Spared fs₀ · k contents) ((diskTools faults rule).prune root used policies) := by
  refine prune_maintains fun fs l base hfs habs hopen hl e he => ?_
  obtain ⟨habsolute, hleads⟩ := FileSystem.leads_of_absolute hfs.within hfs.here habs
    (FileSystem.openDirectory_ok hopen).2.1
  exact removal_spares hfs hl habsolute hopen (fun names hne => hspares base names hleads hne) he

end VendorTree
