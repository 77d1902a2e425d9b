import VendorTree.Proofs.Unions

/-!
# Stages in any order

The stages can also be used one by one, with a listing that was made before all of them. Each plans
its removals from the listing alone and passes over what is gone already, so what a sequence of
stages clears is what one of its policies takes. After the sweep the tree is the one that a run with
these policies leaves, in whatever order they were applied and however often.
-/

namespace VendorTree

/-- One stage used on its own. -/
def applyPolicy (rule : PreservationRule) (used : List String) (l : Listing) :
    Policy → Action Fault FileSystem (List Path)
  | .nestedVendor => removeNestedVendors .vendor Listing.nestedVendors diskRemoveTree l
  | .unusedPackages => do
    let (_, removed) ← removeUnusedPackages .packages rule diskRemove used l
    return removed
  | .nonGo => removeNonGo .filters rule diskRemove l
  | .goTests => removeTests .filters diskRemove l

/-- Stages one after the other, all of them with the same listing, and then the sweep. The answer
holds the removed paths. -/
def applyPolicies (rule : PreservationRule) (used : List String) (l : Listing) :
    List Policy → Action Fault FileSystem (List Path)
  | [] => sweep .cleanup diskHoldsEntry diskRemove l.dirPaths
  | policy :: rest => do
    let removed ← applyPolicy rule used l policy
    return removed ++ (← applyPolicies rule used l rest)

variable {A : PolicySet} {rule : PreservationRule} {used : List String}

/-! ### What several policies take -/

theorem PolicySet.none_union (A : PolicySet) : none.union A = A :=
  ext_has fun p => by simp only [union, none, has_ofTest, Bool.false_or]

theorem PolicySet.union_ofList_cons (A : PolicySet) (policy : Policy) (rest : List Policy) :
    A.union (ofList (policy :: rest)) = (A.union (ofList [policy])).union (ofList rest) := by
  apply ext_has
  intro p
  simp only [union, ofList, has_ofTest, List.mem_cons, List.not_mem_nil, or_false,
    Bool.decide_or, Bool.or_assoc]

theorem PolicySet.ofList_congr {policies policies' : List Policy}
    (h : ∀ p, p ∈ policies ↔ p ∈ policies') : ofList policies = ofList policies' :=
  ext_has fun p => by simp only [ofList, has_ofTest, h p]

theorem takes_union (B : PolicySet) (names : List String) (node : Node) :
    (A.union B).takes rule used names node =
      (A.takes rule used names node || B.takes rule used names node) := by
  cases node with
  | file contents => exact takesFile_union names
  | link target => exact takesLink_union names
  | directory => exact takesLink_union names

theorem marked_or (s : Store) (base : Key) (test test' : List String → Node → Bool) (k : Key) :
    (marked s base test k || marked s base test' k) =
      marked s base (fun names node => test names node || test' names node) k := by
  rw [marked, marked, marked, ← Bool.and_or_distrib_left]
  cases s.get? k <;> rfl

theorem marked_takes_union (s : Store) (base : Key) (B : PolicySet) (k : Key) :
    (marked s base (A.takes rule used) k || marked s base (B.takes rule used) k) =
      marked s base ((A.union B).takes rule used) k := by
  rw [marked_or]
  congr 1
  funext names node
  rw [takes_union]

theorem marked_takes_none (s : Store) (base k : Key) :
    marked s base (PolicySet.none.takes rule used) k = false := by
  rw [Bool.eq_false_iff]
  intro hm
  obtain ⟨names, node, -, -, -, htakes⟩ := marked_iff.1 hm
  cases node <;> simp [PolicySet.takes, PolicySet.takesFile, PolicySet.takesLink, PolicySet.none,
    PolicySet.ofTest] at htakes

/-! ### Sequences of stages -/

section Sequences

variable {fs fs' : FileSystem} {root : Path} {l : Listing} {gone : Key → Bool}
  {removed : List Path}

theorem applyPolicy_takes (rule : PreservationRule) (used : List String) (h : fs.Readable root)
    (hl : l.Describes fs.store root.names) (hroot : l.root = root)
    (hc : Clears fs gone removed fs') (policy : Policy) :
    Takes fs (fun k => gone k ||
        marked fs.store root.names ((PolicySet.ofList [policy]).takes rule used) k)
      removed fs' id (applyPolicy rule used l policy) := by
  cases policy with
  | nestedVendor =>
    refine ((removeVendors_takes h hl hroot hc .vendor).note _ _).congr fun k _ => ?_
    rw [← marked_takes hl]
    simp [PolicySet.ofList, PolicySet.ofTest]
  | unusedPackages =>
    have hfiles := removeFiles_takes h hl hroot hc .packages fun f =>
      !rule.keeps f && decide (packageOf f ∈ l.unusedPackages used)
    have hpairs : Takes fs _ removed fs' Prod.snd
        (removeUnusedPackages .packages rule diskRemove used l) :=
      Takes.note _ _ (hfiles.map fun _ => rfl)
    have hpaths : Takes fs _ removed fs' id
        (removeUnusedPackages .packages rule diskRemove used l >>= fun x => pure x.2) :=
      hpairs.map fun _ => rfl
    refine hpaths.congr fun k _ => ?_
    rw [← marked_takes hl]
    simp [PolicySet.ofList, PolicySet.ofTest]
  | nonGo =>
    have hfiles := removeFiles_takes h hl hroot hc .filters fun f => !isBuildFile f && !rule.keeps f
    refine (hfiles.note _ _).congr fun k _ => ?_
    rw [← marked_takes hl]
    simp [PolicySet.ofList, PolicySet.ofTest]
  | goTests =>
    refine ((removeFiles_takes h hl hroot hc .filters isTestFile).note _ _).congr fun k _ => ?_
    rw [← marked_takes hl]
    simp [PolicySet.ofList, PolicySet.ofTest]

/-- A sequence of stages clears what one of its policies takes, beside what was cleared before, and
the sweep at its end the directories in which nothing is left. -/
theorem applyPolicies_clears (h : fs.Readable root) (hl : l.Describes fs.store root.names)
    (hroot : l.root = root)
    (hc : Clears fs (marked fs.store root.names (A.takes rule used)) removed fs')
    (policies : List Policy) (journal : List Record) :
    ∃ all fs₁ fs'' journal' cleared swept,
      applyPolicies rule used l policies ⟨fs', journal⟩ = (.ok all, ⟨fs'', journal'⟩) ∧
      Clears fs (marked fs.store root.names ((A.union (.ofList policies)).takes rule used)) cleared
        fs₁ ∧
      Clears fs₁ (fun k => Key.isBelow k root.names && fs₁.store.hollow k) swept fs'' := by
  induction policies generalizing A removed fs' journal with
  | nil =>
    obtain ⟨swept, fs'', journal', hrun, hswept⟩ := sweep_takes h hl hroot hc .cleanup journal
    refine ⟨swept, fs', fs'', journal', removed, swept, hrun, hc.congr fun k _ => ?_, hswept⟩
    have hsame : A.union (.ofList []) = A :=
      (A.union_comm _).trans (PolicySet.none_union A)
    rw [hsame]
  | cons policy rest ih =>
    obtain ⟨first, fs₁, journal₁, hfirst, hc₁⟩ :=
      applyPolicy_takes rule used h hl hroot hc policy journal
    have hnext := hc₁.congr fun k _ => marked_takes_union fs.store root.names (.ofList [policy]) k
    obtain ⟨all, fs₂, fs'', journal', cleared, swept, hrest, hclears, hswept⟩ :=
      ih hnext journal₁
    rw [← PolicySet.union_ofList_cons] at hclears
    refine ⟨first ++ all, fs₂, fs'', journal', cleared, swept, ?_, hclears, hswept⟩
    exact (Action.bind_run_ok hfirst).trans (Action.bind_run_ok hrest)

/-- A sequence of stages and the sweep go through and leave what a run with the same policies
leaves. -/
theorem applyPolicies_leaves (rule : PreservationRule) (used : List String) (h : fs.Readable root)
    (hl : l.Describes fs.store root.names) (hroot : l.root = root) (policies : List Policy)
    (journal journal' : List Record) :
    ∃ all fs' journal'' result,
      applyPolicies rule used l policies ⟨fs, journal⟩ = (.ok all, ⟨fs', journal''⟩) ∧
      (fs.pruneRun journal' rule root used (.ofList policies)).1 = .ok result ∧
      fs'.store = (fs.pruneRun journal' rule root used (.ofList policies)).2.store := by
  have hstart : Clears fs (marked fs.store root.names (PolicySet.none.takes rule used)) [] fs :=
    (Clears.refl fs).congr fun k _ => (marked_takes_none fs.store root.names k).symm
  obtain ⟨all, fs₁, fs', journal'', cleared, swept, hrun, hc, hc'⟩ :=
    applyPolicies_clears h hl hroot hstart policies journal
  rw [PolicySet.none_union] at hc
  have hprunes := prunes_of_clears hc hc' h.directory
  obtain ⟨result, gone, hok, hclears, hprunes'⟩ :=
    pruneRun_clears h journal' rule used (.ofList policies)
  refine ⟨all, fs', journal'', result, hrun, hok, ?_⟩
  exact (hc.trans hc').store.eq_of_get?_eq hclears.store fun k => hprunes.get?_eq hprunes'

/-- The stages can be used in any order, and any of them several times, with the listing of a
readable directory: none of them fails, and after the sweep the tree is the one that a run with the
policies of the sequence leaves, so that only the set of these matters. -/
theorem applyPolicies_any_order (fs : FileSystem) (root : Path) (rule : PreservationRule)
    (used : List String) (journal journal' : List Record) (h : fs.Readable root) :
    ∃ l listed, diskSnapshot root ⟨fs, journal⟩ = (.ok l, listed) ∧
      (∀ policies, ∃ all ended result,
        applyPolicies rule used l policies listed = (.ok all, ended) ∧
          (fs.pruneRun journal' rule root used (.ofList policies)).1 = .ok result ∧
          ended.world.store =
            (fs.pruneRun journal' rule root used (.ofList policies)).2.store) ∧
      ∀ policies policies', (∀ p, p ∈ policies ↔ p ∈ policies') →
        (applyPolicies rule used l policies listed).2.world.store =
          (applyPolicies rule used l policies' listed).2.world.store := by
  obtain ⟨l, journal₁, hlisted, hroot, hl⟩ := @diskSnapshot_of_readable root ⟨fs, journal⟩ h
  refine ⟨l, _, hlisted, fun policies => ?_, fun policies policies' hsame => ?_⟩
  · obtain ⟨all, fs', journal'', result, hrun, hok, hstore⟩ :=
      applyPolicies_leaves rule used h hl hroot policies journal₁ journal'
    exact ⟨all, _, result, hrun, hok, hstore⟩
  · obtain ⟨all, fs₁, _, _, hrun, -, hstore⟩ :=
      applyPolicies_leaves rule used h hl hroot policies journal₁ journal'
    obtain ⟨all', fs₂, _, _, hrun', -, hstore'⟩ :=
      applyPolicies_leaves rule used h hl hroot policies' journal₁ journal'
    rw [hrun, hrun']
    rw [PolicySet.ofList_congr hsame] at hstore
    exact hstore.trans hstore'.symm

/-- Tests before vendor trees and once more after them, compared with the usual order. -/
theorem applyPolicies_any_order_sample : sampleProject.Readable (Path.ofString "/p") ∧
    ∃ l listed, diskSnapshot (Path.ofString "/p") ⟨sampleProject, []⟩ = (.ok l, listed) ∧
      ∃ all ended, applyPolicies .standard ["lib"] l [.goTests, .nestedVendor, .goTests] listed =
          (.ok all, ended) ∧
        ended.world.store =
          (applyPolicies .standard ["lib"] l [.nestedVendor, .goTests] listed).2.world.store := by
  obtain ⟨l, listed, hlisted, hruns, hsame⟩ := applyPolicies_any_order sampleProject
    (Path.ofString "/p") .standard ["lib"] [] [] sampleProject_readable
  obtain ⟨all, ended, _, hrun, -, -⟩ := hruns [.goTests, .nestedVendor, .goTests]
  refine ⟨sampleProject_readable, l, listed, hlisted, all, ended, hrun, ?_⟩
  have hstores := hsame [.goTests, .nestedVendor, .goTests] [.nestedVendor, .goTests] fun p => by
    cases p <;> simp
  rw [hrun] at hstores
  exact hstores

end Sequences

end VendorTree
