import VendorTree.Proofs.Alike

/-!
# Runs one after the other

What is left after a run with some policies and then one with others is what one run with all of
them leaves, so the order of the runs does not matter and a second run finds nothing to remove.
-/

namespace VendorTree

variable {A B policies : PolicySet} {rule : PreservationRule} {used : List String} {base : Key}
  {s s' s'' : Store} {fs fs' : FileSystem} {root : Path}

/-! ### Unions of policies -/

theorem PolicySet.union_comm (A B : PolicySet) : A.union B = B.union A :=
  ext_has fun p => by simp only [union, has_ofTest, Bool.or_comm]

theorem PolicySet.union_self (A : PolicySet) : A.union A = A :=
  ext_has fun p => by simp only [union, has_ofTest, Bool.or_self]

theorem takesLink_union (names : List String) :
    (A.union B).takesLink names = (A.takesLink names || B.takesLink names) := by
  simp only [PolicySet.takesLink, PolicySet.union, PolicySet.ofTest, PolicySet.has]
  cases A.nestedVendor <;> cases B.nestedVendor <;> simp

theorem or_or_or_or_comm (a a' b b' c c' d d' : Bool) :
    (a || a' || (b || b') || (c || c') || (d || d')) =
      (a || b || c || d || (a' || b' || c' || d')) := by
  cases a <;> cases b <;> cases c <;> cases d <;> simp

theorem takesFile_union (names : List String) : (A.union B).takesFile rule used names =
    (A.takesFile rule used names || B.takesFile rule used names) := by
  unfold PolicySet.takesFile
  show ((A.nestedVendor || B.nestedVendor) && _ ||
    (A.unusedPackages || B.unusedPackages) && _ && _ || (A.nonGo || B.nonGo) && _ && _ ||
    (A.goTests || B.goTests) && _) = _
  simp only [Bool.and_or_distrib_right]
  exact or_or_or_or_comm ..

/-! ### What runs leave -/

namespace Prunes

theorem trans (h : Prunes A rule used base s s') (h' : Prunes B rule used base s' s'') :
    Prunes (A.union B) rule used base s s'' where
  files names contents := by
    rw [h'.files, h.files, takesFile_union, Bool.or_eq_false_iff, and_assoc]
  links names target := by
    rw [h'.links, h.links, takesLink_union, Bool.or_eq_false_iff, and_assoc]
  directories names hne := by
    rw [h'.directories names hne, h.directories names hne]
    constructor
    · rintro ⟨⟨hdir, -⟩, hleft⟩
      exact ⟨hdir, hleft⟩
    · rintro ⟨hdir, rest, node, hr, hnode, hn⟩
      have hleft : s'.get? (base ++ names ++ rest) = some node := by
        rw [List.append_assoc] at hn ⊢
        exact ((h'.get?_eq_some_iff hnode).1 hn).1
      exact ⟨⟨hdir, rest, node, hr, hnode, hleft⟩, rest, node, hr, hnode, hn⟩
  others k hk := (h'.others k hk).trans (h.others k hk)

/-- The policies determine what lies where after a run. -/
theorem get?_eq {k : Key} (h : Prunes policies rule used base s s')
    (h' : Prunes policies rule used base s s'') : s'.get? k = s''.get? k := by
  cases hb : Key.isBelow k base with
  | false => rw [h.others k hb, h'.others k hb]
  | true =>
    obtain ⟨names, -, rfl⟩ := Key.isBelow_iff.1 hb
    exact get?_congr h h' (fun _ => rfl) names

end Prunes

/-- Two parts of a store in which the same lies at each key are the same. -/
theorem Store.Keeps.eq_of_get?_eq {keep keep' : Key → Bool} (h : s.Keeps s' keep)
    (h' : s.Keeps s'' keep') (heq : ∀ k, s'.get? k = s''.get? k) : s' = s'' := by
  refine Store.ext_entries ?_
  rw [h, h']
  refine List.filter_congr fun e he => ?_
  have hne : e.1 ≠ [] := (s.named e he).1
  have hnode : s.get? e.1 = some e.2 := Store.get?_of_mem he
  have hkey := heq e.1
  rw [h.get?_eq hne, h'.get?_eq hne, hnode] at hkey
  cases hk : keep e.1 <;> cases hk' : keep' e.1 <;> simp_all

theorem FileSystem.Readable.of_prunes {gone : Key → Bool} {removed : List Path}
    (h : fs.Readable root) (hc : Clears fs gone removed fs')
    (hp : Prunes policies rule used root.names fs.store fs'.store) : fs'.Readable root := by
  have hdir := (hp.others root.names (by simp [Key.isBelow])).trans h.directory
  exact h.of_within hc.store.within hdir hc.refused

/-! ### Runs one after the other -/

section Runs

variable (journal journal' : List Record) (rule : PreservationRule) (used : List String)

theorem readable_pruneRun (h : fs.Readable root) (policies : PolicySet) :
    (fs.pruneRun journal rule root used policies).2.Readable root := by
  obtain ⟨result, gone, -, hc, hp⟩ := pruneRun_clears h journal rule used policies
  exact h.of_prunes hc hp

theorem pruneRun_union (h : fs.Readable root) (A B : PolicySet) :
    ((fs.pruneRun journal rule root used A).2.pruneRun journal' rule root used B).2.store =
      (fs.pruneRun journal rule root used (A.union B)).2.store := by
  obtain ⟨_, _, -, hc, hp⟩ := pruneRun_clears h journal rule used A
  obtain ⟨_, _, -, hc', hp'⟩ :=
    pruneRun_clears (readable_pruneRun journal rule used h A) journal' rule used B
  obtain ⟨_, _, -, hc'', hp''⟩ := pruneRun_clears h journal rule used (A.union B)
  exact (hc.trans hc').store.eq_of_get?_eq hc''.store fun k => (hp.trans hp').get?_eq hp''

/-- A run that leaves everything as it is reports nothing as removed. -/
theorem removed_eq_nil {gone : Key → Bool} {removed : List Path} (hc : Clears fs gone removed fs')
    (hsame : fs'.store = fs.store) : removed = [] := by
  rw [List.eq_nil_iff_forall_not_mem]
  intro p hp
  obtain ⟨-, hsome, -⟩ := hc.reported p hp
  rw [← hsame, hc.get?_of_reported hp] at hsome
  simp at hsome

/-- A run with some policies and then one with others leave what one run with all of them leaves, so
their order does not matter. A second run with the same policies removes nothing. -/
theorem pruneRun_pruneRun (fs : FileSystem) (root : Path) (journal journal' : List Record)
    (rule : PreservationRule) (used : List String) (A B : PolicySet) (h : fs.Readable root) :
    let run policies (fs : FileSystem) := fs.pruneRun journal rule root used policies
    let next policies (fs : FileSystem) := fs.pruneRun journal' rule root used policies
    (∃ a b c, (run A fs).1 = .ok a ∧ (next B (run A fs).2).1 = .ok b ∧
        (run (A.union B) fs).1 = .ok c ∧
        (next B (run A fs).2).2.store = (run (A.union B) fs).2.store) ∧
      (next B (run A fs).2).2.store = (next A (run B fs).2).2.store ∧
      ∃ a, (next A (run A fs).2).1 = .ok a ∧ a.removed = [] ∧
        (next A (run A fs).2).2.store = (run A fs).2.store := by
  intro run next
  have hA := readable_pruneRun journal rule used h A
  obtain ⟨a, _, ha, -, -⟩ := pruneRun_clears h journal rule used A
  obtain ⟨b, _, hb, -, -⟩ := pruneRun_clears hA journal' rule used B
  obtain ⟨c, _, hc, -, -⟩ := pruneRun_clears h journal rule used (A.union B)
  obtain ⟨again, gone, hagain, hclears, -⟩ := pruneRun_clears hA journal' rule used A
  have hunion := pruneRun_union journal journal' rule used h
  have hsame : (next A (run A fs).2).2.store = (run A fs).2.store := by
    have hself := hunion A A
    rwa [A.union_self] at hself
  refine ⟨⟨a, b, c, ha, hb, hc, hunion A B⟩, ?_, again, hagain, removed_eq_nil hclears hsame, hsame⟩
  exact (hunion A B).trans ((hunion B A).trans (by rw [PolicySet.union_comm])).symm

/-- Two runs on the sample project, with two policies each. -/
theorem pruneRun_pruneRun_sample :
    let root := Path.ofString "/p"
    let run (policies : PolicySet) (fs : FileSystem) :=
      fs.pruneRun [] .standard root ["lib"] policies
    sampleProject.Readable root ∧
      (run (.ofNat 12) (run (.ofNat 3) sampleProject).2).2.store =
        (run (PolicySet.union (.ofNat 3) (.ofNat 12)) sampleProject).2.store ∧
      ∃ again, (run (.ofNat 3) (run (.ofNat 3) sampleProject).2).1 = .ok again ∧
        again.removed = [] := by
  have h := pruneRun_pruneRun sampleProject (Path.ofString "/p") [] [] .standard ["lib"] (.ofNat 3)
    (.ofNat 12) sampleProject_readable
  obtain ⟨⟨_, _, _, -, -, -, hunion⟩, -, again, hagain, hnone, -⟩ := h
  refine ⟨sampleProject_readable, ?_, again, ?_, hnone⟩
  · exact hunion
  · exact hagain

end Runs

end VendorTree
