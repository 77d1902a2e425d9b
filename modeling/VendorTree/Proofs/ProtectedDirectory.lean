import VendorTree.Proofs.LinkFree
import VendorTree.Proofs.Losses
import VendorTree.Proofs.PlannedRuns
import VendorTree.Proofs.SweepOrder

/-!
# The protected directory of a sweep

A sweep of the directories that held given files leaves one directory out. It compares paths for
this, not what they lead to: where another path among those directories leads to the protected one,
that path is swept like the others. A directory that only its own path leads to is safe, and where
there are no links and no paths that go up, there is only one path that leads to a directory.
-/

namespace VendorTree

open VendorTree.Action (Maintains)

variable {fs : FileSystem} {source : Source} {journal : List Record} {key : Key} {node : Node}

/-! ### What a sweep leaves -/

/-- An entry is left by a sweep if none of the swept paths leads to it. -/
theorem sweep_keeps {paths : List Path} (habs : ∀ p ∈ paths, p.isAbsolute = true)
    (hother : ∀ p ∈ paths, ¬fs.Reaches p key) :
    (sweep source diskHoldsEntry diskRemove paths ⟨fs, journal⟩).2.world.store.get? key =
      fs.store.get? key := by
  have hask : ∀ p, Maintains (LosesOnly fs (· ≠ key)) (diskHoldsEntry p) :=
    fun p => Maintains.query _
  have hremove : ∀ p ∈ sweepOrder paths, Maintains (LosesOnly fs (· ≠ key)) (diskRemove p) := by
    intro p hp
    rw [mem_sweepOrder] at hp
    refine diskRemove_maintains (habs p hp) fun k hk => ?_
    rintro rfl
    exact hother p hp hk
  have hloses := sweep_maintains (t := diskTools [] .standard) source hask hremove ⟨fs, journal⟩
    (LosesOnly.refl fs _)
  exact hloses.same key fun hne => hne rfl

theorem mem_parentsOf {files : List Path} {protectedDir : Option Path} {p : Path} :
    p ∈ parentsOf files protectedDir ↔ (∃ f ∈ files, f.parent = p) ∧ some p ≠ protectedDir := by
  rw [parentsOf, List.mem_filter, List.mem_map, decide_eq_true_eq]

/-! ### Paths to one directory -/

/-- Where there are no links, two paths that name no `..` and lead to one entry from one anchor are
the same path. -/
theorem eq_of_leads_of_linkFree (hfree : fs.store.LinkFree) {p q : Path} {follow : Bool}
    (habs : p.isAbsolute = true) (hanchor : p.anchor = q.anchor) (hp : ".." ∉ p.names)
    (hq : ".." ∉ q.names) (hpkey : fs.Reaches p key)
    (hqkey : fs.store.walkFrom follow (fs.start q) q.steps = .ok (.entry key)) : p = q := by
  have hnames {p : Path} {follow : Bool} (habs : p.isAbsolute = true) (hup : ".." ∉ p.names)
      (hleads : fs.store.walkFrom follow (fs.start p) p.steps = .ok (.entry key)) :
      key = p.names := by
    have hsteps : p.steps = p.names.map Step.enter :=
      Path.map_ofPiece fun n hn => ⟨p.named n hn, fun hdots => hup (hdots ▸ hn)⟩
    have hstart : fs.start p = ⟨[], 0⟩ := if_pos habs
    rw [hstart, hsteps, Store.walkFrom_of_notLost] at hleads
    exact Store.entry_of_walk_enter hfree hleads
  have habs' : q.isAbsolute = true := by rwa [Path.isAbsolute, ← hanchor]
  cases p
  cases q
  obtain rfl : _ = _ := hanchor
  obtain rfl : _ = _ := (hnames habs hp hpkey).symm.trans (hnames habs' hq hqkey)
  rfl

/-! ### The law -/

/-- A sweep of the directories that held given files leaves the protected directory where it is,
however it ends, if no other path among those directories leads to it. -/
theorem sweep_spares_protected (fs : FileSystem) (source : Source) (journal : List Record)
    {files : List Path} {root : Path} (habs : ∀ f ∈ files, f.isAbsolute = true)
    (hroot : fs.entryAt true root = .ok (some key, .directory))
    (honly : ∀ f ∈ files, fs.Reaches f.parent key → f.parent = root) :
    (sweep source diskHoldsEntry diskRemove (parentsOf files (some root))
      ⟨fs, journal⟩).2.world.store.get? key = some .directory := by
  have hdir : fs.store.get? key = some .directory := (FileSystem.entryAt_ok hroot).2.2 key rfl
  rw [← hdir]
  apply sweep_keeps
  · intro p hp
    obtain ⟨⟨f, hf, rfl⟩, -⟩ := mem_parentsOf.1 hp
    exact habs f hf
  · intro p hp hleads
    obtain ⟨⟨f, hf, rfl⟩, hother⟩ := mem_parentsOf.1 hp
    exact hother (congrArg some (honly f hf hleads))

/-- What is left of a project and the directory beside it after their files were removed:
directories in which nothing lies. -/
def emptiedDirectories : FileSystem where
  store := [(["w"], "p", .directory), (["w", "p"], "sub", .directory),
    (["w"], "q", .directory)].foldl
      (fun s (entry : Key × String × Node) => s.insert entry.1 entry.2.1 entry.2.2)
      (Store.empty.insert [] "w" .directory)
  here := ⟨["w"], 0⟩

/-- The project is protected, and the directory below it is not. -/
theorem sweep_spares_protected_project :
    let files := ["/w/p/a.go", "/w/p/sub/b.go"].map Path.ofString
    let swept := sweep .cleanup diskHoldsEntry diskRemove
      (parentsOf files (some (Path.ofString "/w/p"))) ⟨emptiedDirectories, []⟩
    emptiedDirectories.entryAt true (Path.ofString "/w/p") = .ok (some ["w", "p"], .directory) ∧
      swept.2.world.store.get? ["w", "p", "sub"] = none ∧
      swept.2.world.store.get? ["w", "p"] = some .directory := by
  intro files swept
  have hroot : emptiedDirectories.entryAt true (Path.ofString "/w/p") =
      .ok (some ["w", "p"], .directory) := ok_of_toOption (by decide +kernel)
  have hfree : emptiedDirectories.store.LinkFree :=
    Store.linkFree_of_entries (by decide +kernel)
  have hplain : ∀ f ∈ files,
      f.isAbsolute = true ∧ f.parent.anchor = .root ∧ ".." ∉ f.parent.names := by
    decide +kernel
  refine ⟨hroot, ?_, sweep_spares_protected emptiedDirectories .cleanup []
    (fun f hf => (hplain f hf).1) hroot fun f hf hleads => ?_⟩
  · have hswept : swept = sweepInOrder .cleanup diskHoldsEntry diskRemove
        [Path.ofString "/w/p/sub"] ⟨emptiedDirectories, []⟩ := by
      have hparents : parentsOf files (some (Path.ofString "/w/p")) =
          [Path.ofString "/w/p/sub"] := by
        decide +kernel
      show sweepInOrder _ _ _ (sweepOrder _) _ = _
      rw [hparents, sweepOrder_of_ordered (by simp) (by simp)]
    rw [hswept]
    decide +kernel
  · obtain ⟨habs, hanchor, hup⟩ := hplain f hf
    exact eq_of_leads_of_linkFree hfree habs hanchor hup (by decide +kernel) hleads
      (FileSystem.entryAt_ok hroot).2.1

/-- The project is protected under a path that goes up from the directory beside it, and the file
that was in it is known by another path. The project is removed. -/
theorem sweep_removes_protected :
    let root := Path.ofString "/w/q/../p"
    let swept := sweep .cleanup diskHoldsEntry diskRemove
      (parentsOf [Path.ofString "/w/p/sub/a.go", Path.ofString "/w/p/b.go"] (some root))
      ⟨emptiedDirectories, []⟩
    emptiedDirectories.entryAt true root = .ok (some ["w", "p"], .directory) ∧
      swept.1 = .ok [Path.ofString "/w/p/sub", Path.ofString "/w/p"] ∧
      swept.2.world.store.get? ["w", "p"] = none := by
  intro root swept
  have hswept : swept = sweepInOrder .cleanup diskHoldsEntry diskRemove
      [Path.ofString "/w/p/sub", Path.ofString "/w/p"] ⟨emptiedDirectories, []⟩ := by
    have hparents :
        parentsOf [Path.ofString "/w/p/sub/a.go", Path.ofString "/w/p/b.go"] (some root) =
        [Path.ofString "/w/p/sub", Path.ofString "/w/p"] := by decide +kernel
    show sweepInOrder _ _ _ (sweepOrder _) _ = _
    rw [hparents, sweepOrder_of_ordered (by decide +kernel) (by decide +kernel)]
  rw [hswept]
  exact ⟨ok_of_toOption (by decide +kernel), ok_of_toOption (by decide +kernel), by decide +kernel⟩

end VendorTree
