import VendorTree.Proofs.Stages

/-!
# What a run leaves

A run on a readable directory goes through, and what is left below the directory follows from the
policies: a file or a link is left unless a policy takes it, and a directory is left exactly if a
file or a link is left in it at some depth.
-/

namespace VendorTree

/-! ### What the policies take -/

/-- The policies take the file to which the names lead. -/
def PolicySet.takesFile (policies : PolicySet) (rule : PreservationRule)
    (used names : List String) : Bool :=
  let file := entryText names
  policies.nestedVendor && names.dropLast.contains vendorName ||
    policies.unusedPackages && !rule.keeps file && !used.contains (directoryText names.dropLast) ||
    policies.nonGo && !isBuildFile file && !rule.keeps file ||
    policies.goTests && isTestFile file

/-- The policies take the link to which the names lead. -/
def PolicySet.takesLink (policies : PolicySet) (names : List String) : Bool :=
  policies.nestedVendor && names.contains vendorName

/-- The policies take the entry to which the names lead, before any directory is swept. -/
def PolicySet.takes (policies : PolicySet) (rule : PreservationRule) (used names : List String) :
    Node → Bool
  | .file _ => policies.takesFile rule used names
  | .link _ | .directory => policies.takesLink names

/-- What a run with some policies makes of the tree below a directory. -/
structure Prunes (policies : PolicySet) (rule : PreservationRule) (used : List String) (base : Key)
    (s s' : Store) : Prop where
  files : ∀ names contents, s'.get? (base ++ names) = some (.file contents) ↔
    s.get? (base ++ names) = some (.file contents) ∧ policies.takesFile rule used names = false
  links : ∀ names target, s'.get? (base ++ names) = some (.link target) ↔
    s.get? (base ++ names) = some (.link target) ∧ policies.takesLink names = false
  directories : ∀ names, names ≠ [] → (s'.get? (base ++ names) = some .directory ↔
    s.get? (base ++ names) = some .directory ∧ ∃ rest node, rest ≠ [] ∧ node ≠ .directory ∧
      s'.get? (base ++ names ++ rest) = some node)
  others : ∀ k, Key.isBelow k base = false → s'.get? k = s.get? k

namespace Prunes

variable {policies : PolicySet} {rule : PreservationRule} {used names : List String} {base : Key}
  {s s' : Store} {node : Node}

/-- An entry other than a directory is left exactly if the policies do not take it. -/
theorem get?_eq_some_iff (h : Prunes policies rule used base s s') (hnode : node ≠ .directory) :
    s'.get? (base ++ names) = some node ↔
      s.get? (base ++ names) = some node ∧ policies.takes rule used names node = false := by
  cases node with
  | file contents => exact h.files names contents
  | link target => exact h.links names target
  | directory => exact absurd rfl hnode

/-- Nothing is left of an entry if the policies take every file and link in it. -/
theorem get?_eq_none (h : Prunes policies rule used base s s') (hne : names ≠ [])
    (hall : ∀ rest node, s.get? (base ++ (names ++ rest)) = some node → node ≠ .directory →
      policies.takes rule used (names ++ rest) node = true) : s'.get? (base ++ names) = none := by
  have hnone : ∀ rest node, node ≠ .directory → s'.get? (base ++ (names ++ rest)) ≠ some node := by
    intro rest node hnode hn
    obtain ⟨hn, hleft⟩ := (h.get?_eq_some_iff hnode).1 hn
    rw [hall rest node hn hnode] at hleft
    simp at hleft
  rw [Option.eq_none_iff_forall_ne_some]
  intro node hn
  by_cases hnode : node = .directory
  · subst hnode
    obtain ⟨-, rest, node, -, hnode, hleft⟩ := (h.directories names hne).1 hn
    rw [List.append_assoc] at hleft
    exact hnone rest node hnode hleft
  · exact hnone [] node hnode (by rwa [List.append_nil])

end Prunes

section Runs

variable {fs fs' : FileSystem} {root : Path} {base : Key} {l : Listing} {gone gone' : Key → Bool}
  {removed : List Path} {rule : PreservationRule} {used : List String} {policies : PolicySet}

/-- The package of a file is found unused exactly if it is not in the list of used ones. -/
theorem packageOf_mem_unused {names : List String} {node : Node}
    (hl : l.Describes fs.store base)
    (hn : fs.store.get? (base ++ names) = some node) :
    packageOf (entryText names) ∈ l.unusedPackages used ↔ directoryText names.dropLast ∉ used := by
  have hnamed := Store.isPathName_of_get? (Option.isSome_of_eq_some hn)
  have hpackage : directoryText names.dropLast ∈ l.packages := by
    by_cases hd : names.dropLast = []
    · simp [hd, directoryText, Listing.packages, rootPackage]
    · refine List.mem_cons_of_mem _ (List.mem_map.2 ⟨_, hl.mem_dirs hn hd, ?_⟩)
      exact text_ofString_entryText fun n h => hnamed n (List.dropLast_subset _ h)
  rw [packageOf_entryText hnamed, Listing.mem_unusedPackages]
  exact and_iff_right hpackage

theorem marked_takes (hl : l.Describes fs.store root.names) {k : Key} :
    (policies.nestedVendor && marked fs.store root.names inVendorTree k ||
      policies.unusedPackages && marked fs.store root.names (fun names node => node.kind = .file &&
        (!rule.keeps (entryText names) &&
          decide (packageOf (entryText names) ∈ l.unusedPackages used))) k ||
      policies.nonGo && marked fs.store root.names (fun names node => node.kind = .file &&
        (!isBuildFile (entryText names) && !rule.keeps (entryText names))) k ||
      policies.goTests && marked fs.store root.names (fun names node => node.kind = .file &&
        isTestFile (entryText names)) k) =
    marked fs.store root.names (policies.takes rule used) k := by
  by_cases hk : ∃ names node, names ≠ [] ∧ k = root.names ++ names ∧ fs.store.get? k = some node
  · obtain ⟨names, node, hne, rfl, hn⟩ := hk
    have hbelow : Key.isBelow (root.names ++ names) root.names = true :=
      Key.isBelow_iff.2 ⟨names, hne, rfl⟩
    have hmark : ∀ test, marked fs.store root.names test (root.names ++ names) =
        test names node := by
      intro test
      rw [marked, hbelow, hn, List.drop_left]
      rfl
    -- an entry that is there makes its package one of the listing, so only its use is left to ask
    have hunused : decide (packageOf (entryText names) ∈ l.unusedPackages used) =
        !used.contains (directoryText names.dropLast) := by
      rw [Bool.eq_iff_iff, decide_eq_true_eq, packageOf_mem_unused hl hn]
      simp
    simp only [hmark, hunused]
    cases node <;>
      simp [PolicySet.takes, PolicySet.takesFile, PolicySet.takesLink, inVendorTree, Node.kind,
        Bool.and_assoc]
  · have hmark : ∀ test, marked fs.store root.names test k = false := by
      intro test
      rw [Bool.eq_false_iff]
      intro hm
      obtain ⟨names, node, hne, hkey, hn, -⟩ := marked_iff.1 hm
      exact hk ⟨names, node, hne, hkey, hn⟩
    simp [hmark]

/-- The stages of a run clear what the policies take, and the sweep clears the directories in which
nothing is left. -/
theorem pruneListing_clears (h : fs.Readable root) (hl : l.Describes fs.store root.names)
    (hroot : l.root = root) (rule : PreservationRule) (used : List String) (policies : PolicySet)
    (journal : List Record) :
    ∃ result fs₁ fs' journal' removed swept,
      (diskTools [] rule).pruneListing l used policies ⟨fs, journal⟩ =
        (.ok result, ⟨fs', journal'⟩) ∧ result.removed = removed ++ swept ∧
      Clears fs (marked fs.store root.names (policies.takes rule used)) removed fs₁ ∧
      Clears fs₁ (fun k => Key.isBelow k root.names && fs₁.store.hollow k) swept fs' := by
  -- each stage clears further from what the ones before it left, and is judged by the first file
  -- system
  have hvendors : Takes fs _ [] fs id (inStageIf policies.nestedVendor .nestedVendor []
      (removeNestedVendors .engine Listing.nestedVendors diskRemoveTree l)) :=
    Takes.inStageIf _ _ (Clears.refl fs) rfl
      ((removeVendors_takes h hl hroot (Clears.refl fs) .engine).note _ _)
  obtain ⟨vendors, fs₁, journal₁, hrun₁, hc₁⟩ := hvendors
    (journal ++ [⟨.engine, .runStarted l.root policies⟩])
  have hunused : Takes fs _ vendors fs₁ Prod.snd
      (inStageIf policies.unusedPackages .unusedPackages (none, [])
        (removeUnusedPackages .engine rule diskRemove used l >>= fun x =>
          pure (some x.1, x.2))) :=
    Takes.inStageIf _ _ hc₁ rfl (Takes.map (Takes.note _ _ (Takes.map
      (removeFiles_takes h hl hroot hc₁ .engine fun f =>
        !rule.keeps f && decide (packageOf f ∈ l.unusedPackages used)) fun _ => rfl)) fun _ => rfl)
  obtain ⟨⟨unused, unusedFiles⟩, fs₂, journal₂, hrun₂, hc₂⟩ := hunused journal₁
  have hnonGo : Takes fs _ _ fs₂ id (inStageIf policies.nonGo .nonGo []
      (removeNonGo .engine rule diskRemove l)) :=
    Takes.inStageIf _ _ hc₂ rfl (Takes.note _ _
      (removeFiles_takes h hl hroot hc₂ .engine fun f => !isBuildFile f && !rule.keeps f))
  obtain ⟨nonGo, fs₃, journal₃, hrun₃, hc₃⟩ := hnonGo journal₂
  have htests : Takes fs _ _ fs₃ id (inStageIf policies.goTests .goTests []
      (removeTests .engine diskRemove l)) :=
    Takes.inStageIf _ _ hc₃ rfl (Takes.note _ _
      (removeFiles_takes h hl hroot hc₃ .engine isTestFile))
  obtain ⟨tests, fs₄, journal₄, hrun₄, hc₄⟩ := htests journal₃
  obtain ⟨swept, fs₅, journal₅, hrun₅, hc₅⟩ :=
    (sweep_takes h hl hroot hc₄ .engine).inStage .emptyDirs journal₄
  let removed := vendors ++ unusedFiles ++ nonGo ++ tests
  refine ⟨⟨l.root, policies, removed ++ swept, unused⟩, fs₄, fs₅,
    journal₅ ++ [⟨.engine, .runFinished l.root (removed ++ swept).length⟩], removed, swept, ?_, rfl,
    hc₄.congr fun k _ => ?_, hc₅⟩
  · refine (Action.note_bind_run _ _ _).trans ((Action.bind_run_ok hrun₁).trans ?_)
    refine (Action.bind_run_ok hrun₂).trans ((Action.bind_run_ok hrun₃).trans ?_)
    exact (Action.bind_run_ok hrun₄).trans (Action.bind_run_ok hrun₅)
  · rw [← marked_takes hl, Bool.false_or]

/-! ### What is left -/

variable {fs₁ : FileSystem} {swept : List Path} {names : List String} {node : Node}

theorem ne_nil_of_ne_directory {s : Store} {k : Key} (h : s.get? k = some node)
    (hnode : node ≠ .directory) : k ≠ [] := by
  rintro rfl
  exact hnode (Option.some.inj h).symm

theorem get?_left_iff
    (h : Clears fs (marked fs.store base (policies.takes rule used)) removed fs₁)
    (h' : Clears fs₁ (fun k => Key.isBelow k base && fs₁.store.hollow k) swept fs')
    (hbase : fs.store.get? base = some .directory) (hnode : node ≠ .directory) :
    fs'.store.get? (base ++ names) = some node ↔
      fs.store.get? (base ++ names) = some node ∧ policies.takes rule used names node = false := by
  -- the sweep takes directories only
  have hsolid : fs₁.store.get? (base ++ names) = some node →
      fs₁.store.hollow (base ++ names) = false := by
    intro hn
    rw [Bool.eq_false_iff]
    intro hhollow
    rw [(Store.hollow_iff.1 hhollow).1] at hn
    exact hnode (Option.some.inj hn).symm
  have hmarked : fs.store.get? (base ++ names) = some node →
      marked fs.store base (policies.takes rule used) (base ++ names) =
        policies.takes rule used names node := by
    intro hn
    have hne : names ≠ [] := by
      rintro rfl
      rw [List.append_nil, hbase] at hn
      exact hnode (Option.some.inj hn).symm
    rw [marked, Key.isBelow_iff.2 ⟨names, hne, rfl⟩, hn, List.drop_left]
    rfl
  constructor
  · intro hn
    have hk := ne_nil_of_ne_directory hn hnode
    obtain ⟨hn₁, -⟩ := (h'.get?_eq_some_iff hk).1 hn
    obtain ⟨hn₀, hleft⟩ := (h.get?_eq_some_iff hk).1 hn₁
    exact ⟨hn₀, hmarked hn₀ ▸ hleft⟩
  · rintro ⟨hn₀, hleft⟩
    have hk := ne_nil_of_ne_directory hn₀ hnode
    have hn₁ := (h.get?_eq_some_iff hk).2 ⟨hn₀, (hmarked hn₀).trans hleft⟩
    exact (h'.get?_eq_some_iff hk).2 ⟨hn₁, by simp [hsolid hn₁]⟩

theorem prunes_of_clears
    (h : Clears fs (marked fs.store base (policies.takes rule used)) removed fs₁)
    (h' : Clears fs₁ (fun k => Key.isBelow k base && fs₁.store.hollow k) swept fs')
    (hbase : fs.store.get? base = some .directory) :
    Prunes policies rule used base fs.store fs'.store where
  files names contents := get?_left_iff h h' hbase (by simp)
  links names target := get?_left_iff h h' hbase (by simp)
  directories names hne := by
    have hk : base ++ names ≠ [] := by simp [hne]
    constructor
    · intro hdir
      obtain ⟨hdir₁, hfull⟩ := (h'.get?_eq_some_iff hk).1 hdir
      refine ⟨((h.get?_eq_some_iff hk).1 hdir₁).1, ?_⟩
      rw [Key.isBelow_iff.2 ⟨names, hne, rfl⟩, Bool.true_and] at hfull
      obtain ⟨rest, node, hr, hn, hnode⟩ := Store.exists_of_not_hollow hdir₁ hfull
      refine ⟨rest, node, hr, hnode, (h'.get?_eq_some_iff (by simp [hne])).2 ⟨hn, ?_⟩⟩
      rw [Bool.eq_false_iff]
      intro hgone
      rw [Bool.and_eq_true, Store.hollow_iff, hn] at hgone
      exact hnode (Option.some.inj hgone.2.1)
    · rintro ⟨-, rest, node, hr, -, hn⟩
      exact Store.get?_above hr (Option.isSome_of_eq_some hn)
  others k hk := by
    have hstages := h.get?_of_left (k := k) (by rw [marked, hk, Bool.false_and])
    exact (h'.get?_of_left (by rw [hk, Bool.false_and])).trans hstages

end Runs

/-- A run without injected faults: what it comes to, and the file system after it. -/
def FileSystem.pruneRun (fs : FileSystem) (journal : List Record) (rule : PreservationRule)
    (root : Path) (used : List String) (policies : PolicySet) :
    Except RunFault RunResult × FileSystem :=
  let (outcome, after) := (diskTools [] rule).prune root used policies ⟨fs, journal⟩
  (outcome, after.world)

/-- A run goes through, what it reports as removed was there and is gone, and what is left follows
from the policies. -/
theorem pruneRun_clears {fs : FileSystem} {root : Path} (h : fs.Readable root)
    (journal : List Record) (rule : PreservationRule) (used : List String) (policies : PolicySet) :
    ∃ result gone, (fs.pruneRun journal rule root used policies).1 = .ok result ∧
      Clears fs gone result.removed (fs.pruneRun journal rule root used policies).2 ∧
      Prunes policies rule used root.names fs.store
        (fs.pruneRun journal rule root used policies).2.store := by
  obtain ⟨l, journal₁, hlisted, hroot, hl⟩ := @diskSnapshot_of_readable root ⟨fs, journal⟩ h
  obtain ⟨result, fs₁, fs', journal', removed, swept, hrun, hremoved, hc, hc'⟩ :=
    pruneListing_clears h hl hroot rule used policies journal₁
  have hprune := (Tools.prune_run hlisted used policies).trans hrun
  have houtcome : fs.pruneRun journal rule root used policies = (.ok result, fs') := by
    unfold FileSystem.pruneRun
    rw [hprune]
  rw [houtcome]
  exact ⟨result, _, rfl, hremoved ▸ hc.trans hc', prunes_of_clears hc hc' h.directory⟩

/-- A run on a readable directory goes through and leaves below it exactly the files and links that
the policies do not take, with what they hold, and the directories in which one of these is left.
Nothing else changes. -/
theorem prune_leaves_survivors (fs : FileSystem) (root : Path) (journal : List Record)
    (rule : PreservationRule) (used : List String) (policies : PolicySet) (h : fs.Readable root) :
    ∃ result, (fs.pruneRun journal rule root used policies).1 = .ok result ∧
      Prunes policies rule used root.names fs.store
        (fs.pruneRun journal rule root used policies).2.store := by
  obtain ⟨result, _, hrun, _, hprunes⟩ := pruneRun_clears h journal rule used policies
  exact ⟨result, hrun, hprunes⟩

/-- A project with a used package, a test, a nested vendor tree, a legal file and two links. -/
def sampleProject : FileSystem where
  store := [(["p"], "main.go", .file ⟨#[1]⟩), (["p"], "LICENSE", .file ⟨#[2]⟩),
    (["p"], "lib", .directory), (["p", "lib"], "a.go", .file ⟨#[3]⟩),
    (["p", "lib"], "a_test.go", .file ⟨#[4]⟩), (["p", "lib"], "vendor", .directory),
    (["p", "lib", "vendor"], "x.go", .file ⟨#[5]⟩), (["p"], "docs", .directory),
    (["p", "docs"], "vendor", .link "../lib"), (["p"], "current", .link "lib")].foldl
      (fun s (entry : Key × String × Node) => s.insert entry.1 entry.2.1 entry.2.2)
      (Store.empty.insert [] "p" .directory)
  here := ⟨[], 0⟩

theorem sampleProject_readable : sampleProject.Readable (Path.ofString "/p") :=
  FileSystem.readable_of_entries (by decide +kernel) (by decide +kernel) (by decide +kernel)

/-- Only `lib` is used: its source stays, its test and its vendor tree go, and so does `docs`, which
held nothing but a link to a vendor tree. -/
theorem prune_leaves_sample_sources : sampleProject.Readable (Path.ofString "/p") ∧
    ∃ result fs', sampleProject.pruneRun [] .standard (Path.ofString "/p") ["lib"] .all =
        (.ok result, fs') ∧
      fs'.store.get? ["p", "lib", "a.go"] = some (.file ⟨#[3]⟩) ∧
      fs'.store.get? ["p", "LICENSE"] = some (.file ⟨#[2]⟩) ∧
      fs'.store.get? ["p", "current"] = some (.link "lib") ∧
      (∀ contents, fs'.store.get? ["p", "lib", "a_test.go"] ≠ some (.file contents)) ∧
      fs'.store.get? ["p", "docs", "vendor"] ≠ some (.link "../lib") := by
  refine ⟨sampleProject_readable, ?_⟩
  obtain ⟨result, hrun, hleft⟩ := prune_leaves_survivors sampleProject (Path.ofString "/p") []
    .standard ["lib"] .all sampleProject_readable
  refine ⟨result, _, Prod.ext hrun rfl, ?_, ?_, ?_, fun contents hc => ?_, fun hc => ?_⟩
  · exact (hleft.files ["lib", "a.go"] _).2 ⟨by decide +kernel, by decide +kernel⟩
  · exact (hleft.files ["LICENSE"] _).2 ⟨by decide +kernel, by decide +kernel⟩
  · exact (hleft.links ["current"] _).2 ⟨by decide +kernel, by decide +kernel⟩
  · have htaken := ((hleft.files ["lib", "a_test.go"] contents).1 hc).2
    exact absurd htaken (by decide +kernel)
  · have htaken := ((hleft.links ["docs", "vendor"] _).1 hc).2
    exact absurd htaken (by decide +kernel)

end VendorTree
