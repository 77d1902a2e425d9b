import VendorTree.Proofs.CommandSteps
import VendorTree.Proofs.LinkFree
import VendorTree.Proofs.SparedRuns

/-!
# Used sources in a run on a vendor directory

Locked projects are pruned one after the other, each by its own policies and its own list of used
packages, and one may lie inside another. A source of a used package is still there at the end if
every other project that it lies in spares it.
-/

namespace VendorTree

open CommandLine (Request Settings readRequest)

/-! ### Names of sources -/

theorem fromLastDot_of_go {name : List Char} (h : ".go".toList <:+ name) :
    fromLastDot name = ".go".toList := by
  obtain ⟨front, rfl⟩ := h
  have hdot : '.' ∈ front ++ ".go".toList := List.mem_append_right _ (by decide)
  rw [fromLastDot, if_pos hdot, List.reverse_append]
  rfl

theorem isBuildFile_of_go {names : List String} {f : String}
    (hnamed : ∀ n ∈ names ++ [f], IsPathName n) (hgo : ".go".toList <:+ f.toList) :
    isBuildFile (entryText (names ++ [f])) = true := by
  have hname : (Path.ofString (entryText (names ++ [f]))).name = f := by
    rw [name_ofString_entryText hnamed]
    simp
  rw [isBuildFile, extension, hname, fromLastDot_of_go hgo]
  decide +kernel

theorem toList_entryText_concat (names : List String) (f : String) :
    ∃ front, (entryText (names ++ [f])).toList = front ++ f.toList ∧
      (front = [] ∨ ∃ outer, front = outer ++ ['/']) := by
  rw [toList_entryText]
  induction names with
  | nil => exact ⟨[], by simp, .inl rfl⟩
  | cons n rest ih =>
    obtain ⟨front, hfront, hend⟩ := ih
    have hne : (rest ++ [f]).map String.toList ≠ [] := by simp
    obtain ⟨next, more, hmore⟩ := List.exists_cons_of_ne_nil hne
    refine ⟨n.toList ++ ['/'] ++ front, ?_, .inr ?_⟩
    · rw [List.cons_append, List.map_cons, hmore, List.intercalate_cons_cons, ← hmore, hfront]
      simp
    · rcases hend with rfl | ⟨outer, rfl⟩
      · exact ⟨n.toList, by simp⟩
      · exact ⟨n.toList ++ ['/'] ++ outer, by simp⟩

/-- Only the last name decides whether a file is a test. -/
theorem isTestFile_entryText {names : List String} {f : String}
    (h : isTestFile (entryText (names ++ [f])) = true) : testEnding.toList <:+ f.toList := by
  obtain ⟨front, htext, hend⟩ := toList_entryText_concat names f
  rw [isTestFile, List.isSuffixOf_iff_suffix, htext] at h
  rcases List.suffix_or_suffix_of_suffix h (List.suffix_append front f.toList) with hs | hs
  · exact hs
  · obtain ⟨inner, hinner⟩ := hs
    rw [← hinner] at h
    have hfront : inner <:+ front := by
      obtain ⟨outer, hsplit⟩ := h
      rw [← List.append_assoc] at hsplit
      exact ⟨outer, List.append_cancel_right hsplit⟩
    rcases List.eq_nil_or_concat inner with rfl | ⟨init, c, rfl⟩
    · rw [← hinner]
      exact List.suffix_refl _
    · rcases hend with rfl | ⟨outer, rfl⟩
      · simp at hfront
      · obtain ⟨more, hmore⟩ := hfront
        rw [List.concat_eq_append, ← List.append_assoc] at hmore
        have hslash : c = '/' := by simpa using (List.append_inj' hmore rfl).2
        have hin : '/' ∈ testEnding.toList := by
          rw [← hinner, hslash]
          simp
        exact absurd hin (by decide +kernel)

/-! ### Projects and files -/

/-- The text is the import path with these names. -/
def IsImportPath (text : String) (names : List String) : Prop :=
  names ≠ [] ∧ (∀ n ∈ names, IsPathName n ∧ n ≠ "..") ∧ text = entryText names

instance (text : String) (names : List String) : Decidable (IsImportPath text names) :=
  inferInstanceAs (Decidable (_ ∧ _ ∧ _))

namespace LockedProject

variable {p : LockedProject} {policies : PolicySet} {rule : PreservationRule}
  {names dirNames : List String} {f : String}

/-- The file in a directory of the project is a source of a used package, outside of vendor trees
below the project. -/
structure UsedSource (p : LockedProject) (dirNames : List String) (f : String) : Prop where
  used : directoryText dirNames ∈ p.packages
  source : ".go".toList <:+ f.toList
  noTest : ¬ testEnding.toList <:+ f.toList
  outside : vendorName ∉ dirNames

/-- A run on the project spares sources in a directory: it does not lie in a vendor tree if these
are removed, and it is a used package, or the file is kept anyway, if unused packages are
removed. -/
structure Spares (p : LockedProject) (policies : PolicySet) (rule : PreservationRule)
    (dirNames : List String) (f : String) : Prop where
  outside : policies.nestedVendor = true → vendorName ∉ dirNames
  used : policies.unusedPackages = true →
    directoryText dirNames ∈ p.packages ∨ rule.keeps (entryText (dirNames ++ [f])) = true

theorem UsedSource.spares (h : p.UsedSource dirNames f) : p.Spares policies rule dirNames f where
  outside _ := h.outside
  used _ := .inl h.used

theorem Spares.takesFile (h : p.Spares policies rule dirNames f)
    (hnamed : ∀ n ∈ dirNames ++ [f], IsPathName n) (hgo : ".go".toList <:+ f.toList)
    (htest : ¬ testEnding.toList <:+ f.toList) :
    policies.takesFile rule p.packages (dirNames ++ [f]) = false := by
  have hbuild := isBuildFile_of_go hnamed hgo
  have hnoTest : isTestFile (entryText (dirNames ++ [f])) = false := by
    rw [Bool.eq_false_iff]
    exact fun ht => htest (isTestFile_entryText ht)
  have hvendor : (policies.nestedVendor && dirNames.contains vendorName) = false := by
    cases hchosen : policies.nestedVendor with
    | false => rfl
    | true => simpa using h.outside hchosen
  have hunused : (policies.unusedPackages && !rule.keeps (entryText (dirNames ++ [f])) &&
      !p.packages.contains (directoryText dirNames)) = false := by
    cases hchosen : policies.unusedPackages with
    | false => rfl
    | true => rcases h.used hchosen with hused | hkeeps <;> simp [*]
  rw [PolicySet.takesFile, List.dropLast_concat, hvendor, hunused, hbuild, hnoTest]
  simp

end LockedProject

/-- The directory of a project has the key that its import path gives it in the vendor directory. -/
theorem key_of_importPath {fs : FileSystem} {dir : Path} {vendor base : Key} {text : String}
    {names : List String} (hfree : fs.store.LinkFree)
    (hdir : fs.store.walkFrom true (fs.start dir) dir.steps = .ok (.entry vendor))
    (himport : IsImportPath text names)
    (hbase : fs.store.walkFrom true (fs.start (dir.join text)) (dir.join text).steps =
      .ok (.entry base)) : base = vendor ++ names := by
  obtain ⟨-, hnamed, rfl⟩ := himport
  have hsteps : (dir.join (entryText names)).steps = dir.steps ++ names.map Step.enter :=
    dir.steps_below hnamed
  rw [hsteps] at hbase
  have hwalk := (Store.walkFrom_append_of_linkFree hfree hdir).symm.trans hbase
  exact Store.entry_of_walk_enter hfree hwalk

/-! ### The run -/

variable {env : Environment} {tools : Tools FileSystem} {files : FileSystem} {s : Session}
  {arguments : List String} {settings : Settings} {r : VendorRequest}
  {lock : Lock} {config : Config}
  {I : FileSystem → Prop}

/-- The arguments ask for a run on a vendor directory, the documents for it are loaded, the projects
of the lock are import paths, and the tree has no links. -/
structure VendorRun (env : Environment) (files : FileSystem) (arguments : List String)
    (settings : Settings) (r : VendorRequest) (lock : Lock) (config : Config) : Prop where
  request : readRequest arguments = .ok (settings, .vendor r)
  locked : files.loadLock r.lock = .ok lock
  configured : files.resolveConfig env r.config none = .ok config
  named : ∀ q ∈ lock.projects, ∃ names, IsImportPath q.project names
  linkFree : files.store.LinkFree

/-- A run on a vendor directory maintains what its runs on the projects maintain. -/
theorem pruneVendor_maintains {verbose quiet : Bool} (hlock : s.files.loadLock r.lock = .ok lock)
    (hconfig : s.files.resolveConfig env r.config none = .ok config) (hs : I s.files)
    (hruns : ∀ p ∈ lock.projects, Action.Maintains I
      (tools.prune (r.dir.join p.project) p.packages (config.policiesFor p.project))) :
    I ((Command.pruneVendor env tools verbose quiet r).run s).2.files := by
  unfold Command.pruneVendor
  rw [Command.bind_run_ok (Command.loadLock_run hlock),
    Command.bind_run_ok (Command.loadConfig_run hconfig)]
  refine (Command.Maintains.query _).bind (fun there => ?_) s hs
  dsimp only
  split
  · exact Command.Maintains.failWith_bind _ _
  split
  · exact Command.Maintains.print _ _
  refine (Command.Maintains.pruneLocked hruns).bind fun results => ?_
  split
  · exact (Command.Maintains.printTable _).bind fun _ => Command.Maintains.print _ _
  · exact Command.Maintains.print _ _

theorem runOn_diskTools {verbose : Bool} {name : String} {rule : PreservationRule} {root : Path}
    {used : List String} {policies : PolicySet} {result : RunResult} {fs' : FileSystem}
    (h : s.files.pruneRun [] rule root used policies = (.ok result, fs')) :
    ∃ lines, (Command.runOn (diskTools [] rule) verbose name root used policies).run s =
      (.ok result, ⟨fs', lines⟩) := by
  obtain ⟨hresult, rfl⟩ := Prod.mk.inj h
  exact Command.runOn_run (Prod.ext hresult rfl)

/-- A source of a used package of a locked project is still there after a run on the vendor
directory, however the run ends, if every other locked project spares it in whose directory it
lies. -/
theorem vendorRun_keeps_used_source (env : Environment) (faults : List (String × Fault))
    (rule : PreservationRule) (files : FileSystem) {arguments : List String} {settings : Settings}
    {r : VendorRequest} {lock : Lock} {config : Config} {project : LockedProject} {vendor : Key}
    {projectNames dirNames : List String} {f : String} {contents : ByteArray}
    (h : VendorRun env files arguments settings r lock config)
    (hdir : files.store.walkFrom true (files.start r.dir) r.dir.steps = .ok (.entry vendor))
    (hproject : project ∈ lock.projects) (himport : IsImportPath project.project projectNames)
    (hused : project.UsedSource dirNames f)
    (hfile : files.store.get? (vendor ++ projectNames ++ dirNames ++ [f]) = some (.file contents))
    (hothers : ∀ q ∈ lock.projects, q ≠ project → ∀ names outer, IsImportPath q.project names →
      projectNames ++ dirNames = names ++ outer →
        q.Spares (config.policiesFor q.project) rule outer f) :
    (runProgram env (diskTools faults rule) arguments files).2.files.store.get?
      (vendor ++ projectNames ++ dirNames ++ [f]) = some (.file contents) := by
  have hspares : ∀ q ∈ lock.projects, ∀ names outer, IsImportPath q.project names →
      projectNames ++ dirNames = names ++ outer →
        q.Spares (config.policiesFor q.project) rule outer f := by
    intro q hq names outer hpath hsplit
    by_cases hsame : q = project
    · subst hsame
      have heq : names = projectNames := entryText_injective (fun n hn => (hpath.2.1 n hn).1)
        (fun n hn => (himport.2.1 n hn).1) (hpath.2.2.symm.trans himport.2.2)
      subst heq
      rw [← List.append_cancel_left hsplit]
      exact hused.spares
    · exact hothers q hq hsame names outer hpath hsplit
  have hruns : ∀ q ∈ lock.projects, Action.Maintains
      (Spared files · (vendor ++ projectNames ++ dirNames ++ [f]) contents)
      ((diskTools faults rule).prune (r.dir.join q.project) q.packages
        (config.policiesFor q.project)) := by
    intro q hq
    obtain ⟨names, hpath⟩ := h.named q hq
    refine prune_spares fun base below hbase hne hkey => ?_
    -- the file has one key, so the names below the project follow from those of the project
    obtain rfl := key_of_importPath h.linkFree hdir hpath hbase
    obtain ⟨outer, x, rfl⟩ := Key.exists_concat hne
    have hentry := hfile
    rw [hkey] at hentry
    have hnamed := Store.isPathName_of_get? (Option.isSome_of_eq_some hentry)
    rw [← List.append_assoc] at hkey
    obtain ⟨hsplit, hlast⟩ := List.append_inj' hkey rfl
    obtain rfl : f = x := by simpa using hlast
    rw [List.append_assoc, List.append_assoc] at hsplit
    have hspared := hspares q hq names outer hpath (List.append_cancel_left hsplit)
    exact hspared.takesFile hnamed hused.source hused.noTest
  have hend : Spared files ((Command.carryOut env (diskTools faults rule) settings
      (.vendor r)).run { files }).2.files (vendor ++ projectNames ++ dirNames ++ [f]) contents :=
    pruneVendor_maintains (I := (Spared files · _ contents)) (s := { files }) h.locked h.configured
      (Spared.refl hfile) hruns
  have hprogram : Command.program env (diskTools faults rule) arguments =
      Command.carryOut env (diskTools faults rule) settings (.vendor r) := by
    rw [Command.program, h.request]
  rw [runProgram, hprogram]
  exact hend.present

/-! ### Nested projects -/

/-- A working directory with a vendor directory in which the project `a/b` lies in the project `a`.
The lock document has a text for the packages of `a`. -/
def nestedProjects (packages : String) : FileSystem where
  store := [(["w"], "v", .directory), (["w", "v"], "a", .directory),
    (["w", "v", "a"], "a.go", .file "v/a/a.go".toUTF8), (["w", "v", "a"], "b", .directory),
    (["w", "v", "a", "b"], "x.go", .file "v/a/b/x.go".toUTF8),
    (["w"], "Gopkg.lock", .file ("[[projects]]\nname = \"a\"\npackages = [" ++ packages ++
      "]\n[[projects]]\nname = \"a/b\"\npackages = [\".\"]\n").toUTF8),
    (["w"], "vendorprune.toml", .file "[prune]\nunused-packages = true\n".toUTF8)].foldl
      (fun s (entry : Key × String × Node) => s.insert entry.1 entry.2.1 entry.2.2)
      (Store.empty.insert [] "w" .directory)
  here := ⟨["w"], 0⟩

/-- The arguments that ask for a quiet run on the vendor directory. -/
def nestedArguments : List String := ["-q", "prune", "vendor", "/w/v"]

theorem readRequest_nested : readRequest nestedArguments =
    .ok ({ quiet := true }, .vendor { dir := Path.ofString "/w/v" }) := rfl

/-- Where it is known what the documents say, they are loaded, and the lock names two projects. -/
theorem exists_vendorRun_nested {fs : FileSystem} {env : Environment} {used : List String}
    {policies : PolicySet}
    (hprojects : ((fs.loadLock (Path.ofString standardLockName)).toOption.map fun l =>
      l.projects.map fun p => (p.project, p.packages)) = some [("a", used), ("a/b", ["."])])
    (hpolicies : ((fs.resolveConfig env none none).toOption.map fun c => c.policiesFor "a") =
      some policies) (hfree : ∀ e ∈ fs.store.entries, e.2.kind ≠ .link) :
    ∃ lock config outer inner, VendorRun env fs nestedArguments { quiet := true }
        { dir := Path.ofString "/w/v" } lock config ∧ lock.projects = [outer, inner] ∧
      outer.project = "a" ∧ outer.packages = used ∧ config.policiesFor "a" = policies ∧
      inner.project = "a/b" ∧ IsImportPath inner.project ["a", "b"] ∧
      inner.UsedSource [] "x.go" := by
  obtain ⟨lock, hlock, hlisted⟩ := Option.map_eq_some_iff.1 hprojects
  obtain ⟨config, hconfig, hchosen⟩ := Option.map_eq_some_iff.1 hpolicies
  obtain ⟨outer, rest, hcons, houter, hrest⟩ := List.map_eq_cons_iff.1 hlisted
  obtain ⟨inner, rest, rfl, hinner, hnil⟩ := List.map_eq_cons_iff.1 hrest
  obtain rfl := List.map_eq_nil_iff.1 hnil
  obtain ⟨hname, hused⟩ := Prod.mk.inj houter
  obtain ⟨hname', hused'⟩ := Prod.mk.inj hinner
  have hpath : IsImportPath outer.project ["a"] := by
    rw [hname]
    exact ⟨by simp, by decide +kernel, by decide +kernel⟩
  have hpath' : IsImportPath inner.project ["a", "b"] := by
    rw [hname']
    exact ⟨by simp, by decide +kernel, by decide +kernel⟩
  have hsource : inner.UsedSource [] "x.go" :=
    ⟨by rw [hused']; decide, by decide +kernel, by decide +kernel, by simp⟩
  refine ⟨lock, config, outer, inner, ⟨readRequest_nested, ok_of_toOption hlock,
    ok_of_toOption hconfig, ?_, Store.linkFree_of_entries hfree⟩, hcons, hname, hused, hchosen,
    hname', hpath', hsource⟩
  rw [hcons, List.forall_mem_cons, List.forall_mem_cons]
  exact ⟨⟨_, hpath⟩, ⟨_, hpath'⟩, by simp⟩

/-- The source of `a/b` is still there after the run if `a` uses the package `b`. -/
theorem vendorRun_keeps_nested_source :
    let fs := nestedProjects "\".\", \"b\""
    let env : Environment := ⟨"/w/home", none⟩
    ∃ settings r lock config project, VendorRun env fs nestedArguments settings r lock config ∧
      project ∈ lock.projects ∧ project.project = "a/b" ∧ project.UsedSource [] "x.go" ∧
      (runProgram env (diskTools [] .standard) nestedArguments fs).2.files.store.get?
        ["w", "v", "a", "b", "x.go"] = some (.file "v/a/b/x.go".toUTF8) := by
  intro fs env
  obtain ⟨lock, config, outer, inner, h, hlisted, houter, hused, -, hinner, hpath, hsource⟩ :=
    @exists_vendorRun_nested fs env [".", "b"] (.ofList [.nestedVendor, .unusedPackages])
      (by decide +kernel) (by decide +kernel) (by decide +kernel)
  have hmem : inner ∈ lock.projects := by simp [hlisted]
  have hdir : fs.store.walkFrom true (fs.start (Path.ofString "/w/v"))
      (Path.ofString "/w/v").steps = .ok (.entry ["w", "v"]) := ok_of_toOption (by decide +kernel)
  have hfile : fs.store.get? (["w", "v"] ++ ["a", "b"] ++ [] ++ ["x.go"]) =
      some (.file "v/a/b/x.go".toUTF8) := by decide +kernel
  have hothers : ∀ q ∈ lock.projects, q ≠ inner → ∀ names rest, IsImportPath q.project names →
      ["a", "b"] ++ [] = names ++ rest →
        q.Spares (config.policiesFor q.project) .standard rest "x.go" := by
    intro q hq hne names rest hother hsplit
    rw [hlisted] at hq
    obtain rfl : q = outer := by simpa [hne] using hq
    have hnames : names = ["a"] := by
      rw [← pathNames_entryText fun n hn => (hother.2.1 n hn).1, ← hother.2.2, houter]
      decide +kernel
    obtain rfl : ["b"] = rest := by simpa [hnames] using hsplit
    exact ⟨fun _ => by decide, fun _ => .inl (by rw [hused]; decide +kernel)⟩
  have hkept := vendorRun_keeps_used_source env [] .standard fs h hdir hmem hpath hsource hfile
    hothers
  exact ⟨_, _, lock, config, inner, h, hmem, hinner, hsource, hkept⟩

/-- A run on `a` that does not know the package `b` as used leaves nothing of it. -/
theorem pruneRun_takes_nested :
    let fs := nestedProjects "\".\""
    ∃ result fs' keep, fs.pruneRun [] .standard ((Path.ofString "/w/v").join "a") ["."]
        (.ofList [.nestedVendor, .unusedPackages]) = (.ok result, fs') ∧
      fs.store.Keeps fs'.store keep ∧ fs'.store.get? ["w", "v", "a", "b"] = none := by
  intro fs
  have hready : fs.Readable ((Path.ofString "/w/v").join "a") :=
    FileSystem.readable_of_entries (by decide +kernel) (by decide +kernel) (by decide +kernel)
  obtain ⟨result, gone, hrun, hclears, hprunes⟩ := pruneRun_clears hready [] .standard ["."]
    (.ofList [.nestedVendor, .unusedPackages])
  have htaken : ∀ e ∈ fs.store.entries, ["w", "v", "a", "b"] <+: e.1 → e.2 ≠ .directory →
      (PolicySet.ofList [.nestedVendor, .unusedPackages]).takes .standard ["."] (e.1.drop 3) e.2 =
        true := by decide +kernel
  have hnames : ((Path.ofString "/w/v").join "a").names = ["w", "v", "a"] := by decide +kernel
  rw [hnames] at hprunes
  refine ⟨result, _, _, Prod.ext hrun rfl, hclears.store,
    hprunes.get?_eq_none (List.cons_ne_nil "b" []) fun rest node hn hnode => ?_⟩
  have hmem := (Store.get?_eq_some_iff (by simp)).1 hn
  exact htaken _ hmem (List.prefix_append ["w", "v", "a", "b"] rest) hnode

/-- After the run on `a` there is no `a/b`, which is then passed over. -/
theorem pruneLocked_nested {config : Config} {outer inner : LockedProject}
    (houter : outer.project = "a") (hused : outer.packages = ["."])
    (hpolicies : config.policiesFor "a" = .ofList [.nestedVendor, .unusedPackages])
    (hinner : inner.project = "a/b") :
    ∃ results fs' lines, (Command.pruneLocked (diskTools [] .standard) false config
        (Path.ofString "/w/v") [outer, inner]).run ⟨nestedProjects "\".\"", []⟩ =
          (.ok results, ⟨fs', lines⟩) ∧
      fs'.store.get? ["w", "v", "a", "b"] = none := by
  let fs := nestedProjects "\".\""
  let dir := Path.ofString "/w/v"
  obtain ⟨result, fs', keep, hrun, hkeeps, hgone⟩ := pruneRun_takes_nested
  have hthere : fs.isDirectory (dir.join outer.project) = .ok true := by
    rw [houter]
    exact ok_of_toOption (by decide +kernel)
  have hfirst : ∃ lines, (Command.runOn (diskTools [] .standard) false outer.project
      (dir.join outer.project) outer.packages (config.policiesFor outer.project)).run ⟨fs, []⟩ =
        (.ok result, ⟨fs', lines⟩) := by
    rw [houter, hused, hpolicies]
    exact runOn_diskTools hrun
  -- the path of the inner project leads through no link, so it is missing where its directory is
  have hmissing : fs'.isDirectory (dir.join inner.project) = .ok false := by
    have hplain : fs.Plain (dir.join "a/b") :=
      FileSystem.plain_of_isSome (by decide +kernel) (by decide +kernel) (by decide +kernel)
    rw [hinner]
    exact (hplain.of_within hkeeps.within).finds.holds_none hgone _
  have hskipped : ∃ text, Console.render ("[warning]Warning:[/] " ++ ("Skipping " ++
      inner.project ++ ": " ++ (dir.join inner.project).text ++ " does not exist")) =
        .ok text := by
    rw [hinner]
    exact ⟨"Warning: Skipping a/b: /w/v/a/b does not exist", ok_of_toOption (by decide +kernel)⟩
  obtain ⟨lines, hfirst⟩ := hfirst
  obtain ⟨text, htext⟩ := hskipped
  obtain ⟨lines', hwarning⟩ := @Command.print_run .errors _ _ htext ⟨fs', lines⟩
  exact ⟨_, fs', lines', Command.pruneLocked_run_of_there hthere hfirst
    (Command.pruneLocked_run_of_missing hmissing hwarning rfl), hgone⟩

/-- The source of `a/b` is gone after a run that ends well if `a` does not use the package `b`. -/
theorem vendorRun_takes_nested_source :
    let fs := nestedProjects "\".\""
    let env : Environment := ⟨"/w/home", none⟩
    let ended := runProgram env (diskTools [] .standard) nestedArguments fs
    ∃ settings r lock config project, VendorRun env fs nestedArguments settings r lock config ∧
      fs.store.walkFrom true (fs.start r.dir) r.dir.steps = .ok (.entry ["w", "v"]) ∧
      project ∈ lock.projects ∧ IsImportPath project.project ["a", "b"] ∧
      project.UsedSource [] "x.go" ∧
      fs.store.get? ["w", "v", "a", "b", "x.go"] = some (.file "v/a/b/x.go".toUTF8) ∧
      exitCode ended.1 = 0 ∧
      ended.2.files.store.get? ["w", "v", "a", "b", "x.go"] = none := by
  intro fs env ended
  obtain ⟨lock, config, outer, inner, h, hlisted, houter, hused, hpolicies, hinner, hpath,
    hsource⟩ := @exists_vendorRun_nested fs env ["."] (.ofList [.nestedVendor, .unusedPackages])
      (by decide +kernel) (by decide +kernel) (by decide +kernel)
  obtain ⟨results, fs', lines, hruns, hgone⟩ := pruneLocked_nested houter hused hpolicies hinner
  rw [← hlisted] at hruns
  have hdir : fs.isDirectory (Path.ofString "/w/v") = .ok true :=
    ok_of_toOption (by decide +kernel)
  obtain ⟨lines', hend⟩ := Command.pruneVendor_run (s := ⟨fs, []⟩)
    (r := { dir := Path.ofString "/w/v" }) h.locked h.configured hdir (by simp [hlisted]) hruns
    (.inl rfl)
  have hended : ended = (.ok (), ⟨fs', lines'⟩) := by
    show (Command.program env (diskTools [] .standard) nestedArguments).run ⟨fs, []⟩ = _
    rw [Command.program, readRequest_nested]
    exact hend
  refine ⟨_, _, lock, config, inner, h, ok_of_toOption (by decide +kernel), by simp [hlisted],
    hpath, hsource, by decide +kernel, ?_, ?_⟩
  · rw [hended]
    rfl
  · rw [hended]
    refine Option.eq_none_iff_forall_ne_some.2 fun node hn => ?_
    have habove := @Store.get?_above fs'.store ["w", "v", "a", "b"] ["x.go"] (by simp)
      (Option.isSome_of_eq_some hn)
    rw [hgone] at habove
    simp at habove

end VendorTree
