import VendorTree.Proofs.Containment
import VendorTree.Proofs.PlanLoop
import VendorTree.Proofs.VendorRuns

/-!
# Runs on a vendor directory and what lies outside of it

The directory of a locked project is looked for by the name of the project, from the vendor
directory on. In a tree without links it lies in the vendor directory if no `..` of the name is left
when each is taken together with the name before it, and then the run changes nothing outside. A
name that leads out of the vendor directory takes the run out of it.
-/

namespace VendorTree

open CommandLine (Request Settings readRequest)

/-! ### Where names lead -/

theorem mem_collapseNames {before names : List String} (h : ".." ∈ before) :
    ".." ∈ collapseNames false before names := by
  induction names generalizing before with
  | nil => exact List.mem_reverse.2 h
  | cons n rest ih =>
    unfold collapseNames
    split
    · cases before with
      | nil => exact ih (by simp [*])
      | cons b bs =>
        refine ih ?_
        split
        · exact List.mem_cons_of_mem n h
        · rename_i hb
          exact (List.mem_cons.1 h).resolve_left fun hsame => hb hsame.symm
    · exact ih (List.mem_cons_of_mem n h)

/-- The steps of names that do not lead above a directory lead into it. -/
theorem prefix_foldl_stepFrom {dir : Key} {before names : List String}
    (hnamed : ∀ n ∈ names, IsPathName n) (hinside : ".." ∉ collapseNames false before names) :
    dir <+: (names.map Step.ofPiece).foldl Store.stepFrom (dir ++ before.reverse) := by
  -- the names that are not taken back yet lead from the directory to where the steps are
  induction names generalizing before with
  | nil => exact List.prefix_append _ _
  | cons n rest ih =>
    have hrest : ∀ m ∈ rest, IsPathName m := fun m hm => hnamed m (List.mem_cons_of_mem n hm)
    have hclimb : ".." ∉ before := fun hmem => hinside (mem_collapseNames hmem)
    rw [List.map_cons, List.foldl_cons]
    unfold collapseNames at hinside
    by_cases hup : n = ".."
    · subst hup
      have hstep : Step.ofPiece ".." = .up := rfl
      rw [if_pos rfl] at hinside
      cases before with
      | nil => exact absurd (mem_collapseNames (by simp)) hinside
      | cons b bs =>
        have hb : b ≠ ".." := fun hsame => hclimb (by simp [hsame])
        have habove : (dir ++ (b :: bs).reverse).dropLast = dir ++ bs.reverse := by
          rw [List.reverse_cons, ← List.append_assoc, List.dropLast_concat]
        simp only [hb, if_false] at hinside
        rw [hstep, Store.stepFrom, habove]
        exact ih hrest hinside
    · have hstep : Step.ofPiece n = .enter n := by
        obtain ⟨hempty, hdot, -⟩ := hnamed n List.mem_cons_self
        simp [Step.ofPiece, hempty, hdot, hup]
      have hnext : dir ++ before.reverse ++ [n] = dir ++ (n :: before).reverse := by simp
      rw [if_neg hup] at hinside
      rw [hstep, Store.stepFrom, hnext]
      exact ih hrest hinside

/-- The name of the project does not lead above the directory in which it is looked for. -/
def LockedProject.StaysInside (p : LockedProject) : Prop :=
  ".." ∉ collapseNames false [] (pathNames p.project)

instance (p : LockedProject) : Decidable p.StaysInside :=
  inferInstanceAs (Decidable (".." ∉ _))

theorem isBelow_of_liesBelow {fs : FileSystem} {dir : Path} {vendor k : Key} {p : LockedProject}
    (hfree : fs.store.LinkFree)
    (hdir : fs.store.walkFrom true (fs.start dir) dir.steps = .ok (.entry vendor))
    (hp : p.StaysInside) (hk : fs.LiesBelow (dir.join p.project) k) :
    Key.isBelow k vendor = true := by
  obtain ⟨base, hbase, hbelow⟩ := hk
  have hsteps : (dir.join p.project).steps =
      dir.steps ++ (pathNames p.project).map Step.ofPiece := List.map_append
  have hstart : fs.start (dir.join p.project) = fs.start dir := rfl
  rw [hstart, hsteps, Store.walkFrom_append_of_linkFree hfree hdir] at hbase
  have hinside := @prefix_foldl_stepFrom vendor [] (pathNames p.project)
    (fun n hn => isPathName_of_mem_pathNames hn) hp
  rw [List.reverse_nil, List.append_nil, ← Store.entry_of_walk hfree hbase] at hinside
  obtain ⟨inner, rfl⟩ := hinside
  obtain ⟨rest, hne, rfl⟩ := Key.isBelow_iff.1 hbelow
  exact Key.isBelow_iff.2 ⟨inner ++ rest, by simp [hne], by rw [List.append_assoc]⟩

/-! ### The run -/

/-- A run on a vendor directory of a tree without links changes nothing outside of it and leaves it
in place, however the run ends, if no locked project has a name that leads out of it. -/
theorem vendorRun_stays_below (env : Environment) (faults : List (String × Fault))
    (rule : PreservationRule) (files : FileSystem) {arguments : List String} {settings : Settings}
    {r : VendorRequest} {lock : Lock} {config : Config} {vendor : Key}
    (hrequest : readRequest arguments = .ok (settings, .vendor r))
    (hlock : files.loadLock r.lock = .ok lock)
    (hconfig : files.resolveConfig env r.config none = .ok config)
    (hfree : files.store.LinkFree)
    (hdir : files.entryAt true r.dir = .ok (some vendor, .directory))
    (hinside : ∀ p ∈ lock.projects, p.StaysInside) :
    let after := (runProgram env (diskTools faults rule) arguments files).2.files
    after.store.Within files.store ∧ after.store.get? vendor = some .directory ∧
      ∀ k, Key.isBelow k vendor = false → after.store.get? k = files.store.get? k := by
  intro after
  obtain ⟨-, hleads, hvendor⟩ := FileSystem.entryAt_ok hdir
  have hruns : ∀ p ∈ lock.projects, Action.Maintains
      (LosesOnly files fun k => Key.isBelow k vendor = true)
      ((diskTools faults rule).prune (r.dir.join p.project) p.packages
        (config.policiesFor p.project)) :=
    fun p hp => prune_maintains_losesOnly fun k hk =>
      isBelow_of_liesBelow hfree hleads (hinside p hp) hk
  have hend : LosesOnly files (fun k => Key.isBelow k vendor = true)
      ((Command.carryOut env (diskTools faults rule) settings (.vendor r)).run { files }).2.files :=
    pruneVendor_maintains (s := { files }) hlock hconfig (.refl files _) hruns
  have hprogram : Command.program env (diskTools faults rule) arguments =
      Command.carryOut env (diskTools faults rule) settings (.vendor r) := by
    rw [Command.program, hrequest]
  have hafter : LosesOnly files (fun k => Key.isBelow k vendor = true) after := by
    show LosesOnly files _ ((Command.program env (diskTools faults rule) arguments).run _).2.files
    rw [hprogram]
    exact hend
  have hsame : ∀ k, Key.isBelow k vendor = false → after.store.get? k = files.store.get? k :=
    fun k hk => hafter.same k (by simp [hk])
  refine ⟨hafter.within, ?_, hsame⟩
  rw [hsame vendor (by simp [Key.isBelow])]
  exact hvendor vendor rfl

/-- A vendor directory with a project, and beside it a directory that looks the same. The lock
document names one project. -/
def besideVendor (name : String) : FileSystem where
  store := [(["w"], "v", .directory), (["w", "v"], "x", .directory),
    (["w", "v", "x"], "vendor", .directory),
    (["w", "v", "x", "vendor"], "y.go", .file "v/x/vendor/y.go".toUTF8),
    (["w"], "x", .directory), (["w", "x"], "vendor", .directory),
    (["w", "x", "vendor"], "y.go", .file "x/vendor/y.go".toUTF8),
    (["w"], "Gopkg.lock", .file ("[[projects]]\nname = \"" ++ name ++ "\"\n").toUTF8)].foldl
      (fun s (entry : Key × String × Node) => s.insert entry.1 entry.2.1 entry.2.2)
      (Store.empty.insert [] "w" .directory)
  here := ⟨["w"], 0⟩

theorem exists_loaded_beside {name : String}
    (hprojects : (((besideVendor name).loadLock (Path.ofString standardLockName)).toOption.map
      fun l => l.projects.map fun p => (p.project, p.packages)) = some [(name, [])])
    (hpolicies : (((besideVendor name).resolveConfig ⟨"/w/home", none⟩ none none).toOption.map
      fun c => c.policiesFor name) = some (.ofList [.nestedVendor])) :
    ∃ lock config p, (besideVendor name).loadLock (Path.ofString standardLockName) = .ok lock ∧
      (besideVendor name).resolveConfig ⟨"/w/home", none⟩ none none = .ok config ∧
      lock.projects = [p] ∧ p.project = name ∧ p.packages = [] ∧
      config.policiesFor name = .ofList [.nestedVendor] := by
  obtain ⟨lock, hlock, hlisted⟩ := Option.map_eq_some_iff.1 hprojects
  obtain ⟨config, hconfig, hchosen⟩ := Option.map_eq_some_iff.1 hpolicies
  obtain ⟨p, rest, hcons, hp, hrest⟩ := List.map_eq_cons_iff.1 hlisted
  obtain rfl := List.map_eq_nil_iff.1 hrest
  obtain ⟨hname, hused⟩ := Prod.mk.inj hp
  exact ⟨lock, config, p, ok_of_toOption hlock, ok_of_toOption hconfig, hcons,
    hname, hused, hchosen⟩

/-- A name with a leading slash and a dot leads to the project in the vendor directory, and what is
beside it stays. -/
theorem vendorRun_stays_below_dotted :
    let fs := besideVendor "/./x"
    let after := (runProgram ⟨"/w/home", none⟩ (diskTools [] .standard) nestedArguments fs).2.files
    ∃ settings r lock config, readRequest nestedArguments = .ok (settings, .vendor r) ∧
      fs.loadLock r.lock = .ok lock ∧
      fs.resolveConfig ⟨"/w/home", none⟩ r.config none = .ok config ∧ fs.store.LinkFree ∧
      fs.entryAt true r.dir = .ok (some ["w", "v"], .directory) ∧
      (∀ p ∈ lock.projects, p.StaysInside) ∧ after.store.get? ["w", "v"] = some .directory ∧
      after.store.get? ["w", "x", "vendor", "y.go"] = some (.file "x/vendor/y.go".toUTF8) := by
  intro fs after
  obtain ⟨lock, config, p, hlock, hconfig, hlisted, hname, -, -⟩ :=
    @exists_loaded_beside "/./x" (by decide +kernel) (by decide +kernel)
  have hfree : fs.store.LinkFree := Store.linkFree_of_entries (by decide +kernel)
  have hdir : fs.entryAt true (Path.ofString "/w/v") = .ok (some ["w", "v"], .directory) :=
    ok_of_toOption (by decide +kernel)
  have hinside : ∀ p ∈ lock.projects, p.StaysInside := by
    rw [hlisted, List.forall_mem_singleton, LockedProject.StaysInside, hname]
    decide +kernel
  obtain ⟨-, hvendor, hsame⟩ := vendorRun_stays_below ⟨"/w/home", none⟩ [] .standard fs
    readRequest_nested hlock hconfig hfree hdir hinside
  refine ⟨_, _, lock, config, readRequest_nested, hlock, hconfig, hfree, hdir, hinside, hvendor, ?_⟩
  rw [hsame ["w", "x", "vendor", "y.go"] (by decide +kernel)]
  decide +kernel

/-! ### A name that leads out of the vendor directory -/

section Outside

variable {fs fs' : FileSystem} {l : Listing} {p : Path} {fault : Fault}

/-- A run that only removes nested vendor trees takes the one there is, and the sweep finds nothing
of it. -/
theorem pruneListing_run_of_vendor (hvendors : l.nestedVendors = [p])
    (hsweep : sweepOrder l.dirPaths = [p]) (hremove : fs.removeTree p = (.ok (), fs'))
    (hask : fs'.holdsEntry p = .ok false) (hgone : fs'.removePath p = .error fault)
    (hmissing : fault.isMissing = true) (rule : PreservationRule) (used : List String)
    (journal : List Record) : ∃ result journal', (diskTools [] rule).pruneListing l used
      (.ofList [.nestedVendor]) ⟨fs, journal⟩ = (.ok result, ⟨fs', journal'⟩) := by
  have hplan : l.plan Listing.nestedVendors rule used (.ofList [.nestedVendor]) =
      [⟨.nestedVendor, p⟩, ⟨.emptyDirs, p⟩] := by
    rw [Listing.plan, hvendors, hsweep]
    rfl
  have htree : (diskTools [] rule).attempt ⟨.nestedVendor, p⟩ ⟨fs, journal⟩ =
      (.ok true, ⟨fs', journal⟩) := by
    have hrun : diskRemoveTree p ⟨fs, journal⟩ = (.ok (), ⟨fs', journal⟩) := by
      simp only [diskRemoveTree, Action.onWorld, hremove]
    exact Action.unlessMissing_run_ok hrun
  -- to the sweep the missing directory looks empty
  have hswept : (diskTools [] rule).attempt ⟨.emptyDirs, p⟩ ⟨fs', journal⟩ =
      (.ok false, ⟨fs', journal⟩) := by
    have hasked : diskHoldsEntry p ⟨fs', journal⟩ = (.ok false, ⟨fs', journal⟩) := by
      rw [diskHoldsEntry, Action.query_run, hask]
    have hfails : diskRemove p ⟨fs', journal⟩ = (.error fault, ⟨fs', journal⟩) := by
      rw [diskRemove_run]
      simp only [hgone]
    have hpassed : Action.unlessMissing (diskRemove p) ⟨fs', journal⟩ =
        (.ok false, ⟨fs', journal⟩) := by
      rw [Action.unlessMissing_run_error hfails, if_pos hmissing]
    exact (Action.bind_run_ok hasked).trans hpassed
  have hloop : (diskTools [] rule).runPlan [⟨.nestedVendor, p⟩, ⟨.emptyDirs, p⟩] ⟨fs, journal⟩ =
      (.ok [p], ⟨fs', journal⟩) := by
    rw [runPlan_cons_ok htree, runPlan_cons_ok hswept]
    rfl
  rw [← hplan] at hloop
  obtain ⟨journal', hrun⟩ := pruneListing_run_of_plan (diskTools_blind [] rule) hloop
  exact ⟨_, journal', hrun⟩

theorem pruneVendor_run_of_one {tools : Tools FileSystem} {env : Environment} {verbose : Bool}
    {r : VendorRequest} {lock : Lock} {config : Config} {q : LockedProject} {result : RunResult}
    {journal : List Record} (hlock : fs.loadLock r.lock = .ok lock)
    (hconfig : fs.resolveConfig env r.config none = .ok config)
    (hdir : fs.isDirectory r.dir = .ok true) (hlisted : lock.projects = [q])
    (hthere : fs.isDirectory (r.dir.join q.project) = .ok true)
    (hprune : tools.prune (r.dir.join q.project) q.packages (config.policiesFor q.project)
      ⟨fs, []⟩ = (.ok result, ⟨fs', journal⟩)) :
    ∃ lines, (Command.pruneVendor env tools verbose true r).run ⟨fs, []⟩ =
      (.ok (), ⟨fs', lines⟩) := by
  obtain ⟨lines, hrun⟩ : ∃ lines, (Command.runOn tools verbose q.project (r.dir.join q.project)
      q.packages (config.policiesFor q.project)).run ⟨fs, []⟩ = (.ok result, ⟨fs', lines⟩) :=
    Command.runOn_run (s := ⟨fs, []⟩) hprune
  have hnil : (Command.pruneLocked tools verbose config r.dir []).run ⟨fs', lines⟩ =
      (.ok [], ⟨fs', lines⟩) := rfl
  have hruns := Command.pruneLocked_run_of_there (s := ⟨fs, []⟩) hthere hrun hnil
  rw [← hlisted] at hruns
  exact Command.pruneVendor_run (s := ⟨fs, []⟩) hlock hconfig hdir (by simp [hlisted]) hruns
    (.inl rfl)

theorem removePath_of_passed
    (h : (Action.unlessMissing (diskRemove p) ⟨fs, []⟩).1.toOption = some false) :
    ∃ fault, fs.removePath p = .error fault ∧ fault.isMissing = true := by
  have hrun := diskRemove_run p ⟨fs, []⟩
  cases hremove : fs.removePath p with
  | ok fs' =>
    simp only [hremove] at hrun
    rw [Action.unlessMissing_run_ok hrun] at h
    simp [Except.toOption] at h
  | error fault =>
    simp only [hremove] at hrun
    rw [Action.unlessMissing_run_error hrun] at h
    cases hmissing : fault.isMissing with
    | true => exact ⟨fault, rfl, hmissing⟩
    | false => simp [hmissing, Except.toOption] at h

theorem prune_beside :
    ∃ result fs' journal, (diskTools [] .standard).prune ((Path.ofString "/w/v").join "../x") []
        (.ofList [.nestedVendor]) ⟨besideVendor "../x", []⟩ = (.ok result, ⟨fs', journal⟩) ∧
      fs'.store.get? ["w", "x", "vendor", "y.go"] = none := by
  let fs := besideVendor "../x"
  let root := (Path.ofString "/w/v").join "../x"
  let vendor := root.join "vendor"
  have hlisted : (diskSnapshot root ⟨fs, []⟩).1.toOption.map
      (fun l => (l.root, l.dirs, l.files, l.links)) =
        some (root, ["vendor"], ["vendor/y.go"], []) := by decide +kernel
  obtain ⟨l, hl, hfields⟩ := Option.map_eq_some_iff.1 hlisted
  obtain ⟨hroot, hdirs, -, hlinks⟩ : l.root = root ∧ l.dirs = ["vendor"] ∧
      l.files = ["vendor/y.go"] ∧ l.links = [] := by simpa using hfields
  have hvendors : l.nestedVendors = [vendor] := by
    rw [Listing.nestedVendors, hdirs, hlinks]
    have hnested : outermostVendors [] ["vendor"] = ["vendor"] := by decide +kernel
    rw [List.append_nil, hnested, List.map_singleton, Listing.absolute, hroot]
  have hsweep : sweepOrder l.dirPaths = [vendor] := by
    rw [Listing.dirPaths, hdirs, List.map_singleton, Listing.absolute, hroot]
    rw [sweepOrder, List.eraseDups_cons, List.filter_nil, List.eraseDups_nil,
      List.mergeSort_singleton]
  have hremove : fs.removeTree vendor = (.ok (), (fs.removeTree vendor).2) :=
    Prod.ext (ok_of_toOption (by decide +kernel)) rfl
  obtain ⟨journal, hsnapshot⟩ : ∃ journal, diskSnapshot root ⟨fs, []⟩ = (.ok l, ⟨fs, journal⟩) := by
    rcases hrun : diskSnapshot root ⟨fs, []⟩ with ⟨outcome, r⟩
    rw [hrun] at hl
    obtain rfl := ok_of_toOption hl
    have hworld : r.world = fs := (diskSnapshot_ok hrun).1
    exact ⟨r.journal, by rw [← hworld]⟩
  obtain ⟨fault, hgone, hmissing⟩ := removePath_of_passed (p := vendor)
    (show (Action.unlessMissing (diskRemove vendor)
      ⟨(fs.removeTree vendor).2, []⟩).1.toOption = some false by decide +kernel)
  obtain ⟨result, journal', hrun⟩ := pruneListing_run_of_vendor hvendors hsweep hremove
    (ok_of_toOption (by decide +kernel)) hgone hmissing .standard [] journal
  have hprune :=
    Tools.prune_run (t := diskTools [] .standard) hsnapshot [] (.ofList [.nestedVendor])
  exact ⟨result, _, journal', hprune.trans hrun, by decide +kernel⟩

/-- The project `../x` is looked for beside the vendor directory, and the run takes the vendor tree
that is there. -/
theorem vendorRun_takes_beside :
    let fs := besideVendor "../x"
    let ended := runProgram ⟨"/w/home", none⟩ (diskTools [] .standard) nestedArguments fs
    ∃ settings r lock config, readRequest nestedArguments = .ok (settings, .vendor r) ∧
      fs.loadLock r.lock = .ok lock ∧
      fs.resolveConfig ⟨"/w/home", none⟩ r.config none = .ok config ∧ fs.store.LinkFree ∧
      fs.entryAt true r.dir = .ok (some ["w", "v"], .directory) ∧
      Key.isBelow ["w", "x", "vendor", "y.go"] ["w", "v"] = false ∧
      fs.store.get? ["w", "x", "vendor", "y.go"] = some (.file "x/vendor/y.go".toUTF8) ∧
      exitCode ended.1 = 0 ∧
      ended.2.files.store.get? ["w", "x", "vendor", "y.go"] = none := by
  intro fs ended
  obtain ⟨lock, config, p, hlock, hconfig, hlisted, hname, hused, hpolicies⟩ :=
    @exists_loaded_beside "../x" (by decide +kernel) (by decide +kernel)
  obtain ⟨result, fs', journal, hprune, hgone⟩ := prune_beside
  have hdir : fs.entryAt true (Path.ofString "/w/v") = .ok (some ["w", "v"], .directory) :=
    ok_of_toOption (by decide +kernel)
  have hthere : fs.isDirectory ((Path.ofString "/w/v").join p.project) = .ok true := by
    rw [hname]
    exact ok_of_toOption (by decide +kernel)
  have hran : (diskTools [] .standard).prune ((Path.ofString "/w/v").join p.project) p.packages
      (config.policiesFor p.project) ⟨fs, []⟩ = (.ok result, ⟨fs', journal⟩) := by
    rw [hname, hused, hpolicies]
    exact hprune
  obtain ⟨lines, hend⟩ := @pruneVendor_run_of_one fs fs' (diskTools [] .standard) _ false
    { dir := Path.ofString "/w/v" } lock config p result journal hlock hconfig
    (ok_of_toOption (by decide +kernel)) hlisted hthere hran
  have hended : ended = (.ok (), ⟨fs', lines⟩) := by
    show (Command.program _ (diskTools [] .standard) nestedArguments).run ⟨fs, []⟩ = _
    rw [Command.program, readRequest_nested]
    exact hend
  refine ⟨_, _, lock, config, readRequest_nested, hlock, hconfig,
    Store.linkFree_of_entries (by decide +kernel), hdir, by decide +kernel,
    by decide +kernel, ?_, ?_⟩
  · rw [hended]
    rfl
  · rw [hended]
    exact hgone

end Outside

end VendorTree
