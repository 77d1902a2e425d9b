import VendorTree.Proofs.VendorDirectory

/-!
# Projects that lie apart

If no locked project lies in another one, the runs on them do not meet: each project becomes what a
run on it alone makes of it, nothing else changes, and the order of the runs does not matter.
-/

namespace VendorTree

open CommandLine (Request Settings readRequest)

variable {fs fs' files : FileSystem} {dir root : Path} {vendor : Key} {rule : PreservationRule}
  {config : Config} {p q : LockedProject} {projects : List LockedProject}

/-! ### Projects apart from each other -/

namespace LockedProject

/-- The key of the directory of the project. -/
def key (p : LockedProject) (vendor : Key) : Key := vendor ++ pathNames p.project

/-- Neither of the projects lies in the directory of the other, or has the same. -/
def Apart (p q : LockedProject) : Prop :=
  ¬ pathNames p.project <+: pathNames q.project ∧ ¬ pathNames q.project <+: pathNames p.project

instance (p q : LockedProject) : Decidable (p.Apart q) := inferInstanceAs (Decidable (_ ∧ _))

theorem Apart.symm (h : p.Apart q) : q.Apart p := And.symm h

/-- What lies in the directory of the one project, or above it, does not lie below the other. -/
theorem Apart.not_isBelow (h : p.Apart q) {k : Key}
    (hk : k <+: q.key vendor ∨ q.key vendor <+: k) : ¬ Key.isBelow k (p.key vendor) = true := by
  intro hbelow
  obtain ⟨rest, -, rfl⟩ := Key.isBelow_iff.1 hbelow
  unfold key at hk
  rcases hk with hk | hk
  · rw [List.append_assoc, List.prefix_append_right_inj] at hk
    exact h.1 ((List.prefix_append _ _).trans hk)
  · rw [List.append_assoc, List.prefix_append_right_inj] at hk
    rcases List.prefix_or_prefix_of_prefix hk (List.prefix_append _ rest) with hq | hp
    · exact h.2 hq
    · exact h.1 hp

/-- It can be looked for the directory of the project, and its name can be printed. -/
structure Lookable (p : LockedProject) (fs : FileSystem) (dir : Path) : Prop where
  named : ∃ names, IsImportPath p.project names
  plain : '[' ∉ p.project.toList
  asked : ∃ there, fs.isDirectory (dir.join p.project) = .ok there

theorem Lookable.isImportPath (h : p.Lookable fs dir) :
    IsImportPath p.project (pathNames p.project) := by
  obtain ⟨names, himport⟩ := h.named
  exact himport.pathNames_eq ▸ himport

/-- The run on the project alone. -/
def runAlone (p : LockedProject) (rule : PreservationRule) (config : Config) (dir : Path)
    (fs : FileSystem) : Except RunFault RunResult × FileSystem :=
  fs.pruneRun [] rule (dir.join p.project) p.packages (config.policiesFor p.project)

end LockedProject

/-- Each project that has a directory is as the run on it alone makes it, and nothing else is
changed. -/
structure PrunedApart (rule : PreservationRule) (config : Config) (dir : Path) (vendor : Key)
    (projects : List LockedProject) (fs fs' : FileSystem) : Prop where
  alone : ∀ p ∈ projects, fs.store.get? (p.key vendor) = some .directory → ∀ names,
    fs'.store.get? (p.key vendor ++ names) =
      (p.runAlone rule config dir fs).2.store.get? (p.key vendor ++ names)
  others : ∀ k, (∀ p ∈ projects, fs.store.get? (p.key vendor) = some .directory →
    Key.isBelow k (p.key vendor) = false) → fs'.store.get? k = fs.store.get? k

namespace PrunedApart

theorem nil : PrunedApart rule config dir vendor [] fs fs := ⟨by simp, fun _ _ => rfl⟩

theorem cons_of_missing (h : PrunedApart rule config dir vendor projects fs fs')
    (hp : fs.store.get? (p.key vendor) ≠ some .directory) :
    PrunedApart rule config dir vendor (p :: projects) fs fs' where
  alone := by
    rw [List.forall_mem_cons]
    exact ⟨fun hdir => absurd hdir hp, h.alone⟩
  others k hk := h.others k (List.forall_mem_cons.1 hk).2

theorem cons_of_run {fs₁ : FileSystem} (hfs : fs.HoldsDirectory dir root)
    (hfs₁ : fs₁.HoldsDirectory dir root)
    (himports : ∀ q ∈ projects, IsImportPath q.project (pathNames q.project))
    (hapart : ∀ q ∈ projects, p.Apart q)
    (hdir : fs.store.get? (p.key root.names) = some .directory)
    (hrun : (p.runAlone rule config dir fs).2 = fs₁)
    (hloses : LosesOnly fs (fun k => Key.isBelow k (p.key root.names) = true) fs₁)
    (h : PrunedApart rule config dir root.names projects fs₁ fs') :
    PrunedApart rule config dir root.names (p :: projects) fs fs' where
  alone := by
    refine List.forall_mem_cons.2 ⟨fun _ names => ?_, fun q hq hdir names => ?_⟩
    · rw [hrun]
      refine h.others _ fun q hq _ => Bool.eq_false_iff.2 ?_
      exact (hapart q hq).symm.not_isBelow (.inr (List.prefix_append _ _))
    -- the tree of a later project is the same before and after the first run, so a run on it makes
    -- the same of both
    · have hsame : ∀ names, fs₁.store.get? (q.key root.names ++ names) =
          fs.store.get? (q.key root.names ++ names) := fun names =>
        hloses.same _ ((hapart q hq).not_isBelow (.inr (List.prefix_append _ _)))
      have hdir₁ : fs₁.store.get? (q.key root.names) = some .directory := by
        have hroot := hsame []
        rw [List.append_nil] at hroot
        rw [hroot, hdir]
      have himport := himports q hq
      obtain ⟨_, _, hrun₁, hprunes₁, -⟩ := hfs₁.pruneRun_join himport hdir₁ rule q.packages
        (config.policiesFor q.project)
      obtain ⟨_, _, hrun, hprunes, -⟩ := hfs.pruneRun_join himport hdir rule q.packages
        (config.policiesFor q.project)
      rw [h.alone q hq hdir₁ names, LockedProject.runAlone, LockedProject.runAlone, hrun₁, hrun]
      exact hprunes₁.get?_congr hprunes hsame names
  others k hk := by
    obtain ⟨hp, hrest⟩ := List.forall_mem_cons.1 hk
    have hsame : fs₁.store.get? k = fs.store.get? k := hloses.same k (by simp [hp hdir])
    rw [← hsame]
    refine h.others k fun q hq hdir₁ => hrest q hq ?_
    exact hloses.within _ _ hdir₁

/-- Which entries are left does not depend on the order of the projects, nor on what files hold. -/
theorem alikeAt {fs₁ fs₁' : FileSystem} {projects' : List LockedProject}
    (hfs : fs.HoldsDirectory dir root) (hfs' : fs'.HoldsDirectory dir root)
    (himports : ∀ q ∈ projects, IsImportPath q.project (pathNames q.project))
    (halike : fs.store.AlikeAt fs'.store []) (hperm : projects.Perm projects')
    (h : PrunedApart rule config dir root.names projects fs fs₁)
    (h' : PrunedApart rule config dir root.names projects' fs' fs₁') :
    fs₁.store.AlikeAt fs₁'.store [] := by
  intro k
  rw [List.nil_append]
  by_cases hk : ∀ p ∈ projects, fs.store.get? (p.key root.names) = some .directory →
      Key.isBelow k (p.key root.names) = false
  · have hk' : ∀ p ∈ projects', fs'.store.get? (p.key root.names) = some .directory →
        Key.isBelow k (p.key root.names) = false := fun p hp hdir =>
      hk p (hperm.mem_iff.2 hp) ((halike.get?_directory_iff (p.key root.names)).2 hdir)
    rw [h.others k hk, h'.others k hk']
    exact halike k
  · simp only [not_forall] at hk
    obtain ⟨p, hp, hdir, hbelow⟩ := hk
    obtain ⟨names, -, rfl⟩ := Key.isBelow_iff.1 (Bool.not_eq_false _ ▸ hbelow)
    have hdir' := (halike.get?_directory_iff (p.key root.names)).1 hdir
    rw [h.alone p hp hdir, h'.alone p (hperm.mem_iff.1 hp) hdir']
    obtain ⟨_, _, hrun, hprunes, -⟩ := hfs.pruneRun_join (himports p hp) hdir rule p.packages
      (config.policiesFor p.project)
    obtain ⟨_, _, hrun', hprunes', -⟩ := hfs'.pruneRun_join (himports p hp) hdir' rule p.packages
      (config.policiesFor p.project)
    rw [LockedProject.runAlone, LockedProject.runAlone, hrun, hrun']
    refine hprunes.alikeAt hprunes' (fun rest => ?_) names
    exact halike _

theorem within {fs₁ : FileSystem} (hfs : fs.HoldsDirectory dir root)
    (himports : ∀ q ∈ projects, IsImportPath q.project (pathNames q.project))
    (h : PrunedApart rule config dir root.names projects fs fs₁) : fs₁.store.Within fs.store := by
  intro k node hn
  by_cases hk : ∀ p ∈ projects, fs.store.get? (p.key root.names) = some .directory →
      Key.isBelow k (p.key root.names) = false
  · rwa [h.others k hk] at hn
  · simp only [not_forall] at hk
    obtain ⟨p, hp, hdir, hbelow⟩ := hk
    obtain ⟨names, -, rfl⟩ := Key.isBelow_iff.1 (Bool.not_eq_false _ ▸ hbelow)
    obtain ⟨_, _, hrun, hprunes, -⟩ := hfs.pruneRun_join (himports p hp) hdir rule p.packages
      (config.policiesFor p.project)
    rw [h.alone p hp hdir, LockedProject.runAlone, hrun] at hn
    exact hprunes.within _ _ hn

end PrunedApart

/-- In later trees of one shape the same lies at a key at which the same lay in the earlier ones. -/
theorem Store.get?_eq_of_alike {s t s' t' : Store} {k : Key} (hs : s'.Within s) (ht : t'.Within t)
    (halike : s'.AlikeAt t' []) (hsame : s.get? k = t.get? k) : s'.get? k = t'.get? k := by
  have hone : ∀ {s t s' t' : Store} {node : Node}, s'.Within s → t'.Within t → s'.AlikeAt t' [] →
      s.get? k = t.get? k → s'.get? k = some node → t'.get? k = some node := by
    intro s t s' t' node hs ht halike hsame hn
    obtain ⟨other, hother, -⟩ := @AlikeAt.exists_of_get? [] _ _ _ k halike hn
    have hsource := (hs _ _ hn).symm.trans (hsame.trans (ht _ _ hother))
    rwa [← Option.some.inj hsource] at hother
  exact Option.ext fun node => ⟨hone hs ht halike hsame, hone ht hs halike.symm hsame.symm⟩

/-! ### The run -/

/-- What is lost below a project is not where the vendor directory is. -/
theorem FileSystem.HoldsDirectory.of_losesBelow {fs fs₁ : FileSystem} {p : LockedProject}
    (h : fs.HoldsDirectory dir root)
    (hloses : LosesOnly fs (fun k => Key.isBelow k (p.key root.names) = true) fs₁) :
    fs₁.HoldsDirectory dir root := by
  refine h.of_losesOnly hloses fun hbelow => ?_
  obtain ⟨names, hne, hkey⟩ := Key.isBelow_iff.1 hbelow
  have hlen := congrArg List.length hkey
  have hpos := List.length_pos_iff.2 hne
  simp only [LockedProject.key, List.length_append] at hlen
  omega

/-- A project apart from the one below which something was lost is looked up as before. -/
theorem LockedProject.Lookable.of_losesBelow {fs fs₁ : FileSystem} {p q : LockedProject}
    (h : q.Lookable fs dir) (hfs : fs.HoldsDirectory dir root)
    (hfs₁ : fs₁.HoldsDirectory dir root) (hapart : p.Apart q)
    (hloses : LosesOnly fs (fun k => Key.isBelow k (p.key root.names) = true) fs₁) :
    q.Lookable fs₁ dir := by
  obtain ⟨there, hasked⟩ := h.asked
  refine ⟨h.named, h.plain, there, ?_⟩
  rw [hfs₁.isDirectory_eq hfs h.isImportPath fun a b hab => ?_]
  · exact hasked
  · refine hloses.same _ (hapart.not_isBelow (.inl ?_))
    rw [LockedProject.key, hab, List.prefix_append_right_inj]
    exact List.prefix_append _ _

section Run

variable {s : Session} {verbose quiet : Bool}

/-- Projects apart from each other are gone through, and each becomes what a run on it alone makes
of it. -/
theorem pruneLocked_run_apart (hfiles : s.files.HoldsDirectory dir root)
    (hdir : '[' ∉ dir.text.toList) (hlook : ∀ p ∈ projects, p.Lookable s.files dir)
    (hapart : projects.Pairwise LockedProject.Apart) :
    ∃ results fs' lines,
      (Command.pruneLocked (diskTools [] rule) verbose config dir projects).run s =
        (.ok results, ⟨fs', lines⟩) ∧ (∀ x ∈ results, '[' ∉ x.1.toList) ∧
      PrunedApart rule config dir root.names projects s.files fs' := by
  induction projects generalizing s with
  | nil => exact ⟨[], s.files, s.lines, rfl, by simp, .nil⟩
  | cons p rest ih =>
    obtain ⟨hp, hrest⟩ := List.forall_mem_cons.1 hlook
    obtain ⟨hapart, hpairs⟩ := List.pairwise_cons.1 hapart
    have himport := hp.isImportPath
    obtain ⟨there, hasked⟩ := hp.asked
    have hanswer := hfiles.isDirectory_join himport hasked
    cases there with
    | false =>
      have hmissing : s.files.store.get? (p.key root.names) ≠ some .directory :=
        of_decide_eq_false hanswer.symm
      have hskipped : '[' ∉ ("Skipping " ++ p.project ++ ": " ++ (dir.join p.project).text ++
          " does not exist").toList := by
        have hjoined := notMem_text_join (by decide) (by decide) hdir hp.plain
        simp [hp.plain, hjoined]
      obtain ⟨lines, hwarning⟩ := Command.warning_run hskipped s
      obtain ⟨results, fs', lines, hrun, hnames, happly⟩ :=
        ih (s := ⟨s.files, lines⟩) hfiles hrest hpairs
      exact ⟨results, fs', _, Command.pruneLocked_run_of_missing hasked hwarning hrun, hnames,
        happly.cons_of_missing hmissing⟩
    | true =>
      have hthere : s.files.store.get? (p.key root.names) = some .directory :=
        of_decide_eq_true hanswer.symm
      obtain ⟨result, fs₁, hprune, -, hloses⟩ := hfiles.pruneRun_join himport hthere rule p.packages
        (config.policiesFor p.project)
      obtain ⟨lines, hfirst⟩ := @runOn_diskTools s verbose p.project _ _ _ _ _ _ hprune
      have hfs₁ := hfiles.of_losesBelow hloses
      have hlook₁ : ∀ q ∈ rest, q.Lookable fs₁ dir := fun q hq =>
        (hrest q hq).of_losesBelow hfiles hfs₁ (hapart q hq) hloses
      obtain ⟨results, fs', lines', hrun, hnames, happly⟩ :=
        ih (s := ⟨fs₁, lines⟩) hfs₁ hlook₁ hpairs
      refine ⟨(p.project, result) :: results, fs', lines',
        Command.pruneLocked_run_of_there hasked hfirst hrun, ?_, ?_⟩
      · exact List.forall_mem_cons.2 ⟨hp.plain, hnames⟩
      · refine happly.cons_of_run hfiles hfs₁
          (fun q hq => (hrest q hq).isImportPath) hapart hthere ?_
          hloses
        rw [LockedProject.runAlone, hprune]

end Run

/-- The arguments ask for a run on a vendor directory without links, the documents for it are
loaded, and the locked projects lie apart from each other. -/
structure SeparateRun (env : Environment) (files : FileSystem) (arguments : List String)
    (settings : Settings) (r : VendorRequest) (lock : Lock) (config : Config) (root : Path) :
    Prop where
  request : readRequest arguments = .ok (settings, .vendor r)
  locked : files.loadLock r.lock = .ok lock
  configured : files.resolveConfig env r.config none = .ok config
  there : files.isDirectory r.dir = .ok true
  holds : files.HoldsDirectory r.dir root
  plain : '[' ∉ r.dir.text.toList
  lookable : ∀ p ∈ lock.projects, p.Lookable files r.dir
  apart : lock.projects.Pairwise LockedProject.Apart

variable {env : Environment} {arguments : List String} {settings : Settings} {r : VendorRequest}
  {lock : Lock}

theorem SeparateRun.isImportPath (h : SeparateRun env files arguments settings r lock config root) :
    ∀ q ∈ lock.projects, IsImportPath q.project (pathNames q.project) :=
  fun q hq => (h.lookable q hq).isImportPath

theorem runProgram_vendor {tools : Tools FileSystem}
    (h : readRequest arguments = .ok (settings, .vendor r)) : runProgram env tools arguments files =
      (Command.pruneVendor env tools settings.verbose settings.quiet r).run { files } :=
  Command.runProgram_of_request h

theorem SeparateRun.ends (h : SeparateRun env files arguments settings r lock config root)
    (rule : PreservationRule) : ∃ fs' lines,
      runProgram env (diskTools [] rule) arguments files = (.ok (), ⟨fs', lines⟩) ∧
        PrunedApart rule config r.dir root.names lock.projects files fs' := by
  rw [runProgram_vendor h.request]
  by_cases hnil : lock.projects = []
  · obtain ⟨lines, hrun⟩ : ∃ lines, (Command.pruneVendor env (diskTools [] rule) settings.verbose
        settings.quiet r).run { files } = (.ok (), ⟨files, lines⟩) :=
      Command.pruneVendor_run_of_nil (s := { files }) h.locked h.configured h.there hnil
    rw [hnil]
    exact ⟨files, lines, hrun, .nil⟩
  · obtain ⟨results, fs', lines, hruns, hnames, happly⟩ := @pruneLocked_run_apart r.dir root rule
      config lock.projects { files } settings.verbose h.holds h.plain h.lookable h.apart
    obtain ⟨lines', hrun⟩ : ∃ lines', (Command.pruneVendor env (diskTools [] rule) settings.verbose
        settings.quiet r).run { files } = (.ok (), ⟨fs', lines'⟩) :=
      Command.pruneVendor_run (s := { files }) h.locked h.configured h.there hnil hruns
        (.inr hnames)
    exact ⟨fs', lines', hrun, happly⟩

/-- If no locked project lies in another one, a run on a vendor directory without links ends well.
Each project that has a directory is then as a run on it alone makes it, and nothing else is
changed. In the same tree, or one that differs in what files hold, it comes to the same in any other
order of the projects. -/
theorem vendorRun_prunes_apart (env : Environment) (rule : PreservationRule) (files : FileSystem)
    {arguments : List String} {settings : Settings} {r : VendorRequest} {lock : Lock}
    {config : Config} {root : Path}
    (h : SeparateRun env files arguments settings r lock config root) :
    let ended := runProgram env (diskTools [] rule) arguments files
    exitCode ended.1 = 0 ∧
      PrunedApart rule config r.dir root.names lock.projects files ended.2.files ∧
      ∀ files' arguments' settings' r' lock',
        SeparateRun env files' arguments' settings' r' lock' config root → r'.dir = r.dir →
        files.store.AlikeAt files'.store [] → lock.projects.Perm lock'.projects →
        let ended' := runProgram env (diskTools [] rule) arguments' files'
        ended.2.files.store.AlikeAt ended'.2.files.store [] ∧
          ∀ k, files.store.get? k = files'.store.get? k →
            ended.2.files.store.get? k = ended'.2.files.store.get? k := by
  intro ended
  obtain ⟨fs₁, lines, hended, happly⟩ := h.ends rule
  have hends : ended = (.ok (), ⟨fs₁, lines⟩) := hended
  rw [hends]
  refine ⟨rfl, happly, ?_⟩
  intro files' arguments' settings' r' lock' h' hdir halike hperm ended'
  obtain ⟨fs₁', lines', hended', happly'⟩ := h'.ends rule
  have hends' : ended' = (.ok (), ⟨fs₁', lines'⟩) := hended'
  have hfiles' := h'.holds
  rw [hdir] at hfiles' happly'
  rw [hends']
  have hleft := happly.alikeAt h.holds hfiles' h.isImportPath halike hperm happly'
  have himports' : ∀ q ∈ lock'.projects, IsImportPath q.project (pathNames q.project) :=
    h'.isImportPath
  exact ⟨hleft, fun k hk => Store.get?_eq_of_alike (happly.within h.holds h.isImportPath)
    (happly'.within hfiles' himports') hleft hk⟩

/-- A run stops at a project whose name is too long for an entry. It changes nothing and prints
nothing before that if the project is the first one. -/
theorem vendorRun_stops_at_long_name {rest : List LockedProject} {name : String}
    {names : List String} (rule : PreservationRule)
    (hrequest : readRequest arguments = .ok (settings, .vendor r))
    (hlocked : files.loadLock r.lock = .ok lock)
    (hconfigured : files.resolveConfig env r.config none = .ok config)
    (hthere : files.isDirectory r.dir = .ok true) (hholds : files.HoldsDirectory r.dir root)
    (hprojects : lock.projects = p :: rest) (himport : IsImportPath p.project (name :: names))
    (hlong : nameLimit < name.utf8ByteSize) (htext : (r.dir.join p.project).checkText = .ok ()) :
    runProgram env (diskTools [] rule) arguments files =
      (.error (.fault (.call ⟨.nameTooLong, [(r.dir.join p.project).text]⟩)), { files }) := by
  rw [runProgram_vendor hrequest]
  refine Command.pruneVendor_run_of_halt hlocked hconfigured hthere (by simp [hprojects]) ?_
  rw [hprojects]
  exact Command.pruneLocked_run_of_fault (hholds.isDirectory_long himport hlong htext)

/-! ### An example -/

/-- A project of which a lock document says nothing but its name. -/
def LockedProject.bare (name : String) (h : name ≠ "") : LockedProject :=
  ⟨⟨name, h⟩, none, none, [], List.not_mem_nil⟩

/-- Three projects that lie apart. -/
def apartProjects : List LockedProject :=
  [.bare "a" (by decide), .bare "b/c" (by decide), .bare "z" (by decide)]

/-- The same projects in another order. -/
def apartProjects' : List LockedProject :=
  [.bare "b/c" (by decide), .bare "a" (by decide), .bare "z" (by decide)]

/-- A vendor directory with two projects, each with a vendor tree in it, and a file beside them. The
lock document names some projects. -/
def apartTree (projects : List LockedProject) : FileSystem where
  store := [(["w"], "v", .directory), (["w", "v"], "a", .directory),
    (["w", "v", "a"], "vendor", .directory),
    (["w", "v", "a", "vendor"], "x.go", .file "v/a/vendor/x.go".toUTF8),
    (["w", "v"], "b", .directory), (["w", "v", "b"], "c", .directory),
    (["w", "v", "b", "c"], "c.go", .file "v/b/c/c.go".toUTF8),
    (["w", "v", "b", "c"], "vendor", .directory), (["w", "v"], "y.go", .file "v/y.go".toUTF8),
    (["w"], "Gopkg.lock", .file ("".intercalate (projects.map fun p =>
      "[[projects]]\nname = \"" ++ p.project ++ "\"\n")).toUTF8)].foldl
      (fun s (entry : Key × String × Node) => s.insert entry.1 entry.2.1 entry.2.2)
      (Store.empty.insert [] "w" .directory)
  here := ⟨["w"], 0⟩

theorem exists_separateRun {projects : List LockedProject}
    (h : projects ∈ [apartProjects, apartProjects']) :
    ∃ lock, lock.projects = projects ∧ SeparateRun ⟨"/w/home", none⟩ (apartTree projects)
      ["prune", "vendor", "v"] {} { dir := Path.ofString "v" } lock Config.standard
      (Path.ofString "/w/v") := by
  have hlocked : ∀ projects ∈ [apartProjects, apartProjects'], ((apartTree projects).loadLock
      (Path.ofString standardLockName)).toOption.map Lock.projects = some projects := by
    decide +kernel
  have hfound : ∀ projects ∈ [apartProjects, apartProjects'], ((apartTree projects).findConfig
      ⟨"/w/home", none⟩ none).toOption = some none := by decide +kernel
  have hthere : ∀ projects ∈ [apartProjects, apartProjects'], ((apartTree projects).isDirectory
      (Path.ofString "v")).toOption = some true := by decide +kernel
  have habsolute : ∀ projects ∈ [apartProjects, apartProjects'], ((apartTree projects).absolute
      (Path.ofString "v")).toOption = some (Path.ofString "/w/v") := by decide +kernel
  have hdir : ∀ projects ∈ [apartProjects, apartProjects'], (apartTree projects).store.get?
      ["w", "v"] = some .directory := by decide +kernel
  have hentries : ∀ projects ∈ [apartProjects, apartProjects'],
      ∀ k ∈ [] :: (apartTree projects).store.entries.map Prod.fst, ["w", "v"] <+: k →
        ((Path.ofString "/w/v").below (k.drop 2)).text.utf8ByteSize < pathLimit ∧
          ((Path.ofString "/w/v").below (k.drop 2)).text ∉ (apartTree projects).refused := by
    decide +kernel
  have hfree : ∀ projects ∈ [apartProjects, apartProjects'],
      ∀ e ∈ (apartTree projects).store.entries, e.2.kind ≠ .link := by decide +kernel
  have hnames : ∀ projects ∈ [apartProjects, apartProjects'], ∀ p ∈ projects,
      IsImportPath p.project (pathNames p.project) ∧ '[' ∉ p.project.toList ∧
        ((apartTree projects).isDirectory
          ((Path.ofString "v").join p.project)).toOption.isSome = true := by decide +kernel
  have hapart : ∀ projects ∈ [apartProjects, apartProjects'],
      projects.Pairwise LockedProject.Apart := by decide +kernel
  obtain ⟨lock, hlock, rfl⟩ := Option.map_eq_some_iff.1 (hlocked projects h)
  have hconfig : (apartTree lock.projects).resolveConfig ⟨"/w/home", none⟩ none none =
      .ok Config.standard := by
    unfold FileSystem.resolveConfig
    rw [ok_of_toOption (hfound _ h)]
  refine ⟨lock, rfl, rfl, ok_of_toOption hlock, hconfig, ok_of_toOption (hthere _ h), ?_,
    by decide +kernel, fun p hp => ?_, hapart _ h⟩
  · exact ⟨ok_of_toOption (habsolute _ h),
      FileSystem.readable_of_entries (by decide) (hdir _ h) (hentries _ h),
      Store.linkFree_of_entries (hfree _ h)⟩
  · obtain ⟨himport, hplain, hasked⟩ := hnames _ h p hp
    obtain ⟨there, hthere⟩ := Option.isSome_iff_exists.1 hasked
    exact ⟨⟨_, himport⟩, hplain, there, ok_of_toOption hthere⟩

/-- A run on the vendor directory. -/
def apartRun (projects : List LockedProject) : Except Halt Unit × Session :=
  runProgram ⟨"/w/home", none⟩ (diskTools [] .standard) ["prune", "vendor", "v"]
    (apartTree projects)

/-- In both orders the runs end well, the file beside the projects stays, and what is left is the
same but for the lock documents. -/
theorem vendorRun_prunes_apart_reordered :
    exitCode (apartRun apartProjects).1 = 0 ∧
      (apartRun apartProjects).2.files.store.get? ["w", "v", "y.go"] =
        some (.file "v/y.go".toUTF8) ∧
      ∀ k, k ≠ ["w", "Gopkg.lock"] → (apartRun apartProjects).2.files.store.get? k =
        (apartRun apartProjects').2.files.store.get? k := by
  unfold apartRun
  obtain ⟨lock, hlisted, h⟩ := @exists_separateRun apartProjects (by simp)
  obtain ⟨lock', hlisted', h'⟩ := @exists_separateRun apartProjects' (by simp)
  obtain ⟨hcode, happly, horder⟩ := vendorRun_prunes_apart ⟨"/w/home", none⟩ .standard
    (apartTree apartProjects) h
  rw [hlisted] at happly horder
  have hperm : apartProjects.Perm lock'.projects := by
    rw [hlisted']
    exact List.Perm.swap _ _ _
  have halike : (apartTree apartProjects).store.AlikeAt (apartTree apartProjects').store [] :=
    .of_entries (by decide +kernel) []
  obtain ⟨-, hsame⟩ := horder _ _ _ _ _ h' rfl halike hperm
  have hentries : ∀ e ∈ (apartTree apartProjects).store.entries, e.1 ≠ ["w", "Gopkg.lock"] →
      (apartTree apartProjects').store.get? e.1 = some e.2 := by decide +kernel
  have hentries' : ∀ e ∈ (apartTree apartProjects').store.entries, e.1 ≠ ["w", "Gopkg.lock"] →
      (apartTree apartProjects).store.get? e.1 = some e.2 := by decide +kernel
  refine ⟨hcode, ?_, fun k hk => hsame k ?_⟩
  · have hbeside : ∀ p ∈ apartProjects,
        Key.isBelow ["w", "v", "y.go"] (p.key (Path.ofString "/w/v").names) = false := by
      decide +kernel
    exact (happly.others _ fun p hp _ => hbeside p hp).trans (by decide +kernel)
  · by_cases hnil : k = []
    · rw [hnil, Store.get?_nil, Store.get?_nil]
    · refine Option.ext fun node => ⟨fun hn => ?_, fun hn => ?_⟩
      · exact hentries _ ((Store.get?_eq_some_iff hnil).1 hn) hk
      · exact hentries' _ ((Store.get?_eq_some_iff hnil).1 hn) hk

end VendorTree
