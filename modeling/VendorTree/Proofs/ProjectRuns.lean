import VendorTree.FileSystem.Snapshot
import VendorTree.Proofs.CommandSteps
import VendorTree.Proofs.ProjectArguments
import VendorTree.Proofs.ResolvedConfig

/-!
# Runs on one project

The command that prunes one project settles which policies are meant and then does what a run with
these policies does, whatever is printed. The policies that are asked for come first, and no
configuration is looked at then. That nothing is asked for is not the same as that no policy is:
only in the first case the configuration decides, by the name of the project.
-/

namespace VendorTree

open CommandLine

/-! ### The policies that are meant -/

section Meaning

variable (fs : FileSystem) (env : Environment) (given : Arguments ProjectOption) (root : Path)

/-- No policy is asked for. -/
def Unflagged : Prop := given.has .all = false ∧ ∀ policy, given.has (.policy policy) = false

/-- The name of the project: the one that is given, if it is not empty, else the last name of the
real path of the directory. -/
inductive CallsProject : String → Prop
  | given {name : String} (named : given.value? .name = some name) (nonempty : name ≠ "") :
    CallsProject name
  | real {path : Path} (unnamed : ∀ name, given.value? .name = some name → name = "")
    (settled : fs.realPath root = .ok path) : CallsProject path.name

/-- The policies that are meant: all of them, those that are asked for one by one, none of them, or,
where nothing of that is asked for, those that the configuration gives the project. -/
inductive SettlesPolicies : PolicySet → Prop
  | every (wanted : given.has .none = false) (all : given.has .all = true) : SettlesPolicies .all
  | chosen {policy : Policy} (wanted : given.has .none = false) (notAll : given.has .all = false)
    (asked : given.has (.policy policy) = true) :
    SettlesPolicies (.ofTest fun policy => given.has (.policy policy))
  | nothing (unwanted : given.has .none = true) (unflagged : Unflagged given) :
    SettlesPolicies .none
  | configured {config : Config} {name : String} (silent : given.has .none = false)
    (unflagged : Unflagged given)
    (resolves : Resolves fs env ((given.value? .config).map Path.ofString) config)
    (names : CallsProject fs given root name) : SettlesPolicies (config.policiesFor name)

/-- Why no policies are meant: none of them and some are asked for at once, or the configuration
would decide and is not loaded, or it would decide by a name and the directory has no real path to
take that from. -/
inductive RefusesRequest : Prop
  | conflict (unwanted : given.has .none = true) (flagged : ¬ Unflagged given)
  | unloaded (silent : given.has .none = false) (unflagged : Unflagged given)
    (missing : ∀ config, ¬ Resolves fs env ((given.value? .config).map Path.ofString) config)
  | nameless (silent : given.has .none = false) (unflagged : Unflagged given)
    (missing : ∀ name, ¬ CallsProject fs given root name)

end Meaning

/-- The command does what the run with the policies that are meant does, and nothing where none are
meant. -/
structure RefinesRun (tools : Tools FileSystem) (fs : FileSystem) (env : Environment)
    (given : Arguments ProjectOption) (root : Path) (ended : Except Halt Unit × Session) :
    Prop where
  decided : RefusesRequest fs env given root ∨
    ∃ policies, SettlesPolicies fs env given root policies
  refused : RefusesRequest fs env given root → ended.2.files = fs ∧ exitCode ended.1 = 1
  pruned : ∀ policies, SettlesPolicies fs env given root policies →
    ended.2.files = (tools.prune root (given.values .package) policies ⟨fs, []⟩).2.world

theorem PolicySet.isEmpty_iff {policies : PolicySet} :
    policies.isEmpty = true ↔ ∀ policy, policies.has policy = false := by
  rw [isEmpty, List.isEmpty_iff, toList, List.filter_eq_nil_iff]
  constructor
  · intro h policy
    exact eq_false_of_ne_true (h policy (by cases policy <;> decide))
  · intro h policy _
    simp [h policy]

theorem chosen_isEmpty_iff {given : Arguments ProjectOption} {root : Path} :
    (ProjectRequest.ofGiven given root).chosen.isEmpty = true ↔ Unflagged given := by
  show (if given.has .all = true then PolicySet.all
    else .ofTest fun policy => given.has (.policy policy)).isEmpty = true ↔ _
  unfold Unflagged
  split
  · rename_i hall
    simp [hall]
    decide
  · rename_i hall
    simp [PolicySet.isEmpty_iff, hall]

namespace Command

section Project

variable {env : Environment} {tools : Tools FileSystem} {verbose quiet : Bool} {r : ProjectRequest}
  {s : Session}

theorem loadConfig_run_error {path : Option Path} {fault : LoadFault}
    (h : s.files.resolveConfig env path none = .error fault) : ∃ halt lines,
      (loadConfig env path).run s = (.error halt, ⟨s.files, lines⟩) ∧ halt.exitCode = 1 := by
  rw [loadConfig, bind_run_ok (get_run s)]
  simp only [h]
  unfold reportLoad
  split
  · exact ⟨_, _, rfl, rfl⟩
  · exact failWith_run _ s

theorem files_runOn (name : String) (root : Path) (used : List String) (policies : PolicySet) :
    ((runOn tools verbose name root used policies).run s).2.files =
      (tools.prune root used policies ⟨s.files, []⟩).2.world := by
  obtain ⟨lines, hrun⟩ := runAction_run verbose (tools.prune root used policies) s
  rw [runOn, bind_run_ok hrun]
  cases (tools.prune root used policies ⟨s.files, []⟩).1 with
  | ok result => rfl
  | error fault =>
    exact Maintains.reportRun (I := (· = (tools.prune root used policies ⟨s.files, []⟩).2.world))
      name fault _ rfl

theorem files_pruneProject {policies : PolicySet}
    (h : (projectPolicies env r).run s = (.ok policies, s)) :
    ((pruneProject env tools verbose quiet r).run s).2.files =
      (tools.prune r.root r.packages policies ⟨s.files, []⟩).2.world := by
  have hmaintains : ∀ (I : FileSystem → Prop) (result : RunResult), Maintains I (do
      if !quiet then
        printTable (resultTable [(r.title, result)])
      success ("Removed " ++ toString result.removed.length ++ " path(s) from " ++
        result.root.text)) := by
    intro I result
    cases quiet with
    | true => exact .print _ _
    | false => exact (Maintains.printTable _).bind fun _ => .print _ _
  rw [pruneProject, bind_run_ok h]
  have hfiles := @files_runOn tools verbose s r.title r.root r.packages policies
  cases hrun : (runOn tools verbose r.title r.root r.packages policies).run s with
  | mk outcome s' =>
    rw [hrun] at hfiles
    cases outcome with
    | error halt => rwa [bind_run_error hrun]
    | ok result =>
      rw [bind_run_ok hrun]
      exact hmaintains (· = _) result s' hfiles

/-! #### Settling the policies -/

theorem projectPolicies_run_of_asked (h : r.noPolicy = r.chosen.isEmpty) :
    (projectPolicies env r).run s = (.ok r.chosen, s) := by
  rw [projectPolicies, h]
  cases r.chosen.isEmpty <;> rfl

theorem projectPolicies_run_of_conflict (hnone : r.noPolicy = true)
    (hsome : r.chosen.isEmpty = false) : ∃ halt lines,
      (projectPolicies env r).run s = (.error halt, ⟨s.files, lines⟩) ∧ halt.exitCode = 1 := by
  rw [projectPolicies, hnone, hsome]
  exact failWith_run _ s

section Unasked

variable (hsilent : r.noPolicy = false) (hempty : r.chosen.isEmpty = true)

include hsilent hempty

theorem projectPolicies_eq : projectPolicies env r = do
    return (← loadConfig env r.config).policiesFor (← projectName r) := by
  rw [projectPolicies, hsilent, hempty]
  rfl

theorem projectPolicies_run_of_configured {config : Config} {name : String}
    (hconfig : s.files.resolveConfig env r.config none = .ok config)
    (hname : (projectName r).run s = (.ok name, s)) :
    (projectPolicies env r).run s = (.ok (config.policiesFor name), s) := by
  rw [projectPolicies_eq hsilent hempty, bind_run_ok (loadConfig_run hconfig), bind_run_ok hname]
  rfl

theorem projectPolicies_run_of_unloaded {fault : LoadFault}
    (hconfig : s.files.resolveConfig env r.config none = .error fault) : ∃ halt lines,
      (projectPolicies env r).run s = (.error halt, ⟨s.files, lines⟩) ∧ halt.exitCode = 1 := by
  obtain ⟨halt, lines, hrun, hcode⟩ := loadConfig_run_error hconfig
  rw [projectPolicies_eq hsilent hempty, bind_run_error hrun]
  exact ⟨halt, lines, rfl, hcode⟩

theorem projectPolicies_run_of_nameless {config : Config} {halt : Halt}
    (hconfig : s.files.resolveConfig env r.config none = .ok config)
    (hname : (projectName r).run s = (.error halt, s)) :
    (projectPolicies env r).run s = (.error halt, s) := by
  rw [projectPolicies_eq hsilent hempty, bind_run_ok (loadConfig_run hconfig), bind_run_error hname]

end Unasked

theorem pruneProject_run_of_halt {halt : Halt} {s' : Session}
    (h : (projectPolicies env r).run s = (.error halt, s')) :
    (pruneProject env tools verbose quiet r).run s = (.error halt, s') := by
  rw [pruneProject, bind_run_error h]

/-- Where something is asked for, the command does not depend on the configuration. -/
theorem pruneProject_eq_of_asked (h : r.noPolicy = true ∨ r.chosen.isEmpty = false)
    (env' : Environment) (config : Option Path) :
    pruneProject env' tools verbose quiet { r with config := config } =
      pruneProject env tools verbose quiet r := by
  have hpolicies : projectPolicies env' { r with config := config } = projectPolicies env r := by
    have hasked : (r.chosen.isEmpty && !r.noPolicy) = false := by
      rcases h with h | h <;> simp [h]
    unfold projectPolicies
    show (if r.noPolicy && !r.chosen.isEmpty then _ else if r.chosen.isEmpty && !r.noPolicy then _
      else _) = _
    rw [hasked]
    rfl
  unfold pruneProject
  rw [hpolicies]
  rfl

section Given

variable {given : Arguments ProjectOption} {root : Path}

theorem projectName_run {name : String} (h : CallsProject s.files given root name) :
    (projectName (.ofGiven given root)).run s = (.ok name, s) := by
  unfold projectName
  cases h with
  | given named nonempty =>
    have hgiven : (ProjectRequest.ofGiven given root).givenName? = some name := by
      simp [ProjectRequest.givenName?, ProjectRequest.ofGiven, named, nonempty]
    rw [hgiven]
    rfl
  | real unnamed settled =>
    have hgiven : (ProjectRequest.ofGiven given root).givenName? = none :=
      Option.filter_eq_none_iff.2 fun name hname => by simp [unnamed name hname]
    rw [hgiven]
    dsimp only
    rw [bind_run_ok (get_run s)]
    simp only [ProjectRequest.ofGiven, settled]
    rfl

theorem projectName_run_of_nameless (h : ∀ name, ¬ CallsProject s.files given root name) :
    ∃ halt, (projectName (.ofGiven given root)).run s = (.error halt, s) ∧ halt.exitCode = 1 := by
  have hunnamed : ∀ name, given.value? .name = some name → name = "" := fun name hname =>
    Decidable.byContradiction fun hne => h name (.given hname hne)
  have hgiven : (ProjectRequest.ofGiven given root).givenName? = none :=
    Option.filter_eq_none_iff.2 fun name hname => by simp [hunnamed name hname]
  cases hreal : s.files.realPath root with
  | ok path => exact absurd (.real hunnamed hreal) (h path.name)
  | error fault =>
    refine ⟨.realPath fault, ?_, rfl⟩
    unfold projectName
    rw [hgiven]
    dsimp only
    rw [bind_run_ok (get_run s)]
    simp only [ProjectRequest.ofGiven, hreal]
    rfl

/-- The policies that are meant are those that the command settles on. -/
theorem projectPolicies_run_of_settles {policies : PolicySet}
    (h : SettlesPolicies s.files env given root policies) :
    (projectPolicies env (.ofGiven given root)).run s = (.ok policies, s) := by
  cases h with
  | every wanted all =>
    have hchosen : (ProjectRequest.ofGiven given root).chosen = .all := if_pos all
    rw [projectPolicies_run_of_asked (by rw [hchosen]; exact wanted), hchosen]
  | @chosen policy wanted notAll asked =>
    have hchosen : (ProjectRequest.ofGiven given root).chosen =
      .ofTest fun policy => given.has (.policy policy) := if_neg (ne_true_of_eq_false notAll)
    have hsome : (ProjectRequest.ofGiven given root).chosen.isEmpty = false := by
      refine eq_false_of_ne_true fun hempty => ?_
      simp [(chosen_isEmpty_iff.1 hempty).2 policy] at asked
    rw [projectPolicies_run_of_asked (wanted.trans hsome.symm), hchosen]
  | nothing unwanted unflagged =>
    have hempty := @chosen_isEmpty_iff given root |>.2 unflagged
    have hchosen : (ProjectRequest.ofGiven given root).chosen = .none :=
      PolicySet.ext_has fun policy => by simp [PolicySet.isEmpty_iff.1 hempty, PolicySet.none]
    rw [projectPolicies_run_of_asked (unwanted.trans hempty.symm), hchosen]
  | configured silent unflagged resolves names =>
    exact projectPolicies_run_of_configured silent (chosen_isEmpty_iff.2 unflagged)
      (resolveConfig_eq_ok_iff.2 resolves) (projectName_run names)

theorem projectPolicies_run_of_refused (h : RefusesRequest s.files env given root) : ∃ halt lines,
    (projectPolicies env (.ofGiven given root)).run s = (.error halt, ⟨s.files, lines⟩) ∧
      halt.exitCode = 1 := by
  cases h with
  | conflict unwanted flagged =>
    refine projectPolicies_run_of_conflict unwanted ?_
    exact eq_false_of_ne_true fun hempty => flagged (chosen_isEmpty_iff.1 hempty)
  | unloaded silent unflagged missing =>
    cases hconfig : s.files.resolveConfig env ((given.value? .config).map Path.ofString) none with
    | ok config => exact absurd (resolveConfig_eq_ok_iff.1 hconfig) (missing config)
    | error fault =>
      exact projectPolicies_run_of_unloaded silent (chosen_isEmpty_iff.2 unflagged) hconfig
  | nameless silent unflagged missing =>
    have hempty := @chosen_isEmpty_iff given root |>.2 unflagged
    cases hconfig : s.files.resolveConfig env ((given.value? .config).map Path.ofString) none with
    | error fault => exact projectPolicies_run_of_unloaded silent hempty hconfig
    | ok config =>
      obtain ⟨halt, hname, hcode⟩ := projectName_run_of_nameless missing
      exact ⟨halt, s.lines, projectPolicies_run_of_nameless silent hempty hconfig hname, hcode⟩

end Given

end Project

end Command

/-! ### Runs of the program -/

section Program

variable (tools : Tools FileSystem) (env : Environment) (fs : FileSystem)
  (given : Arguments ProjectOption) (root : Path)

/-- Either policies are meant or none are. -/
theorem settles_or_refused :
    RefusesRequest fs env given root ∨ ∃ policies, SettlesPolicies fs env given root policies := by
  by_cases hflagged : Unflagged given
  · cases hnone : given.has .none with
    | true => exact .inr ⟨_, .nothing hnone hflagged⟩
    | false =>
      by_cases hconfig : ∃ config,
          Resolves fs env ((given.value? .config).map Path.ofString) config
      · by_cases hname : ∃ name, CallsProject fs given root name
        · obtain ⟨config, hconfig⟩ := hconfig
          obtain ⟨name, hname⟩ := hname
          exact .inr ⟨_, .configured hnone hflagged hconfig hname⟩
        · exact .inl (.nameless hnone hflagged (not_exists.1 hname))
      · exact .inl (.unloaded hnone hflagged (not_exists.1 hconfig))
  · cases hnone : given.has .none with
    | true => exact .inl (.conflict hnone hflagged)
    | false =>
      cases hall : given.has .all with
      | true => exact .inr ⟨_, .every hnone hall⟩
      | false =>
        have hsome : ∃ policy, given.has (.policy policy) = true :=
          Classical.byContradiction fun h => hflagged
            ⟨hall, fun policy => eq_false_of_ne_true fun hp => h ⟨policy, hp⟩⟩
        obtain ⟨policy, hpolicy⟩ := hsome
        exact .inr ⟨_, .chosen hnone hall hpolicy⟩

/-- The command that prunes a project refines the run. -/
theorem pruneProject_run_refines (verbose quiet : Bool) :
    RefinesRun tools fs env given root
      ((Command.pruneProject env tools verbose quiet (.ofGiven given root)).run ⟨fs, []⟩) where
  decided := settles_or_refused env fs given root
  refused h := by
    obtain ⟨halt, lines, hpolicies, hcode⟩ :=
      @Command.projectPolicies_run_of_refused env ⟨fs, []⟩ given root h
    rw [Command.pruneProject_run_of_halt hpolicies]
    exact ⟨rfl, hcode⟩
  pruned policies h :=
    Command.files_pruneProject (@Command.projectPolicies_run_of_settles env ⟨fs, []⟩ _ _ _ h)

end Program

theorem runProgram_project (tools : Tools FileSystem) (env : Environment) (fs : FileSystem)
    {arguments : List String} {settings : Settings} {r : ProjectRequest}
    (h : readRequest arguments = .ok (settings, .project r)) : runProgram env tools arguments fs =
      (Command.pruneProject env tools settings.verbose settings.quiet r).run ⟨fs, []⟩ :=
  Command.runProgram_of_request h

/-- A request to prune a project is carried out as a run with the policies that are meant, or it is
refused. Where policies are asked for, or none are, the configuration has no part in that. -/
theorem runProgram_project_refines (tools : Tools FileSystem) (env : Environment)
    (fs : FileSystem) (arguments : List String) {settings : Settings} {r : ProjectRequest}
    (h : readRequest arguments = .ok (settings, .project r)) :
    ∃ given, AsksToPrune arguments given r.root ∧ r = .ofGiven given r.root ∧
      RefinesRun tools fs env given r.root (runProgram env tools arguments fs) ∧
      (given.has .none = true ∨ ¬ Unflagged given → ∀ env' arguments' config,
        readRequest arguments' = .ok (settings, .project { r with config := config }) →
          runProgram env' tools arguments' fs = runProgram env tools arguments fs) := by
  obtain ⟨given, hasks, hr⟩ := exists_of_readRequest h
  refine ⟨given, hasks, hr, ?_, fun hasked env' arguments' config h' => ?_⟩
  · rw [runProgram_project tools env fs h, hr]
    exact pruneProject_run_refines tools env fs given r.root settings.verbose settings.quiet
  · rw [runProgram_project tools env fs h, runProgram_project tools env' fs h']
    have hflags : r.noPolicy = true ∨ r.chosen.isEmpty = false := by
      rw [hr]
      refine hasked.imp id fun hflagged => ?_
      exact eq_false_of_ne_true fun hempty => hflagged (chosen_isEmpty_iff.1 hempty)
    rw [Command.pruneProject_eq_of_asked hflags]

/-- A working directory with a project, a link to it, and a configuration that knows the project by
its name. -/
def configuredProject : FileSystem where
  store := [(["w"], "p", .directory), (["w", "p"], "x_test.go", .file "p/x_test.go".toUTF8),
    (["w"], "l", .link "p"), (["w"], projectConfigName, .file
      "[[prune.project]]\nname = \"p\"\nnested-vendor = false\ngo-tests = true\n".toUTF8)].foldl
      (fun s (entry : Key × String × Node) => s.insert entry.1 entry.2.1 entry.2.2)
      (Store.empty.insert [] "w" .directory)
  here := ⟨["w"], 0⟩

/-- What is asked for by naming the link alone. -/
def configuredRequest : ProjectRequest := { root := Path.ofString "l" }

/-- The project is pruned as the configuration says for its own name. -/
theorem runProgram_project_refines_configured :
    let env : Environment := ⟨"/w/home", none⟩
    let tools := diskTools [] .standard
    let arguments := ["-q", "prune", "project", "l"]
    readRequest arguments = .ok ({ quiet := true }, .project configuredRequest) ∧
      (runProgram env tools arguments configuredProject).2.files =
        (tools.prune (Path.ofString "l") [] (.ofList [.goTests])
          ⟨configuredProject, []⟩).2.world := by
  intro env tools arguments
  have hrequest : readRequest arguments = .ok ({ quiet := true }, .project configuredRequest) := rfl
  obtain ⟨given, -, hgiven, hrefines, -⟩ :=
    runProgram_project_refines tools env configuredProject arguments hrequest
  have hnone : given.has .none = false := (congrArg ProjectRequest.noPolicy hgiven).symm
  have hpolicies : PolicySet.none = .ofTest fun policy => given.has (.policy policy) :=
    congrArg ProjectRequest.policies hgiven
  have hunflagged : Unflagged given := by
    refine ⟨(congrArg ProjectRequest.everyPolicy hgiven).symm, fun policy => ?_⟩
    simpa [PolicySet.none] using (congrArg (·.has policy) hpolicies).symm
  have hunnamed : given.value? .name = none := (congrArg ProjectRequest.name hgiven).symm
  have hconfigless : (given.value? .config).map Path.ofString = none :=
    (congrArg ProjectRequest.config hgiven).symm
  have hpackages : given.values .package = [] := (congrArg ProjectRequest.packages hgiven).symm
  obtain ⟨real, hreal, hname⟩ := Option.map_eq_some_iff.1
    (show (configuredProject.realPath (Path.ofString "l")).toOption.map Path.name = some "p" by
      decide +kernel)
  obtain ⟨config, hconfig, hpruned⟩ := Option.map_eq_some_iff.1
    (show
      ((configuredProject.resolveConfig env none none).toOption.map fun c => c.policiesFor "p") =
      some (.ofList [.goTests]) by decide +kernel)
  -- the link has another name than the directory it leads to, and the latter is looked up
  have hsettles : SettlesPolicies configuredProject env given (Path.ofString "l")
      (.ofList [.goTests]) := by
    rw [← hpruned, ← hname]
    refine .configured hnone hunflagged ?_ (.real (by simp [hunnamed]) (ok_of_toOption hreal))
    rw [hconfigless]
    exact resolveConfig_eq_ok_iff.1 (ok_of_toOption hconfig)
  refine ⟨hrequest, ?_⟩
  rw [hrefines.pruned _ hsettles, hpackages]
  rfl

end VendorTree
