import VendorTree.Program
import VendorTree.Proofs.Messages

/-!
# Steps of commands

What a composed command does to a session, and what commands maintain of the file system. Printing
changes nothing in it, so a command that prunes maintains what its runs maintain.
-/

namespace VendorTree.Command

open Console (Stream Table)

variable {α β : Type} {c : Command α} {f : α → Command β} {s s' : Session}

theorem bind_run_ok {a : α} (h : c.run s = (.ok a, s')) : (c >>= f).run s = (f a).run s' := by
  show (match c.run s with | (x, s') => ExceptT.bindCont f x s') = _
  rw [h]
  rfl

theorem bind_run_error {halt : Halt} (h : c.run s = (.error halt, s')) :
    (c >>= f).run s = (.error halt, s') := by
  show (match c.run s with | (x, s') => ExceptT.bindCont f x s') = _
  rw [h]
  rfl

theorem runProgram_of_request {env : Environment} {tools : Tools FileSystem} {files : FileSystem}
    {arguments : List String} {settings : CommandLine.Settings} {request : CommandLine.Request}
    (h : CommandLine.readRequest arguments = .ok (settings, request)) :
    runProgram env tools arguments files = (carryOut env tools settings request).run { files } := by
  rw [runProgram, program, h]

theorem get_run (s : Session) : (get : Command Session).run s = (.ok s, s) := rfl

theorem query_run_ok {g : FileSystem → Except Fault α} {a : α} (h : g s.files = .ok a) :
    (query g).run s = (.ok a, s) := by
  rw [query, bind_run_ok (get_run s)]
  simp only [h]
  rfl

theorem query_run_error {g : FileSystem → Except Fault α} {fault : Fault}
    (h : g s.files = .error fault) : (query g).run s = (.error (.fault fault), s) := by
  rw [query, bind_run_ok (get_run s)]
  simp only [h]
  rfl

theorem loadLock_run {path : Path} {lock : Lock} (h : s.files.loadLock path = .ok lock) :
    (loadLock path).run s = (.ok lock, s) := by
  rw [loadLock, bind_run_ok (get_run s)]
  simp only [h]
  rfl

theorem loadConfig_run {env : Environment} {path : Option Path} {config : Config}
    (h : s.files.resolveConfig env path none = .ok config) :
    (loadConfig env path).run s = (.ok config, s) := by
  rw [loadConfig, bind_run_ok (get_run s)]
  simp only [h]
  rfl

theorem runAction_run {ε : Type} (verbose : Bool) (action : Action ε FileSystem α) (s : Session) :
    ∃ lines, (runAction verbose action).run s =
      (.ok (action ⟨s.files, []⟩).1, ⟨(action ⟨s.files, []⟩).2.world, lines⟩) := ⟨_, rfl⟩

theorem print_run {stream : Stream} {markup text : String} (h : Console.render markup = .ok text)
    (s : Session) : ∃ lines, (print stream markup).run s = (.ok (), ⟨s.files, lines⟩) := by
  unfold print
  rw [h]
  exact ⟨_, rfl⟩

/-- A text is printed, or its markup ends the command. -/
theorem print_run_cases (stream : Stream) (markup : String) (s : Session) :
    (∃ lines, (print stream markup).run s = (.ok (), ⟨s.files, lines⟩)) ∨
      ∃ fault, (print stream markup).run s = (.error (.markup fault), s) := by
  unfold print
  split
  · exact .inl ⟨_, rfl⟩
  · exact .inr ⟨_, rfl⟩

theorem failWith_run (message : String) (s : Session) : ∃ halt lines,
    (failWith message : Command α).run s = (.error halt, ⟨s.files, lines⟩) ∧ halt.exitCode = 1 := by
  rcases print_run_cases .errors ("[error]Error:[/] " ++ message) s with
    ⟨lines, hprint⟩ | ⟨fault, hprint⟩
  · exact ⟨_, lines, bind_run_ok hprint, rfl⟩
  · exact ⟨_, _, bind_run_error hprint, rfl⟩

theorem printTable_run {t : Table} (h : ∀ cells ∈ t.rows, ∀ cell ∈ cells, ∃ text,
    Console.render cell = .ok text) (s : Session) :
    ∃ lines, (printTable t).run s = (.ok (), ⟨s.files, lines⟩) := by
  obtain ⟨lines, hlines⟩ := Console.Table.lines_ok h
  unfold printTable
  rw [hlines]
  exact ⟨_, rfl⟩

section Messages

variable {message : String} (hopen : '[' ∉ message.toList)

include hopen

theorem success_run (hescape : '\\' ∉ message.toList) (s : Session) :
    ∃ lines, (success message).run s = (.ok (), ⟨s.files, lines⟩) := by
  obtain ⟨text, htext⟩ :=
    Console.render_between "success" (by decide +kernel) hopen hescape
  exact print_run htext s

theorem information_run (hescape : '\\' ∉ message.toList) (s : Session) :
    ∃ lines, (information message).run s = (.ok (), ⟨s.files, lines⟩) := by
  obtain ⟨text, htext⟩ := Console.render_between "info" (by decide +kernel) hopen hescape
  exact print_run htext s

theorem warning_run (s : Session) :
    ∃ lines, (warning message).run s = (.ok (), ⟨s.files, lines⟩) := by
  have hplain : '[' ∉ (" " ++ message).toList := by simpa using hopen
  have hrender := Console.render_styled "warning" (m := "Warning:") (by decide +kernel)
    (by decide) (by decide) hplain
  rw [← String.append_assoc] at hrender
  exact print_run hrender s

end Messages

/-! ### Runs that go through -/

section GoingThrough

variable {tools : Tools FileSystem} {verbose : Bool} {name : String} {root dir : Path}
  {used : List String} {policies : PolicySet} {config : Config} {p : LockedProject}
  {rest : List LockedProject} {result : RunResult} {results : List (String × RunResult)}
  {s₁ s₂ : Session} {run : Run FileSystem}

theorem runOn_run (h : tools.prune root used policies ⟨s.files, []⟩ = (.ok result, run)) :
    ∃ lines, (runOn tools verbose name root used policies).run s =
      (.ok result, ⟨run.world, lines⟩) := by
  obtain ⟨lines, hrun⟩ := runAction_run verbose (tools.prune root used policies) s
  rw [h] at hrun
  exact ⟨lines, bind_run_ok hrun⟩

theorem pruneLocked_run_of_there (hdir : s.files.isDirectory (dir.join p.project) = .ok true)
    (hrun : (runOn tools verbose p.project (dir.join p.project) p.packages
      (config.policiesFor p.project)).run s = (.ok result, s₁))
    (hrest : (pruneLocked tools verbose config dir rest).run s₁ = (.ok results, s₂)) :
    (pruneLocked tools verbose config dir (p :: rest)).run s =
      (.ok ((p.project, result) :: results), s₂) := by
  rw [pruneLocked, bind_run_ok (query_run_ok hdir), if_pos rfl, bind_run_ok hrun,
    bind_run_ok hrest]
  rfl

theorem pruneLocked_run_of_missing (hdir : s.files.isDirectory (dir.join p.project) = .ok false)
    (hwarning : (warning ("Skipping " ++ p.project ++ ": " ++ (dir.join p.project).text ++
      " does not exist")).run s = (.ok (), s₁))
    (hrest : (pruneLocked tools verbose config dir rest).run s₁ = (.ok results, s₂)) :
    (pruneLocked tools verbose config dir (p :: rest)).run s = (.ok results, s₂) := by
  rw [pruneLocked, bind_run_ok (query_run_ok hdir), if_neg Bool.false_ne_true,
    bind_run_ok hwarning, hrest]

theorem pruneLocked_run_of_fault {fault : Fault}
    (hdir : s.files.isDirectory (dir.join p.project) = .error fault) :
    (pruneLocked tools verbose config dir (p :: rest)).run s = (.error (.fault fault), s) := by
  rw [pruneLocked, bind_run_error (query_run_error hdir)]

/-- What is said at the end of a run has only the characters of its words and digits. -/
theorem notMem_summary {c : Char} (hdigit : c.isDigit = false)
    (hwords : c ∉ ("Pruned " ++ " project(s), removed " ++ " path(s).").toList) (n m : Nat) :
    c ∉ ("Pruned " ++ toString n ++ " project(s), removed " ++ toString m ++
      " path(s).").toList := by
  simp only [String.toList_append, List.mem_append, not_or] at hwords ⊢
  exact ⟨⟨⟨⟨hwords.1.1, Console.notMem_toString hdigit n⟩, hwords.1.2⟩,
    Console.notMem_toString hdigit m⟩, hwords.2⟩

theorem notMem_describe : ∀ policies : PolicySet, '[' ∉ policies.describe.toList := by
  rintro ⟨_ | _, _ | _, _ | _, _ | _⟩ <;> decide +kernel

/-- The cells of the table of results are shown as far as the names of the projects are. -/
theorem resultTable_shown (hnames : ∀ x ∈ results, ∃ text, Console.render x.1 = .ok text) :
    ∀ cells ∈ (resultTable results).rows, ∀ cell ∈ cells, ∃ text,
      Console.render cell = .ok text := by
  intro cells hcells cell hcell
  obtain ⟨x, hx, rfl⟩ := List.mem_map.1 hcells
  have hplain : ∀ {text : String}, '[' ∉ text.toList → ∃ shown, Console.render text = .ok shown :=
    fun h => ⟨_, Console.render_of_notMem h⟩
  have hnumber := Console.notMem_toString (c := '[') (by decide)
  simp only [List.mem_cons, List.not_mem_nil, or_false] at hcell
  rcases hcell with rfl | rfl | rfl | rfl
  · exact hnames x hx
  · exact hplain (notMem_describe _)
  · exact Console.render_between "removed" (by decide +kernel) (hnumber _)
      (Console.notMem_toString (by decide) _)
  · cases x.2.unused with
    | some packages => exact hplain (hnumber _)
    | none => exact hplain (by decide)

theorem printResults_run (hnames : ∀ x ∈ results, '[' ∉ x.1.toList) (s : Session) :
    ∃ lines, (printTable (resultTable results)).run s = (.ok (), ⟨s.files, lines⟩) :=
  printTable_run (resultTable_shown fun x hx => ⟨_, Console.render_of_notMem (hnames x hx)⟩) s

section PruneVendor

variable {quiet : Bool} {env : Environment} {r : VendorRequest} {lock : Lock}

/-- A run on a vendor directory ends well if the projects in it are gone through and, unless it is
quiet, their names are no markup. -/
theorem pruneVendor_run (hlock : s.files.loadLock r.lock = .ok lock)
    (hconfig : s.files.resolveConfig env r.config none = .ok config)
    (hdir : s.files.isDirectory r.dir = .ok true) (hne : lock.projects ≠ [])
    (hruns : (pruneLocked tools verbose config r.dir lock.projects).run s = (.ok results, s₁))
    (hshown : quiet = true ∨ ∀ x ∈ results, '[' ∉ x.1.toList) :
    ∃ lines, (pruneVendor env tools verbose quiet r).run s = (.ok (), ⟨s₁.files, lines⟩) := by
  have hsummary := fun n m => success_run
    (notMem_summary (c := '[') (by decide) (by decide +kernel) n m)
    (notMem_summary (by decide) (by decide +kernel) n m)
  rw [pruneVendor, bind_run_ok (loadLock_run hlock), bind_run_ok (loadConfig_run hconfig),
    bind_run_ok (query_run_ok hdir)]
  dsimp only
  rw [if_neg (by decide), if_neg hne, bind_run_ok hruns]
  split
  · rename_i htable
    obtain ⟨hloud, -⟩ : quiet = false ∧ results ≠ [] := by simpa using htable
    obtain ⟨lines, hprint⟩ := printResults_run (hshown.resolve_left (by simp [hloud])) s₁
    rw [bind_run_ok hprint]
    exact hsummary _ _ _
  · exact hsummary _ _ s₁

theorem pruneVendor_run_of_halt {halt : Halt} (hlock : s.files.loadLock r.lock = .ok lock)
    (hconfig : s.files.resolveConfig env r.config none = .ok config)
    (hdir : s.files.isDirectory r.dir = .ok true) (hne : lock.projects ≠ [])
    (hruns : (pruneLocked tools verbose config r.dir lock.projects).run s = (.error halt, s₁)) :
    (pruneVendor env tools verbose quiet r).run s = (.error halt, s₁) := by
  rw [pruneVendor, bind_run_ok (loadLock_run hlock), bind_run_ok (loadConfig_run hconfig),
    bind_run_ok (query_run_ok hdir)]
  dsimp only
  rw [if_neg (by decide), if_neg hne, bind_run_error hruns]

theorem pruneVendor_run_of_nil (hlock : s.files.loadLock r.lock = .ok lock)
    (hconfig : s.files.resolveConfig env r.config none = .ok config)
    (hdir : s.files.isDirectory r.dir = .ok true) (hnil : lock.projects = []) :
    ∃ lines, (pruneVendor env tools verbose quiet r).run s = (.ok (), ⟨s.files, lines⟩) := by
  rw [pruneVendor, bind_run_ok (loadLock_run hlock), bind_run_ok (loadConfig_run hconfig),
    bind_run_ok (query_run_ok hdir)]
  dsimp only
  rw [if_neg (by decide), if_pos hnil]
  exact information_run (by decide) (by decide) s

end PruneVendor

end GoingThrough

/-! ### What a command maintains -/

/-- Whatever comes of the command, it leads from file systems with a property to such ones. -/
def Maintains (I : FileSystem → Prop) (c : Command α) : Prop :=
  ∀ s, I s.files → I (c.run s).2.files

namespace Maintains

variable {I : FileSystem → Prop}

theorem pure (a : α) : Maintains I (Pure.pure a : Command α) := fun _ h => h

theorem throw (halt : Halt) : Maintains I (throw halt : Command α) := fun _ h => h

theorem bind (h : Maintains I c) (hf : ∀ a, Maintains I (f a)) : Maintains I (c >>= f) := by
  intro s hs
  have hfiles := h s hs
  rcases hc : c.run s with ⟨halt | a, s'⟩
  · rw [hc] at hfiles
    rwa [bind_run_error hc]
  · rw [hc] at hfiles
    rw [bind_run_ok hc]
    exact hf a s' hfiles

theorem print (stream : Stream) (markup : String) : Maintains I (print stream markup) := by
  intro s hs
  rwa [files_print]

theorem printTable (t : Table) : Maintains I (printTable t) := by
  intro s hs
  rwa [files_printTable]

/-- Nothing is done after a failure that is reported. -/
theorem failWith_bind (message : String) (f : α → Command β) :
    Maintains I (failWith message >>= f) := by
  intro s hs
  obtain ⟨halt, lines, hfail, -⟩ := @failWith_run α message s
  rw [bind_run_error hfail]
  exact hs

theorem query (g : FileSystem → Except Fault α) : Maintains I (query g) := by
  intro s hs
  cases h : g s.files with
  | ok a => rwa [query_run_ok h]
  | error fault => rwa [query_run_error h]

theorem runAction {ε : Type} (verbose : Bool) {action : Action ε FileSystem α}
    (h : Action.Maintains I action) : Maintains I (runAction verbose action) := by
  intro s hs
  obtain ⟨lines, hrun⟩ := runAction_run verbose action s
  rw [hrun]
  exact h ⟨s.files, []⟩ hs

theorem reportRun (name : String) (fault : RunFault) :
    Maintains I (reportRun name fault : Command α) := by
  unfold Command.reportRun
  have hend : Maintains I (do
      warning "Paths removed before the failure were not restored."
      MonadExcept.throw .reported : Command α) :=
    (print _ _).bind fun _ => throw _
  cases fault with
  | escaped fault => exact (throw _).bind fun _ => hend
  | stage stage cause => exact (print _ _).bind fun _ => hend
  | snapshot fault => exact (print _ _).bind fun _ => hend

theorem runOn {tools : Tools FileSystem} {verbose : Bool} {name : String} {root : Path}
    {used : List String} {policies : PolicySet}
    (h : Action.Maintains I (tools.prune root used policies)) :
    Maintains I (runOn tools verbose name root used policies) := by
  refine (runAction verbose h).bind fun outcome => ?_
  cases outcome with
  | ok result => exact pure _
  | error fault => exact reportRun name fault

/-- Pruning the locked projects one after the other maintains what each run maintains. -/
theorem pruneLocked {tools : Tools FileSystem} {verbose : Bool} {config : Config} {dir : Path}
    {projects : List LockedProject} (h : ∀ p ∈ projects, Action.Maintains I
      (tools.prune (dir.join p.project) p.packages (config.policiesFor p.project))) :
    Maintains I (pruneLocked tools verbose config dir projects) := by
  induction projects with
  | nil => exact pure _
  | cons p rest ih =>
    have hrest := ih fun q hq => h q (by simp [hq])
    refine (query _).bind fun there => ?_
    cases there with
    | true => exact (runOn (h p (by simp))).bind fun _ => hrest.bind fun _ => pure _
    | false => exact (print _ _).bind fun _ => hrest

end Maintains

end VendorTree.Command
