import VendorTree.Proofs.CommandSteps
import VendorTree.Proofs.SavingEnds

/-!
# Created configurations

Creating a configuration asks whether something is at its path, and then makes the directories above
the path and puts a file in place of what the path names. The question follows links, and it comes
before the directories are there; the replacement follows no link at the end of the path, and comes
after. So nothing is found at some paths that name an entry all the same: a link that leads nowhere,
or what the path comes to when the missing directories on its way are made.
-/

namespace VendorTree

open CommandLine (Settings readRequest)

namespace FileSystem

variable {fs fs' : FileSystem} {path : Path} {dir : Key} {name : String} {contents : ByteArray}
  {node : Node}

/-- Nothing is found at the path, but once the directories above it are made a file or a link has
its name. -/
def HidesEntry (fs : FileSystem) (path : Path) : Prop :=
  fs.existsAt path = .ok false ∧
    (fs.makeDirectories path.parent).2.holds false path (fun node => node ≠ .directory) = .ok true

/-- An entry that has the name of a path is at the path, as long as it is not followed. -/
theorem Names.holds (h : fs.Names path dir name) (hn : fs.store.get? (dir ++ [name]) = some node)
    (test : Node → Bool) : fs.holds false path test = .ok (test node) := by
  have hwalk : fs.store.walkFrom false (fs.start path) path.steps =
      .ok (.entry (dir ++ [name])) := by
    rw [h.steps]
    refine Store.walkFrom_append (by simp) h.way fun links => ?_
    have hfound : fs.store.walk false links dir ([name].map Step.enter) =
        .ok (.entry (dir ++ [name])) := Store.walk_enter_found hn fun _ => .inr rfl
    exact hfound
  rw [FileSystem.holds, entryAt_of_walk h.text hwalk hn]

namespace PutsFile

/-- Where nothing is found and nothing is hidden, no entry is lost. -/
theorem within_of_not_hidesEntry
    (h : PutsFile (fs.makeDirectories path.parent).2 path dir name contents fs')
    (hexists : fs.existsAt path = .ok false) (hhides : ¬ fs.HidesEntry path) :
    fs.store.Within fs'.store := by
  intro k node hn
  have hmade := (makeDirectories_makesAbove fs path).within k node hn
  rw [h.entries]
  split
  · rename_i hk
    obtain rfl := hk
    have hkind : node ≠ .directory := fun hdir => h.place (hdir ▸ hmade)
    refine absurd ⟨hexists, ?_⟩ hhides
    rw [h.names.holds hmade, decide_eq_true hkind]
  · exact hmade

/-- The path leads to the file, if no link stood in its place or a directory is above it still. -/
theorem entryAt (h : PutsFile fs path dir name contents fs')
    (hled : fs.isLink path = .ok true → fs'.isDirectory path.parent = .ok true) :
    fs'.entryAt true path = .ok (some (dir ++ [name]), .file contents) := by
  by_cases hparent : fs'.isDirectory path.parent = .ok true
  · exact h.leads (.inl hparent)
  · refine h.leads (.inr fun target hn => hparent (hled ?_))
    exact h.names.holds hn _

end PutsFile

end FileSystem

open FileSystem (PutsFile)

/-- Where a configuration is created. -/
def CreateRequest.destination (fs : FileSystem) (r : CreateRequest) : Except Fault Path :=
  match r.output with
  | some path => .ok path
  | none => fs.projectConfig none

theorem CreateRequest.config_empty (r : CreateRequest) : r.config.overrides = [] ∧
    r.config.policies = if r.everyPolicy then .all else .ofList [.nestedVendor] := by
  unfold config
  split <;> exact ⟨rfl, rfl⟩

/-- How the creation of a configuration ends. Every entry stays, or the text of the configuration
takes the place of what its path names, once the directories above are made. Then it was to replace
what is there, or nothing was found there. -/
inductive CreateEnds (fs : FileSystem) (r : CreateRequest) : Except Halt Unit × Session → Prop
  | kept {s : Session} (halt : Halt) (fails : halt.exitCode ≠ 0)
    (within : fs.store.Within s.files.store) : CreateEnds fs r (.error halt, s)
  | written {s : Session} {path : Path} {dir : Key} {name : String} (outcome : Except Halt Unit)
    (destination : r.destination fs = .ok path)
    (allowed : r.force = true ∨ fs.existsAt path = .ok false)
    (puts :
      PutsFile (fs.makeDirectories path.parent).2 path dir name r.config.write.toUTF8 s.files) :
    CreateEnds fs r (outcome, s)

namespace Command

variable {s : Session} {config : Config} {path : Path} {files : FileSystem} {r : CreateRequest}

theorem saveConfig_run_ok {saved : Path}
    (h : s.files.saveConfig config (some path) = (.ok saved, files)) :
    (saveConfig config path).run s = (.ok saved, { s with files }) := by
  rw [saveConfig, bind_run_ok (get_run s)]
  simp only [h]
  rfl

theorem saveConfig_run_error {fault : SaveFault}
    (h : s.files.saveConfig config (some path) = (.error fault, files)) : ∃ halt lines,
      (saveConfig config path).run s = (.error halt, ⟨files, lines⟩) ∧ halt.exitCode ≠ 0 := by
  rw [saveConfig, bind_run_ok (get_run s)]
  simp only [h]
  cases fault with
  | fault fault => exact ⟨.fault fault, s.lines, rfl, Nat.one_ne_zero⟩
  | unwritten failure =>
    obtain ⟨halt, lines, hfail, hcode⟩ :=
      @failWith_run Path (saveFailureMessage failure) { s with files }
    exact ⟨halt, lines, hfail, by omega⟩

/-- What is printed first has no part in how the creation ends. -/
theorem createEnds_of_print {stream : Console.Stream} {markup : String} {c : Unit → Command Unit}
    (h : ∀ lines, CreateEnds s.files r ((c ()).run ⟨s.files, lines⟩)) :
    CreateEnds s.files r ((print stream markup >>= c).run s) := by
  rcases print_run_cases stream markup s with ⟨lines, hprint⟩ | ⟨fault, hprint⟩
  · rw [bind_run_ok hprint]
    exact h lines
  · rw [bind_run_error hprint]
    exact .kept _ Nat.one_ne_zero fun _ _ hn => hn

theorem createEnds_of_save (hdestination : r.destination s.files = .ok path)
    (hallowed : r.force = true ∨ s.files.existsAt path = .ok false) :
    CreateEnds s.files r ((saveConfig r.config path >>= fun saved =>
      success ("Config created: " ++ saved.text)).run s) := by
  rcases s.files.saveConfig_keeps_or_puts r.config path with
    ⟨fault, files, hfails, hkept, -⟩ | ⟨dir, name, files, hsaved, hputs⟩
  · obtain ⟨halt, lines, hrun, hcode⟩ := saveConfig_run_error hfails
    rw [bind_run_error hrun]
    exact .kept halt hcode ((FileSystem.makeDirectories_makesAbove _ path).within.trans hkept)
  · rw [bind_run_ok (saveConfig_run_ok hsaved)]
    have hfiles :
        ((success ("Config created: " ++ path.text)).run { s with files }).2.files = files :=
      files_print _ _ _
    exact .written _ hdestination hallowed (hfiles.symm ▸ hputs)

/-- A path at which something is found is left alone, or the configuration is to replace it. -/
theorem createConfig_ends (r : CreateRequest) (s : Session) :
    CreateEnds s.files r ((createConfig r).run s) := by
  unfold createConfig
  extract_lets rest
  -- wherever the path comes from, what is done with it is the same
  have hrest : ∀ path, r.destination s.files = .ok path →
      CreateEnds s.files r ((rest path).run s) := by
    intro path hdestination
    cases hexists : s.files.existsAt path with
    | error fault =>
      dsimp only [rest]
      rw [bind_run_error (query_run_error hexists)]
      exact .kept _ Nat.one_ne_zero fun _ _ hn => hn
    | ok there =>
      dsimp only [rest]
      rw [bind_run_ok (query_run_ok hexists)]
      cases there with
      | false =>
        rw [if_neg Bool.false_ne_true]
        exact createEnds_of_save hdestination (.inr hexists)
      | true =>
        rw [if_pos rfl]
        split
        · rename_i hforce
          exact createEnds_of_print fun lines =>
            createEnds_of_save (s := ⟨s.files, lines⟩) hdestination (.inl hforce)
        · refine createEnds_of_print fun lines =>
            createEnds_of_print (s := ⟨s.files, lines⟩) fun lines => ?_
          exact .kept .reported Nat.one_ne_zero fun _ _ hn => hn
  clear_value rest
  cases houtput : r.output with
  | some path => exact hrest path (by rw [CreateRequest.destination, houtput])
  | none =>
    have hdestination : r.destination s.files = s.files.projectConfig none := by
      rw [CreateRequest.destination, houtput]
    cases hconfig : s.files.projectConfig none with
    | error fault =>
      rw [bind_run_error (query_run_error hconfig)]
      exact .kept _ Nat.one_ne_zero fun _ _ hn => hn
    | ok path =>
      rw [bind_run_ok (query_run_ok hconfig)]
      exact hrest path (hdestination.trans hconfig)

end Command

/-! ### The law -/

/-- Where nothing is to be replaced, creating a configuration changes no entry, however it ends,
unless its path hides one. If it ends well, a configuration without entries for projects is loaded
from the path, with every policy or with the usual one. Only if the path names a link, which was
hidden or to be replaced, there must still be a directory above the path: it may have passed that
link. -/
theorem runProgram_create_keeps (env : Environment) (tools : Tools FileSystem) (fs : FileSystem)
    {arguments : List String} {settings : Settings} {r : CreateRequest}
    (hrequest : readRequest arguments = .ok (settings, .create r)) :
    let ended := runProgram env tools arguments fs
    (r.force = false → (∀ path, r.destination fs = .ok path → ¬ fs.HidesEntry path) →
      ∀ k node, fs.store.get? k = some node → ended.2.files.store.get? k = some node) ∧
    (exitCode ended.1 = 0 → ∃ path, r.destination fs = .ok path ∧
      (((fs.makeDirectories path.parent).2.isLink path = .ok true →
          ended.2.files.isDirectory path.parent = .ok true) →
        ∃ config, ended.2.files.loadConfig path = .ok config ∧ config.overrides = [] ∧
          config.policies = if r.everyPolicy then .all else .ofList [.nestedVendor])) := by
  intro ended
  have hended : ended = (Command.createConfig r).run ⟨fs, []⟩ :=
    Command.runProgram_of_request hrequest
  have hends : CreateEnds fs r ended := hended ▸ Command.createConfig_ends r ⟨fs, []⟩
  clear_value ended
  cases hends with
  | kept halt fails within => exact ⟨fun _ _ => within, fun hcode => absurd hcode fails⟩
  | written outcome destination allowed puts =>
    refine ⟨fun hforce hhides => ?_, fun _ => ⟨_, destination, fun hled => ?_⟩⟩
    · have hexists := allowed.resolve_left (by simp [hforce])
      exact puts.within_of_not_hidesEntry hexists (hhides _ destination)
    · exact ⟨r.config, FileSystem.loadConfig_of_entryAt (puts.entryAt hled), r.config_empty⟩

/-- A directory with a configuration that someone has written. -/
def besideConfig : FileSystem where
  store := [(["w"], "c.toml", .file "[prune]\ngo-tests = true\n".toUTF8)].foldl
    (fun s (entry : Key × String × Node) => s.insert entry.1 entry.2.1 entry.2.2)
    (Store.empty.insert [] "w" .directory)
  here := ⟨["w"], 0⟩

/-- A configuration with every policy is created in a directory that is new, beside another one. -/
theorem runProgram_create_keeps_other :
    let arguments := ["init", "--all", "-o", "new/c.toml"]
    let path := Path.ofString "new/c.toml"
    let ended := runProgram ⟨"/w/home", none⟩ (diskTools [] .standard) arguments besideConfig
    readRequest arguments = .ok ({}, .create { output := some path, everyPolicy := true }) ∧
      exitCode ended.1 = 0 ∧
      ended.2.files.store.get? ["w", "c.toml"] = some (.file "[prune]\ngo-tests = true\n".toUTF8) ∧
      ∃ config, ended.2.files.loadConfig path = .ok config ∧ config.overrides = [] ∧
        config.policies = .all := by
  intro arguments path
  dsimp only
  have hrequest : readRequest arguments =
      .ok ({}, .create { output := some path, everyPolicy := true }) := rfl
  have hcode : exitCode (runProgram ⟨"/w/home", none⟩ (diskTools [] .standard) arguments
    besideConfig).1 = 0 := by decide +kernel
  obtain ⟨hkeeps, hloads⟩ :=
    runProgram_create_keeps ⟨"/w/home", none⟩ (diskTools [] .standard) besideConfig hrequest
  obtain ⟨found, hfound, hload⟩ := hloads hcode
  obtain rfl : path = found := Except.ok.inj hfound
  obtain ⟨config, hconfig, hempty, hpolicies⟩ := hload fun hlink =>
    absurd (congrArg Except.toOption hlink) (by decide +kernel)
  refine ⟨hrequest, hcode, ?_, config, hconfig, hempty, hpolicies.trans (if_pos rfl)⟩
  refine hkeeps rfl (fun found hfound hhides => ?_) _ _ (by decide +kernel)
  obtain rfl : path = found := Except.ok.inj hfound
  exact absurd (congrArg Except.toOption hhides.2) (by decide +kernel)

/-- The directory that the path goes through is not there, so nothing is found at the path, and the
configuration to which it leads once there is one is replaced unasked. -/
theorem runProgram_create_overwrites :
    let arguments := ["init", "-o", "/w/new/../c.toml"]
    let path := Path.ofString "/w/new/../c.toml"
    let ended := runProgram ⟨"/w/home", none⟩ (diskTools [] .standard) arguments besideConfig
    readRequest arguments = .ok ({}, .create { output := some path }) ∧ exitCode ended.1 = 0 ∧
      besideConfig.store.get? ["w", "c.toml"] = some (.file "[prune]\ngo-tests = true\n".toUTF8) ∧
      ended.2.files.store.get? ["w", "c.toml"] = some (.file Config.standard.write.toUTF8) ∧
      Config.standard.write ≠ "[prune]\ngo-tests = true\n" := by
  intro arguments path ended
  exact ⟨rfl, by decide +kernel⟩

end VendorTree
