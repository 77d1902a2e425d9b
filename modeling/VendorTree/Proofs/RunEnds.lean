import VendorTree.Proofs.Containment
import VendorTree.Proofs.PassedCalls
import VendorTree.Proofs.PlanLoop

/-!
# How a run ends

A run comes to a result, stops at a call that the system refuses in a stage, or makes no listing and
then leaves everything as it was. No fault escapes it but one of the test whether there is a
directory at its root, which no stage and no listing accounts for.
-/

namespace VendorTree

/-! ### Stages -/

section Runs

variable {fs : FileSystem} {faults : List (String × Fault)} {rule : PreservationRule}
  {root r : Path} {used : List String} {policies : PolicySet} {journal : List Record}

theorem failingOn_passed {remove : Remover FileSystem} {p : Path} {run : Run FileSystem}
    (hfaults : ∀ f ∈ faults, f.2 ≠ .unusable) (h : Passed (remove p run).1) :
    Passed (failingOn faults remove p run).1 := by
  unfold failingOn
  cases hfault : faults.lookup p.text with
  | none => exact h
  | some fault =>
    obtain ⟨before, after, rfl, -⟩ := List.lookup_eq_some_iff.1 hfault
    have hcall : fault ≠ .unusable := hfaults (p.text, fault) (by simp)
    exact fun hfails => hcall (Except.error.inj hfails)

theorem unlessMissing_passed {a : Action Fault FileSystem Unit} {run : Run FileSystem}
    (h : Passed (a run).1) : Passed (Action.unlessMissing a run).1 := by
  rcases ha : a run with ⟨fault | _, run'⟩
  · rw [ha] at h
    rw [Action.unlessMissing_run_error ha]
    split
    · exact .ok _
    · exact h.of_error
  · rw [Action.unlessMissing_run_ok ha]
    exact .ok _

/-- A planned removal can be passed to the system if its path can, and fails then with what the
system says. -/
theorem attempt_passed (hfaults : ∀ f ∈ faults, f.2 ≠ .unusable) {e : Planned}
    (hnul : '\x00' ∉ e.path.text.toList) (run : Run FileSystem) :
    Passed ((diskTools faults rule).attempt e run).1 := by
  have hremoval : ∀ run, Passed ((diskTools faults rule).removal e run).1 := by
    intro run
    unfold Tools.removal
    cases e.stage.remover with
    | entry =>
      refine failingOn_passed hfaults ?_
      rw [diskRemove_run]
      have hremove := FileSystem.removePath_passed hnul run.world
      cases hdone : run.world.removePath e.path with
      | error fault =>
        rw [hdone] at hremove
        exact hremove.of_error
      | ok fs' => exact .ok _
    | tree => exact failingOn_passed hfaults (FileSystem.removeTree_passed hnul run.world)
  unfold Tools.attempt
  split
  -- the sweep makes two calls, and a fault of the first one ends it
  · have hask := FileSystem.holdsEntry_passed hnul run.world
    have hrun : (diskTools faults rule).holdsEntry e.path run =
      (run.world.holdsEntry e.path, run) := rfl
    cases hholds : run.world.holdsEntry e.path with
    | error fault =>
      rw [hholds] at hask hrun
      rw [Action.bind_run_error hrun]
      exact hask.of_error
    | ok holds =>
      rw [hholds] at hrun
      rw [Action.bind_run_ok hrun]
      cases holds with
      | true => exact .ok _
      | false => exact unlessMissing_passed (hremoval run)
  · exact unlessMissing_passed (hremoval run)

/-- If each planned removal can be passed to the system, the loop over the plan is ended by nothing
but a refused call of one of its stages. -/
theorem runPlan_ends {t : Tools FileSystem} {plan : List Planned}
    (h : ∀ e ∈ plan, ∀ run, Passed (t.attempt e run).1) (run : Run FileSystem) :
    (∃ removed, (t.runPlan plan run).1 = .ok removed) ∨
      ∃ e ∈ plan, ∃ cause, (t.runPlan plan run).1 = .error (.stage e.stage cause) := by
  induction plan generalizing run with
  | nil => exact .inl ⟨[], rfl⟩
  | cons e rest ih =>
    have hrest := ih (fun e' he' => h e' (List.mem_cons_of_mem e he'))
    have hfirst := h e List.mem_cons_self run
    rcases hdone : t.attempt e run with ⟨fault | gone, run'⟩
    · rw [hdone] at hfirst
      rw [runPlan_cons_error hdone]
      cases fault with
      | unusable => exact absurd rfl hfirst
      | call cause => exact .inr ⟨e, List.mem_cons_self, cause, rfl⟩
    · rw [runPlan_cons_ok hdone]
      rcases hrest run' with ⟨removed, hremoved⟩ | ⟨e', he', cause, hends⟩
      · exact .inl ⟨_, by rw [hremoved]; rfl⟩
      · exact .inr ⟨e', List.mem_cons_of_mem e he', cause, by rw [hends]; rfl⟩

theorem pruneListing_ends {t : Tools FileSystem} (hblind : t.Blind) {l : Listing}
    (h : ∀ e ∈ l.plan t.findVendors t.rule used policies, ∀ run, Passed (t.attempt e run).1)
    (run : Run FileSystem) :
    (∃ result, (t.pruneListing l used policies run).1 = .ok result) ∨
      ∃ stage cause, (t.pruneListing l used policies run).1 = .error (.stage stage cause) := by
  obtain ⟨hagree, -⟩ := pruneListing_matches_runPlan hblind l used policies run run rfl
  generalize (t.pruneListing l used policies run).1 = outcome at hagree
  rcases runPlan_ends h run with ⟨removed, hremoved⟩ | ⟨e, -, cause, hstopped⟩
  · rw [hremoved] at hagree
    cases hagree with
    | ok hresult => exact .inl ⟨_, rfl⟩
  · rw [hstopped] at hagree
    cases hagree with
    | error => exact .inr ⟨_, _, rfl⟩

/-! ### Listings -/

/-- No listing of the directory at a path can be made: no directory is there, or one of the real
directories of its tree cannot be opened. -/
def FileSystem.Unlistable (fs : FileSystem) (root : Path) : Prop :=
  (∀ key, fs.entryAt true root ≠ .ok (key, .directory)) ∨
    ∃ base names fault, fs.entryAt true root = .ok (some base, .directory) ∧
      fs.store.get? (base ++ names) = some .directory ∧
      fs.openDirectory (root.below names) = .error fault

theorem FileSystem.viewDirectory_error {p : Path} {fault : Fault}
    (h : fs.viewDirectory p = .error fault) : fs.openDirectory p = .error fault := by
  cases hopen : fs.openDirectory p with
  | error fault' =>
    rw [viewDirectory, hopen] at h
    exact congrArg Except.error (Except.error.inj h)
  | ok key =>
    obtain ⟨view, hview, -⟩ := viewDirectory_ok hopen
    simp [hview] at h

/-- Visits that meet a directory that cannot be opened end at one. -/
theorem visitAll_run_error {visited : List (List String)} (run : Run FileSystem)
    (h : ∃ names ∈ visited, ∀ v, run.world.viewDirectory (root.below names) ≠ .ok v) :
    ∃ names ∈ visited, ∃ fault journal', run.world.openDirectory (root.below names) = .error fault ∧
      visitAll root visited run = (.error (RunFault.inSnapshot fault), ⟨run.world, journal'⟩) := by
  induction visited generalizing run with
  | nil => simp at h
  | cons names rest ih =>
    cases hview : run.world.viewDirectory (root.below names) with
    | error fault =>
      exact ⟨names, List.mem_cons_self, fault, run.journal, FileSystem.viewDirectory_error hview,
        Action.bind_run_error (Action.mapError_query_run_error hview)⟩
    | ok view =>
      have hfirst : Action.mapError RunFault.inSnapshot
          (Action.query (·.viewDirectory (root.below names))) run = (.ok view, run) :=
        Action.mapError_query_run hview
      obtain ⟨journal, hnotes⟩ := noteLinks_run root
        (view.directoryLinks.map fun n => entryText (names ++ [n])) run
      have hlater : ∃ names ∈ rest, ∀ v, run.world.viewDirectory (root.below names) ≠ .ok v := by
        obtain ⟨names', hmem, hnone⟩ := h
        rcases List.mem_cons.1 hmem with rfl | hmem
        · exact absurd hview (hnone view)
        · exact ⟨names', hmem, hnone⟩
      obtain ⟨names', hmem, fault, journal', hopen, hends⟩ := ih ⟨run.world, journal⟩ hlater
      refine ⟨names', List.mem_cons_of_mem _ hmem, fault, journal', hopen, ?_⟩
      exact (Action.bind_run_ok hfirst).trans
        ((Action.bind_run_ok hnotes).trans (Action.bind_run_error hends))

theorem FileSystem.key_of_absolute {node : Node} {key : Option Key} (h : r.isAbsolute = true)
    (hentry : fs.entryAt true r = .ok (key, node)) : ∃ base, key = some base := by
  cases key with
  | some base => exact ⟨base, rfl⟩
  | none =>
    obtain ⟨-, hleads, -⟩ := FileSystem.entryAt_ok hentry
    rw [FileSystem.start, if_pos h, Store.walkFrom_of_notLost] at hleads
    exact absurd hleads (Store.walk_ne_lost _ _ _ _)

/-- A directory below one that can be passed to a call is opened, or the system refuses it. -/
theorem FileSystem.exists_failure_below {base : Key} {names : List String} {fault : Fault}
    (htext : r.checkText = .ok ()) (hn : fs.store.get? (base ++ names) = some .directory)
    (hopen : fs.openDirectory (r.below names) = .error fault) :
    ∃ failure, fault = .call failure := by
  have hnamed := Store.isEntryName_of_get? (Option.isSome_of_eq_some hn)
  have hnul := nul_notMem_below htext fun n hm => hnamed n (List.mem_append_right _ hm)
  cases fault with
  | call failure => exact ⟨failure, rfl⟩
  | unusable => exact absurd hopen (openDirectory_passed hnul fs)

/-- If the root is opened, the listing is made, or it is missed because of a directory below, and
nothing is changed. -/
theorem diskSnapshot_ends_of_open {base : Key} (habs : fs.absolute root = .ok r)
    (hopen : fs.openDirectory r = .ok (some base)) (journal : List Record) :
    (∃ l run, diskSnapshot root ⟨fs, journal⟩ = (.ok l, run) ∧
      ∀ names, fs.store.get? (base ++ names) = some .directory →
        ∃ key, fs.openDirectory (r.below names) = .ok key) ∨
    ∃ names failure journal', fs.store.get? (base ++ names) = some .directory ∧
      fs.openDirectory (r.below names) = .error (.call failure) ∧
      diskSnapshot root ⟨fs, journal⟩ =
        (.error (.snapshot (.unreadable failure)), ⟨fs, journal'⟩) := by
  obtain ⟨htext, -, hdir⟩ := FileSystem.openDirectory_ok hopen
  have hvisited := FileSystem.mem_visited (hdir base rfl)
  rw [diskSnapshot_run_of_open habs hopen]
  by_cases hview : ∃ names ∈ [] :: fs.namesBelow (some base),
      ∀ v, fs.viewDirectory (r.below names) ≠ .ok v
  · obtain ⟨names, hmem, fault, journal', hfails, hends⟩ :=
      visitAll_run_error ⟨fs, journal⟩ hview
    have hn := (hvisited names).1 hmem
    obtain ⟨failure, rfl⟩ := FileSystem.exists_failure_below htext hn hfails
    exact .inr ⟨names, failure, journal', hn, hfails, Action.bind_run_error hends⟩
  · have hseen : ∀ names ∈ [] :: fs.namesBelow (some base),
        ∃ v, fs.viewDirectory (r.below names) = .ok v := by
      intro names hmem
      cases hv : fs.viewDirectory (r.below names) with
      | ok v => exact ⟨v, rfl⟩
      | error fault => exact absurd ⟨names, hmem, by simp [hv]⟩ hview
    obtain ⟨l, journal', hvisits, -⟩ := visitAll_run (r := ⟨fs, journal⟩) hseen
    refine .inl ⟨l, _, Action.bind_run_ok hvisits, fun names hn => ?_⟩
    obtain ⟨v, hv⟩ := hseen names ((hvisited names).2 hn)
    exact FileSystem.openDirectory_of_viewDirectory hv

/-- If the test of the root comes to an answer, the listing is made, or it is missed for a reason of
its own and nothing is changed; it is missed exactly if it cannot be made. -/
theorem diskSnapshot_ends {isDir : Bool} (habs : fs.absolute root = .ok r)
    (hdir : fs.isDirectory r = .ok isDir) (journal : List Record) :
    (∃ l run, diskSnapshot root ⟨fs, journal⟩ = (.ok l, run) ∧ ¬ fs.Unlistable r) ∨
      ∃ fault journal', diskSnapshot root ⟨fs, journal⟩ =
        (.error (.snapshot fault), ⟨fs, journal'⟩) ∧ fs.Unlistable r := by
  cases isDir with
  | false =>
    refine .inr ⟨.notDirectory r, journal, diskSnapshot_run_of_noDirectory habs hdir journal,
      .inl fun key hentry => ?_⟩
    simp [FileSystem.isDirectory, FileSystem.holds, hentry] at hdir
  | true =>
    obtain ⟨key, hentry⟩ := FileSystem.entryAt_of_isDirectory hdir
    obtain ⟨base, rfl⟩ := FileSystem.key_of_absolute (FileSystem.isAbsolute_of_absolute habs) hentry
    obtain ⟨htext, hleads, hnode⟩ := FileSystem.entryAt_ok hentry
    have hroot : fs.store.get? (base ++ []) = some .directory := by
      rw [List.append_nil]
      exact hnode base rfl
    cases hopen : fs.openDirectory r with
    | error fault =>
      -- the root itself is the first directory that is visited
      have hbelow : fs.openDirectory (r.below []) = .error fault := by rwa [Path.below_nil]
      obtain ⟨failure, rfl⟩ := FileSystem.exists_failure_below htext hroot hbelow
      exact .inr ⟨_, journal, diskSnapshot_run_of_unopened habs hdir hopen journal,
        .inr ⟨base, [], _, hentry, hroot, hbelow⟩⟩
    | ok key =>
      obtain rfl : key = some base := by
        have hkey := (FileSystem.openDirectory_ok hopen).2.1
        rw [hleads] at hkey
        cases key with
        | none => simp at hkey
        | some key => simpa using hkey.symm
      rcases diskSnapshot_ends_of_open habs hopen journal with ⟨l, run, hmade, hall⟩ |
        ⟨names, failure, journal', hn, hfails, hends⟩
      · refine .inl ⟨l, run, hmade, ?_⟩
        rintro (hnone | ⟨base', names, fault, hentry', hn, hfails⟩)
        · exact hnone _ hentry
        · obtain rfl : base' = base := by
            rw [hentry] at hentry'
            simpa using hentry'.symm
          obtain ⟨key, hkey⟩ := hall names hn
          simp [hfails] at hkey
      · exact .inr ⟨.unreadable failure, journal', hends, .inr ⟨base, names, _, hentry, hn, hfails⟩⟩

/-! ### Runs -/

/-- How a run from a file system ends. -/
inductive Ends (fs : FileSystem) : Except RunFault RunResult × Run FileSystem → Prop
  | completed (result : RunResult) (run : Run FileSystem) : Ends fs (.ok result, run)
  /-- There is no listing, and the file system is as it was. -/
  | unlisted (fault : SnapshotFault) (journal : List Record) :
    Ends fs (.error (.snapshot fault), ⟨fs, journal⟩)
  /-- The system refused a call of a stage. -/
  | stopped (stage : Stage) (cause : CallFailure) (run : Run FileSystem) :
    Ends fs (.error (.stage stage cause), run)

/-- A run ends with a result, at a refused call of a stage, or without a listing and with nothing
changed, if the test of its root comes to an answer; and it is without a listing exactly if there is
no directory at the root or one in its tree cannot be opened. -/
theorem prune_ends (fs : FileSystem) (faults : List (String × Fault)) (rule : PreservationRule)
    (root r : Path) (used : List String) (policies : PolicySet) (journal : List Record)
    (isDir : Bool) (hfaults : ∀ f ∈ faults, f.2 ≠ .unusable) (habs : fs.absolute root = .ok r)
    (hdir : fs.isDirectory r = .ok isDir) :
    let ended := (diskTools faults rule).prune root used policies ⟨fs, journal⟩
    Ends fs ended ∧ ((∃ fault, ended.1 = .error (.snapshot fault)) ↔ fs.Unlistable r) := by
  intro ended
  rcases diskSnapshot_ends habs hdir journal with ⟨l, run, hmade, hlistable⟩ |
    ⟨fault, journal', hmissed, hunlistable⟩
  · have hended : ended = (diskTools faults rule).pruneListing l used policies run :=
      Tools.prune_run hmade used policies
    obtain ⟨hworld, habs', hdescribes⟩ := diskSnapshot_ok hmade
    obtain rfl : r = l.root := Except.ok.inj (habs.symm.trans habs')
    have hplan : ∀ e ∈ l.plan Listing.nestedVendors rule used policies,
        '\x00' ∉ e.path.text.toList := by
      rcases hdescribes with ⟨base, hopen, hl⟩ | ⟨-, hnone⟩
      · intro e he
        obtain ⟨names, node, -, hn, hpath⟩ := exists_names_of_mem_plan hl he rfl
        have hnamed := Store.isEntryName_of_get? (Option.isSome_of_eq_some hn)
        rw [hpath]
        exact FileSystem.nul_notMem_below (FileSystem.openDirectory_ok hopen).1
          fun n hm => hnamed n (List.mem_append_right _ hm)
      · rw [plan_of_empty hnone]
        simp
    have hstages := pruneListing_ends (diskTools_blind faults rule)
      (fun e he => attempt_passed hfaults (hplan e he)) run
    rw [← hended] at hstages
    obtain ⟨outcome, run'⟩ := ended
    rcases hstages with ⟨result, rfl⟩ | ⟨stage, cause, rfl⟩
    · exact ⟨.completed _ _, iff_of_false (by simp) hlistable⟩
    · exact ⟨.stopped _ _ _, iff_of_false (by simp) hlistable⟩
  · have hended : ended = (.error (.snapshot fault), ⟨fs, journal'⟩) :=
      Action.bind_run_error hmissed
    rw [hended]
    exact ⟨.unlisted fault journal', iff_of_true ⟨fault, rfl⟩ hunlistable⟩

/-- A project in which a directory cannot be listed. -/
def unreadableProject : FileSystem := { linkedProject with refused := ["/w/here/dep"] }

/-- The run on a project with a directory that cannot be listed makes no listing, whatever links lie
in it, and changes nothing. -/
theorem prune_ends_unreadable :
    unreadableProject.absolute (Path.ofString "here") = .ok (Path.ofString "/w/here") ∧
      unreadableProject.isDirectory (Path.ofString "/w/here") = .ok true ∧
      ∃ fault journal, (diskTools [("/w/here/x_test.go", .call ⟨.busy, []⟩)] .standard).prune
          (Path.ofString "here") [] .all ⟨unreadableProject, []⟩ =
        (.error (.snapshot fault), ⟨unreadableProject, journal⟩) := by
  have habs : unreadableProject.absolute (Path.ofString "here") = .ok (Path.ofString "/w/here") :=
    ok_of_toOption (by decide +kernel)
  have hdir : unreadableProject.isDirectory (Path.ofString "/w/here") = .ok true :=
    ok_of_toOption (by decide +kernel)
  have hentry : unreadableProject.entryAt true (Path.ofString "/w/here") =
      .ok (some ["w", "p"], .directory) := ok_of_toOption (by decide +kernel)
  have hrefused : unreadableProject.openDirectory ((Path.ofString "/w/here").below ["dep"]) =
      refuse ((Path.ofString "/w/here").below ["dep"]) .accessDenied := if_pos (by decide +kernel)
  obtain ⟨hends, hmissed⟩ := prune_ends unreadableProject [("/w/here/x_test.go", .call ⟨.busy, []⟩)]
    .standard _ _ [] .all [] true (by simp) habs hdir
  obtain ⟨fault, hfault⟩ := hmissed.2
    (.inr ⟨["w", "p"], ["dep"], _, hentry, by decide +kernel, hrefused⟩)
  refine ⟨habs, hdir, ?_⟩
  generalize (diskTools _ _).prune _ _ _ _ = ended at hends hfault
  cases hends with
  | completed result run => simp at hfault
  | unlisted fault journal => exact ⟨fault, journal, rfl⟩
  | stopped stage cause run => simp at hfault

theorem prune_escapes (fs : FileSystem) (faults : List (String × Fault)) (rule : PreservationRule)
    (root : Path) (used : List String) (policies : PolicySet)
    (journal : List Record) {fault : Fault}
    (h : fs.absolute root = .error fault ∨
      ∃ r, fs.absolute root = .ok r ∧ fs.isDirectory r = .error fault) :
    (diskTools faults rule).prune root used policies ⟨fs, journal⟩ =
      (.error (.escaped fault), ⟨fs, journal⟩) := by
  have hsnapshot : diskSnapshot root ⟨fs, journal⟩ = (.error (.escaped fault), ⟨fs, journal⟩) := by
    rcases h with habs | ⟨r, habs, hdir⟩
    · exact Action.bind_run_error (Action.mapError_query_run_error habs)
    · exact (Action.bind_run_ok (Action.mapError_query_run habs)).trans
        (Action.bind_run_error (Action.mapError_query_run_error hdir))
  exact Action.bind_run_error hsnapshot

/-- In a directory, no name can be looked for that is too long for an entry. -/
theorem FileSystem.isDirectory_overlong {dir : Path} {base : Key} {name : String}
    (hdir : fs.entryAt true dir = .ok (some base, .directory)) (hslash : '/' ∉ name.toList)
    (hlong : nameLimit < name.utf8ByteSize) (htext : (dir.below [name]).checkText = .ok ()) :
    fs.isDirectory (dir.below [name]) = refuse (dir.below [name]) .nameTooLong := by
  have hnamed : ∀ n ∈ [name], IsPathName n ∧ n ≠ ".." := by
    intro n hn
    obtain rfl := List.mem_singleton.1 hn
    refine ⟨⟨?_, ?_, hslash⟩, ?_⟩ <;> rintro rfl <;> revert hlong <;> decide
  obtain ⟨-, hleads, hbase⟩ := entryAt_ok hdir
  have hstart : fs.start (dir.below [name]) = fs.start dir := rfl
  have hway : fs.store.walkFrom true (fs.start (dir.below [name])) (dir.below [name]).steps =
      .error .nameTooLong := by
    rw [hstart, Path.steps_below dir hnamed]
    refine Store.walkFrom_append (by simp) hleads fun links => ?_
    obtain ⟨jump, hjump⟩ := Store.walk_eq_walkOn fs.store true links
    rw [hjump, List.map_cons, Store.walkOn, hbase base rfl]
    simp only [hlong, if_true]
  have hentry : fs.entryAt true (dir.below [name]) = refuse (dir.below [name]) .nameTooLong := by
    rw [entryAt, locate, htext, hway]
    rfl
  rw [isDirectory, holds, hentry]
  rfl

/-- Where the last name of the root is too long for an entry, no directory is there, but no listing
is said to be missed for that. -/
theorem prune_escapes_overlong (fs : FileSystem) (faults : List (String × Fault))
    (rule : PreservationRule) (used : List String) (policies : PolicySet) (journal : List Record)
    {dir : Path} {base : Key} {name : String}
    (hdir : fs.entryAt true dir = .ok (some base, .directory)) (habs : dir.isAbsolute = true)
    (hslash : '/' ∉ name.toList) (hlong : nameLimit < name.utf8ByteSize)
    (htext : (dir.below [name]).checkText = .ok ()) :
    fs.Unlistable (dir.below [name]) ∧
      (diskTools faults rule).prune (dir.below [name]) used policies ⟨fs, journal⟩ =
        (.error (.escaped (.call ⟨.nameTooLong, [(dir.below [name]).text]⟩)), ⟨fs, journal⟩) := by
  have hfails := FileSystem.isDirectory_overlong hdir hslash hlong htext
  refine ⟨.inl fun key hentry => ?_, prune_escapes fs faults rule _ used policies journal
    (.inr ⟨_, if_pos habs, hfails⟩)⟩
  simp [FileSystem.isDirectory, FileSystem.holds, hentry, refuse] at hfails

end Runs

end VendorTree
