import VendorTree.Proofs.PlanLoop
import VendorTree.Proofs.PlannedRuns

/-!
# Runs by key

A root may be written in any way that leads to its directory: from the current directory, with dots,
or through links. As long as it leads there, the calls of a run are about the entries of that
directory, whatever the root is, so each planned removal is one by key.
-/

namespace VendorTree

variable {fs fs' : FileSystem} {root : Path} {base : Key} {names : List String} {node : Node}
  {touched : Key → Prop}

/-! ### Roots that are spelled in any way -/

namespace FileSystem

/-- The path leads to the directory at the key. -/
def Denotes (fs : FileSystem) (p : Path) (base : Key) : Prop :=
  fs.entryAt true p = .ok (some base, .directory)

namespace Denotes

theorem text (h : fs.Denotes root base) : root.checkText = .ok () := (entryAt_ok h).1

theorem leads (h : fs.Denotes root base) :
    fs.store.walkFrom true (fs.start root) root.steps = .ok (.entry base) := (entryAt_ok h).2.1

theorem directory (h : fs.Denotes root base) : fs.store.get? base = some .directory :=
  (entryAt_ok h).2.2 base rfl

theorem of_leads (htext : root.checkText = .ok ())
    (hleads : fs.store.walkFrom true (fs.start root) root.steps = .ok (.entry base))
    (hdir : fs.store.get? base = some .directory) : fs.Denotes root base := by
  rw [Denotes, entryAt, locate, htext, hleads]
  simp only [bind, Except.bind, hdir]

theorem of_within (habs : root.isAbsolute = true) (hs : fs'.store.Within fs.store)
    (h : fs'.Denotes root base) : fs.Denotes root base :=
  of_leads h.text (leads_of_within hs habs h.leads) (hs _ _ h.directory)

theorem leadsNowhere {follow : Bool} (h : fs.Denotes root base)
    (hn : fs.store.get? (base ++ names) = none) (hnames : ∀ n ∈ names, IsEntryName n)
    (hway : ∀ a b, names = a ++ b → b ≠ [] →
      fs.store.get? (base ++ a) = some .directory ∨ fs.store.get? (base ++ a) = none) :
    Store.LeadsNowhere
      (fs.store.walkFrom follow (fs.start root) (root.steps ++ names.map Step.enter)) := by
  have hne : names ≠ [] := by
    rintro rfl
    rw [List.append_nil, h.directory] at hn
    simp at hn
  exact Store.walkFrom_append_of (P := Store.LeadsNowhere) (by simpa using hne) h.leads fun links =>
    Store.walk_enter_missing h.directory hn hway hnames

theorem finds_below (h : fs.Denotes root base) (hne : names ≠ [])
    (hnames : ∀ n ∈ names, IsEntryName n)
    (hlen : (root.below names).text.utf8ByteSize < pathLimit)
    (hway : ∀ a b, names = a ++ b → b ≠ [] →
      fs.store.get? (base ++ a) = some .directory ∨ fs.store.get? (base ++ a) = none) :
    fs.Finds (root.below names) (base ++ names) := by
  have hstart : fs.start (root.below names) = fs.start root := rfl
  have hsteps : ∀ names : List String, (∀ n ∈ names, IsEntryName n) →
      (root.below names).steps = root.steps ++ names.map Step.enter :=
    fun names hnames => Path.steps_below root fun n hn => ⟨(hnames n hn).1, (hnames n hn).2.1⟩
  obtain ⟨front, x, rfl⟩ := Key.exists_concat hne
  have hfront : ∀ n ∈ front, IsEntryName n := fun n hn => hnames n (List.mem_append_left _ hn)
  have hall := Path.names_below root fun n hn => (hnames n hn).1
  refine ⟨checkText_below h.text hnames hlen, fun hn hnode => walkFrom_below h.leads hn hne hnode,
    fun hn => ?_, fun hkey => ?_, fun hkey => ?_⟩
  · rw [hstart, hsteps _ hnames]
    exact h.leadsNowhere hn hnames hway
  all_goals
    rw [← List.append_assoc] at hkey
    obtain ⟨rfl, hlast⟩ := List.append_inj' hkey rfl
    obtain rfl := List.singleton_inj.1 hlast
  · have hentry := hnames x (by simp)
    refine ⟨by simp [hall], ?_, hentry⟩
    obtain ⟨⟨hempty, hdot, -⟩, hup, -⟩ := hentry
    simp [Path.lastStep, hall, Step.ofPiece, hempty, hdot, hup]
  -- the directory in which the last name is looked up may be the root itself
  · have hinit : (root.below (front ++ [x])).steps.dropLast =
        root.steps ++ front.map Step.enter := by
      rw [hsteps _ hnames, List.map_append, ← List.append_assoc]
      exact List.dropLast_concat
    rw [hstart, hinit]
    refine (hway front [x] rfl (by simp)).imp (fun hdir => ⟨hdir, ?_⟩) fun hgone => ⟨hgone, ?_⟩
    · by_cases hnil : front = []
      · subst hnil
        simpa using h.leads
      · have hwalk := walkFrom_below h.leads hdir hnil (.inl (by simp) : _ ∨ true = false)
        rwa [hsteps front hfront] at hwalk
    · refine h.leadsNowhere hgone hfront fun a b hab hb => ?_
      exact hway a (b ++ [x]) (by rw [hab, List.append_assoc]) (by simp)

end Denotes

/-- A directory under some path, in which under that path every directory can be listed and no path
is too long for a call. -/
structure ReadableAs (fs : FileSystem) (root : Path) (base : Key) : Prop where
  absolute : root.isAbsolute = true
  denotes : fs.Denotes root base
  short : ∀ names, (fs.store.get? (base ++ names)).isSome →
    (root.below names).text.utf8ByteSize < pathLimit
  listed : ∀ names, fs.store.get? (base ++ names) = some .directory →
    (root.below names).text ∉ fs.refused

theorem ReadableAs.listable (h : fs.ReadableAs root base) : fs.Listable root base := by
  have hopen : fs.openDirectory root = .ok (some base) := by
    have hlisted := h.listed [] (by rw [List.append_nil]; exact h.denotes.directory)
    rw [Path.below_nil] at hlisted
    exact openDirectory_of_entryAt hlisted h.denotes
  refine ⟨h.denotes.directory, fun names hn => ?_, fun names target hn => ?_⟩
  · by_cases hne : names = []
    · rw [hne, Path.below_nil, List.append_nil, hopen]
    · exact openDirectory_of_entryAt (h.listed names hn) (entryAt_below hopen hn hne
        (h.short names (Option.isSome_of_eq_some hn)) (by simp))
  · refine seesLink_below hopen hn ?_ (h.short names (Option.isSome_of_eq_some hn))
    rintro rfl
    rw [List.append_nil, h.denotes.directory] at hn
    simp at hn

theorem readableAs_of_entries (habs : root.isAbsolute = true) (hroot : fs.Denotes root base)
    (hentries : ∀ k ∈ [] :: fs.store.entries.map Prod.fst, base <+: k →
      (root.below (k.drop base.length)).text.utf8ByteSize < pathLimit ∧
        (root.below (k.drop base.length)).text ∉ fs.refused) : fs.ReadableAs root base where
  absolute := habs
  denotes := hroot
  short _ hn := (forall_path_of_entries hentries hn).1
  listed _ hn := (forall_path_of_entries hentries (Option.isSome_of_eq_some hn)).2

/-- What was in the directory at the beginning is found by its path as long as the root leads
there. -/
theorem ReadableAs.finds (h : fs.ReadableAs root base) (hs : fs'.store.Within fs.store)
    (hroot : fs'.Denotes root base) (hne : names ≠ [])
    (hn : (fs.store.get? (base ++ names)).isSome) :
    fs'.Finds (root.below names) (base ++ names) := by
  refine hroot.finds_below hne (fun n hm => ?_) (h.short names hn) fun a b hab hb => ?_
  · exact Store.isEntryName_of_get? hn n (List.mem_append_right _ hm)
  · cases ha : fs'.store.get? (base ++ a) with
    | none => exact .inr rfl
    | some node =>
      rw [hab, ← List.append_assoc] at hn
      exact .inl ((hs _ _ ha).symm.trans (Store.get?_above hb hn))

/-! ### Removals by key -/

/-- What becomes of a planned removal of the entry at a key, and whether something is removed. -/
def attemptAt (fs : FileSystem) (stage : Stage) (key : Key) : Bool × FileSystem :=
  match fs.store.get? key with
  | none => (false, fs)
  | some node =>
    if stage.remover = .tree ∧ node = .directory then
      (true, (fs.update (fs.store.clear key)).update ((fs.store.clear key).erase key))
    else if fs.store.children key = [] then (true, fs.update (fs.store.erase key))
    else (false, fs)

end FileSystem

/-- The kinds of entries that a stage removes. -/
def Stage.takes : Stage → EntryKind → Bool
  | .nestedVendor, kind => kind ≠ .file
  | .emptyDirs, kind => kind = .directory
  | _, kind => kind = .file

section Attempts

variable {rule : PreservationRule} {stage : Stage} {r : Run FileSystem} {p : Path} {key : Key}

theorem diskRemoveTree_run (p : Path) (r : Run FileSystem) :
    diskRemoveTree p r = ((r.world.removeTree p).1, { r with world := (r.world.removeTree p).2 }) :=
  rfl

/-- Whether it goes through or not, the removal of a tree leaves nothing below its directory. -/
theorem removeTree_within_clear (h : fs.Finds p key) (hp : fs.store.get? key = some .directory) :
    (fs.removeTree p).2.store.Within (fs.store.clear key) := by
  have hsingle : fs.isSingle p = .ok false := by
    rw [FileSystem.isSingle, h.isLink_some hp (by simp), h.isDirectory_some hp (by simp)]
    rfl
  rw [FileSystem.removeTree, hsingle]
  simp only [FileSystem.removeContents, h.entryAt_some hp (.inr rfl), Option.map_some,
    Option.getD_some]
  split
  · rename_i fs' hremove
    exact (FileSystem.removeDirectory_erases hremove).loses.within
  · exact fun _ _ hn => hn

theorem unlessMissing_run_missing {a : Action Fault FileSystem Unit}
    (h : a r = (refuse p .notFound, r)) : Action.unlessMissing a r = (.ok false, r) := by
  rw [Action.unlessMissing_run_error h]
  rfl

theorem unlessMissing_diskRemove_run (h : r.world.Finds p key) (hne : key ≠ [])
    (hlink : ∀ target, r.world.store.get? key ≠ some (.link target))
    (hempty : r.world.store.children key = []) :
    Action.unlessMissing (diskRemove p) r = (.ok (r.world.store.get? key).isSome, { r with
      world := if (r.world.store.get? key).isSome then r.world.update (r.world.store.erase key)
        else r.world }) := by
  cases hp : r.world.store.get? key with
  | none =>
    have hcall : diskRemove p r = (refuse p .notFound, r) := by
      rw [diskRemove_run, h.removePath_none hp]
      rfl
    exact unlessMissing_run_missing hcall
  | some node =>
    have hnode : ∀ target, node ≠ .link target := by
      rintro target rfl
      exact hlink target hp
    have hcall : diskRemove p r = (.ok (), { r with
        world := r.world.update (r.world.store.erase key) }) := by
      rw [diskRemove_run, h.removePath_some hne hp hempty hnode]
    exact Action.unlessMissing_run_ok hcall

theorem attempt_run_file (h : r.world.Finds p key) (hne : key ≠ [])
    (hstage : stage.remover = .entry)
    (hsweep : stage ≠ .emptyDirs)
    (hkind : ∀ node, r.world.store.get? key = some node → node.kind = .file) :
    (diskTools [] rule).attempt ⟨stage, p⟩ r = (.ok (r.world.attemptAt stage key).1,
      { r with world := (r.world.attemptAt stage key).2 }) := by
  have hattempt : (diskTools [] rule).attempt ⟨stage, p⟩ = Action.unlessMissing (diskRemove p) := by
    rw [Tools.attempt_of_ne hsweep, hstage]
    rfl
  have hempty : r.world.store.children key = [] := by
    refine Store.children_eq_nil_of_ne_directory fun hdir => ?_
    have := hkind _ hdir
    simp [Node.kind] at this
  rw [hattempt, unlessMissing_diskRemove_run h hne (fun target hlink => ?_) hempty,
    FileSystem.attemptAt]
  · cases hp : r.world.store.get? key with
    | none => rfl
    | some node => simp [hstage, hempty]
  · have := hkind _ hlink
    simp [Node.kind] at this

theorem attempt_run_directory (h : r.world.Finds p key) (hne : key ≠ [])
    (hkind : ∀ node, r.world.store.get? key = some node → node = .directory)
    (hlisted : p.text ∉ r.world.refused) :
    (diskTools [] rule).attempt ⟨.emptyDirs, p⟩ r = (.ok (r.world.attemptAt .emptyDirs key).1,
      { r with world := (r.world.attemptAt .emptyDirs key).2 }) := by
  have hattempt : (diskTools [] rule).attempt ⟨.emptyDirs, p⟩ = (do
      if ← diskHoldsEntry p then return false else Action.unlessMissing (diskRemove p)) :=
    Tools.attempt_emptyDirs _ p
  have hask : diskHoldsEntry p r = (.ok (decide (r.world.store.children key ≠ [])), r) := by
    rw [diskHoldsEntry, Action.query_run]
    cases hp : r.world.store.get? key with
    | none =>
      rw [h.holdsEntry_none hp hlisted,
        Store.children_eq_nil_of_ne_directory (by simp [hp])]
      rfl
    | some node =>
      rw [h.holdsEntry_directory (by rw [hp, hkind node hp]) hlisted]
  rw [hattempt, Action.bind_run_ok hask]
  by_cases hempty : r.world.store.children key = []
  · rw [hempty, if_neg (by simp),
      unlessMissing_diskRemove_run h hne (fun target hlink => ?_) hempty, FileSystem.attemptAt]
    · cases hp : r.world.store.get? key with
      | none => rfl
      | some node => simp [Stage.remover, hempty]
    · have := hkind _ hlink
      simp at this
  · have hdir : r.world.store.get? key = some .directory :=
      Decidable.by_contra fun hleaf => hempty (Store.children_eq_nil_of_ne_directory hleaf)
    rw [if_pos (by simp [hempty]), FileSystem.attemptAt, hdir]
    simp [Stage.remover, hempty, Action.pure_run]

theorem attempt_run_tree (h : r.world.Finds p key) (hne : key ≠ [])
    (hkind : ∀ node, r.world.store.get? key = some node → node.kind ≠ .file)
    (hcleared : r.world.store.get? key = some .directory →
      (r.world.update (r.world.store.clear key)).Finds p key) :
    (diskTools [] rule).attempt ⟨.nestedVendor, p⟩ r =
      (.ok (r.world.attemptAt .nestedVendor key).1,
        { r with world := (r.world.attemptAt .nestedVendor key).2 }) := by
  have hattempt : (diskTools [] rule).attempt ⟨.nestedVendor, p⟩ =
      Action.unlessMissing (diskRemoveTree p) := Tools.attempt_of_ne (by decide) _ p
  rw [hattempt, FileSystem.attemptAt]
  cases hp : r.world.store.get? key with
  | none =>
    have hcall : diskRemoveTree p r = (refuse p .notFound, r) := by
      rw [diskRemoveTree_run, h.removeTree_none hp]
    exact unlessMissing_run_missing hcall
  | some node =>
    cases node with
    | file contents => exact absurd rfl (hkind _ hp)
    | directory =>
      refine Action.unlessMissing_run_ok ?_
      rw [diskRemoveTree_run, h.removeTree_directory (hcleared hp) hne hp]
      simp [Stage.remover]
    | link target =>
      have hempty : r.world.store.children key = [] :=
        Store.children_eq_nil_of_ne_directory (by simp [hp])
      have hcall : diskRemoveTree p r = (.ok (), { r with
          world := r.world.update (r.world.store.erase key) }) := by
        rw [diskRemoveTree_run, h.removeTree_link hp]
      rw [Action.unlessMissing_run_ok hcall]
      simp [hempty]

theorem unlessMissing_world (a : Action Fault FileSystem Unit) (r : Run FileSystem) :
    (Action.unlessMissing a r).2 = (a r).2 := by
  rcases ha : a r with ⟨e | _, r₁⟩
  · rw [Action.unlessMissing_run_error ha]
    split <;> rfl
  · rw [Action.unlessMissing_run_ok ha]

theorem attempt_loses (rule : PreservationRule) {e : Planned} (habs : e.path.isAbsolute = true)
    (r : Run FileSystem) :
    LosesOnly r.world (fun _ => True) ((diskTools [] rule).attempt e r).2.world := by
  have hattempt : Action.Maintains (LosesOnly r.world fun _ => True)
      ((diskTools [] rule).attempt e) :=
    attempt_maintains (fun _ => Action.Maintains.query _)
      (removal_losesOnly habs fun _ _ _ _ => trivial)
  exact hattempt r (.refl r.world _)

/-- A planned removal below the root is one by key, if afterwards the root still leads to its
directory. -/
theorem attempt_below (h : fs.ReadableAs root base) (hs : LosesOnly fs (fun _ => True) r.world)
    (hne : names ≠ []) (hn : fs.store.get? (base ++ names) = some node)
    (htakes : stage.takes node.kind = true)
    (hafter : ((diskTools [] rule).attempt ⟨stage, root.below names⟩ r).2.world.Denotes root base) :
    (diskTools [] rule).attempt ⟨stage, root.below names⟩ r =
      (.ok (r.world.attemptAt stage (base ++ names)).1,
        { r with world := (r.world.attemptAt stage (base ++ names)).2 }) := by
  have hroot : r.world.Denotes root base :=
    hafter.of_within h.absolute (attempt_loses rule h.absolute r).within
  have hsome := Option.isSome_of_eq_some hn
  have hfinds := h.finds hs.within hroot hne hsome
  have hkey : base ++ names ≠ [] := by simp [hne]
  have hsame : ∀ node', r.world.store.get? (base ++ names) = some node' → node' = node :=
    fun node' hn' => Option.some.inj ((hs.within _ _ hn').symm.trans hn)
  cases stage with
  | nestedVendor =>
    refine attempt_run_tree hfinds hkey (fun node' hn' => ?_) fun hdir => ?_
    · rw [hsame node' hn']
      simpa [Stage.takes] using htakes
    · -- what is left of the tree after the removal lies in what is left when its contents are gone
      have hworld : ((diskTools [] rule).attempt ⟨.nestedVendor, root.below names⟩ r).2.world =
          (r.world.removeTree (root.below names)).2 := by
        have hattempt : (diskTools [] rule).attempt ⟨.nestedVendor, root.below names⟩ =
            Action.unlessMissing (diskRemoveTree (root.below names)) :=
          Tools.attempt_of_ne (by decide) _ _
        rw [hattempt, unlessMissing_world]
        rfl
      have hcleared : (r.world.update (r.world.store.clear (base ++ names))).Denotes root base := by
        rw [hworld] at hafter
        exact hafter.of_within h.absolute (removeTree_within_clear hfinds hdir)
      exact h.finds ((LosesOnly.clear r.world _).within.trans hs.within) hcleared hne hsome
  | emptyDirs =>
    have hdir : node = .directory := by cases node <;> simp_all [Stage.takes, Node.kind]
    refine attempt_run_directory hfinds hkey (fun node' hn' => (hsame node' hn').trans hdir) ?_
    rw [hs.refused]
    exact h.listed names (hdir ▸ hn)
  | unusedPackages | nonGo | goTests =>
    refine attempt_run_file hfinds hkey rfl (by simp) fun node' hn' => ?_
    rw [hsame node' hn']
    simpa [Stage.takes] using htakes

end Attempts

/-! ### Plans by names -/

/-- Carry out planned removals in a directory by key. The answer holds the names that lead to what
is removed. -/
def FileSystem.carryOut (base : Key) :
    List (Stage × List String) → FileSystem → List (List String) × FileSystem
  | [], fs => ([], fs)
  | e :: rest, fs =>
    let first := fs.attemptAt e.1 (base ++ e.2)
    let later := carryOut base rest first.2
    (if first.1 then e.2 :: later.1 else later.1, later.2)

/-- The entry is one that the stage removes. -/
def FileSystem.Suits (fs : FileSystem) (base : Key) (e : Stage × List String) : Prop :=
  e.2 ≠ [] ∧ ∃ node, fs.store.get? (base ++ e.2) = some node ∧ e.1.takes node.kind = true

/-- The planned removal of an entry below a root. -/
def Path.planned (root : Path) (e : Stage × List String) : Planned := ⟨e.1, root.below e.2⟩

section Loops

variable {rule : PreservationRule} {r : Run FileSystem} {entries : List (Stage × List String)}

theorem runPlan_loses {plan : List Planned} (habs : ∀ e ∈ plan, e.path.isAbsolute = true)
    (r : Run FileSystem) :
    LosesOnly r.world (fun _ => True) ((diskTools [] rule).runPlan plan r).2.world := by
  induction plan generalizing r with
  | nil => exact .refl r.world _
  | cons e rest ih =>
    have hfirst := attempt_loses rule (habs e List.mem_cons_self) r
    rcases ha : (diskTools [] rule).attempt e r with ⟨fault | gone, r₁⟩
    · rw [ha] at hfirst
      rwa [runPlan_cons_error ha]
    · rw [ha] at hfirst
      rw [runPlan_cons_ok ha]
      exact hfirst.trans (ih (fun e' he => habs e' (List.mem_cons_of_mem e he)) r₁)

/-- A loop over planned removals below the root is one by key, if afterwards the root still leads to
its directory. -/
theorem runPlan_below (h : fs.ReadableAs root base) (hentries : ∀ e ∈ entries, fs.Suits base e)
    (hs : LosesOnly fs (fun _ => True) r.world)
    (hafter :
      ((diskTools [] rule).runPlan (entries.map root.planned) r).2.world.Denotes root base) :
    (diskTools [] rule).runPlan (entries.map root.planned) r =
      (.ok ((r.world.carryOut base entries).1.map root.below),
        { r with world := (r.world.carryOut base entries).2 }) := by
  induction entries generalizing r with
  | nil => rfl
  | cons e rest ih =>
    have hpaths : ∀ e ∈ rest.map root.planned, e.path.isAbsolute = true := by
      intro e he
      obtain ⟨_, -, rfl⟩ := List.mem_map.1 he
      exact h.absolute
    obtain ⟨hne, node, hn, htakes⟩ := hentries e List.mem_cons_self
    -- no later removal brings back what the root led through
    have hfirst : ((diskTools [] rule).attempt (root.planned e) r).2.world.Denotes root base := by
      rw [List.map_cons] at hafter
      rcases ha : (diskTools [] rule).attempt (root.planned e) r with ⟨fault | gone, r₁⟩
      · rwa [runPlan_cons_error ha] at hafter
      · rw [runPlan_cons_ok ha] at hafter
        exact hafter.of_within h.absolute (runPlan_loses hpaths r₁).within
    have hattempt : (diskTools [] rule).attempt (root.planned e) r = _ :=
      attempt_below h hs hne hn htakes hfirst
    have hloses := hs.trans (attempt_loses rule (e := root.planned e) h.absolute r)
    rw [hattempt] at hloses
    rw [List.map_cons, runPlan_cons_ok hattempt] at hafter
    have hrest := ih (fun e' he => hentries e' (List.mem_cons_of_mem e he)) hloses hafter
    rw [List.map_cons, runPlan_cons_ok hattempt, hrest, FileSystem.carryOut]
    cases hgone : (r.world.attemptAt e.1 (base ++ e.2)).1 <;> rfl

end Loops

end VendorTree
