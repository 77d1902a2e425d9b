import VendorTree.Proofs.Listed

/-!
# What removals may lose

A removal loses only what its path leads to, and a tree also what lies below that. Nothing is ever
added, so a path from the root leads to nothing later but what it led to at the beginning, and what
a list of removals loses is known from their paths alone.
-/

namespace VendorTree

variable {fs₀ fs fs' fs'' : FileSystem} {p : Path} {key : Key} {node : Node}
  {touched touched' : Key → Prop}

/-! ### The current directory -/

theorem Store.nearest_prefix (s : Store) (above names : Key) :
    s.nearest above names <+: above ++ names := by
  induction names generalizing above with
  | nil => simp [nearest]
  | cons n rest ih =>
    unfold nearest
    split
    · have hrest := ih (above ++ [n])
      rwa [List.append_assoc] at hrest
    · exact List.prefix_append _ _

theorem Store.keep_eq_of_lost_eq_zero {s : Store} {here : Position} (h : (s.keep here).lost = 0) :
    s.keep here = here := by
  have hbegins := s.nearest_prefix [] here.key
  rw [List.nil_append] at hbegins
  have hlost : here.lost + (here.key.length - (s.nearest [] here.key).length) = 0 := h
  have hkey : s.nearest [] here.key = here.key := by
    refine hbegins.eq_of_length ?_
    have hle := hbegins.length_le
    omega
  rw [Store.keep, hkey, Nat.sub_self, Nat.add_zero]

theorem Store.nearest_eq_of_directory {s : Store} {above names : Key}
    (h : s.get? (above ++ names) = some .directory) : s.nearest above names = above ++ names := by
  induction names generalizing above with
  | nil => simp [nearest]
  | cons n rest ih =>
    have hnext : above ++ [n] ++ rest = above ++ n :: rest := by simp
    rw [← hnext] at h
    rw [nearest, if_pos (get?_of_directory_append h), ih h, hnext]

theorem Store.keep_eq_of_directory {s : Store} {here : Position}
    (h : s.get? here.key = some .directory) : s.keep here = here := by
  have hnearest : s.nearest [] here.key = here.key := nearest_eq_of_directory h
  rw [keep, hnearest, Nat.sub_self, Nat.add_zero]

/-- From where a process is kept when entries are lost, steps lead to nothing but what they led to
from its directory. -/
theorem Store.walkFrom_keep {s s' : Store} {here : Position} {follow : Bool} {steps : List Step}
    (hs : s'.Within s) (hdir : s.get? here.key = some .directory)
    (h : s'.walkFrom follow (s'.keep here) steps = .ok (.entry key)) :
    s.walkFrom follow here steps = .ok (.entry key) := by
  obtain ⟨names, hnames⟩ := s'.nearest_prefix [] here.key
  rw [List.nil_append] at hnames
  have hlength : here.key.length - (s'.nearest [] here.key).length = names.length := by
    have hsum := congrArg List.length hnames
    rw [List.length_append] at hsum
    omega
  rw [keep, hlength] at h
  rcases leave_of_walkFrom h with ⟨rest, hout, hnow⟩ | ⟨-, hspot⟩
  · obtain ⟨mid, hmid, hrest⟩ := leaveLost_add hout
    rw [← hnames] at hdir
    have hbefore : s.walk follow linkLimit (s'.nearest [] here.key ++ names) mid =
        s.walk follow linkLimit (s'.nearest [] here.key) rest := walk_of_leaveLost hdir hrest
    rw [walkFrom_of_leave hmid, ← hnames, hbefore]
    exact walk_within hs hnow
  · cases hspot

/-! ### Losses -/

/-- Only entries at touched keys were lost, and nothing was added. As long as a process has lost no
directory, or its directory is there, it is where it was. -/
structure LosesOnly (fs : FileSystem) (touched : Key → Prop) (fs' : FileSystem) : Prop where
  within : fs'.store.Within fs.store
  same : ∀ k, ¬ touched k → fs'.store.get? k = fs.store.get? k
  here : fs'.here.lost = 0 → fs'.here = fs.here
  stays : fs'.store.get? fs.here.key = some .directory → fs'.here = fs.here
  refused : fs'.refused = fs.refused

namespace LosesOnly

theorem refl (fs : FileSystem) (touched : Key → Prop) : LosesOnly fs touched fs :=
  ⟨fun _ _ hn => hn, fun _ _ => rfl, fun _ => rfl, fun _ => rfl, rfl⟩

theorem mono (h : LosesOnly fs touched fs') (ht : ∀ k, touched k → touched' k) :
    LosesOnly fs touched' fs' :=
  ⟨h.within, fun k hk => h.same k fun htouched => hk (ht k htouched), h.here, h.stays, h.refused⟩

theorem trans (h : LosesOnly fs touched fs') (h' : LosesOnly fs' touched fs'') :
    LosesOnly fs touched fs'' where
  within := h'.within.trans h.within
  same k hk := (h'.same k hk).trans (h.same k hk)
  here hlost := by
    have hsame := h'.here hlost
    rw [hsame] at hlost ⊢
    exact h.here hlost
  stays hdir := by
    have hsame := h.stays (h'.within _ _ hdir)
    rw [← hsame] at hdir ⊢
    exact h'.stays hdir
  refused := h'.refused.trans h.refused

theorem update {s : Store} (hs : s.Within fs.store)
    (hsame : ∀ k, ¬ touched k → s.get? k = fs.store.get? k) :
    LosesOnly fs touched (fs.update s) where
  within := hs
  same := hsame
  here hlost := Store.keep_eq_of_lost_eq_zero hlost
  stays hdir := Store.keep_eq_of_directory hdir
  refused := rfl

theorem erase (fs : FileSystem) (key : Key) :
    LosesOnly fs (· = key) (fs.update (fs.store.erase key)) :=
  update (Store.erase_within fs.store key) fun _ hk => Store.get?_erase_of_ne hk

theorem clear (fs : FileSystem) (key : Key) :
    LosesOnly fs (key <+: ·) (fs.update (fs.store.clear key)) := by
  have hkeeps := Store.keeps_clear fs.store key
  refine update hkeeps.within fun k hk => hkeeps.get?_of_kept ?_
  rw [Bool.not_eq_true', Bool.eq_false_iff]
  intro hbelow
  obtain ⟨rest, -, rfl⟩ := Key.isBelow_iff.1 hbelow
  exact hk (List.prefix_append _ _)

end LosesOnly

/-! ### Removals -/

namespace FileSystem

/-- The path leads to the key. A link at its end is not followed. -/
def Reaches (fs : FileSystem) (p : Path) (key : Key) : Prop :=
  fs.store.walkFrom false (fs.start p) p.steps = .ok (.entry key)

/-- From a later file system too, a path from the root leads to nothing but what it led to at the
beginning. -/
theorem leads_of_within {follow : Bool} (hs : fs.store.Within fs₀.store)
    (habs : p.isAbsolute = true)
    (hleads : fs.store.walkFrom follow (fs.start p) p.steps = .ok (.entry key)) :
    fs₀.store.walkFrom follow (fs₀.start p) p.steps = .ok (.entry key) := by
  have hstart : ∀ fs : FileSystem, fs.start p = ⟨[], 0⟩ := fun fs => if_pos habs
  rw [hstart, Store.walkFrom_of_notLost] at hleads ⊢
  exact Store.walk_within hs hleads

/-- Where a path leads once it is made absolute, it led at the beginning as it was given. -/
theorem leads_of_absolute {root r : Path} {base : Key} (hs : fs.store.Within fs₀.store)
    (hhere : fs.here.lost = 0 → fs.here = fs₀.here) (habs : fs.absolute root = .ok r)
    (hr : fs.store.walkFrom true (fs.start r) r.steps = .ok (.entry base)) :
    r.isAbsolute = true ∧
      fs₀.store.walkFrom true (fs₀.start root) root.steps = .ok (.entry base) := by
  unfold absolute at habs
  split at habs
  · rename_i hroot
    obtain rfl := Except.ok.inj habs
    exact ⟨hroot, leads_of_within hs hroot hr⟩
  · -- a relative path was joined to the current one, which is as it was at the beginning
    rename_i hroot
    cases hcurrent : fs.currentPath with
    | error fault => simp [hcurrent, Except.map] at habs
    | ok cur =>
      obtain ⟨hlost, hdir, habsolute, hnames⟩ := currentPath_ok hcurrent
      rw [hcurrent] at habs
      obtain rfl := Except.ok.inj habs
      have hjoined : (cur.append root).isAbsolute = true := habsolute
      have hnow := leads_of_within hs hjoined hr
      have hnamed : ∀ n ∈ fs.here.key, IsPathName n ∧ n ≠ ".." := fun n hn =>
        have hentry := Store.isEntryName_of_get? (Option.isSome_of_eq_some hdir) n hn
        ⟨hentry.1, hentry.2.1⟩
      have hsteps : (cur.append root).steps = fs.here.key.map Step.enter ++ root.steps := by
        rw [← Path.map_ofPiece hnamed, ← hnames]
        exact List.map_append
      have hstart : fs₀.start (cur.append root) = ⟨[], 0⟩ := if_pos habsolute
      have hposition : fs₀.start root = ⟨fs.here.key, 0⟩ := by
        have hsame : fs₀.start root = fs.here := (if_neg hroot).trans (hhere hlost).symm
        rw [hsame, ← hlost]
      have hway := @Store.walk_enter_append fs₀.store true Store.linkLimit [] fs.here.key
        (hs _ _ hdir) root.steps
      rw [hstart, hsteps, Store.walkFrom_of_notLost, hway] at hnow
      rw [hposition, Store.walkFrom_of_notLost]
      exact ⟨habsolute, hnow⟩

theorem reaches_below {root : Path} {base : Key} {names : List String}
    (hroot : fs.store.walkFrom true (fs.start root) root.steps = .ok (.entry base))
    (hn : fs.store.get? (base ++ names) = some node) (hne : names ≠ [])
    (hkey : fs.Reaches (root.below names) key) : key = base ++ names := by
  have hfound := walkFrom_below hroot hn hne (.inr rfl : _ ∨ false = false)
  simpa [hfound] using hkey.symm

theorem steps_of_lastStep {name : String} (hne : p.names ≠ []) (h : p.lastStep = .enter name) :
    p.steps = p.steps.dropLast ++ [.enter name] := by
  have hsteps : p.steps ≠ [] := by simpa [Path.steps] using hne
  have hlast : p.steps.getLast hsteps = .enter name := by
    rw [← h, Path.lastStep, List.getLast?_eq_some_getLast hne]
    simp [Path.steps]
  rw [← hlast, List.dropLast_concat_getLast]

/-- A path that can be passed to a call is about a name in a directory, whether an entry has it or
not. -/
structure Names (fs : FileSystem) (p : Path) (dir : Key) (name : String) : Prop where
  text : p.checkText = .ok ()
  nonempty : p.names ≠ []
  last : p.lastStep = .enter name
  way : fs.store.walkFrom true (fs.start p) p.steps.dropLast = .ok (.entry dir)
  directory : fs.store.get? dir = some .directory
  limit : name.utf8ByteSize ≤ nameLimit

theorem Names.steps {dir : Key} {name : String} (h : fs.Names p dir name) :
    p.steps = p.steps.dropLast ++ [.enter name] := steps_of_lastStep h.nonempty h.last

theorem target_ok {dir : Key} {name : String} (h : fs.target p = .ok (.named dir name)) :
    fs.Names p dir name := by
  unfold target at h
  cases htext : p.checkText with
  | error fault => simp [htext, bind, Except.bind] at h
  | ok _ =>
    by_cases hne : p.names = []
    · simp [htext, hne, bind, Except.bind] at h
    · cases hwalk : fs.store.walkFrom true (fs.start p) p.steps.dropLast with
      | error code => simp [htext, hne, hwalk, refuse, bind, Except.bind] at h
      | ok spot =>
        rw [htext, hwalk] at h
        simp only [hne, if_false, bind, Except.bind] at h
        cases spot with
        | vacant parent free => simp [refuse] at h
        | lost => cases hlast : p.lastStep <;> simp [hlast, refuse] at h
        | entry key =>
          cases hkey : fs.store.get? key with
          | none => simp [hkey, refuse] at h
          | some node =>
            cases node <;> cases hlast : p.lastStep <;> simp [hkey, hlast, refuse] at h
            split at h
            · simp at h
            · rename_i hlimit
              obtain ⟨rfl, rfl⟩ := Target.named.inj (Except.ok.inj h)
              exact ⟨htext, hne, hlast, hwalk, hkey, by omega⟩

theorem reaches_of_target {dir : Key} {name : String} (h : fs.target p = .ok (.named dir name))
    (hn : fs.store.get? (dir ++ [name]) = some node) : fs.Reaches p (dir ++ [name]) := by
  have hnames := target_ok h
  rw [Reaches, hnames.steps]
  refine Store.walkFrom_append (by simp) hnames.way fun links => ?_
  have hstep : fs.store.walk false links dir ([name].map Step.enter) =
      .ok (.entry (dir ++ [name])) :=
    Store.walk_enter_found hn fun _ => .inr rfl
  exact hstep

/-- The entry that a path names is removed. Nothing lies in it. -/
def RemovesLeaf (fs : FileSystem) (p : Path) (fs' : FileSystem) : Prop :=
  ∃ dir name node, fs.target p = .ok (.named dir name) ∧
    fs.store.get? (dir ++ [name]) = some node ∧ fs.store.children (dir ++ [name]) = [] ∧
      fs' = fs.update (fs.store.erase (dir ++ [name]))

/-- An operation that goes through, and that is refused on anything but a name, is about a name. -/
theorem exists_named_of_ok {α : Type} {next : Target → Except Fault α} {a : α}
    (h : (fs.target p >>= next) = .ok a) (habove : next .above ≠ .ok a)
    (hsame : next .same ≠ .ok a) :
    ∃ dir name, fs.target p = .ok (.named dir name) ∧ next (.named dir name) = .ok a := by
  cases htarget : fs.target p with
  | error fault =>
    rw [htarget] at h
    cases h
  | ok target =>
    rw [htarget] at h
    cases target with
    | above => exact absurd h habove
    | same => exact absurd h hsame
    | named dir name => exact ⟨dir, name, rfl, h⟩

theorem unlink_removesLeaf (h : fs.unlink p = .ok fs') : fs.RemovesLeaf p fs' := by
  obtain ⟨dir, name, htarget, h⟩ := exists_named_of_ok h nofun nofun
  cases hn : fs.store.get? (dir ++ [name]) with
  | none => simp [hn, refuse] at h
  | some node =>
    have hleaf : node ≠ .directory → fs.store.children (dir ++ [name]) = [] := fun hnode => by
      apply Store.children_eq_nil_of_ne_directory
      rw [hn]
      exact fun hdir => hnode (Option.some.inj hdir)
    refine ⟨dir, name, node, htarget, hn, ?_⟩
    cases node <;> simp_all [refuse]

theorem removeDirectory_removesLeaf (h : fs.removeDirectory p = .ok fs') :
    fs.RemovesLeaf p fs' := by
  obtain ⟨dir, name, htarget, h⟩ := exists_named_of_ok h nofun nofun
  cases hn : fs.store.get? (dir ++ [name]) with
  | none => simp [hn, refuse] at h
  | some node =>
    cases node with
    | directory =>
      simp only [hn] at h
      split at h
      · rename_i hempty
        exact ⟨dir, name, .directory, htarget, hn, hempty, (Except.ok.inj h).symm⟩
      · simp [refuse] at h
    | file contents => simp [hn, refuse] at h
    | link target => simp [hn, refuse] at h

theorem removePath_removesLeaf (h : fs.removePath p = .ok fs') : fs.RemovesLeaf p fs' := by
  unfold removePath at h
  cases hdir : fs.isDirectory p with
  | error fault => simp [hdir, bind, Except.bind] at h
  | ok isDir =>
    rw [hdir] at h
    cases isDir with
    | false => exact unlink_removesLeaf h
    | true =>
      cases hlink : fs.isLink p with
      | error fault => simp [hlink, bind, Except.bind] at h
      | ok isLink =>
        simp only [hlink, bind, Except.bind] at h
        cases isLink with
        | true => exact unlink_removesLeaf h
        | false => exact removeDirectory_removesLeaf h

def Erases (fs : FileSystem) (p : Path) (fs' : FileSystem) : Prop :=
  ∃ key, fs.Reaches p key ∧ fs' = fs.update (fs.store.erase key)

theorem Erases.loses (h : fs.Erases p fs') : LosesOnly fs (fs.Reaches p) fs' := by
  obtain ⟨key, hkey, rfl⟩ := h
  exact (LosesOnly.erase fs key).mono fun k hk => hk ▸ hkey

theorem RemovesLeaf.erases (h : fs.RemovesLeaf p fs') : fs.Erases p fs' := by
  obtain ⟨dir, name, node, htarget, hn, -, rfl⟩ := h
  exact ⟨_, reaches_of_target htarget hn, rfl⟩

theorem unlink_erases (h : fs.unlink p = .ok fs') : fs.Erases p fs' :=
  (unlink_removesLeaf h).erases

theorem removeDirectory_erases (h : fs.removeDirectory p = .ok fs') : fs.Erases p fs' :=
  (removeDirectory_removesLeaf h).erases

theorem removePath_erases (h : fs.removePath p = .ok fs') : fs.Erases p fs' :=
  (removePath_removesLeaf h).erases

/-- The path leads to the key or to one above it. -/
def ReachesAbove (fs : FileSystem) (p : Path) (k : Key) : Prop :=
  ∃ key, fs.Reaches p key ∧ key <+: k

theorem Reaches.above (h : fs.Reaches p key) : fs.ReachesAbove p key :=
  ⟨key, h, List.prefix_refl key⟩

theorem removeContents_loses (habs : p.isAbsolute = true) :
    LosesOnly fs (fs.ReachesAbove p) (fs.removeContents p).2 := by
  unfold removeContents
  cases hentry : fs.entryAt false p with
  | error fault => exact .refl fs _
  | ok found =>
    obtain ⟨key, node⟩ := found
    have hcleared : LosesOnly fs (fs.ReachesAbove p)
        ((key.map fun k => fs.update (fs.store.clear k)).getD fs) := by
      cases key with
      | none => exact .refl fs _
      | some key =>
        exact (LosesOnly.clear fs key).mono fun k hk => ⟨key, (entryAt_ok hentry).2.1, hk⟩
    simp only
    split
    · rename_i fs' hremove
      refine hcleared.trans ((removeDirectory_erases hremove).loses.mono fun k hk => ?_)
      exact Reaches.above (leads_of_within hcleared.within habs hk)
    · exact hcleared

theorem removeTree_loses (habs : p.isAbsolute = true) :
    LosesOnly fs (fs.ReachesAbove p) (fs.removeTree p).2 := by
  unfold removeTree
  split
  · exact .refl fs _
  · exact removeContents_loses habs
  · split
    · rename_i fs' hunlink
      exact (unlink_erases hunlink).loses.mono fun k hk => Reaches.above hk
    · exact .refl fs _

theorem removeTree_loses_link {target : String}
    (h : fs.entryAt false p = .ok (some key, .link target)) :
    LosesOnly fs (fs.Reaches p) (fs.removeTree p).2 := by
  have hsingle : fs.isSingle p = .ok true := by
    rw [isSingle, isLink, holds, h]
    rfl
  rw [removeTree, hsingle]
  cases hunlink : fs.unlink p with
  | error fault => exact .refl fs _
  | ok fs' => exact (unlink_erases hunlink).loses

end FileSystem

/-! ### Removers -/

theorem diskRemove_run (p : Path) (r : Run FileSystem) :
    diskRemove p r = match r.world.removePath p with
      | .ok fs' => (.ok (), { r with world := fs' })
      | .error fault => (.error fault, r) := by
  cases h : r.world.removePath p <;> simp only [diskRemove, Action.change, Action.onWorld, h]

theorem diskRemove_loses (p : Path) (r : Run FileSystem) :
    LosesOnly r.world (r.world.Reaches p) (diskRemove p r).2.world := by
  rw [diskRemove_run]
  cases h : r.world.removePath p with
  | error fault => exact .refl r.world _
  | ok fs' => exact (FileSystem.removePath_erases h).loses

theorem diskRemoveTree_loses (habs : p.isAbsolute = true) (r : Run FileSystem) :
    LosesOnly r.world (r.world.ReachesAbove p) (diskRemoveTree p r).2.world :=
  FileSystem.removeTree_loses habs

theorem failingOn_run (faults : List (String × Fault)) (remove : Remover FileSystem) (p : Path)
    (r : Run FileSystem) : (∃ fault, failingOn faults remove p r = (.error fault, r)) ∨
      failingOn faults remove p r = remove p r := by
  unfold failingOn
  cases faults.lookup p.text with
  | some fault => exact .inl ⟨fault, rfl⟩
  | none => exact .inr rfl

theorem failingOn_maintains {I : FileSystem → Prop} {faults : List (String × Fault)}
    {remove : Remover FileSystem} (h : Action.Maintains I (remove p)) :
    Action.Maintains I (failingOn faults remove p) := by
  intro r hr
  rcases failingOn_run faults remove p r with ⟨fault, hfails⟩ | hsame
  · rwa [hfails]
  · rw [hsame]
    exact h r hr

theorem diskRemove_maintains (habs : p.isAbsolute = true)
    (hsafe : ∀ key, fs₀.Reaches p key → touched key) :
    Action.Maintains (LosesOnly fs₀ touched) (diskRemove p) :=
  fun r hr => hr.trans ((diskRemove_loses p r).mono fun key hkey =>
    hsafe key (FileSystem.leads_of_within hr.within habs hkey))

theorem diskRemoveTree_maintains (habs : p.isAbsolute = true)
    (hsafe : ∀ key k, fs₀.Reaches p key → key <+: k → touched k) :
    Action.Maintains (LosesOnly fs₀ touched) (diskRemoveTree p) :=
  fun r hr => hr.trans ((diskRemoveTree_loses habs r).mono fun k ⟨key, hkey, hk⟩ =>
    hsafe key k (FileSystem.leads_of_within hr.within habs hkey) hk)

end VendorTree
