import VendorTree.Proofs.LinkFree
import VendorTree.Proofs.Losses
import VendorTree.Saving

/-!
# Files put in place

A file is put in place of what is at a path by creating it elsewhere and renaming it. Afterwards the
name that the path is about is that of the file, and nothing else is there that was not there
before. Whether the path still leads to that name is another matter: the link that stood there may
have been part of the way. It does if a directory is still at the path above it.
-/

namespace VendorTree

/-! ### New and erased entries -/

namespace Store

variable {s : Store} {k : Key}

theorem get?_insert {parent : Key} {name : String} {node : Node}
    (hdir : s.get? parent = some .directory) (hfree : s.get? (parent ++ [name]) = none)
    (hname : IsEntryName name) (k : Key) :
    (s.insert parent name node).get? k = if k = parent ++ [name] then some node else s.get? k := by
  by_cases hk : k = []
  · simp [hk]
  · have hinsert : (s.insert parent name node).entries = (parent ++ [name], node) :: s.entries := by
      rw [insert, dif_pos ⟨hdir, hfree, hname⟩]
    simp only [get?, if_neg hk, hinsert, List.lookup_cons]
    by_cases heq : k = parent ++ [name]
    · simp [heq]
    · rw [if_neg heq, beq_false_of_ne heq]

theorem LinkFree.insert (hs : s.LinkFree) {node : Node} (hnode : ∀ target, node ≠ .link target)
    (parent : Key) (name : String) : (s.insert parent name node).LinkFree := by
  by_cases h : s.get? parent = some .directory ∧ s.get? (parent ++ [name]) = none ∧ IsEntryName name
  · intro k target hk
    rw [get?_insert h.1 h.2.1 h.2.2] at hk
    split at hk
    · exact hnode target (Option.some.inj hk)
    · exact hs k target hk
  · rwa [Store.insert, dif_neg h]

theorem get?_erase_self (hk : k ≠ []) (h : s.get? k ≠ some .directory) :
    (s.erase k).get? k = none := by
  rw [(keeps_erase (children_eq_nil_of_ne_directory h)).get?_eq hk]
  simp

/-- An entry that is no directory is moved to a place where none is. -/
theorem get?_move {source dir : Key} {name : String} {node : Node}
    (hdir : s.get? dir = some .directory) (hname : IsEntryName name)
    (hsource : s.get? source = some node) (hnode : node ≠ .directory)
    (hplace : s.get? (dir ++ [name]) ≠ some .directory) (k : Key) :
    (((s.erase source).erase (dir ++ [name])).insert dir name node).get? k =
      if k = dir ++ [name] then some node else if k = source then none else s.get? k := by
  have hne : source ≠ [] := by
    rintro rfl
    rw [get?_nil] at hsource
    exact hnode (Option.some.inj hsource).symm
  have hother : s.get? source ≠ some .directory := by
    rw [hsource]
    exact fun heq => hnode (Option.some.inj heq)
  -- neither erased entry is a directory, so both erasures take place
  have herased : ∀ k ≠ dir ++ [name], ((s.erase source).erase (dir ++ [name])).get? k =
      if k = source then none else s.get? k := by
    intro k hk
    rw [get?_erase_of_ne hk]
    split
    · rename_i heq
      rw [heq, get?_erase_self hne hother]
    · rename_i heq
      exact get?_erase_of_ne heq
  have hfree : ((s.erase source).erase (dir ++ [name])).get? (dir ++ [name]) = none :=
    get?_erase_self (by simp) fun heq => hplace (erase_within _ _ _ _ heq)
  have hkept : ((s.erase source).erase (dir ++ [name])).get? dir = some .directory := by
    have hsource' : dir ≠ source := fun heq => hother (heq ▸ hdir)
    rw [herased dir (by simp), if_neg hsource', hdir]
  rw [get?_insert hkept hfree hname]
  split
  · rfl
  · rename_i hk
    exact herased k hk

theorem get?_nearest {above : Key} (h : s.get? above = some .directory) (names : Key) :
    s.get? (s.nearest above names) = some .directory := by
  induction names generalizing above with
  | nil => exact h
  | cons n rest ih =>
    unfold nearest
    split
    · rename_i hnext
      exact ih hnext
    · exact h

theorem get?_keep (s : Store) (here : Position) :
    s.get? (s.keep here).key = some .directory := get?_nearest (get?_nil s) here.key

end Store

namespace FileSystem

variable {fs fs' : FileSystem} {p : Path} {dir : Key} {name : String} {node : Node}

/-! ### Calls that change entries -/

theorem Names.isEntryName (h : fs.Names p dir name) : IsEntryName name := by
  obtain ⟨piece, hpiece, hstep⟩ : ∃ piece ∈ p.names, Step.ofPiece piece = .enter name := by
    have hlast := h.last
    rw [Path.lastStep, List.getLast?_eq_some_getLast h.nonempty] at hlast
    exact ⟨_, List.getLast_mem h.nonempty, hlast⟩
  have hnamed := p.named piece hpiece
  have hup : piece ≠ ".." := by
    rintro rfl
    simp [Step.ofPiece] at hstep
  obtain rfl : piece = name := by
    simpa [Step.ofPiece, hnamed.1, hnamed.2.1, hup] using hstep
  refine ⟨hnamed, hup, fun hnul => ?_, h.limit⟩
  exact nul_notMem_of_checkText h.text
    ((Path.mem_text_iff (by decide) (by decide)).2 ⟨piece, hpiece, hnul⟩)

theorem create_ok (h : fs.create p node = .ok fs') : ∃ dir name, fs.Names p dir name ∧
    fs.store.get? (dir ++ [name]) = none ∧ fs' = fs.update (fs.store.insert dir name node) := by
  obtain ⟨dir, name, htarget, h⟩ := exists_named_of_ok h nofun nofun
  refine ⟨dir, name, target_ok htarget, ?_⟩
  cases hn : fs.store.get? (dir ++ [name]) with
  | none =>
    simp only [hn, Except.ok.injEq] at h
    exact ⟨rfl, h.symm⟩
  | some node => simp [hn, refuse] at h

/-- The entries are those of before, and a new one at the place of a free name. -/
theorem get?_create (h : fs.create p node = .ok fs') : ∃ dir name,
    fs.Names p dir name ∧ fs.store.get? (dir ++ [name]) = none ∧
      ∀ k, fs'.store.get? k = if k = dir ++ [name] then some node else fs.store.get? k := by
  obtain ⟨dir, name, hnames, hfree, rfl⟩ := create_ok h
  exact ⟨dir, name, hnames, hfree, Store.get?_insert hnames.directory hfree hnames.isEntryName⟩

theorem within_of_create (h : fs.create p node = .ok fs') : fs.store.Within fs'.store := by
  obtain ⟨dir, name, -, hfree, hafter⟩ := get?_create h
  intro k found hn
  have hne : k ≠ dir ++ [name] := fun heq => by simp [heq, hfree] at hn
  rw [hafter, if_neg hne, hn]

theorem create_linkFree (hs : fs.store.LinkFree) (hnode : ∀ target, node ≠ .link target)
    (h : fs.create p node = .ok fs') : fs'.store.LinkFree := by
  obtain ⟨dir, name, -, -, rfl⟩ := create_ok h
  exact hs.insert hnode dir name

/-- What making one directory keeps, making it with the missing ones above it keeps, whether all of
them are made or not. -/
theorem makeDirectoriesWithin_keeps {P : FileSystem → Prop} {Q : Path → Prop}
    (hup : ∀ p, Q p → Q p.parent)
    (hcreate : ∀ before after p, Q p → P before → before.create p .directory = .ok after → P after)
    (hfs : P fs) (missing : Nat) (hp : Q p) : P (fs.makeDirectoriesWithin missing p).2 := by
  induction missing generalizing p with
  | zero =>
    unfold makeDirectoriesWithin
    split
    · rename_i made hmade
      exact hcreate _ _ _ hp hfs hmade
    · exact hfs
    · split <;> exact hfs
  | succ missing ih =>
    unfold makeDirectoriesWithin
    split
    · rename_i made hmade
      exact hcreate _ _ _ hp hfs hmade
    · exact hfs
    · split
      · exact hfs
      · have hparent := ih (hup p hp)
        cases hmade : fs.makeDirectoriesWithin missing p.parent with
        | mk outcome made =>
        rw [hmade] at hparent
        simp only [hmade]
        cases outcome with
        | error fault => exact hparent
        | ok _ =>
          dsimp only at hparent ⊢
          split
          · rename_i last hlast
            exact hcreate _ _ _ hp hparent hlast
          · split <;> exact hparent

theorem makeDirectoriesWithin_linkFree (hs : fs.store.LinkFree) (missing : Nat) (p : Path) :
    (fs.makeDirectoriesWithin missing p).2.store.LinkFree :=
  makeDirectoriesWithin_keeps (P := fun fs => fs.store.LinkFree) (Q := fun _ => True) (fun _ h => h)
    (fun _ _ _ _ hbefore h => create_linkFree hbefore (by simp) h) hs missing trivial

theorem aboutBoth_ok {α : Type} {p q : Path} {x : Except Fault α} {a : α}
    (h : aboutBoth p q x = .ok a) : x = .ok a := by
  unfold aboutBoth at h
  split at h
  · simp at h
  · exact h

/-- A renamed entry is no directory and takes the place of none. -/
theorem rename_ok {source destination : Path} (h : fs.rename source destination = .ok fs') :
    ∃ oldDir old newDir new node, fs.Names source oldDir old ∧ fs.Names destination newDir new ∧
      fs.store.get? (oldDir ++ [old]) = some node ∧ node ≠ .directory ∧
      fs.store.get? (newDir ++ [new]) ≠ some .directory ∧
      fs' = fs.update
        (((fs.store.erase (oldDir ++ [old])).erase (newDir ++ [new])).insert newDir new node) := by
  have h := aboutBoth_ok h
  cases hsource : fs.target source with
  | error fault => simp [hsource, bind, Except.bind] at h
  | ok target =>
  cases hdestination : fs.target destination with
  | error fault => simp [hsource, hdestination, bind, Except.bind] at h
  | ok target' =>
    rw [hsource, hdestination] at h
    cases target with
    | above => simp [refuse, bind, Except.bind] at h
    | same => simp [refuse, bind, Except.bind] at h
    | named oldDir old =>
    cases target' with
    | above => simp [refuse, bind, Except.bind] at h
    | same => simp [refuse, bind, Except.bind] at h
    | named newDir new =>
      cases hn : fs.store.get? (oldDir ++ [old]) with
      | none => simp [hn, refuse, bind, Except.bind] at h
      | some node =>
        have hnode : node ≠ .directory := by
          rintro rfl
          simp [hn, refuse, bind, Except.bind] at h
        have hplace : fs.store.get? (newDir ++ [new]) ≠ some .directory := by
          intro hdir
          cases node <;> simp [hn, hdir, refuse, bind, Except.bind] at h
        refine ⟨oldDir, old, newDir, new, node, target_ok hsource, target_ok hdestination, hn,
          hnode, hplace, ?_⟩
        cases node <;> simp_all [bind, Except.bind]

/-! ### Files put in place -/

/-- In `fs'` the name that a path was about in `fs` is that of a file, whose place no directory had.
Apart from other files everything is as it was, and nothing is new. -/
structure HoldsFile (fs : FileSystem) (p : Path) (dir : Key) (name : String) (contents : ByteArray)
    (fs' : FileSystem) : Prop where
  names : fs.Names p dir name
  place : fs.store.get? (dir ++ [name]) ≠ some .directory
  here : fs'.here = fs.here
  file : fs'.store.get? (dir ++ [name]) = some (.file contents)
  others : ∀ k ≠ dir ++ [name], ∀ node, fs'.store.get? k = some node → fs.store.get? k = some node
  stays : ∀ k ≠ dir ++ [name], ∀ node, fs.store.get? k = some node →
    fs'.store.get? k = some node ∨ ∃ contents, node = .file contents

/-- A file takes the place of what is at a name. -/
theorem holdsFile_rename {oldDir : Key} {old : String} {contents : ByteArray}
    (hhere : fs.store.get? fs.here.key = some .directory) (hnames : fs.Names p dir name)
    (hfile : fs.store.get? (oldDir ++ [old]) = some (.file contents))
    (hplace : fs.store.get? (dir ++ [name]) ≠ some .directory) :
    HoldsFile fs p dir name contents (fs.update
      (((fs.store.erase (oldDir ++ [old])).erase (dir ++ [name])).insert dir name
        (.file contents))) := by
  have hafter (k : Key) :=
    Store.get?_move hnames.directory hnames.isEntryName hfile (by simp) hplace k
  refine ⟨hnames, hplace, ?_, ?_, ?_, ?_⟩
  · refine Store.keep_eq_of_directory ?_
    have hne : fs.here.key ≠ dir ++ [name] := fun heq => hplace (heq ▸ hhere)
    have hold : fs.here.key ≠ oldDir ++ [old] := fun heq => by simp [heq, hfile] at hhere
    rw [hafter, if_neg hne, if_neg hold, hhere]
  · exact (hafter _).trans (if_pos rfl)
  · intro k hk node hn
    have hn := (if_neg hk).symm.trans ((hafter k).symm.trans hn)
    split at hn
    · simp at hn
    · exact hn
  · intro k hk node hn
    by_cases hold : k = oldDir ++ [old]
    · obtain rfl : .file contents = node := Option.some.inj (hfile.symm.trans (hold ▸ hn))
      exact .inr ⟨contents, rfl⟩
    · exact .inl ((hafter k).trans ((if_neg hk).trans ((if_neg hold).trans hn)))

/-- What a path from the root is about stays the same where entries are added. -/
theorem Names.unique {written : FileSystem} {dir' : Key} {name' : String}
    (h : fs.Names p dir name) (hs : fs.store.Within written.store) (habs : p.isAbsolute = true)
    (h' : written.Names p dir' name') : dir = dir' ∧ name = name' := by
  have hstart : ∀ fs : FileSystem, fs.start p = ⟨[], 0⟩ := fun fs => if_pos habs
  have hway := h.way
  have hway' := h'.way
  rw [hstart, Store.walkFrom_of_notLost] at hway hway'
  rw [Store.walk_within hs hway] at hway'
  exact ⟨Spot.entry.inj (Except.ok.inj hway'), Step.enter.inj (h.last.symm.trans h'.last)⟩

/-- A new file that is moved takes the place of what is at the destination, and every other entry is
what it was before there was the file. -/
theorem holdsFile_of_new {file : Path} {contents : ByteArray} {written : FileSystem}
    (habs : file.isAbsolute = true) (hcreate : fs.create file (.file contents) = .ok written)
    (hrename : written.rename file p = .ok fs') :
    ∃ dir name, HoldsFile written p dir name contents fs' ∧ ∀ k, fs'.store.get? k =
      if k = dir ++ [name] then some (.file contents) else fs.store.get? k := by
  obtain ⟨tmpDir, tmp, hnew, hfree, hwritten⟩ := get?_create hcreate
  obtain ⟨oldDir, old, dir, name, node, hold, hnames, hn, hnode, hplace, rfl⟩ := rename_ok hrename
  -- the move finds the file that was just written, for its path leads there and nowhere else
  obtain ⟨rfl, rfl⟩ := hnew.unique (within_of_create hcreate) habs hold
  obtain rfl : .file contents = node :=
    Option.some.inj (((if_pos rfl).symm.trans (hwritten _).symm).trans hn)
  have hhere : written.store.get? written.here.key = some .directory := by
    obtain ⟨_, _, -, -, rfl⟩ := create_ok hcreate
    exact Store.get?_keep _ fs.here
  refine ⟨dir, name, holdsFile_rename hhere hnames hn hplace, fun k => ?_⟩
  refine (Store.get?_move hnames.directory hnames.isEntryName hn hnode hplace k).trans ?_
  by_cases hk : k = tmpDir ++ [tmp]
  · rw [if_pos hk, hk, hfree]
  · rw [if_neg hk, hwritten, if_neg hk]

/-- An entry that is created under a drawn name is created under one of the names, and apart from
the names that are left nothing else has changed. -/
theorem createDrawn_ok {dir file : Path} {draws : Nat}
    (h : fs.createDrawn dir node draws = (.ok file, fs')) : ∃ name drawn,
      file = dir.join name ∧ { fs with drawn }.create file node = .ok fs' := by
  induction draws generalizing fs with
  | zero => simp [createDrawn] at h
  | succ draws ih =>
    simp only [createDrawn] at h
    split at h
    · rename_i made hmade
      obtain ⟨hfile, rfl⟩ := Prod.mk.inj h
      obtain rfl := Except.ok.inj hfile
      exact ⟨_, _, rfl, hmade⟩
    · split at h
      · obtain ⟨name, drawn, hfile, hcreate⟩ := ih h
        exact ⟨name, drawn, hfile, hcreate⟩
      · simp at h

/-- If no entry is created, nothing has changed but which names are left. -/
theorem createDrawn_error {dir : Path} {draws : Nat} {fault : Fault}
    (h : fs.createDrawn dir node draws = (.error fault, fs')) :
    ∃ drawn, fs' = { fs with drawn } := by
  induction draws generalizing fs with
  | zero => exact ⟨fs.drawn, (Prod.mk.inj h).2.symm⟩
  | succ draws ih =>
    simp only [createDrawn] at h
    split at h
    · simp at h
    · split at h
      · obtain ⟨drawn, hleft⟩ := ih h
        exact ⟨drawn, hleft⟩
      · exact ⟨_, (Prod.mk.inj h).2.symm⟩

theorem moveNew_ok {file : Path} (h : fs.moveNew file p = (.ok (), fs')) :
    fs.rename file p = .ok fs' := by
  unfold moveNew at h
  cases hrename : fs.rename file p with
  | error fault => cases fault <;> simp [hrename] at h
  | ok renamed =>
    simp only [hrename, Prod.mk.injEq, true_and] at h
    rw [h]

/-- What is at a path is replaced by moving a file there that was written under a drawn name
first. -/
theorem replaceFile_steps {dir : Path} {contents : ByteArray}
    (h : fs.replaceFile dir p contents = (.ok (), fs')) : ∃ name drawn written,
      { fs with drawn }.create (dir.join name) (.file contents) = .ok written ∧
        written.rename (dir.join name) p = .ok fs' := by
  unfold replaceFile at h
  rcases hnew : fs.createDrawn dir (.file contents) drawLimit with ⟨fault | file, written⟩
  · cases fault <;> simp [hnew] at h
  · simp only [hnew] at h
    obtain ⟨name, drawn, rfl, hcreate⟩ := createDrawn_ok hnew
    exact ⟨name, drawn, written, hcreate, moveNew_ok h⟩

/-- A file that is written elsewhere first takes the place of what is at a path. -/
theorem replaceFile_ok {dir : Path} {contents : ByteArray} (habs : dir.isAbsolute = true)
    (h : fs.replaceFile dir p contents = (.ok (), fs')) :
    ∃ written dir name, HoldsFile written p dir name contents fs' ∧
      (fs.store.LinkFree → written.store.LinkFree) := by
  obtain ⟨fileName, drawn, written, hcreate, hrename⟩ := replaceFile_steps h
  have hfile : (dir.join fileName).isAbsolute = true := habs
  obtain ⟨key, name, hholds, -⟩ := holdsFile_of_new hfile hcreate hrename
  refine ⟨written, key, name, hholds, fun hlinks => ?_⟩
  have hdrawn : { fs with drawn }.store.LinkFree := hlinks
  exact create_linkFree hdrawn (by simp) hcreate

/-! ### Paths to files put in place -/

namespace HoldsFile

variable {contents : ByteArray}

theorem start_eq (h : HoldsFile fs p dir name contents fs') : fs'.start p = fs.start p := by
  rw [start, start, h.here]

/-- The path above leads where it did before, if it still leads to a directory. -/
theorem way_of_isDirectory (h : HoldsFile fs p dir name contents fs')
    (hparent : fs'.isDirectory p.parent = .ok true) :
    fs'.store.walkFrom true (fs'.start p) p.steps.dropLast = .ok (.entry dir) := by
  have hsteps : p.parent.steps = p.steps.dropLast := List.map_dropLast
  have hstart : fs'.start p.parent = fs'.start p := rfl
  obtain ⟨key, hentry⟩ := entryAt_of_isDirectory hparent
  obtain ⟨_, hwalk, hkey⟩ := entryAt_ok hentry
  rw [hsteps, hstart] at hwalk
  cases key with
  | none =>
    have hlost : fs.store.walkFrom true (fs.start p) p.steps.dropLast = .ok .lost :=
      h.start_eq ▸ Store.walkFrom_lost hwalk
    simp [h.names.way] at hlost
  | some k =>
    have hdir : fs'.store.get? k = some .directory := hkey k rfl
    have hs : fs'.store.WithinUpTo fs.store k := by
      intro x node hn
      by_cases hx : x = dir ++ [name]
      · obtain rfl : .file contents = node := Option.some.inj (h.file.symm.trans (hx ▸ hn))
        exact .inr ⟨fun heq => by simp [heq, hdir] at hn, contents, rfl⟩
      · exact .inl (h.others x hx node hn)
    have hfirst : fs.store.walkFrom true (fs.start p) p.steps.dropLast = .ok (.entry k) :=
      h.start_eq ▸ Store.walkFrom_withinUpTo hs hwalk
    obtain rfl : dir = k := Spot.entry.inj (Except.ok.inj (h.names.way.symm.trans hfirst))
    exact hwalk

/-- The path above leads where it did before, if no link stood in the place of the file. -/
theorem way_of_not_link (h : HoldsFile fs p dir name contents fs')
    (hlink : ∀ target, fs.store.get? (dir ++ [name]) ≠ some (.link target)) :
    fs'.store.walkFrom true (fs'.start p) p.steps.dropLast = .ok (.entry dir) := by
  have hs : fs.store.WithinUpTo fs'.store dir := by
    intro x node hn
    by_cases hx : x = dir ++ [name]
    · cases node with
      | directory => exact absurd (hx ▸ hn) h.place
      | link target => exact absurd (hx ▸ hn) (hlink target)
      | file found => exact .inr ⟨by simp [hx], found, rfl⟩
    · refine (h.stays x hx node hn).imp_right fun hfile => ⟨?_, hfile⟩
      rintro rfl
      obtain ⟨found, rfl⟩ := hfile
      simp [h.names.directory] at hn
  exact h.start_eq ▸ Store.walkFrom_withinUpTo hs h.names.way

/-- The path leads to the file as long as the path above leads where it did before. -/
theorem entryAt (h : HoldsFile fs p dir name contents fs')
    (hway : fs'.store.walkFrom true (fs'.start p) p.steps.dropLast = .ok (.entry dir)) :
    fs'.entryAt true p = .ok (some (dir ++ [name]), .file contents) := by
  refine entryAt_of_walk h.names.text ?_ h.file
  rw [h.names.steps]
  refine Store.walkFrom_append (by simp) hway fun links => ?_
  have hfound : fs'.store.walk true links dir ([name].map Step.enter) =
      .ok (.entry (dir ++ [name])) := Store.walk_enter_found h.file fun _ => .inl (by simp)
  exact hfound

end HoldsFile

theorem existsAt_of_entryAt {key : Option Key} (h : fs.entryAt true p = .ok (key, node)) :
    fs.existsAt p = .ok true := by
  rw [existsAt, holds, h]

theorem read_of_entryAt {key : Option Key} {contents : ByteArray}
    (h : fs.entryAt true p = .ok (key, .file contents)) : fs.read p = .ok contents := by
  rw [read, h]
  rfl

end FileSystem

end VendorTree
