import VendorTree.Proofs.PassedCalls
import VendorTree.Proofs.SavedConfig

/-!
# How saving ends

Saving is all or nothing. Whatever stops it, the new file is gone again, and all that is new are
directories on the way to the destination; and once a file has taken its place, nothing else has
changed beside these. Only a NUL character in the last name of the destination is noticed so late
that the new file stays.
-/

namespace VendorTree

theorem Path.isBelow_parent {path p : Path} (h : path.isBelow p = true) :
    path.isBelow p.parent = true := by
  obtain ⟨hanchor, hnames, hlength⟩ := isBelow_iff.1 h
  have hparent : p.parent.names <+: p.names := List.dropLast_prefix _
  exact isBelow_iff.2 ⟨hanchor, hparent.trans hnames, Nat.lt_of_le_of_lt hparent.length_le hlength⟩

namespace FileSystem

variable {fs fs' fs'' : FileSystem} {p path : Path} {dir : Key} {name : String}

/-- What a path is about stays the same with other entries, apart from files away from the way. -/
theorem Names.of_withinUpTo (h : fs.Names p dir name) (hs : fs.store.WithinUpTo fs'.store dir)
    (hstart : fs'.start p = fs.start p) : fs'.Names p dir name where
  text := h.text
  nonempty := h.nonempty
  last := h.last
  way := by
    rw [hstart]
    exact Store.walkFrom_withinUpTo hs h.way
  directory := hs.directory h.directory
  limit := h.limit

theorem Names.of_within (h : fs.Names p dir name) (hs : fs.store.Within fs'.store)
    (hstart : fs'.start p = fs.start p) : fs'.Names p dir name :=
  h.of_withinUpTo (fun k node hn => .inl (hs k node hn)) hstart

theorem Names.target (h : fs.Names p dir name) : fs.target p = .ok (.named dir name) := by
  rw [FileSystem.target, h.text, h.way, h.last]
  simp [h.nonempty, h.directory, Nat.not_lt.2 h.limit, bind, Except.bind]

/-! ### New entries -/

/-- Paths start where they did, the relative ones if the current directory is there. -/
theorem start_of_create {node : Node} (h : fs.create p node = .ok fs')
    (hhere : path.isAbsolute = true ∨ fs.store.get? fs.here.key = some .directory) :
    fs'.start path = fs.start path := by
  have hwithin := within_of_create h
  obtain ⟨dir, name, -, -, rfl⟩ := create_ok h
  unfold start
  split
  · rfl
  · rename_i habs
    exact Store.keep_eq_of_directory (hwithin _ _ (hhere.resolve_left habs))

/-! ### New directories -/

/-- Everything is where it was, and all that is new are directories that paths above the given one
name. -/
structure MakesAbove (fs : FileSystem) (path : Path) (fs' : FileSystem) : Prop where
  within : fs.store.Within fs'.store
  start : fs'.start path = fs.start path
  new : ∀ k node, fs'.store.get? k = some node → fs.store.get? k = some node ∨
    node = .directory ∧ ∃ p dir name, path.isBelow p = true ∧ fs'.Names p dir name ∧
      k = dir ++ [name]

theorem start_eq_of_isBelow (fs : FileSystem) (h : path.isBelow p = true) :
    fs.start p = fs.start path := by
  rw [start, start, Path.isAbsolute, Path.isAbsolute, (Path.isBelow_iff.1 h).1]

namespace MakesAbove

theorem refl (fs : FileSystem) (path : Path) : MakesAbove fs path fs :=
  ⟨fun _ _ hn => hn, rfl, fun _ _ hn => .inl hn⟩

theorem trans (h : MakesAbove fs path fs') (h' : MakesAbove fs' path fs'') :
    MakesAbove fs path fs'' where
  within := h.within.trans h'.within
  start := h'.start.trans h.start
  new k node hn := by
    rcases h'.new k node hn with hn | hnew
    · refine (h.new k node hn).imp_right ?_
      rintro ⟨hnode, p, dir, name, hbelow, hnames, hk⟩
      refine ⟨hnode, p, dir, name, hbelow, hnames.of_within h'.within ?_, hk⟩
      rw [start_eq_of_isBelow fs'' hbelow, start_eq_of_isBelow fs' hbelow, h'.start]
    · exact .inr hnew

theorem of_create (hbelow : path.isBelow p = true) (h : fs.create p .directory = .ok fs') :
    MakesAbove fs path fs' := by
  obtain ⟨dir, name, hnames, -, hafter⟩ := get?_create h
  have hwithin := within_of_create h
  have hhere : p.isAbsolute = true ∨ fs.store.get? fs.here.key = some .directory := by
    -- a way that starts at the current directory finds it there
    refine (Bool.eq_false_or_eq_true p.isAbsolute).imp_right fun habs => ?_
    have hway := hnames.way
    rw [FileSystem.start, habs] at hway
    exact Store.directory_of_walkFrom hway hnames.directory
  have hstart : fs'.start p = fs.start p := start_of_create h hhere
  refine ⟨hwithin, ?_, fun k node hn => ?_⟩
  · rwa [start_eq_of_isBelow _ hbelow, start_eq_of_isBelow _ hbelow] at hstart
  · rw [hafter] at hn
    split at hn
    · rename_i hk
      exact .inr ⟨(Option.some.inj hn).symm, p, dir, name, hbelow,
        hnames.of_within hwithin hstart, hk⟩
    · exact .inl hn

end MakesAbove

/-- Making the directories at a path above makes nothing else, whether all of them are made or
not. -/
theorem makeDirectoriesWithin_makesAbove (fs : FileSystem) (missing : Nat)
    (hbelow : path.isBelow p = true) :
    MakesAbove fs path (fs.makeDirectoriesWithin missing p).2 :=
  makeDirectoriesWithin_keeps (P := MakesAbove fs path) (Q := fun p => path.isBelow p = true)
    (fun _ => Path.isBelow_parent)
    (fun _ _ _ hp hmade hcreate => hmade.trans (.of_create hp hcreate))
      (.refl fs path) missing hbelow

theorem makeDirectories_makesAbove (fs : FileSystem) (path : Path) :
    MakesAbove fs path (fs.makeDirectories path.parent).2 := by
  by_cases hnames : path.names = []
  · -- a path without names has no path above, and what it names is there
    have hparent : path.parent.names = [] := by simp [Path.parent, hnames]
    have hcreate : ∃ fault, fs.create path.parent .directory = .error fault ∧
        ∀ failure, fault = .call failure → failure.code ≠ .notFound := by
      unfold create target Path.checkText
      rw [if_pos hparent]
      split
      · exact ⟨.unusable, rfl, by simp⟩
      · split
        · exact ⟨_, rfl, by simp⟩
        · exact ⟨_, rfl, by simp⟩
    obtain ⟨fault, hfails, hcode⟩ := hcreate
    rw [makeDirectories, makeDirectoriesWithin, hfails]
    cases fault with
    | unusable => exact .refl fs path
    | call failure =>
      simp only [if_pos (hcode failure rfl)]
      exact .refl fs path
  · refine makeDirectoriesWithin_makesAbove fs _ (Path.isBelow_iff.2 ⟨rfl, ?_, ?_⟩)
    · exact List.dropLast_prefix path.names
    · have hlength : path.parent.names.length = path.names.length - 1 := List.length_dropLast
      have hpos := List.length_pos_iff.2 hnames
      omega

/-- Directories are made only at paths that can be passed to a call. -/
theorem nul_notMem_of_makeDirectories (h : fs.makeDirectories p = (.ok (), fs')) :
    '\x00' ∉ p.text.toList := by
  intro hnul
  have hcreate : fs.create p .directory = .error .unusable := by
    rw [create, target, Path.checkText, if_pos hnul]
    rfl
  rw [makeDirectories] at h
  cases hmissing : p.names.length <;>
    rw [hmissing, makeDirectoriesWithin, hcreate] at h <;> simp at h

/-! ### New files -/

theorem get?_discard {contents : ByteArray} (habs : p.isAbsolute = true)
    (h : fs.create p (.file contents) = .ok fs') (k : Key) :
    (fs'.discard p).store.get? k = fs.store.get? k := by
  obtain ⟨dir, name, hnames, hfree, hafter⟩ := get?_create h
  have hstart : fs'.start p = fs.start p := start_of_create h (.inl habs)
  have hfile : fs'.store.get? (dir ++ [name]) = some (.file contents) := by
    rw [hafter, if_pos rfl]
  have hunlink : fs'.unlink p = .ok (fs'.update (fs'.store.erase (dir ++ [name]))) := by
    rw [unlink, (hnames.of_within (within_of_create h) hstart).target]
    simp [hfile, bind, Except.bind]
  have herased : (fs'.discard p).store = fs'.store.erase (dir ++ [name]) := by
    rw [discard, hunlink]
    rfl
  rw [herased]
  by_cases hk : k = dir ++ [name]
  · rw [hk, Store.get?_erase_self (by simp) (by simp [hfile]), hfree]
  · rw [Store.get?_erase_of_ne hk, hafter, if_neg hk]

/-! ### Files in place of others -/

/-- A file with the contents has taken the place of what a path was about in `fs`, which was no
directory, and nothing else has changed. The path leads to the file if it still leads to a directory
without its last name, and also if no link stood in the place. -/
structure PutsFile (fs : FileSystem) (p : Path) (dir : Key) (name : String) (contents : ByteArray)
    (fs' : FileSystem) : Prop where
  names : fs.Names p dir name
  place : fs.store.get? (dir ++ [name]) ≠ some .directory
  entries : ∀ k, fs'.store.get? k =
    if k = dir ++ [name] then some (.file contents) else fs.store.get? k
  leads : (fs'.isDirectory p.parent = .ok true ∨
      ∀ target, fs.store.get? (dir ++ [name]) ≠ some (.link target)) →
    fs'.entryAt true p = .ok (some (dir ++ [name]), .file contents)

/-- A new file is moved to a path: the directory of the path was there before, and nothing is
changed but the entry of its name. -/
theorem exists_putsFile {file : Path} {contents : ByteArray} {written renamed : FileSystem}
    (habs : file.isAbsolute = true)
    (hhere : p.isAbsolute = true ∨ fs.store.get? fs.here.key = some .directory)
    (hcreate : fs.create file (.file contents) = .ok written)
    (hrename : written.rename file p = .ok renamed) :
    ∃ dir name, PutsFile fs p dir name contents renamed := by
  obtain ⟨_, _, -, -, hwritten⟩ := get?_create hcreate
  obtain ⟨dir, name, hfile, hentries⟩ := holdsFile_of_new habs hcreate hrename
  refine ⟨dir, name, ?_, fun hdir => hfile.place (within_of_create hcreate _ _ hdir), hentries,
    fun hleads => hfile.entryAt ?_⟩
  · refine hfile.names.of_withinUpTo (fun k node hk => ?_) (start_of_create hcreate hhere).symm
    rw [hwritten] at hk
    split at hk
    · rename_i heq
      -- the new file is no directory, so it is not the one that the path ends in
      refine .inr ⟨?_, contents, (Option.some.inj hk).symm⟩
      rintro rfl
      have hdir := hfile.names.directory
      rw [hwritten, if_pos heq] at hdir
      simp at hdir
    · exact .inl hk
  · rcases hleads with hparent | hlink
    · exact hfile.way_of_isDirectory hparent
    · refine hfile.way_of_not_link fun target hn => hlink target ?_
      rw [hwritten] at hn
      split at hn
      · simp at hn
      · exact hn

/-- To which names are drawn later, nothing that is put in place has a relation. -/
theorem PutsFile.of_drawn {contents : ByteArray} {drawn : Nat → String}
    (h : PutsFile { fs with drawn } p dir name contents fs') :
    PutsFile fs p dir name contents fs' where
  names := ⟨h.names.text, h.names.nonempty, h.names.last, h.names.way, h.names.directory,
    h.names.limit⟩
  place := h.place
  entries := h.entries
  leads := h.leads

/-- A new file is moved in place, or everything there was before it is there. Unless a NUL character
stands in the path, the new file is gone then. -/
theorem moveNew_ends {file : Path} {contents : ByteArray} {written : FileSystem}
    (hcreate : fs.create file (.file contents) = .ok written) (habs : file.isAbsolute = true)
    (hhere : p.isAbsolute = true ∨ fs.store.get? fs.here.key = some .directory) :
    (∃ fault fs', written.moveNew file p = (.error fault, fs') ∧ fs.store.Within fs'.store ∧
      ('\x00' ∉ p.text.toList → ∀ k, fs'.store.get? k = fs.store.get? k)) ∨
    ∃ dir name fs', written.moveNew file p = (.ok (), fs') ∧
      PutsFile fs p dir name contents fs' := by
  unfold moveNew
  cases hrename : written.rename file p with
  | ok renamed =>
    obtain ⟨dir, name, hputs⟩ := exists_putsFile habs hhere hcreate hrename
    exact .inr ⟨dir, name, renamed, rfl, hputs⟩
  | error fault =>
    cases fault with
    | call failure =>
      have hsame := get?_discard habs hcreate
      exact .inl ⟨_, _, rfl, fun k node hn => (hsame k).trans hn, fun _ => hsame⟩
    | unusable =>
      refine .inl ⟨_, _, rfl, within_of_create hcreate, fun hnul => ?_⟩
      obtain ⟨_, _, hnew, -, -⟩ := get?_create hcreate
      exact absurd hrename (rename_passed (nul_notMem_of_checkText hnew.text) hnul written)

/-- Replacing comes to nothing and leaves every entry that there was, or it puts the file in place.
Unless a NUL character stands in the path, nothing is new where it comes to nothing. -/
theorem replaceFile_ends {tmpDir : Path} (contents : ByteArray) (habs : tmpDir.isAbsolute = true)
    (hhere : p.isAbsolute = true ∨ fs.store.get? fs.here.key = some .directory) :
    (∃ fault fs', fs.replaceFile tmpDir p contents = (.error fault, fs') ∧
      fs.store.Within fs'.store ∧
      ('\x00' ∉ p.text.toList → ∀ k, fs'.store.get? k = fs.store.get? k)) ∨
    ∃ dir name fs', fs.replaceFile tmpDir p contents = (.ok (), fs') ∧
      PutsFile fs p dir name contents fs' := by
  unfold replaceFile
  rcases hnew : fs.createDrawn tmpDir (.file contents) drawLimit with ⟨fault | file, written⟩
  · obtain ⟨drawn, rfl⟩ := createDrawn_error hnew
    cases fault <;> exact .inl ⟨_, _, rfl, fun _ _ hn => hn, fun _ _ => rfl⟩
  · obtain ⟨tmp, drawn, rfl, hcreate⟩ := createDrawn_ok hnew
    have hfile : (tmpDir.join tmp).isAbsolute = true := habs
    rcases moveNew_ends hcreate hfile hhere with hfails | ⟨dir, name, fs', hmoved, hputs⟩
    · exact .inl hfails
    · exact .inr ⟨dir, name, fs', hmoved, hputs.of_drawn⟩

/-! ### Saving -/

/-- How saving a text at a path ends. If it fails, everything that there was is there still, and
nothing is new but directories above the path, unless the last name of the path holds a NUL
character. If it does not fail, these are made first, and then the text takes the place of what is
at the path. -/
inductive SaveEnds (fs : FileSystem) (path : Path) (text : ByteArray) :
    Except SaveFault Path × FileSystem → Prop
  | failed {made fs' : FileSystem} (fault : SaveFault) (above : MakesAbove fs path made)
    (kept : made.store.Within fs'.store)
    (same : '\x00' ∉ path.name.toList → ∀ k, fs'.store.get? k = made.store.get? k) :
    SaveEnds fs path text (.error fault, fs')
  | saved {made fs' : FileSystem} {dir : Key} {name : String} (above : MakesAbove fs path made)
    (puts : PutsFile made path dir name text fs') : SaveEnds fs path text (.ok path, fs')

theorem nul_mem_of_name (h : '\x00' ∈ path.name.toList) : '\x00' ∈ path.text.toList := by
  rw [Path.mem_text_iff (by decide) (by decide)]
  cases hlast : path.names.getLast? with
  | none => simp [Path.name, hlast] at h
  | some n =>
    rw [Path.name, hlast] at h
    exact ⟨n, List.mem_of_getLast? hlast, h⟩

/-- A NUL character stands in the last name of a path or in the path above it. -/
theorem nul_notMem_of_parent (hparent : '\x00' ∉ path.parent.text.toList)
    (hname : '\x00' ∉ path.name.toList) : '\x00' ∉ path.text.toList := by
  rw [Path.mem_text_iff (by decide) (by decide)] at hparent ⊢
  rintro ⟨n, hn, hnul⟩
  have hne : path.names ≠ [] := List.ne_nil_of_mem hn
  rw [← List.dropLast_concat_getLast hne] at hn
  rcases List.mem_append.1 hn with hn | hn
  · exact hparent ⟨n, hn, hnul⟩
  · refine hname ?_
    obtain rfl := List.mem_singleton.1 hn
    rwa [Path.name, List.getLast?_eq_some_getLast hne]

/-- Saving fails before there is a file, or the directories above the path are made and what is at
the path is replaced. -/
theorem saveConfig_steps (fs : FileSystem) (config : Config) (path : Path) :
    (∃ fault, fs.saveConfig config (some path) =
      (.error fault, (fs.makeDirectories path.parent).2)) ∨
    ∃ made dir, fs.makeDirectories path.parent = (.ok (), made) ∧ dir.isAbsolute = true ∧
      (path.isAbsolute = true ∨ made.store.get? made.here.key = some .directory) ∧
      fs.saveConfig config (some path) =
        ((made.replaceFile dir path config.write.toUTF8).1.map fun _ => path,
          (made.replaceFile dir path config.write.toUTF8).2) := by
  unfold saveConfig
  cases hmade : fs.makeDirectories path.parent with
  | mk outcome made =>
  cases outcome with
  | error fault =>
    simp only [hmade]
    exact .inl ⟨_, rfl⟩
  | ok _ =>
  simp only [hmade]
  cases hdir : made.absolute path.parent with
  | error fault => cases fault <;> exact .inl ⟨_, rfl⟩
  | ok dir =>
    have hhere : path.isAbsolute = true ∨ made.store.get? made.here.key = some .directory := by
      rcases absolute_ok hdir with ⟨habs, -⟩ | ⟨-, cur, hcurrent, -⟩
      · exact .inl habs
      · exact .inr (currentPath_ok hcurrent).2.1
    have habs : dir.isAbsolute = true := isAbsolute_of_absolute hdir
    refine .inr ⟨made, dir.collapsed, rfl, habs, hhere, ?_⟩
    dsimp only
    generalize made.replaceFile dir.collapsed path config.write.toUTF8 = replaced
    rcases replaced with ⟨fault | _, fs'⟩ <;> rfl

/-- Once the directories above the path are made, saving keeps every entry, or it puts the text in
place of what is at the path. -/
theorem saveConfig_keeps_or_puts (fs : FileSystem) (config : Config) (path : Path) :
    (∃ fault fs', fs.saveConfig config (some path) = (.error fault, fs') ∧
      (fs.makeDirectories path.parent).2.store.Within fs'.store ∧
      ('\x00' ∉ path.name.toList →
        ∀ k, fs'.store.get? k = (fs.makeDirectories path.parent).2.store.get? k)) ∨
    ∃ dir name fs', fs.saveConfig config (some path) = (.ok path, fs') ∧
      PutsFile (fs.makeDirectories path.parent).2 path dir name config.write.toUTF8 fs' := by
  rcases saveConfig_steps fs config path with
    ⟨fault, hfails⟩ | ⟨made, dir, hmade, habs, hhere, hsave⟩
  · exact .inl ⟨fault, _, hfails, fun _ _ hn => hn, fun _ _ => rfl⟩
  · rw [hmade]
    rcases replaceFile_ends config.write.toUTF8 habs hhere with
      ⟨fault, fs', hfails, hkept, hsame⟩ | ⟨key, name, fs', hdone, hputs⟩
    · rw [hfails] at hsave
      refine .inl ⟨fault, fs', hsave, hkept, fun hname => hsame ?_⟩
      exact nul_notMem_of_parent (nul_notMem_of_makeDirectories hmade) hname
    · rw [hdone] at hsave
      exact .inr ⟨key, name, fs', hsave, hputs⟩

/-- Saving is all or nothing, whatever names are drawn for the new file. -/
theorem saveConfig_ends (fs : FileSystem) (config : Config) (path : Path) :
    SaveEnds fs path config.write.toUTF8 (fs.saveConfig config (some path)) := by
  have habove := makeDirectories_makesAbove fs path
  rcases saveConfig_keeps_or_puts fs config path with
    ⟨fault, fs', hfails, hkept, hsame⟩ | ⟨dir, name, fs', hsaved, hputs⟩
  · rw [hfails]
    exact .failed fault habove hkept hsame
  · rw [hsaved]
    exact .saved habove hputs

/-- A configuration is saved in a directory that is new, below a link, and what was there before is
there still. -/
theorem saveConfig_ends_new : ∃ fs' key,
    besideLink.saveConfig escapedNames (some newPath) = (.ok newPath, fs') ∧
      fs'.entryAt true newPath = .ok (some key, .file escapedNames.write.toUTF8) ∧
      ∀ k ≠ key, ∀ node, besideLink.store.get? k = some node → fs'.store.get? k = some node := by
  have hends := saveConfig_ends besideLink escapedNames newPath
  have hsave := saveConfig_eq (show (besideLink.saveConfig escapedNames
    (some newPath)).1.toOption = some newPath by decide +kernel)
  have hthere : (besideLink.saveConfig escapedNames (some newPath)).2.isDirectory newPath.parent =
    .ok true := ok_of_toOption (by decide +kernel)
  generalize (besideLink.saveConfig escapedNames (some newPath)).2 = fs' at hsave hthere
  rw [hsave] at hends
  cases hends with
  | saved above puts =>
    refine ⟨fs', _, hsave, puts.leads (.inl hthere), fun k hk node hn => ?_⟩
    rw [puts.entries, if_neg hk]
    exact above.within _ _ hn

/-- Where a file takes the place of a link through which its own path goes, it is saved, and yet no
file is at the path. -/
theorem saveConfig_ends_beside : ∃ fs' : FileSystem,
    besideLink.saveConfig .standard (some throughEnd) = (.ok throughEnd, fs') ∧
      fs'.isFile throughEnd = .ok false ∧
      fs'.store.get? ["w", "l"] = some (.file Config.standard.write.toUTF8) := by
  have hsave := saveConfig_eq (show (besideLink.saveConfig .standard
    (some throughEnd)).1.toOption = some throughEnd by decide +kernel)
  exact ⟨_, hsave, ok_of_toOption (by decide +kernel), by decide +kernel⟩

/-- A NUL character in the last name is noticed only when the new file is to be moved, and then that
is left behind, whatever name was drawn for it. -/
theorem saveConfig_leaves_file {made written : FileSystem} {dir file : Path} {config : Config}
    (hmade : fs.makeDirectories path.parent = (.ok (), made))
    (hdir : made.absolute path.parent = .ok dir)
    (hnew : made.createDrawn dir.collapsed (.file config.write.toUTF8) drawLimit =
      (.ok file, written))
    (hnul : '\x00' ∈ path.name.toList) :
    fs.saveConfig config (some path) = (.error (.fault .unusable), written) ∧
      ∃ k, made.store.get? k = none ∧
        written.store.get? k = some (.file config.write.toUTF8) := by
  have habs : dir.isAbsolute = true := isAbsolute_of_absolute hdir
  obtain ⟨tmp, drawn, rfl, hcreate⟩ := createDrawn_ok hnew
  obtain ⟨tmpDir, name, hnames, hfree, hafter⟩ := get?_create hcreate
  have hsource : written.target (dir.collapsed.join tmp) = .ok (.named tmpDir name) :=
    (hnames.of_within (within_of_create hcreate) (start_of_create hcreate (.inl habs))).target
  have hdestination : written.target path = .error .unusable := by
    rw [FileSystem.target, Path.checkText, if_pos (nul_mem_of_name hnul)]
    rfl
  have hrename : written.rename (dir.collapsed.join tmp) path = .error .unusable := by
    rw [FileSystem.rename, hsource, hdestination]
    rfl
  refine ⟨?_, tmpDir ++ [name], hfree, (hafter _).trans (if_pos rfl)⟩
  simp only [saveConfig, hmade, hdir, replaceFile, hnew, moveNew, hrename]

example : (besideLink.saveConfig .standard (some (Path.ofString "/w/a\x00b"))).2.store.get?
    ["w", "tmp8w6am66_.tmp"] = some (.file Config.standard.write.toUTF8) := by
  decide +kernel

end FileSystem

end VendorTree
