import VendorTree.Proofs.Observed
import VendorTree.Proofs.SweepOrder

/-!
# What a sweep removes

A sweep asks whether a directory holds an entry, and then removes what its path names. What is no
directory holds no entry, so a sweep with a listing from before would also take a file or a link
that stands in the place of a listed directory. It takes nothing else but directories without
entries: a removal never makes a path lead to what it did not lead to before, so where the listed
paths lead to no files and no links at the beginning, none is removed.
-/

namespace VendorTree

open VendorTree.Action (Maintains)

variable {fs fs' : FileSystem} {p q : Path} {key : Key} {node : Node}

/-! ### One removal -/

namespace FileSystem

variable {now later : FileSystem} {absolute : Bool}

/-- Nothing is new: the entries were there before, and the paths that start at the root, or those
that start where the process is, lead to nothing but what they led to before. -/
structure NothingNew (fs : FileSystem) (absolute : Bool) (now : FileSystem) : Prop where
  within : now.store.Within fs.store
  reaches : ∀ q key, q.isAbsolute = absolute → now.Reaches q key → fs.Reaches q key

theorem NothingNew.refl (fs : FileSystem) (absolute : Bool) : fs.NothingNew absolute fs :=
  ⟨fun _ _ hn => hn, fun _ _ _ hq => hq⟩

theorem NothingNew.trans (h : fs.NothingNew absolute now) (h' : now.NothingNew absolute later) :
    fs.NothingNew absolute later where
  within := h'.within.trans h.within
  reaches q key hq hkey := h.reaches q key hq (h'.reaches q key hq hkey)

theorem NothingNew.entryAt (h : fs.NothingNew q.isAbsolute now)
    (hq : now.entryAt false q = .ok (some key, node)) :
    fs.entryAt false q = .ok (some key, node) := by
  obtain ⟨htext, hleads, hn⟩ := entryAt_ok hq
  exact entryAt_of_walk htext (h.reaches q key rfl hleads) (h.within key node (hn key rfl))

/-- A removal makes nothing new. Only a relative path may start elsewhere afterwards, and then the
directory that the process was in is gone. -/
theorem RemovesLeaf.nothingNew (h : fs.RemovesLeaf p fs') : fs.NothingNew p.isAbsolute fs' := by
  obtain ⟨dir, name, node, htarget, -, -, rfl⟩ := h
  have hwithin : (fs.store.erase (dir ++ [name])).Within fs.store :=
    Store.erase_within fs.store _
  refine ⟨hwithin, fun q key hsame hq => ?_⟩
  by_cases habs : q.isAbsolute = true
  · exact leads_of_within hwithin habs hq
  · have hnames := target_ok htarget
    have hhere : ∀ fs : FileSystem, fs.start q = fs.here := fun fs => if_neg habs
    have hbefore : fs.start p = fs.here := if_neg (by rwa [← hsame])
    have hway := hnames.way
    rw [hbefore] at hway
    have hdir := Store.directory_of_walkFrom hway hnames.directory
    rw [Reaches, hhere] at hq ⊢
    exact Store.walkFrom_keep hwithin hdir hq

theorem RemovesLeaf.entryAt (h : fs.RemovesLeaf p fs') : ∃ key node,
    fs.entryAt false p = .ok (some key, node) ∧ fs.store.children key = [] ∧
      fs' = fs.update (fs.store.erase key) := by
  obtain ⟨dir, name, node, htarget, hn, hempty, rfl⟩ := h
  have hleads := reaches_of_target htarget hn
  exact ⟨_, node, entryAt_of_walk (target_ok htarget).text hleads hn, hempty, rfl⟩

end FileSystem

/-! ### The calls of a sweep -/

section Calls

variable {calls : List (Call FileSystem)} {rule : PreservationRule} {absolute : Bool}

/-- A call that went through removed the one entry that its path names, and any other call changed
nothing. -/
def Call.Single (c : Call FileSystem) : Prop :=
  if c.done then c.before.RemovesLeaf c.path c.after else c.after = c.before

theorem Call.MadeBy.single {c : Call FileSystem} (h : c.MadeBy (diskTools [] rule))
    (hkind : c.kind = .entry) : c.Single := by
  unfold Call.Single
  rcases h.cases with ⟨hdone, hafter⟩ | hremove
  · rw [if_neg (by simp [hdone])]
    exact hafter
  · rw [hkind, FileSystem.removeBy] at hremove
    cases hcall : c.before.removePath c.path with
    | ok fs' =>
      rw [hcall] at hremove
      obtain ⟨houtcome, rfl⟩ := Prod.mk.inj hremove
      have hdone : c.done = true := by rw [Call.done, ← houtcome]; rfl
      rw [if_pos hdone]
      exact FileSystem.removePath_removesLeaf hcall
    | error fault =>
      rw [hcall] at hremove
      obtain ⟨houtcome, hafter⟩ := Prod.mk.inj hremove
      have hdone : c.done = false := by rw [Call.done, ← houtcome]; rfl
      rw [if_neg (by simp [hdone])]
      exact hafter.symm

theorem Call.Single.nothingNew {c : Call FileSystem} (h : c.Single) :
    c.before.NothingNew c.path.isAbsolute c.after := by
  unfold Call.Single at h
  split at h
  · exact h.nothingNew
  · rw [h]
    exact .refl _ _

/-- Nothing is new when a call is made, nor after all calls, if their paths start alike. -/
theorem Linked.nothingNew (h : Linked fs calls fs') (hsingle : ∀ c ∈ calls, c.Single)
    (halike : ∀ c ∈ calls, c.path.isAbsolute = absolute) :
    fs.NothingNew absolute fs' ∧ ∀ c ∈ calls, fs.NothingNew absolute c.before := by
  induction calls generalizing fs with
  | nil =>
    obtain rfl : fs = fs' := h
    exact ⟨.refl _ _, by simp⟩
  | cons c rest ih =>
    obtain ⟨rfl, hrest⟩ := h
    have hcall := (hsingle c (by simp)).nothingNew
    rw [halike c (by simp)] at hcall
    obtain ⟨hend, hlater⟩ := ih hrest (fun d hd => hsingle d (List.mem_cons_of_mem c hd))
      fun d hd => halike d (List.mem_cons_of_mem c hd)
    refine ⟨hcall.trans hend, fun d hd => ?_⟩
    rcases List.mem_cons.1 hd with rfl | hd
    · exact .refl _ _
    · exact hcall.trans (hlater d hd)

/-- A call removed a directory in which nothing lay. A link to such a directory is none. -/
def Call.TakesEmptyDirectory (c : Call FileSystem) : Prop :=
  ∃ key, c.before.entryAt false c.path = .ok (some key, .directory) ∧
    c.before.store.children key = [] ∧ c.after = c.before.update (c.before.store.erase key)

/-- Calls that remove directories leave all files and links where they are. -/
theorem Linked.keeps (h : Linked fs calls fs')
    (hcalls : ∀ c ∈ calls, c.TakesEmptyDirectory ∨ c.after = c.before) {k : Key}
    (hn : fs.store.get? k = some node) (hnode : node ≠ .directory) :
    fs'.store.get? k = some node := by
  induction calls generalizing fs with
  | nil =>
    obtain rfl : fs = fs' := h
    exact hn
  | cons c rest ih =>
    obtain ⟨rfl, hrest⟩ := h
    apply ih hrest fun d hd => hcalls d (List.mem_cons_of_mem c hd)
    rcases hcalls c (by simp) with ⟨key, hentry, -, hafter⟩ | hafter
    · have hdir := (FileSystem.entryAt_ok hentry).2.2 key rfl
      have hne : k ≠ key := by
        rintro rfl
        exact hnode (Option.some.inj (hn.symm.trans hdir))
      rw [hafter]
      exact (Store.get?_erase_of_ne hne).trans hn
    · rwa [hafter]

end Calls

/-! ### Sweeps -/

section Sweeps

variable {l : Listing}

/-- What the paths of the listed directories lead to are directories, as far as they lead to
anything. A link at the end of a path is not followed. -/
def Listing.KeepsPlaces (l : Listing) (fs : FileSystem) : Prop :=
  ∀ p ∈ l.dirPaths, ∀ key node, fs.entryAt false p = .ok (key, node) → node = .directory

/-- The sweep whose calls are observed. -/
def observedSweep (source : Source) (l : Listing) :
    Action Fault (Observed FileSystem) (List Path) :=
  sweep source (fun p => (diskHoldsEntry p).unobserved) (observing .entry diskRemove) l.dirPaths

/-- What is known of the calls of a sweep that ends with an outcome and a file system. -/
structure SweepsEmptyDirectories (fs : FileSystem) (l : Listing)
    (outcome : Except Fault (List Path))
    (calls : List (Call FileSystem)) (fs' : FileSystem) : Prop where
  linked : Linked fs calls fs'
  listed : ∀ c ∈ calls, c.path ∈ l.dirPaths
  reported : ∀ removed, outcome = .ok removed → removed = removedBy calls
  empty : ∀ c ∈ calls, c.done = true → c.TakesEmptyDirectory
  others : ∀ c ∈ calls, c.done = false → c.after = c.before
  kept : ∀ k node, fs.store.get? k = some node → node ≠ .directory →
    fs'.store.get? k = some node

theorem observedSweep_records (source : Source) (journal : List Record) (l : Listing)
    (fs : FileSystem) : Recorded (diskTools [] .standard) (planIf true .emptyDirs l.dirPaths) fs
      (observedSweep source l ⟨⟨fs, []⟩, journal⟩).2.world := by
  have hask : ∀ p v, Maintains (· = v) (diskHoldsEntry p) := fun p v => Maintains.query _
  refine sweep_maintains (t := (diskTools [] .standard).observed) source
    (fun p => unobserved_records (hask p)) (fun p hp => ?_) ⟨⟨fs, []⟩, journal⟩
      (Recorded.start _ _ _)
  exact removal_records (e := ⟨.emptyDirs, p⟩) (mem_planIf.2 ⟨rfl, rfl, mem_sweepOrder.1 hp⟩)

/-- A sweep with the listing of an earlier time removes directories in which nothing lies, and
reports these, whatever else became of the tree meanwhile: unless a file or a link has taken the
place of a listed directory. -/
theorem sweep_removes_empty_directories (fs : FileSystem) (l : Listing) (source : Source)
    (journal : List Record) (h : l.KeepsPlaces fs) :
    let ended := sweep source diskHoldsEntry diskRemove l.dirPaths ⟨fs, journal⟩
    let observed := observedSweep source l ⟨⟨fs, []⟩, journal⟩
    observed.1 = ended.1 ∧ observed.2.world.world = ended.2.world ∧
      SweepsEmptyDirectories fs l ended.1 observed.2.world.calls ended.2.world := by
  intro ended observed
  have hshows : ended = (observed.1, ⟨observed.2.world.world, observed.2.journal⟩) :=
    sweep_shows (diskTools [] .standard) source l.dirPaths ⟨⟨fs, []⟩, journal⟩
  have houtcome : observed.1 = ended.1 := by rw [hshows]
  have hworld : observed.2.world.world = ended.2.world := by rw [hshows]
  have hrecorded := observedSweep_records source journal l fs
  have hplanned : ∀ c ∈ observed.2.world.calls, c.kind = .entry ∧ c.path ∈ l.dirPaths := by
    intro c hc
    obtain ⟨e, he, hkind, hpath⟩ := hrecorded.planned c hc
    obtain ⟨p, hp, rfl⟩ := List.mem_map.1 he
    exact ⟨hkind, hpath ▸ hp⟩
  have hsingle : ∀ c ∈ observed.2.world.calls, c.Single := fun c hc =>
    (hrecorded.made c hc).single (hplanned c hc).1
  -- all listed paths start where the root of the listing starts
  have halike : ∀ c ∈ observed.2.world.calls, c.path.isAbsolute = l.root.isAbsolute := by
    intro c hc
    obtain ⟨t, -, hpath⟩ := List.mem_map.1 (hplanned c hc).2
    rw [← hpath]
    rfl
  obtain ⟨-, hbefore⟩ := hrecorded.linked.nothingNew hsingle halike
  have hempty : ∀ c ∈ observed.2.world.calls, c.done = true → c.TakesEmptyDirectory := by
    intro c hc hdone
    have hremoves := hsingle c hc
    rw [Call.Single, if_pos hdone] at hremoves
    obtain ⟨key, node, hentry, hchildren, hafter⟩ := hremoves.entryAt
    have hnew := hbefore c hc
    rw [← halike c hc] at hnew
    obtain rfl := h c.path (hplanned c hc).2 _ _ (hnew.entryAt hentry)
    exact ⟨key, hentry, hchildren, hafter⟩
  have hothers : ∀ c ∈ observed.2.world.calls, c.done = false → c.after = c.before := by
    intro c hc hdone
    have hremoves := hsingle c hc
    rwa [Call.Single, if_neg (by simp [hdone])] at hremoves
  have hlinked : Linked fs observed.2.world.calls ended.2.world := hworld ▸ hrecorded.linked
  refine ⟨houtcome, hworld, hlinked, fun c hc => (hplanned c hc).2, fun removed hremoved => ?_,
    hempty, hothers, fun k node hn hnode => ?_⟩
  · have hreports := sweep_reports (diskTools [] .standard) source l.dirPaths [] ⟨⟨fs, []⟩, journal⟩
      removed observed.2 rfl (Prod.ext (houtcome.trans hremoved) rfl)
    exact hreports.symm
  · refine hlinked.keeps (fun c hc => ?_) hn hnode
    cases hdone : c.done with
    | true => exact .inl (hempty c hc hdone)
    | false => exact .inr (hothers c hc hdone)

end Sweeps

/-- What is left of a project after its files were removed one by one: directories in which nothing
lies, one that is full, and one that is gone since it was listed. -/
def emptiedProject : FileSystem where
  store := [(["p"], "lib", .directory), (["p", "lib"], "inner", .directory),
    (["p"], "docs", .directory), (["p", "docs"], "LICENSE", .file ⟨#[1]⟩)].foldl
      (fun s (entry : Key × String × Node) => s.insert entry.1 entry.2.1 entry.2.2)
      (Store.empty.insert [] "p" .directory)
  here := ⟨[], 0⟩

def emptiedListing : Listing where
  root := Path.ofString "/p"
  dirs := ["lib/inner", "docs", "lib", "old"]

theorem sweep_removes_empty_directories_emptied : emptiedListing.KeepsPlaces emptiedProject ∧
    ∃ calls fs', SweepsEmptyDirectories emptiedProject emptiedListing
        (.ok [Path.ofString "/p/lib/inner", Path.ofString "/p/lib"]) calls fs' ∧
      fs'.store.get? ["p", "docs", "LICENSE"] = some (.file ⟨#[1]⟩) := by
  have hplaces : emptiedListing.KeepsPlaces emptiedProject := by
    intro p hp key node hentry
    have hall : ∀ p ∈ emptiedListing.dirPaths,
        (emptiedProject.entryAt false p).toOption.all fun e => e.2 = .directory := by
      decide +kernel
    have hthis := hall p hp
    rw [hentry] at hthis
    exact of_decide_eq_true hthis
  obtain ⟨-, -, hsweeps⟩ :=
    sweep_removes_empty_directories emptiedProject emptiedListing .cleanup [] hplaces
  have houtcome : (sweep .cleanup diskHoldsEntry diskRemove emptiedListing.dirPaths
      ⟨emptiedProject, []⟩).1 = .ok [Path.ofString "/p/lib/inner", Path.ofString "/p/lib"] := by
    rw [sweep, sweepOrder_of_ordered (by decide +kernel) (by decide +kernel)]
    exact ok_of_toOption (by decide +kernel)
  rw [houtcome] at hsweeps
  exact ⟨hplaces, _, _, hsweeps, hsweeps.kept _ _ (by decide +kernel) (by simp)⟩

/-- A file has taken the place of the directory `lib` since the listing was made. -/
def replacedProject : FileSystem where
  store := (Store.empty.insert [] "p" .directory).insert ["p"] "lib" (.file ⟨#[1]⟩)
  here := ⟨[], 0⟩

/-- The sweep takes the file for a directory in which nothing lies. -/
theorem sweep_removes_file :
    let swept := sweep .cleanup diskHoldsEntry diskRemove [Path.ofString "/p/lib"]
      ⟨replacedProject, []⟩
    Listing.dirPaths { root := Path.ofString "/p", dirs := ["lib"] } = [Path.ofString "/p/lib"] ∧
      replacedProject.store.get? ["p", "lib"] = some (.file ⟨#[1]⟩) ∧
        swept.1 = .ok [Path.ofString "/p/lib"] ∧ swept.2.world.store.get? ["p", "lib"] = none := by
  intro swept
  have horder : sweepOrder [Path.ofString "/p/lib"] = [Path.ofString "/p/lib"] :=
    sweepOrder_of_ordered (by simp) (by simp)
  have hswept : swept = sweepInOrder .cleanup diskHoldsEntry diskRemove [Path.ofString "/p/lib"]
      ⟨replacedProject, []⟩ := by
    show sweepInOrder _ _ _ (sweepOrder _) _ = _
    rw [horder]
  rw [hswept]
  exact ⟨by decide +kernel, by decide +kernel, ok_of_toOption (by decide +kernel),
    by decide +kernel⟩

end VendorTree
