import VendorTree.Proofs.KeyedRuns
import VendorTree.Proofs.Unions
import VendorTree.Proofs.VendorContainment

/-!
# Projects in a vendor directory

The path of a vendor directory may be relative. In a tree without links it leads to a directory that
is known by its absolute path, and the import path of a project leads on from there. A run on the
project stays in it, and what lies beside it is found as before.
-/

namespace VendorTree

open CommandLine (Request Settings readRequest)

variable {fs fs' files : FileSystem} {dir root : Path} {text : String} {names : List String}
  {touched : Key → Prop} {rule : PreservationRule} {used : List String} {policies : PolicySet}

/-! ### A directory without links -/

theorem IsImportPath.pathNames_eq (h : IsImportPath text names) : pathNames text = names := by
  obtain ⟨-, hnamed, rfl⟩ := h
  exact pathNames_entryText fun n hn => (hnamed n hn).1

theorem notMem_text_join {c : Char} (hslash : c ≠ '/') (hdot : c ≠ '.') (hdir : c ∉ dir.text.toList)
    (htext : c ∉ text.toList) : c ∉ (dir.join text).text.toList := by
  rw [Path.mem_text_iff hslash hdot] at hdir ⊢
  rintro ⟨n, hn, hc⟩
  rcases List.mem_append.1 hn with hn | hn
  · exact hdir ⟨n, hn, hc⟩
  · obtain ⟨piece, hpiece, rfl⟩ := List.mem_map.1 (List.mem_filter.1 hn).1
    rw [String.toList_ofList] at hc
    rw [pieces_eq_splitOn] at hpiece
    have hjoined : ['/'].intercalate (text.toList.splitOn '/') = text.toList :=
      List.intercalate_splitOn '/'
    rw [← hjoined] at htext
    exact htext ((mem_intercalate_iff (by simpa using hslash)).2 ⟨piece, hpiece, hc⟩)

theorem Store.walkOn_enter_congr {s t : Store} {follow : Bool}
    {jump jump' : Key → List Step → Except ErrorCode Spot} (hs : s.LinkFree) {here : Key}
    (hsame : ∀ a b, names = a ++ b → s.get? (here ++ a) = t.get? (here ++ a)) :
    s.walkOn follow jump here (names.map Step.enter) =
      t.walkOn follow jump' here (names.map Step.enter) := by
  induction names generalizing here with
  | nil => rfl
  | cons n rest ih =>
    have hhere := hsame [] _ rfl
    have hnext := hsame [n] rest rfl
    have hrest : s.walkOn follow jump (here ++ [n]) (rest.map Step.enter) =
        t.walkOn follow jump' (here ++ [n]) (rest.map Step.enter) := by
      refine ih fun a b hab => ?_
      rw [List.append_assoc]
      exact hsame (n :: a) b (by rw [hab]; rfl)
    rw [List.append_nil] at hhere
    have hstep : s.advance follow here (.enter n) (rest.map Step.enter) =
        t.advance follow here (.enter n) (rest.map Step.enter) := by
      refine advance_congr hhere fun _ name hname => ?_
      cases hname
      exact hnext
    rw [List.map_cons, walkOn_cons, walkOn_cons, ← hstep]
    cases hs' : s.advance follow here (.enter n) (rest.map Step.enter) with
    | onward next =>
      obtain rfl := eq_stepFrom_of_advance hs'
      exact hrest
    | through target => exact absurd hs' (advance_of_linkFree hs)
    | ends outcome => rfl

namespace FileSystem

/-- A path that is made absolute to one of a readable directory, in a tree without links. -/
structure HoldsDirectory (fs : FileSystem) (dir root : Path) : Prop where
  absolute : fs.absolute dir = .ok root
  readable : fs.Readable root
  linkFree : fs.store.LinkFree

theorem absolute_of_relative {cur : Path} (hrel : dir.isAbsolute = false)
    (hcurrent : fs.currentPath = .ok cur) : fs.absolute dir = .ok (cur.append dir) := by
  unfold absolute
  rw [if_neg (by simp [hrel]), hcurrent]
  rfl

theorem absolute_join {t : String} (h : fs.absolute dir = .ok root) :
    fs.absolute (dir.join t) = .ok (root.join t) := by
  obtain ⟨habs, rfl⟩ | ⟨hrel, cur, hcurrent, rfl⟩ := absolute_ok h
  · exact if_pos habs
  · have hjoined : cur.append (dir.join t) = (cur.append dir).join t := by
      simp only [Path.append, Path.join, List.append_assoc]
    have hrelative : (dir.join t).isAbsolute = false := hrel
    rw [absolute_of_relative hrelative hcurrent, hjoined]

theorem suffix_names_of_absolute (h : fs.absolute dir = .ok root) : dir.names <:+ root.names := by
  obtain ⟨-, rfl⟩ | ⟨-, cur, -, rfl⟩ := absolute_ok h
  · exact List.suffix_refl _
  · exact List.suffix_append _ _

theorem pruneRun_of_absolute (h : fs.absolute dir = .ok root) (habs : root.isAbsolute = true) :
    fs.pruneRun [] rule dir used policies = fs.pruneRun [] rule root used policies := by
  have hroot : fs.absolute root = .ok root := if_pos habs
  have hstep : ∀ p, fs.absolute p = .ok root →
      Action.mapError RunFault.escaped (Action.query (·.absolute p)) (⟨fs, []⟩ : Run FileSystem) =
        (.ok root, ⟨fs, []⟩) :=
    fun p hp => Action.mapError_query_run hp
  have hlisted : diskSnapshot dir ⟨fs, []⟩ = diskSnapshot root ⟨fs, []⟩ := by
    unfold diskSnapshot
    rw [Action.bind_run_ok (hstep dir h), Action.bind_run_ok (hstep root hroot)]
  have hprune : (diskTools [] rule).prune dir used policies ⟨fs, []⟩ =
      (diskTools [] rule).prune root used policies ⟨fs, []⟩ :=
    Action.bind_run_congr hlisted _
  rw [pruneRun, hprune]
  rfl

theorem Readable.below (h : fs.Readable root)
    (hdir : fs.store.get? (root.names ++ names) = some .directory) :
    fs.Readable (root.below names) := by
  have hnames := Path.names_below_of_isSome root (Option.isSome_of_eq_some hdir)
  have hbelow : ∀ rest, (fs.store.get? ((root.below names).names ++ rest)).isSome →
      (root.below names).below rest = root.below (names ++ rest) := by
    intro rest hrest
    rw [hnames, List.append_assoc] at hrest
    have hnamed := Store.isPathName_of_get? hrest
    have hfirst := pathNames_entryText fun n hn => hnamed n (List.mem_append_left rest hn)
    have hlast := pathNames_entryText fun n hn => hnamed n (List.mem_append_right names hn)
    simp only [Path.below, Path.join, hfirst, hlast, pathNames_entryText hnamed, List.append_assoc]
  refine ⟨h.absolute, hnames ▸ hdir, fun rest hrest => ?_, fun rest hrest => ?_⟩
  · rw [hbelow rest hrest]
    rw [hnames, List.append_assoc] at hrest
    exact h.short _ hrest
  · rw [hbelow rest (Option.isSome_of_eq_some hrest)]
    rw [hnames, List.append_assoc] at hrest
    exact h.listed _ hrest

namespace HoldsDirectory

theorem leads (h : fs.HoldsDirectory dir root) :
    fs.store.walkFrom true (fs.start dir) dir.steps = .ok (.entry root.names) := by
  have hplain : fs.Plain root := by
    have hbelow := @Readable.plain_below _ _ [] h.readable (by simp [h.readable.directory])
    rwa [Path.below_nil] at hbelow
  have hroot : fs.store.walkFrom true (fs.start root) root.steps = .ok (.entry root.names) :=
    hplain.finds.found h.readable.directory (.inl (by simp))
  exact (leads_of_absolute (fun _ _ hn => hn) (fun _ => rfl) h.absolute hroot).2

/-- What is lost below the directory does not matter for the path of the directory. -/
theorem of_losesOnly (h : files.HoldsDirectory dir root) (hl : LosesOnly files touched fs)
    (hroot : ¬ touched root.names) : fs.HoldsDirectory dir root := by
  have hdir : fs.store.get? root.names = some .directory :=
    (hl.same _ hroot).trans h.readable.directory
  refine ⟨?_, h.readable.of_within hl.within hdir hl.refused,
    fun k target hn => h.linkFree k target (hl.within _ _ hn)⟩
  obtain ⟨habs, rfl⟩ | ⟨hrel, cur, hcurrent, rfl⟩ := absolute_ok h.absolute
  · exact if_pos habs
  · obtain ⟨-, hthere, -, hnames⟩ := currentPath_ok hcurrent
    have hhere : fs.store.get? files.here.key = some .directory := by
      have happend : (cur.append dir).names = files.here.key ++ dir.names := by
        rw [← hnames]
        rfl
      rw [happend] at hdir
      exact Store.get?_of_directory_append hdir
    have hsame : fs.currentPath = files.currentPath := by
      unfold currentPath
      rw [hl.stays hhere, hhere, hthere]
    exact absolute_of_relative hrel (hsame.trans hcurrent)

theorem walk_join (h : fs.HoldsDirectory dir root) (himport : IsImportPath text names) :
    fs.store.walkFrom true (fs.start (dir.join text)) (dir.join text).steps =
      fs.store.walk true Store.linkLimit root.names (names.map Step.enter) := by
  obtain ⟨-, hnamed, rfl⟩ := himport
  have hsteps : (dir.join (entryText names)).steps = dir.steps ++ names.map Step.enter :=
    dir.steps_below hnamed
  have hstart : fs.start (dir.join (entryText names)) = fs.start dir := rfl
  rw [hsteps, hstart, Store.walkFrom_append_of_linkFree h.linkFree h.leads]

/-- Whether the project has a directory depends on nothing but what lies on the way to it. -/
theorem isDirectory_eq (h : fs.HoldsDirectory dir root) (h' : fs'.HoldsDirectory dir root)
    (himport : IsImportPath text names)
    (hsame : ∀ a b, names = a ++ b → fs.store.get? (root.names ++ a) =
      fs'.store.get? (root.names ++ a)) :
    fs.isDirectory (dir.join text) = fs'.isDirectory (dir.join text) := by
  have hwalk : fs.store.walk true Store.linkLimit root.names (names.map Step.enter) =
      fs'.store.walk true Store.linkLimit root.names (names.map Step.enter) := by
    obtain ⟨jump, hjump⟩ := Store.walk_eq_walkOn fs.store true Store.linkLimit
    obtain ⟨jump', hjump'⟩ := Store.walk_eq_walkOn fs'.store true Store.linkLimit
    rw [hjump, hjump']
    exact Store.walkOn_enter_congr h.linkFree hsame
  have hentry : fs.entryAt true (dir.join text) = fs'.entryAt true (dir.join text) := by
    unfold entryAt locate
    rw [h.walk_join himport, h'.walk_join himport, ← hwalk]
    cases (dir.join text).checkText with
    | error fault => rfl
    | ok _ =>
      cases hfound : fs.store.walk true Store.linkLimit root.names (names.map Step.enter) with
      | error code => rfl
      | ok spot =>
        cases spot with
        | vacant parent name => rfl
        | lost => rfl
        | entry key =>
          have hkey := Store.entry_of_walk_enter h.linkFree hfound
          have hnode := hsame names [] (List.append_nil names).symm
          rw [← hkey] at hnode
          simp only [bind, Except.bind, hnode]
  unfold isDirectory holds
  rw [hentry]

/-- Where it can be asked at all whether a project has a directory, the answer tells what lies at
its key. -/
theorem isDirectory_join (h : fs.HoldsDirectory dir root) (himport : IsImportPath text names)
    {there : Bool} (hasked : fs.isDirectory (dir.join text) = .ok there) :
    there = decide (fs.store.get? (root.names ++ names) = some .directory) := by
  by_cases hdir : fs.store.get? (root.names ++ names) = some .directory
  · have hleads : fs.store.walkFrom true (fs.start (dir.join text)) (dir.join text).steps =
        .ok (.entry (root.names ++ names)) := by
      rw [h.walk_join himport]
      exact Store.walk_enter_found hdir fun _ => .inl (by simp)
    have hnul : '\x00' ∉ (dir.join text).text.toList := by
      have hentry := Store.isEntryName_of_get? (Option.isSome_of_eq_some hdir)
      rw [Path.mem_text_iff (by decide) (by decide)]
      rintro ⟨n, hn, hc⟩
      have hnames : n ∈ dir.names ++ names := himport.pathNames_eq ▸ hn
      refine (hentry n ?_).2.2.1 hc
      rw [List.mem_append] at hnames ⊢
      exact hnames.imp_left fun hn => (suffix_names_of_absolute h.absolute).subset hn
    rw [isDirectory, holds] at hasked
    -- a path that is too long for a call gets no answer
    by_cases hlen : (dir.join text).text.utf8ByteSize < pathLimit
    · have hdenotes := Denotes.of_leads (checkText_of_short hnul hlen) hleads hdir
      rw [hdenotes] at hasked
      simpa [hdir] using (Except.ok.inj hasked).symm
    · have hrefused : (dir.join text).checkText = refuse (dir.join text) .nameTooLong := by
        rw [Path.checkText, if_neg hnul, if_pos (by omega)]
      have hentry : fs.entryAt true (dir.join text) = refuse (dir.join text) .nameTooLong := by
        rw [entryAt, locate, hrefused]
        rfl
      rw [hentry] at hasked
      simp [refuse, meansAbsent] at hasked
  · rw [decide_eq_false hdir]
    cases there with
    | false => rfl
    | true =>
      obtain ⟨key, hentry⟩ := entryAt_of_isDirectory hasked
      obtain ⟨-, hleads, hnode⟩ := entryAt_ok hentry
      rw [h.walk_join himport] at hleads
      cases key with
      | none => exact absurd hleads (Store.walk_ne_lost _ _ _ _)
      | some key =>
        have hkey := Store.entry_of_walk_enter h.linkFree hleads
        exact absurd (hnode key rfl) (hkey ▸ hdir)

theorem isDirectory_long {name : String} (h : fs.HoldsDirectory dir root)
    (himport : IsImportPath text (name :: names)) (hlong : nameLimit < name.utf8ByteSize)
    (htext : (dir.join text).checkText = .ok ()) :
    fs.isDirectory (dir.join text) = refuse (dir.join text) .nameTooLong := by
  have hwalk : fs.store.walk true Store.linkLimit root.names ((name :: names).map Step.enter) =
      .error .nameTooLong := by
    obtain ⟨jump, hjump⟩ := Store.walk_eq_walkOn fs.store true Store.linkLimit
    rw [hjump, List.map_cons, Store.walkOn, h.readable.directory]
    simp only [hlong, if_true]
  have hentry : fs.entryAt true (dir.join text) = refuse (dir.join text) .nameTooLong := by
    rw [entryAt, locate, htext, h.walk_join himport, hwalk]
    rfl
  rw [isDirectory, holds, hentry]
  rfl

/-- A run on a project goes through. What it leaves follows from the policies, and it stays in the
project. -/
theorem pruneRun_join (h : fs.HoldsDirectory dir root) (himport : IsImportPath text names)
    (hdir : fs.store.get? (root.names ++ names) = some .directory) (rule : PreservationRule)
    (used : List String) (policies : PolicySet) :
    ∃ result fs', fs.pruneRun [] rule (dir.join text) used policies = (.ok result, fs') ∧
      Prunes policies rule used (root.names ++ names) fs.store fs'.store ∧
      LosesOnly fs (fun k => Key.isBelow k (root.names ++ names) = true) fs' := by
  have hready := h.readable.below hdir
  have hroot : fs.absolute (dir.join text) = .ok (root.below names) := by
    rw [himport.2.2]
    exact absolute_join h.absolute
  obtain ⟨result, gone, hrun, -, hprunes⟩ := pruneRun_clears hready [] rule used policies
  have hsame := @pruneRun_of_absolute _ _ _ rule used policies hroot hready.absolute
  rw [← hsame] at hrun hprunes
  rw [Path.names_below_of_isSome root (Option.isSome_of_eq_some hdir)] at hprunes
  refine ⟨result, _, Prod.ext hrun rfl, hprunes, ?_⟩
  have hbelow : ∀ k, fs.LiesBelow (dir.join text) k →
      Key.isBelow k (root.names ++ names) = true := by
    rintro k ⟨base, hbase, hk⟩
    rwa [← key_of_importPath h.linkFree h.leads himport hbase]
  exact prune_maintains_losesOnly hbelow ⟨fs, []⟩ (.refl fs _)

end HoldsDirectory

end FileSystem

end VendorTree
