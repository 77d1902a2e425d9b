import VendorTree.Proofs.Containment
import VendorTree.Proofs.DepthFirst
import VendorTree.Proofs.KeyedRuns
import VendorTree.Proofs.StaleListings

/-!
# Spellings of a root

One directory can be the root of a run under many paths. Each call of a run follows the path anew,
in the tree as it is by then, and a path that leads nowhere counts as one that is already gone. So
the spelling of the root does not matter as long as no removal of the run takes away what it leads
through.
-/

namespace VendorTree

variable {fs fs' : FileSystem} {root : Path} {base : Key} {names : List String}

/-! ### Plans of listings -/

theorem intercalate_append {α : Type} {sep : List α} {xs ys : List (List α)} (hx : xs ≠ [])
    (hy : ys ≠ []) :
    sep.intercalate (xs ++ ys) = sep.intercalate xs ++ sep ++ sep.intercalate ys := by
  induction xs with
  | nil => exact absurd rfl hx
  | cons x rest ih =>
    by_cases hrest : rest = []
    · subst hrest
      rw [List.singleton_append, List.intercalate_cons_of_ne_nil hy, List.intercalate_singleton]
    · rw [List.cons_append, List.intercalate_cons_of_ne_nil (by simp [hrest]), ih hrest,
        List.intercalate_cons_of_ne_nil hrest]
      simp only [List.append_assoc]

namespace Path

theorem join_eq_below (root : Path) (t : String) : root.join t = root.below (pathNames t) := by
  have hnames := pathNames_entryText fun n hn => @isPathName_of_mem_pathNames t n hn
  simp only [below, join, hnames]

/-- The paths below a root are written with the same characters in front. -/
theorem text_below (root : Path) (habs : root.isAbsolute = true) : ∃ front, ∀ names, names ≠ [] →
    (∀ n ∈ names, IsPathName n) →
      (root.below names).text.toList = front ++ (entryText names).toList := by
  have hwritten : ∀ names, (∀ n ∈ names, IsPathName n) → (root.below names).text.toList =
      root.anchor.chars ++ ['/'].intercalate ((root.names ++ names).map String.toList) := by
    intro names hnames
    have hanchor : ¬ ((root.below names).anchor = .relative ∧ (root.below names).names = []) :=
      fun h => of_decide_eq_true habs h.1
    rw [text, if_neg hanchor, String.toList_ofList, names_below root hnames]
    rfl
  by_cases hroot : root.names = []
  · refine ⟨root.anchor.chars, fun names _ hnames => ?_⟩
    rw [hwritten names hnames, hroot, List.nil_append, toList_entryText]
  · refine ⟨root.anchor.chars ++ ['/'].intercalate (root.names.map String.toList) ++ ['/'],
      fun names hne hnames => ?_⟩
    rw [hwritten names hnames, List.map_append, intercalate_append (by simpa using hroot)
      (by simpa using hne), toList_entryText]
    simp only [List.append_assoc]

end Path

/-- Of two entries the one is swept no later than the other. -/
def sweptNoLater (t u : String) : Bool :=
  (pathNames t).length > (pathNames u).length ||
    ((pathNames t).length = (pathNames u).length && t ≤ u)

/-- Texts that start alike are ordered by the rest of them. -/
theorem le_iff_of_append {front : List Char} {t u a b : String}
    (ht : t.toList = front ++ a.toList) (hu : u.toList = front ++ b.toList) : t ≤ u ↔ a ≤ b := by
  rw [← String.not_lt, ← String.not_lt, String.lt_iff, String.lt_iff, ht, hu]
  refine not_congr ⟨fun h => Decidable.byContradiction fun hlt => ?_, List.append_left_lt⟩
  exact absurd h (List.not_lt.2 (List.append_left_le (List.not_lt.1 hlt)))

/-- Under every root entries are swept in the same order. -/
theorem sweptBefore_below (habs : root.isAbsolute = true) {names names' : List String}
    (hne : names ≠ []) (hne' : names' ≠ []) (hnames : ∀ n ∈ names, IsPathName n)
    (hnames' : ∀ n ∈ names', IsPathName n) :
    sweptBefore (root.below names) (root.below names') =
      sweptNoLater (entryText names) (entryText names') := by
  obtain ⟨front, hfront⟩ := root.text_below habs
  have hle : (root.below names).text ≤ (root.below names').text ↔
      entryText names ≤ entryText names' :=
    le_iff_of_append (hfront names hne hnames) (hfront names' hne' hnames')
  have hsize : ∀ {names : List String}, (∀ n ∈ names, IsPathName n) →
      (root.below names).size = root.names.length + names.length + 1 := by
    intro names hnames
    have hroot : (root.below names).isAbsolute = true := habs
    rw [Path.size, Path.names_below root hnames, hroot, List.length_append]
    rfl
  rw [Bool.eq_iff_iff, sweptBefore_iff, hle, hsize hnames, hsize hnames', sweptNoLater,
    pathNames_entryText hnames, pathNames_entryText hnames']
  simp only [Bool.or_eq_true, Bool.and_eq_true, decide_eq_true_eq]
  refine or_congr ?_ (and_congr ?_ Iff.rfl)
  · omega
  · omega

def namesIf (chosen : Bool) (stage : Stage) (texts : List String) : List (Stage × List String) :=
  if chosen then texts.map fun t => (stage, pathNames t) else []

/-- The plan of a run on a listing, by the names of the entries. -/
def Listing.entryPlan (l : Listing) (rule : PreservationRule) (used : List String)
    (policies : PolicySet) : List (Stage × List String) :=
  namesIf policies.nestedVendor .nestedVendor (outermostVendors [] (l.dirs ++ l.links)) ++
    (namesIf policies.unusedPackages .unusedPackages
        (l.files.filter fun f => !rule.keeps f && packageOf f ∈ l.unusedPackages used) ++
      (namesIf policies.nonGo .nonGo (l.files.filter fun f => !isBuildFile f && !rule.keeps f) ++
        (namesIf policies.goTests .goTests (l.files.filter isTestFile) ++
          namesIf true .emptyDirs (l.dirs.mergeSort sweptNoLater))))

section Listings

variable {l l' : Listing} {rule : PreservationRule} {used : List String} {policies : PolicySet}

theorem planIf_absolute (l : Listing) (chosen : Bool) (stage : Stage) (texts : List String) :
    planIf chosen stage (texts.map l.absolute) =
      (namesIf chosen stage texts).map l.root.planned := by
  cases chosen with
  | false => rfl
  | true =>
    rw [planIf, if_pos rfl, namesIf, if_pos rfl, List.map_map, List.map_map]
    refine List.map_congr_left fun t _ => ?_
    simp only [Function.comp_apply, Path.planned, Listing.absolute, Path.join_eq_below]

theorem sweepOrder_dirPaths (hl : l.Follows fs root base) (h : fs.ReadableAs root base) :
    sweepOrder l.dirPaths = (l.dirs.mergeSort sweptNoLater).map l.absolute := by
  have hdir : ∀ t ∈ l.dirs, ∃ names, names ≠ [] ∧ (∀ n ∈ names, IsPathName n) ∧
      t = entryText names := by
    intro t ht
    obtain ⟨names, node, hne, hn, -, rfl⟩ := (hl.describes .directory t).1 ht
    exact ⟨names, hne, Store.isPathName_of_get? (Option.isSome_of_eq_some hn), rfl⟩
  have hnodup : l.dirPaths.Nodup := by
    refine List.pairwise_map.2 ((hl.nodup h.listable .directory).imp_of_mem ?_)
    rintro t u ht hu hne hsame
    obtain ⟨names, -, hnames, rfl⟩ := hdir t ht
    obtain ⟨names', -, hnames', rfl⟩ := hdir u hu
    have hbelow := congrArg Path.names hsame
    rw [Listing.absolute, Listing.absolute, ← Path.below, ← Path.below,
      Path.names_below _ hnames, Path.names_below _ hnames'] at hbelow
    exact hne (by rw [List.append_cancel_left hbelow])
  rw [sweepOrder, eraseDups_of_nodup hnodup, Listing.dirPaths]
  refine (List.map_mergeSort fun t ht u hu => ?_).symm
  obtain ⟨names, hne, hnames, rfl⟩ := hdir t ht
  obtain ⟨names', hne', hnames', rfl⟩ := hdir u hu
  have habs : l.root.isAbsolute = true := hl.rooted ▸ h.absolute
  exact (sweptBefore_below habs hne hne' hnames hnames').symm

theorem plan_eq_planned (hl : l.Follows fs root base) (h : fs.ReadableAs root base)
    (rule : PreservationRule) (used : List String) (policies : PolicySet) :
    l.plan Listing.nestedVendors rule used policies =
      (l.entryPlan rule used policies).map root.planned := by
  rw [Listing.plan, Listing.entryPlan, sweepOrder_dirPaths hl h, Listing.nestedVendors,
    Listing.unusedFiles, Listing.nonGoFiles, Listing.testFiles]
  simp only [planIf_absolute, List.map_append, hl.rooted]

theorem suits_of_mem_entryPlan (hl : l.Describes fs.store base) {e : Stage × List String}
    (he : e ∈ l.entryPlan rule used policies) : fs.Suits base e := by
  have hsuits : ∀ {chosen stage texts}, e ∈ namesIf chosen stage texts →
      (∀ t ∈ texts, ∃ kind, t ∈ l.ofKind kind ∧ stage.takes kind = true) → fs.Suits base e := by
    intro chosen stage texts hmem htexts
    cases chosen with
    | false => simp [namesIf] at hmem
    | true =>
      rw [namesIf, if_pos rfl] at hmem
      obtain ⟨t, ht, rfl⟩ := List.mem_map.1 hmem
      obtain ⟨kind, hkind, htakes⟩ := htexts t ht
      obtain ⟨names, node, hne, hn, rfl, rfl⟩ := (hl kind t).1 hkind
      have hnames := pathNames_entryText (Store.isPathName_of_get? (Option.isSome_of_eq_some hn))
      show fs.Suits base (stage, pathNames (entryText names))
      rw [hnames]
      exact ⟨hne, node, hn, htakes⟩
  have hfiles : ∀ {stage : Stage} {test : String → Bool}, stage.takes .file = true →
      ∀ t ∈ l.files.filter test, ∃ kind, t ∈ l.ofKind kind ∧ stage.takes kind = true :=
    fun hstage t ht => ⟨.file, (List.mem_filter.1 ht).1, hstage⟩
  simp only [Listing.entryPlan, List.mem_append] at he
  rcases he with he | he | he | he | he
  · refine hsuits he fun t ht => ?_
    rcases List.mem_append.1 (outermostVendors_subset _ _ t ht).1 with hdir | hlink
    · exact ⟨.directory, hdir, rfl⟩
    · exact ⟨.link, hlink, rfl⟩
  · exact hsuits he (hfiles rfl)
  · exact hsuits he (hfiles rfl)
  · exact hsuits he (hfiles rfl)
  · exact hsuits he fun t ht => ⟨.directory, List.mem_mergeSort.1 ht, rfl⟩

/-- The listings of a directory under two paths may have their links in different orders. Their
plans are the same. -/
theorem entryPlan_eq {root' : Path} (h : fs.Listable root base) (h' : fs.Listable root' base)
    (hl : l.Follows fs root base) (hl' : l'.Follows fs root' base) :
    l.unusedPackages used = l'.unusedPackages used ∧
      l.entryPlan rule used policies = l'.entryPlan rule used policies := by
  have hsame : ∀ kind, kind ≠ .link → l.ofKind kind = l'.ofKind kind := by
    intro kind hkind
    rw [hl.entries, hl'.entries]
    refine Store.texts_congr fun outer houter => ?_
    have hdir := (Store.mem_visits h.directory).1 houter
    rw [viewed_of_listable h hdir hkind, viewed_of_listable h' hdir hkind]
  have hdirs : l.dirs = l'.dirs := hsame .directory (by simp)
  have hfiles : l.files = l'.files := hsame .file (by simp)
  have hlinks : l.links.filter isVendor = l'.links.filter isVendor :=
    (vendors_of_listable h hl .link).trans (vendors_of_listable h' hl' .link).symm
  have hvendors : outermostVendors [] (l.dirs ++ l.links) =
      outermostVendors [] (l'.dirs ++ l'.links) := by
    rw [← outermostVendors_isVendor, ← outermostVendors_isVendor [] (l'.dirs ++ l'.links),
      List.filter_append, List.filter_append, hdirs, hlinks]
  have hunused : l.unusedPackages used = l'.unusedPackages used := by
    rw [Listing.unusedPackages, Listing.unusedPackages, Listing.packages, Listing.packages, hdirs]
  refine ⟨hunused, ?_⟩
  rw [Listing.entryPlan, Listing.entryPlan, hvendors, hunused, hfiles, hdirs]

end Listings

/-! ### Runs -/

section Runs

variable {rule : PreservationRule} {used : List String} {policies : PolicySet}

/-- A run on a directory does what its plan says by key, if afterwards the root still leads to the
directory. -/
theorem prune_run_by_key {path : Path} {r : Run FileSystem}
    (habs : r.world.absolute path = .ok root)
    (h : r.world.ReadableAs root base)
    (hafter : ((diskTools [] rule).prune path used policies r).2.world.Denotes root base) :
    ∃ (l : Listing) (x : RunResult) (after : Run FileSystem), l.Follows r.world root base ∧
      (diskTools [] rule).prune path used policies r = (.ok x, after) ∧
      x.removed = (r.world.carryOut base (l.entryPlan rule used policies)).1.map root.below ∧
      x.unused = (if policies.unusedPackages then some (l.unusedPackages used) else none) ∧
      after.world = (r.world.carryOut base (l.entryPlan rule used policies)).2 := by
  obtain ⟨l, journal, hmade, hroot, -⟩ := diskSnapshot_of_listable habs h.listable
  have hl := follows_of_listable habs h.listable hmade
  have hrun : (diskTools [] rule).prune path used policies r =
      (diskTools [] rule).pruneListing l used policies ⟨r.world, journal⟩ :=
    Tools.prune_run hmade used policies
  have hloop := pruneListing_matches_runPlan (diskTools_blind [] rule) l used policies
    ⟨r.world, journal⟩ ⟨r.world, journal⟩ rfl
  have hplan : l.plan (diskTools [] rule).findVendors (diskTools [] rule).rule used policies =
      (l.entryPlan rule used policies).map root.planned := plan_eq_planned hl h rule used policies
  rw [hplan] at hloop
  obtain ⟨hagree, hworld⟩ := hloop
  rw [hrun, hworld] at hafter
  have hkeys := runPlan_below (r := ⟨r.world, journal⟩) h
    (fun e he => suits_of_mem_entryPlan hl.describes he) (.refl r.world _) hafter
  rw [hkeys] at hagree hworld
  rcases hended :
    (diskTools [] rule).pruneListing l used policies ⟨r.world, journal⟩ with ⟨x, after⟩
  rw [hended] at hagree hworld
  cases hagree with
  | ok hresult =>
    exact ⟨l, _, after, hl, hrun.trans hended, by rw [hresult], by rw [hresult], hworld⟩

theorem mem_of_mem_carryOut {entries : List (Stage × List String)} {fs : FileSystem}
    (h : names ∈ (fs.carryOut base entries).1) : ∃ e ∈ entries, e.2 = names := by
  induction entries generalizing fs with
  | nil => simp [FileSystem.carryOut] at h
  | cons e rest ih =>
    rw [FileSystem.carryOut] at h
    have hcases : names = e.2 ∨
        names ∈ ((fs.attemptAt e.1 (base ++ e.2)).2.carryOut base rest).1 := by
      cases hgone : (fs.attemptAt e.1 (base ++ e.2)).1 with
      | true => simpa [hgone] using h
      | false => exact .inr (by simpa [hgone] using h)
    rcases hcases with hsame | hlater
    · exact ⟨e, List.mem_cons_self, hsame.symm⟩
    · obtain ⟨e', he', hsame⟩ := ih hlater
      exact ⟨e', List.mem_cons_of_mem e he', hsame⟩

/-- Two paths that denote the same directory, and go on doing so to the end of their runs: both runs
go through, leave the same, and remove the same entries in the same order, each under its own
path. -/
theorem prune_spellings (fs : FileSystem) (p q a b : Path) (base : Key) (rule : PreservationRule)
    (used : List String) (policies : PolicySet) (journal journal' : List Record)
    (hp : fs.absolute p = .ok a) (hq : fs.absolute q = .ok b) (ha : fs.ReadableAs a base)
    (hb : fs.ReadableAs b base)
    (hafter : ((diskTools [] rule).prune p used policies ⟨fs, journal⟩).2.world.Denotes a base)
    (hafter' : ((diskTools [] rule).prune q used policies ⟨fs, journal'⟩).2.world.Denotes b base) :
    ∃ (x y : RunResult) (after after' : Run FileSystem) (entries : List (List String)),
      (diskTools [] rule).prune p used policies ⟨fs, journal⟩ = (.ok x, after) ∧
      (diskTools [] rule).prune q used policies ⟨fs, journal'⟩ = (.ok y, after') ∧
      after.world = after'.world ∧ x.unused = y.unused ∧
      x.removed = entries.map a.below ∧ y.removed = entries.map b.below ∧
      ∀ names ∈ entries, (fs.store.get? (base ++ names)).isSome ∧
        fs.Reaches (a.below names) (base ++ names) ∧
        fs.Reaches (b.below names) (base ++ names) := by
  obtain ⟨l, x, after, hl, hrun, hremoved, hunused, hworld⟩ :=
    prune_run_by_key (r := ⟨fs, journal⟩) hp ha hafter
  obtain ⟨l', y, after', hl', hrun', hremoved', hunused', hworld'⟩ :=
    prune_run_by_key (r := ⟨fs, journal'⟩) hq hb hafter'
  obtain ⟨hpackages, hplan⟩ :=
    @entryPlan_eq _ _ _ _ _ rule used policies _ ha.listable hb.listable hl hl'
  refine ⟨x, y, after, after', _, hrun, hrun', ?_, ?_, hremoved, ?_, fun names hnames => ?_⟩
  · rw [hworld, hworld', hplan]
  · rw [hunused, hunused', hpackages]
  · rw [hremoved', hplan]
  · obtain ⟨e, he, rfl⟩ := mem_of_mem_carryOut hnames
    obtain ⟨hne, node, hn, -⟩ := suits_of_mem_entryPlan hl.describes he
    exact ⟨Option.isSome_of_eq_some hn,
      FileSystem.walkFrom_below ha.denotes.leads hn hne (.inr rfl),
      FileSystem.walkFrom_below hb.denotes.leads hn hne (.inr rfl)⟩

/-- A root that leads to its directory without what lies in there leads to it also after a run. -/
theorem denotes_after_prune {path : Path} {faults : List (String × Fault)} {r : Run FileSystem}
    (habs : r.world.absolute path = .ok root) (habsolute : root.isAbsolute = true)
    (hroot : (r.world.update (r.world.store.clear base)).Denotes root base) :
    ((diskTools faults rule).prune path used policies r).2.world.Denotes root base := by
  have hkeeps := Store.keeps_clear r.world.store base
  have hleads := FileSystem.leads_of_within hkeeps.within habsolute hroot.leads
  have hpath := (FileSystem.leads_of_absolute (fun _ _ hn => hn) (fun _ => rfl) habs hleads).2
  have hloses : LosesOnly r.world (r.world.LiesBelow path)
      ((diskTools faults rule).prune path used policies r).2.world :=
    prune_maintains_losesOnly (fun _ hk => hk) r (.refl r.world _)
  refine hroot.of_within habsolute fun k node hn => ?_
  have hleft : Key.isBelow k base = false := by
    by_cases hk : k = []
    · rw [hk]
      cases base <;> rfl
    · have hcleared : (r.world.store.clear base).get? k = some node := hn
      rw [hkeeps.get?_eq hk] at hcleared
      cases hbelow : Key.isBelow k base with
      | false => rfl
      | true => simp [hbelow] at hcleared
  rw [hloses.same k ?_]
  · exact hkeeps.within k node hn
  · rintro ⟨base', hbase', hbelow⟩
    rw [hpath] at hbase'
    obtain rfl := Spot.entry.inj (Except.ok.inj hbase')
    rw [hleft] at hbelow
    exact Bool.noConfusion hbelow

/-- The project goes by a link in one run, and through another directory in the other. -/
theorem prune_spellings_linked : let a := Path.ofString "/w/here"
    let b := Path.ofString "/w/out/../p"
    linkedProject.absolute (Path.ofString "here") = .ok a ∧ linkedProject.absolute b = .ok b ∧
      linkedProject.ReadableAs a ["w", "p"] ∧ linkedProject.ReadableAs b ["w", "p"] ∧
      ∃ (x y : RunResult) (after after' : Run FileSystem) (entries : List (List String)),
        (diskTools [] .standard).prune (Path.ofString "here") [] .all ⟨linkedProject, []⟩ =
          (.ok x, after) ∧
        (diskTools [] .standard).prune b [] .all ⟨linkedProject, []⟩ = (.ok y, after') ∧
        after.world = after'.world ∧ x.unused = y.unused ∧
        x.removed = entries.map a.below ∧ y.removed = entries.map b.below ∧
        ∀ names ∈ entries, (linkedProject.store.get? (["w", "p"] ++ names)).isSome ∧
          linkedProject.Reaches (a.below names) (["w", "p"] ++ names) ∧
          linkedProject.Reaches (b.below names) (["w", "p"] ++ names) := by
  intro a b
  have hp : linkedProject.absolute (Path.ofString "here") = .ok a :=
    ok_of_toOption (by decide +kernel)
  have hq : linkedProject.absolute b = .ok b := ok_of_toOption (by decide +kernel)
  have ha : linkedProject.ReadableAs a ["w", "p"] :=
    FileSystem.readableAs_of_entries (by decide +kernel) (ok_of_toOption (by decide +kernel))
      (by decide +kernel)
  have hb : linkedProject.ReadableAs b ["w", "p"] :=
    FileSystem.readableAs_of_entries (by decide +kernel) (ok_of_toOption (by decide +kernel))
      (by decide +kernel)
  refine ⟨hp, hq, ha, hb,
    prune_spellings linkedProject _ _ a b ["w", "p"] .standard [] .all [] [] hp
    hq ha hb ?_ ?_⟩
  · exact denotes_after_prune hp ha.absolute (ok_of_toOption (by decide +kernel))
  · exact denotes_after_prune hq hb.absolute (ok_of_toOption (by decide +kernel))

end Runs

/-! ### Roots that are lost on the way -/

section LostRoots

variable {p : Path} {r : Run FileSystem}

theorem removePath_of_leadsNowhere (htext : p.checkText = .ok ()) (hne : p.names ≠ [])
    (hnowhere : Store.LeadsNowhere (fs.store.walkFrom true (fs.start p) p.steps))
    (habove : Store.LeadsNowhere (fs.store.walkFrom true (fs.start p) p.steps.dropLast)) :
    fs.removePath p = refuse p .notFound := by
  rw [FileSystem.removePath, FileSystem.isDirectory, FileSystem.holds,
    FileSystem.entryAt_of_leadsNowhere htext hnowhere, FileSystem.unlink,
    FileSystem.target_of_leadsNowhere htext hne habove]
  rfl

/-- Where the root leads nowhere, no entry below it is removed any more, and each one counts as
gone. -/
theorem removeAll_of_leadsNowhere
    (hroot : Store.LeadsNowhere (r.world.store.walkFrom true (r.world.start root) root.steps))
    (source : Source) {entries : List (List String)}
    (hnames : ∀ names ∈ entries, names ≠ [] ∧ ∀ n ∈ names, IsEntryName n)
    (htext : ∀ names ∈ entries, (root.below names).checkText = .ok ()) :
    ∃ journal, removeAll source diskRemove (entries.map root.below) r =
      (.ok [], ⟨r.world, journal⟩) := by
  induction entries generalizing r with
  | nil => exact ⟨r.journal, rfl⟩
  | cons names rest ih =>
    obtain ⟨hne, hentry⟩ := hnames names List.mem_cons_self
    obtain ⟨front, x, rfl⟩ := Key.exists_concat hne
    have hsteps : (root.below (front ++ [x])).steps =
        root.steps ++ (front ++ [x]).map Step.enter :=
      Path.steps_below root fun n hn => ⟨(hentry n hn).1, (hentry n hn).2.1⟩
    -- a removal walks to the directory of the entry, which leads nowhere as the root does
    have hinit : (root.below (front ++ [x])).steps.dropLast =
        root.steps ++ front.map Step.enter := by
      rw [hsteps, List.map_append, ← List.append_assoc]
      exact List.dropLast_concat
    have hgone : r.world.removePath (root.below (front ++ [x])) =
        refuse (root.below (front ++ [x])) .notFound := by
      refine removePath_of_leadsNowhere (htext _ List.mem_cons_self) ?_ ?_ ?_
      · rw [Path.names_below root fun n hn => (hentry n hn).1]
        simp
      · rw [hsteps]
        exact Store.walkFrom_append_missing _ hroot
      · rw [hinit]
        exact Store.walkFrom_append_missing _ hroot
    have hcall : diskRemove (root.below (front ++ [x])) r =
        (refuse (root.below (front ++ [x])) .notFound, r) := by
      rw [diskRemove_run, hgone]
      rfl
    obtain ⟨journal, hrest⟩ := ih (r := { r with
      journal := r.journal ++ [⟨source, .alreadyGone (root.below (front ++ [x]))⟩] }) hroot
      (fun names' h => hnames names' (List.mem_cons_of_mem _ h))
      fun names' h => htext names' (List.mem_cons_of_mem _ h)
    refine ⟨journal, ?_⟩
    rw [List.map_cons, removeAll, Action.bind_run_ok (unlessMissing_run_missing hcall)]
    exact hrest

end LostRoots

end VendorTree
