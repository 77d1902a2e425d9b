import VendorTree.Proofs.Clearing
import VendorTree.Proofs.SweepOrder
import VendorTree.Pruning

/-!
# What the stages of a run clear

The plans of the stages are made from one listing. What a stage clears is told by the names that
lead to an entry and by what the entry is, whatever the stages before it have cleared.
-/

namespace VendorTree

/-! ### Entries below a directory -/

/-- The entries below a directory that satisfy a test. -/
def marked (s : Store) (base : Key) (test : List String → Node → Bool) (k : Key) : Bool :=
  Key.isBelow k base && (s.get? k).any (test (k.drop base.length))

theorem marked_iff {s : Store} {base : Key} {test : List String → Node → Bool} {k : Key} :
    marked s base test k = true ↔ ∃ names node, names ≠ [] ∧ k = base ++ names ∧
      s.get? k = some node ∧ test names node = true := by
  rw [marked, Bool.and_eq_true, Key.isBelow_iff, Option.any_eq_true]
  constructor
  · rintro ⟨⟨names, hne, rfl⟩, node, hn, ht⟩
    rw [List.drop_left] at ht
    exact ⟨names, node, hne, rfl, hn, ht⟩
  · rintro ⟨names, node, hne, rfl, hn, ht⟩
    refine ⟨⟨names, hne, rfl⟩, node, hn, ?_⟩
    rwa [List.drop_left]

/-! ### The stages of a run -/

section Stages

variable {fs fs' : FileSystem} {root : Path} {base : Key} {l : Listing} {gone : Key → Bool}
  {removed : List Path} {rule : PreservationRule} {used : List String}

/-- The paths of the files in a listing that satisfy a test. -/
def Listing.filesThat (l : Listing) (test : String → Bool) : List Path :=
  (l.files.filter test).map l.absolute

theorem mem_filesThat (hl : l.Describes fs.store base) (hroot : l.root = root)
    {test : String → Bool} {p : Path} : p ∈ l.filesThat test ↔ ∃ names contents, names ≠ [] ∧
      fs.store.get? (base ++ names) = some (.file contents) ∧
        test (entryText names) = true ∧ p = root.below names := by
  rw [Listing.filesThat, List.mem_map]
  constructor
  · rintro ⟨t, ht, rfl⟩
    obtain ⟨ht, htest⟩ := List.mem_filter.1 ht
    obtain ⟨names, node, hne, hn, hkind, rfl⟩ := (hl .file t).1 ht
    cases node with
    | file contents => exact ⟨names, contents, hne, hn, htest, by rw [← hroot]; rfl⟩
    | directory => simp [Node.kind] at hkind
    | link target => simp [Node.kind] at hkind
  · rintro ⟨names, contents, hne, hn, htest, rfl⟩
    refine ⟨entryText names, List.mem_filter.2 ⟨?_, htest⟩, by rw [← hroot]; rfl⟩
    exact (hl .file _).2 ⟨names, _, hne, hn, rfl, rfl⟩

theorem filePath_of_mem_filesThat (h : fs.Readable root) (hl : l.Describes fs.store root.names)
    (hroot : l.root = root) {test : String → Bool} {p : Path} (hp : p ∈ l.filesThat test) :
    FilePath fs p := by
  obtain ⟨names, contents, hne, hn, -, rfl⟩ := (mem_filesThat hl hroot).1 hp
  have hsome := Option.isSome_of_eq_some hn
  refine ⟨h.plain_below hsome, fun node hnode => ⟨contents, ?_⟩⟩
  rw [Path.names_below_of_isSome root hsome, hn] at hnode
  exact (Option.some.inj hnode).symm

theorem any_filesThat (hl : l.Describes fs.store root.names) (hroot : l.root = root)
    (test : String → Bool) (k : Key) : ((l.filesThat test).any fun p => k = p.names) =
      marked fs.store root.names
        (fun names node => node.kind = .file && test (entryText names)) k := by
  rw [Bool.eq_iff_iff, List.any_eq_true, marked_iff]
  constructor
  · rintro ⟨p, hp, hk⟩
    obtain ⟨names, contents, hne, hn, htest, rfl⟩ := (mem_filesThat hl hroot).1 hp
    have hnames := Path.names_below_of_isSome root (Option.isSome_of_eq_some hn)
    obtain rfl := (of_decide_eq_true hk).trans hnames
    exact ⟨names, _, hne, rfl, hn, by simp [Node.kind, htest]⟩
  · rintro ⟨names, node, hne, rfl, hn, htest⟩
    rw [Bool.and_eq_true, decide_eq_true_eq] at htest
    have hnames := Path.names_below_of_isSome root (Option.isSome_of_eq_some hn)
    refine ⟨root.below names, (mem_filesThat hl hroot).2 ?_, decide_eq_true hnames.symm⟩
    cases node with
    | file contents => exact ⟨names, contents, hne, hn, htest.2, rfl⟩
    | directory => simp [Node.kind] at htest
    | link target => simp [Node.kind] at htest

theorem removeFiles_takes (h : fs.Readable root) (hl : l.Describes fs.store root.names)
    (hroot : l.root = root) (hc : Clears fs gone removed fs') (source : Source)
    (test : String → Bool) :
    Takes fs (fun k => gone k || marked fs.store root.names
        (fun names node => node.kind = .file && test (entryText names)) k) removed fs' id
      (removeAll source diskRemove (l.filesThat test)) := by
  have hpaths : ∀ p ∈ l.filesThat test, FilePath fs' p := fun p hp =>
    (filePath_of_mem_filesThat h hl hroot hp).of_clears hc
  have htakes := removeAll_takes diskRemove FilePath (fun p k => k = p.names)
    (fun _ _ _ _ _ hp hc => hp.of_clears hc) (fun _ _ hp => hp.removes) source hc hpaths
  exact htakes.congr fun k _ => by rw [any_filesThat hl hroot]

/-! ### Nested vendor trees -/

theorem outermostVendors_subset (taken : List Path) (entries : List String) :
    ∀ t ∈ outermostVendors taken entries, t ∈ entries ∧ (Path.ofString t).name = vendorName := by
  induction entries generalizing taken with
  | nil => simp [outermostVendors]
  | cons entry rest ih =>
    intro t ht
    simp only [outermostVendors] at ht
    split at ht
    · rename_i hentry
      rcases List.mem_cons.1 ht with rfl | ht
      · exact ⟨by simp, hentry.1⟩
      · exact ⟨List.mem_cons_of_mem _ (ih _ t ht).1, (ih _ t ht).2⟩
    · exact ⟨List.mem_cons_of_mem _ (ih _ t ht).1, (ih _ t ht).2⟩

/-- Each entry named `vendor` is one of the outermost or lies below one of them, or below one that
was taken before. -/
theorem exists_outermostVendor {taken : List Path} {entries : List String} {t : String}
    (ht : t ∈ entries) (hname : (Path.ofString t).name = vendorName) :
    ∃ p ∈ taken ++ (outermostVendors taken entries).map Path.ofString,
      Path.ofString t = p ∨ (Path.ofString t).isBelow p = true := by
  induction entries generalizing taken with
  | nil => simp at ht
  | cons entry rest ih =>
    simp only [outermostVendors]
    rcases List.mem_cons.1 ht with rfl | ht
    · by_cases hbelow : taken.any (Path.ofString t).isBelow = true
      · obtain ⟨p, hp, hpb⟩ := List.any_eq_true.1 hbelow
        exact ⟨p, List.mem_append_left _ hp, .inr hpb⟩
      · refine ⟨Path.ofString t, ?_, .inl rfl⟩
        simp [hname, hbelow]
    · split
      · obtain ⟨p, hp, hpt⟩ := @ih (Path.ofString entry :: taken) ht
        refine ⟨p, ?_, hpt⟩
        simpa [or_left_comm] using hp
      · exact ih ht

/-- An entry lies in a directory or a link named `vendor`, or is one. A file of this name is
none. -/
def inVendorTree (names : List String) : Node → Bool
  | .file _ => names.dropLast.contains vendorName
  | .directory | .link _ => names.contains vendorName

theorem inVendorTree_iff {names : List String} {node : Node} :
    inVendorTree names node = true ↔ ∃ outer rest, names = outer ++ [vendorName] ++ rest ∧
      (rest = [] → node.kind ≠ .file) := by
  have hcontains : names.contains vendorName = true ↔
      ∃ outer rest, names = outer ++ [vendorName] ++ rest := by
    rw [List.contains_iff_mem]
    constructor
    · intro hmem
      obtain ⟨outer, rest, rfl⟩ := List.append_of_mem hmem
      exact ⟨outer, rest, by simp⟩
    · rintro ⟨outer, rest, rfl⟩
      simp
  cases node with
  | directory => simpa [inVendorTree, Node.kind] using hcontains
  | link target => simpa [inVendorTree, Node.kind] using hcontains
  | file contents =>
    rw [inVendorTree, List.contains_iff_mem]
    constructor
    · intro hmem
      have hne : names ≠ [] := by
        rintro rfl
        simp at hmem
      obtain ⟨front, last, rfl⟩ := Key.exists_concat hne
      rw [List.dropLast_concat] at hmem
      obtain ⟨outer, rest, rfl⟩ := List.append_of_mem hmem
      exact ⟨outer, rest ++ [last], by simp, by simp⟩
    · rintro ⟨outer, rest, rfl, hrest⟩
      have hne : rest ≠ [] := fun hr => hrest hr rfl
      rw [List.dropLast_append_of_ne_nil hne]
      simp

theorem mem_nestedVendors (hl : l.Describes fs.store base) (hroot : l.root = root) {p : Path}
    (hp : p ∈ l.nestedVendors) : ∃ names node, fs.store.get? (base ++ names) = some node ∧
      node.kind ≠ .file ∧ names.getLast? = some vendorName ∧ p = root.below names := by
  obtain ⟨t, ht, rfl⟩ := List.mem_map.1 hp
  obtain ⟨hmem, hname⟩ := outermostVendors_subset _ _ t ht
  have hentry : ∃ names node, names ≠ [] ∧ fs.store.get? (base ++ names) = some node ∧
      node.kind ≠ .file ∧ t = entryText names := by
    rcases List.mem_append.1 hmem with hm | hm
    · obtain ⟨names, node, hne, hn, hkind, rfl⟩ := (hl .directory t).1 hm
      exact ⟨names, node, hne, hn, by simp [hkind], rfl⟩
    · obtain ⟨names, node, hne, hn, hkind, rfl⟩ := (hl .link t).1 hm
      exact ⟨names, node, hne, hn, by simp [hkind], rfl⟩
  obtain ⟨names, node, hne, hn, hkind, rfl⟩ := hentry
  rw [name_ofString_entryText (Store.isPathName_of_get? (Option.isSome_of_eq_some hn))] at hname
  rw [List.getLast?_eq_some_getLast hne] at hname
  refine ⟨names, node, hn, hkind, ?_, by rw [← hroot]; rfl⟩
  exact (List.getLast?_eq_some_getLast hne).trans (congrArg some hname)

theorem exists_nestedVendor (hl : l.Describes fs.store root.names) (hroot : l.root = root)
    {outer : List String} {node : Node}
    (hn : fs.store.get? (root.names ++ (outer ++ [vendorName])) = some node)
    (hkind : node.kind ≠ .file) :
    ∃ p ∈ l.nestedVendors, p.names <+: root.names ++ (outer ++ [vendorName]) := by
  have hnamed := Store.isPathName_of_get? (Option.isSome_of_eq_some hn)
  have hmem : entryText (outer ++ [vendorName]) ∈ l.dirs ++ l.links := by
    cases hk : node.kind with
    | file => exact absurd hk hkind
    | directory =>
      exact List.mem_append_left _ ((hl .directory _).2 ⟨_, node, by simp, hn, hk, rfl⟩)
    | link => exact List.mem_append_right _ ((hl .link _).2 ⟨_, node, by simp, hn, hk, rfl⟩)
  have hname : (Path.ofString (entryText (outer ++ [vendorName]))).name = vendorName := by
    rw [name_ofString_entryText hnamed]
    simp
  -- it is taken itself, or it lies below a vendor tree that is
  obtain ⟨q, hq, hbelow⟩ := @exists_outermostVendor [] _ _ hmem hname
  rw [List.nil_append, List.mem_map] at hq
  obtain ⟨t, ht, rfl⟩ := hq
  refine ⟨l.absolute t, List.mem_map_of_mem ht, ?_⟩
  have hnames : (Path.ofString (entryText (outer ++ [vendorName]))).names =
      outer ++ [vendorName] := pathNames_entryText hnamed
  have hbegins : (Path.ofString t).names <+: outer ++ [vendorName] := by
    rw [← hnames]
    rcases hbelow with hsame | hbelow
    · simp [hsame]
    · simp only [Path.isBelow, Bool.and_eq_true, List.isPrefixOf_iff_prefix] at hbelow
      exact hbelow.1.2
  have habsolute : (l.absolute t).names = root.names ++ (Path.ofString t).names := by
    rw [← hroot]
    rfl
  rw [habsolute]
  exact (List.prefix_append_right_inj _).2 hbegins

theorem any_nestedVendors (hl : l.Describes fs.store root.names) (hroot : l.root = root) {k : Key}
    (hk : (fs.store.get? k).isSome) : (l.nestedVendors.any fun p => p.names.isPrefixOf k) =
      marked fs.store root.names inVendorTree k := by
  rw [Bool.eq_iff_iff, List.any_eq_true, marked_iff]
  constructor
  · rintro ⟨p, hp, hbegins⟩
    obtain ⟨names, node, hn, hkind, hlast, rfl⟩ := mem_nestedVendors hl hroot hp
    rw [Path.names_below_of_isSome root (Option.isSome_of_eq_some hn),
      List.isPrefixOf_iff_prefix] at hbegins
    obtain ⟨rest, rfl⟩ := hbegins
    obtain ⟨outer, rfl⟩ := List.getLast?_eq_some_iff.1 hlast
    obtain ⟨node', hn'⟩ := Option.isSome_iff_exists.1 hk
    refine ⟨outer ++ [vendorName] ++ rest, node', by simp, by simp, hn',
      inVendorTree_iff.2 ⟨outer, rest, rfl, ?_⟩⟩
    rintro rfl
    rw [List.append_nil, hn] at hn'
    exact Option.some.inj hn' ▸ hkind
  · rintro ⟨names, node, -, rfl, hn, htree⟩
    obtain ⟨outer, rest, rfl, hrest⟩ := inVendorTree_iff.1 htree
    have hvendor : ∃ node, fs.store.get? (root.names ++ (outer ++ [vendorName])) = some node ∧
        node.kind ≠ .file := by
      by_cases hr : rest = []
      · rw [hr, List.append_nil] at hn
        exact ⟨node, hn, hrest hr⟩
      · rw [← List.append_assoc] at hk
        exact ⟨.directory, Store.get?_above hr hk, by simp [Node.kind]⟩
    obtain ⟨node', hn', hkind⟩ := hvendor
    obtain ⟨p, hp, hbegins⟩ := exists_nestedVendor hl hroot hn' hkind
    refine ⟨p, hp, List.isPrefixOf_iff_prefix.2 (hbegins.trans ?_)⟩
    exact ⟨rest, by simp⟩

/-- A plain path of a tree that is removed as a whole, or of one that is gone already. -/
structure TreePath (fs : FileSystem) (p : Path) : Prop where
  plain : fs.Plain p
  named : p.names ≠ []
  notFile : ∀ contents, fs.store.get? p.names ≠ some (.file contents)

theorem TreePath.of_clears {p : Path} (h : TreePath fs p) (hc : Clears fs gone removed fs') :
    TreePath fs' p where
  plain := h.plain.of_within hc.store.within
  named := h.named
  notFile contents hn := h.notFile contents (hc.store.within _ _ hn)

theorem treePath_of_mem_nestedVendors (h : fs.Readable root)
    (hl : l.Describes fs.store root.names) (hroot : l.root = root) {p : Path}
    (hp : p ∈ l.nestedVendors) : TreePath fs p := by
  obtain ⟨names, node, hn, hkind, hlast, rfl⟩ := mem_nestedVendors hl hroot hp
  have hsome := Option.isSome_of_eq_some hn
  have hnames := Path.names_below_of_isSome root hsome
  refine ⟨h.plain_below hsome, ?_, fun contents hc => ?_⟩
  · rw [hnames]
    rintro hnil
    simp [(List.append_eq_nil_iff.1 hnil).2] at hlast
  · rw [hnames, hn] at hc
    simp [Option.some.inj hc, Node.kind] at hkind

theorem removeVendors_takes (h : fs.Readable root) (hl : l.Describes fs.store root.names)
    (hroot : l.root = root) (hc : Clears fs gone removed fs') (source : Source) :
    Takes fs (fun k => gone k || marked fs.store root.names inVendorTree k) removed fs' id
      (removeAll source diskRemoveTree l.nestedVendors) := by
  have hpaths : ∀ p ∈ l.nestedVendors, TreePath fs' p := fun p hp =>
    (treePath_of_mem_nestedVendors h hl hroot hp).of_clears hc
  have htakes := removeAll_takes diskRemoveTree TreePath (fun p k => p.names.isPrefixOf k)
    (fun _ _ _ _ _ hp hc => hp.of_clears hc)
    (fun _ _ hp => diskRemoveTree_removes hp.plain hp.named hp.notFile) source hc hpaths
  exact htakes.congr fun k hk => by rw [any_nestedVendors hl hroot hk]

/-! ### The sweep -/

theorem mem_dirPaths (hl : l.Describes fs.store base) (hroot : l.root = root) {p : Path} :
    p ∈ l.dirPaths ↔ ∃ names, names ≠ [] ∧
      fs.store.get? (base ++ names) = some .directory ∧ p = root.below names := by
  rw [Listing.dirPaths, List.mem_map]
  constructor
  · rintro ⟨t, ht, rfl⟩
    obtain ⟨names, node, hne, hn, hkind, rfl⟩ := (hl .directory t).1 ht
    cases node with
    | directory => exact ⟨names, hne, hn, by rw [← hroot]; rfl⟩
    | file contents => simp [Node.kind] at hkind
    | link target => simp [Node.kind] at hkind
  · rintro ⟨names, hne, hn, rfl⟩
    refine ⟨entryText names, ?_, by rw [← hroot]; rfl⟩
    exact (hl .directory _).2 ⟨names, _, hne, hn, rfl, rfl⟩

theorem sweptPath_of_mem_dirPaths (h : fs.Readable root) (hl : l.Describes fs.store root.names)
    (hroot : l.root = root) {p : Path} (hp : p ∈ l.dirPaths) :
    SweptPath fs p ∧ Key.isBelow p.names root.names = true ∧ p.anchor = root.anchor := by
  obtain ⟨names, hne, hn, rfl⟩ := (mem_dirPaths hl hroot).1 hp
  have hsome := Option.isSome_of_eq_some hn
  have hnames := Path.names_below_of_isSome root hsome
  have hbelow : Key.isBelow (root.below names).names root.names = true :=
    Key.isBelow_iff.2 ⟨names, hne, hnames⟩
  refine ⟨⟨h.plain_below hsome, ?_, h.listed names hn, fun node hnode => ?_⟩, hbelow, rfl⟩
  · simp [hnames, hne]
  · rw [hnames, hn] at hnode
    exact (Option.some.inj hnode).symm

theorem sweep_takes (h : fs.Readable root) (hl : l.Describes fs.store root.names)
    (hroot : l.root = root) (hc : Clears fs gone removed fs') (source : Source) :
    Takes fs' (fun k => Key.isBelow k root.names && fs'.store.hollow k) [] fs' id
      (sweep source diskHoldsEntry diskRemove l.dirPaths) := by
  have hdirs : ∀ p ∈ sweepOrder l.dirPaths, SweptPath fs p ∧
      Key.isBelow p.names root.names = true ∧ p.anchor = root.anchor :=
    fun p hp => sweptPath_of_mem_dirPaths h hl hroot (mem_sweepOrder.1 hp)
  -- every hollow directory is listed, so at the start the turn of each is still to come
  have hstart : Clears fs' (sweptBut fs'.store root.names (sweepOrder l.dirPaths)) [] fs' := by
    refine (Clears.refl fs').congr fun k _ => ?_
    rw [eq_comm, Bool.eq_false_iff]
    intro hswept
    simp only [sweptBut, Bool.and_eq_true, Bool.not_eq_true', List.any_eq_false] at hswept
    obtain ⟨⟨hbelow, hhollow⟩, hnone⟩ := hswept
    obtain ⟨names, hne, rfl⟩ := Key.isBelow_iff.1 hbelow
    have hdir := hc.store.within _ _ (Store.hollow_iff.1 hhollow).1
    have hnames := Path.names_below_of_isSome root (Option.isSome_of_eq_some hdir)
    refine hnone (root.below names) ?_ (decide_eq_true hnames)
    exact mem_sweepOrder.2 ((mem_dirPaths hl hroot).2 ⟨names, hne, hdir, rfl⟩)
  have horder : (sweepOrder l.dirPaths).Pairwise fun p q => q.names.length ≤ p.names.length := by
    refine (pairwise_sweepOrder l.dirPaths).imp_of_mem fun hp hq hpq => ?_
    exact names_length_le_of_sweptBefore ((hdirs _ hp).2.2.trans (hdirs _ hq).2.2.symm) hpq
  have hnodup : ((sweepOrder l.dirPaths).map Path.names).Nodup := by
    refine List.pairwise_map.2 ((nodup_sweepOrder l.dirPaths).imp_of_mem fun {p q} hp hq hpq => ?_)
    intro hnames
    refine hpq ?_
    have hanchor := (hdirs _ hp).2.2.trans (hdirs _ hq).2.2.symm
    cases p
    cases q
    simp_all
  have htakes := sweepInOrder_takes source hstart
    (fun p hp => ⟨(hdirs p hp).1.of_clears hc, (hdirs p hp).2.1⟩) horder hnodup
  exact htakes.congr fun k _ => by simp [sweptBut]

end Stages

end VendorTree
