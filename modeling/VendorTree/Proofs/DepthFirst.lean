import VendorTree.Proofs.Containment
import VendorTree.Proofs.ListingOrder

/-!
# Listings in depth-first order

A listing visits the real directories of a tree depth first, each before the ones in it and
neighbours in the order of their names, and writes down the entries of one directory after the
other. So every entry below the root is listed, once, under its kind, and by the text that leads to
it.
-/

namespace VendorTree

/-! ### Depth-first visits -/

/-- The names are those of the entries of a directory that satisfy a test, each once and in
order. -/
structure Store.Names (s : Store) (k : Key) (test : String → Node → Prop) (names : List String) :
    Prop where
  ordered : names.Pairwise (· < ·)
  member : ∀ x, x ∈ names ↔ ∃ node, s.get? (k ++ [x]) = some node ∧ test x node

/-- What is visited from a directory on: the directory, and then what is visited from each directory
in it on, in the order of their names. Visited directories are given by the names that lead to them
from the directory at a key. -/
inductive Store.DepthFirst (s : Store) (base : Key) : List String → List (List String) → Prop
  | visit {outer names : List String} {inner : String → List (List String)}
    (here : s.Names (base ++ outer) (fun _ node => node = .directory) names)
    (below : ∀ x ∈ names, DepthFirst s base (outer ++ [x]) (inner x)) :
    DepthFirst s base outer (outer :: names.flatMap inner)

namespace Store

variable {s : Store} {k base : Key} {outer : List String}

theorem names_namesIn (s : Store) (k : Key) (test : String × Node → Bool) :
    s.Names k (fun x node => test (x, node) = true) (s.namesIn k test) where
  ordered := by
    refine ((pairwise_namesIn s k test).and (nodup_namesIn s k test)).imp fun {a b} hab => ?_
    rcases lt_or_lt_of_ne hab.2 with hlt | hlt
    · exact hlt
    · exact absurd hab.1 (String.not_le.2 hlt)
  member _ := mem_namesIn

/-- The visits from a directory below the first one on. -/
def visitsFrom (s : Store) (base : Key) (outer : List String) : List (List String) :=
  (s.visits base).filter outer.isPrefixOf

theorem mem_visitsFrom {names : List String} (hbase : s.get? base = some .directory) :
    names ∈ s.visitsFrom base outer ↔
      s.get? (base ++ names) = some .directory ∧ outer <+: names := by
  rw [visitsFrom, List.mem_filter, mem_visits hbase, List.isPrefixOf_iff_prefix]

theorem pairwise_visitsFrom (s : Store) (base : Key) (outer : List String) :
    (s.visitsFrom base outer).Pairwise fun a b => keyBefore a b = true :=
  (pairwise_visits s base).filter _

theorem nodup_visitsFrom (s : Store) (base : Key) (outer : List String) :
    (s.visitsFrom base outer).Nodup :=
  (nodup_visits s base).sublist List.filter_sublist

/-- The names of the directories in a directory. -/
def directoriesIn (s : Store) (k : Key) : List String := s.namesIn k fun e => e.2 = .directory

theorem mem_directoriesIn {x : String} :
    x ∈ s.directoriesIn k ↔ s.get? (k ++ [x]) = some .directory := by
  simp [directoriesIn, mem_namesIn]

theorem keyBefore_of_lt {x y : String} {a b : List String} (hxy : x < y) (ha : outer ++ [x] <+: a)
    (hb : outer ++ [y] <+: b) : keyBefore a b = true := by
  obtain ⟨a, rfl⟩ := ha
  obtain ⟨b, rfl⟩ := hb
  have hne : x ≠ y := by
    rintro rfl
    exact String.lt_irrefl x hxy
  rw [List.append_assoc, List.append_assoc, keyBefore_append]
  simp [keyBefore, hne, hxy]

/-- The visits of the directories in a directory, one after the other. -/
def visitsWithin (s : Store) (base : Key) (outer : List String) : List (List String) :=
  (s.directoriesIn (base ++ outer)).flatMap fun x => s.visitsFrom base (outer ++ [x])

theorem mem_visitsWithin (hbase : s.get? base = some .directory) {a : List String} :
    a ∈ s.visitsWithin base outer ↔
      s.get? (base ++ a) = some .directory ∧ ∃ x, outer ++ [x] <+: a := by
  rw [visitsWithin, List.mem_flatMap]
  constructor
  · rintro ⟨x, -, ha⟩
    obtain ⟨hdir, hbelow⟩ := (mem_visitsFrom hbase).1 ha
    exact ⟨hdir, x, hbelow⟩
  · rintro ⟨hdir, x, hbelow⟩
    refine ⟨x, mem_directoriesIn.2 ?_, (mem_visitsFrom hbase).2 ⟨hdir, hbelow⟩⟩
    obtain ⟨rest, rfl⟩ := hbelow
    rw [← List.append_assoc, ← List.append_assoc] at hdir
    by_cases hrest : rest = []
    · simpa [hrest] using hdir
    · exact get?_above hrest (Option.isSome_of_eq_some hdir)

theorem pairwise_visitsWithin (hbase : s.get? base = some .directory) :
    (outer :: s.visitsWithin base outer).Pairwise fun a b => keyBefore a b = true := by
  have hordered := (names_namesIn s (base ++ outer) fun e => e.2 = .directory).ordered
  refine List.pairwise_cons.2 ⟨fun a ha => ?_, List.pairwise_flatMap.2 ⟨fun x _ =>
    pairwise_visitsFrom s base _, hordered.imp fun hxy a ha b hb => ?_⟩⟩
  · obtain ⟨-, x, rest, rfl⟩ := (mem_visitsWithin hbase).1 ha
    have hbefore := keyBefore_append outer [] ([x] ++ rest)
    rw [List.append_nil, ← List.append_assoc] at hbefore
    exact hbefore
  · exact keyBefore_of_lt hxy ((mem_visitsFrom hbase).1 ha).2 ((mem_visitsFrom hbase).1 hb).2

theorem nodup_visitsWithin (hbase : s.get? base = some .directory) :
    (outer :: s.visitsWithin base outer).Nodup := by
  have hordered := (names_namesIn s (base ++ outer) fun e => e.2 = .directory).ordered
  refine List.nodup_cons.2 ⟨fun ha => ?_, List.pairwise_flatMap.2 ⟨fun x _ =>
    nodup_visitsFrom s base _, hordered.imp fun hxy a ha b hb hab => ?_⟩⟩
  · obtain ⟨-, x, hbelow⟩ := (mem_visitsWithin hbase).1 ha
    have hlength := hbelow.length_le
    rw [List.length_append, List.length_singleton] at hlength
    omega
  · -- a directory does not lie in two directories of one directory
    obtain ⟨rest, rfl⟩ := ((mem_visitsFrom hbase).1 ha).2
    obtain ⟨rest', hrest⟩ := ((mem_visitsFrom hbase).1 hb).2
    rw [← hab] at hrest
    simp only [List.append_assoc, List.append_cancel_left_eq, List.cons_append, List.nil_append,
      List.cons.injEq] at hrest
    exact String.lt_irrefl _ (hrest.1 ▸ hxy)

/-- From a directory on, it is visited first, and then one directory in it after the other: the
visits are ordered lists without repetitions, so only their members are compared. -/
theorem visitsFrom_eq (hbase : s.get? base = some .directory)
    (houter : s.get? (base ++ outer) = some .directory) :
    s.visitsFrom base outer = outer :: s.visitsWithin base outer := by
  refine eq_of_ordered (fun a b _ _ => keyBefore_antisymm) (pairwise_visitsFrom s base outer)
    (pairwise_visitsWithin hbase) (nodup_visitsFrom s base outer) (nodup_visitsWithin hbase)
    fun a => ?_
  rw [mem_visitsFrom hbase, List.mem_cons, mem_visitsWithin hbase]
  constructor
  · rintro ⟨hdir, rest, rfl⟩
    cases rest with
    | nil => exact .inl (List.append_nil outer)
    | cons x rest => exact .inr ⟨hdir, x, rest, by simp⟩
  · rintro (rfl | ⟨hdir, x, rest, rfl⟩)
    · exact ⟨houter, List.prefix_refl _⟩
    · exact ⟨hdir, [x] ++ rest, by simp⟩

theorem depthFirst_visitsFrom (hbase : s.get? base = some .directory)
    (houter : s.get? (base ++ outer) = some .directory) :
    s.DepthFirst base outer (s.visitsFrom base outer) := by
  -- the induction is on the number of visits, of which there are fewer from each directory in it on
  induction hn : (s.visitsFrom base outer).length using Nat.strongRecOn generalizing outer with
  | ind n ih =>
    have hvisits := visitsFrom_eq hbase houter
    have hnames : s.Names (base ++ outer) (fun _ node => node = .directory)
        (s.directoriesIn (base ++ outer)) := by
      have h := names_namesIn s (base ++ outer) fun e => e.2 = .directory
      exact ⟨h.ordered, fun x => by simpa [directoriesIn] using h.member x⟩
    rw [hvisits]
    refine .visit hnames fun x hx => ?_
    have hfewer : (s.visitsFrom base (outer ++ [x])).length < n := by
      have hpart := List.sublist_flatten_of_mem (List.mem_map.2
        ⟨x, hx, rfl⟩ : s.visitsFrom base (outer ++ [x]) ∈ List.map (fun x =>
          s.visitsFrom base (outer ++ [x])) (s.directoriesIn (base ++ outer)))
      rw [← List.flatMap_def, ← visitsWithin] at hpart
      rw [← hn, hvisits, List.length_cons]
      exact Nat.lt_succ_of_le hpart.length_le
    have hdir := mem_directoriesIn.1 hx
    rw [List.append_assoc] at hdir
    exact ih _ hfewer hdir rfl

theorem depthFirst_visits (hbase : s.get? base = some .directory) :
    s.DepthFirst base [] (s.visits base) := by
  have hall : s.visitsFrom base [] = s.visits base := List.filter_eq_self.2 (by simp)
  rw [← hall]
  exact depthFirst_visitsFrom hbase (by rwa [List.append_nil])

end Store

/-! ### Whole listings -/

/-- The texts of the entries of directories that are gone through in turn. -/
def gathered (visited : List (List String)) (own : List String → List String) : List String :=
  visited.flatMap fun outer => (own outer).map fun x => entryText (outer ++ [x])

/-- The listing holds the entries below the directory at a key and nothing else: each of them once,
under its kind, by a text whose path leads to the entry. -/
structure Listing.Exact (l : Listing) (fs : FileSystem) (base : Key) : Prop where
  once : ∀ names node kind, names ≠ [] → fs.store.get? (base ++ names) = some node →
    (l.ofKind kind).count (entryText names) = if node.kind = kind then 1 else 0
  only : ∀ kind, ∀ t ∈ l.ofKind kind, ∃ names, names ≠ [] ∧ t = entryText names ∧
    (fs.store.get? (base ++ names)).isSome ∧ fs.Reaches (l.absolute t) (base ++ names)

/-- The listing goes through the directories in depth-first order, and through the names in each
directory in theirs. Of the links those that lead to directories come first. No directory is listed
before one it lies in. -/
structure Listing.InOrder (l : Listing) (fs : FileSystem) (base : Key)
    (visited : List (List String)) : Prop where
  visits : fs.store.DepthFirst base [] visited
  own : ∀ kind, kind ≠ .link → ∃ own, l.ofKind kind = gathered visited own ∧
    ∀ outer ∈ visited, fs.store.Names (base ++ outer) (fun _ node => node.kind = kind) (own outer)
  links : ∃ own : Bool → List String → List String,
    l.links = gathered visited (fun outer => own true outer ++ own false outer) ∧
    ∀ outer ∈ visited, ∀ toDirectory, fs.store.Names (base ++ outer) (fun x node =>
      node.kind = .link ∧
        (fs.isDirectory (l.root.below (outer ++ [x])) = .ok true ↔ toDirectory = true))
      (own toDirectory outer)
  parents : l.dirs.Pairwise fun t u => Key.isBelow (pathNames t) (pathNames u) = false

section Listings

variable {fs : FileSystem} {root path : Path} {base : Key} {l : Listing} {kind : EntryKind}

theorem leadsToDirectory_iff {p : Path} :
    fs.leadsToDirectory p = true ↔ fs.isDirectory p = .ok true := by
  unfold FileSystem.leadsToDirectory
  cases h : fs.isDirectory p with
  | ok answer => simp
  | error fault => simp

theorem nodup_texts {s : Store} {own : List String → List String}
    (hown : ∀ outer ∈ s.visits base, ∀ x ∈ own outer, (s.get? (base ++ (outer ++ [x]))).isSome)
    (hnodup : ∀ outer ∈ s.visits base, (own outer).Nodup) : (s.texts base own).Nodup := by
  have hnames : ∀ {outer outer' x x'}, outer ∈ s.visits base → outer' ∈ s.visits base →
      x ∈ own outer → x' ∈ own outer' → entryText (outer ++ [x]) = entryText (outer' ++ [x']) →
        outer ++ [x] = outer' ++ [x'] := by
    intro outer outer' x x' ho ho' hx hx' hsame
    exact entryText_injective (Store.isPathName_of_get? (hown outer ho x hx))
      (Store.isPathName_of_get? (hown outer' ho' x' hx')) hsame
  refine List.pairwise_flatMap.2 ⟨fun outer ho => List.pairwise_map.2 ?_, ?_⟩
  · refine (hnodup outer ho).imp_of_mem fun hx hy hxy hsame => hxy ?_
    simpa using hnames ho ho hx hy hsame
  · refine (s.nodup_visits base).imp_of_mem fun ho ho' hne t ht t' ht' hsame => hne ?_
    obtain ⟨x, hx, rfl⟩ := List.mem_map.1 ht
    obtain ⟨x', hx', rfl⟩ := List.mem_map.1 ht'
    exact (List.append_inj' (hnames ho ho' hx hx' hsame) rfl).1

theorem Listing.Follows.nodup (hl : l.Follows fs root base) (h : fs.Listable root base)
    (kind : EntryKind) : (l.ofKind kind).Nodup := by
  rw [hl.entries]
  refine nodup_texts (fun outer houter x hx => ?_) fun outer houter =>
    nodup_viewed h ((Store.mem_visits h.directory).1 houter) kind
  obtain ⟨node, hn, -⟩ :=
    (mem_viewed_of_listable h ((Store.mem_visits h.directory).1 houter) kind x).1 hx
  rw [List.append_assoc] at hn
  exact Option.isSome_of_eq_some hn

theorem Listing.Follows.exact (hl : l.Follows fs root base) (h : fs.Listable root base) :
    l.Exact fs base := by
  have hleads := (FileSystem.openDirectory_ok h.openDirectory).2.1
  refine ⟨fun names node kind hne hn => ?_, fun kind t ht => ?_⟩
  · have hmem : entryText names ∈ l.ofKind kind ↔ node.kind = kind := by
      rw [hl.describes kind]
      constructor
      · rintro ⟨names', node', -, hn', hkind, htext⟩
        obtain rfl := entryText_injective (Store.isPathName_of_get? (Option.isSome_of_eq_some hn))
          (Store.isPathName_of_get? (Option.isSome_of_eq_some hn')) htext
        rwa [Option.some.inj (hn.symm.trans hn')]
      · exact fun hkind => ⟨names, node, hne, hn, hkind, rfl⟩
    rw [(hl.nodup h kind).count]
    simp only [hmem]
  · obtain ⟨names, node, hne, hn, -, rfl⟩ := (hl.describes kind t).1 ht
    refine ⟨names, hne, rfl, Option.isSome_of_eq_some hn, ?_⟩
    rw [Listing.absolute, hl.rooted]
    exact FileSystem.walkFrom_below hleads hn hne (.inr rfl)

/-- An entry that is listed in a directory visited later lies above none that was listed before. -/
theorem pairwise_texts {s : Store} {own : List String → List String}
    (hown : ∀ outer ∈ s.visits base, ∀ x ∈ own outer, (s.get? (base ++ (outer ++ [x]))).isSome) :
    (s.texts base own).Pairwise fun t u => Key.isBelow (pathNames t) (pathNames u) = false := by
  have hread : ∀ outer ∈ s.visits base, ∀ x ∈ own outer,
      pathNames (entryText (outer ++ [x])) = outer ++ [x] := fun outer ho x hx =>
    pathNames_entryText (Store.isPathName_of_get? (hown outer ho x hx))
  refine List.pairwise_flatMap.2 ⟨fun outer ho => List.pairwise_map.2 ?_, ?_⟩
  · refine List.Pairwise.imp_of_mem (fun {x y} hx hy _ => ?_)
      (List.pairwise_of_forall fun _ _ => trivial)
    rw [hread outer ho x hx, hread outer ho y hy, Bool.eq_false_iff]
    intro hbelow
    obtain ⟨rest, hrest, hsame⟩ := Key.isBelow_iff.1 hbelow
    have hlength := congrArg List.length hsame
    have hpos := List.length_pos_iff.2 hrest
    simp only [List.length_append, List.length_singleton] at hlength
    omega
  · refine ((s.pairwise_visits base).and (s.nodup_visits base)).imp_of_mem ?_
    intro outer outer' ho ho' h t ht u hu
    obtain ⟨x, hx, rfl⟩ := List.mem_map.1 ht
    obtain ⟨y, hy, rfl⟩ := List.mem_map.1 hu
    rw [hread outer ho x hx, hread outer' ho' y hy, Bool.eq_false_iff]
    intro hbelow
    obtain ⟨rest, hrest, hsame⟩ := Key.isBelow_iff.1 hbelow
    -- then the directory of the second would have been visited first
    obtain ⟨front, z, rfl⟩ := Key.exists_concat hrest
    rw [← List.append_assoc] at hsame
    obtain ⟨rfl, -⟩ := List.append_inj' hsame rfl
    have hafter : keyBefore outer' (outer' ++ [y] ++ front) = true := by
      have hlonger := keyBefore_append outer' [] ([y] ++ front)
      rw [List.append_nil, ← List.append_assoc] at hlonger
      exact hlonger
    exact h.2 (keyBefore_antisymm h.1 hafter)

theorem Listing.Follows.inOrder (hl : l.Follows fs root base) (h : fs.Listable root base) :
    l.InOrder fs base (fs.store.visits base) := by
  have hdirectory : ∀ {outer}, outer ∈ fs.store.visits base →
      fs.store.get? (base ++ outer) = some .directory := (Store.mem_visits h.directory).1
  have hown : ∀ kind, kind ≠ .link → l.ofKind kind = gathered (fs.store.visits base) fun outer =>
      fs.store.namesIn (base ++ outer) fun e => e.2.kind = kind := by
    intro kind hkind
    rw [hl.entries]
    exact Store.texts_congr fun outer houter => viewed_of_listable h (hdirectory houter) hkind
  refine ⟨Store.depthFirst_visits h.directory, fun kind hkind => ?_, ?_, ?_⟩
  · refine ⟨_, hown kind hkind, fun outer _ => ?_⟩
    have hnames := fs.store.names_namesIn (base ++ outer) fun e => e.2.kind = kind
    exact ⟨hnames.ordered, fun x => by simpa using hnames.member x⟩
  · refine ⟨fun toDirectory outer => fs.store.namesIn (base ++ outer) fun e => e.2.kind = .link &&
      fs.leadsToDirectory ((root.below outer).join e.1) == toDirectory, ?_,
      fun outer houter toDirectory => ?_⟩
    · have hlinks : l.links = _ := hl.entries .link
      rw [hlinks]
      exact Store.texts_congr fun outer houter =>
        viewed_links_of_listable h (hdirectory houter)
    · have hnames := fs.store.names_namesIn (base ++ outer) fun e => e.2.kind = .link &&
        fs.leadsToDirectory ((root.below outer).join e.1) == toDirectory
      refine ⟨hnames.ordered, fun x => (hnames.member x).trans ?_⟩
      refine exists_congr fun node => and_congr_right fun hn => ?_
      rw [List.append_assoc] at hn
      rw [Path.join_below (Store.isPathName_of_get? (Option.isSome_of_eq_some hn)), hl.rooted,
        ← leadsToDirectory_iff, Bool.and_eq_true, decide_eq_true_eq, beq_iff_eq,
        Bool.eq_iff_iff]
  · have hdirs :
        l.dirs = fs.store.texts base fun outer => fs.store.directoriesIn (base ++ outer) := by
      refine (hown .directory (by simp)).trans (Store.texts_congr fun outer _ => ?_)
      refine Store.namesIn_congr fun x node _ => ?_
      cases node <;> rfl
    rw [hdirs]
    refine pairwise_texts fun outer _ x hx => ?_
    have hdir := Store.mem_directoriesIn.1 hx
    rw [List.append_assoc] at hdir
    exact Option.isSome_of_eq_some hdir

/-- A path that denotes a directory leads there also once it is made absolute, if it can be
listed. -/
theorem openDirectory_of_absolute {node : Node} (habs : fs.absolute path = .ok root)
    (hdir : fs.entryAt true path = .ok (some base, node)) {key : Option Key}
    (hopen : fs.openDirectory root = .ok key) : key = some base := by
  obtain ⟨-, hleads, -⟩ := FileSystem.openDirectory_ok hopen
  have hroot := FileSystem.isAbsolute_of_absolute habs
  cases key with
  | none =>
    rw [FileSystem.start, if_pos hroot, Store.walkFrom_of_notLost] at hleads
    exact absurd hleads (Store.walk_ne_lost _ _ _ _)
  | some key =>
    obtain ⟨-, hpath⟩ := FileSystem.leads_of_absolute (fun _ _ hn => hn) (fun _ => rfl) habs hleads
    have hsame := hpath.symm.trans (FileSystem.entryAt_ok hdir).2.1
    exact congrArg some (Spot.entry.inj (Except.ok.inj hsame))

/-- The listing of a directory changes nothing. If every directory in it can be listed, it is made,
and it is exact and in order as long as no link has a path that is too long for a call. -/
theorem diskSnapshot_exact (fs : FileSystem) (path root : Path) (base : Key)
    (journal : List Record) (habs : fs.absolute path = .ok root)
    (hdir : fs.entryAt true path = .ok (some base, .directory))
    (hlisted : ∀ names, fs.store.get? (base ++ names) = some .directory →
      ∃ key, fs.openDirectory (root.below names) = .ok key)
    (hlinks : ∀ names target, fs.store.get? (base ++ names) = some (.link target) →
      (root.below names).text.utf8ByteSize < pathLimit) :
    ∃ l journal' visited, diskSnapshot path ⟨fs, journal⟩ = (.ok l, ⟨fs, journal'⟩) ∧
      l.root = root ∧ l.Exact fs base ∧ l.InOrder fs base visited := by
  have hbase : fs.store.get? base = some .directory := (FileSystem.entryAt_ok hdir).2.2 base rfl
  have hroot : fs.openDirectory root = .ok (some base) := by
    obtain ⟨key, hkey⟩ := hlisted [] (by rwa [List.append_nil])
    rw [Path.below_nil] at hkey
    rwa [openDirectory_of_absolute habs hdir hkey] at hkey
  have h : fs.Listable root base := by
    refine ⟨hbase, fun names hn => ?_, fun names target hn => ?_⟩
    · obtain ⟨key, hkey⟩ := hlisted names hn
      rwa [FileSystem.openDirectory_below hroot hn hkey] at hkey
    · refine FileSystem.seesLink_below hroot hn ?_ (hlinks names target hn)
      rintro rfl
      rw [List.append_nil, hbase] at hn
      simp at hn
  obtain ⟨l, journal', hmade, hrooted, -⟩ :=
    @diskSnapshot_of_listable root ⟨fs, journal⟩ path base habs h
  have hl := follows_of_listable habs h hmade
  exact ⟨l, journal', _, hmade, hrooted, hl.exact h, hl.inOrder h⟩

/-- The root is a link, and the tree holds links to directories, to files, to themselves and to
nothing. -/
theorem diskSnapshot_exact_linked :
    linkedProject.absolute (Path.ofString "here") = .ok (Path.ofString "/w/here") ∧
      linkedProject.entryAt true (Path.ofString "here") = .ok (some ["w", "p"], .directory) ∧
      ∃ l journal' visited, diskSnapshot (Path.ofString "here") ⟨linkedProject, []⟩ =
          (.ok l, ⟨linkedProject, journal'⟩) ∧ l.root = Path.ofString "/w/here" ∧
        l.Exact linkedProject ["w", "p"] ∧ l.InOrder linkedProject ["w", "p"] visited := by
  have habs : linkedProject.absolute (Path.ofString "here") = .ok (Path.ofString "/w/here") :=
    ok_of_toOption (by decide +kernel)
  have hdir : linkedProject.entryAt true (Path.ofString "here") =
      .ok (some ["w", "p"], .directory) := ok_of_toOption (by decide +kernel)
  have hentries : ∀ k ∈ [] :: linkedProject.store.entries.map Prod.fst, ["w", "p"] <+: k →
      linkedProject.store.get? (["w", "p"] ++ k.drop 2) = some .directory →
        (linkedProject.openDirectory ((Path.ofString "/w/here").below (k.drop 2))).isOk := by
    decide +kernel
  have hshort : ∀ k ∈ [] :: linkedProject.store.entries.map Prod.fst, ["w", "p"] <+: k →
      ((Path.ofString "/w/here").below (k.drop 2)).text.utf8ByteSize < pathLimit := by
    decide +kernel
  refine ⟨habs, hdir, diskSnapshot_exact linkedProject _ _ ["w", "p"] [] habs hdir
    (fun names hn => ?_) fun names target hn => ?_⟩
  · have hopen := Store.forall_below (P := fun names =>
      linkedProject.store.get? (["w", "p"] ++ names) = some .directory →
        (linkedProject.openDirectory ((Path.ofString "/w/here").below names)).isOk) hentries
      (Option.isSome_of_eq_some hn) hn
    cases hkey : linkedProject.openDirectory ((Path.ofString "/w/here").below names) with
    | ok key => exact ⟨key, rfl⟩
    | error fault => simp [hkey, Except.isOk, Except.toBool] at hopen
  · exact Store.forall_below (P := fun names => ((Path.ofString "/w/here").below
      names).text.utf8ByteSize < pathLimit) hshort (Option.isSome_of_eq_some hn)

/-- A link whose path is too long for a call is listed as a file. -/
theorem mem_files_of_long_link {r r' : Run FileSystem} {names : List String} {target : String}
    (h : diskSnapshot path r = (.ok l, r'))
    (hopen : r.world.openDirectory l.root = .ok (some base))
    (hlink : r.world.store.get? (base ++ names) = some (.link target))
    (hlong : pathLimit ≤ (l.root.below names).text.utf8ByteSize) :
    entryText names ∈ l.files ∧ entryText names ∉ l.links := by
  have hdescribes : l.Describes (r.world.asListed l.root base).store base := by
    obtain ⟨-, -, ⟨base', hopen', hl⟩ | ⟨hnone, -⟩⟩ := diskSnapshot_ok h
    · obtain rfl : base' = base := by simpa [hopen] using hopen'.symm
      exact hl
    · simp [hopen] at hnone
  have hunseen : r.world.seesLink (l.root.below names) = false := by
    -- the length is looked at before the walk
    rw [FileSystem.seesLink, FileSystem.isLink, FileSystem.holds, FileSystem.entryAt,
      FileSystem.locate, Path.checkText, if_pos hlong]
    by_cases hnul : '\x00' ∈ (l.root.below names).text.toList
    · rw [if_pos hnul]
      rfl
    · rw [if_neg hnul]
      rfl
  have htaken : (r.world.asListed l.root base).store.get? (base ++ names) =
      some (.file ByteArray.empty) := by
    simp [FileSystem.get?_asListed_below, hlink, FileSystem.takenAt, hunseen]
  have hne : names ≠ [] := by
    rintro rfl
    have hdir := (FileSystem.openDirectory_ok hopen).2.2 base rfl
    rw [List.append_nil, hdir] at hlink
    simp at hlink
  refine ⟨(hdescribes .file _).2 ⟨names, _, hne, htaken, rfl, rfl⟩, fun hmem => ?_⟩
  obtain ⟨names', node, -, hn, hkind, htext⟩ := (hdescribes .link _).1 hmem
  obtain rfl := entryText_injective (Store.isPathName_of_get? (Option.isSome_of_eq_some htaken))
    (Store.isPathName_of_get? (Option.isSome_of_eq_some hn)) htext
  rw [htaken] at hn
  rw [← Option.some.inj hn] at hkind
  simp [Node.kind] at hkind

end Listings

end VendorTree
