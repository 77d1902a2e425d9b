import VendorTree.Proofs.ActionSteps
import VendorTree.Proofs.Calls

/-!
# What a listing holds

A listing that was made holds the texts of all entries below its root, each under its kind and no
others, and making it changes nothing. A link whose path is too long for a call is taken for a file.
-/

namespace VendorTree

/-- The kinds under which a listing notes entries. -/
inductive EntryKind
  | directory
  | file
  | link
  deriving DecidableEq

/-- The kind of an entry. -/
def Node.kind : Node → EntryKind
  | .directory => .directory
  | .file _ => .file
  | .link _ => .link

/-- The entries of one kind in a listing. -/
def Listing.ofKind (l : Listing) : EntryKind → List String
  | .directory => l.dirs
  | .file => l.files
  | .link => l.links

/-- The names of one kind in a directory. -/
def DirectoryView.ofKind (v : DirectoryView) : EntryKind → List String
  | .directory => v.dirs
  | .file => v.files
  | .link => v.directoryLinks ++ v.otherLinks

/-- The listing holds the entries below the directory at a key, by the names that lead to them. -/
def Listing.Describes (l : Listing) (s : Store) (base : Key) : Prop :=
  ∀ kind t, t ∈ l.ofKind kind ↔ ∃ names node, names ≠ [] ∧ s.get? (base ++ names) = some node ∧
    node.kind = kind ∧ t = entryText names

/-! ### Directories below the root -/

theorem Store.mem_directoriesBelow {s : Store} {k base : Key} : k ∈ s.directoriesBelow base ↔
    s.get? k = some .directory ∧ Key.isBelow k base = true := by
  rw [directoriesBelow, List.mem_mergeSort, List.mem_map]
  constructor
  · rintro ⟨⟨k', node⟩, hm, rfl⟩
    obtain ⟨hm, hk⟩ := List.mem_filter.1 hm
    simp only [Bool.and_eq_true, decide_eq_true_eq] at hk
    exact ⟨get?_of_mem (hk.1 ▸ hm), hk.2⟩
  · rintro ⟨hdir, hk⟩
    have hne : k ≠ [] := by
      obtain ⟨rest, hrest, rfl⟩ := Key.isBelow_iff.1 hk
      simp [hrest]
    exact ⟨_, List.mem_filter.2 ⟨(get?_eq_some_iff hne).1 hdir, by simpa using hk⟩, rfl⟩

/-! ### Links that are not seen -/

theorem lookup_map_node (f : Key → Node → Node) (k : Key) (es : List (Key × Node)) :
    (es.map fun e => (e.1, f e.1 e.2)).lookup k = (es.lookup k).map (f k) := by
  induction es with
  | nil => rfl
  | cons e rest ih =>
    rw [List.map_cons, List.lookup_cons, List.lookup_cons, ih]
    by_cases hk : k = e.1
    · rw [hk, beq_self_eq_true, Option.map_some]
    · rw [beq_false_of_ne hk]

namespace FileSystem

variable {fs : FileSystem} {p root : Path} {base k : Key} {names : List String} {node : Node}

/-- What a listing takes the node at a path for. -/
def takenAt (fs : FileSystem) (p : Path) : Node → Node
  | .link target => if fs.seesLink p then .link target else .file ByteArray.empty
  | node => node

theorem takenAt_of_seesLink (h : ∀ target, node = .link target → fs.seesLink p = true) :
    fs.takenAt p node = node := by
  cases node with
  | directory => rfl
  | file contents => rfl
  | link target => exact if_pos (h target rfl)

/-- The file system as a listing below a root takes it. -/
def asListed (fs : FileSystem) (root : Path) (base : Key) : FileSystem :=
  { fs with
    store := {
      entries := fs.store.entries.map fun e =>
        (e.1, fs.takenAt (root.below (e.1.drop base.length)) e.2)
      nodup := by
        rw [List.map_map]
        exact fs.store.nodup
      named := by
        intro e he
        obtain ⟨entry, hentry, rfl⟩ := List.mem_map.1 he
        exact fs.store.named entry hentry
      closed := by
        intro e he hne
        obtain ⟨entry, hentry, rfl⟩ := List.mem_map.1 he
        exact List.mem_map.2 ⟨_, fs.store.closed entry hentry hne, rfl⟩ } }

theorem get?_asListed (fs : FileSystem) (root : Path) (base k : Key) :
    (fs.asListed root base).store.get? k =
      (fs.store.get? k).map (fs.takenAt (root.below (k.drop base.length))) := by
  by_cases hk : k = []
  · simp [hk, takenAt]
  · rw [Store.get?, Store.get?, if_neg hk, if_neg hk]
    exact lookup_map_node (fun k => fs.takenAt (root.below (k.drop base.length))) k fs.store.entries

theorem get?_asListed_below (fs : FileSystem) (root : Path) (base : Key) (names : List String) :
    (fs.asListed root base).store.get? (base ++ names) =
      (fs.store.get? (base ++ names)).map (fs.takenAt (root.below names)) := by
  rw [get?_asListed, List.drop_left]

theorem exists_of_get?_asListed (h : (fs.asListed root base).store.get? k = some node) :
    ∃ node', fs.store.get? k = some node' ∧
      (node' = node ∨ node.kind = .file ∧ ∃ target, node' = .link target) := by
  rw [get?_asListed] at h
  obtain ⟨node', hn, rfl⟩ := Option.map_eq_some_iff.1 h
  refine ⟨node', hn, ?_⟩
  cases node' with
  | directory => exact .inl rfl
  | file contents => exact .inl rfl
  | link target =>
    cases hsees : fs.seesLink (root.below (k.drop base.length)) with
    | true => exact .inl (by simp [takenAt, hsees])
    | false => exact .inr ⟨by simp [takenAt, hsees, Node.kind], target, rfl⟩

theorem walkFrom_below {follow : Bool}
    (hroot : fs.store.walkFrom true (fs.start root) root.steps = .ok (.entry base))
    (h : fs.store.get? (base ++ names) = some node) (hne : names ≠ [])
    (hnode : (∀ target, node ≠ .link target) ∨ follow = false) :
    fs.store.walkFrom follow (fs.start (root.below names)) (root.below names).steps =
      .ok (.entry (base ++ names)) := by
  have hnamed : ∀ n ∈ names, IsPathName n ∧ n ≠ ".." := by
    intro n hn
    obtain ⟨hname, hup, -⟩ := Store.isEntryName_of_get? (Option.isSome_of_eq_some h) n
      (List.mem_append_right _ hn)
    exact ⟨hname, hup⟩
  have hstart : fs.start (root.below names) = fs.start root := rfl
  rw [hstart, Path.steps_below root hnamed]
  exact Store.walkFrom_append (by simpa using hne) hroot fun links =>
    Store.walk_enter_found h fun _ => hnode

/-- An entry is found by its path below a root, however the root is written. -/
theorem entryAt_below {follow : Bool} (hroot : fs.openDirectory root = .ok (some base))
    (h : fs.store.get? (base ++ names) = some node) (hne : names ≠ [])
    (hlen : (root.below names).text.utf8ByteSize < pathLimit)
    (hnode : (∀ target, node ≠ .link target) ∨ follow = false) :
    fs.entryAt follow (root.below names) = .ok (some (base ++ names), node) := by
  obtain ⟨htext, hleads, -⟩ := openDirectory_ok hroot
  have hnamed := Store.isEntryName_of_get? (Option.isSome_of_eq_some h)
  rw [entryAt, locate,
    checkText_below htext (fun n hn => hnamed n (List.mem_append_right _ hn)) hlen,
    walkFrom_below hleads h hne hnode]
  simp only [bind, Except.bind, h]

theorem seesLink_below {target : String} (hroot : fs.openDirectory root = .ok (some base))
    (h : fs.store.get? (base ++ names) = some (.link target)) (hne : names ≠ [])
    (hlen : (root.below names).text.utf8ByteSize < pathLimit) :
    fs.seesLink (root.below names) = true := by
  rw [seesLink, isLink, holds, entryAt_below hroot h hne hlen (.inr rfl)]

theorem openDirectory_below {key : Option Key} (hroot : fs.openDirectory root = .ok (some base))
    (h : fs.store.get? (base ++ names) = some .directory)
    (hopen : fs.openDirectory (root.below names) = .ok key) : key = some (base ++ names) := by
  by_cases hne : names = []
  · subst hne
    rw [Path.below_nil, hroot] at hopen
    simpa using (Except.ok.inj hopen).symm
  · have hwalk : fs.store.walkFrom true (fs.start (root.below names)) (root.below names).steps =
        .ok (.entry (base ++ names)) :=
      walkFrom_below (openDirectory_ok hroot).2.1 h hne (.inl (by simp))
    rw [(openDirectory_ok hopen).2.1] at hwalk
    cases key with
    | none => simp at hwalk
    | some k => simpa using hwalk

/-! ### Visits -/

theorem mem_sortEntries {entries : List (String × Node)} {e : String × Node} :
    e ∈ sortEntries entries ↔ e ∈ entries := by
  rw [sortEntries, List.mem_mergeSort]

theorem mem_sortedNames {entries : List (String × Node)}
    {test : String × Node → Bool} {x : String} :
    x ∈ ((sortEntries entries).filter test).map Prod.fst ↔
      ∃ node, (x, node) ∈ entries ∧ test (x, node) = true := by
  simp only [List.mem_map, List.mem_filter, mem_sortEntries]
  constructor
  · rintro ⟨⟨_, node⟩, h, rfl⟩
    exact ⟨node, h⟩
  · rintro ⟨node, h⟩
    exact ⟨(x, node), h, rfl⟩

theorem viewDirectory_ok {key : Option Key} (h : fs.openDirectory p = .ok key) :
    ∃ view, fs.viewDirectory p = .ok view ∧ ∀ kind x, x ∈ view.ofKind kind ↔
      ∃ node, (x, node) ∈ fs.entriesIn key ∧ (fs.takenAt (p.join x) node).kind = kind := by
  unfold viewDirectory
  rw [h]
  refine ⟨_, rfl, fun kind x => ?_⟩
  cases kind with
  | directory =>
    rw [DirectoryView.ofKind, mem_sortedNames]
    refine exists_congr fun node => and_congr_right fun _ => ?_
    cases hsees : fs.seesLink (p.join x) <;> cases node <;> simp [takenAt, hsees, Node.kind]
  | file =>
    rw [DirectoryView.ofKind, mem_sortedNames]
    refine exists_congr fun node => and_congr_right fun _ => ?_
    cases hsees : fs.seesLink (p.join x) <;> cases node <;> simp [takenAt, hsees, Node.kind]
  | link =>
    rw [DirectoryView.ofKind, List.mem_append, mem_sortedNames, mem_sortedNames, ← exists_or]
    refine exists_congr fun node => ?_
    rw [← and_or_left]
    refine and_congr_right fun _ => ?_
    cases hsees : fs.seesLink (p.join x) <;> cases hleads : fs.leadsToDirectory (p.join x) <;>
      cases node <;> simp [takenAt, Node.kind, hsees, hleads]

theorem openDirectory_of_viewDirectory {view : DirectoryView} (h : fs.viewDirectory p = .ok view) :
    ∃ key, fs.openDirectory p = .ok key := by
  unfold viewDirectory at h
  cases hopen : fs.openDirectory p with
  | error fault => simp [hopen, bind, Except.bind] at h
  | ok key => exact ⟨key, rfl⟩

theorem mem_namesBelow : names ∈ fs.namesBelow (some base) ↔
    names ≠ [] ∧ fs.store.get? (base ++ names) = some .directory := by
  simp only [namesBelow, Option.toList_some, List.flatMap_cons, List.flatMap_nil, List.append_nil,
    List.mem_map, Store.mem_directoriesBelow]
  constructor
  · rintro ⟨k, ⟨hdir, hbelow⟩, rfl⟩
    obtain ⟨rest, hrest, rfl⟩ := Key.isBelow_iff.1 hbelow
    rw [List.drop_left]
    exact ⟨hrest, hdir⟩
  · rintro ⟨hne, h⟩
    exact ⟨base ++ names, ⟨h, Key.isBelow_iff.2 ⟨names, hne, rfl⟩⟩, List.drop_left⟩

/-- The names of one kind in the directory at a path, and none where no directory can be listed. -/
def viewed (fs : FileSystem) (p : Path) (kind : EntryKind) : List String :=
  match fs.viewDirectory p with
  | .ok view => view.ofKind kind
  | .error _ => []

theorem mem_viewed {key : Option Key} (h : fs.openDirectory p = .ok key) (kind : EntryKind)
    (x : String) : x ∈ fs.viewed p kind ↔
      ∃ node, (x, node) ∈ fs.entriesIn key ∧ (fs.takenAt (p.join x) node).kind = kind := by
  obtain ⟨view, hview, hmem⟩ := viewDirectory_ok h
  rw [viewed, hview]
  exact hmem kind x

end FileSystem

section Visits

variable {fs fs' : FileSystem} {root : Path} {l : Listing} {r r' : Run FileSystem}

theorem noteLinks_run (root : Path) (texts : List String) (r : Run FileSystem) :
    ∃ journal, noteLinks root texts r = (.ok (), ⟨r.world, journal⟩) := by
  induction texts generalizing r with
  | nil => exact ⟨r.journal, rfl⟩
  | cons t rest ih =>
    rw [noteLinks, Action.note_bind_run]
    exact ih _

/-- A listing, and before it what one more directory holds. -/
def Listing.withView (l : Listing) (root : Path) (names : List String) (v : DirectoryView) :
    Listing :=
  let texts (ns : List String) := ns.map fun n => entryText (names ++ [n])
  { root
    dirs := texts v.dirs ++ l.dirs
    files := texts v.files ++ l.files
    links := texts v.directoryLinks ++ texts v.otherLinks ++ l.links }

theorem Listing.ofKind_withView (l : Listing) (root : Path) (names : List String)
    (v : DirectoryView) (kind : EntryKind) : (l.withView root names v).ofKind kind =
      (v.ofKind kind).map (fun n => entryText (names ++ [n])) ++ l.ofKind kind := by
  cases kind with
  | directory => rfl
  | file => rfl
  | link => rw [DirectoryView.ofKind, List.map_append]; rfl

/-- The visits look at the directories one by one and gather what these hold, in order. -/
theorem visitAll_run {visited : List (List String)}
    (hview : ∀ names ∈ visited, ∃ v, r.world.viewDirectory (root.below names) = .ok v) :
    ∃ l journal, visitAll root visited r = (.ok l, ⟨r.world, journal⟩) ∧ l.root = root ∧
      ∀ kind, l.ofKind kind = visited.flatMap fun names =>
        (r.world.viewed (root.below names) kind).map fun x => entryText (names ++ [x]) := by
  induction visited generalizing r with
  | nil =>
    refine ⟨_, r.journal, rfl, rfl, fun kind => ?_⟩
    cases kind <;> rfl
  | cons names rest ih =>
    obtain ⟨v, hv⟩ := hview names (by simp)
    have hfirst : Action.mapError RunFault.inSnapshot
        (Action.query (·.viewDirectory (root.below names))) r = (.ok v, r) :=
      Action.mapError_query_run hv
    obtain ⟨journal, hnotes⟩ := noteLinks_run root
      (v.directoryLinks.map fun n => entryText (names ++ [n])) r
    obtain ⟨l, journal', hrest, hroot, hlisted⟩ := ih (r := ⟨r.world, journal⟩)
      fun names' h => hview names' (by simp [h])
    refine ⟨l.withView root names v, journal', (Action.bind_run_ok hfirst).trans
      ((Action.bind_run_ok hnotes).trans (Action.bind_run_ok hrest)), rfl, fun kind => ?_⟩
    rw [Listing.ofKind_withView, hlisted, List.flatMap_cons, FileSystem.viewed, hv]

/-- Visits that come to a listing saw each directory. -/
theorem viewed_of_visitAll {visited : List (List String)}
    (h : visitAll root visited r = (.ok l, r')) :
    ∀ names ∈ visited, ∃ v, r.world.viewDirectory (root.below names) = .ok v := by
  induction visited generalizing r r' l with
  | nil => simp
  | cons names rest ih =>
    obtain ⟨v, r₁, hfirst, h⟩ := Action.exists_of_bind_ok h
    obtain ⟨hv, hsame⟩ := Prod.mk.inj (Action.run_of_mapError_ok hfirst)
    obtain ⟨_, r₂, hnotes, h⟩ := Action.exists_of_bind_ok h
    obtain ⟨_, r₃, hrest, _⟩ := Action.exists_of_bind_ok h
    obtain ⟨journal, hlinks⟩ := noteLinks_run root
      (v.directoryLinks.map fun n => entryText (names ++ [n])) r₁
    rw [hlinks] at hnotes
    obtain ⟨-, rfl⟩ := Prod.mk.inj hnotes
    rintro names' (_ | ⟨_, hmem⟩)
    · exact ⟨v, hv⟩
    · have hworld : r₁.world = r.world := congrArg Run.world hsame.symm
      have hlater := ih hrest names' hmem
      rwa [hworld] at hlater

/-! ### Listings -/

/-- A directory of the tree, reached by names alone, in which every directory can be listed and no
path is too long for a call. -/
structure FileSystem.Readable (fs : FileSystem) (root : Path) : Prop where
  absolute : root.isAbsolute = true
  directory : fs.store.get? root.names = some .directory
  short : ∀ names, (fs.store.get? (root.names ++ names)).isSome →
    (root.below names).text.utf8ByteSize < pathLimit
  listed : ∀ names, fs.store.get? (root.names ++ names) = some .directory →
    (root.below names).text ∉ fs.refused

theorem FileSystem.Readable.of_within (h : fs.Readable root) (hs : fs'.store.Within fs.store)
    (hdir : fs'.store.get? root.names = some .directory) (hrefused : fs'.refused = fs.refused) :
    fs'.Readable root where
  absolute := h.absolute
  directory := hdir
  short names hn := by
    obtain ⟨node, hnode⟩ := Option.isSome_iff_exists.1 hn
    exact h.short names (Option.isSome_of_eq_some (hs _ _ hnode))
  listed names hn := hrefused ▸ h.listed names (hs _ _ hn)

/-- What holds of the entries below a directory one by one holds of all of them. -/
theorem Store.forall_below {s : Store} {base : Key} {P : List String → Prop}
    (h : ∀ k ∈ [] :: s.entries.map Prod.fst, base <+: k → P (k.drop base.length))
    {names : List String} (hn : (s.get? (base ++ names)).isSome) : P names := by
  obtain ⟨node, hnode⟩ := Option.isSome_iff_exists.1 hn
  have hmem : base ++ names ∈ [] :: s.entries.map Prod.fst := by
    by_cases hk : base ++ names = []
    · simp [hk]
    · exact List.mem_cons_of_mem _ (List.mem_map.2 ⟨_, (get?_eq_some_iff hk).1 hnode, rfl⟩)
  have hP := h _ hmem (List.prefix_append _ _)
  rwa [List.drop_left] at hP

/-- The paths of the entries below a directory can be passed to calls if those of the single entries
can. -/
theorem FileSystem.forall_path_of_entries {base : Key}
    (hentries : ∀ k ∈ [] :: fs.store.entries.map Prod.fst, base <+: k →
      (root.below (k.drop base.length)).text.utf8ByteSize < pathLimit ∧
        (root.below (k.drop base.length)).text ∉ fs.refused) {names : List String}
    (hn : (fs.store.get? (base ++ names)).isSome) :
    (root.below names).text.utf8ByteSize < pathLimit ∧ (root.below names).text ∉ fs.refused :=
  Store.forall_below (P := fun names => (root.below names).text.utf8ByteSize < pathLimit ∧
    (root.below names).text ∉ fs.refused) hentries hn

theorem FileSystem.readable_of_entries (habs : root.isAbsolute = true)
    (hdir : fs.store.get? root.names = some .directory)
    (hentries : ∀ k ∈ [] :: fs.store.entries.map Prod.fst, root.names <+: k →
      (root.below (k.drop root.names.length)).text.utf8ByteSize < pathLimit ∧
        (root.below (k.drop root.names.length)).text ∉ fs.refused) : fs.Readable root where
  absolute := habs
  directory := hdir
  short _ hn := (forall_path_of_entries hentries hn).1
  listed _ hn := (forall_path_of_entries hentries (Option.isSome_of_eq_some hn)).2

theorem Path.names_below_of_isSome {s : Store} {base : Key} {names : List String} (root : Path)
    (h : (s.get? (base ++ names)).isSome) : (root.below names).names = root.names ++ names :=
  names_below root (Store.isPathName_of_get? h)

theorem FileSystem.Readable.plain_below {names : List String} (h : fs.Readable root)
    (hn : (fs.store.get? (root.names ++ names)).isSome) : fs.Plain (root.below names) := by
  have hnames := Path.names_below_of_isSome root hn
  refine FileSystem.plain_of_isSome h.absolute (h.short names hn) ?_
  rwa [hnames]

theorem FileSystem.Readable.openDirectory_below {names : List String} (h : fs.Readable root)
    (hn : fs.store.get? (root.names ++ names) = some .directory) :
    fs.openDirectory (root.below names) = .ok (some (root.names ++ names)) := by
  have hsome := Option.isSome_of_eq_some hn
  have hnames := Path.names_below_of_isSome root hsome
  have hopen :=
    (h.plain_below hsome).finds.openDirectory_directory (hnames ▸ hn) (h.listed names hn)
  rwa [hnames] at hopen

theorem FileSystem.Readable.seesLink_below {names : List String} {target : String}
    (h : fs.Readable root) (hn : fs.store.get? (root.names ++ names) = some (.link target)) :
    fs.seesLink (root.below names) = true := by
  have hsome := Option.isSome_of_eq_some hn
  have hnames := Path.names_below_of_isSome root hsome
  rw [seesLink, (h.plain_below hsome).finds.isLink_link (hnames ▸ hn)]

/-- What is seen in a directory below the root are the entries in it, as a listing takes them. -/
theorem FileSystem.mem_viewed_below {base : Key} {names : List String} {v : DirectoryView}
    (hroot : fs.openDirectory root = .ok (some base))
    (hdir : fs.store.get? (base ++ names) = some .directory)
    (hview : fs.viewDirectory (root.below names) = .ok v) (kind : EntryKind) (x : String) :
    x ∈ fs.viewed (root.below names) kind ↔ ∃ node,
      (fs.asListed root base).store.get? (base ++ (names ++ [x])) = some node ∧
        node.kind = kind := by
  obtain ⟨key, hkey⟩ := openDirectory_of_viewDirectory hview
  rw [mem_viewed hkey, openDirectory_below hroot hdir hkey]
  simp only [entriesIn, Option.map_some, Option.getD_some, Store.mem_children,
    get?_asListed_below, Option.map_eq_some_iff, List.append_assoc]
  constructor
  · rintro ⟨node, hn, hkind⟩
    rw [Path.join_below (Store.isPathName_of_get? (Option.isSome_of_eq_some hn))] at hkind
    exact ⟨_, ⟨node, hn, rfl⟩, hkind⟩
  · rintro ⟨_, ⟨node, hn, rfl⟩, hkind⟩
    rw [← Path.join_below (Store.isPathName_of_get? (Option.isSome_of_eq_some hn))] at hkind
    exact ⟨node, hn, hkind⟩

theorem FileSystem.mem_visited {base : Key} (hbase : fs.store.get? base = some .directory)
    (names : List String) : names ∈ [] :: fs.namesBelow (some base) ↔
      fs.store.get? (base ++ names) = some .directory := by
  rw [List.mem_cons, mem_namesBelow]
  by_cases hne : names = []
  · simp [hne, hbase]
  · simp [hne]

theorem describes_of_visits {base : Key} (hroot : fs.openDirectory root = .ok (some base))
    (hview : ∀ names ∈ [] :: fs.namesBelow (some base), ∃ v,
      fs.viewDirectory (root.below names) = .ok v)
    (hlisted : ∀ kind, l.ofKind kind = ([] :: fs.namesBelow (some base)).flatMap fun names =>
      (fs.viewed (root.below names) kind).map fun x => entryText (names ++ [x])) :
    l.Describes (fs.asListed root base).store base := by
  have hvisited := FileSystem.mem_visited ((FileSystem.openDirectory_ok hroot).2.2 base rfl)
  have hseen : ∀ names, fs.store.get? (base ++ names) = some .directory → ∀ kind x,
      x ∈ fs.viewed (root.below names) kind ↔ ∃ node,
        (fs.asListed root base).store.get? (base ++ (names ++ [x])) = some node ∧
          node.kind = kind := by
    intro names hdir
    obtain ⟨v, hv⟩ := hview names ((hvisited names).2 hdir)
    exact FileSystem.mem_viewed_below hroot hdir hv
  intro kind t
  rw [hlisted, List.mem_flatMap]
  constructor
  · rintro ⟨names, hnames, ht⟩
    obtain ⟨x, hx, rfl⟩ := List.mem_map.1 ht
    obtain ⟨node, hnode, hkind⟩ := (hseen names ((hvisited names).1 hnames) kind x).1 hx
    exact ⟨names ++ [x], node, by simp, hnode, hkind, rfl⟩
  · rintro ⟨names, node, hne, hnode, hkind, rfl⟩
    obtain ⟨outer, x, rfl⟩ := Key.exists_concat hne
    obtain ⟨node', hn, -⟩ := FileSystem.exists_of_get?_asListed hnode
    rw [← List.append_assoc] at hn
    -- what an entry lies in is a directory in the store itself, which is therefore visited
    have hdir : fs.store.get? (base ++ outer) = some .directory :=
      Store.get?_above (by simp) (Option.isSome_of_eq_some hn)
    exact ⟨outer, (hvisited outer).2 hdir,
      List.mem_map.2 ⟨x, (hseen outer hdir kind x).2 ⟨node, hnode, hkind⟩, rfl⟩⟩

/-- Where each link below the root is seen, a listing takes everything for what it is. -/
theorem Listing.Describes.of_seesLink {base : Key}
    (h : l.Describes (fs.asListed root base).store base)
    (hsees : ∀ names target, fs.store.get? (base ++ names) = some (.link target) →
      fs.seesLink (root.below names) = true) : l.Describes fs.store base := by
  have hsame : ∀ names, (fs.asListed root base).store.get? (base ++ names) =
      fs.store.get? (base ++ names) := by
    intro names
    rw [FileSystem.get?_asListed_below]
    cases hn : fs.store.get? (base ++ names) with
    | none => rfl
    | some node =>
      refine congrArg some (FileSystem.takenAt_of_seesLink ?_)
      rintro target rfl
      exact hsees names target hn
  intro kind t
  simp only [h kind t, hsame]

theorem Listing.mem_unusedPackages {used : List String} {p : String} :
    p ∈ l.unusedPackages used ↔ p ∈ l.packages ∧ p ∉ used := by
  rw [unusedPackages, List.mem_eraseDups, List.mem_filter, decide_eq_true_eq]

theorem Listing.Describes.mem_dirs {s : Store} {base : Key} {names : List String} {node : Node}
    (h : l.Describes s base) (hn : s.get? (base ++ names) = some node) (hd : names.dropLast ≠ []) :
    entryText names.dropLast ∈ l.dirs := by
  have hne : names ≠ [] := by
    rintro rfl
    exact hd rfl
  obtain ⟨outer, x, rfl⟩ := Key.exists_concat hne
  rw [List.dropLast_concat] at hd ⊢
  rw [← List.append_assoc] at hn
  have hdir : s.get? (base ++ outer) = some .directory :=
    Store.get?_above (by simp) (Option.isSome_of_eq_some hn)
  exact (h .directory _).2 ⟨outer, .directory, hd, hdir, rfl, rfl⟩

/-- A listing that was made holds what the visits saw, directory by directory. -/
theorem visits_of_diskSnapshot {path : Path} (h : diskSnapshot path r = (.ok l, r')) :
    ∃ key, r'.world = r.world ∧ r.world.absolute path = .ok l.root ∧
      r.world.openDirectory l.root = .ok key ∧
      (∀ names ∈ [] :: r.world.namesBelow key, ∃ v,
        r.world.viewDirectory (l.root.below names) = .ok v) ∧
      ∀ kind, l.ofKind kind = ([] :: r.world.namesBelow key).flatMap fun names =>
        (r.world.viewed (l.root.below names) kind).map fun x => entryText (names ++ [x]) := by
  obtain ⟨root, r₁, habs, h⟩ := Action.exists_of_bind_ok h
  obtain ⟨hroot, rfl⟩ := Prod.mk.inj (Action.run_of_mapError_ok habs)
  obtain ⟨isDir, r₂, hdir, h⟩ := Action.exists_of_bind_ok h
  obtain ⟨-, rfl⟩ := Prod.mk.inj (Action.run_of_mapError_ok hdir)
  cases isDir with
  | false => simp [Action.fail] at h
  | true =>
    obtain ⟨key, r₃, hkey, h⟩ := Action.exists_of_bind_ok h
    obtain ⟨hopen, rfl⟩ := Prod.mk.inj (Action.run_of_mapError_ok hkey)
    obtain ⟨below, r₄, hbelow, h⟩ := Action.exists_of_bind_ok h
    obtain ⟨hb, rfl⟩ := Prod.mk.inj hbelow
    obtain rfl := Except.ok.inj hb
    obtain ⟨l', r₅, hvisits, h⟩ := Action.exists_of_bind_ok h
    rw [Action.note_bind_run] at h
    obtain ⟨hl, rfl⟩ := Prod.mk.inj h
    obtain rfl := Except.ok.inj hl
    have hview := viewed_of_visitAll hvisits
    obtain ⟨l'', journal, hvisits', hroot', hlisted⟩ := visitAll_run hview
    obtain ⟨hl'', rfl⟩ := Prod.mk.inj (hvisits.symm.trans hvisits')
    obtain rfl := Except.ok.inj hl''
    rw [hroot']
    exact ⟨key, rfl, hroot, hopen, hview, hlisted⟩

/-- A listing that was made leaves the world as it was and describes what lies below its root, as
listings take it; a removed directory holds nothing. -/
theorem diskSnapshot_ok {path : Path} (h : diskSnapshot path r = (.ok l, r')) :
    r'.world = r.world ∧ r.world.absolute path = .ok l.root ∧
      ((∃ base, r.world.openDirectory l.root = .ok (some base) ∧
          l.Describes (r.world.asListed l.root base).store base) ∨
        (r.world.openDirectory l.root = .ok none ∧ ∀ kind, l.ofKind kind = [])) := by
  obtain ⟨key, hworld, hroot, hopen, hview, hlisted⟩ := visits_of_diskSnapshot h
  refine ⟨hworld, hroot, ?_⟩
  cases key with
  | some base => exact .inl ⟨base, hopen, describes_of_visits hopen hview hlisted⟩
  | none =>
    refine .inr ⟨hopen, fun kind => List.eq_nil_iff_forall_not_mem.2 fun t ht => ?_⟩
    rw [hlisted] at ht
    obtain ⟨names, hn, ht⟩ := List.mem_flatMap.1 ht
    obtain rfl : names = [] := by simpa [FileSystem.namesBelow] using hn
    obtain ⟨x, hx, -⟩ := List.mem_map.1 ht
    rw [Path.below_nil] at hx
    simpa [FileSystem.entriesIn] using (FileSystem.mem_viewed hopen kind x).1 hx

/-- Every directory below the one at a key can be listed by its path below a root, and every link is
seen there. The root may lead to the directory in any way. -/
structure FileSystem.Listable (fs : FileSystem) (root : Path) (base : Key) : Prop where
  directory : fs.store.get? base = some .directory
  opened : ∀ names, fs.store.get? (base ++ names) = some .directory →
    fs.openDirectory (root.below names) = .ok (some (base ++ names))
  seen : ∀ names target, fs.store.get? (base ++ names) = some (.link target) →
    fs.seesLink (root.below names) = true

theorem FileSystem.Readable.listable (h : fs.Readable root) : fs.Listable root root.names :=
  ⟨h.directory, fun _ => h.openDirectory_below, fun _ _ => h.seesLink_below⟩

theorem FileSystem.Listable.openDirectory {base : Key} (h : fs.Listable root base) :
    fs.openDirectory root = .ok (some base) := by
  have hopen := h.opened [] (by rw [List.append_nil]; exact h.directory)
  rwa [Path.below_nil, List.append_nil] at hopen

theorem FileSystem.isDirectory_of_openDirectory {p : Path} {key : Option Key}
    (h : fs.openDirectory p = .ok key) : fs.isDirectory p = .ok true := by
  rw [isDirectory, holds, (entryAt_of_openDirectory h).2]
  rfl

theorem diskSnapshot_run_of_noDirectory {path : Path} (habs : fs.absolute path = .ok root)
    (hdir : fs.isDirectory root = .ok false) (journal : List Record) :
    diskSnapshot path ⟨fs, journal⟩ = (.error (.snapshot (.notDirectory root)), ⟨fs, journal⟩) := by
  refine (Action.bind_run_ok (Action.mapError_query_run habs)).trans ?_
  exact (Action.bind_run_ok (Action.mapError_query_run hdir)).trans rfl

theorem diskSnapshot_run_of_unopened {path : Path} {fault : Fault}
    (habs : fs.absolute path = .ok root) (hdir : fs.isDirectory root = .ok true)
    (hopen : fs.openDirectory root = .error fault) (journal : List Record) :
    diskSnapshot path ⟨fs, journal⟩ = (.error (.inSnapshot fault), ⟨fs, journal⟩) := by
  refine (Action.bind_run_ok (Action.mapError_query_run habs)).trans ?_
  refine (Action.bind_run_ok (Action.mapError_query_run hdir)).trans ?_
  exact Action.bind_run_error (Action.mapError_query_run_error hopen)

/-- Once the root is opened, a listing is what the visits make it. -/
theorem diskSnapshot_run_of_open {path : Path} {key : Option Key}
    (habs : fs.absolute path = .ok root) (hopen : fs.openDirectory root = .ok key)
    (journal : List Record) :
    diskSnapshot path ⟨fs, journal⟩ = (do
      let l ← visitAll root ([] :: fs.namesBelow key)
      Action.note .snapshot (.listed root l.dirs.length l.files.length l.links.length)
      return l) ⟨fs, journal⟩ := by
  have hdir := FileSystem.isDirectory_of_openDirectory hopen
  refine (Action.bind_run_ok (Action.mapError_query_run habs)).trans ?_
  refine (Action.bind_run_ok (Action.mapError_query_run hdir)).trans ?_
  exact (Action.bind_run_ok (Action.mapError_query_run hopen)).trans rfl

/-- The listing of a directory is made if every directory in it can be listed. -/
theorem diskSnapshot_of_listable {path : Path} {base : Key}
    (habs : r.world.absolute path = .ok root) (h : r.world.Listable root base) :
    ∃ l journal, diskSnapshot path r = (.ok l, ⟨r.world, journal⟩) ∧ l.root = root ∧
      l.Describes r.world.store base := by
  have hopen := h.openDirectory
  have hview : ∀ names ∈ [] :: r.world.namesBelow (some base), ∃ v,
      r.world.viewDirectory (root.below names) = .ok v := by
    intro names hnames
    have hdir := (FileSystem.mem_visited h.directory names).1 hnames
    obtain ⟨v, hv, -⟩ := FileSystem.viewDirectory_ok (h.opened names hdir)
    exact ⟨v, hv⟩
  obtain ⟨l, journal, hvisits, hroot, hlisted⟩ := visitAll_run (r := r) hview
  refine ⟨l, journal ++ [⟨.snapshot, .listed root l.dirs.length l.files.length l.links.length⟩],
    ?_, hroot, (describes_of_visits hopen hview hlisted).of_seesLink h.seen⟩
  exact (diskSnapshot_run_of_open habs hopen r.journal).trans (Action.bind_run_ok hvisits)

theorem diskSnapshot_of_readable (h : r.world.Readable root) :
    ∃ l journal, diskSnapshot root r = (.ok l, ⟨r.world, journal⟩) ∧ l.root = root ∧
      l.Describes r.world.store root.names :=
  diskSnapshot_of_listable (if_pos h.absolute) h.listable

end Visits

end VendorTree
