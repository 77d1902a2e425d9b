import VendorTree.Proofs.Stages

/-!
# The order of a listing

A listing goes through the directories of a tree in the order of their keys, and in each of them
through the names in their order. So what a listing holds, its order included, follows from what is
at which key, and the listing of a tree from which entries were deleted is what is left of the
listing of the whole tree.
-/

namespace VendorTree

section KeyOrder

variable {a b c : Key}

theorem keyBefore_trans (a b c : Key) (h : keyBefore a b = true) (h' : keyBefore b c = true) :
    keyBefore a c = true := by
  induction a generalizing b c with
  | nil => simp [keyBefore]
  | cons x xs ih =>
    cases b with
    | nil => simp [keyBefore] at h
    | cons y ys =>
      cases c with
      | nil => simp [keyBefore] at h'
      | cons z zs =>
        unfold keyBefore at h h' ⊢
        by_cases hxy : x = y
        · subst hxy
          rw [if_pos rfl] at h
          by_cases hxz : x = z
          · rw [if_pos hxz] at h' ⊢
            exact ih ys zs h h'
          · rwa [if_neg hxz] at h' ⊢
        · rw [if_neg hxy, decide_eq_true_eq] at h
          by_cases hyz : y = z
          · subst hyz
            simpa [hxy] using h
          · rw [if_neg hyz, decide_eq_true_eq] at h'
            have hlt := String.lt_trans h h'
            have hxz : x ≠ z := by
              rintro rfl
              exact String.lt_irrefl x hlt
            simpa [hxz] using hlt

theorem lt_or_lt_of_ne {x y : String} (h : x ≠ y) : x < y ∨ y < x := by
  rcases String.le_total x y with hle | hle
  · by_cases hlt : y ≤ x
    · exact absurd (String.le_antisymm hle hlt) h
    · exact .inl (String.not_le.1 hlt)
  · by_cases hlt : x ≤ y
    · exact absurd (String.le_antisymm hlt hle) h
    · exact .inr (String.not_le.1 hlt)

theorem keyBefore_total (a b : Key) : (keyBefore a b || keyBefore b a) = true := by
  induction a generalizing b with
  | nil => simp [keyBefore]
  | cons x xs ih =>
    cases b with
    | nil => simp [keyBefore]
    | cons y ys =>
      unfold keyBefore
      by_cases hxy : x = y
      · subst hxy
        simpa using ih ys
      · have hyx : y ≠ x := fun h => hxy h.symm
        simpa [hxy, hyx] using lt_or_lt_of_ne hxy

theorem keyBefore_antisymm (h : keyBefore a b = true) (h' : keyBefore b a = true) : a = b := by
  induction a generalizing b with
  | nil =>
    cases b with
    | nil => rfl
    | cons y ys => simp [keyBefore] at h'
  | cons x xs ih =>
    cases b with
    | nil => simp [keyBefore] at h
    | cons y ys =>
      unfold keyBefore at h h'
      by_cases hxy : x = y
      · subst hxy
        rw [if_pos rfl] at h h'
        rw [ih h h']
      · have hyx : y ≠ x := fun h => hxy h.symm
        rw [if_neg hxy, decide_eq_true_eq] at h
        rw [if_neg hyx, decide_eq_true_eq] at h'
        exact absurd (String.lt_trans h h') (String.lt_irrefl x)

theorem keyBefore_append (base a b : Key) : keyBefore (base ++ a) (base ++ b) = keyBefore a b := by
  induction base with
  | nil => rfl
  | cons x xs ih =>
    rw [List.cons_append, List.cons_append, keyBefore, if_pos rfl, ih]

end KeyOrder

/-! ### The entries of a store in order -/

namespace Store

variable {s s' : Store} {k base : Key}

/-- The names in a directory that satisfy a test, in their order. -/
def namesIn (s : Store) (k : Key) (test : String × Node → Bool) : List String :=
  ((sortEntries (s.children k)).filter test).map Prod.fst

theorem nodup_children (s : Store) (k : Key) : ((s.children k).map Prod.fst).Nodup := by
  have hkeys : s.entries.Pairwise fun e e' => e.1 ≠ e'.1 := List.pairwise_map.1 s.nodup
  have hnamed : ∀ {e : Key × Node} {b : String × Node},
      (if e.1.dropLast = k then e.1.getLast?.map fun n => (n, e.2) else none) = some b →
        e.1 = k ++ [b.1] := by
    intro e b hb
    rw [Option.ite_none_right_eq_some] at hb
    obtain ⟨hk, x, hx, rfl⟩ := hb.imp_right Option.map_eq_some_iff.1
    obtain ⟨outer, hsplit⟩ := List.getLast?_eq_some_iff.1 hx
    rw [hsplit, List.dropLast_concat] at hk
    rw [hsplit, hk]
  refine List.pairwise_map.2
    (List.Pairwise.filterMap _ (fun e e' hne b hb b' hb' hsame => ?_) hkeys)
  exact hne ((hnamed hb).trans (by rw [hsame, ← hnamed hb']))

theorem mem_namesIn {test : String × Node → Bool} {x : String} : x ∈ s.namesIn k test ↔
    ∃ node, s.get? (k ++ [x]) = some node ∧ test (x, node) = true := by
  rw [namesIn, FileSystem.mem_sortedNames]
  simp only [mem_children]

theorem nodup_namesIn (s : Store) (k : Key) (test : String × Node → Bool) :
    (s.namesIn k test).Nodup := by
  have hsorted : ((sortEntries (s.children k)).map Prod.fst).Nodup :=
    (((List.mergeSort_perm _ _).map Prod.fst).nodup_iff).2 (nodup_children s k)
  exact hsorted.sublist (List.filter_sublist.map _)

theorem pairwise_namesIn (s : Store) (k : Key) (test : String × Node → Bool) :
    (s.namesIn k test).Pairwise (· ≤ ·) := by
  have htrans : ∀ a b c : String × Node, decide (a.1 ≤ b.1) = true → decide (b.1 ≤ c.1) = true →
      decide (a.1 ≤ c.1) = true := by
    simp only [decide_eq_true_eq]
    exact fun _ _ _ => String.le_trans
  have htotal : ∀ a b : String × Node, (decide (a.1 ≤ b.1) || decide (b.1 ≤ a.1)) = true := by
    simp only [Bool.or_eq_true, decide_eq_true_eq]
    exact fun a b => String.le_total a.1 b.1
  have hsorted := (List.pairwise_mergeSort htrans htotal (s.children k)).filter test
  exact List.pairwise_map.2 (hsorted.imp of_decide_eq_true)

theorem namesIn_congr {test test' : String × Node → Bool}
    (h : ∀ x node, s.get? (k ++ [x]) = some node → test (x, node) = test' (x, node)) :
    s.namesIn k test = s.namesIn k test' := by
  refine congrArg (List.map Prod.fst) (List.filter_congr fun e he => ?_)
  exact h e.1 e.2 (mem_children.1 (FileSystem.mem_sortEntries.1 he))

def isThere (s : Store) (base : Key) (names : List String) : Bool := (s.get? (base ++ names)).isSome

theorem namesIn_of_within (hs : s'.Within s) (k : Key) (test : String × Node → Bool) :
    s'.namesIn k test = (s.namesIn k test).filter fun x => s'.isThere k [x] := by
  refine eq_of_ordered (fun a b _ _ => String.le_antisymm) (pairwise_namesIn s' k test)
    ((pairwise_namesIn s k test).filter _) (nodup_namesIn s' k test)
    ((nodup_namesIn s k test).sublist List.filter_sublist) fun x => ?_
  rw [List.mem_filter, mem_namesIn, mem_namesIn, isThere, Option.isSome_iff_exists]
  constructor
  · rintro ⟨node, hn, ht⟩
    exact ⟨⟨node, hs _ _ hn, ht⟩, node, hn⟩
  · rintro ⟨⟨node, hn, ht⟩, node', hn'⟩
    obtain rfl := Option.some.inj (hn.symm.trans (hs _ _ hn'))
    exact ⟨node, hn', ht⟩

/-- The names that lead to the directories of a tree, its root first, in the order of a visit. -/
def visits (s : Store) (base : Key) : List (List String) :=
  [] :: (s.directoriesBelow base).map fun k => k.drop base.length

theorem mem_visits {names : List String} (hbase : s.get? base = some .directory) :
    names ∈ s.visits base ↔ s.get? (base ++ names) = some .directory := by
  rw [visits, List.mem_cons, List.mem_map]
  constructor
  · rintro (rfl | ⟨k, hk, rfl⟩)
    · rwa [List.append_nil]
    · obtain ⟨hdir, hbelow⟩ := mem_directoriesBelow.1 hk
      obtain ⟨rest, -, rfl⟩ := Key.isBelow_iff.1 hbelow
      rwa [List.drop_left]
  · intro hdir
    by_cases hnil : names = []
    · exact .inl hnil
    · exact .inr ⟨base ++ names, mem_directoriesBelow.2 ⟨hdir, Key.isBelow_iff.2
        ⟨names, hnil, rfl⟩⟩, List.drop_left⟩

theorem pairwise_directoriesBelow (s : Store) (base : Key) :
    (s.directoriesBelow base).Pairwise fun a b => keyBefore a b = true :=
  List.pairwise_mergeSort keyBefore_trans keyBefore_total _

theorem nodup_directoriesBelow (s : Store) (base : Key) : (s.directoriesBelow base).Nodup :=
  (List.mergeSort_perm _ _).nodup_iff.2 (s.nodup.sublist (List.filter_sublist.map _))

theorem pairwise_visits (s : Store) (base : Key) :
    (s.visits base).Pairwise fun a b => keyBefore a b = true := by
  refine List.pairwise_cons.2 ⟨fun _ _ => by simp [keyBefore], List.pairwise_map.2 ?_⟩
  refine (pairwise_directoriesBelow s base).imp_of_mem fun {a b} ha hb hab => ?_
  obtain ⟨a, -, rfl⟩ := Key.isBelow_iff.1 (mem_directoriesBelow.1 ha).2
  obtain ⟨b, -, rfl⟩ := Key.isBelow_iff.1 (mem_directoriesBelow.1 hb).2
  rw [keyBefore_append] at hab
  rwa [List.drop_left, List.drop_left]

theorem nodup_visits (s : Store) (base : Key) : (s.visits base).Nodup := by
  have hbelow : ∀ k ∈ s.directoriesBelow base, ∃ rest, rest ≠ [] ∧ k = base ++ rest :=
    fun k hk => Key.isBelow_iff.1 (mem_directoriesBelow.1 hk).2
  refine List.nodup_cons.2 ⟨fun hmem => ?_, ?_⟩
  · obtain ⟨k, hk, hnil⟩ := List.mem_map.1 hmem
    obtain ⟨rest, hne, rfl⟩ := hbelow k hk
    rw [List.drop_left] at hnil
    exact hne hnil
  · refine List.pairwise_map.2
      ((nodup_directoriesBelow s base).imp_of_mem fun ha hb hne hsame => ?_)
    obtain ⟨a, -, rfl⟩ := hbelow _ ha
    obtain ⟨b, -, rfl⟩ := hbelow _ hb
    rw [List.drop_left, List.drop_left] at hsame
    exact hne (by rw [hsame])

theorem visits_of_within (hs : s'.Within s) (hbase : s'.get? base = some .directory) :
    s'.visits base = (s.visits base).filter (s'.isThere base) := by
  refine eq_of_ordered (fun a b _ _ => keyBefore_antisymm) (pairwise_visits s' base)
    ((pairwise_visits s base).filter _) (nodup_visits s' base)
    ((nodup_visits s base).sublist List.filter_sublist) fun names => ?_
  rw [List.mem_filter, mem_visits hbase, mem_visits (hs _ _ hbase), isThere,
    Option.isSome_iff_exists]
  constructor
  · intro hdir
    exact ⟨hs _ _ hdir, _, hdir⟩
  · rintro ⟨hdir, node, hn⟩
    obtain rfl := Option.some.inj (hdir.symm.trans (hs _ _ hn))
    exact hn

def holdsText (s : Store) (base : Key) (t : String) : Bool := s.isThere base (pathNames t)

/-- The texts of the entries below a directory, with the given names in each directory, in the order
of a visit. -/
def texts (s : Store) (base : Key) (names : List String → List String) : List String :=
  (s.visits base).flatMap fun outer => (names outer).map fun x => entryText (outer ++ [x])

theorem isThere_of_concat {outer : List String} {x : String}
    (h : s.isThere base (outer ++ [x]) = true) : s.isThere base outer = true := by
  have habove : (s.get? (base ++ outer ++ [x])).isSome := by
    rw [List.append_assoc]
    exact h
  rw [isThere, get?_above (by simp) habove]
  rfl

/-- Directories in which nothing is left can be passed over. -/
theorem flatMap_filter_of_nil {α β : Type} {xs : List α} {p : α → Bool} {f : α → List β}
    (h : ∀ a ∈ xs, p a = false → f a = []) : (xs.filter p).flatMap f = xs.flatMap f := by
  induction xs with
  | nil => rfl
  | cons a rest ih =>
    have hrest := ih fun b hb => h b (List.mem_cons_of_mem a hb)
    cases ha : p a with
    | true => rw [List.filter_cons_of_pos ha, List.flatMap_cons, List.flatMap_cons, hrest]
    | false =>
      rw [List.filter_cons_of_neg (by simp [ha]), List.flatMap_cons, h a List.mem_cons_self ha,
        List.nil_append, hrest]

theorem texts_congr {names names' : List String → List String}
    (h : ∀ outer ∈ s.visits base, names outer = names' outer) :
    s.texts base names = s.texts base names' := by
  rw [texts, texts, List.flatMap_def, List.flatMap_def]
  exact congrArg _ (List.map_congr_left fun outer houter => by rw [h outer houter])

/-- What is left of the names in each directory is left of the texts of the whole tree, in the same
order. -/
theorem texts_of_within (hs : s'.Within s) (hbase : s'.get? base = some .directory)
    (test : String × Node → Bool) :
    s'.texts base (fun outer => s'.namesIn (base ++ outer) test) =
      (s.texts base fun outer => s.namesIn (base ++ outer) test).filter (s'.holdsText base) := by
  have hleft : ∀ outer, s'.namesIn (base ++ outer) test =
      (s.namesIn (base ++ outer) test).filter fun x => s'.isThere base (outer ++ [x]) := by
    intro outer
    rw [namesIn_of_within hs]
    refine List.filter_congr fun x _ => ?_
    rw [isThere, isThere, List.append_assoc]
  -- a directory that is not visited any more holds none of the names
  have hgone : ∀ outer ∈ s.visits base, s'.isThere base outer = false →
      ((s'.namesIn (base ++ outer) test).map fun x => entryText (outer ++ [x])) = [] := by
    intro outer _ hout
    rw [hleft, List.map_eq_nil_iff, List.filter_eq_nil_iff]
    intro x _ hx
    rw [isThere_of_concat hx] at hout
    exact Bool.noConfusion hout
  rw [texts, texts, visits_of_within hs hbase, flatMap_filter_of_nil hgone, List.filter_flatMap,
    List.flatMap_def, List.flatMap_def]
  refine congrArg _ (List.map_congr_left fun outer _ => ?_)
  rw [hleft, List.filter_map]
  refine congrArg _ (List.filter_congr fun x hx => ?_)
  obtain ⟨node, hn, -⟩ := mem_namesIn.1 hx
  rw [List.append_assoc] at hn
  rw [Function.comp_apply, holdsText,
    pathNames_entryText (isPathName_of_get? (Option.isSome_of_eq_some hn))]

end Store

/-! ### Listings in order -/

section Listings

variable {fs fs' : FileSystem} {root : Path} {base : Key} {l l' : Listing} {r r' : Run FileSystem}
  {kind : EntryKind} {outer : List String}

/-- The listing holds what is seen in the directories below the root, in the order of a visit. -/
structure Listing.Follows (l : Listing) (fs : FileSystem) (root : Path)
    (base : Key := root.names) : Prop where
  rooted : l.root = root
  describes : l.Describes fs.store base
  entries : ∀ kind, l.ofKind kind = fs.store.texts base fun outer =>
    fs.viewed (root.below outer) kind

theorem follows_of_listable {path : Path} (habs : r.world.absolute path = .ok root)
    (h : r.world.Listable root base) (hl : diskSnapshot path r = (.ok l, r')) :
    l.Follows r.world root base := by
  obtain ⟨key, -, hroot, hopen, hview, hlisted⟩ := visits_of_diskSnapshot hl
  obtain rfl : root = l.root := Except.ok.inj (habs.symm.trans hroot)
  rw [h.openDirectory] at hopen
  obtain rfl := Except.ok.inj hopen
  refine ⟨rfl, (describes_of_visits h.openDirectory hview hlisted).of_seesLink h.seen,
    fun kind => ?_⟩
  rw [hlisted, Store.texts, Store.visits, FileSystem.namesBelow]
  simp

theorem follows_of_diskSnapshot (h : r.world.Readable root)
    (hl : diskSnapshot root r = (.ok l, r')) : l.Follows r.world root :=
  follows_of_listable (if_pos h.absolute) h.listable hl

theorem FileSystem.Listable.seesLink_join {x target : String} (h : fs.Listable root base)
    (hn : fs.store.get? (base ++ outer ++ [x]) = some (.link target)) :
    fs.seesLink ((root.below outer).join x) = true := by
  rw [List.append_assoc] at hn
  rw [Path.join_below (Store.isPathName_of_get? (Option.isSome_of_eq_some hn))]
  exact h.seen _ target hn

theorem viewed_of_listable (h : fs.Listable root base)
    (hdir : fs.store.get? (base ++ outer) = some .directory) (hkind : kind ≠ .link) :
    fs.viewed (root.below outer) kind =
      fs.store.namesIn (base ++ outer) fun e => e.2.kind = kind := by
  rw [FileSystem.viewed, FileSystem.viewDirectory, h.opened outer hdir]
  cases kind with
  | link => exact absurd rfl hkind
  | directory =>
    refine Store.namesIn_congr fun x node hn => ?_
    cases node <;> rfl
  | file =>
    refine Store.namesIn_congr fun x node hn => ?_
    cases node with
    | directory => rfl
    | file contents => rfl
    | link target =>
      show (!fs.seesLink ((root.below outer).join x)) = false
      rw [h.seesLink_join hn, Bool.not_true]

/-- The entry in the directory at a path is seen to be a link, which leads to a directory or not. -/
def FileSystem.isSeenLink (fs : FileSystem) (p : Path) (toDirectory : Bool) : String × Node → Bool
  | (name, .link _) => fs.seesLink (p.join name) && fs.leadsToDirectory (p.join name) == toDirectory
  | _ => false

/-- Among the links of a directory those that lead to directories come first. -/
theorem viewed_links_of_listable (h : fs.Listable root base)
    (hdir : fs.store.get? (base ++ outer) = some .directory) :
    let links (toDirectory : Bool) := fs.store.namesIn (base ++ outer) fun e => e.2.kind = .link &&
      fs.leadsToDirectory ((root.below outer).join e.1) == toDirectory
    fs.viewed (root.below outer) .link = links true ++ links false := by
  intro links
  have hlinks : ∀ toDirectory, fs.store.namesIn (base ++ outer)
      (fs.isSeenLink (root.below outer) toDirectory) = links toDirectory := by
    refine fun toDirectory => Store.namesIn_congr fun x node hn => ?_
    cases node with
    | directory => rfl
    | file contents => rfl
    | link target =>
      simp only [FileSystem.isSeenLink, h.seesLink_join hn, Bool.true_and, Node.kind, decide_true]
  rw [FileSystem.viewed, FileSystem.viewDirectory, h.opened outer hdir, ← hlinks, ← hlinks]
  rfl

theorem mem_viewed_of_listable (h : fs.Listable root base)
    (hdir : fs.store.get? (base ++ outer) = some .directory) (kind : EntryKind) (x : String) :
    x ∈ fs.viewed (root.below outer) kind ↔
      ∃ node, fs.store.get? (base ++ outer ++ [x]) = some node ∧ node.kind = kind := by
  rw [FileSystem.mem_viewed (h.opened outer hdir)]
  simp only [FileSystem.entriesIn, Option.map_some, Option.getD_some, Store.mem_children]
  refine exists_congr fun node => and_congr_right fun hn => ?_
  rw [FileSystem.takenAt_of_seesLink]
  rintro target rfl
  exact h.seesLink_join hn

theorem nodup_viewed (h : fs.Listable root base)
    (hdir : fs.store.get? (base ++ outer) = some .directory) (kind : EntryKind) :
    (fs.viewed (root.below outer) kind).Nodup := by
  by_cases hkind : kind = .link
  · subst hkind
    rw [viewed_links_of_listable h hdir]
    refine List.nodup_append.2 ⟨Store.nodup_namesIn _ _ _, Store.nodup_namesIn _ _ _, ?_⟩
    rintro x hx _ hy rfl
    obtain ⟨node, -, hleads⟩ := Store.mem_namesIn.1 hx
    obtain ⟨node', -, hstays⟩ := Store.mem_namesIn.1 hy
    simp_all
  · rw [viewed_of_listable h hdir hkind]
    exact Store.nodup_namesIn _ _ _

def isVendor (t : String) : Bool := (Path.ofString t).name = vendorName

theorem vendors_of_listable (h : fs.Listable root base) (hl : l.Follows fs root base)
    (kind : EntryKind) :
    (l.ofKind kind).filter isVendor = fs.store.texts base fun outer =>
      fs.store.namesIn (base ++ outer) fun e => e.2.kind = kind && e.1 = vendorName := by
  -- links to directories stand before other links, but no two entries of a directory have one name
  rw [hl.entries, Store.texts, Store.texts, List.filter_flatMap, List.flatMap_def, List.flatMap_def]
  refine congrArg _ (List.map_congr_left fun outer houter => ?_)
  have hdir := (Store.mem_visits h.directory).1 houter
  rw [List.filter_map]
  have hnamed : ∀ x ∈ fs.viewed (root.below outer) kind,
      (isVendor ∘ fun x => entryText (outer ++ [x])) x = decide (x = vendorName) := by
    intro x hx
    obtain ⟨node, hn, -⟩ := (mem_viewed_of_listable h hdir kind x).1 hx
    rw [List.append_assoc] at hn
    rw [Function.comp_apply, isVendor, name_ofString_entryText
      (Store.isPathName_of_get? (Option.isSome_of_eq_some hn))]
    simp
  rw [List.filter_congr hnamed]
  refine congrArg _ (eq_of_ordered (r := fun _ _ => True) (fun a b ha hb _ _ => ?_)
    (List.pairwise_of_forall fun _ _ => trivial) (List.pairwise_of_forall fun _ _ => trivial)
    ((nodup_viewed h hdir kind).sublist List.filter_sublist) (Store.nodup_namesIn _ _ _)
    fun x => ?_)
  · obtain ⟨_, -, hvendor⟩ := Store.mem_namesIn.1 hb
    rw [Bool.and_eq_true, decide_eq_true_eq, decide_eq_true_eq] at hvendor
    exact (of_decide_eq_true (List.mem_filter.1 ha).2).trans hvendor.2.symm
  · rw [List.mem_filter, mem_viewed_of_listable h hdir, Store.mem_namesIn]
    simp only [Bool.and_eq_true, decide_eq_true_eq]
    constructor
    · rintro ⟨⟨node, hn, hk⟩, hx⟩
      exact ⟨node, hn, hk, hx⟩
    · rintro ⟨node, hn, hk, hx⟩
      exact ⟨⟨node, hn, hk⟩, hx⟩

/-! ### Deletions below a directory -/

/-- Entries below the root were deleted, with all that lay in them. -/
structure FileSystem.DeletedBelow (fs fs' : FileSystem) (root : Path) : Prop where
  within : fs'.store.Within fs.store
  outside : ∀ k, Key.isBelow k root.names = false → fs'.store.get? k = fs.store.get? k
  refused : fs'.refused = fs.refused

theorem FileSystem.DeletedBelow.readable (hd : fs.DeletedBelow fs' root) (h : fs.Readable root) :
    fs'.Readable root :=
  h.of_within hd.within ((hd.outside _ (by simp [Key.isBelow])).trans h.directory) hd.refused

theorem Clears.deletedBelow {gone : Key → Bool} {removed : List Path}
    (hc : Clears fs gone removed fs')
    (hbelow : ∀ k, gone k = true → Key.isBelow k root.names = true) :
    fs.DeletedBelow fs' root where
  within := hc.store.within
  outside k hk := by
    refine hc.get?_of_left (Bool.eq_false_iff.2 fun hgone => ?_)
    rw [hbelow k hgone] at hk
    exact Bool.noConfusion hk
  refused := hc.refused

/-- After deletions the listing holds what is left of the files and directories, in the same
order. -/
theorem ofKind_of_deletedBelow (hd : fs.DeletedBelow fs' root) (h : fs.Readable root)
    (hl : l.Follows fs root) (hl' : l'.Follows fs' root) (kind : EntryKind) (hkind : kind ≠ .link) :
    l'.ofKind kind = (l.ofKind kind).filter (fs'.store.holdsText root.names) := by
  have h' := hd.readable h
  have hnames : l.ofKind kind = fs.store.texts root.names fun outer =>
      fs.store.namesIn (root.names ++ outer) fun e => e.2.kind = kind := by
    rw [hl.entries]
    exact Store.texts_congr fun outer houter =>
      viewed_of_listable h.listable ((Store.mem_visits h.directory).1 houter) hkind
  have hnames' : l'.ofKind kind = fs'.store.texts root.names fun outer =>
      fs'.store.namesIn (root.names ++ outer) fun e => e.2.kind = kind := by
    rw [hl'.entries]
    exact Store.texts_congr fun outer houter =>
      viewed_of_listable h'.listable ((Store.mem_visits h'.directory).1 houter) hkind
  rw [hnames, hnames', Store.texts_of_within hd.within h'.directory]

theorem vendors_of_deletedBelow (hd : fs.DeletedBelow fs' root) (h : fs.Readable root)
    (hl : l.Follows fs root) (hl' : l'.Follows fs' root) (kind : EntryKind) :
    (l'.ofKind kind).filter isVendor =
      ((l.ofKind kind).filter isVendor).filter (fs'.store.holdsText root.names) := by
  rw [vendors_of_listable h.listable hl, vendors_of_listable (hd.readable h).listable hl',
    Store.texts_of_within hd.within (hd.readable h).directory]

end Listings

end VendorTree
