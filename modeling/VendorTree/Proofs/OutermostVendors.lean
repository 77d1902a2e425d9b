import VendorTree.Proofs.DepthFirst

/-!
# The outermost vendor trees

Of the entries named `vendor` the first name `vendor` on the way to an entry decides: an entry is
taken exactly if no name before its last one is `vendor`. The search sees only what it has taken so
far, so this rests on the order of the listing, in which every directory stands before what lies in
it.
-/

namespace VendorTree

/-! ### Relative texts -/

/-- A relative path as it is written: with single slashes, none at an end, and no dots between. -/
def IsRelativeText (t : String) : Prop :=
  (Path.ofString t).anchor = .relative ∧ (Path.ofString t).text = t

instance (t : String) : Decidable (IsRelativeText t) :=
  inferInstanceAs (Decidable (_ ∧ _))

theorem IsRelativeText.eq_directoryText {t : String} (h : IsRelativeText t) :
    t = directoryText (Path.ofString t).names := by
  have hpath : Path.ofString t = ⟨.relative, (Path.ofString t).names, (Path.ofString t).named⟩ := by
    rw [← h.1]
  have htext := text_of_relative (Path.ofString t).named
  rw [← hpath, h.2] at htext
  exact htext

theorem isRelativeText_entryText {names : List String} (hnamed : ∀ n ∈ names, IsPathName n)
    (hne : names ≠ []) : IsRelativeText (entryText names) := by
  have htext := text_ofString_entryText hnamed
  rw [directoryText, if_neg hne] at htext
  exact ⟨congrArg Path.anchor (ofString_entryText hnamed), htext⟩

theorem Path.names_parent {p : Path} {names : List String} {x : String}
    (h : p.names = names ++ [x]) : p.parent.names = names := by
  have hparent : p.parent.names = p.names.dropLast := rfl
  rw [hparent, h, List.dropLast_concat]

theorem text_parent {t : String} {names : List String} {x : String} (h : IsRelativeText t)
    (hnames : (Path.ofString t).names = names ++ [x]) :
    (Path.ofString t).parent.text = directoryText names := by
  have hparent := Path.names_parent hnames
  have hpath : (Path.ofString t).parent = ⟨.relative, names, hparent ▸ Path.named _⟩ := by
    rw [Path.mk.injEq]
    exact ⟨h.1, hparent⟩
  rw [hpath, text_of_relative]

/-! ### Listings in which parents come first -/

/-- An entry lies in the root, or the directory that it lies in is one of some others. -/
def ParentAmong (others : List String) (t : String) : Prop :=
  (Path.ofString t).parent.names = [] ∨ (Path.ofString t).parent.text ∈ others

instance (others : List String) (t : String) : Decidable (ParentAmong others t) :=
  inferInstanceAs (Decidable (_ ∨ _))

/-- The directories and links of a listing are written as relative paths, each directory stands
after the one that it lies in, and each link lies in a listed directory or in the root. -/
structure Listing.ParentsFirst (l : Listing) : Prop where
  relative : ∀ t ∈ l.dirs ++ l.links, IsRelativeText t
  dirs : ∀ i, (h : i < l.dirs.length) → ParentAmong (l.dirs.take i) l.dirs[i]
  links : ∀ t ∈ l.links, ParentAmong l.dirs t

section Search

variable {l : Listing} {before after : List String} {t : String}

/-- An entry of the list of directories and links stands after the directory that it lies in. -/
theorem Listing.ParentsFirst.parentAmong (h : l.ParentsFirst)
    (hsplit : l.dirs ++ l.links = before ++ t :: after) : ParentAmong before t := by
  rcases List.append_eq_append_iff.1 hsplit with ⟨front, rfl, hlinks⟩ | ⟨back, hdirs, hafter⟩
  · refine (h.links t (by rw [hlinks]; simp)).imp_right fun hmem => ?_
    exact List.mem_append_left _ hmem
  · cases back with
    | nil =>
      rw [List.append_nil] at hdirs
      rw [List.nil_append] at hafter
      rw [← hdirs]
      exact h.links t (by rw [← hafter]; simp)
    | cons u back =>
      obtain ⟨rfl, -⟩ := List.cons.inj hafter
      have hat := h.dirs before.length (by rw [hdirs]; simp)
      simp only [hdirs, List.take_left, List.getElem_append_right, Nat.sub_self,
        List.getElem_cons_zero, Nat.le_refl] at hat
      exact hat

/-- All directories on the way to an entry stand before it. -/
theorem Listing.ParentsFirst.mem_before (h : l.ParentsFirst)
    (hsplit : l.dirs ++ l.links = before ++ t :: after) {outer rest : List String}
    (hnames : (Path.ofString t).names = outer ++ rest) (ho : outer ≠ []) (hr : rest ≠ []) :
    entryText outer ∈ before := by
  induction hlen : rest.length generalizing before t after rest with
  | zero => exact absurd (List.length_eq_zero_iff.1 hlen) hr
  | succ n ih =>
    obtain ⟨front, x, rfl⟩ := Key.exists_concat hr
    rw [← List.append_assoc] at hnames
    have hne : outer ++ front ≠ [] := by simp [ho]
    have hrelative := h.relative t (by rw [hsplit]; simp)
    have hparent : entryText (outer ++ front) ∈ before := by
      rcases h.parentAmong hsplit with hroot | hmem
      · exact absurd ((Path.names_parent hnames).symm.trans hroot) hne
      · rwa [text_parent hrelative hnames, directoryText, if_neg hne] at hmem
    by_cases hfront : front = []
    · rwa [hfront, List.append_nil] at hparent
    · -- the parent has one name less below the outer directory, and what stands before it counts
      obtain ⟨front', back, hbefore⟩ := List.append_of_mem hparent
      have hnamed : ∀ n ∈ outer ++ front, IsPathName n := fun n hn =>
        (Path.ofString t).named n (by rw [hnames]; exact List.mem_append_left _ hn)
      have hsplit' : l.dirs ++ l.links =
          front' ++ entryText (outer ++ front) :: (back ++ t :: after) := by
        rw [hsplit, hbefore]
        simp
      have hshort : front.length = n := by simpa using hlen
      have houter := ih hsplit' (by rw [ofString_entryText hnamed]) hfront hshort
      rw [hbefore]
      exact List.mem_append_left _ houter

/-! ### The search -/

/-- An entry named `vendor` on the way to which nothing else is named so. -/
def isOutermostVendor (t : String) : Bool :=
  isVendor t && !(Path.ofString t).names.dropLast.contains vendorName

theorem names_of_isVendor (h : isVendor t = true) :
    ∃ outer, (Path.ofString t).names = outer ++ [vendorName] := by
  have hlast : (Path.ofString t).names.getLast?.getD "" = vendorName := of_decide_eq_true h
  cases hnames : (Path.ofString t).names.getLast? with
  | none => simp [hnames, vendorName] at hlast
  | some n =>
    rw [hnames] at hlast
    obtain ⟨outer, houter⟩ := List.getLast?_eq_some_iff.1 hnames
    exact ⟨outer, by rw [houter]; exact congrArg (outer ++ [·]) hlast⟩

theorem isOutermostVendor_iff {outer : List String}
    (h : (Path.ofString t).names = outer ++ [vendorName]) :
    isOutermostVendor t = true ↔ vendorName ∉ outer := by
  have hname : isVendor t = true := by
    simp [isVendor, Path.name, h]
  simp [isOutermostVendor, hname, h]

theorem names_of_isBelow {p q : Path} (h : p.isBelow q = true) :
    ∃ rest, rest ≠ [] ∧ q.names ++ rest = p.names := by
  obtain ⟨-, ⟨rest, hrest⟩, hlength⟩ := Path.isBelow_iff.1 h
  refine ⟨rest, ?_, hrest⟩
  rintro rfl
  rw [List.append_nil] at hrest
  rw [hrest] at hlength
  exact Nat.lt_irrefl _ hlength

/-- Where the taken paths are those of the outermost vendor trees seen so far, one of them has an
entry below it exactly if a name on the way to the entry is `vendor`. -/
theorem any_isBelow_taken (h : l.ParentsFirst) {taken : List Path}
    (hsplit : l.dirs ++ l.links = before ++ t :: after)
    (htaken : ∀ p, p ∈ taken ↔ ∃ u ∈ before, isOutermostVendor u = true ∧ Path.ofString u = p) :
    taken.any (Path.ofString t).isBelow = true ↔
      vendorName ∈ (Path.ofString t).names.dropLast := by
  have hanchor : ∀ u ∈ l.dirs ++ l.links, (Path.ofString u).anchor = .relative := fun u hu =>
    (h.relative u hu).1
  have ht : t ∈ l.dirs ++ l.links := by rw [hsplit]; simp
  rw [List.any_eq_true]
  constructor
  · rintro ⟨p, hp, hbelow⟩
    obtain ⟨u, hu, hvendor, rfl⟩ := (htaken p).1 hp
    obtain ⟨outer, houter⟩ := names_of_isVendor (Bool.and_eq_true_iff.1 hvendor).1
    obtain ⟨rest, hne, hrest⟩ := names_of_isBelow hbelow
    rw [← hrest, houter, List.dropLast_append_of_ne_nil hne]
    simp
  · intro hmem
    -- the first name `vendor` on the way belongs to an entry that was taken
    obtain ⟨outer, rest, hdropped, hfirst⟩ := List.eq_append_cons_of_mem hmem
    have hne : (Path.ofString t).names ≠ [] := by
      intro hnil
      simp [hnil] at hmem
    obtain ⟨front, x, hnames⟩ := Key.exists_concat hne
    rw [hnames, List.dropLast_concat] at hdropped
    have hway : (Path.ofString t).names = outer ++ [vendorName] ++ (rest ++ [x]) := by
      rw [hnames, hdropped]
      simp
    have hnamed : ∀ n ∈ outer ++ [vendorName], IsPathName n := fun n hn =>
      (Path.ofString t).named n (by rw [hway]; exact List.mem_append_left _ hn)
    have hbefore := h.mem_before hsplit hway (by simp) (by simp)
    have hpath := ofString_entryText hnamed
    refine ⟨_, (htaken _).2 ⟨_, hbefore, ?_, hpath⟩, Path.isBelow_iff.2 ⟨hanchor t ht, ?_, ?_⟩⟩
    · exact (isOutermostVendor_iff (congrArg Path.names hpath)).2 hfirst
    · exact ⟨rest ++ [x], hway.symm⟩
    · rw [hway]
      simp

/-- The taken paths are those of the outermost vendor trees seen so far. -/
theorem outermostVendors_eq_filter (h : l.ParentsFirst) {taken : List Path}
    {seen rest : List String}
    (hsplit : l.dirs ++ l.links = seen ++ rest)
    (htaken : ∀ p, p ∈ taken ↔ ∃ u ∈ seen, isOutermostVendor u = true ∧ Path.ofString u = p) :
    outermostVendors taken rest = rest.filter isOutermostVendor := by
  induction rest generalizing taken seen with
  | nil => rfl
  | cons t rest ih =>
    have hbelow := any_isBelow_taken h hsplit htaken
    have hdecides : ((Path.ofString t).name = vendorName ∧
        ¬ taken.any (Path.ofString t).isBelow = true) ↔ isOutermostVendor t = true := by
      rw [hbelow]
      simp [isOutermostVendor, isVendor]
    have hsplit' : l.dirs ++ l.links = seen ++ [t] ++ rest := by
      rw [hsplit]
      simp
    unfold outermostVendors
    -- what is taken once the entry was looked at is told of one entry more
    have hseen (p : Path) : (p ∈ taken ∨ isOutermostVendor t = true ∧ Path.ofString t = p) ↔
        ∃ u ∈ seen ++ [t], isOutermostVendor u = true ∧ Path.ofString u = p := by
      rw [htaken]
      simp [or_and_right, exists_or]
    by_cases hvendor : isOutermostVendor t = true
    · rw [List.filter_cons_of_pos hvendor]
      show (if _ then _ else _) = _
      rw [if_pos (hdecides.2 hvendor), ih hsplit' fun p => ?_]
      rw [← hseen, List.mem_cons, or_comm]
      simp [hvendor, eq_comm]
    · rw [List.filter_cons_of_neg hvendor]
      show (if _ then _ else _) = _
      rw [if_neg (fun hboth => hvendor (hdecides.1 hboth)), ih hsplit' fun p => ?_]
      rw [← hseen]
      simp [hvendor]

theorem nestedVendors_eq (h : l.ParentsFirst) :
    l.nestedVendors = ((l.dirs ++ l.links).filter isOutermostVendor).map l.absolute := by
  rw [Listing.nestedVendors, outermostVendors_eq_filter h (List.nil_append _).symm fun p => by simp]

/-! ### What the search returns -/

theorem isBelow_absolute {u : String} (ht : IsRelativeText t) (hu : IsRelativeText u) :
    (l.absolute t).isBelow (l.absolute u) = true ↔
      (Path.ofString t).isBelow (Path.ofString u) = true := by
  have hnames : ∀ s, (l.absolute s).names = l.root.names ++ (Path.ofString s).names := fun _ => rfl
  have hanchor : (l.absolute t).anchor = (l.absolute u).anchor := rfl
  rw [Path.isBelow_iff, Path.isBelow_iff, hnames, hnames, List.prefix_append_right_inj,
    List.length_append, List.length_append, Nat.add_lt_add_iff_left, ht.1, hu.1]
  simp [hanchor]

theorem absolute_injective {u : String} (ht : IsRelativeText t) (hu : IsRelativeText u)
    (h : l.absolute t = l.absolute u) : t = u := by
  have hnames : l.root.names ++ (Path.ofString t).names =
      l.root.names ++ (Path.ofString u).names := congrArg Path.names h
  rw [ht.eq_directoryText, hu.eq_directoryText, List.append_cancel_left hnames]

theorem not_isBelow_of_outermost {u : String} (ht : isOutermostVendor t = true)
    (hu : isOutermostVendor u = true) : ¬ (Path.ofString t).isBelow (Path.ofString u) = true := by
  intro hbelow
  obtain ⟨outer, hnames⟩ := names_of_isVendor (Bool.and_eq_true_iff.1 ht).1
  obtain ⟨outer', hnames'⟩ := names_of_isVendor (Bool.and_eq_true_iff.1 hu).1
  obtain ⟨rest, hne, hrest⟩ := names_of_isBelow hbelow
  rw [hnames, hnames'] at hrest
  obtain ⟨front, x, rfl⟩ := Key.exists_concat hne
  rw [← List.append_assoc] at hrest
  obtain ⟨houter, -⟩ := List.append_inj' hrest rfl
  exact (isOutermostVendor_iff hnames).1 ht (by rw [← houter]; simp)

/-- The vendor trees that a listing is searched for, all that there is to know of them. -/
structure Listing.OutermostVendors (l : Listing) (found : List Path) : Prop where
  exact : found = ((l.dirs ++ l.links).filter isOutermostVendor).map l.absolute
  apart : ∀ p ∈ found, ∀ q ∈ found, ¬ p.isBelow q = true
  all : ∀ t ∈ l.dirs ++ l.links, isVendor t = true →
    ∃ q ∈ found, l.absolute t = q ∨ (l.absolute t).isBelow q = true
  once : (l.dirs ++ l.links).Nodup → found.Nodup

theorem outermostVendors_nestedVendors (h : l.ParentsFirst) :
    l.OutermostVendors l.nestedVendors where
  exact := nestedVendors_eq h
  apart p hp q hq hbelow := by
    rw [nestedVendors_eq h] at hp hq
    obtain ⟨t, ht, rfl⟩ := List.mem_map.1 hp
    obtain ⟨u, hu, rfl⟩ := List.mem_map.1 hq
    obtain ⟨ht, houtT⟩ := List.mem_filter.1 ht
    obtain ⟨hu, houtU⟩ := List.mem_filter.1 hu
    rw [isBelow_absolute (h.relative t ht) (h.relative u hu)] at hbelow
    exact not_isBelow_of_outermost houtT houtU hbelow
  all t ht hvendor := by
    obtain ⟨p, hp, hway⟩ := @exists_outermostVendor [] _ _ ht (of_decide_eq_true hvendor)
    rw [List.nil_append, List.mem_map] at hp
    obtain ⟨u, hu, rfl⟩ := hp
    have hmem := (outermostVendors_subset _ _ u hu).1
    refine ⟨l.absolute u, List.mem_map_of_mem hu, hway.imp (fun hsame => ?_) fun hbelow => ?_⟩
    · have hnames : pathNames t = pathNames u := congrArg Path.names hsame
      rw [Listing.absolute, Listing.absolute, Path.join, Path.join, Path.mk.injEq, hnames]
      exact ⟨rfl, rfl⟩
    · exact (isBelow_absolute (h.relative t ht) (h.relative u hmem)).2 hbelow
  once hnodup := by
    rw [nestedVendors_eq h]
    refine List.pairwise_map.2 ((hnodup.filter _).imp_of_mem fun {t u} ht hu hne hsame => ?_)
    have hrelative : ∀ s ∈ (l.dirs ++ l.links).filter isOutermostVendor, IsRelativeText s :=
      fun s hs => h.relative s (List.mem_filter.1 hs).1
    exact hne (absolute_injective (hrelative t ht) (hrelative u hu) hsame)

end Search

/-! ### Listings that were made -/

section Made

variable {fs : FileSystem} {root path : Path} {base : Key} {l : Listing} {r r' : Run FileSystem}

/-- Each entry of a listing that describes a tree is written by the names that lead to it, and the
directory that it lies in is listed as well. -/
theorem Listing.Describes.parentAmong (h : l.Describes (fs.asListed root base).store base)
    (kind : EntryKind) {t : String} (ht : t ∈ l.ofKind kind) :
    IsRelativeText t ∧ ParentAmong l.dirs t := by
  obtain ⟨names, node, hne, hn, -, rfl⟩ := (h kind t).1 ht
  have hnamed := Store.isPathName_of_get? (Option.isSome_of_eq_some hn)
  have hrelative := isRelativeText_entryText hnamed hne
  refine ⟨hrelative, ?_⟩
  obtain ⟨outer, x, rfl⟩ := Key.exists_concat hne
  have hnames : (Path.ofString (entryText (outer ++ [x]))).names = outer ++ [x] := by
    rw [ofString_entryText hnamed]
  by_cases houter : outer = []
  · left
    rw [Path.names_parent hnames, houter]
  · right
    rw [text_parent hrelative hnames, directoryText, if_neg houter]
    apply (h .directory _).2
    refine ⟨outer, .directory, houter, ?_, rfl, rfl⟩
    rw [← List.append_assoc] at hn
    exact Store.get?_above (by simp) (Option.isSome_of_eq_some hn)

theorem pairwise_dirs_of_diskSnapshot (h : diskSnapshot path r = (.ok l, r'))
    (hopen : r.world.openDirectory l.root = .ok (some base)) :
    l.dirs.Pairwise fun t u => Key.isBelow (pathNames t) (pathNames u) = false := by
  obtain ⟨key, -, -, hopen', hview, hlisted⟩ := visits_of_diskSnapshot h
  obtain rfl := Except.ok.inj (hopen'.symm.trans hopen)
  have hbase := (FileSystem.openDirectory_ok hopen).2.2 base rfl
  have hdirs : l.dirs = r.world.store.texts base fun outer =>
      r.world.viewed (l.root.below outer) .directory := by
    refine (hlisted .directory).trans ?_
    rw [Store.texts, Store.visits, FileSystem.namesBelow]
    simp
  rw [hdirs]
  apply pairwise_texts
  intro outer houter x hx
  have hdir := (Store.mem_visits hbase).1 houter
  have hvisited : outer ∈ [] :: r.world.namesBelow (some base) := by
    by_cases hnil : outer = []
    · simp [hnil]
    · exact List.mem_cons_of_mem _ (FileSystem.mem_namesBelow.2 ⟨hnil, hdir⟩)
  obtain ⟨v, hv⟩ := hview outer hvisited
  obtain ⟨node, hn, -⟩ := (FileSystem.mem_viewed_below hopen hdir hv .directory x).1 hx
  obtain ⟨node', hn', -⟩ := FileSystem.exists_of_get?_asListed hn
  exact Option.isSome_of_eq_some hn'

/-- Where no directory stands before one that it lies in, the parent of each stands before it. -/
theorem ParentAmong.take {dirs : List String} {i : Nat} (hi : i < dirs.length)
    (hrelative : IsRelativeText dirs[i])
    (hordered : dirs.Pairwise fun t u => Key.isBelow (pathNames t) (pathNames u) = false)
    (h : ParentAmong dirs dirs[i]) : ParentAmong (dirs.take i) dirs[i] := by
  by_cases hroot : (Path.ofString dirs[i]).parent.names = []
  · exact .inl hroot
  right
  obtain ⟨j, hj, hparent⟩ := List.mem_iff_getElem.1 (h.resolve_left hroot)
  have hne : (Path.ofString dirs[i]).names ≠ [] := fun hnil => hroot (by simp [Path.parent, hnil])
  obtain ⟨outer, x, hnames⟩ := Key.exists_concat hne
  have houter : outer ≠ [] := fun hnil => hroot ((Path.names_parent hnames).trans hnil)
  have htext : dirs[j] = entryText outer := by
    rw [hparent, text_parent hrelative hnames, directoryText, if_neg houter]
  have hbelow : Key.isBelow (pathNames dirs[i]) (pathNames dirs[j]) = true := by
    have hnamed : ∀ n ∈ outer, IsPathName n := fun n hn =>
      (Path.ofString dirs[i]).named n (by rw [hnames]; exact List.mem_append_left _ hn)
    rw [htext, pathNames_entryText hnamed]
    exact Key.isBelow_iff.2 ⟨[x], by simp, hnames⟩
  have hji : j < i := by
    rcases Nat.lt_trichotomy i j with hlt | rfl | hlt
    · have hnot := List.pairwise_iff_getElem.1 hordered i j hi hj hlt
      rw [hnot] at hbelow
      exact Bool.noConfusion hbelow
    · simp [Key.isBelow] at hbelow
    · exact hlt
  rw [← hparent]
  exact List.mem_take_iff_getElem.2 ⟨j, by omega, rfl⟩

theorem parentsFirst_of_diskSnapshot (h : diskSnapshot path r = (.ok l, r')) : l.ParentsFirst := by
  obtain ⟨-, -, hcase⟩ := diskSnapshot_ok h
  rcases hcase with ⟨base, hopen, hdescribes⟩ | ⟨-, hempty⟩
  · have hdirs : ∀ t ∈ l.dirs, IsRelativeText t ∧ ParentAmong l.dirs t := fun t ht =>
      hdescribes.parentAmong .directory ht
    have hlinks : ∀ t ∈ l.links, IsRelativeText t ∧ ParentAmong l.dirs t := fun t ht =>
      hdescribes.parentAmong .link ht
    refine ⟨fun t ht => ?_, fun i hi => ?_, fun t ht => (hlinks t ht).2⟩
    · rcases List.mem_append.1 ht with ht | ht
      · exact (hdirs t ht).1
      · exact (hlinks t ht).1
    · have hordered := pairwise_dirs_of_diskSnapshot h hopen
      have hmem := hdirs _ (List.getElem_mem hi)
      exact ParentAmong.take hi hmem.1 hordered hmem.2
  · have hdirs : l.dirs = [] := hempty .directory
    have hlinks : l.links = [] := hempty .link
    exact ⟨by simp [hdirs, hlinks], by simp [hdirs], by simp [hlinks]⟩

/-- Every listing that was made has each directory after the one that it lies in, and of a listing
that has the search returns the outermost entries named `vendor`, in order, directories before
links. None of them lies in another one, each entry of this name is among them or lies in one of
them, and no path occurs twice. -/
theorem nestedVendors_exact :
    (∀ path r l r', diskSnapshot path r = (.ok l, r') → l.ParentsFirst) ∧
      ∀ l : Listing, l.ParentsFirst → l.OutermostVendors l.nestedVendors :=
  ⟨fun _ _ _ _ => parentsFirst_of_diskSnapshot, fun _ => outermostVendors_nestedVendors⟩

end Made

/-- Vendor trees that lie in each other, and links of the same name in and beside them. -/
def chainedVendors : Listing where
  root := Path.ofString "/w/p"
  dirs := ["docs", "lib", "vendor", "lib/vendor", "vendor/x", "vendor/x/vendor",
    "vendor/x/vendor/y", "vendor/x/vendor/y/vendor"]
  links := ["docs/vendor", "lib/vendor/vendor"]

/-- The search goes past the vendor trees in others and past the link that lies in one. -/
theorem nestedVendors_exact_chained :
    (∃ l r', diskSnapshot (Path.ofString "/p") ⟨sampleProject, []⟩ = (.ok l, r') ∧
      l.ParentsFirst) ∧
    chainedVendors.ParentsFirst ∧
      chainedVendors.OutermostVendors [Path.ofString "/w/p/vendor", Path.ofString "/w/p/lib/vendor",
        Path.ofString "/w/p/docs/vendor"] := by
  have hfirst : chainedVendors.ParentsFirst :=
    ⟨by decide +kernel, by decide +kernel, by decide +kernel⟩
  obtain ⟨l, journal, hlisted, -, -⟩ :=
    @diskSnapshot_of_readable (Path.ofString "/p") ⟨sampleProject, []⟩ sampleProject_readable
  refine ⟨⟨l, _, hlisted, nestedVendors_exact.1 _ _ _ _ hlisted⟩, hfirst, ?_⟩
  have hfound := nestedVendors_exact.2 chainedVendors hfirst
  have hvalue : chainedVendors.nestedVendors = [Path.ofString "/w/p/vendor",
      Path.ofString "/w/p/lib/vendor", Path.ofString "/w/p/docs/vendor"] := by
    decide +kernel
  rwa [hvalue] at hfound

end VendorTree
