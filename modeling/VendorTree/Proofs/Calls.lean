import VendorTree.FileSystem.Removal
import VendorTree.Proofs.EntryPath
import VendorTree.Proofs.Route

/-!
# Calls on plain paths

A path finds a key if each call on it is about what lies at the key; a call that removes something
then erases just that. A plain path, which is absolute and passes real directories only, as far as
there is anything on it, finds its own names.
-/

namespace VendorTree

namespace FileSystem

variable {fs fs' : FileSystem} {p : Path} {node : Node}

/-- The path starts at the root, can be passed to a call, and passes directories and free names. -/
structure Plain (fs : FileSystem) (p : Path) : Prop where
  absolute : p.isAbsolute = true
  short : p.text.utf8ByteSize < pathLimit
  named : ∀ n ∈ p.names, IsEntryName n
  way : ∀ a b, p.names = a ++ b → b ≠ [] →
    fs.store.get? a = some .directory ∨ fs.store.get? a = none

theorem plain_of_isSome (habs : p.isAbsolute = true) (hlen : p.text.utf8ByteSize < pathLimit)
    (h : (fs.store.get? p.names).isSome) : fs.Plain p where
  absolute := habs
  short := hlen
  named := Store.isEntryName_of_get? h
  way _ _ hab hb := .inl (Store.get?_above hb (hab ▸ h))

theorem Plain.of_within (h : fs.Plain p) (hs : fs'.store.Within fs.store) : fs'.Plain p where
  absolute := h.absolute
  short := h.short
  named := h.named
  way a b hab hb := by
    cases ha : fs'.store.get? a with
    | none => exact .inr rfl
    | some node =>
      rcases h.way a b hab hb with hdir | hnone
      · exact .inl ((hs _ _ ha).symm.trans hdir)
      · exact absurd (hs _ _ ha) (by simp [hnone])

/-- What a path leads to is found there. A removed directory has no key. -/
theorem entryAt_ok {follow : Bool} {key : Option Key} (h : fs.entryAt follow p = .ok (key, node)) :
    p.checkText = .ok () ∧ fs.store.walkFrom follow (fs.start p) p.steps =
      .ok (key.elim .lost Spot.entry) ∧ ∀ k ∈ key, fs.store.get? k = some node := by
  unfold entryAt locate at h
  cases htext : p.checkText with
  | error fault => simp [htext, bind, Except.bind] at h
  | ok _ =>
    rw [htext] at h
    cases hwalk : fs.store.walkFrom follow (fs.start p) p.steps with
    | error code => simp [hwalk, refuse, bind, Except.bind] at h
    | ok spot =>
      cases spot with
      | vacant parent name => simp [hwalk, refuse, bind, Except.bind] at h
      | lost =>
        simp only [hwalk, bind, Except.bind, Except.ok.injEq, Prod.mk.injEq] at h
        obtain ⟨rfl, -⟩ := h
        exact ⟨rfl, rfl, by simp⟩
      | entry k =>
        cases hk : fs.store.get? k with
        | none => simp [hwalk, hk, refuse, bind, Except.bind] at h
        | some found =>
          simp only [hwalk, hk, bind, Except.bind, Except.ok.injEq, Prod.mk.injEq] at h
          obtain ⟨rfl, rfl⟩ := h
          exact ⟨rfl, rfl, by simpa using hk⟩

theorem entryAt_of_walk {follow : Bool} {key : Key} (htext : p.checkText = .ok ())
    (hwalk : fs.store.walkFrom follow (fs.start p) p.steps = .ok (.entry key))
    (hn : fs.store.get? key = some node) : fs.entryAt follow p = .ok (some key, node) := by
  rw [entryAt, locate, htext, hwalk]
  simp only [bind, Except.bind, hn]

theorem entryAt_of_leadsNowhere {follow : Bool} (htext : p.checkText = .ok ())
    (h : Store.LeadsNowhere (fs.store.walkFrom follow (fs.start p) p.steps)) :
    fs.entryAt follow p = refuse p .notFound := by
  rw [entryAt, locate, htext]
  rcases h with hw | ⟨parent, name, hw⟩
  · rw [hw]
    rfl
  · rw [hw]
    rfl

theorem target_of_leadsNowhere (htext : p.checkText = .ok ()) (hne : p.names ≠ [])
    (h : Store.LeadsNowhere (fs.store.walkFrom true (fs.start p) p.steps.dropLast)) :
    fs.target p = refuse p .notFound := by
  rw [target, htext]
  rcases h with hw | ⟨parent, name, hw⟩
  · rw [hw]
    simp [hne, bind, Except.bind]
  · rw [hw]
    simp [hne, bind, Except.bind]

theorem entryAt_of_isDirectory (h : fs.isDirectory p = .ok true) :
    ∃ key, fs.entryAt true p = .ok (key, .directory) := by
  unfold isDirectory holds at h
  split at h
  · rename_i key node hentry
    have hnode : node = .directory := by simpa using h
    exact ⟨key, hnode ▸ hentry⟩
  · simp at h
  · split at h <;> simp at h

theorem entryAt_of_openDirectory {key : Option Key} (h : fs.openDirectory p = .ok key) :
    p.text ∉ fs.refused ∧ fs.entryAt true p = .ok (key, .directory) := by
  unfold openDirectory at h
  split at h
  · cases h
  · rename_i hlisted
    refine ⟨hlisted, ?_⟩
    cases hentry : fs.entryAt true p with
    | error fault => simp [hentry, bind, Except.bind] at h
    | ok found =>
      obtain ⟨key', node⟩ := found
      cases node with
      | directory =>
        simp only [hentry, bind, Except.bind, Except.ok.injEq] at h
        rw [h]
      | file contents => simp [hentry, refuse, bind, Except.bind] at h
      | link target => simp [hentry, refuse, bind, Except.bind] at h

theorem openDirectory_of_entryAt {key : Option Key} (hlisted : p.text ∉ fs.refused)
    (h : fs.entryAt true p = .ok (key, .directory)) : fs.openDirectory p = .ok key := by
  rw [openDirectory, if_neg hlisted, h]
  rfl

theorem holdsEntry_of_entryAt {key : Key} (hlisted : p.text ∉ fs.refused)
    (h : fs.entryAt true p = .ok (some key, .directory)) :
    fs.holdsEntry p = .ok (decide (fs.store.children key ≠ [])) := by
  rw [holdsEntry, openDirectory_of_entryAt hlisted h]
  rfl

theorem holdsEntry_of_missing (hlisted : p.text ∉ fs.refused)
    (h : fs.entryAt true p = refuse p .notFound) : fs.holdsEntry p = .ok false := by
  rw [holdsEntry, openDirectory, if_neg hlisted, h]
  rfl

theorem openDirectory_ok {key : Option Key} (h : fs.openDirectory p = .ok key) :
    p.checkText = .ok () ∧ fs.store.walkFrom true (fs.start p) p.steps =
      .ok (key.elim .lost Spot.entry) ∧ ∀ k ∈ key, fs.store.get? k = some .directory :=
  entryAt_ok (entryAt_of_openDirectory h).2

/-- The path of the current directory names it from the root. -/
theorem currentPath_ok (h : fs.currentPath = .ok p) : fs.here.lost = 0 ∧
    fs.store.get? fs.here.key = some .directory ∧ p.isAbsolute = true ∧ p.names = fs.here.key := by
  unfold currentPath at h
  split at h
  · rename_i hhere
    obtain rfl := Except.ok.inj h
    have hnamed : ∀ n ∈ fs.here.key, IsPathName n := fun n hn =>
      (Store.isEntryName_of_get? (Option.isSome_of_eq_some hhere.2) n hn).1
    refine ⟨hhere.1, hhere.2, ?_, ?_⟩
    · have hanchor : ∀ s, (Path.ofString ("/" ++ s)).anchor ≠ .relative := by
        intro s
        show Anchor.ofChars ("/" ++ s).toList ≠ .relative
        rw [String.toList_append]
        show Anchor.ofChars ('/' :: s.toList) ≠ .relative
        unfold Anchor.ofChars
        split <;> simp_all
      exact decide_eq_true (hanchor _)
    · exact (pathNames_slash _).trans (pathNames_entryText hnamed)
  · simp at h

/-- A path is absolute already, or it continues the one of the current directory. -/
theorem absolute_ok {q : Path} (h : fs.absolute p = .ok q) :
    (p.isAbsolute = true ∧ q = p) ∨
      (p.isAbsolute = false ∧ ∃ cur, fs.currentPath = .ok cur ∧ q = cur.append p) := by
  unfold absolute at h
  split at h
  · rename_i habs
    exact .inl ⟨habs, (Except.ok.inj h).symm⟩
  · rename_i habs
    refine .inr ⟨by simpa using habs, ?_⟩
    cases hcurrent : fs.currentPath with
    | error fault => simp [hcurrent, Except.map] at h
    | ok cur =>
      rw [hcurrent] at h
      exact ⟨cur, rfl, (Except.ok.inj h).symm⟩

theorem isAbsolute_of_absolute {q : Path} (h : fs.absolute p = .ok q) : q.isAbsolute = true := by
  obtain ⟨habs, rfl⟩ | ⟨-, cur, hcurrent, rfl⟩ := absolute_ok h
  · exact habs
  · exact (currentPath_ok hcurrent).2.2.1

theorem checkText_of_short (hnul : '\x00' ∉ p.text.toList)
    (hlen : p.text.utf8ByteSize < pathLimit) : p.checkText = .ok () := by
  rw [Path.checkText, if_neg hnul, if_neg (by omega)]

theorem nul_notMem_of_checkText (h : p.checkText = .ok ()) : '\x00' ∉ p.text.toList := by
  intro hnul
  rw [Path.checkText, if_pos hnul] at h
  simp at h

theorem nul_notMem_below {root : Path} {names : List String} (h : root.checkText = .ok ())
    (hnames : ∀ n ∈ names, IsEntryName n) : '\x00' ∉ (root.below names).text.toList := by
  rw [Path.mem_text_iff (by decide) (by decide), Path.names_below root fun n hn => (hnames n hn).1]
  rintro ⟨n, hn, hnul⟩
  rcases List.mem_append.1 hn with hn | hn
  · exact nul_notMem_of_checkText h ((Path.mem_text_iff (by decide) (by decide)).2 ⟨n, hn, hnul⟩)
  · exact (hnames n hn).2.2.1 hnul

/-- Only its length may keep the path of an entry from being passed to a call, if the root can
be. -/
theorem checkText_below {root : Path} {names : List String} (h : root.checkText = .ok ())
    (hnames : ∀ n ∈ names, IsEntryName n)
    (hlen : (root.below names).text.utf8ByteSize < pathLimit) :
    (root.below names).checkText = .ok () :=
  checkText_of_short (nul_notMem_below h hnames) hlen

/-- Where nothing is at a path, nothing is found in a directory below it, however that is
written. -/
theorem holdsEntry_join_of_missing {entry : String}
    (hmissing : Store.LeadsNowhere (fs.store.walkFrom true (fs.start p) p.steps))
    (hnul : '\x00' ∉ (p.join entry).text.toList)
    (hlen : (p.join entry).text.utf8ByteSize < pathLimit)
    (hrefused : (p.join entry).text ∉ fs.refused) : fs.holdsEntry (p.join entry) = .ok false := by
  have hsteps : (p.join entry).steps = p.steps ++ (pathNames entry).map Step.ofPiece :=
    List.map_append
  have hwalk := Store.walkFrom_append_missing ((pathNames entry).map Step.ofPiece) hmissing
  rw [← hsteps] at hwalk
  exact holdsEntry_of_missing hrefused
    (entryAt_of_leadsNowhere (checkText_of_short hnul hlen) hwalk)

/-- Calls on the path are about the key. What is at the key is found by the path, and all of the
path but its last name leads to the directory above in the same way. -/
structure Finds (fs : FileSystem) (p : Path) (key : Key) : Prop where
  text : p.checkText = .ok ()
  found : ∀ {follow node}, fs.store.get? key = some node →
    ((∀ target, node ≠ .link target) ∨ follow = false) →
      fs.store.walkFrom follow (fs.start p) p.steps = .ok (.entry key)
  missing : ∀ {follow}, fs.store.get? key = none →
    Store.LeadsNowhere (fs.store.walkFrom follow (fs.start p) p.steps)
  last : ∀ {dir name}, key = dir ++ [name] →
    p.names ≠ [] ∧ p.lastStep = .enter name ∧ IsEntryName name
  above : ∀ {dir name}, key = dir ++ [name] →
    (fs.store.get? dir = some .directory ∧
      fs.store.walkFrom true (fs.start p) p.steps.dropLast = .ok (.entry dir)) ∨
    (fs.store.get? dir = none ∧
      Store.LeadsNowhere (fs.store.walkFrom true (fs.start p) p.steps.dropLast))

namespace Plain

theorem checkText (h : fs.Plain p) : p.checkText = .ok () := by
  have hnul : '\x00' ∉ p.text.toList := by
    rw [Path.mem_text_iff (by decide) (by decide)]
    rintro ⟨n, hn, hc⟩
    exact (h.named n hn).2.2.1 hc
  exact checkText_of_short hnul h.short

theorem steps (h : fs.Plain p) : p.steps = p.names.map Step.enter :=
  Path.map_ofPiece fun n hn => ⟨(h.named n hn).1, (h.named n hn).2.1⟩

theorem start (h : fs.Plain p) : fs.start p = ⟨[], 0⟩ := by
  rw [FileSystem.start, if_pos h.absolute]

theorem finds (h : fs.Plain p) : fs.Finds p p.names where
  text := h.checkText
  found hp hnode := by
    rw [h.start, h.steps, Store.walkFrom_of_notLost]
    exact Store.walk_enter_found hp fun _ => hnode
  missing hp := by
    rw [h.start, h.steps, Store.walkFrom_of_notLost]
    exact Store.walk_enter_missing rfl hp h.way h.named
  last {dir name} hn := by
    have hentry := h.named name (by simp [hn])
    refine ⟨by simp [hn], ?_, hentry⟩
    obtain ⟨⟨hempty, hdot, -⟩, hup, -⟩ := hentry
    simp [Path.lastStep, hn, Step.ofPiece, hempty, hdot, hup]
  above {dir name} hn := by
    have hsteps : p.steps.dropLast = dir.map Step.enter := by
      rw [h.steps, hn, List.map_append, List.map_cons, List.map_nil, List.dropLast_concat]
    rw [h.start, hsteps, Store.walkFrom_of_notLost]
    refine (h.way dir [name] hn (by simp)).imp (fun hdir => ⟨hdir, ?_⟩) fun hgone => ⟨hgone, ?_⟩
    · exact Store.walk_enter_found hdir (by simp)
    · refine Store.walk_enter_missing rfl hgone (fun a b hab _ => ?_) fun n hm =>
        h.named n (by simp [hn, hm])
      exact h.way a (b ++ [name]) (by rw [hn, hab, List.append_assoc]) (by simp)

end Plain

namespace Finds

variable {key : Key}

/-! ### Looking up -/

theorem entryAt_some {follow : Bool} (h : fs.Finds p key) (hp : fs.store.get? key = some node)
    (hnode : (∀ target, node ≠ .link target) ∨ follow = false) :
    fs.entryAt follow p = .ok (some key, node) :=
  entryAt_of_walk h.text (h.found hp hnode) hp

theorem entryAt_none {follow : Bool} (h : fs.Finds p key) (hp : fs.store.get? key = none) :
    fs.entryAt follow p = refuse p .notFound :=
  entryAt_of_leadsNowhere h.text (h.missing hp)

theorem holds_some {follow : Bool} (h : fs.Finds p key) (hp : fs.store.get? key = some node)
    (hnode : (∀ target, node ≠ .link target) ∨ follow = false) (test : Node → Bool) :
    fs.holds follow p test = .ok (test node) := by
  rw [holds, h.entryAt_some hp hnode]

theorem holds_none {follow : Bool} (h : fs.Finds p key) (hp : fs.store.get? key = none)
    (test : Node → Bool) : fs.holds follow p test = .ok false := by
  rw [holds, h.entryAt_none hp]
  rfl

theorem isDirectory_some (h : fs.Finds p key) (hp : fs.store.get? key = some node)
    (hlink : ∀ target, node ≠ .link target) :
    fs.isDirectory p = .ok (decide (node = .directory)) :=
  h.holds_some hp (.inl hlink) _

theorem isLink_some (h : fs.Finds p key) (hp : fs.store.get? key = some node)
    (hlink : ∀ target, node ≠ .link target) : fs.isLink p = .ok false := by
  rw [isLink, h.holds_some hp (.inr rfl)]
  cases node with
  | directory => rfl
  | file contents => rfl
  | link target => exact absurd rfl (hlink target)

theorem isLink_link (h : fs.Finds p key) {target : String}
    (hp : fs.store.get? key = some (.link target)) : fs.isLink p = .ok true := by
  rw [isLink, h.holds_some hp (.inr rfl)]

theorem openDirectory_directory (h : fs.Finds p key)
    (hp : fs.store.get? key = some .directory) (hr : p.text ∉ fs.refused) :
    fs.openDirectory p = .ok (some key) :=
  openDirectory_of_entryAt hr (h.entryAt_some hp (by simp))

theorem holdsEntry_directory (h : fs.Finds p key) (hp : fs.store.get? key = some .directory)
    (hr : p.text ∉ fs.refused) :
    fs.holdsEntry p = .ok (decide (fs.store.children key ≠ [])) :=
  holdsEntry_of_entryAt hr (h.entryAt_some hp (by simp))

theorem holdsEntry_none (h : fs.Finds p key) (hp : fs.store.get? key = none)
    (hr : p.text ∉ fs.refused) : fs.holdsEntry p = .ok false :=
  holdsEntry_of_missing hr (h.entryAt_none hp)

/-! ### Removing -/

theorem target_named (h : fs.Finds p key) {dir : Key} {name : String} (hn : key = dir ++ [name])
    (hdir : fs.store.get? dir = some .directory) : fs.target p = .ok (.named dir name) := by
  obtain ⟨hne, hlast, -, -, -, hlimit⟩ := h.last hn
  obtain ⟨-, hwalk⟩ := (h.above hn).resolve_right fun hgone => by simp [hdir] at hgone
  rw [target, h.text, hwalk, hlast]
  simp [hne, hdir, Nat.not_lt.2 hlimit, bind, Except.bind]

theorem target_missing (h : fs.Finds p key) {dir : Key} {name : String} (hn : key = dir ++ [name])
    (hdir : fs.store.get? dir = none) : fs.target p = refuse p .notFound := by
  obtain ⟨hne, -⟩ := h.last hn
  obtain ⟨-, hwalk⟩ := (h.above hn).resolve_left fun hthere => by simp [hdir] at hthere
  exact target_of_leadsNowhere h.text hne hwalk

theorem unlink_some (h : fs.Finds p key) (hp : fs.store.get? key = some node)
    (hnode : node ≠ .directory) : fs.unlink p = .ok (fs.update (fs.store.erase key)) := by
  have hne : key ≠ [] := by
    intro hnil
    rw [hnil, Store.get?_nil] at hp
    exact hnode (Option.some.inj hp).symm
  obtain ⟨dir, name, hn⟩ := Key.exists_concat hne
  have hdir : fs.store.get? dir = some .directory :=
    Store.get?_above (by simp) (hn ▸ Option.isSome_of_eq_some hp)
  rw [unlink, h.target_named hn hdir]
  rw [hn] at hp
  cases node with
  | directory => exact absurd rfl hnode
  | file contents => simp [hp, hn, bind, Except.bind]
  | link target => simp [hp, hn, bind, Except.bind]

theorem unlink_none (h : fs.Finds p key) (hp : fs.store.get? key = none) :
    fs.unlink p = refuse p .notFound := by
  have hne : key ≠ [] := by
    intro hnil
    simp [hnil] at hp
  obtain ⟨dir, name, hn⟩ := Key.exists_concat hne
  rcases h.above hn with ⟨hdir, -⟩ | ⟨hdir, -⟩
  · rw [unlink, h.target_named hn hdir]
    rw [hn] at hp
    simp [hp, bind, Except.bind]
  · rw [unlink, h.target_missing hn hdir]
    rfl

theorem removeDirectory_eq (h : fs.Finds p key) (hne : key ≠ [])
    (hp : fs.store.get? key = some .directory) :
    fs.removeDirectory p = if fs.store.children key = [] then .ok (fs.update (fs.store.erase key))
      else refuse p .notEmpty := by
  obtain ⟨dir, name, hn⟩ := Key.exists_concat hne
  have hdir : fs.store.get? dir = some .directory :=
    Store.get?_above (by simp) (hn ▸ Option.isSome_of_eq_some hp)
  rw [removeDirectory, h.target_named hn hdir]
  rw [hn] at hp
  simp [hp, hn, bind, Except.bind]

theorem removeDirectory_empty (h : fs.Finds p key) (hne : key ≠ [])
    (hp : fs.store.get? key = some .directory) (hempty : fs.store.children key = []) :
    fs.removeDirectory p = .ok (fs.update (fs.store.erase key)) :=
  (h.removeDirectory_eq hne hp).trans (if_pos hempty)

theorem removeDirectory_full (h : fs.Finds p key) (hne : key ≠ [])
    (hp : fs.store.get? key = some .directory) (hfull : fs.store.children key ≠ []) :
    fs.removeDirectory p = refuse p .notEmpty :=
  (h.removeDirectory_eq hne hp).trans (if_neg hfull)

theorem removePath_full (h : fs.Finds p key) (hne : key ≠ [])
    (hp : fs.store.get? key = some .directory) (hfull : fs.store.children key ≠ []) :
    fs.removePath p = refuse p .notEmpty := by
  rw [removePath, h.isDirectory_some hp (by simp), h.isLink_some hp (by simp)]
  exact h.removeDirectory_full hne hp hfull

theorem removePath_some (h : fs.Finds p key) (hne : key ≠ [])
    (hp : fs.store.get? key = some node) (hempty : fs.store.children key = [])
    (hlink : ∀ target, node ≠ .link target) :
    fs.removePath p = .ok (fs.update (fs.store.erase key)) := by
  rw [removePath, h.isDirectory_some hp hlink, h.isLink_some hp hlink]
  cases node with
  | directory => exact h.removeDirectory_empty hne hp hempty
  | file contents => exact h.unlink_some hp (by simp)
  | link target => exact absurd rfl (hlink target)

theorem removePath_none (h : fs.Finds p key) (hp : fs.store.get? key = none) :
    fs.removePath p = refuse p .notFound := by
  rw [removePath, isDirectory, h.holds_none hp]
  exact h.unlink_none hp

theorem removeTree_link (h : fs.Finds p key) {target : String}
    (hp : fs.store.get? key = some (.link target)) :
    fs.removeTree p = (.ok (), fs.update (fs.store.erase key)) := by
  have hsingle : fs.isSingle p = .ok true := by
    rw [isSingle, h.isLink_link hp]
    rfl
  rw [removeTree, hsingle]
  simp only [h.unlink_some hp (by simp)]

theorem removeTree_none (h : fs.Finds p key) (hp : fs.store.get? key = none) :
    fs.removeTree p = (refuse p .notFound, fs) := by
  have hsingle : fs.isSingle p = .ok true := by
    rw [isSingle, isLink, h.holds_none hp, isDirectory, h.holds_none hp]
    rfl
  rw [removeTree, hsingle]
  simp only [h.unlink_none hp]
  rfl

/-- A tree is removed if the path still leads to its directory when all in it is gone. -/
theorem removeTree_directory (h : fs.Finds p key)
    (hcleared : (fs.update (fs.store.clear key)).Finds p key) (hne : key ≠ [])
    (hp : fs.store.get? key = some .directory) :
    fs.removeTree p = (.ok (), (fs.update (fs.store.clear key)).update
      ((fs.store.clear key).erase key)) := by
  have hsingle : fs.isSingle p = .ok false := by
    rw [isSingle, h.isLink_some hp (by simp), h.isDirectory_some hp (by simp)]
    rfl
  have hkept : (fs.store.clear key).get? key = some .directory := by
    rw [(Store.keeps_clear fs.store key).get?_eq hne]
    simp [Key.isBelow, hp]
  have hremove := hcleared.removeDirectory_empty hne hkept (Store.children_clear _ _)
  rw [removeTree, hsingle]
  simp only [removeContents, h.entryAt_some hp (.inr rfl), Option.map_some, Option.getD_some,
    hremove]
  rfl

end Finds

theorem Plain.removeTree_directory (h : fs.Plain p) (hne : p.names ≠ [])
    (hp : fs.store.get? p.names = some .directory) :
    fs.removeTree p = (.ok (), (fs.update (fs.store.clear p.names)).update
      ((fs.store.clear p.names).erase p.names)) := by
  have hcleared : (fs.update (fs.store.clear p.names)).Plain p :=
    h.of_within (Store.keeps_clear fs.store p.names).within
  exact h.finds.removeTree_directory hcleared.finds hne hp

end FileSystem

end VendorTree
