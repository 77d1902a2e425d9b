import VendorTree.Proofs.Listed

/-!
# Work that clears entries

Removals that go through take exactly the entries that are marked as gone and leave all others as
they are. A list of removals takes what any of them takes, and a sweep, which goes from the deepest
directories up, takes those below which no file and no link is left.
-/

namespace VendorTree

variable {fs fs' fs'' : FileSystem} {gone gone' : Key → Bool} {removed removed' : List Path}
  {p : Path}

/-- Exactly the entries at the marked keys are gone, and the reported paths were among them. -/
structure Clears (fs : FileSystem) (gone : Key → Bool) (removed : List Path) (fs' : FileSystem) :
    Prop where
  store : fs.store.Keeps fs'.store fun k => !gone k
  refused : fs'.refused = fs.refused
  reported : ∀ p ∈ removed,
    p.names ≠ [] ∧ (fs.store.get? p.names).isSome ∧ gone p.names = true

namespace Clears

theorem refl (fs : FileSystem) : Clears fs (fun _ => false) [] fs where
  store := Store.Keeps.refl fs.store
  refused := rfl
  reported := by simp

theorem congr (h : Clears fs gone removed fs')
    (hg : ∀ k, (fs.store.get? k).isSome → gone k = gone' k) : Clears fs gone' removed fs' where
  store := h.store.congr fun k hk => by rw [hg k hk]
  refused := h.refused
  reported p hp := by
    obtain ⟨hne, hsome, hgone⟩ := h.reported p hp
    exact ⟨hne, hsome, hg _ hsome ▸ hgone⟩

theorem isSome_of_isSome (h : Clears fs gone removed fs') {k : Key}
    (hk : (fs'.store.get? k).isSome) : (fs.store.get? k).isSome := by
  obtain ⟨node, hn⟩ := Option.isSome_iff_exists.1 hk
  exact Option.isSome_of_eq_some (h.store.within k node hn)

theorem get?_eq_some_iff (h : Clears fs gone removed fs') {k : Key} {node : Node} (hk : k ≠ []) :
    fs'.store.get? k = some node ↔ fs.store.get? k = some node ∧ gone k = false := by
  rw [h.store.get?_eq hk]
  cases gone k <;> simp

theorem get?_of_left (h : Clears fs gone removed fs') {k : Key} (hk : gone k = false) :
    fs'.store.get? k = fs.store.get? k :=
  h.store.get?_of_kept (by rw [hk, Bool.not_false])

theorem get?_of_reported (h : Clears fs gone removed fs') (hp : p ∈ removed) :
    fs'.store.get? p.names = none := by
  obtain ⟨hne, -, hgone⟩ := h.reported p hp
  rw [h.store.get?_eq hne, hgone]
  simp

theorem trans (h : Clears fs gone removed fs') (h' : Clears fs' gone' removed' fs'') :
    Clears fs (fun k => gone k || gone' k) (removed ++ removed') fs'' where
  store := (h.store.trans h'.store).congr fun k _ => by simp
  refused := h'.refused.trans h.refused
  reported p hp := by
    rcases List.mem_append.1 hp with hp | hp
    · obtain ⟨hne, hsome, hgone⟩ := h.reported p hp
      exact ⟨hne, hsome, by simp [hgone]⟩
    · obtain ⟨hne, hsome, hgone⟩ := h'.reported p hp
      exact ⟨hne, h.isSome_of_isSome hsome, by simp [hgone]⟩

theorem erase (hne : p.names ≠ []) (hempty : fs.store.children p.names = [])
    (hp : (fs.store.get? p.names).isSome) :
    Clears fs (fun k => k = p.names) [p] (fs.update (fs.store.erase p.names)) where
  store := (Store.keeps_erase hempty).congr fun k _ => by simp
  refused := rfl
  reported := by simpa using ⟨hne, hp⟩

theorem eraseTree (hne : p.names ≠ []) (hp : (fs.store.get? p.names).isSome) :
    Clears fs (fun k => p.names.isPrefixOf k) [p] ((fs.update (fs.store.clear p.names)).update
      ((fs.store.clear p.names).erase p.names)) where
  store := by
    have hkeeps := (Store.keeps_clear fs.store p.names).trans
      (Store.keeps_erase (Store.children_clear fs.store p.names))
    refine hkeeps.congr fun k _ => ?_
    by_cases hk : k = p.names
    · simp [hk]
    · simp [Key.isBelow, hk]
  refused := rfl
  reported := by simpa using ⟨hne, hp⟩

theorem eraseLeaf {node : Node} (hp : fs.store.get? p.names = some node)
    (hnode : node ≠ .directory) : Clears fs (fun k => p.names.isPrefixOf k) [p]
      (fs.update (fs.store.erase p.names)) := by
  have hleaf : fs.store.get? p.names ≠ some .directory := by simpa [hp] using hnode
  have hne : p.names ≠ [] := by
    intro hnil
    simp [hnil] at hleaf
  refine (Clears.erase hne (Store.children_eq_nil_of_ne_directory hleaf)
    (Option.isSome_of_eq_some hp)).congr fun k hk => ?_
  by_cases hkp : k = p.names
  · simp [hkp]
  · rw [decide_eq_false hkp, eq_comm, Bool.eq_false_iff]
    intro hbegins
    obtain ⟨rest, rfl⟩ := List.isPrefixOf_iff_prefix.1 hbegins
    exact hleaf (Store.get?_above (fun hr => hkp (by simp [hr])) hk)

end Clears

/-! ### Work that goes through -/

/-- Work goes through, whatever was reported before. Counted from the file system `fs`, the marked
entries are gone after it, and what was removed is extended by what the work says it removed. -/
def Takes {ε α : Type} (fs : FileSystem) (gone : Key → Bool) (removed : List Path)
    (fs' : FileSystem) (removedOf : α → List Path) (work : Action ε FileSystem α) : Prop :=
  ∀ journal, ∃ x fs'' journal', work ⟨fs', journal⟩ = (.ok x, ⟨fs'', journal'⟩) ∧
    Clears fs gone (removed ++ removedOf x) fs''

namespace Takes

variable {ε α β : Type} {removedOf : α → List Path} {removedOf' : β → List Path}

theorem congr {work : Action ε FileSystem α} (h : Takes fs gone removed fs' removedOf work)
    (hg : ∀ k, (fs.store.get? k).isSome → gone k = gone' k) :
    Takes fs gone' removed fs' removedOf work := by
  intro journal
  obtain ⟨x, fs'', journal', hrun, hclears⟩ := h journal
  exact ⟨x, fs'', journal', hrun, hclears.congr hg⟩

theorem note {work : Unit → Action ε FileSystem α} (source : Source) (event : Event)
    (h : Takes fs gone removed fs' removedOf (work ())) :
    Takes fs gone removed fs' removedOf (Action.note source event >>= work) := by
  intro journal
  obtain ⟨x, fs'', journal', hrun, hclears⟩ := h (journal ++ [⟨source, event⟩])
  exact ⟨x, fs'', journal', (Action.note_bind_run source event _).trans hrun, hclears⟩

theorem map {work : Action ε FileSystem α} {g : α → β}
    (h : Takes fs gone removed fs' removedOf work) (hg : ∀ x, removedOf' (g x) = removedOf x) :
    Takes fs gone removed fs' removedOf' (work >>= fun x => pure (g x)) := by
  intro journal
  obtain ⟨x, fs'', journal', hrun, hclears⟩ := h journal
  refine ⟨g x, fs'', journal', Action.bind_run_ok hrun, ?_⟩
  rwa [hg]

theorem inStage (stage : Stage) {work : Action Fault FileSystem α}
    (h : Takes fs gone removed fs' removedOf work) :
    Takes fs gone removed fs' removedOf (inStage stage work) := by
  intro journal
  obtain ⟨x, fs'', journal', hrun, hclears⟩ := h (journal ++ [⟨.engine, .stageStarted stage⟩])
  exact ⟨x, fs'', journal', Action.mapError_run hrun, hclears⟩

theorem inStageIf {default : α} (chosen : Bool) (stage : Stage) {work : Action Fault FileSystem α}
    (hc : Clears fs gone removed fs') (hdefault : removedOf default = [])
    (h : Takes fs (fun k => gone k || gone' k) removed fs' removedOf work) :
    Takes fs (fun k => gone k || chosen && gone' k) removed fs' removedOf
      (inStageIf chosen stage default work) := by
  cases chosen with
  | false =>
    refine fun journal => ⟨default, fs', journal, rfl, ?_⟩
    rw [hdefault, List.append_nil]
    exact hc.congr fun k _ => by simp
  | true => exact (h.inStage stage).congr fun k _ => by simp

end Takes

/-! ### Single removals -/

/-- The removal of a path goes through: it takes the marked entries, or there is nothing at the path
to take. -/
def Removes (remove : Remover FileSystem) (fs : FileSystem) (p : Path) (gone : Key → Bool) : Prop :=
  ∀ journal, ∃ present fs', Action.unlessMissing (remove p) ⟨fs, journal⟩ =
    (.ok present, ⟨fs', journal⟩) ∧ Clears fs gone (if present then [p] else []) fs'

/-- A plain path that leads to a file or to nothing. -/
structure FilePath (fs : FileSystem) (p : Path) : Prop where
  plain : fs.Plain p
  file : ∀ node, fs.store.get? p.names = some node → ∃ contents, node = .file contents

theorem FilePath.of_clears (h : FilePath fs p) (hc : Clears fs gone removed fs') :
    FilePath fs' p where
  plain := h.plain.of_within hc.store.within
  file node hn := h.file node (hc.store.within _ _ hn)

theorem unlessMissing_change_ok {f : FileSystem → Except Fault FileSystem} {journal : List Record}
    (h : f fs = .ok fs') : Action.unlessMissing (Action.change f) ⟨fs, journal⟩ =
      (.ok true, ⟨fs', journal⟩) := by
  have hrun : Action.change f ⟨fs, journal⟩ = (.ok (), ⟨fs', journal⟩) := by
    simp only [Action.change, Action.onWorld, h]
  exact Action.unlessMissing_run_ok hrun

theorem unlessMissing_change_missing {f : FileSystem → Except Fault FileSystem}
    {journal : List Record} (h : f fs = refuse p .notFound) :
    Action.unlessMissing (Action.change f) ⟨fs, journal⟩ = (.ok false, ⟨fs, journal⟩) := by
  have hrun : Action.change f ⟨fs, journal⟩ = (refuse p .notFound, ⟨fs, journal⟩) := by
    simp only [Action.change, Action.onWorld, h, refuse]
  exact (Action.unlessMissing_run_error hrun).trans rfl

theorem diskRemove_removes_some (h : fs.Plain p) (hne : p.names ≠ []) {node : Node}
    (hp : fs.store.get? p.names = some node) (hempty : fs.store.children p.names = [])
    (hlink : ∀ target, node ≠ .link target) : Removes diskRemove fs p fun k => k = p.names := by
  intro journal
  refine ⟨true, fs.update (fs.store.erase p.names), ?_, ?_⟩
  · exact unlessMissing_change_ok (h.finds.removePath_some hne hp hempty hlink)
  · exact Clears.erase hne hempty (Option.isSome_of_eq_some hp)

theorem Clears.of_missing (hp : fs.store.get? p.names = none) {gone : Key → Bool}
    (hgone : ∀ k, gone k = true → ∃ rest, k = p.names ++ rest) : Clears fs gone [] fs := by
  refine (Clears.refl fs).congr fun k hk => ?_
  cases hg : gone k with
  | false => rfl
  | true =>
    obtain ⟨rest, rfl⟩ := hgone k hg
    by_cases hr : rest = []
    · simp [hr, hp] at hk
    · simp [Store.get?_above hr hk] at hp

/-- A path at which there is nothing is passed over. -/
def PassesMissing (remove : Remover FileSystem) : Prop :=
  ∀ fs p journal, fs.Plain p → fs.store.get? p.names = none →
    Action.unlessMissing (remove p) ⟨fs, journal⟩ = (.ok false, ⟨fs, journal⟩)

theorem diskRemove_passesMissing : PassesMissing diskRemove :=
  fun _ _ _ h hp => unlessMissing_change_missing (h.finds.removePath_none hp)

theorem diskRemoveTree_passesMissing : PassesMissing diskRemoveTree := by
  intro fs p journal h hp
  have hrun : diskRemoveTree p ⟨fs, journal⟩ = (refuse p .notFound, ⟨fs, journal⟩) := by
    simp only [diskRemoveTree, Action.onWorld, h.finds.removeTree_none hp]
  exact (Action.unlessMissing_run_error hrun).trans rfl

theorem diskRemove_removes_none (h : fs.Plain p) (hp : fs.store.get? p.names = none) :
    Removes diskRemove fs p fun k => k = p.names := by
  intro journal
  refine ⟨false, fs, diskRemove_passesMissing fs p journal h hp, ?_⟩
  exact Clears.of_missing hp fun k hk => ⟨[], by simpa using hk⟩

theorem FilePath.removes (h : FilePath fs p) : Removes diskRemove fs p fun k => k = p.names := by
  cases hp : fs.store.get? p.names with
  | none => exact diskRemove_removes_none h.plain hp
  | some node =>
    obtain ⟨contents, rfl⟩ := h.file node hp
    have hne : p.names ≠ [] := by
      intro hnil
      simp [hnil] at hp
    refine diskRemove_removes_some h.plain hne hp ?_ (by simp)
    exact Store.children_eq_nil_of_ne_directory (by simp [hp])

theorem diskRemoveTree_removes (h : fs.Plain p) (hne : p.names ≠ [])
    (hfile : ∀ contents, fs.store.get? p.names ≠ some (.file contents)) :
    Removes diskRemoveTree fs p fun k => p.names.isPrefixOf k := by
  intro journal
  cases hp : fs.store.get? p.names with
  | none =>
    refine ⟨false, fs, diskRemoveTree_passesMissing fs p journal h hp, ?_⟩
    refine Clears.of_missing hp fun k hk => ?_
    obtain ⟨rest, rfl⟩ := List.isPrefixOf_iff_prefix.1 hk
    exact ⟨rest, rfl⟩
  | some node =>
    have hsome := Option.isSome_of_eq_some hp
    cases node with
    | file contents => exact absurd hp (hfile contents)
    | directory =>
      have hrun : diskRemoveTree p ⟨fs, journal⟩ = (.ok (), ⟨(fs.update (fs.store.clear
          p.names)).update ((fs.store.clear p.names).erase p.names), journal⟩) := by
        simp only [diskRemoveTree, Action.onWorld, h.removeTree_directory hne hp]
      exact ⟨true, _, Action.unlessMissing_run_ok hrun, Clears.eraseTree hne hsome⟩
    | link target =>
      have hrun : diskRemoveTree p ⟨fs, journal⟩ =
          (.ok (), ⟨fs.update (fs.store.erase p.names), journal⟩) := by
        simp only [diskRemoveTree, Action.onWorld, h.finds.removeTree_link hp]
      exact ⟨true, _, Action.unlessMissing_run_ok hrun, Clears.eraseLeaf hp (by simp)⟩

/-! ### Lists of removals -/

theorem removeAll_takes (remove : Remover FileSystem) (Fit : FileSystem → Path → Prop)
    (taken : Path → Key → Bool)
    (hfit : ∀ fs fs' done removed p, Fit fs p → Clears fs done removed fs' → Fit fs' p)
    (hremove : ∀ fs p, Fit fs p → Removes remove fs p (taken p)) (source : Source)
    (hc : Clears fs gone removed fs') {paths : List Path} (h : ∀ p ∈ paths, Fit fs' p) :
    Takes fs (fun k => gone k || paths.any (taken · k)) removed fs' id
      (removeAll source remove paths) := by
  -- what is cleared so far is the invariant: each removal starts from the file system it left
  induction paths generalizing fs' gone removed with
  | nil =>
    refine fun journal => ⟨[], fs', journal, rfl, ?_⟩
    simpa using hc
  | cons p rest ih =>
    intro journal
    obtain ⟨present, fs₁, hrun, hfirst⟩ := hremove fs' p (h p (by simp)) journal
    have hrest : ∀ q ∈ rest, Fit fs₁ q := fun q hq => hfit _ _ _ _ _ (h q (by simp [hq])) hfirst
    have hlater := ih (hc.trans hfirst) hrest
    cases present with
    | true =>
      obtain ⟨removed', fs'', journal', hrun', hclears⟩ := hlater
        (journal ++ [⟨source, .removed p⟩])
      refine ⟨p :: removed', fs'', journal', ?_, ?_⟩
      · exact (Action.bind_run_ok hrun).trans (Action.bind_run_ok hrun')
      · simpa [Bool.or_assoc] using hclears
    | false =>
      obtain ⟨removed', fs'', journal', hrun', hclears⟩ := hlater
        (journal ++ [⟨source, .alreadyGone p⟩])
      refine ⟨removed', fs'', journal', (Action.bind_run_ok hrun).trans hrun', ?_⟩
      simpa [Bool.or_assoc] using hclears

/-! ### Sweeps -/

/-- No file and no link lies below the directory at a key. -/
def Store.hollow (s : Store) (k : Key) : Bool :=
  s.get? k = some .directory && !s.entries.any fun e => e.2 ≠ .directory && Key.isBelow e.1 k

theorem Store.hollow_iff {s : Store} {k : Key} : s.hollow k = true ↔
    s.get? k = some .directory ∧
      ∀ rest node, rest ≠ [] → s.get? (k ++ rest) = some node → node = .directory := by
  rw [Store.hollow, Bool.and_eq_true, decide_eq_true_eq, Bool.not_eq_true', List.any_eq_false]
  refine and_congr_right fun _ => ⟨fun h rest node hr hn => ?_, fun h e he => ?_⟩
  · have hmem := h _ ((Store.get?_eq_some_iff (by simp [hr])).1 hn)
    simpa [Key.isBelow_iff.2 ⟨rest, hr, rfl⟩] using hmem
  · simp only [Bool.and_eq_true, decide_eq_true_eq, not_and, Bool.not_eq_true]
    intro hnode
    rw [Bool.eq_false_iff]
    intro hb
    obtain ⟨rest, hr, hk⟩ := Key.isBelow_iff.1 hb
    exact hnode (h rest e.2 hr (hk ▸ Store.get?_of_mem he))

theorem Store.exists_of_not_hollow {s : Store} {k : Key} (hdir : s.get? k = some .directory)
    (h : s.hollow k = false) :
    ∃ rest node, rest ≠ [] ∧ s.get? (k ++ rest) = some node ∧ node ≠ .directory := by
  rw [Store.hollow, hdir, decide_eq_true rfl, Bool.true_and, Bool.not_eq_false',
    List.any_eq_true] at h
  obtain ⟨⟨key, node⟩, he, hbelow⟩ := h
  rw [Bool.and_eq_true, decide_eq_true_eq, Key.isBelow_iff] at hbelow
  obtain ⟨hnode, rest, hr, rfl⟩ := hbelow
  exact ⟨rest, node, hr, Store.get?_of_mem he, hnode⟩

/-- A path of a directory that is asked about in a sweep, or of one that is gone already. -/
structure SweptPath (fs : FileSystem) (p : Path) : Prop where
  plain : fs.Plain p
  named : p.names ≠ []
  listed : p.text ∉ fs.refused
  directory : ∀ node, fs.store.get? p.names = some node → node = .directory

theorem SweptPath.of_clears (h : SweptPath fs p) (hc : Clears fs gone removed fs') :
    SweptPath fs' p where
  plain := h.plain.of_within hc.store.within
  named := h.named
  listed := hc.refused ▸ h.listed
  directory node hn := h.directory node (hc.store.within _ _ hn)

/-- The directories that are swept before their turn comes: those of a sweep that are hollow and
not to come any more. -/
def sweptBut (s : Store) (base : Key) (todo : List Path) (k : Key) : Bool :=
  Key.isBelow k base && s.hollow k && !todo.any fun p => p.names = k

theorem get?_child_swept {base : Key} {rest : List Path}
    (hc : Clears fs (sweptBut fs.store base (p :: rest)) removed fs')
    (hbelow : Key.isBelow p.names base = true)
    (hdeepest : ∀ q ∈ p :: rest, q.names.length ≤ p.names.length) (x : String) :
    fs'.store.get? (p.names ++ [x]) = if fs.store.hollow (p.names ++ [x]) then none
      else fs.store.get? (p.names ++ [x]) := by
  have hx : Key.isBelow (p.names ++ [x]) base = true := by
    obtain ⟨names, hn, hk⟩ := Key.isBelow_iff.1 hbelow
    exact Key.isBelow_iff.2 ⟨names ++ [x], by simp, by rw [hk, List.append_assoc]⟩
  have htodo : (p :: rest).any (fun q => q.names = p.names ++ [x]) = false := by
    rw [List.any_eq_false]
    intro q hq hqx
    have hlen := hdeepest q hq
    rw [of_decide_eq_true hqx, List.length_append, List.length_singleton] at hlen
    omega
  rw [hc.store.get?_eq (by simp), sweptBut, hx, htodo]
  cases fs.store.hollow (p.names ++ [x]) <;> simp

/-- When the turn of a directory comes, all below it had theirs, so it is found empty exactly if no
file and no link is below it. -/
theorem children_eq_nil_iff_hollow {base : Key} {rest : List Path}
    (hc : Clears fs (sweptBut fs.store base (p :: rest)) removed fs')
    (hp : fs.store.get? p.names = some .directory) (hbelow : Key.isBelow p.names base = true)
    (hdeepest : ∀ q ∈ p :: rest, q.names.length ≤ p.names.length) :
    fs'.store.children p.names = [] ↔ fs.store.hollow p.names = true := by
  have hchild := get?_child_swept hc hbelow hdeepest
  rw [Store.children_eq_nil_iff, Store.hollow_iff]
  constructor
  · intro hempty
    refine ⟨hp, fun names node hne hn => ?_⟩
    obtain ⟨x, below, rfl⟩ := List.exists_cons_of_ne_nil hne
    rw [List.append_cons] at hn
    have hx := hempty x
    rw [hchild] at hx
    -- a hollow child is gone by now; any other is there and keeps the directory from being empty
    cases hhollow : fs.store.hollow (p.names ++ [x]) with
    | true =>
      obtain ⟨hdir, hall⟩ := Store.hollow_iff.1 hhollow
      by_cases hb : below = []
      · rw [hb, List.append_nil, hdir] at hn
        exact (Option.some.inj hn).symm
      · exact hall below node hb hn
    | false =>
      simp only [hhollow, Bool.false_eq_true, if_false] at hx
      by_cases hb : below = []
      · simp [hb, hx] at hn
      · simp [Store.get?_above hb (Option.isSome_of_eq_some hn)] at hx
  · rintro ⟨-, hall⟩ x
    rw [hchild]
    cases hx : fs.store.get? (p.names ++ [x]) with
    | none => simp
    | some node =>
      obtain rfl := hall [x] node (by simp) hx
      rw [if_pos (Store.hollow_iff.2 ⟨hx, fun names node hne hn => ?_⟩)]
      exact hall (x :: names) node (by simp) (by simpa using hn)

theorem sweptBut_cons {s : Store} {base : Key} {rest : List Path} (k : Key) (hk : k ≠ p.names) :
    sweptBut s base (p :: rest) k = sweptBut s base rest k := by
  have hne : ¬ p.names = k := fun h => hk h.symm
  simp [sweptBut, hne]

namespace Clears

variable {base : Key} {rest : List Path}

/-- A directory that is not to be taken is passed over. -/
theorem sweptBut_pass (hc : Clears fs (sweptBut fs.store base (p :: rest)) removed fs')
    (hkept : fs.store.hollow p.names = false) :
    Clears fs (sweptBut fs.store base rest) removed fs' := by
  refine hc.congr fun k _ => ?_
  by_cases hk : k = p.names
  · simp [hk, sweptBut, hkept]
  · exact sweptBut_cons k hk

theorem sweptBut_take (hc : Clears fs (sweptBut fs.store base (p :: rest)) removed fs')
    (hnamed : p.names ≠ []) (hempty : fs'.store.children p.names = [])
    (hthere : (fs'.store.get? p.names).isSome) (hbelow : Key.isBelow p.names base = true)
    (hhollow : fs.store.hollow p.names = true) (hlast : p.names ∉ rest.map Path.names) :
    Clears fs (sweptBut fs.store base rest) (removed ++ [p])
      (fs'.update (fs'.store.erase p.names)) := by
  refine (hc.trans (Clears.erase hnamed hempty hthere)).congr fun k _ => ?_
  by_cases hk : k = p.names
  · have hlater : rest.any (fun q => q.names = p.names) = false := by
      rw [List.any_eq_false]
      exact fun q hq hqp => hlast (List.mem_map.2 ⟨q, hq, of_decide_eq_true hqp⟩)
    simp [hk, sweptBut, hlater, hbelow, hhollow]
  · simp [sweptBut_cons k hk, hk]

end Clears

/-- The turn of one directory: it is taken if it is hollow, and the sweep goes on. -/
theorem sweepInOrder_cons_clears {base : Key} (source : Source) {rest : List Path}
    (hc : Clears fs (sweptBut fs.store base (p :: rest)) removed fs') (hswept : SweptPath fs p)
    (hbelow : Key.isBelow p.names base = true)
    (hdeepest : ∀ q ∈ p :: rest, q.names.length ≤ p.names.length)
    (hlast : p.names ∉ rest.map Path.names) (journal : List Record) :
    ∃ taken fs₁ journal₁, (∀ result run,
        sweepInOrder source diskHoldsEntry diskRemove rest ⟨fs₁, journal₁⟩ = (.ok result, run) →
        sweepInOrder source diskHoldsEntry diskRemove (p :: rest) ⟨fs', journal⟩ =
          (.ok (taken ++ result), run)) ∧
      Clears fs (sweptBut fs.store base rest) (removed ++ taken) fs₁ := by
  have hnow := hswept.of_clears hc
  have hsame : fs'.store.get? p.names = fs.store.get? p.names :=
    hc.get?_of_left (by simp [sweptBut])
  have hask : ∀ {answer : Bool}, fs'.holdsEntry p = .ok answer →
      diskHoldsEntry p ⟨fs', journal⟩ = (.ok answer, ⟨fs', journal⟩) := by
    intro answer h
    rw [diskHoldsEntry, Action.query_run, h]
  cases hp : fs.store.get? p.names with
  | none =>
    -- a missing directory looks empty, and its removal finds nothing
    have hgone := hsame.trans hp
    have hkept : fs.store.hollow p.names = false := by
      rw [Bool.eq_false_iff]
      intro hhollow
      exact nomatch hp.symm.trans (Store.hollow_iff.1 hhollow).1
    refine ⟨[], fs', journal, fun result run hrun => ?_, ?_⟩
    · have hempty := hnow.plain.finds.holdsEntry_none hgone hnow.listed
      refine (Action.bind_run_ok (hask hempty)).trans ?_
      exact (Action.bind_run_ok (unlessMissing_change_missing
        (hnow.plain.finds.removePath_none hgone))).trans hrun
    · rw [List.append_nil]
      exact hc.sweptBut_pass hkept
  | some node =>
    obtain rfl := hswept.directory node hp
    have hthere := hsame.trans hp
    have hanswer := hnow.plain.finds.holdsEntry_directory hthere hnow.listed
    have hhollow := children_eq_nil_iff_hollow hc hp hbelow hdeepest
    by_cases hempty : fs'.store.children p.names = []
    · rw [hempty] at hanswer
      refine ⟨[p], fs'.update (fs'.store.erase p.names),
        journal ++ [⟨source, .emptyDirRemoved p⟩], fun result run hrun => ?_, ?_⟩
      · have hremove := hnow.plain.finds.removePath_some hnow.named hthere hempty (by simp)
        refine (Action.bind_run_ok (hask hanswer)).trans ?_
        exact (Action.bind_run_ok (unlessMissing_change_ok hremove)).trans
          (Action.bind_run_ok hrun)
      · exact hc.sweptBut_take hswept.named hempty (Option.isSome_of_eq_some hthere) hbelow
          (hhollow.1 hempty) hlast
    · rw [decide_eq_true hempty] at hanswer
      refine ⟨[], fs', journal, fun result run hrun => ?_, ?_⟩
      · exact (Action.bind_run_ok (hask hanswer)).trans hrun
      · -- something is left in it, so it is not hollow and stays
        rw [List.append_nil]
        exact hc.sweptBut_pass (Bool.eq_false_iff.2 (mt hhollow.2 hempty))

theorem sweepInOrder_takes {base : Key} (source : Source) {todo : List Path}
    (hc : Clears fs (sweptBut fs.store base todo) removed fs')
    (hpaths : ∀ p ∈ todo, SweptPath fs p ∧ Key.isBelow p.names base = true)
    (horder : todo.Pairwise fun p q => q.names.length ≤ p.names.length)
    (hnodup : (todo.map Path.names).Nodup) :
    Takes fs (sweptBut fs.store base []) removed fs' id
      (sweepInOrder source diskHoldsEntry diskRemove todo) := by
  -- on the directories whose turn is still to come, with those before them swept
  induction todo generalizing fs' removed with
  | nil => exact fun journal => ⟨[], fs', journal, rfl, by rwa [id, List.append_nil]⟩
  | cons p rest ih =>
    intro journal
    obtain ⟨hswept, hbelow⟩ := hpaths p (by simp)
    obtain ⟨hdeeper, horder⟩ := List.pairwise_cons.1 horder
    rw [List.map_cons, List.nodup_cons] at hnodup
    have hdeepest : ∀ q ∈ p :: rest, q.names.length ≤ p.names.length := by
      rintro q (_ | ⟨_, hq⟩)
      · exact Nat.le_refl _
      · exact hdeeper q hq
    obtain ⟨taken, fs₁, journal₁, hstep, hnext⟩ :=
      sweepInOrder_cons_clears source hc hswept hbelow hdeepest hnodup.1 journal
    obtain ⟨removed', fs'', journal', hrun, hclears⟩ := ih hnext
      (fun q hq => hpaths q (List.mem_cons_of_mem p hq)) horder hnodup.2 journal₁
    exact ⟨taken ++ removed', fs'', journal', hstep _ _ hrun, by rwa [id, ← List.append_assoc]⟩

end VendorTree
