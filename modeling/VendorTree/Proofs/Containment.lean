import VendorTree.Proofs.Observed
import VendorTree.Proofs.SparedRuns

/-!
# Runs stay below their root

Whatever links there are, every planned path passes real directories below the root only, and a link
at its end is removed as such. So a run changes nothing outside of the directory to which its root
leads, and nothing that a link in it leads to.
-/

namespace VendorTree

open VendorTree.Action (Maintains)

variable {fs₀ fs : FileSystem} {root : Path} {base : Key} {l : Listing} {rule : PreservationRule}
  {used : List String} {policies : PolicySet} {faults : List (String × Fault)}

/-- The key lies strictly below the directory to which the path leads. -/
def FileSystem.LiesBelow (fs : FileSystem) (root : Path) (k : Key) : Prop :=
  ∃ base, fs.store.walkFrom true (fs.start root) root.steps = .ok (.entry base) ∧
    Key.isBelow k base = true

/-- A planned removal loses entries below the root only, also if other entries have been lost since
the plan was made. -/
theorem removal_loses {touched : Key → Prop} {e : Planned}
    (hl : l.Describes (fs.asListed l.root base).store base)
    (hs : fs.store.Within fs₀.store) (habs : l.root.isAbsolute = true)
    (hroot : fs₀.store.walkFrom true (fs₀.start l.root) l.root.steps = .ok (.entry base))
    (htouched : ∀ k, Key.isBelow k base = true → touched k)
    (he : e ∈ l.plan Listing.nestedVendors rule used policies) :
    Maintains (LosesOnly fs₀ touched) ((diskTools faults rule).removal e) := by
  obtain ⟨names, _, hne, hlisted, hp⟩ := exists_names_of_mem_plan hl he rfl
  obtain ⟨node, hn, -⟩ := FileSystem.exists_of_get?_asListed hlisted
  have hkey : ∀ key, fs₀.Reaches e.path key → key = base ++ names := by
    intro key hkey
    rw [hp] at hkey
    exact FileSystem.reaches_below hroot (hs _ _ hn) hne hkey
  have hpath : e.path.isAbsolute = true := hp ▸ habs
  refine removal_losesOnly hpath fun key k hreached hk => ?_
  rw [hkey key hreached] at hk
  obtain ⟨rest, rfl⟩ := hk
  exact htouched _ (Key.isBelow_iff.2 ⟨names ++ rest, by simp [hne], by rw [List.append_assoc]⟩)

theorem prune_maintains_losesOnly {touched : Key → Prop}
    (htouched : ∀ k, fs₀.LiesBelow root k → touched k) :
    Maintains (LosesOnly fs₀ touched) ((diskTools faults rule).prune root used policies) := by
  -- when the listing is made, the root leads to nothing but what it led to at the beginning
  refine prune_maintains fun fs l base hfs habs hopen hl e he => ?_
  have hleads := (FileSystem.openDirectory_ok hopen).2.1
  obtain ⟨habsolute, hbase⟩ := FileSystem.leads_of_absolute hfs.within hfs.here habs hleads
  exact removal_loses hl hfs.within habsolute
    (FileSystem.leads_of_within hfs.within habsolute hleads)
    (fun k hk => htouched k ⟨base, hbase, hk⟩) he

theorem Call.MadeBy.loses_link {c : Call FileSystem} {link : Key} {target : String}
    (h : c.MadeBy (diskTools faults rule))
    (hlink : c.before.entryAt false c.path = .ok (some link, .link target)) :
    LosesOnly c.before (· = link) c.after := by
  have honly : ∀ k, c.before.Reaches c.path k → k = link := by
    intro k hk
    have hleads := (FileSystem.entryAt_ok hlink).2.1
    rw [FileSystem.Reaches, hleads] at hk
    exact (Spot.entry.inj (Except.ok.inj hk)).symm
  have hloses : LosesOnly c.before (c.before.Reaches c.path) c.after := by
    rcases h.cases with ⟨-, hsame⟩ | hcall
    · rw [hsame]
      exact .refl c.before _
    · have hafter : c.after = (c.before.removeBy c.kind c.path).2 := by rw [hcall]
      rw [hafter]
      cases c.kind with
      | entry => exact FileSystem.removeBy_entry_loses c.before c.path
      | tree => exact FileSystem.removeTree_loses_link hlink
  exact hloses.mono honly

/-- What a run may do to a file system: it adds and alters nothing, it removes nothing that does not
lie strictly below the root, and a call that is made on a link removes nothing but the link. A root
that has been removed has no key, and nothing lies below it. -/
structure StaysBelow (fs : FileSystem) (base : Option Key) (calls : List (Call FileSystem))
    (fs' : FileSystem) : Prop where
  linked : Linked fs calls fs'
  within : fs'.store.Within fs.store
  outside : ∀ k, (∀ b ∈ base, Key.isBelow k b = false) → fs'.store.get? k = fs.store.get? k
  root : ∀ b ∈ base, fs'.store.get? b = some .directory
  links : ∀ c ∈ calls, ∀ link target,
    c.before.entryAt false c.path = .ok (some link, .link target) →
      ∀ k, k ≠ link → c.after.store.get? k = c.before.store.get? k

/-- A run on a path that leads to a directory, by whatever links, stays below that directory,
however it ends and whatever links there are. -/
theorem prune_stays_below (fs : FileSystem) (root : Path) (journal : List Record)
    (faults : List (String × Fault)) (rule : PreservationRule) (used : List String)
    (policies : PolicySet) {base : Option Key} (h : fs.entryAt true root = .ok (base, .directory)) :
    let ended := (diskTools faults rule).prune root used policies ⟨fs, journal⟩
    let observed := (diskTools faults rule).observed.prune root used policies ⟨⟨fs, []⟩, journal⟩
    observed.1 = ended.1 ∧ observed.2.world.world = ended.2.world ∧
      StaysBelow fs base observed.2.world.calls ended.2.world := by
  intro ended observed
  obtain ⟨-, hleads, hdir⟩ := FileSystem.entryAt_ok h
  obtain ⟨houtcome, hworld⟩ := prune_observed (diskTools faults rule) root used policies fs journal
  have hask : ∀ p v, Maintains (· = v) (diskHoldsEntry p) := fun p v => Maintains.query _
  obtain ⟨plan, hrecorded, -⟩ := prune_records (t := diskTools faults rule) root used policies
    (fun _ => diskSnapshot_maintains root) hask fs journal
  have hloses : LosesOnly fs (fs.LiesBelow root) ended.2.world :=
    prune_maintains_losesOnly (fun _ hk => hk) ⟨fs, journal⟩ (.refl fs _)
  -- what lies below the root does so by the directory that it leads to
  have houtside : ∀ k, (∀ b ∈ base, Key.isBelow k b = false) →
      ended.2.world.store.get? k = fs.store.get? k := by
    refine fun k hk => hloses.same k ?_
    rintro ⟨b, hb, hbelow⟩
    rw [hleads] at hb
    cases base with
    | none => simp at hb
    | some b' =>
      obtain rfl : b' = b := by simpa using hb
      simp [hk b' rfl] at hbelow
  refine ⟨houtcome, hworld, ?_, hloses.within, houtside, fun b hb => ?_, ?_⟩
  · rw [← hworld]
    exact hrecorded.linked
  · rw [houtside b fun b' hb' => ?_]
    · exact hdir b hb
    · obtain rfl : b' = b := Option.some.inj (hb'.symm.trans hb)
      simp [Key.isBelow]
  · exact fun c hc link target hlink k hk => ((hrecorded.made c hc).loses_link hlink).same k hk

/-- A project that is reached by a link, with links in it to a directory outside, to a file outside,
to the directory above it, to itself and to nothing. -/
def linkedProject : FileSystem where
  store := [(["w"], "p", .directory), (["w", "p"], "main_test.go", .file ⟨#[1]⟩),
    (["w", "p"], "vendor", .link "../out"), (["w", "p"], "dep", .directory),
    (["w", "p", "dep"], "vendor", .link "../.."), (["w", "p", "dep"], "loop", .link "loop"),
    (["w", "p", "dep"], "gone", .link "nowhere"), (["w", "p"], "x_test.go", .link "../out/a.go"),
    (["w"], "out", .directory), (["w", "out"], "a.go", .file ⟨#[2]⟩),
    (["w"], "here", .link "out/../p")].foldl
      (fun s (entry : Key × String × Node) => s.insert entry.1 entry.2.1 entry.2.2)
      (Store.empty.insert [] "w" .directory)
  here := ⟨["w"], 0⟩

/-- The run goes into the project by the link and leaves what lies beside it as it is. -/
theorem prune_stays_below_link : linkedProject.entryAt true (Path.ofString "here") =
      .ok (some ["w", "p"], .directory) ∧
    ∃ calls fs', StaysBelow linkedProject (some ["w", "p"]) calls fs' ∧
      ((diskTools [] .standard).prune (Path.ofString "here") [] .all ⟨linkedProject, []⟩).2.world =
        fs' ∧ fs'.store.get? ["w", "out", "a.go"] = some (.file ⟨#[2]⟩) ∧
      fs'.store.get? ["w", "here"] = some (.link "out/../p") := by
  have hroot : linkedProject.entryAt true (Path.ofString "here") =
      .ok (some ["w", "p"], .directory) := ok_of_toOption (by decide +kernel)
  obtain ⟨-, -, hstays⟩ := prune_stays_below linkedProject (Path.ofString "here") [] [] .standard []
    .all hroot
  refine ⟨hroot, _, _, hstays, rfl, ?_, ?_⟩
  · rw [hstays.outside ["w", "out", "a.go"] (by decide +kernel)]
    decide +kernel
  · rw [hstays.outside ["w", "here"] (by decide +kernel)]
    decide +kernel

end VendorTree
