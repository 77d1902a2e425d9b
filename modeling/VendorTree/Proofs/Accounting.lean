import VendorTree.Proofs.Observed
import VendorTree.Proofs.SparedRuns

/-!
# Accounts of runs

On a readable directory each call that goes through takes what its path names, together with all
that lies below a tree, and any other call takes nothing. So what is missing after a run, however it
ends, is what the calls that went through account for, and no path is reported twice or after a
directory above it.
-/

namespace VendorTree

open VendorTree.Action (Maintains)

variable {fs fs' : FileSystem} {p root : Path} {base : Key} {l : Listing} {gone : Key → Bool}
  {removed : List Path} {rule : PreservationRule} {used : List String} {policies : PolicySet}
  {faults : List (String × Fault)} {kind : RemoverKind} {c : Call FileSystem}
  {calls : List (Call FileSystem)}

/-! ### Single calls -/

/-- What is taken with the entry at a key. -/
def RemoverKind.covers : RemoverKind → Key → Key → Bool
  | .entry, key, k => k = key
  | .tree, key, k => key.isPrefixOf k

theorem RemoverKind.covers_self (kind : RemoverKind) (k : Key) : kind.covers k k = true := by
  cases kind <;> simp [covers]

theorem RemoverKind.exists_of_covers {key k : Key} (h : kind.covers key k = true) :
    ∃ rest, k = key ++ rest ∧ (rest ≠ [] → kind = .tree) := by
  cases kind with
  | entry => exact ⟨[], by simpa [covers] using h, by simp⟩
  | tree =>
    obtain ⟨rest, rfl⟩ := List.isPrefixOf_iff_prefix.1 h
    exact ⟨rest, rfl, fun _ => rfl⟩

/-- A plain path for a remover of a kind: trees are no files, and links are removed as trees
only. -/
structure CallPath (fs : FileSystem) (kind : RemoverKind) (p : Path) : Prop where
  plain : fs.Plain p
  named : p.names ≠ []
  entry : kind = .entry → ∀ target, fs.store.get? p.names ≠ some (.link target)
  tree : kind = .tree → ∀ contents, fs.store.get? p.names ≠ some (.file contents)

theorem CallPath.of_clears (h : CallPath fs kind p) (hc : Clears fs gone removed fs') :
    CallPath fs' kind p where
  plain := h.plain.of_within hc.store.within
  named := h.named
  entry hk target hn := h.entry hk target (hc.store.within _ _ hn)
  tree hk contents hn := h.tree hk contents (hc.store.within _ _ hn)

/-- A call takes what its path names and reports it, or it fails and takes nothing. -/
def TakesOrFails (fs : FileSystem) (kind : RemoverKind) (p : Path) (outcome : Except Fault Unit)
    (fs' : FileSystem) : Prop :=
  (outcome = .ok () ∧ Clears fs (kind.covers p.names) [p] fs') ∨ (outcome.isOk = false ∧ fs' = fs)

theorem removeEntry_takes (h : CallPath fs .entry p) : TakesOrFails fs .entry p
    (fs.removeBy .entry p).1 (fs.removeBy .entry p).2 := by
  have hfails : ∀ {code}, fs.removePath p = refuse p code → TakesOrFails fs .entry p
      (fs.removeBy .entry p).1 (fs.removeBy .entry p).2 := by
    intro code hremove
    simp only [FileSystem.removeBy, hremove, refuse]
    exact .inr ⟨rfl, rfl⟩
  cases hp : fs.store.get? p.names with
  | none => exact hfails (h.plain.finds.removePath_none hp)
  | some node =>
    have hlink : ∀ target, node ≠ .link target := by
      rintro target rfl
      exact h.entry rfl target hp
    by_cases hempty : fs.store.children p.names = []
    · have hremove := h.plain.finds.removePath_some h.named hp hempty hlink
      simp only [FileSystem.removeBy, hremove]
      exact .inl ⟨rfl, Clears.erase h.named hempty (Option.isSome_of_eq_some hp)⟩
    · -- only a directory holds entries
      have hdir : fs.store.get? p.names = some .directory :=
        Decidable.by_contra fun hleaf => hempty (Store.children_eq_nil_of_ne_directory hleaf)
      exact hfails (h.plain.finds.removePath_full h.named hdir hempty)

theorem removeTree_takes (h : CallPath fs .tree p) : TakesOrFails fs .tree p
    (fs.removeBy .tree p).1 (fs.removeBy .tree p).2 := by
  show TakesOrFails fs .tree p (fs.removeTree p).1 (fs.removeTree p).2
  cases hp : fs.store.get? p.names with
  | none =>
    rw [h.plain.finds.removeTree_none hp]
    exact .inr ⟨rfl, rfl⟩
  | some node =>
    cases node with
    | file contents => exact absurd hp (h.tree rfl contents)
    | directory =>
      rw [h.plain.removeTree_directory h.named hp]
      exact .inl ⟨rfl, Clears.eraseTree h.named (Option.isSome_of_eq_some hp)⟩
    | link target =>
      rw [h.plain.finds.removeTree_link hp]
      exact .inl ⟨rfl, Clears.eraseLeaf hp (by simp)⟩

/-- What a call took: all that its path names if it went through, and nothing otherwise. -/
def Call.takes {σ : Type} (c : Call σ) (k : Key) : Bool := c.done && c.kind.covers c.path.names k

theorem Call.MadeBy.clears (h : c.MadeBy (diskTools faults rule))
    (hp : CallPath c.before c.kind c.path) :
    Clears c.before c.takes (removedBy [c]) c.after := by
  have hfails : c.done = false → c.after = c.before →
      Clears c.before c.takes (removedBy [c]) c.after := by
    intro hdone hsame
    have hnone : removedBy [c] = [] := by simp [removedBy, hdone]
    rw [hnone, hsame]
    exact (Clears.refl c.before).congr fun k _ => by simp [Call.takes, hdone]
  rcases h.cases with ⟨hdone, hsame⟩ | hcall
  · exact hfails hdone hsame
  · have htakes : TakesOrFails c.before c.kind c.path c.outcome c.after := by
      have hboth : TakesOrFails c.before c.kind c.path (c.before.removeBy c.kind c.path).1
          (c.before.removeBy c.kind c.path).2 := by
        cases hkind : c.kind with
        | entry => exact removeEntry_takes (hkind ▸ hp)
        | tree => exact removeTree_takes (hkind ▸ hp)
      rwa [hcall] at hboth
    rcases htakes with ⟨houtcome, hclears⟩ | ⟨hdone, hsame⟩
    · have hdone : c.done = true := by
        rw [Call.done, houtcome]
        rfl
      have hone : removedBy [c] = [c.path] := by simp [removedBy, hdone]
      rw [hone]
      exact hclears.congr fun k _ => by simp [Call.takes, hdone]
    · exact hfails hdone hsame

/-! ### Calls in a row -/

theorem removedBy_cons {σ : Type} (c : Call σ) (rest : List (Call σ)) :
    removedBy (c :: rest) = removedBy [c] ++ removedBy rest := by
  rw [removedBy, removedBy, removedBy, ← List.map_append, ← List.filter_append]
  rfl

theorem mem_removedBy {σ : Type} {calls : List (Call σ)} :
    p ∈ removedBy calls ↔ ∃ c ∈ calls, c.done = true ∧ c.path = p := by
  simp [removedBy, and_assoc]

def CallsOn (faults : List (String × Fault)) (rule : PreservationRule) (fs : FileSystem)
    (calls : List (Call FileSystem)) : Prop :=
  ∀ c ∈ calls, c.MadeBy (diskTools faults rule) ∧ CallPath fs c.kind c.path

/-- A path that suits a file system suits the later ones, since nothing is added. -/
theorem CallsOn.later {c : Call FileSystem} {rest : List (Call FileSystem)} {gone : Key → Bool}
    {removed : List Path} (h : CallsOn faults rule fs (c :: rest))
    (hclears : Clears fs gone removed fs') : CallsOn faults rule fs' rest := by
  intro d hd
  obtain ⟨hmade, hpath⟩ := h d (List.mem_cons_of_mem c hd)
  exact ⟨hmade, hpath.of_clears hclears⟩

theorem Linked.clears (h : Linked fs calls fs') (hcalls : CallsOn faults rule fs calls) :
    Clears fs (fun k => calls.any (·.takes k)) (removedBy calls) fs' := by
  induction calls generalizing fs with
  | nil =>
    obtain rfl : fs = fs' := h
    exact Clears.refl fs
  | cons c rest ih =>
    obtain ⟨rfl, hrest⟩ := h
    obtain ⟨hmade, hpath⟩ := hcalls c List.mem_cons_self
    have hfirst := hmade.clears hpath
    rw [removedBy_cons]
    exact (hfirst.trans (ih hrest (hcalls.later hfirst))).congr fun k _ => by rw [List.any_cons]

/-- After the call on a path that went through, none goes through on the path or below it. -/
theorem Linked.pairwise (h : Linked fs calls fs') (hcalls : CallsOn faults rule fs calls) :
    (removedBy calls).Pairwise fun p q => ¬ p.names <+: q.names := by
  induction calls generalizing fs with
  | nil => exact List.Pairwise.nil
  | cons c rest ih =>
    obtain ⟨rfl, hrest⟩ := h
    obtain ⟨hmade, hpath⟩ := hcalls c List.mem_cons_self
    have hfirst := hmade.clears hpath
    have hlater := hcalls.later hfirst
    have hgone : ∀ p ∈ removedBy [c], ∀ q ∈ removedBy rest, ¬ p.names <+: q.names := by
      rintro p hp q hq ⟨below, hbelow⟩
      have hmissing := hfirst.get?_of_reported hp
      obtain ⟨-, hthere, -⟩ := (hrest.clears hlater).reported q hq
      rw [← hbelow] at hthere
      by_cases hnil : below = []
      · simp [hnil, hmissing] at hthere
      · have habove := Store.get?_above hnil hthere
        simp [hmissing] at habove
    rw [removedBy_cons, List.pairwise_append]
    refine ⟨?_, ih hrest hlater, hgone⟩
    cases hdone : c.done <;> simp [removedBy, hdone]

/-! ### Runs -/

/-- What a run plans to remove lies below the root, and what it removes as a tree has the name of a
vendor tree. -/
theorem callPath_of_mem_plan {e : Planned} (h : fs.Readable root)
    (hl : l.Describes fs.store root.names) (hroot : l.root = root)
    (he : e ∈ l.plan Listing.nestedVendors rule used policies) :
    CallPath fs e.stage.remover e.path ∧ ∃ names, names ≠ [] ∧
      (fs.store.get? (root.names ++ names)).isSome ∧ e.path = root.below names ∧
        (e.stage.remover = .tree → names.getLast? = some vendorName) := by
  have hpath : ∀ names node, names ≠ [] → fs.store.get? (root.names ++ names) = some node →
      e.path = root.below names → (e.stage.remover = .entry → node.kind ≠ .link) →
        (e.stage.remover = .tree → node.kind ≠ .file) →
          (e.stage.remover = .tree → names.getLast? = some vendorName) →
            CallPath fs e.stage.remover e.path ∧ ∃ names, names ≠ [] ∧
              (fs.store.get? (root.names ++ names)).isSome ∧ e.path = root.below names ∧
                (e.stage.remover = .tree → names.getLast? = some vendorName) := by
    intro names node hne hn hp hentry htree hlast
    have hsome := Option.isSome_of_eq_some hn
    have hnames := Path.names_below_of_isSome root hsome
    refine ⟨?_, names, hne, hsome, hp, hlast⟩
    rw [hp]
    refine ⟨h.plain_below hsome, by simp [hnames, hne], fun hkind target htarget => ?_,
      fun hkind contents hcontents => ?_⟩
    · rw [hnames, hn] at htarget
      exact hentry hkind (Option.some.inj htarget ▸ rfl)
    · rw [hnames, hn] at hcontents
      exact htree hkind (Option.some.inj hcontents ▸ rfl)
  rcases takesFile_of_mem_plan hl he hroot with ⟨htree, names, node, hn, hfile, hlast, hp, -⟩ |
    ⟨hentry, names, node, hne, hn, hlink, hp, -⟩
  · refine hpath names node ?_ hn hp (fun hentry => ?_) (fun _ => hfile) fun _ => hlast
    · rintro rfl
      simp at hlast
    · simp [htree] at hentry
  · refine hpath names node hne hn hp (fun _ => hlink) (fun htree => ?_) fun htree => ?_
    · simp [hentry] at htree
    · simp [hentry] at htree

theorem prune_calls (h : fs.Readable root) (faults : List (String × Fault))
    (rule : PreservationRule) (used : List String) (policies : PolicySet) (journal : List Record) :
    let observed := (diskTools faults rule).observed.prune root used policies ⟨⟨fs, []⟩, journal⟩
    Linked fs observed.2.world.calls observed.2.world.world ∧
      CallsOn faults rule fs observed.2.world.calls ∧
        ∀ c ∈ observed.2.world.calls, ∃ names, names ≠ [] ∧
          (fs.store.get? (root.names ++ names)).isSome ∧ c.path = root.below names ∧
            (c.kind = .tree → names.getLast? = some vendorName) := by
  intro observed
  have hask : ∀ p v, Maintains (· = v) (diskHoldsEntry p) := fun p v => Maintains.query _
  obtain ⟨plan, hrecorded, hplan⟩ := prune_records (t := diskTools faults rule) root used policies
    (fun _ => diskSnapshot_maintains root) hask fs journal
  obtain ⟨l, journal', hlisted, hroot, hl⟩ := diskSnapshot_of_readable (r := ⟨fs, journal⟩) h
  have hcall : ∀ c ∈ observed.2.world.calls, CallPath fs c.kind c.path ∧ ∃ names, names ≠ [] ∧
      (fs.store.get? (root.names ++ names)).isSome ∧ c.path = root.below names ∧
        (c.kind = .tree → names.getLast? = some vendorName) := by
    intro c hc
    obtain ⟨e, he, hkind, hpath⟩ := hrecorded.planned c hc
    obtain ⟨l', r, hlisted', he⟩ := hplan e he
    obtain ⟨hsame, -⟩ := Prod.mk.inj (hlisted.symm.trans hlisted')
    obtain rfl := Except.ok.inj hsame
    rw [hkind, hpath]
    exact callPath_of_mem_plan h hl hroot he
  exact ⟨hrecorded.linked, fun c hc => ⟨hrecorded.made c hc, (hcall c hc).1⟩,
    fun c hc => (hcall c hc).2⟩

/-- What the calls of a run account for. The paths whose calls went through were there and are gone,
each of them once and none after a directory above it. Missing below the root are these, and what
lay below a real directory that was removed as a tree; what is not missing is as it was. -/
structure Accounts (fs : FileSystem) (root : Path) (calls : List (Call FileSystem))
    (fs' : FileSystem) : Prop where
  linked : Linked fs calls fs'
  nodup : (removedBy calls).Nodup
  removed : ∀ p ∈ removedBy calls, ∃ names, names ≠ [] ∧ p = root.below names ∧
    (fs.store.get? (root.names ++ names)).isSome ∧ fs'.store.get? (root.names ++ names) = none
  ordered : (removedBy calls).Pairwise fun p q => Key.isBelow q.names p.names = false
  missing : ∀ names, names ≠ [] → (fs.store.get? (root.names ++ names)).isSome →
    (fs'.store.get? (root.names ++ names) = none ↔ root.below names ∈ removedBy calls ∨
      ∃ c ∈ calls, c.done = true ∧ c.kind = .tree ∧ ∃ outer inner, c.path = root.below outer ∧
        fs.store.get? (root.names ++ outer) = some .directory ∧ inner ≠ [] ∧ names = outer ++ inner)
  kept : ∀ k, fs'.store.get? k = none ∨ fs'.store.get? k = fs.store.get? k

/-- An entry is taken by a call on its own path, or as a part of the tree above it. -/
theorem exists_takes_iff {calls : List (Call FileSystem)} (hbelow : ∀ c ∈ calls, ∃ names,
      names ≠ [] ∧ (fs.store.get? (root.names ++ names)).isSome ∧ c.path = root.below names)
    {names : List String} (hthere : (fs.store.get? (root.names ++ names)).isSome) :
    (∃ c ∈ calls, c.takes (root.names ++ names) = true) ↔ root.below names ∈ removedBy calls ∨
      ∃ c ∈ calls, c.done = true ∧ c.kind = .tree ∧ ∃ outer inner, c.path = root.below outer ∧
        fs.store.get? (root.names ++ outer) = some .directory ∧ inner ≠ [] ∧
          names = outer ++ inner := by
  constructor
  · rintro ⟨c, hc, htakes⟩
    rw [Call.takes, Bool.and_eq_true] at htakes
    obtain ⟨hdone, hcovers⟩ := htakes
    obtain ⟨outer, -, houter, hpath⟩ := hbelow c hc
    obtain ⟨inner, hkey, htree⟩ := RemoverKind.exists_of_covers hcovers
    rw [hpath, Path.names_below_of_isSome root houter, List.append_assoc] at hkey
    obtain rfl := List.append_cancel_left hkey
    by_cases hnil : inner = []
    · refine .inl (mem_removedBy.2 ⟨c, hc, hdone, ?_⟩)
      rw [hpath, hnil, List.append_nil]
    · rw [← List.append_assoc] at hthere
      exact .inr ⟨c, hc, hdone, htree hnil, outer, inner, hpath, Store.get?_above hnil hthere,
        hnil, rfl⟩
  · rintro (hp | ⟨c, hc, hdone, htree, outer, inner, hpath, hdir, -, rfl⟩)
    · obtain ⟨c, hc, hdone, hpath⟩ := mem_removedBy.1 hp
      refine ⟨c, hc, ?_⟩
      rw [Call.takes, hdone, hpath, Path.names_below_of_isSome root hthere]
      exact c.kind.covers_self _
    · refine ⟨c, hc, ?_⟩
      rw [Call.takes, hdone, htree, hpath,
        Path.names_below_of_isSome root (Option.isSome_of_eq_some hdir)]
      exact List.isPrefixOf_iff_prefix.2 ⟨inner, by simp⟩

theorem accounts_of_calls (hlinked : Linked fs calls fs') (hcalls : CallsOn faults rule fs calls)
    (hbelow : ∀ c ∈ calls, ∃ names, names ≠ [] ∧
      (fs.store.get? (root.names ++ names)).isSome ∧ c.path = root.below names) :
    Accounts fs root calls fs' := by
  have hclears := hlinked.clears hcalls
  have hpairwise := hlinked.pairwise hcalls
  refine ⟨hlinked, ?_, fun p hp => ?_, ?_, fun names hne hthere => ?_, fun k => ?_⟩
  · refine hpairwise.imp fun hpq hsame => hpq ?_
    exact hsame ▸ List.prefix_refl _
  · obtain ⟨c, hc, -, rfl⟩ := mem_removedBy.1 hp
    obtain ⟨names, hne, hthere, hpath⟩ := hbelow c hc
    have hgone := hclears.get?_of_reported hp
    rw [hpath, Path.names_below_of_isSome root hthere] at hgone
    exact ⟨names, hne, hpath, hthere, hgone⟩
  · refine hpairwise.imp fun {p q} hpq => ?_
    rw [Bool.eq_false_iff]
    intro hb
    obtain ⟨rest, -, hq⟩ := Key.isBelow_iff.1 hb
    exact hpq ⟨rest, hq.symm⟩
  · rw [← exists_takes_iff hbelow hthere, hclears.store.get?_eq (by simp [hne]), ← List.any_eq_true]
    cases calls.any (·.takes (root.names ++ names)) with
    | true => simp
    | false => simpa using Option.isSome_iff_ne_none.1 hthere
  · cases hk : fs'.store.get? k with
    | none => exact .inl rfl
    | some node => exact .inr (hclears.store.within k node hk).symm

/-- A run on a readable directory, however it ends, leaves what its calls account for, and if it
comes to a result this reports the paths whose calls went through. -/
theorem prune_accounts (fs : FileSystem) (root : Path) (journal : List Record)
    (faults : List (String × Fault)) (rule : PreservationRule) (used : List String)
    (policies : PolicySet) (h : fs.Readable root) :
    let ended := (diskTools faults rule).prune root used policies ⟨fs, journal⟩
    let observed := (diskTools faults rule).observed.prune root used policies ⟨⟨fs, []⟩, journal⟩
    observed.1 = ended.1 ∧ observed.2.world.world = ended.2.world ∧
      Accounts fs root observed.2.world.calls ended.2.world ∧
      ∀ result, ended.1 = .ok result → result.removed = removedBy observed.2.world.calls := by
  intro ended observed
  obtain ⟨houtcome, hworld⟩ := prune_observed (diskTools faults rule) root used policies fs journal
  obtain ⟨hlinked, hcalls, hbelow⟩ := prune_calls h faults rule used policies journal
  refine ⟨houtcome, hworld, ?_, fun result hresult => ?_⟩
  · rw [← hworld]
    refine accounts_of_calls hlinked hcalls fun c hc => ?_
    obtain ⟨names, hne, hthere, hpath, -⟩ := hbelow c hc
    exact ⟨names, hne, hthere, hpath⟩
  · have hran : observed = (.ok result, observed.2) := Prod.ext (houtcome.trans hresult) rfl
    exact (prune_reports (diskTools faults rule) root used policies _ result _ rfl hran).symm

/-- The removal of a test fails as if it were missing. It is not among what was removed then, and it
is still there. -/
theorem prune_accounts_sample :
    let root := Path.ofString "/p"
    let tools := diskTools [("/p/lib/a_test.go", .call ⟨.notFound, []⟩)] .standard
    let ended := tools.prune root ["lib"] .all ⟨sampleProject, []⟩
    let calls := (tools.observed.prune root ["lib"] .all ⟨⟨sampleProject, []⟩, []⟩).2.world.calls
    sampleProject.Readable root ∧ Accounts sampleProject root calls ended.2.world ∧
      root.below ["lib", "a_test.go"] ∉ removedBy calls ∧
        ended.2.world.store.get? ["p", "lib", "a_test.go"] = some (.file ⟨#[4]⟩) := by
  intro root tools ended calls
  obtain ⟨-, -, haccounts, -⟩ := prune_accounts sampleProject root []
    [("/p/lib/a_test.go", .call ⟨.notFound, []⟩)] .standard ["lib"] .all sampleProject_readable
  obtain ⟨-, hcalls, hbelow⟩ := prune_calls sampleProject_readable
    [("/p/lib/a_test.go", .call ⟨.notFound, []⟩)] .standard ["lib"] .all []
  have hnot : root.below ["lib", "a_test.go"] ∉ removedBy calls := by
    intro hp
    obtain ⟨c, hc, hdone, hpath⟩ := mem_removedBy.1 hp
    have hfault : [("/p/lib/a_test.go", Fault.call ⟨.notFound, []⟩)].lookup c.path.text =
        some (.call ⟨.notFound, []⟩) := by
      rw [hpath]
      decide +kernel
    exact Bool.false_ne_true ((hcalls c hc).1.not_done hfault ▸ hdone)
  refine ⟨sampleProject_readable, haccounts, hnot, ?_⟩
  rcases haccounts.kept ["p", "lib", "a_test.go"] with hnone | hkept
  · exfalso
    rcases (haccounts.missing ["lib", "a_test.go"] (by simp) (by decide +kernel)).1 hnone with
      hp | ⟨c, hc, -, htree, outer, inner, hpath, hdir, hne, hsplit⟩
    · exact hnot hp
    · -- only a directory above it was removed as a tree, and none of these is a vendor tree
      obtain ⟨names, -, hthere, hpath', hlast⟩ := hbelow c hc
      obtain rfl : names = outer := by
        have hsame := congrArg Path.names (hpath'.symm.trans hpath)
        rw [Path.names_below_of_isSome _ hthere,
          Path.names_below_of_isSome _ (Option.isSome_of_eq_some hdir)] at hsame
        exact List.append_cancel_left hsame
      have hmem : vendorName ∈ ["lib", "a_test.go"] :=
        hsplit ▸ List.mem_append_left inner (List.mem_of_getLast? (hlast htree))
      exact absurd hmem (by decide)
  · exact hkept.trans (by decide +kernel)

end VendorTree
