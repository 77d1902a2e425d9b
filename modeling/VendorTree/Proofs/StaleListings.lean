import VendorTree.Proofs.ListingOrder
import VendorTree.Proofs.Losses
import VendorTree.Proofs.PlanLoop
import VendorTree.Proofs.PlannedRuns
import VendorTree.Proofs.Survivors

/-!
# Listings of earlier trees

Entries may be deleted between the listing of a tree and a run on it. The plans made from the
earlier listing are then those made from a new one, with paths to which nothing leads put in
between. A run passes over these, so it removes what a run with a new listing removes, in the same
order.
-/

namespace VendorTree

open VendorTree.Action (Maintains)

/-! ### Outermost entries -/

theorem outermostVendors_isVendor (taken : List Path) (entries : List String) :
    outermostVendors taken (entries.filter isVendor) = outermostVendors taken entries := by
  induction entries generalizing taken with
  | nil => rfl
  | cons entry rest ih =>
    by_cases hname : (Path.ofString entry).name = vendorName
    · rw [List.filter_cons_of_pos (by simpa [isVendor] using hname)]
      simp only [outermostVendors, ih]
    · rw [List.filter_cons_of_neg (by simpa [isVendor] using hname)]
      simp only [outermostVendors, hname, false_and, if_false, ih]

/-- If with each entry those above it are kept, what is outermost among the kept entries was
outermost before. -/
theorem outermostVendors_filter {keep : String → Bool} {taken taken' : List Path}
    {entries : List String}
    (habove : ∀ t ∈ entries, ∀ u ∈ entries, keep t = true →
      (Path.ofString t).isBelow (Path.ofString u) = true → keep u = true)
    (htaken : ∀ t ∈ entries, keep t = true →
      taken'.any (Path.ofString t).isBelow = taken.any (Path.ofString t).isBelow) :
    outermostVendors taken' (entries.filter keep) =
      (outermostVendors taken entries).filter keep := by
  induction entries generalizing taken taken' with
  | nil => rfl
  | cons entry rest ih =>
    have habove' : ∀ t ∈ rest, ∀ u ∈ rest, keep t = true →
        (Path.ofString t).isBelow (Path.ofString u) = true → keep u = true :=
      fun t ht u hu => habove t (List.mem_cons_of_mem _ ht) u (List.mem_cons_of_mem _ hu)
    have htaken' := fun t ht => htaken t (List.mem_cons_of_mem entry ht)
    cases hkeep : keep entry with
    | true =>
      rw [List.filter_cons_of_pos hkeep]
      simp only [outermostVendors, htaken entry List.mem_cons_self hkeep]
      split
      · rw [List.filter_cons_of_pos hkeep, ih habove' fun t ht hk => ?_]
        rw [List.any_cons, List.any_cons, htaken' t ht hk]
      · exact ih habove' htaken'
    | false =>
      rw [List.filter_cons_of_neg (by simp [hkeep])]
      simp only [outermostVendors]
      split
      · -- nothing that is kept lies below an entry that is not
        rw [List.filter_cons_of_neg (by simp [hkeep])]
        refine ih habove' fun t ht hk => ?_
        have hout : (Path.ofString t).isBelow (Path.ofString entry) = false := by
          rw [Bool.eq_false_iff]
          intro hbelow
          have hkept := habove t (List.mem_cons_of_mem _ ht) entry List.mem_cons_self hk hbelow
          rw [hkeep] at hkept
          exact Bool.noConfusion hkept
        rw [List.any_cons, hout, Bool.false_or, htaken' t ht hk]
      · exact ih habove' htaken'

/-! ### Plans of an earlier listing -/

def FileSystem.hasEntry (fs : FileSystem) (p : Path) : Bool := (fs.store.get? p.names).isSome

theorem Store.holdsText_of_isBelow {s : Store} {base : Key} {t u : String}
    (ht : s.holdsText base t = true)
    (hbelow : (Path.ofString t).isBelow (Path.ofString u) = true) : s.holdsText base u = true := by
  simp only [Path.isBelow, Bool.and_eq_true, List.isPrefixOf_iff_prefix,
    decide_eq_true_eq] at hbelow
  obtain ⟨⟨-, rest, hnames⟩, hlonger⟩ := hbelow
  have hnames' : pathNames u ++ rest = pathNames t := hnames
  have hne : rest ≠ [] := by
    rintro rfl
    rw [List.append_nil] at hnames
    rw [hnames] at hlonger
    exact Nat.lt_irrefl _ hlonger
  rw [holdsText, isThere, ← hnames', ← List.append_assoc] at ht
  rw [holdsText, isThere, get?_above hne ht]
  rfl

section Plans

variable {fs fs' : FileSystem} {root : Path} {l l' : Listing}

theorem hasEntry_absolute (hl : l.Follows fs root) (t : String) :
    fs'.hasEntry (l.absolute t) = fs'.store.holdsText root.names t := by
  rw [← hl.rooted]
  rfl

theorem filter_absolute (hl : l.Follows fs root) (ts : List String) :
    (ts.map l.absolute).filter fs'.hasEntry =
      (ts.filter (fs'.store.holdsText root.names)).map l.absolute := by
  rw [List.filter_map]
  exact congrArg _ (List.filter_congr fun t _ => hasEntry_absolute hl t)

theorem absolute_eq (hl : l.Follows fs root) (hl' : l'.Follows fs' root) :
    l'.absolute = l.absolute := by
  funext t
  rw [Listing.absolute, Listing.absolute, hl.rooted, hl'.rooted]

variable (hd : fs.DeletedBelow fs' root) (h : fs.Readable root) (hl : l.Follows fs root)
  (hl' : l'.Follows fs' root)

include hd h hl hl'

theorem filesThat_of_deletedBelow {test test' : String → Bool}
    (htest : ∀ t ∈ l'.files, test' t = test t) :
    l'.filesThat test' = (l.filesThat test).filter fs'.hasEntry := by
  have hfiles : l'.files = l.files.filter (fs'.store.holdsText root.names) :=
    ofKind_of_deletedBelow hd h hl hl' .file (by simp)
  rw [Listing.filesThat, Listing.filesThat, filter_absolute hl, absolute_eq hl hl',
    List.filter_congr htest, hfiles, List.filter_filter, List.filter_filter]
  exact congrArg _ (List.filter_congr fun t _ => Bool.and_comm ..)

/-- Packages that are gone hold no files, so it makes no difference whether they are found
unused. -/
theorem unusedFiles_of_deletedBelow (rule : PreservationRule) (used : List String) :
    l'.unusedFiles (l'.unusedPackages used) rule =
      (l.unusedFiles (l.unusedPackages used) rule).filter fs'.hasEntry := by
  refine filesThat_of_deletedBelow hd h hl hl' fun t ht => ?_
  obtain ⟨names, node, hne, hn, -, rfl⟩ := (hl'.describes .file t).1 ht
  have hunused : packageOf (entryText names) ∈ l'.unusedPackages used ↔
      packageOf (entryText names) ∈ l.unusedPackages used := by
    rw [packageOf_mem_unused hl'.describes hn,
      packageOf_mem_unused hl.describes (hd.within _ _ hn)]
  simp only [hunused]

theorem nestedVendors_of_deletedBelow :
    l'.nestedVendors = l.nestedVendors.filter fs'.hasEntry := by
  have hentries : (l'.dirs ++ l'.links).filter isVendor =
      ((l.dirs ++ l.links).filter isVendor).filter (fs'.store.holdsText root.names) := by
    have hdirs : l'.dirs.filter isVendor = _ := vendors_of_deletedBelow hd h hl hl' .directory
    have hlinks : l'.links.filter isVendor = _ := vendors_of_deletedBelow hd h hl hl' .link
    rw [List.filter_append, hdirs, hlinks, List.filter_append, List.filter_append]
    rfl
  rw [Listing.nestedVendors, Listing.nestedVendors, filter_absolute hl, absolute_eq hl hl',
    ← outermostVendors_isVendor, hentries, ← outermostVendors_isVendor [] (l.dirs ++ l.links)]
  refine congrArg _ (outermostVendors_filter (fun t _ u _ => ?_) fun _ _ _ => rfl)
  exact Store.holdsText_of_isBelow

theorem dirPaths_of_deletedBelow : l'.dirPaths = l.dirPaths.filter fs'.hasEntry := by
  have hdirs : l'.dirs = l.dirs.filter (fs'.store.holdsText root.names) :=
    ofKind_of_deletedBelow hd h hl hl' .directory (by simp)
  rw [Listing.dirPaths, Listing.dirPaths, filter_absolute hl, absolute_eq hl hl', hdirs]

/-- The removals planned for a new listing are those planned for the earlier one whose paths are
still there. -/
theorem plan_of_deletedBelow (rule : PreservationRule) (used : List String) (policies : PolicySet) :
    l'.plan Listing.nestedVendors rule used policies =
      (l.plan Listing.nestedVendors rule used policies).filter fun e => fs'.hasEntry e.path := by
  have hnonGo : l'.nonGoFiles rule = (l.nonGoFiles rule).filter fs'.hasEntry :=
    filesThat_of_deletedBelow hd h hl hl' fun _ _ => rfl
  have htests : l'.testFiles = l.testFiles.filter fs'.hasEntry :=
    filesThat_of_deletedBelow hd h hl hl' fun _ _ => rfl
  simp only [Listing.plan, List.filter_append, planIf_filter,
    nestedVendors_of_deletedBelow hd h hl hl', unusedFiles_of_deletedBelow hd h hl hl', hnonGo,
    htests, dirPaths_of_deletedBelow hd h hl hl', sweepOrder_filter]

end Plans

/-! ### Runs on an earlier listing -/

/-- Two runs that started from one file system have come to the same one, and nothing was added to
it. -/
def Abreast (fs w v : FileSystem) : Prop := w = v ∧ LosesOnly fs (fun _ => True) w

section Runs

variable {fs fs' : FileSystem} {root p : Path} {l l' : Listing} {paths paths' : List Path}

theorem Matches.abreast {ε α : Type} {a : Action ε FileSystem α} (h : Matches Eq Eq a a)
    (hm : Maintains (LosesOnly fs fun _ => True) a) : Matches (Abreast fs) Eq a a :=
  fun r r' hs => ⟨(h r r' hs.1).1, (h r r' hs.1).2, hm r hs.2⟩

theorem Abreast.missing {w v : FileSystem} (hs : Abreast fs w v) (hp : fs.Plain p)
    (hnone : fs.hasEntry p = false) : w.Plain p ∧ w.store.get? p.names = none := by
  refine ⟨hp.of_within hs.2.within, ?_⟩
  rw [FileSystem.hasEntry, Option.isSome_eq_false_iff, Option.isNone_iff_eq_none] at hnone
  rw [Option.eq_none_iff_forall_ne_some] at hnone ⊢
  exact fun node hn => hnone node (hs.2.within _ _ hn)

theorem PassesMissing.comesTo {remove : Remover FileSystem} (h : PassesMissing remove)
    (hp : fs.Plain p) (hnone : fs.hasEntry p = false) :
    ComesTo (Abreast fs) false (Action.unlessMissing (remove p)) := by
  intro r w hs
  obtain ⟨hplain, hmissing⟩ := hs.missing hp hnone
  have hrun : Action.unlessMissing (remove p) r = (.ok false, r) :=
    h r.world p r.journal hplain hmissing
  rw [hrun]
  exact ⟨rfl, hs⟩

theorem attempt_abreast {e : Planned} (rule : PreservationRule) (hp : fs.Plain e.path) :
    Matches (Abreast fs) Eq ((diskTools [] rule).attempt e) ((diskTools [] rule).attempt e) := by
  exact ((diskTools_blind [] rule).attempt e).abreast
    (attempt_maintains (fun _ => Maintains.query _)
      (removal_losesOnly hp.absolute fun _ _ _ _ => trivial))

/-- Where nothing lies, a planned removal is passed over, and the sweep finds a directory empty. -/
theorem attempt_comesTo {e : Planned} (rule : PreservationRule) (hp : fs.Plain e.path)
    (hlisted : e.stage = .emptyDirs → e.path.text ∉ fs.refused)
    (hnone : fs.hasEntry e.path = false) :
    ComesTo (Abreast fs) false ((diskTools [] rule).attempt e) := by
  have hremoval : ComesTo (Abreast fs) false
      (Action.unlessMissing ((diskTools [] rule).removal e)) := by
    rw [Tools.removal_eq]
    cases e.stage.remover with
    | entry => exact diskRemove_passesMissing.comesTo hp hnone
    | tree => exact diskRemoveTree_passesMissing.comesTo hp hnone
  unfold Tools.attempt
  split
  · rename_i hsweep
    intro r w hs
    obtain ⟨hplain, hmissing⟩ := hs.missing hp hnone
    have hask : (diskTools [] rule).holdsEntry e.path r = (.ok false, r) := by
      show diskHoldsEntry e.path r = _
      rw [diskHoldsEntry, Action.query_run,
        hplain.finds.holdsEntry_none hmissing (hs.2.refused ▸ hlisted hsweep)]
    rw [Action.bind_run_ok hask]
    exact hremoval r w hs
  · exact hremoval

/-- The loop over a plan is the loop over those removals for which there is something left. -/
theorem runPlan_abreast {plan : List Planned} (rule : PreservationRule)
    (hplan : ∀ e ∈ plan, fs.Plain e.path ∧ (e.stage = .emptyDirs → e.path.text ∉ fs.refused)) :
    Matches (Abreast fs) Eq ((diskTools [] rule).runPlan plan)
      ((diskTools [] rule).runPlan (plan.filter fun e => fs.hasEntry e.path)) := by
  induction plan with
  | nil => exact Matches.pure rfl
  | cons e rest ih =>
    obtain ⟨hplain, hlisted⟩ := hplan e List.mem_cons_self
    have hrest := ih fun e he => hplan e (List.mem_cons_of_mem _ he)
    cases hthere : fs.hasEntry e.path with
    | true =>
      rw [List.filter_cons, if_pos hthere]
      refine ((attempt_abreast rule hplain).mapError _).bind ?_
      rintro gone _ rfl
      cases gone with
      | true =>
        refine hrest.bind ?_
        rintro removed _ rfl
        exact Matches.pure rfl
      | false => exact hrest
    | false =>
      rw [List.filter_cons, if_neg (by simp [hthere])]
      exact Matches.bind_left ((attempt_comesTo rule hplain hlisted hthere).mapError _) hrest

theorem pruneListing_abreast (hd : fs.DeletedBelow fs' root) (h : fs.Readable root)
    (hl : l.Follows fs root) (hl' : l'.Follows fs' root) (rule : PreservationRule)
    (used : List String) (policies : PolicySet) :
    Matches (Abreast fs') (fun x y => x.removed = y.removed)
      ((diskTools [] rule).pruneListing l used policies)
      ((diskTools [] rule).pruneListing l' used policies) := by
  have hfiles : ∀ test, ∀ p ∈ l.filesThat test, fs'.Plain p := fun test p hp =>
    (filePath_of_mem_filesThat h hl.describes hl.rooted hp).plain.of_within hd.within
  have hplan : ∀ e ∈ l.plan Listing.nestedVendors rule used policies,
      fs'.Plain e.path ∧ (e.stage = .emptyDirs → e.path.text ∉ fs'.refused) := by
    intro e he
    rcases Listing.mem_plan.1 he with ⟨-, hstage, hp⟩ | ⟨-, hstage, hp⟩ | ⟨-, hstage, hp⟩ |
      ⟨-, hstage, hp⟩ | ⟨-, hp⟩
    · exact ⟨(treePath_of_mem_nestedVendors h hl.describes hl.rooted hp).plain.of_within hd.within,
        by simp [hstage]⟩
    · exact ⟨hfiles _ _ hp, by simp [hstage]⟩
    · exact ⟨hfiles _ _ hp, by simp [hstage]⟩
    · exact ⟨hfiles _ _ hp, by simp [hstage]⟩
    · have hswept := (sweptPath_of_mem_dirPaths h hl.describes hl.rooted (mem_sweepOrder.1 hp)).1
      exact ⟨hswept.plain.of_within hd.within, fun _ => hd.refused ▸ hswept.listed⟩
  -- both runs are loops over their plans, of which the one is a part of the other
  intro r r' hs
  have hblind := diskTools_blind [] rule
  obtain ⟨hfirst, hworld⟩ := pruneListing_matches_runPlan hblind l used policies r r rfl
  obtain ⟨hlater, hworld'⟩ := pruneListing_matches_runPlan hblind l' used policies r' r' rfl
  obtain ⟨hloops, hworlds⟩ := runPlan_abreast rule hplan r r' hs
  rw [← plan_of_deletedBelow hd h hl hl' rule used policies] at hloops hworlds
  refine ⟨?_, by rw [hworld, hworld']; exact hworlds⟩
  have hplans : Agree (fun x removed => x.removed = removed)
      ((diskTools [] rule).pruneListing l used policies r).1
      ((diskTools [] rule).runPlan (l'.plan Listing.nestedVendors rule used policies) r').1 := by
    refine hfirst.trans hloops ?_
    rintro _ removed _ rfl rfl
    rfl
  refine hplans.trans hlater.symm ?_
  rintro x removed _ hremoved rfl
  exact hremoved

/-- A listing of a tree can be used after entries below its root were deleted: the run goes through,
and it removes what a run with a new listing removes, in the same order, and leaves the same. -/
theorem pruneListing_stale (fs fs' : FileSystem) (root : Path) (rule : PreservationRule)
    (used : List String) (policies : PolicySet) (journal journal₁ journal₂ : List Record)
    (h : fs.Readable root) (hd : fs.DeletedBelow fs' root) :
    ∃ l listed, diskSnapshot root ⟨fs, journal⟩ = (.ok l, listed) ∧
      ∃ stale fresh after after',
        (diskTools [] rule).pruneListing l used policies ⟨fs', journal₁⟩ = (.ok stale, after) ∧
        (diskTools [] rule).prune root used policies ⟨fs', journal₂⟩ = (.ok fresh, after') ∧
        after.world = after'.world ∧ stale.removed = fresh.removed := by
  -- the run with a new listing goes through, and the one with the earlier listing matches it
  have h' := hd.readable h
  obtain ⟨l, journal', hlisted, -, -⟩ := @diskSnapshot_of_readable root ⟨fs, journal⟩ h
  obtain ⟨l', journal₂', hlisted', hroot', hl'⟩ := @diskSnapshot_of_readable root ⟨fs', journal₂⟩ h'
  refine ⟨l, _, hlisted, ?_⟩
  obtain ⟨fresh, -, fs'', journal₃, -, -, hfresh, -⟩ :=
    pruneListing_clears h' hl' hroot' rule used policies journal₂'
  obtain ⟨hagree, hworlds⟩ := pruneListing_abreast hd h (follows_of_diskSnapshot h hlisted)
    (follows_of_diskSnapshot h' hlisted') rule used policies ⟨fs', journal₁⟩ ⟨fs', journal₂'⟩
    ⟨rfl, .refl fs' _⟩
  rw [hfresh] at hagree hworlds
  rcases hstale : (diskTools [] rule).pruneListing l used policies ⟨fs', journal₁⟩ with ⟨x, after⟩
  rw [hstale] at hagree hworlds
  cases hagree with
  | ok hremoved =>
    exact ⟨_, fresh, after, _, rfl, (Tools.prune_run hlisted' used policies).trans hfresh,
      hworlds.1, hremoved⟩

/-- The sample without `lib`, which leaves the link `current` with nothing it leads to. -/
def sampleWithoutLibrary : FileSystem :=
  let cleared := sampleProject.store.clear ["p", "lib"]
  (sampleProject.update cleared).update (cleared.erase ["p", "lib"])

theorem sampleWithoutLibrary_deleted :
    sampleProject.DeletedBelow sampleWithoutLibrary (Path.ofString "/p") := by
  have hc : Clears sampleProject (fun k => (Path.ofString "/p/lib").names.isPrefixOf k)
      [Path.ofString "/p/lib"] sampleWithoutLibrary :=
    Clears.eraseTree (by decide +kernel) (by decide +kernel)
  refine hc.deletedBelow fun k hk => ?_
  obtain ⟨rest, rfl⟩ := List.isPrefixOf_iff_prefix.1 hk
  exact Key.isBelow_iff.2 ⟨"lib" :: rest, by simp, rfl⟩

/-- The listing still names the directory `lib` and the file `lib/a.go` in it. -/
theorem pruneListing_stale_sample :
    sampleProject.Readable (Path.ofString "/p") ∧
      sampleProject.DeletedBelow sampleWithoutLibrary (Path.ofString "/p") ∧
      sampleWithoutLibrary.store.get? ["p", "lib"] = none ∧
      ∃ l listed stale fresh after after',
        diskSnapshot (Path.ofString "/p") ⟨sampleProject, []⟩ = (.ok l, listed) ∧
        "lib" ∈ l.dirs ∧ "lib/a.go" ∈ l.files ∧
        (diskTools [] .standard).pruneListing l ["lib"] .all ⟨sampleWithoutLibrary, []⟩ =
          (.ok stale, after) ∧
        (diskTools [] .standard).prune (Path.ofString "/p") ["lib"] .all
          ⟨sampleWithoutLibrary, []⟩ = (.ok fresh, after') ∧
        after.world = after'.world ∧ stale.removed = fresh.removed := by
  obtain ⟨l, listed, hlisted, stale, fresh, after, after', hstale, hfresh, hworlds, hremoved⟩ :=
    pruneListing_stale sampleProject sampleWithoutLibrary
      (Path.ofString "/p") .standard ["lib"] .all
      [] [] [] sampleProject_readable sampleWithoutLibrary_deleted
  have hl := (follows_of_diskSnapshot sampleProject_readable hlisted).describes
  refine ⟨sampleProject_readable, sampleWithoutLibrary_deleted, by decide +kernel, l, listed, stale,
    fresh, after, after', hlisted, ?_, ?_, hstale, hfresh, hworlds, hremoved⟩
  · exact (hl .directory _).2 ⟨["lib"], .directory, by decide +kernel⟩
  · exact (hl .file _).2 ⟨["lib", "a.go"], .file ⟨#[3]⟩, by decide +kernel⟩

end Runs

end VendorTree
