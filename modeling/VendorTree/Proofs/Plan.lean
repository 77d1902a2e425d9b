import VendorTree.Proofs.Calls
import VendorTree.Proofs.RunSteps
import VendorTree.Proofs.SweepOrder

/-!
# Runs follow their plan

A listing, a set of policies and a rule fix in advance which paths a run asks its removers to
remove, and in which order. On a world that notes these calls a run makes exactly the planned ones,
up to the first that fails with anything but a missing path.
-/

namespace VendorTree

/-- A list up to the first item that has a property, that item included. -/
def upTo {α : Type} (last : α → Bool) : List α → List α
  | [] => []
  | x :: rest => x :: if last x then [] else upTo last rest

theorem upTo_singleton {α : Type} (last : α → Bool) (x : α) : upTo last [x] = [x] := by
  unfold upTo
  split <;> rfl

theorem upTo_append_of_none {α β : Type} {g : α → Option β} {xs ys : List α}
    (h : xs.findSome? g = none) :
    upTo (fun x => (g x).isSome) (xs ++ ys) = xs ++ upTo (fun x => (g x).isSome) ys := by
  induction xs with
  | nil => rfl
  | cons x rest ih =>
    cases hx : g x with
    | none =>
      rw [List.findSome?_cons, hx] at h
      simp [upTo, hx, ih h]
    | some y => simp [hx] at h

theorem upTo_append_of_some {α β : Type} {g : α → Option β} {xs ys : List α} {b : β}
    (h : xs.findSome? g = some b) :
    upTo (fun x => (g x).isSome) (xs ++ ys) = upTo (fun x => (g x).isSome) xs := by
  induction xs with
  | nil => simp at h
  | cons x rest ih =>
    cases hx : g x with
    | none =>
      rw [List.findSome?_cons, hx] at h
      simp [upTo, hx, ih h]
    | some y => simp [upTo, hx]

/-! ### A world that notes removals -/

/-- A file system that stays as it is, and the calls of the removers so far, oldest first. -/
structure Watch where
  files : FileSystem
  calls : List (RemoverKind × Path)

/-- The watch after some more calls. -/
def Watch.after (w : Watch) (calls : List (RemoverKind × Path)) : Watch :=
  { w with calls := w.calls ++ calls }

/-- A remover that notes the call and fails with the fault that is given for the path, if any. -/
def noting (faults : Path → Option Fault) (kind : RemoverKind) : Remover Watch := fun p =>
  Action.onWorld fun w =>
    (match faults p with
      | some fault => .error fault
      | none => .ok (), w.after [(kind, p)])

/-- Tools that work on a given listing with removers that note their calls. -/
def watchTools (l : Listing) (find : Listing → List Path) (faults : Path → Option Fault)
    (rule : PreservationRule) : Tools Watch where
  snapshot := fun _ => pure l
  findVendors := find
  remove := noting faults .entry
  removeTree := noting faults .tree
  holdsEntry := fun p => Action.query (·.files.holdsEntry p)
  rule := rule

/-- The call that a planned removal makes. -/
def Planned.call (e : Planned) : RemoverKind × Path := (e.stage.remover, e.path)

/-- The fault given for a path if it ends a run. -/
def fatalFault? (faults : Path → Option Fault) (p : Path) : Option Fault :=
  (faults p).filter fun fault => !fault.isMissing

/-- The fault with which a planned removal ends a run, if it does. -/
def Planned.abort? (faults : Path → Option Fault) (e : Planned) : Option RunFault :=
  (fatalFault? faults e.path).map (RunFault.inStage e.stage)

/-! ### Work that follows a plan -/

/-- On a watch over the given files, the work makes the calls of a plan up to the first removal that
ends it, and comes to the given value if there is none. -/
def Follows {ε α β : Type} (files : FileSystem) (abort? : β → Option ε)
    (call : β → RemoverKind × Path) (plan : List β) (value : α) (work : Action ε Watch α) : Prop :=
  ∀ r : Run Watch, r.world.files = files → ∃ journal, work r =
    (match plan.findSome? abort? with
      | some e => .error e
      | none => .ok value,
      ⟨r.world.after ((upTo (fun x => (abort? x).isSome) plan).map call), journal⟩)

theorem Watch.after_nil (w : Watch) : w.after [] = w := by
  simp [after]

theorem Watch.after_after (w : Watch) (a b : List (RemoverKind × Path)) :
    (w.after a).after b = w.after (a ++ b) := by
  simp [after]

namespace Follows

variable {ε α α' β : Type} {files : FileSystem} {abort? : β → Option ε}
  {call : β → RemoverKind × Path} {plan plan' : List β} {value : α} {value' : α'}

theorem pure (value : α) : Follows files abort? call [] value (Pure.pure value) := by
  intro r _
  exact ⟨r.journal, by simp [Action.pure_run, upTo, Watch.after_nil]⟩

theorem bind {work : Action ε Watch α} {next : α → Action ε Watch α'}
    (h : Follows files abort? call plan value work)
    (h' : Follows files abort? call plan' value' (next value)) :
    Follows files abort? call (plan ++ plan') value' (work >>= next) := by
  intro r hr
  obtain ⟨journal, hwork⟩ := h r hr
  cases hs : plan.findSome? abort? with
  | some e =>
    rw [hs] at hwork
    refine ⟨journal, ?_⟩
    rw [Action.bind_run_error hwork, List.findSome?_append, hs, upTo_append_of_some hs]
    rfl
  | none =>
    -- nothing ends the first part, so all of it is called before the second one starts
    have hall : upTo (fun x => (abort? x).isSome) (plan ++ []) = plan ++ [] :=
      upTo_append_of_none hs
    rw [List.append_nil] at hall
    rw [hs, hall] at hwork
    obtain ⟨journal', hnext⟩ := h' ⟨r.world.after (plan.map call), journal⟩ hr
    refine ⟨journal', (Action.bind_run_ok hwork).trans (hnext.trans ?_)⟩
    rw [List.findSome?_append, hs, upTo_append_of_none hs, List.map_append, Watch.after_after]
    rfl

theorem map {work : Action ε Watch α} (g : α → α') (h : Follows files abort? call plan value work) :
    Follows files abort? call plan (g value) (work >>= fun x => Pure.pure (g x)) := by
  have hbind : Follows files abort? call (plan ++ []) (g value)
    (work >>= fun x => Pure.pure (g x)) := h.bind (pure (g value))
  rwa [List.append_nil] at hbind

theorem note {next : Unit → Action ε Watch α} (source : Source) (event : Event)
    (h : Follows files abort? call plan value (next ())) :
    Follows files abort? call plan value (Action.note source event >>= next) := by
  intro r hr
  rw [Action.note_bind_run]
  exact h _ hr

end Follows

/-! ### Steps -/

section Steps

variable {files : FileSystem} {faults : Path → Option Fault} {l : Listing}
  {find : Listing → List Path} {rule : PreservationRule} {used : List String} {policies : PolicySet}

/-- Work on the whole plan of a run. -/
abbrev FollowsPlan {α : Type} (files : FileSystem) (faults : Path → Option Fault)
    (plan : List Planned) (value : α) (work : Action RunFault Watch α) : Prop :=
  Follows files (Planned.abort? faults) Planned.call plan value work

theorem removal_watchTools (e : Planned) :
    (watchTools l find faults rule).removal e = noting faults e.stage.remover e.path := by
  rw [Tools.removal_eq]
  cases e.stage.remover <;> rfl

/-- A planned removal makes its call. The sweep makes it too where the directory looks empty. -/
theorem attempt_watchTools {e : Planned} {r : Run Watch} (hr : r.world.files = files)
    (hempty : e.stage = .emptyDirs → files.holdsEntry e.path = .ok false) :
    (watchTools l find faults rule).attempt e r =
      (match faults e.path with
        | none => .ok true
        | some fault => if fault.isMissing then .ok false else .error fault,
        ⟨r.world.after [e.call], r.journal⟩) := by
  have hremoval : Action.unlessMissing (noting faults e.stage.remover e.path) r =
      (match faults e.path with
        | none => .ok true
        | some fault => if fault.isMissing then .ok false else .error fault,
        ⟨r.world.after [e.call], r.journal⟩) := by
    unfold Action.unlessMissing noting Action.onWorld
    cases faults e.path with
    | none => rfl
    | some fault => cases h : fault.isMissing <;> simp [h, Planned.call]
  rw [Tools.attempt, removal_watchTools]
  split
  · rename_i hsweep
    have hask : (watchTools l find faults rule).holdsEntry e.path r = (.ok false, r) := by
      show Action.query (fun w : Watch => w.files.holdsEntry e.path) r = _
      rw [Action.query_run, hr, hempty hsweep]
    exact (Action.bind_run_ok hask).trans hremoval
  · exact hremoval

theorem attempt_follows {e : Planned}
    (hempty : e.stage = .emptyDirs → files.holdsEntry e.path = .ok false) :
    FollowsPlan files faults [e] (faults e.path).isNone
      (Action.mapError (RunFault.inStage e.stage) ((watchTools l find faults rule).attempt e)) := by
  intro r hr
  refine ⟨r.journal, ?_⟩
  rw [Action.mapError_run (attempt_watchTools hr hempty), upTo_singleton, List.findSome?_singleton]
  refine Prod.ext ?_ rfl
  cases h : faults e.path with
  | none =>
    have habort : e.abort? faults = none := by simp [Planned.abort?, fatalFault?, h]
    rw [habort]
    rfl
  | some fault =>
    cases hm : fault.isMissing with
    | true =>
      have habort : e.abort? faults = none := by simp [Planned.abort?, fatalFault?, h, hm]
      simp only [habort, hm, if_true]
      rfl
    | false =>
      have habort : e.abort? faults = some (RunFault.inStage e.stage fault) := by
        simp [Planned.abort?, fatalFault?, h, hm, Option.filter]
      simp only [habort, hm, Bool.false_eq_true, if_false]
      rfl

/-- Steps make the calls of the removals they plan, and remove what no fault is given for. -/
theorem runSteps_follows {steps : List RunStep} (hempty : ∀ e ∈ plannedIn steps,
      e.stage = .emptyDirs → files.holdsEntry e.path = .ok false) :
    FollowsPlan files faults (plannedIn steps)
      (((plannedIn steps).filter fun e => (faults e.path).isNone).map Planned.path)
      ((watchTools l find faults rule).runSteps .engine RunFault.inStage steps) := by
  induction steps with
  | nil => exact Follows.pure []
  | cons step rest ih =>
    cases step with
    | report event => exact Follows.note _ _ (ih hempty)
    | removal e =>
      have hrest := ih fun e he => hempty e (List.mem_cons_of_mem _ he)
      refine Follows.bind (attempt_follows (hempty e List.mem_cons_self)) ?_
      cases h : (faults e.path).isNone with
      | true =>
        rw [plannedIn_removal, List.filter_cons, if_pos h, if_pos rfl]
        exact Follows.note _ _ (hrest.map (e.path :: ·))
      | false =>
        rw [plannedIn_removal, List.filter_cons, if_neg (by simp [h]), if_neg Bool.false_ne_true]
        split
        · exact hrest
        · exact Follows.note _ _ hrest

/-- The paths that a run removes if nothing ends it. -/
def Listing.removable (l : Listing) (find : Listing → List Path) (rule : PreservationRule)
    (used : List String) (policies : PolicySet) (faults : Path → Option Fault) : List Path :=
  ((l.plan find rule used policies).filter fun e => (faults e.path).isNone).map Planned.path

/-- What a run that nothing ends comes to. -/
def Listing.outcome (l : Listing) (find : Listing → List Path) (rule : PreservationRule)
    (used : List String) (policies : PolicySet) (faults : Path → Option Fault) : RunResult where
  root := l.root
  policies := policies
  removed := l.removable find rule used policies faults
  unused := if policies.unusedPackages then some (l.unusedPackages used) else none

theorem pruneListing_follows
    (hempty : ∀ d ∈ l.dirs, files.holdsEntry (l.absolute d) = .ok false) :
    FollowsPlan files faults (l.plan find rule used policies)
      (l.outcome find rule used policies faults)
      ((watchTools l find faults rule).pruneListing l used policies) := by
  have hdirs : ∀ e ∈ l.plan find rule used policies, e.stage = .emptyDirs →
      files.holdsEntry e.path = .ok false := by
    intro e he hsweep
    obtain ⟨d, hd, hpath⟩ := List.mem_map.1 (mem_sweepOrder.1 (l.mem_sweep_of_mem_plan he hsweep))
    exact hpath ▸ hempty d hd
  rw [← plannedIn_steps] at hdirs
  have hsteps : FollowsPlan files faults (l.plan find rule used policies)
      (l.removable find rule used policies faults)
      ((watchTools l find faults rule).runSteps .engine RunFault.inStage
        (l.steps find rule used policies)) := by
    rw [Listing.removable, ← plannedIn_steps]
    exact runSteps_follows hdirs
  rw [Tools.pruneListing_eq_runSteps, ← List.append_nil (l.plan find rule used policies)]
  exact hsteps.bind (Follows.note _ _ (Follows.pure _))

/-- On a listing whose directories all look empty, a run makes the planned calls in order, up to the
first that fails with anything but a missing path, and fails as that one does. If there is none, it
returns the planned paths without the missing ones. The sweep at the end of the plan takes each
directory of the listing once, the deepest first and equally deep ones by their texts. -/
theorem prune_follows_plan (files : FileSystem) (l : Listing) (find : Listing → List Path)
    (faults : Path → Option Fault) (rule : PreservationRule) (root : Path) (used : List String)
    (policies : PolicySet) (journal : List Record)
    (hempty : ∀ d ∈ l.dirs, files.holdsEntry (l.absolute d) = .ok false) :
    (∃ journal', (watchTools l find faults rule).prune root used policies ⟨⟨files, []⟩, journal⟩ =
      (match (l.plan find rule used policies).findSome? (Planned.abort? faults) with
        | some fault => .error fault
        | none => .ok (l.outcome find rule used policies faults),
        ⟨⟨files, (upTo (fun e => (e.abort? faults).isSome)
          (l.plan find rule used policies)).map Planned.call⟩, journal'⟩)) ∧
      (sweepOrder l.dirPaths).Nodup ∧
      (∀ p, p ∈ sweepOrder l.dirPaths ↔ ∃ d ∈ l.dirs, l.absolute d = p) ∧
      (sweepOrder l.dirPaths).Pairwise fun p q =>
        q.size < p.size ∨ p.size = q.size ∧ p.text ≤ q.text := by
  refine ⟨?_, nodup_sweepOrder _, fun p => ?_, ?_⟩
  · have hfollows : FollowsPlan files faults (l.plan find rule used policies)
        (l.outcome find rule used policies faults)
        ((watchTools l find faults rule).pruneListing l used policies) :=
      pruneListing_follows hempty
    obtain ⟨journal', hrun⟩ := hfollows ⟨⟨files, []⟩, journal⟩ rfl
    refine ⟨journal', (Tools.prune_run rfl used policies).trans (hrun.trans ?_)⟩
    cases (l.plan find rule used policies).findSome? (Planned.abort? faults) <;> rfl
  · rw [mem_sweepOrder, Listing.dirPaths, List.mem_map]
  · exact (pairwise_sweepOrder _).imp sweptBefore_iff.1

end Steps

/-- A listing of a directory that is not there, with texts that no listing of a directory has. -/
def strayListing : Listing where
  root := Path.ofString "/absent"
  dirs := ["./a", "a//b", "", "/x", "a"]
  files := ["a/x_test.go", "a//README"]

/-- The removal of one file is refused, and a vendor tree is missing. -/
def strayFault (p : Path) : Option Fault :=
  if p.text = "/absent/a/README" then some (.call ⟨.accessDenied, []⟩)
  else if p.text = "/absent/vendor" then some (.call ⟨.notFound, []⟩)
  else none

/-- A run on the stray listing goes on after the missing vendor tree and ends with the refused file,
before the tests and the directories. -/
theorem prune_stray_listing : let files : FileSystem := { store := .empty, here := ⟨[], 0⟩ }
    let vendor := Path.ofString "/absent/vendor"
    (∀ d ∈ strayListing.dirs, files.holdsEntry (strayListing.absolute d) = .ok false) ∧
      ∃ journal, (watchTools strayListing (fun _ => [vendor]) strayFault .standard).prune
          strayListing.root ["a"] .all ⟨⟨files, []⟩, []⟩ =
        (.error (.stage .nonGo ⟨.accessDenied, []⟩),
          ⟨⟨files, [(.tree, vendor), (.entry, Path.ofString "/absent/a/README")]⟩, journal⟩) := by
  intro files vendor
  have hempty : ∀ d ∈ strayListing.dirs,
      files.holdsEntry (strayListing.absolute d) = .ok false := by
    intro d hd
    have hmissing : Store.LeadsNowhere (files.store.walkFrom true
      (files.start strayListing.root) strayListing.root.steps) := .inr ⟨[], "absent", by rfl⟩
    have htexts : ∀ d ∈ strayListing.dirs, '\x00' ∉ (strayListing.root.join d).text.toList ∧
      (strayListing.root.join d).text.utf8ByteSize < pathLimit := by decide +kernel
    obtain ⟨hnul, hlen⟩ := htexts d hd
    exact FileSystem.holdsEntry_join_of_missing hmissing hnul hlen (by simp [files])
  obtain ⟨⟨journal, hrun⟩, -⟩ := prune_follows_plan files strayListing (fun _ => [vendor])
    strayFault .standard strayListing.root ["a"] .all [] hempty
  exact ⟨hempty, journal, hrun.trans rfl⟩

end VendorTree
