import VendorTree.FileSystem.Snapshot
import VendorTree.Proofs.Matching
import VendorTree.Proofs.RunSteps

/-!
# Runs as loops

A run on a listing does no more than to carry out its plan, one planned removal after the other.
What it does to the world and what it removes can therefore be shown by one induction on the plan.
-/

namespace VendorTree

variable {σ : Type} {t : Tools σ}

namespace Tools

/-- Carry out planned removals in turn. The answer lists the removed paths. -/
def runPlan (t : Tools σ) : List Planned → Action RunFault σ (List Path)
  | [] => pure []
  | e :: rest => do
    if ← Action.mapError (RunFault.inStage e.stage) (t.attempt e) then
      return e.path :: (← t.runPlan rest)
    else t.runPlan rest

/-- What the tools do does not depend on what was reported before. -/
structure Blind (t : Tools σ) : Prop where
  remover : ∀ kind p, Matches Eq Eq (t.remover kind p) (t.remover kind p)
  holdsEntry : ∀ p, Matches Eq Eq (t.holdsEntry p) (t.holdsEntry p)

theorem Blind.attempt (h : t.Blind) (e : Planned) : Matches Eq Eq (t.attempt e) (t.attempt e) := by
  have hremoval : Matches Eq Eq (t.removal e) (t.removal e) := by
    rw [t.removal_eq]
    exact h.remover e.stage.remover e.path
  unfold Tools.attempt
  split
  · refine (h.holdsEntry e.path).bind ?_
    rintro holds _ rfl
    cases holds with
    | true => exact Matches.pure rfl
    | false => exact hremoval.unlessMissing
  · exact hremoval.unlessMissing

end Tools

theorem runPlan_cons_error {e : Planned} {fault : Fault} {r r₁ : Run σ}
    (h : t.attempt e r = (.error fault, r₁)) (rest : List Planned) :
    t.runPlan (e :: rest) r = (.error (.inStage e.stage fault), r₁) := by
  rw [Tools.runPlan, Action.bind_run_error (Action.mapError_run h)]

theorem runPlan_cons_ok {e : Planned} {gone : Bool} {r r₁ : Run σ}
    (h : t.attempt e r = (.ok gone, r₁)) (rest : List Planned) :
    t.runPlan (e :: rest) r = ((t.runPlan rest r₁).1.map fun removed =>
      if gone then e.path :: removed else removed, (t.runPlan rest r₁).2) := by
  rw [Tools.runPlan, Action.bind_run_ok (Action.mapError_run h)]
  rcases hrest : t.runPlan rest r₁ with ⟨fault | removed, r₂⟩
  · cases gone with
    | false => exact hrest
    | true => exact Action.bind_run_error hrest
  · cases gone with
    | false => exact hrest
    | true => exact Action.bind_run_ok hrest

/-- Without its reports the loop over steps is the loop over what they plan. -/
theorem runSteps_matches_runPlan (h : t.Blind) (source : Source) (steps : List RunStep) :
    Matches Eq Eq (t.runSteps source RunFault.inStage steps) (t.runPlan (plannedIn steps)) := by
  induction steps with
  | nil => exact Matches.pure rfl
  | cons step rest ih =>
    cases step with
    | report event => exact Matches.note_left _ _ ih
    | removal e =>
      refine ((h.attempt e).mapError _).bind ?_
      rintro gone _ rfl
      cases gone with
      | true =>
        refine Matches.note_left _ _ (ih.bind ?_)
        rintro removed _ rfl
        exact Matches.pure rfl
      | false =>
        rw [if_neg Bool.false_ne_true, if_neg Bool.false_ne_true]
        split
        · exact ih
        · exact Matches.note_left _ _ ih

/-- A run on a listing is the loop over its plan. -/
theorem pruneListing_matches_runPlan (h : t.Blind) (l : Listing) (used : List String)
    (policies : PolicySet) :
    Matches Eq (fun x removed => x = ⟨l.root, policies, removed,
        if policies.unusedPackages then some (l.unusedPackages used) else none⟩)
      (t.pruneListing l used policies)
      (t.runPlan (l.plan t.findVendors t.rule used policies)) := by
  rw [t.pruneListing_eq_runSteps, ← plannedIn_steps, ← bind_pure (t.runPlan _)]
  refine (runSteps_matches_runPlan h .engine _).bind ?_
  rintro removed _ rfl
  exact Matches.note_left _ _ (Matches.pure rfl)

theorem pruneListing_run_of_plan (h : t.Blind) {l : Listing} {used : List String}
    {policies : PolicySet} {removed : List Path} {r r' : Run σ}
    (hloop : t.runPlan (l.plan t.findVendors t.rule used policies) r = (.ok removed, r')) :
    ∃ journal, t.pruneListing l used policies r = (.ok ⟨l.root, policies, removed,
      if policies.unusedPackages then some (l.unusedPackages used) else none⟩,
        ⟨r'.world, journal⟩) := by
  obtain ⟨hagree, hworld⟩ := pruneListing_matches_runPlan h l used policies r r rfl
  rw [hloop] at hagree hworld
  rcases hrun : t.pruneListing l used policies r with ⟨outcome, w, journal⟩
  rw [hrun] at hagree hworld
  obtain rfl : w = r'.world := hworld
  cases hagree with
  | ok hresult => exact ⟨journal, by rw [hresult]⟩

/-! ### Tools that work on a file system -/

theorem failingOn_matches {faults : List (String × Fault)} {remove : Remover FileSystem} {p : Path}
    (h : Matches Eq Eq (remove p) (remove p)) :
    Matches Eq Eq (failingOn faults remove p) (failingOn faults remove p) := by
  unfold failingOn
  split
  · exact Matches.fail _
  · exact h

theorem diskTools_blind (faults : List (String × Fault)) (rule : PreservationRule) :
    (diskTools faults rule).Blind where
  remover kind p := by
    cases kind with
    | entry => exact failingOn_matches (Matches.onWorld _)
    | tree => exact failingOn_matches (Matches.onWorld _)
  holdsEntry p := Matches.onWorld _

end VendorTree
