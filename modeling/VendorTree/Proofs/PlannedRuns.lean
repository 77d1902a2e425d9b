import VendorTree.Proofs.Losses
import VendorTree.Proofs.RunSteps

/-!
# What planned removals maintain

A property of the world that every planned removal maintains, and asking about directories too, is
maintained by the whole run, however it ends.
-/

namespace VendorTree

open VendorTree.Action (Maintains)

variable {ε σ : Type} {I : σ → Prop} {t : Tools σ}

theorem attempt_maintains {e : Planned} (hask : ∀ p, Maintains I (t.holdsEntry p))
    (h : Maintains I (t.removal e)) : Maintains I (t.attempt e) := by
  unfold Tools.attempt
  split
  · refine (hask e.path).bind fun holds => ?_
    cases holds with
    | true => exact Maintains.pure _
    | false => exact h.unlessMissing
  · exact h.unlessMissing

theorem runSteps_maintains {source : Source} {see : Stage → Fault → ε} {steps : List RunStep}
    (hask : ∀ p, Maintains I (t.holdsEntry p))
    (h : ∀ e ∈ plannedIn steps, Maintains I (t.removal e)) :
    Maintains I (t.runSteps source see steps) := by
  induction steps with
  | nil => exact Maintains.pure _
  | cons step rest ih =>
    cases step with
    | report event => exact (Maintains.note _ _).bind fun _ => ih h
    | removal e =>
      have hrest := ih fun e he => h e (List.mem_cons_of_mem _ he)
      refine ((attempt_maintains hask (h e List.mem_cons_self)).mapError _).bind fun gone => ?_
      cases gone with
      | true => exact (Maintains.note _ _).bind fun _ => hrest.bind fun _ => Maintains.pure _
      | false =>
        rw [if_neg Bool.false_ne_true]
        split
        · exact hrest
        · exact (Maintains.note _ _).bind fun _ => hrest

theorem sweep_maintains (source : Source) {paths : List Path}
    (hask : ∀ p, Maintains I (t.holdsEntry p))
    (h : ∀ p ∈ sweepOrder paths, Maintains I (t.remove p)) :
    Maintains I (sweep source t.holdsEntry t.remove paths) := by
  rw [t.sweep_eq_runSteps]
  refine runSteps_maintains hask fun e he => ?_
  obtain ⟨-, hstage, hpath⟩ := mem_planIf.1 (plannedIn_removalSteps _ _ ▸ he)
  rw [Tools.removal, hstage]
  exact h e.path hpath

theorem pruneListing_maintains {l : Listing} {used : List String} {policies : PolicySet}
    (hask : ∀ p, Maintains I (t.holdsEntry p))
    (h : ∀ e ∈ l.plan t.findVendors t.rule used policies, Maintains I (t.removal e)) :
    Maintains I (t.pruneListing l used policies) := by
  rw [← plannedIn_steps] at h
  rw [t.pruneListing_eq_runSteps]
  exact (runSteps_maintains hask h).bind fun _ =>
    (Maintains.note _ _).bind fun _ => Maintains.pure _

/-- On disk a planned removal loses what lies where its path leads, and below it, at most. -/
theorem removal_losesOnly {fs₀ : FileSystem} {touched : Key → Prop} {faults : List (String × Fault)}
    {rule : PreservationRule} {e : Planned} (habs : e.path.isAbsolute = true)
    (hsafe : ∀ key k, fs₀.Reaches e.path key → key <+: k → touched k) :
    Maintains (LosesOnly fs₀ touched) ((diskTools faults rule).removal e) := by
  unfold Tools.removal
  cases e.stage.remover with
  | entry =>
    exact failingOn_maintains (diskRemove_maintains habs fun key hkey =>
      hsafe key key hkey (List.prefix_refl key))
  | tree => exact failingOn_maintains (diskRemoveTree_maintains habs hsafe)

end VendorTree
