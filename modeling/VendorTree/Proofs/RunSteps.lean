import VendorTree.Proofs.ActionSteps

/-!
# Runs step by step

A listing, a set of policies and a rule fix in advance what a run does: it reports, and it attempts
one planned removal after the other. A run on a listing is the loop over these steps, so that
whatever is true of it is shown by one induction on a list of steps, with a case for a report and
one for a removal.
-/

namespace VendorTree

variable {ε σ : Type}

/-! ### Planned removals -/

/-- A removal that is planned, and the stage it belongs to. -/
structure Planned where
  stage : Stage
  path : Path

/-- The removals of a stage, if it is chosen. -/
def planIf (chosen : Bool) (stage : Stage) (paths : List Path) : List Planned :=
  if chosen then paths.map (⟨stage, ·⟩) else []

/-- The removals that a run on a listing plans. -/
def Listing.plan (l : Listing) (find : Listing → List Path) (rule : PreservationRule)
    (used : List String) (policies : PolicySet) : List Planned :=
  planIf policies.nestedVendor .nestedVendor (find l) ++
    (planIf policies.unusedPackages .unusedPackages (l.unusedFiles (l.unusedPackages used) rule) ++
      (planIf policies.nonGo .nonGo (l.nonGoFiles rule) ++
        (planIf policies.goTests .goTests l.testFiles ++
          planIf true .emptyDirs (sweepOrder l.dirPaths))))

/-- The two removers of a run: one for entries, and one for trees. -/
inductive RemoverKind
  | entry
  | tree
  deriving DecidableEq

/-- The remover that a stage calls. -/
def Stage.remover : Stage → RemoverKind
  | .nestedVendor => .tree
  | .unusedPackages | .nonGo | .goTests | .emptyDirs => .entry

theorem mem_planIf {chosen : Bool} {stage : Stage} {paths : List Path} {e : Planned} :
    e ∈ planIf chosen stage paths ↔ chosen = true ∧ e.stage = stage ∧ e.path ∈ paths := by
  unfold planIf
  split
  · rename_i hchosen
    refine List.mem_map.trans ⟨?_, fun h => ⟨e.path, h.2.2, by rw [← h.2.1]⟩⟩
    rintro ⟨p, hp, rfl⟩
    exact ⟨hchosen, rfl, hp⟩
  · rename_i hchosen
    exact iff_of_false List.not_mem_nil fun h => hchosen h.1

/-- A planned removal is one of the five stages, and its path is one that the stage plans. -/
theorem Listing.mem_plan {l : Listing} {find : Listing → List Path} {rule : PreservationRule}
    {used : List String} {policies : PolicySet} {e : Planned} :
    e ∈ l.plan find rule used policies ↔
      (policies.nestedVendor = true ∧ e.stage = .nestedVendor ∧ e.path ∈ find l) ∨
      (policies.unusedPackages = true ∧ e.stage = .unusedPackages ∧
        e.path ∈ l.unusedFiles (l.unusedPackages used) rule) ∨
      (policies.nonGo = true ∧ e.stage = .nonGo ∧ e.path ∈ l.nonGoFiles rule) ∨
      (policies.goTests = true ∧ e.stage = .goTests ∧ e.path ∈ l.testFiles) ∨
      (e.stage = .emptyDirs ∧ e.path ∈ sweepOrder l.dirPaths) := by
  simp only [plan, List.mem_append, mem_planIf, true_and]

theorem Listing.mem_sweep_of_mem_plan {l : Listing} {find : Listing → List Path}
    {rule : PreservationRule} {used : List String} {policies : PolicySet} {e : Planned}
    (he : e ∈ l.plan find rule used policies) (hsweep : e.stage = .emptyDirs) :
    e.path ∈ sweepOrder l.dirPaths := by
  rw [mem_plan, hsweep] at he
  simpa using he

theorem planIf_filter (chosen : Bool) (stage : Stage) (keep : Path → Bool) (paths : List Path) :
    (planIf chosen stage paths).filter (fun e => keep e.path) =
      planIf chosen stage (paths.filter keep) := by
  cases chosen with
  | true => exact List.filter_map
  | false => rfl

namespace Tools

def remover (t : Tools σ) : RemoverKind → Remover σ
  | .entry => t.remove
  | .tree => t.removeTree

/-- The call that a planned removal makes. -/
def removal (t : Tools σ) (e : Planned) : Action Fault σ Unit :=
  match e.stage.remover with
  | .entry => t.remove e.path
  | .tree => t.removeTree e.path

theorem removal_eq (t : Tools σ) (e : Planned) :
    t.removal e = t.remover e.stage.remover e.path := by
  unfold removal remover
  cases e.stage.remover <;> rfl

/-- One planned removal, and whether something was removed by it. The sweep asks first whether the
directory holds an entry, and then leaves it. -/
def attempt (t : Tools σ) (e : Planned) : Action Fault σ Bool :=
  if e.stage = .emptyDirs then do
    if ← t.holdsEntry e.path then return false else Action.unlessMissing (t.removal e)
  else Action.unlessMissing (t.removal e)

theorem attempt_of_ne {stage : Stage} (h : stage ≠ .emptyDirs) (t : Tools σ) (p : Path) :
    t.attempt ⟨stage, p⟩ = Action.unlessMissing (t.remover stage.remover p) := by
  rw [attempt, if_neg h, t.removal_eq]

theorem attempt_emptyDirs (t : Tools σ) (p : Path) : t.attempt ⟨.emptyDirs, p⟩ = (do
    if ← t.holdsEntry p then return false else Action.unlessMissing (t.remove p)) := rfl

end Tools

namespace Planned

/-- The report of a planned removal that went through. -/
def removedEvent (e : Planned) : Event :=
  if e.stage = .emptyDirs then .emptyDirRemoved e.path else .removed e.path

/-- The reports of a planned removal that found nothing. The sweep reports none. -/
def missingEvents (e : Planned) : List Event :=
  if e.stage = .emptyDirs then [] else [.alreadyGone e.path]

end Planned

/-! ### Steps -/

/-- A step of a run: a report, or a planned removal. -/
inductive RunStep
  | report (event : Event)
  | removal (e : Planned)

def RunStep.planned? : RunStep → Option Planned
  | .report _ => none
  | .removal e => some e

/-- The removals that are planned by steps. -/
def plannedIn (steps : List RunStep) : List Planned := steps.filterMap RunStep.planned?

@[simp] theorem plannedIn_report (event : Event) (rest : List RunStep) :
    plannedIn (.report event :: rest) = plannedIn rest := rfl

@[simp] theorem plannedIn_removal (e : Planned) (rest : List RunStep) :
    plannedIn (.removal e :: rest) = e :: plannedIn rest := rfl

@[simp] theorem plannedIn_append (steps steps' : List RunStep) :
    plannedIn (steps ++ steps') = plannedIn steps ++ plannedIn steps' := List.filterMap_append

/-- The removals of a stage as steps. -/
def removalSteps (stage : Stage) (paths : List Path) : List RunStep :=
  paths.map fun p => .removal ⟨stage, p⟩

/-- The steps of a stage that reports its plan before it removes anything, if it is chosen. -/
def stageSteps (chosen : Bool) (stage : Stage) (planned : Event) (paths : List Path) :
    List RunStep :=
  if chosen then
    .report (.stageStarted stage) :: .report planned :: removalSteps stage paths
  else []

/-- The steps of a run on a listing, up to the report that ends it. -/
def Listing.steps (l : Listing) (find : Listing → List Path) (rule : PreservationRule)
    (used : List String) (policies : PolicySet) : List RunStep :=
  let unused := l.unusedPackages used
  let unusedFiles := l.unusedFiles unused rule
  .report (.runStarted l.root policies) ::
    (stageSteps policies.nestedVendor .nestedVendor (.vendorsPlanned (find l).length l.root)
        (find l) ++
      (stageSteps policies.unusedPackages .unusedPackages
          (.unusedPlanned unusedFiles.length unused.length l.root) unusedFiles ++
        (stageSteps policies.nonGo .nonGo (.nonGoPlanned (l.nonGoFiles rule).length l.root)
            (l.nonGoFiles rule) ++
          (stageSteps policies.goTests .goTests (.testsPlanned l.testFiles.length l.root)
              l.testFiles ++
            .report (.stageStarted .emptyDirs) ::
              removalSteps .emptyDirs (sweepOrder l.dirPaths)))))

@[simp] theorem plannedIn_removalSteps (stage : Stage) (paths : List Path) :
    plannedIn (removalSteps stage paths) = planIf true stage paths := by
  induction paths with
  | nil => rfl
  | cons p rest ih => exact congrArg (⟨stage, p⟩ :: ·) ih

@[simp] theorem plannedIn_stageSteps (chosen : Bool) (stage : Stage) (planned : Event)
    (paths : List Path) : plannedIn (stageSteps chosen stage planned paths) =
      planIf chosen stage paths := by
  cases chosen with
  | true => exact plannedIn_removalSteps stage paths
  | false => rfl

theorem plannedIn_steps (l : Listing) (find : Listing → List Path) (rule : PreservationRule)
    (used : List String) (policies : PolicySet) :
    plannedIn (l.steps find rule used policies) = l.plan find rule used policies := by
  simp [Listing.steps, Listing.plan]

namespace Tools

/-- The loop over steps. The faults of a stage are seen in some way, and the answer lists the
removed paths. -/
def runSteps (t : Tools σ) (source : Source) (see : Stage → Fault → ε) :
    List RunStep → Action ε σ (List Path)
  | [] => pure []
  | .report event :: rest => do
    Action.note source event
    t.runSteps source see rest
  | .removal e :: rest => do
    if ← Action.mapError (see e.stage) (t.attempt e) then
      Action.note source e.removedEvent
      return e.path :: (← t.runSteps source see rest)
    else if e.stage = .emptyDirs then t.runSteps source see rest
    else
      Action.note source (.alreadyGone e.path)
      t.runSteps source see rest

variable (t : Tools σ) (source : Source) (see : Stage → Fault → ε)

theorem runSteps_report (event : Event) (rest : List RunStep) :
    t.runSteps source see (.report event :: rest) = (do
      Action.note source event
      t.runSteps source see rest) := rfl

theorem runSteps_append (steps steps' : List RunStep) :
    t.runSteps source see (steps ++ steps') = (do
      return (← t.runSteps source see steps) ++ (← t.runSteps source see steps')) := by
  induction steps with
  | nil => simp [runSteps]
  | cons step rest ih =>
    cases step with
    | report event =>
      rw [List.cons_append, runSteps, runSteps, ih, bind_assoc]
    | removal e =>
      rw [List.cons_append, runSteps, runSteps, bind_assoc]
      refine congrArg _ (funext fun gone => ?_)
      rw [ih]
      cases gone with
      | true => simp
      | false => by_cases hsweep : e.stage = .emptyDirs <;> simp [hsweep]

theorem removeAll_eq_runSteps {stage : Stage} (hstage : stage ≠ .emptyDirs) (paths : List Path) :
    Action.mapError (see stage) (removeAll source (t.remover stage.remover) paths) =
      t.runSteps source see (removalSteps stage paths) := by
  induction paths with
  | nil => rfl
  | cons p rest ih =>
    have hremoved : Planned.removedEvent ⟨stage, p⟩ = .removed p := if_neg hstage
    rw [removeAll, Action.mapError_bind, removalSteps, List.map_cons, runSteps,
      attempt_of_ne hstage, hremoved, ← removalSteps, ← ih]
    refine congrArg _ (funext fun gone => ?_)
    cases gone with
    | true =>
      rw [if_pos rfl, if_pos rfl, Action.mapError_note, Action.mapError_bind]
      rfl
    | false =>
      rw [if_neg Bool.false_ne_true, if_neg Bool.false_ne_true, if_neg hstage]
      exact Action.mapError_note ..

theorem sweepInOrder_eq_runSteps (paths : List Path) :
    Action.mapError (see .emptyDirs) (sweepInOrder source t.holdsEntry t.remove paths) =
      t.runSteps source see (removalSteps .emptyDirs paths) := by
  induction paths with
  | nil => rfl
  | cons p rest ih =>
    have hremoved : Planned.removedEvent ⟨.emptyDirs, p⟩ = .emptyDirRemoved p := rfl
    rw [sweepInOrder, Action.mapError_bind, removalSteps, List.map_cons, runSteps,
      attempt_emptyDirs, hremoved, ← removalSteps, ← ih, Action.mapError_bind, bind_assoc]
    refine congrArg _ (funext fun holds => ?_)
    cases holds with
    | true => rfl
    | false =>
      rw [if_neg Bool.false_ne_true, if_neg Bool.false_ne_true, Action.mapError_bind]
      refine congrArg _ (funext fun gone => ?_)
      cases gone with
      | true =>
        rw [if_pos rfl, if_pos rfl, Action.mapError_note, Action.mapError_bind]
        rfl
      | false => rfl

theorem sweep_eq_runSteps (paths : List Path) : sweep source t.holdsEntry t.remove paths =
    t.runSteps source (fun _ fault => fault) (removalSteps .emptyDirs (sweepOrder paths)) := by
  rw [← sweepInOrder_eq_runSteps]
  exact (Action.mapError_id _).symm

/-- The work of a stage that reports its plan and then removes what is planned. -/
theorem inStageIf_eq_runSteps {stage : Stage} (hstage : stage ≠ .emptyDirs) (chosen : Bool)
    (planned : Event) (paths : List Path) :
    (inStageIf chosen stage [] do
      Action.note .engine planned
      removeAll .engine (t.remover stage.remover) paths) =
      t.runSteps .engine RunFault.inStage (stageSteps chosen stage planned paths) := by
  cases chosen with
  | false => rfl
  | true =>
    rw [stageSteps, if_pos rfl, runSteps, runSteps, ← removeAll_eq_runSteps t _ _ hstage]
    rfl

/-- The answer of this stage also holds the packages whose files it removes. -/
theorem unusedPackages_eq_runSteps (l : Listing) (used : List String) (chosen : Bool) :
    (inStageIf chosen .unusedPackages (none, []) do
      let (unused, files) ← removeUnusedPackages .engine t.rule t.remove used l
      return (some unused, files)) = (do
      let files ← t.runSteps .engine RunFault.inStage (stageSteps chosen .unusedPackages
        (.unusedPlanned (l.unusedFiles (l.unusedPackages used) t.rule).length
          (l.unusedPackages used).length l.root) (l.unusedFiles (l.unusedPackages used) t.rule))
      return (if chosen then some (l.unusedPackages used) else none, files)) := by
  rw [← inStageIf_eq_runSteps t (by simp)]
  cases chosen with
  | false => rfl
  | true =>
    rw [removeUnusedPackages]
    simp only [inStageIf, inStage, bind_assoc, Action.mapError_bind]
    rfl

/-- A run on a listing is the loop over its steps, with a report at the end. -/
theorem pruneListing_eq_runSteps (l : Listing) (used : List String) (policies : PolicySet) :
    t.pruneListing l used policies = (do
      let removed ← t.runSteps .engine RunFault.inStage
        (l.steps t.findVendors t.rule used policies)
      Action.note .engine (.runFinished l.root removed.length)
      return {
        root := l.root, policies, removed
        unused := if policies.unusedPackages then some (l.unusedPackages used) else none }) := by
  have hvendors : inStageIf policies.nestedVendor .nestedVendor []
      (removeNestedVendors .engine t.findVendors t.removeTree l) =
        t.runSteps .engine RunFault.inStage (stageSteps policies.nestedVendor .nestedVendor
          (.vendorsPlanned (t.findVendors l).length l.root) (t.findVendors l)) :=
    inStageIf_eq_runSteps t (by simp) _ _ _
  have hnonGo : inStageIf policies.nonGo .nonGo [] (removeNonGo .engine t.rule t.remove l) =
      t.runSteps .engine RunFault.inStage (stageSteps policies.nonGo .nonGo
        (.nonGoPlanned (l.nonGoFiles t.rule).length l.root) (l.nonGoFiles t.rule)) :=
    inStageIf_eq_runSteps t (by simp) _ _ _
  have htests : inStageIf policies.goTests .goTests [] (removeTests .engine t.remove l) =
      t.runSteps .engine RunFault.inStage (stageSteps policies.goTests .goTests
        (.testsPlanned l.testFiles.length l.root) l.testFiles) :=
    inStageIf_eq_runSteps t (by simp) _ _ _
  have hsweep : inStage .emptyDirs (sweep .engine t.holdsEntry t.remove l.dirPaths) =
      t.runSteps .engine RunFault.inStage (.report (.stageStarted .emptyDirs) ::
        removalSteps .emptyDirs (sweepOrder l.dirPaths)) := by
    rw [runSteps, ← sweepInOrder_eq_runSteps]
    rfl
  rw [pruneListing, hvendors, unusedPackages_eq_runSteps, hnonGo, htests, hsweep, Listing.steps]
  simp only [runSteps_report, runSteps_append, bind_assoc, pure_bind, List.append_assoc]

end Tools

end VendorTree
