import VendorTree.Proofs.GonePaths
import VendorTree.Proofs.PlanLoop

/-!
# Plans that are carried out

A run carries out its plan: one planned removal after the other is called, up to a call that fails
with anything but a missing path, and only the sweep leaves out what holds an entry. Of each call
the run reports at once what came of it, so the reports of removals in its journal are those of its
calls.
-/

namespace VendorTree

open VendorTree.Action (Maintains)

variable {ε σ α β : Type}

/-! ### Reports of removals -/

namespace Event

/-- The path that was removed by what is reported. -/
def removedPath? : Event → Option Path
  | .removed p | .emptyDirRemoved p => some p
  | _ => none

/-- The path that the report of a removal is about, also of one that found nothing. -/
def callPath? : Event → Option Path
  | .removed p | .emptyDirRemoved p | .alreadyGone p => some p
  | _ => none

end Event

/-- The reports of removals in a journal. -/
def removalsIn (journal : List Record) : List Event :=
  (journal.map Record.event).filter fun event => event.callPath?.isSome

theorem removalsIn_append (journal journal' : List Record) :
    removalsIn (journal ++ journal') = removalsIn journal ++ removalsIn journal' := by
  rw [removalsIn, List.map_append, List.filter_append]
  rfl

theorem Planned.removedPath?_removedEvent (e : Planned) :
    e.removedEvent.removedPath? = some e.path := by
  unfold removedEvent
  split <;> rfl

theorem Planned.callPath?_removedEvent (e : Planned) : e.removedEvent.callPath? = some e.path := by
  unfold removedEvent
  split <;> rfl

/-- A call together with the planned removal that it carries out. -/
structure PlannedCall (σ : Type) where
  planned : Planned
  call : Call σ
  kind_eq : call.kind = planned.stage.remover
  path_eq : call.path = planned.path

/-- What is reported of a call. Nothing is reported of one that ends the run. -/
def PlannedCall.events (c : PlannedCall σ) : List Event :=
  match c.call.outcome with
  | .ok _ => [c.planned.removedEvent]
  | .error fault => if fault.isMissing then c.planned.missingEvents else []

/-- How a plan is carried out: the calls that are made for it, and the fault that ends the run. -/
inductive CarriedOut : List Planned → List (PlannedCall σ) → Option RunFault → Prop
  | done : CarriedOut [] [] none
  | passed (c : PlannedCall σ) {rest : List Planned} {made : List (PlannedCall σ)}
    {stop : Option RunFault} : c.call.fatal? = none → CarriedOut rest made stop →
      CarriedOut (c.planned :: rest) (c :: made) stop
  /-- The sweep leaves a directory that holds an entry. -/
  | left {e : Planned} {rest : List Planned} {made : List (PlannedCall σ)}
    {stop : Option RunFault} : e.stage = .emptyDirs → CarriedOut rest made stop →
      CarriedOut (e :: rest) made stop
  | stopped (c : PlannedCall σ) {rest : List Planned} {fault : Fault} :
    c.call.fatal? = some fault →
      CarriedOut (c.planned :: rest) [c] (some (RunFault.inStage c.planned.stage fault))

namespace CarriedOut

variable {plan plan' : List Planned} {made made' : List (PlannedCall σ)} {stop : Option RunFault}
  {fault : RunFault}

theorem append (h : CarriedOut plan made none) (h' : CarriedOut plan' made' stop) :
    CarriedOut (plan ++ plan') (made ++ made') stop := by
  generalize hstop : (none : Option RunFault) = before at h
  induction h with
  | done => exact h'
  | passed c hpassed _ ih => exact .passed c hpassed (ih hstop)
  | left hsweep _ ih => exact .left hsweep (ih hstop)
  | stopped c hfatal => cases hstop

theorem append_of_stopped (h : CarriedOut plan made (some fault)) (plan' : List Planned) :
    CarriedOut (plan ++ plan') made (some fault) := by
  generalize hstop : some fault = stop at h
  induction h with
  | done => cases hstop
  | passed c hpassed _ ih => exact .passed c hpassed (ih hstop)
  | left hsweep _ ih => exact .left hsweep (ih hstop)
  | stopped c hfatal => exact .stopped c hfatal

theorem planned_mem (h : CarriedOut plan made stop) : ∀ c ∈ made, c.planned ∈ plan := by
  induction h with
  | done => simp
  | passed c _ _ ih =>
    intro d hd
    rcases List.mem_cons.1 hd with rfl | hd
    · exact List.mem_cons_self
    · exact List.mem_cons_of_mem _ (ih d hd)
  | left _ _ ih => exact fun d hd => List.mem_cons_of_mem _ (ih d hd)
  | stopped c _ =>
    intro d hd
    rw [List.mem_singleton.1 hd]
    exact List.mem_cons_self

/-- A run is stopped by the last of its calls, and by no other. -/
theorem fatal?_eq (h : CarriedOut plan made stop) :
    (stop = none ∧ ∀ c ∈ made, c.call.fatal? = none) ∨
      ∃ front c fault, made = front ++ [c] ∧ (∀ d ∈ front, d.call.fatal? = none) ∧
        c.call.fatal? = some fault ∧ stop = some (RunFault.inStage c.planned.stage fault) := by
  induction h with
  | done => exact .inl ⟨rfl, by simp⟩
  | left _ _ ih => exact ih
  | stopped c hfatal => exact .inr ⟨[], c, _, rfl, by simp, hfatal, rfl⟩
  | passed c hpassed _ ih =>
    rcases ih with ⟨hstop, hall⟩ | ⟨front, d, fault, rfl, hfront, hfatal, hstop⟩
    · exact .inl ⟨hstop, by simpa [hpassed] using hall⟩
    · exact .inr ⟨c :: front, d, fault, rfl, by simpa [hpassed] using hfront, hfatal, hstop⟩

end CarriedOut

theorem PlannedCall.removed_events (c : PlannedCall σ) :
    c.events.filterMap Event.removedPath? = removedBy [c.call] := by
  unfold PlannedCall.events
  cases houtcome : c.call.outcome with
  | ok _ =>
    have hdone : c.call.done = true := by rw [Call.done, houtcome]; rfl
    simp [removedBy, hdone, c.planned.removedPath?_removedEvent, c.path_eq]
  | error fault =>
    have hdone : c.call.done = false := by rw [Call.done, houtcome]; rfl
    have hremoved : removedBy [c.call] = [] := by simp [removedBy, hdone]
    rw [hremoved]
    simp only
    split
    · unfold Planned.missingEvents
      split <;> rfl
    · rfl

theorem removed_events (made : List (PlannedCall σ)) :
    (made.flatMap PlannedCall.events).filterMap Event.removedPath? =
      removedBy (made.map PlannedCall.call) := by
  induction made with
  | nil => rfl
  | cons c rest ih =>
    rw [List.flatMap_cons, List.filterMap_append, ih, c.removed_events, removedBy, removedBy,
      removedBy, ← List.map_append, ← List.filter_append]
    rfl

theorem Call.error_of_fatal? {c : Call σ} {fault : Fault} (h : c.fatal? = some fault) :
    c.outcome = .error fault ∧ fault.isMissing = false := by
  unfold Call.fatal? at h
  split at h
  · cases h
  · rename_i houtcome
    split at h
    · cases h
    · rename_i hpresent
      obtain rfl := Option.some.inj h
      exact ⟨houtcome, Bool.eq_false_iff.2 hpresent⟩

theorem PlannedCall.events_of_fatal? {c : PlannedCall σ} {fault : Fault}
    (h : c.call.fatal? = some fault) : c.events = [] := by
  obtain ⟨houtcome, hpresent⟩ := Call.error_of_fatal? h
  rw [events, houtcome]
  exact if_neg (Bool.eq_false_iff.1 hpresent)

theorem PlannedCall.callPath?_events (c : PlannedCall σ) :
    ∀ event ∈ c.events, event.callPath? = some c.call.path := by
  intro event hevent
  unfold PlannedCall.events at hevent
  rw [c.path_eq]
  split at hevent
  · rw [List.mem_singleton.1 hevent, Planned.removedEvent]
    split <;> rfl
  · split at hevent
    · unfold Planned.missingEvents at hevent
      split at hevent
      · cases hevent
      · rw [List.mem_singleton.1 hevent]
        rfl
    · cases hevent

/-! ### Work that carries out a plan -/

section Traces

variable {I : σ → Prop} {t : Tools σ} {plan plan' rest : List Planned} {pending : List Event}

/-- The fault of an outcome. -/
def faultOf : Except ε α → Option ε
  | .ok _ => none
  | .error e => some e

/-- The tools report nothing of their own when they do what is planned, they maintain a property of
the world, and as long as it holds they tell whether a directory holds an entry. -/
structure Tools.Suits (t : Tools σ) (I : σ → Prop) (plan : List Planned) : Prop where
  quiet : ∀ e ∈ plan, ∀ r, (t.removal e r).2.journal = r.journal
  maintains : ∀ e ∈ plan, Maintains I (t.removal e)
  asks : ∀ e ∈ plan, e.stage = .emptyDirs → ∀ r, I r.world →
    ∃ holds, t.holdsEntry e.path r = (.ok holds, r)

theorem Tools.Suits.mono (h : t.Suits I plan) (hsub : ∀ e ∈ plan', e ∈ plan) :
    t.Suits I plan' where
  quiet e he := h.quiet e (hsub e he)
  maintains e he := h.maintains e (hsub e he)
  asks e he := h.asks e (hsub e he)

/-- From a run on, a plan was carried out. After the pending reports there is a report of what came
of each call, and the outcome is a fault as far as the last call ended the work. -/
def TracedFrom (I : σ → Prop) (pending : List Event) (plan : List Planned) (r : Run (Observed σ))
    (ended : Except RunFault α × Run (Observed σ)) : Prop :=
  I ended.2.world.world ∧ ∃ made : List (PlannedCall σ),
    ended.2.world.calls = r.world.calls ++ made.map PlannedCall.call ∧
      removalsIn ended.2.journal =
        removalsIn r.journal ++ pending ++ made.flatMap PlannedCall.events ∧
      CarriedOut plan made (faultOf ended.1)

/-- Work that carries out a plan in every world with a property. -/
def Traced (I : σ → Prop) (pending : List Event) (plan : List Planned)
    (work : Action RunFault (Observed σ) α) : Prop :=
  ∀ r, I r.world.world → TracedFrom I pending plan r (work r)

/-- The run after a call. -/
def Run.afterCall (r : Run (Observed σ)) (c : Call σ) : Run (Observed σ) :=
  { r with world := ⟨c.after, r.world.calls ++ [c]⟩ }

namespace TracedFrom

variable {r : Run (Observed σ)} {ended : Except RunFault α × Run (Observed σ)}
  {c : PlannedCall σ}

theorem passed (hpassed : c.call.fatal? = none)
    (h : TracedFrom I c.events rest (r.afterCall c.call) ended) :
    TracedFrom I [] (c.planned :: rest) r ended := by
  obtain ⟨hworld, made, hcalls, hreports, hcarried⟩ := h
  refine ⟨hworld, c :: made, ?_, ?_, .passed c hpassed hcarried⟩
  · rw [hcalls, List.map_cons, Run.afterCall, List.append_assoc, List.singleton_append]
  · rw [hreports, List.flatMap_cons, List.append_nil, List.append_assoc]
    rfl

theorem stopped {fault : Fault} (hfatal : c.call.fatal? = some fault) (hworld : I c.call.after) :
    TracedFrom I [] (c.planned :: rest) r
      ((.error (RunFault.inStage c.planned.stage fault) : Except RunFault α),
        r.afterCall c.call) := by
  refine ⟨hworld, [c], ?_, ?_, .stopped c hfatal⟩
  · rfl
  · simp [PlannedCall.events_of_fatal? hfatal, Run.afterCall]

end TracedFrom

namespace Traced

variable {work : Action RunFault (Observed σ) α} {next : α → Action RunFault (Observed σ) β}

theorem pure (x : α) : Traced I [] [] (Pure.pure x : Action RunFault (Observed σ) α) := by
  intro r hr
  exact ⟨hr, [], by simp [Action.pure_run], by simp [Action.pure_run], .done⟩

theorem bind (h : Traced I pending plan work) (hnext : ∀ x, Traced I [] plan' (next x)) :
    Traced I pending (plan ++ plan') (work >>= next) := by
  intro r hr
  obtain ⟨hr', made, hcalls, hreports, hcarried⟩ := h r hr
  rcases hwork : work r with ⟨fault | x, r'⟩
  · rw [hwork] at hr' hcalls hreports hcarried
    rw [Action.bind_run_error hwork]
    exact ⟨hr', made, hcalls, hreports, hcarried.append_of_stopped plan'⟩
  · rw [hwork] at hr' hcalls hreports hcarried
    rw [Action.bind_run_ok hwork]
    obtain ⟨hend, made', hcalls', hreports', hcarried'⟩ := hnext x r' hr'
    refine ⟨hend, made ++ made', ?_, ?_, hcarried.append hcarried'⟩
    · rw [hcalls', hcalls, List.map_append, List.append_assoc]
    · rw [hreports', hreports, List.flatMap_append, List.append_nil, List.append_assoc]

theorem map (h : Traced I pending plan work) (g : α → β) :
    Traced I pending plan (work >>= fun x => Pure.pure (g x)) := by
  have hbind : Traced I pending (plan ++ []) (work >>= fun x => Pure.pure (g x)) :=
    h.bind fun x => pure (g x)
  rwa [List.append_nil] at hbind

theorem note {next : Unit → Action RunFault (Observed σ) α} (source : Source) (event : Event)
    (h : Traced I pending plan (next ())) :
    Traced I ([event].filter (fun e => e.callPath?.isSome) ++ pending) plan
      (Action.note source event >>= next) := by
  intro r hr
  obtain ⟨hr', made, hcalls, hreports, hcarried⟩ :=
    h ⟨r.world, r.journal ++ [⟨source, event⟩]⟩ hr
  rw [Action.note_bind_run]
  refine ⟨hr', made, hcalls, ?_, hcarried⟩
  rw [hreports, removalsIn_append]
  simp only [removalsIn, List.map_cons, List.map_nil, List.append_assoc]

theorem note_quiet {next : Unit → Action RunFault (Observed σ) α} {event : Event} (source : Source)
    (hevent : event.callPath? = none) (h : Traced I pending plan (next ())) :
    Traced I pending plan (Action.note source event >>= next) := by
  have hnote := note source event h
  rwa [List.filter_cons_of_neg (by simp [hevent])] at hnote

theorem note_removal {next : Unit → Action RunFault (Observed σ) α} {event : Event} {p : Path}
    (source : Source) (hevent : event.callPath? = some p) (h : Traced I [] plan (next ())) :
    Traced I [event] plan (Action.note source event >>= next) := by
  have hnote := note source event h
  rwa [List.filter_cons_of_pos (by simp [hevent])] at hnote

/-- A call is made, and the work that follows starts with the report of it. -/
theorem call {e : Planned} (h : t.Suits I [e])
    {next : Bool → Action RunFault (Observed σ) α}
    (hnext : ∀ present, Traced I (if present then [e.removedEvent] else e.missingEvents) rest
      (next present)) :
    Traced I [] (e :: rest) (Action.mapError (RunFault.inStage e.stage)
      (Action.unlessMissing (t.observed.remover e.stage.remover e.path)) >>= next) := by
  intro r hr
  have hquiet := h.quiet e List.mem_cons_self ⟨r.world.world, r.journal⟩
  have hworld := h.maintains e List.mem_cons_self ⟨r.world.world, r.journal⟩ hr
  rw [t.removal_eq] at hquiet hworld
  rcases hremove : t.remover e.stage.remover e.path ⟨r.world.world, r.journal⟩ with
    ⟨outcome, w, journal⟩
  rw [hremove] at hquiet hworld
  obtain rfl : journal = r.journal := hquiet
  let c : PlannedCall σ := ⟨e, ⟨e.stage.remover, e.path, r.world.world, outcome, w⟩, rfl, rfl⟩
  have hcall : t.observed.remover e.stage.remover e.path r = (outcome, r.afterCall c.call) := by
    rw [t.remover_observed, observing, hremove]
    rfl
  cases outcome with
  | ok _ =>
    rw [Action.bind_run_ok (Action.mapError_run (Action.unlessMissing_run_ok hcall))]
    have hpassed : c.call.fatal? = none := rfl
    exact TracedFrom.passed hpassed (hnext true _ hworld)
  | error fault =>
    have hrun := Action.unlessMissing_run_error hcall
    cases hmissing : fault.isMissing with
    | true =>
      rw [hmissing, if_pos rfl] at hrun
      rw [Action.bind_run_ok (Action.mapError_run hrun)]
      -- a fault of a missing path is reported, and the work goes on
      have hpassed : c.call.fatal? = none := if_pos hmissing
      have hevents : c.events = e.missingEvents := if_pos hmissing
      have hrest := hnext false (r.afterCall c.call) hworld
      rw [if_neg Bool.false_ne_true, ← hevents] at hrest
      exact TracedFrom.passed hpassed hrest
    | false =>
      rw [hmissing, if_neg Bool.false_ne_true] at hrun
      rw [Action.bind_run_error (Action.mapError_run hrun)]
      have hfatal : c.call.fatal? = some fault := if_neg (by simp [hmissing])
      exact TracedFrom.stopped hfatal hworld

end Traced

/-! ### Steps -/

theorem attempt_traced {e : Planned} (h : t.Suits I [e])
    {next : Bool → Action RunFault (Observed σ) α}
    (hremoved : Traced I [e.removedEvent] rest (next true))
    (hmissing : Traced I e.missingEvents rest (next false))
    (hleft : e.stage = .emptyDirs → Traced I [] rest (next false)) :
    Traced I [] (e :: rest)
      (Action.mapError (RunFault.inStage e.stage) (t.observed.attempt e) >>= next) := by
  have hcall : Traced I [] (e :: rest) (Action.mapError (RunFault.inStage e.stage)
      (Action.unlessMissing (t.observed.removal e)) >>= next) := by
    rw [Tools.removal_eq]
    refine Traced.call h fun present => ?_
    cases present with
    | true => exact hremoved
    | false => exact hmissing
  unfold Tools.attempt
  split
  · rename_i hsweep
    intro r hr
    obtain ⟨holds, hasked⟩ := h.asks e List.mem_cons_self hsweep ⟨r.world.world, r.journal⟩ hr
    have hask : t.observed.holdsEntry e.path r = (.ok holds, r) := by
      show (t.holdsEntry e.path).unobserved r = _
      rw [Action.unobserved, hasked]
    rw [Action.mapError_bind, bind_assoc, Action.bind_run_ok (Action.mapError_run hask)]
    cases holds with
    | true =>
      obtain ⟨hworld, made, hcalls, hreports, hcarried⟩ := hleft hsweep r hr
      exact ⟨hworld, made, hcalls, hreports, .left hsweep hcarried⟩
    | false => exact hcall r hr
  · exact hcall

/-- Steps that report no removal of their own carry out what they plan. -/
theorem runSteps_traced {steps : List RunStep} (source : Source)
    (hsteps : ∀ event, .report event ∈ steps → event.callPath? = none)
    (h : t.Suits I (plannedIn steps)) : Traced I [] (plannedIn steps)
      (t.observed.runSteps source RunFault.inStage steps) := by
  induction steps with
  | nil => exact .pure []
  | cons step rest ih =>
    have hrest := ih fun event hevent => hsteps event (List.mem_cons_of_mem _ hevent)
    cases step with
    | report event => exact Traced.note_quiet source (hsteps event List.mem_cons_self) (hrest h)
    | removal e =>
      have hlater := hrest (h.mono fun e he => List.mem_cons_of_mem _ he)
      have hfirst : t.Suits I [e] := h.mono fun e' he' =>
        List.mem_cons.2 (.inl (List.mem_singleton.1 he'))
      refine attempt_traced hfirst ?_ ?_ fun hsweep => ?_
      · exact Traced.note_removal source e.callPath?_removedEvent (hlater.map (e.path :: ·))
      · rw [if_neg Bool.false_ne_true, Planned.missingEvents]
        split
        · exact hlater
        · exact Traced.note_removal source rfl hlater
      · rw [if_neg Bool.false_ne_true, if_pos hsweep]
        exact hlater

/-- The reports that a run makes of its own are of no removal. -/
theorem callPath?_of_mem_steps {l : Listing} {find : Listing → List Path} {rule : PreservationRule}
    {used : List String} {policies : PolicySet} {event : Event}
    (h : .report event ∈ l.steps find rule used policies) : event.callPath? = none := by
  have hstage : ∀ {chosen : Bool} {stage : Stage} {planned : Event} {paths : List Path},
      planned.callPath? = none → .report event ∈ stageSteps chosen stage planned paths →
        event.callPath? = none := by
    intro chosen stage planned paths hplanned hmem
    unfold stageSteps removalSteps at hmem
    split at hmem
    · have hcases : event = .stageStarted stage ∨ event = planned := by simpa using hmem
      rcases hcases with rfl | rfl
      · rfl
      · exact hplanned
    · cases hmem
  simp only [Listing.steps, removalSteps, List.mem_cons, List.mem_append, List.mem_map,
    RunStep.report.injEq, reduceCtorEq, and_false, exists_false, or_false] at h
  rcases h with rfl | h | h | h | h | rfl
  · rfl
  · exact hstage rfl h
  · exact hstage rfl h
  · exact hstage rfl h
  · exact hstage rfl h
  · rfl

/-- A run on a listing carries out its plan. -/
theorem pruneListing_traced {l : Listing} {used : List String} {policies : PolicySet}
    (h : t.Suits I (l.plan t.findVendors t.rule used policies)) :
    Traced I [] (l.plan t.findVendors t.rule used policies)
      (t.observed.pruneListing l used policies) := by
  rw [← plannedIn_steps] at h ⊢
  rw [t.observed.pruneListing_eq_runSteps, ← List.append_nil (plannedIn _)]
  exact (runSteps_traced .engine (fun _ => callPath?_of_mem_steps) h).bind fun removed =>
    Traced.note_quiet .engine rfl (.pure _)

end Traces

end VendorTree
