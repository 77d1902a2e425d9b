import VendorTree.Proofs.Losses
import VendorTree.Proofs.PlannedRuns

/-!
# Runs and their calls

A run is observed by noting each call of its removers together with the world before and after it.
An observed run does what the run does, its calls lead from one world to the next, each of them is a
planned one, and what the run reports as removed are the paths whose calls went through.
-/

namespace VendorTree

open VendorTree.Action (Maintains)

/-- A call of a remover, the world in which it is made, what comes of it, and the world after it. -/
structure Call (σ : Type) where
  kind : RemoverKind
  path : Path
  before : σ
  outcome : Except Fault Unit
  after : σ

def Call.done {σ : Type} (c : Call σ) : Bool := c.outcome.isOk

/-- The paths whose calls went through, in the order of the calls. -/
def removedBy {σ : Type} (calls : List (Call σ)) : List Path :=
  (calls.filter Call.done).map Call.path

/-- A world and the calls of removers so far, oldest first. -/
structure Observed (σ : Type) where
  world : σ
  calls : List (Call σ)

/-- The same work on an observed world; it makes no calls of its own. -/
def Action.unobserved {ε σ α : Type} (a : Action ε σ α) : Action ε (Observed σ) α := fun r =>
  match a ⟨r.world.world, r.journal⟩ with
  | (x, r') => (x, ⟨⟨r'.world, r.world.calls⟩, r'.journal⟩)

def observing {σ : Type} (kind : RemoverKind) (remove : Remover σ) : Remover (Observed σ) :=
  fun p r =>
    match remove p ⟨r.world.world, r.journal⟩ with
    | (x, r') => (x, ⟨⟨r'.world, r.world.calls ++ [⟨kind, p, r.world.world, x, r'.world⟩]⟩,
        r'.journal⟩)

namespace Tools

variable {σ : Type}

def observed (t : Tools σ) : Tools (Observed σ) where
  snapshot root := (t.snapshot root).unobserved
  findVendors := t.findVendors
  remove := observing .entry t.remove
  removeTree := observing .tree t.removeTree
  holdsEntry p := (t.holdsEntry p).unobserved
  rule := t.rule

theorem remover_observed (t : Tools σ) (kind : RemoverKind) :
    t.observed.remover kind = observing kind (t.remover kind) := by
  cases kind <;> rfl

end Tools

/-! ### What is observed is the run -/

section Shows

variable {ε σ α β : Type}

/-- The observed work does what the work does, and reports the same. -/
def Shows (a : Action ε (Observed σ) α) (b : Action ε σ α) : Prop :=
  ∀ r, b ⟨r.world.world, r.journal⟩ = ((a r).1, ⟨(a r).2.world.world, (a r).2.journal⟩)

namespace Shows

variable {a : Action ε (Observed σ) α} {b : Action ε σ α}

theorem pure (x : α) : Shows (Pure.pure x : Action ε (Observed σ) α) (Pure.pure x) := fun _ => rfl

theorem note (source : Source) (event : Event) :
    Shows (Action.note source event : Action ε (Observed σ) Unit) (Action.note source event) :=
  fun _ => rfl

theorem bind {f : α → Action ε (Observed σ) β} {g : α → Action ε σ β} (h : Shows a b)
    (hnext : ∀ x, Shows (f x) (g x)) : Shows (a >>= f) (b >>= g) := by
  intro r
  have hfirst := h r
  rcases ha : a r with ⟨e | x, r'⟩
  · rw [ha] at hfirst
    rw [Action.bind_run_error ha, Action.bind_run_error hfirst]
  · rw [ha] at hfirst
    rw [Action.bind_run_ok ha, Action.bind_run_ok hfirst]
    exact hnext x r'

theorem mapError {ε' : Type} (f : ε → ε') (h : Shows a b) :
    Shows (Action.mapError f a) (Action.mapError f b) := by
  intro r
  have hwork := h r
  rcases ha : a r with ⟨x, r'⟩
  rw [ha] at hwork
  rw [Action.mapError_run ha, Action.mapError_run hwork]

theorem unlessMissing {a : Action Fault (Observed σ) Unit} {b : Action Fault σ Unit}
    (h : Shows a b) : Shows (Action.unlessMissing a) (Action.unlessMissing b) := by
  intro r
  have hwork := h r
  rcases ha : a r with ⟨fault | _, r'⟩
  · rw [ha] at hwork
    rw [Action.unlessMissing_run_error ha, Action.unlessMissing_run_error hwork]
    split <;> rfl
  · rw [ha] at hwork
    rw [Action.unlessMissing_run_ok ha, Action.unlessMissing_run_ok hwork]

theorem unobserved (a : Action ε σ α) : Shows a.unobserved a := fun _ => rfl

theorem observing (kind : RemoverKind) (remove : Remover σ) (p : Path) :
    Shows (observing kind remove p) (remove p) := fun _ => rfl

end Shows

variable (t : Tools σ)

theorem attempt_shows (e : Planned) : Shows (t.observed.attempt e) (t.attempt e) := by
  have hremoval : Shows (t.observed.removal e) (t.removal e) := by
    rw [Tools.removal_eq, Tools.removal_eq, Tools.remover_observed]
    exact .observing _ _ _
  unfold Tools.attempt
  split
  · refine (Shows.unobserved (t.holdsEntry e.path)).bind fun holds => ?_
    cases holds with
    | true => exact .pure false
    | false => exact hremoval.unlessMissing
  · exact hremoval.unlessMissing

theorem runSteps_shows (source : Source) (see : Stage → Fault → ε) (steps : List RunStep) :
    Shows (t.observed.runSteps source see steps) (t.runSteps source see steps) := by
  induction steps with
  | nil => exact .pure []
  | cons step rest ih =>
    cases step with
    | report event => exact (Shows.note _ _).bind fun _ => ih
    | removal e =>
      refine ((attempt_shows t e).mapError _).bind fun gone => ?_
      cases gone with
      | true => exact (Shows.note _ _).bind fun _ => ih.bind fun _ => .pure _
      | false =>
        rw [if_neg Bool.false_ne_true, if_neg Bool.false_ne_true]
        split
        · exact ih
        · exact (Shows.note _ _).bind fun _ => ih

theorem sweep_shows (source : Source) (paths : List Path) :
    Shows (sweep source t.observed.holdsEntry t.observed.remove paths)
      (sweep source t.holdsEntry t.remove paths) := by
  rw [t.sweep_eq_runSteps, t.observed.sweep_eq_runSteps]
  exact runSteps_shows t source _ _

/-- An observed run is the run, with what it comes to, the world it leaves and its reports. -/
theorem prune_shows (root : Path) (used : List String) (policies : PolicySet) :
    Shows (t.observed.prune root used policies) (t.prune root used policies) := by
  refine (Shows.unobserved (t.snapshot root)).bind fun l => ?_
  rw [t.pruneListing_eq_runSteps, t.observed.pruneListing_eq_runSteps]
  exact (runSteps_shows t _ _ _).bind fun _ => (Shows.note _ _).bind fun _ => .pure _

theorem prune_observed (root : Path) (used : List String) (policies : PolicySet) (w : σ)
    (journal : List Record) :
    (t.observed.prune root used policies ⟨⟨w, []⟩, journal⟩).1 =
        (t.prune root used policies ⟨w, journal⟩).1 ∧
      (t.observed.prune root used policies ⟨⟨w, []⟩, journal⟩).2.world.world =
        (t.prune root used policies ⟨w, journal⟩).2.world := by
  have hshows : t.prune root used policies ⟨w, journal⟩ = _ :=
    prune_shows t root used policies ⟨⟨w, []⟩, journal⟩
  rw [hshows]
  exact ⟨rfl, rfl⟩

end Shows

/-! ### The calls of a run -/

section Calls

variable {ε σ α β : Type} {t : Tools σ} {w w' : σ} {calls : List (Call σ)} {plan : List Planned}

/-- The calls lead from the first world to the last one: each is made where the one before it left
off, and nothing else changes the world. -/
def Linked : σ → List (Call σ) → σ → Prop
  | w, [], w' => w = w'
  | w, c :: rest, w' => c.before = w ∧ Linked c.after rest w'

theorem Linked.concat {c : Call σ} (h : Linked w calls w') (hc : c.before = w') :
    Linked w (calls ++ [c]) c.after := by
  induction calls generalizing w with
  | nil =>
    have hw : w = w' := h
    exact ⟨hc.trans hw.symm, rfl⟩
  | cons first rest ih => exact ⟨h.1, ih h.2⟩

def Call.MadeBy (c : Call σ) (t : Tools σ) : Prop :=
  ∃ journal journal', t.remover c.kind c.path ⟨c.before, journal⟩ = (c.outcome, ⟨c.after, journal'⟩)

/-- The calls so far lead from the first world to the present one, and each of them was planned and
made by the tools. -/
structure Recorded (t : Tools σ) (plan : List Planned) (w : σ) (o : Observed σ) : Prop where
  linked : Linked w o.calls o.world
  made : ∀ c ∈ o.calls, c.MadeBy t
  planned : ∀ c ∈ o.calls, ∃ e ∈ plan, c.kind = e.stage.remover ∧ c.path = e.path

theorem Recorded.start (t : Tools σ) (plan : List Planned) (w : σ) :
    Recorded t plan w ⟨w, []⟩ where
  linked := rfl
  made := by simp
  planned := by simp

theorem removal_records {e : Planned} (he : e ∈ plan) :
    Maintains (Recorded t plan w) (t.observed.removal e) := by
  intro r hr
  rw [Tools.removal_eq, Tools.remover_observed]
  rcases hcall : t.remover e.stage.remover e.path ⟨r.world.world, r.journal⟩ with ⟨x, r'⟩
  have hrun : observing e.stage.remover (t.remover e.stage.remover) e.path r =
      (x, ⟨⟨r'.world, r.world.calls ++ [⟨e.stage.remover, e.path, r.world.world, x, r'.world⟩]⟩,
        r'.journal⟩) := by
    unfold observing
    rw [hcall]
  rw [hrun]
  refine ⟨hr.linked.concat (c := ⟨_, _, _, _, _⟩) rfl, ?_, ?_⟩
  · intro c hc
    rcases List.mem_append.1 hc with hc | hc
    · exact hr.made c hc
    · rw [List.mem_singleton.1 hc]
      exact ⟨r.journal, r'.journal, hcall⟩
  · intro c hc
    rcases List.mem_append.1 hc with hc | hc
    · exact hr.planned c hc
    · rw [List.mem_singleton.1 hc]
      exact ⟨e, he, rfl, rfl⟩

theorem unobserved_records {a : Action ε σ α} (h : ∀ v, Maintains (· = v) a) :
    Maintains (Recorded t plan w) a.unobserved := by
  intro r hr
  have hsame := h r.world.world ⟨r.world.world, r.journal⟩ rfl
  have hworld : (a.unobserved r).2.world =
      ⟨(a ⟨r.world.world, r.journal⟩).2.world, r.world.calls⟩ := rfl
  rw [hworld, hsame]
  exact hr

theorem pruneListing_records {l : Listing} {used : List String} {policies : PolicySet}
    (hask : ∀ p v, Maintains (· = v) (t.holdsEntry p)) :
    Maintains (Recorded t (l.plan t.findVendors t.rule used policies) w)
      (t.observed.pruneListing l used policies) :=
  pruneListing_maintains (fun p => unobserved_records (hask p)) fun _ he => removal_records he

/-- The calls of a run are recorded, and all of them follow the plan for the listing that it
makes. -/
theorem prune_records (root : Path) (used : List String) (policies : PolicySet)
    (hlist : ∀ v, Maintains (· = v) (t.snapshot root))
    (hask : ∀ p v, Maintains (· = v) (t.holdsEntry p)) (w : σ) (journal : List Record) :
    ∃ plan, Recorded t plan w (t.observed.prune root used policies ⟨⟨w, []⟩, journal⟩).2.world ∧
      ∀ e ∈ plan, ∃ l r, t.snapshot root ⟨w, journal⟩ = (.ok l, r) ∧
        e ∈ l.plan t.findVendors t.rule used policies := by
  -- the listing makes no calls, so the record starts with it
  rcases hsnapshot : t.snapshot root ⟨w, journal⟩ with ⟨outcome, r⟩
  have hworld : r.world = w := by
    rw [← congrArg (fun x => x.2.world) hsnapshot]
    exact hlist w ⟨w, journal⟩ rfl
  have hobserved : t.observed.snapshot root ⟨⟨w, []⟩, journal⟩ =
      (outcome, ⟨⟨w, []⟩, r.journal⟩) := by
    show (t.snapshot root).unobserved ⟨⟨w, []⟩, journal⟩ = _
    unfold Action.unobserved
    rw [hsnapshot, ← hworld]
  cases outcome with
  | error fault =>
    refine ⟨[], ?_, by simp⟩
    have hrun : t.observed.prune root used policies ⟨⟨w, []⟩, journal⟩ =
        (.error fault, ⟨⟨w, []⟩, r.journal⟩) := Action.bind_run_error hobserved
    rw [hrun]
    exact Recorded.start t [] w
  | ok l =>
    refine ⟨l.plan t.findVendors t.rule used policies, ?_, fun e he => ⟨l, r, rfl, he⟩⟩
    rw [Tools.prune_run hobserved]
    exact pruneListing_records hask ⟨⟨w, []⟩, r.journal⟩ (Recorded.start t _ w)

/-! ### What a run reports -/

/-- Where the paths removed so far are the given ones, a value of the work tells which ones they are
after it. -/
def Reports (before : List Path) (after : α → List Path) (work : Action ε (Observed σ) α) : Prop :=
  ∀ r x r', removedBy r.world.calls = before → work r = (.ok x, r') →
    removedBy r'.world.calls = after x

namespace Reports

variable {before : List Path} {after : α → List Path} {after' : β → List Path}
  {work : Action ε (Observed σ) α} {next : α → Action ε (Observed σ) β}

theorem pure {x : α} (h : after x = before) :
    Reports before after (Pure.pure x : Action ε (Observed σ) α) := by
  intro r y r' hr hrun
  obtain ⟨hy, rfl⟩ := Prod.mk.inj hrun
  obtain rfl := Except.ok.inj hy
  exact hr.trans h.symm

theorem note {next : Unit → Action ε (Observed σ) α} (source : Source) (event : Event)
    (h : Reports before after (next ())) :
    Reports before after (Action.note source event >>= next) := by
  intro r x r' hr hrun
  rw [Action.note_bind_run] at hrun
  exact h ⟨r.world, r.journal ++ [⟨source, event⟩]⟩ x r' hr hrun

theorem bind (h : Reports before after work) (hnext : ∀ x, Reports (after x) after' (next x)) :
    Reports before after' (work >>= next) := by
  intro r y r' hr hrun
  obtain ⟨x, r₁, hwork, hrest⟩ := Action.exists_of_bind_ok hrun
  exact hnext x r₁ y r' (h r x r₁ hr hwork) hrest

theorem mapError {ε' : Type} (f : ε → ε') (h : Reports before after work) :
    Reports before after (Action.mapError f work) :=
  fun r x r' hr hrun => h r x r' hr (Action.run_of_mapError_ok hrun)

theorem unobserved {a : Action ε σ α} : Reports before (fun _ => before) a.unobserved := by
  intro r x r' hr hrun
  have hcalls : (a.unobserved r).2.world.calls = r.world.calls := rfl
  rw [hrun] at hcalls
  rw [hcalls, hr]

end Reports

theorem unlessMissing_reports {remove : Remover σ} (kind : RemoverKind) (p : Path)
    (before : List Path) : Reports before (fun present => before ++ if present then [p] else [])
      (Action.unlessMissing (observing kind remove p)) := by
  intro r x r' hr hrun
  rcases hremove : remove p ⟨r.world.world, r.journal⟩ with ⟨outcome, v, journal⟩
  have hcall : observing kind remove p r =
      (outcome, ⟨⟨v, r.world.calls ++ [⟨kind, p, r.world.world, outcome, v⟩]⟩, journal⟩) := by
    unfold observing
    rw [hremove]
  have hremoved : removedBy (r.world.calls ++ [⟨kind, p, r.world.world, outcome, v⟩]) =
      before ++ if outcome.isOk then [p] else [] := by
    rw [removedBy, List.filter_append, List.map_append, ← hr]
    cases outcome <;> rfl
  cases outcome with
  | ok _ =>
    rw [Action.unlessMissing_run_ok hcall] at hrun
    obtain ⟨hx, rfl⟩ := Prod.mk.inj hrun
    obtain rfl := Except.ok.inj hx
    exact hremoved
  | error fault =>
    rw [Action.unlessMissing_run_error hcall] at hrun
    split at hrun
    · obtain ⟨hx, rfl⟩ := Prod.mk.inj hrun
      obtain rfl := Except.ok.inj hx
      exact hremoved
    · simp at hrun

theorem attempt_reports (t : Tools σ) (e : Planned) (before : List Path) :
    Reports before (fun gone => before ++ if gone then [e.path] else [])
      (t.observed.attempt e) := by
  have hremoval : Reports before (fun gone => before ++ if gone then [e.path] else [])
      (Action.unlessMissing (t.observed.removal e)) := by
    rw [Tools.removal_eq, Tools.remover_observed]
    exact unlessMissing_reports e.stage.remover e.path before
  unfold Tools.attempt
  split
  · refine Reports.unobserved.bind fun holds => ?_
    cases holds with
    | true => exact Reports.pure (List.append_nil before)
    | false => exact hremoval
  · exact hremoval

theorem runSteps_reports (t : Tools σ) (source : Source) (see : Stage → Fault → ε)
    (steps : List RunStep) (before : List Path) :
    Reports before (before ++ ·) (t.observed.runSteps source see steps) := by
  induction steps generalizing before with
  | nil => exact Reports.pure (List.append_nil before)
  | cons step rest ih =>
    cases step with
    | report event => exact Reports.note _ _ (ih before)
    | removal e =>
      refine ((attempt_reports t e before).mapError _).bind fun gone => ?_
      have hrest := ih (before ++ if gone then [e.path] else [])
      cases gone with
      | true => exact Reports.note _ _ (hrest.bind fun removed => Reports.pure (by simp))
      | false =>
        rw [if_neg Bool.false_ne_true, List.append_nil] at hrest ⊢
        rw [if_neg Bool.false_ne_true]
        split
        · exact hrest
        · exact Reports.note _ _ hrest

theorem sweep_reports (t : Tools σ) (source : Source) (paths before : List Path) :
    Reports before (before ++ ·) (sweep source t.observed.holdsEntry t.observed.remove paths) := by
  rw [t.observed.sweep_eq_runSteps]
  exact runSteps_reports t source _ _ before

theorem prune_reports (t : Tools σ) (root : Path) (used : List String) (policies : PolicySet) :
    Reports [] RunResult.removed (t.observed.prune root used policies) := by
  refine Reports.unobserved.bind fun l => ?_
  rw [t.observed.pruneListing_eq_runSteps]
  exact (runSteps_reports t .engine _ _ []).bind fun removed => Reports.note _ _ (Reports.pure rfl)

end Calls

/-! ### Runs on a file system -/

section Disk

def FileSystem.removeBy (fs : FileSystem) : RemoverKind → Path → Except Fault Unit × FileSystem
  | .entry, p => match fs.removePath p with
    | .ok fs' => (.ok (), fs')
    | .error fault => (.error fault, fs)
  | .tree, p => fs.removeTree p

theorem FileSystem.removeBy_entry_loses (fs : FileSystem) (p : Path) :
    LosesOnly fs (fs.Reaches p) (fs.removeBy .entry p).2 := by
  cases h : fs.removePath p with
  | error fault => simpa only [removeBy, h] using LosesOnly.refl fs (fs.Reaches p)
  | ok fs' => simpa only [removeBy, h] using (removePath_erases h).loses

/-- A call that was made on a file system fails before it does anything, or it does what it is to
do. -/
theorem Call.MadeBy.cases {c : Call FileSystem} {faults : List (String × Fault)}
    {rule : PreservationRule} (h : c.MadeBy (diskTools faults rule)) :
    (c.done = false ∧ c.after = c.before) ∨
      c.before.removeBy c.kind c.path = (c.outcome, c.after) := by
  obtain ⟨journal, journal', hcall⟩ := h
  have hran : ∀ {remove : Remover FileSystem},
      failingOn faults remove c.path ⟨c.before, journal⟩ = (c.outcome, ⟨c.after, journal'⟩) →
        (c.done = false ∧ c.after = c.before) ∨
          remove c.path ⟨c.before, journal⟩ = (c.outcome, ⟨c.after, journal'⟩) := by
    intro remove hfailing
    rcases failingOn_run faults remove c.path ⟨c.before, journal⟩ with ⟨fault, hfails⟩ | hsame
    · obtain ⟨houtcome, hrun⟩ := Prod.mk.inj (hfails.symm.trans hfailing)
      obtain ⟨hafter, -⟩ := Run.mk.inj hrun
      exact .inl ⟨by rw [Call.done, ← houtcome]; rfl, hafter.symm⟩
    · exact .inr (hsame.symm.trans hfailing)
  cases hkind : c.kind with
  | entry =>
    rw [hkind] at hcall
    refine (hran hcall).imp_right fun hremove => ?_
    rw [diskRemove_run] at hremove
    unfold FileSystem.removeBy
    cases h : c.before.removePath c.path <;> simp_all
  | tree =>
    rw [hkind] at hcall
    refine (hran hcall).imp_right fun hremove => ?_
    obtain ⟨houtcome, hrun⟩ := Prod.mk.inj hremove
    obtain ⟨hafter, -⟩ := Run.mk.inj hrun
    exact Prod.ext houtcome hafter

/-- A call on a path that a fault is given for does not go through. -/
theorem Call.MadeBy.not_done {c : Call FileSystem} {faults : List (String × Fault)} {fault : Fault}
    {rule : PreservationRule} (h : c.MadeBy (diskTools faults rule))
    (hfault : faults.lookup c.path.text = some fault) : c.done = false := by
  obtain ⟨journal, journal', hcall⟩ := h
  have hfails (remove : Remover FileSystem) :
      failingOn faults remove c.path ⟨c.before, journal⟩ = (.error fault, ⟨c.before, journal⟩) := by
    simp only [failingOn, hfault]
    rfl
  have houtcome : .error fault = c.outcome := by
    cases hkind : c.kind with
    | entry => exact (Prod.mk.inj ((hfails _).symm.trans (hkind ▸ hcall))).1
    | tree => exact (Prod.mk.inj ((hfails _).symm.trans (hkind ▸ hcall))).1
  rw [Call.done, ← houtcome]
  rfl

end Disk

end VendorTree
