import Mathlib.Data.List.Basic
import VendorTree.Proofs.CarriedOut
import VendorTree.Proofs.RunEnds
import VendorTree.Proofs.StaleListings

/-!
# The journal of a run

After a run has stopped at a fault, its journal is the only account of what was removed. It names
exactly the paths whose removal went through, one by one and in order, and it does not name the path
at which the run stopped.
-/

namespace VendorTree

open VendorTree.Action (Maintains)

variable {ε σ α β : Type}

/-! ### Listings report no removals -/

/-- Work that reports no removals. -/
def Quietly (work : Action ε σ α) : Prop :=
  ∀ r, removalsIn (work r).2.journal = removalsIn r.journal

namespace Quietly

variable {work : Action ε σ α} {next : α → Action ε σ β}

theorem pure (x : α) : Quietly (Pure.pure x : Action ε σ α) := fun _ => rfl

theorem fail (e : ε) : Quietly (Action.fail e : Action ε σ α) := fun _ => rfl

theorem query (f : σ → Except ε α) : Quietly (Action.query f) := fun _ => rfl

theorem note {source : Source} {event : Event} (h : event.callPath? = none) :
    Quietly (Action.note source event : Action ε σ Unit) := by
  intro r
  have hnone : removalsIn [⟨source, event⟩] = [] := by simp [removalsIn, h]
  show removalsIn (r.journal ++ [⟨source, event⟩]) = _
  rw [removalsIn_append, hnone, List.append_nil]

theorem mapError {ε' : Type} (f : ε → ε') (h : Quietly work) :
    Quietly (Action.mapError f work) := by
  intro r
  have hwork := h r
  rcases hrun : work r with ⟨x, r'⟩
  rw [hrun] at hwork
  rwa [Action.mapError_run hrun]

theorem bind (h : Quietly work) (hnext : ∀ x, Quietly (next x)) : Quietly (work >>= next) := by
  intro r
  have hwork := h r
  rcases hrun : work r with ⟨e | x, r'⟩
  · rw [hrun] at hwork
    rwa [Action.bind_run_error hrun]
  · rw [hrun] at hwork
    rw [Action.bind_run_ok hrun]
    exact (hnext x r').trans hwork

end Quietly

theorem noteLinks_quietly (root : Path) (texts : List String) : Quietly (noteLinks root texts) := by
  induction texts with
  | nil => exact .pure ()
  | cons t rest ih => exact (Quietly.note rfl).bind fun _ => ih

theorem visitAll_quietly (root : Path) (visited : List (List String)) :
    Quietly (visitAll root visited) := by
  induction visited with
  | nil => exact .pure _
  | cons names rest ih =>
    exact ((Quietly.query _).mapError _).bind fun view => (noteLinks_quietly root _).bind fun _ =>
      ih.bind fun l => .pure _

theorem diskSnapshot_quietly (path : Path) : Quietly (diskSnapshot path) := by
  refine ((Quietly.query _).mapError _).bind fun root => ?_
  refine ((Quietly.query _).mapError _).bind fun isDir => ?_
  cases isDir with
  | false => exact .fail _
  | true =>
    refine ((Quietly.query _).mapError _).bind fun key => (Quietly.query _).bind fun below => ?_
    exact (visitAll_quietly root _).bind fun l => (Quietly.note rfl).bind fun _ => .pure l

/-! ### Questions of the sweep -/

section Disk

variable {fs fs' : FileSystem} {root p : Path} {l : Listing} {journal : List Record}
  {r : Run FileSystem} {rule : PreservationRule} {faults : List (String × Fault)}
  {used : List String} {policies : PolicySet}

/-- Entries were lost at most, and the same paths are refused. -/
structure Dwindled (fs fs' : FileSystem) : Prop where
  within : fs'.store.Within fs.store
  refused : fs'.refused = fs.refused

/-- As long as entries are lost at most, a path under which a directory was opened opens one, or
leads nowhere. -/
theorem Dwindled.holdsEntry (h : Dwindled fs fs') (habs : p.isAbsolute = true) {key : Option Key}
    (hopen : fs.openDirectory p = .ok key) : ∃ holds, fs'.holdsEntry p = .ok holds := by
  obtain ⟨htext, hleads, hdir⟩ := FileSystem.openDirectory_ok hopen
  have hlisted : p.text ∉ fs'.refused := by
    rw [h.refused]
    exact (FileSystem.entryAt_of_openDirectory hopen).1
  -- a walk in what is left comes to the same place or is lost on the way
  have hentry : fs'.entryAt true p = refuse p .notFound ∨
      ∃ key, fs'.entryAt true p = .ok (some key, .directory) := by
    rw [FileSystem.start_of_absolute fs habs, Store.walkFrom_of_notLost] at hleads
    have hstart : fs'.store.walkFrom true (fs'.start p) p.steps =
        fs'.store.walk true Store.linkLimit [] p.steps := by
      rw [FileSystem.start_of_absolute fs' habs, Store.walkFrom_of_notLost]
    rcases Store.walk_within_cases h.within Store.linkLimit [] p.steps with hnowhere | hsame
    · rw [← hstart] at hnowhere
      exact .inl (FileSystem.entryAt_of_leadsNowhere htext hnowhere)
    · rw [← hstart, hleads] at hsame
      cases key with
      | none => exact absurd hleads (Store.walk_ne_lost _ _ _ _)
      | some key =>
        cases hnode : fs'.store.get? key with
        | none =>
          refine .inl ?_
          rw [FileSystem.entryAt, FileSystem.locate, htext, hsame]
          simp only [Option.elim_some, bind, Except.bind, hnode]
        | some node =>
          have hbefore := h.within key node hnode
          rw [hdir key rfl] at hbefore
          obtain rfl := Option.some.inj hbefore
          exact .inr ⟨key, FileSystem.entryAt_of_walk htext hsame hnode⟩
  rcases hentry with hgone | ⟨key, hfound⟩
  · exact ⟨false, FileSystem.holdsEntry_of_missing hlisted hgone⟩
  · exact ⟨_, FileSystem.holdsEntry_of_entryAt hlisted hfound⟩

/-- A directory that is listed was opened under its path. -/
theorem openDirectory_of_mem_dirPaths (h : diskSnapshot root ⟨fs, journal⟩ = (.ok l, r)) :
    ∀ p ∈ l.dirPaths, ∃ key, fs.openDirectory p = .ok key := by
  intro p hp
  obtain ⟨d, hd, rfl⟩ := List.mem_map.1 hp
  obtain ⟨-, habs, hdescribed⟩ := diskSnapshot_ok h
  rcases hdescribed with ⟨base, hopen, hl⟩ | ⟨-, hnone⟩
  · obtain ⟨names, node, hne, hn, hkind, rfl⟩ := (hl .directory d).1 hd
    have hdir : fs.store.get? (base ++ names) = some .directory := by
      obtain ⟨node', hn', hsame⟩ := FileSystem.exists_of_get?_asListed hn
      cases node with
      | directory => simpa [Node.kind, hn'] using hsame
      | file contents => cases hkind
      | link target => cases hkind
    rcases diskSnapshot_ends_of_open habs hopen journal with ⟨l', run, -, hall⟩ |
      ⟨_, _, _, -, -, hfails⟩
    · exact hall names hdir
    · rw [h] at hfails
      cases hfails
  · have hempty : l.dirs = [] := hnone .directory
    rw [hempty] at hd
    cases hd

theorem absolute_of_mem_plan (h : diskSnapshot root ⟨fs, journal⟩ = (.ok l, r)) :
    ∀ e ∈ l.plan Listing.nestedVendors rule used policies, e.path.isAbsolute = true := by
  intro e he
  obtain ⟨-, habs, hdescribed⟩ := diskSnapshot_ok h
  rcases hdescribed with ⟨base, -, hl⟩ | ⟨-, hnone⟩
  · obtain ⟨names, node, -, -, hpath⟩ := exists_names_of_mem_plan hl he rfl
    have hroot : l.root.isAbsolute = true := FileSystem.isAbsolute_of_absolute habs
    rwa [hpath]
  · rw [plan_of_empty hnone] at he
    cases he

theorem Dwindled.of_loses {touched : Key → Prop} {fs'' : FileSystem} (h : Dwindled fs fs')
    (hloses : LosesOnly fs' touched fs'') : Dwindled fs fs'' :=
  ⟨hloses.within.trans h.within, hloses.refused.trans h.refused⟩

theorem removal_dwindles {e : Planned} (habs : e.path.isAbsolute = true) :
    Maintains (Dwindled fs) ((diskTools faults rule).removal e) := by
  unfold Tools.removal
  cases e.stage.remover with
  | entry => exact failingOn_maintains fun r hr => hr.of_loses (diskRemove_loses e.path r)
  | tree => exact failingOn_maintains fun r hr => hr.of_loses (diskRemoveTree_loses habs r)

theorem removal_journal (e : Planned) (r : Run FileSystem) :
    ((diskTools faults rule).removal e r).2.journal = r.journal := by
  have hfailing : ∀ {remove : Remover FileSystem}, (remove e.path r).2.journal = r.journal →
      (failingOn faults remove e.path r).2.journal = r.journal := by
    intro remove h
    rcases failingOn_run faults remove e.path r with ⟨fault, hfails⟩ | hsame
    · rw [hfails]
    · rw [hsame, h]
  unfold Tools.removal
  cases e.stage.remover with
  | entry =>
    refine hfailing ?_
    rw [diskRemove_run]
    split <;> rfl
  | tree => exact hfailing rfl

theorem diskTools_suits (h : diskSnapshot root ⟨fs, journal⟩ = (.ok l, r)) :
    (diskTools faults rule).Suits (Dwindled fs)
      (l.plan Listing.nestedVendors rule used policies) where
  quiet e _ r := removal_journal e r
  maintains e he := removal_dwindles (absolute_of_mem_plan h e he)
  asks e he hsweep r hr := by
    obtain ⟨key, hopen⟩ := openDirectory_of_mem_dirPaths h _
      (mem_sweepOrder.1 (l.mem_sweep_of_mem_plan he hsweep))
    obtain ⟨holds, hholds⟩ := hr.holdsEntry (absolute_of_mem_plan h e he) hopen
    exact ⟨holds, by rw [← hholds]; rfl⟩

/-! ### Texts of records -/

/-- The rest of a text after its beginning. -/
def textAfter? (front s : String) : Option String :=
  if front.toList.isPrefixOf s.toList then some (String.ofList (s.toList.drop front.toList.length))
  else none

theorem textAfter?_append (front s : String) : textAfter? front (front ++ s) = some s := by
  have hprefix : front.toList.isPrefixOf (front ++ s).toList = true := by
    rw [List.isPrefixOf_iff_prefix, String.toList_append]
    exact List.prefix_append _ _
  rw [textAfter?, if_pos hprefix, String.toList_append, List.drop_left, String.ofList_toList]

theorem textAfter?_append_of_apart {front start : String} (rest : String)
    (h : ¬ front.toList <+: start.toList ∧ ¬ start.toList <+: front.toList) :
    textAfter? front (start ++ rest) = none := by
  refine if_neg fun hprefix => ?_
  rw [List.isPrefixOf_iff_prefix, String.toList_append] at hprefix
  exact (List.prefix_or_prefix_of_prefix hprefix (List.prefix_append _ _)).elim h.1 h.2

/-- The text that a debug record names as removed. -/
def Record.removedText? (record : Record) : Option String :=
  if record.event.level = .debug then
    (textAfter? "Removed empty dir " record.event.text).or (textAfter? "Removed " record.event.text)
  else none

theorem Path.exists_text (habs : p.isAbsolute = true) : ∃ rest, p.text = "/" ++ rest := by
  have hanchor : p.anchor ≠ .relative := of_decide_eq_true habs
  obtain ⟨rest, hrest⟩ : ∃ rest, p.text.toList = '/' :: rest := by
    rw [Path.text, if_neg fun h => hanchor h.1, String.toList_ofList]
    cases h : p.anchor with
    | relative => exact absurd h hanchor
    | root => exact ⟨_, rfl⟩
    | doubleRoot => exact ⟨_, rfl⟩
  refine ⟨String.ofList rest, ?_⟩
  rw [← String.toList_inj, hrest, String.toList_append]
  exact congrArg ('/' :: ·) String.toList_ofList.symm

/-- The record of a removal below the root names its path, and no other debug record starts like
it. -/
theorem removedText?_eq (source : Source) (event : Event)
    (habs : ∀ p, event.callPath? = some p → p.isAbsolute = true) :
    Record.removedText? ⟨source, event⟩ = event.removedPath?.map Path.text := by
  have hassoc : ∀ a b c d e f g h i : String, a ++ b ++ c ++ d ++ e ++ f ++ g ++ h ++ i =
      a ++ (b ++ c ++ d ++ e ++ f ++ g ++ h ++ i) := by
    simp only [String.append_assoc, implies_true]
  have hother : ∀ start rest : String, event.text = start ++ rest →
      (¬ "Removed empty dir ".toList <+: start.toList ∧
        ¬ start.toList <+: "Removed empty dir ".toList) →
      (¬ "Removed ".toList <+: start.toList ∧ ¬ start.toList <+: "Removed ".toList) →
        Record.removedText? ⟨source, event⟩ = none := by
    intro start rest htext hdir hentry
    rw [Record.removedText?, htext, textAfter?_append_of_apart rest hdir,
      textAfter?_append_of_apart rest hentry]
    exact ite_self _
  cases event with
  | linkNotFollowed | runStarted | vendorsPlanned | unusedPlanned | nonGoPlanned | testsPlanned
  | runFinished => rfl
  | listed root dirs files links =>
    exact hother "Snapshot of " _ (hassoc _ _ _ _ _ _ _ _ _) (by decide) (by decide)
  | stageStarted stage => exact hother "Starting stage " _ rfl (by decide) (by decide)
  | alreadyGone p => exact hother "Already gone: " _ rfl (by decide) (by decide)
  | emptyDirRemoved p =>
    have hdir : textAfter? "Removed empty dir " (Event.emptyDirRemoved p).text = some p.text :=
      textAfter?_append _ _
    simp only [Record.removedText?, hdir, Event.level, if_true]
    rfl
  | removed p =>
    -- the path is absolute, so its text does not start like the rest of the longer beginning
    obtain ⟨rest, htext⟩ := Path.exists_text (habs p rfl)
    have hdir : textAfter? "Removed empty dir " (Event.removed p).text = none := by
      have hjoin : "Removed " ++ "/" = "Removed /" := by decide
      have hapart : ¬ "Removed empty dir ".toList <+: "Removed /".toList ∧
          ¬ "Removed /".toList <+: "Removed empty dir ".toList := by decide
      have hstart : (Event.removed p).text = "Removed /" ++ rest := by
        rw [← hjoin, String.append_assoc, ← htext]
        rfl
      rw [hstart]
      exact textAfter?_append_of_apart rest hapart
    have hentry : textAfter? "Removed " (Event.removed p).text = some p.text :=
      textAfter?_append _ _
    simp only [Record.removedText?, hdir, hentry, Event.level, if_true]
    rfl

/-- The longer beginning is read first: what was removed here is no path `empty dir /p/docs`. -/
example : Record.removedText? ⟨.engine, .emptyDirRemoved (Path.ofString "/p/docs")⟩ =
    some "/p/docs" := by
  decide +kernel

theorem Event.removedPath?_of_callPath? {event : Event} (h : event.callPath?.isSome = false) :
    event.removedPath? = none := by
  cases event <;> first | rfl | cases h

theorem mem_removalsIn {event : Event} :
    event ∈ removalsIn journal ↔
      event.callPath?.isSome ∧ ∃ record ∈ journal, record.event = event := by
  rw [removalsIn, List.mem_filter, List.mem_map, and_comm]

theorem removedTexts_eq
    (habs : ∀ event ∈ removalsIn journal, ∀ p, event.callPath? = some p → p.isAbsolute = true) :
    journal.filterMap Record.removedText? =
      ((removalsIn journal).filterMap Event.removedPath?).map Path.text := by
  have hrecords : ∀ record ∈ journal,
      record.removedText? = record.event.removedPath?.map Path.text := by
    intro record hrecord
    refine removedText?_eq record.source record.event fun p hp => ?_
    have hremoval : record.event ∈ removalsIn journal :=
      mem_removalsIn.2 ⟨by rw [hp]; rfl, record, hrecord, rfl⟩
    exact habs record.event hremoval p hp
  have hevents : (removalsIn journal).filterMap Event.removedPath? =
      (journal.map Record.event).filterMap Event.removedPath? := by
    rw [removalsIn, List.filterMap_filter]
    refine List.filterMap_congr fun event _ => ?_
    cases hcall : event.callPath?.isSome with
    | true => rfl
    | false => exact (Event.removedPath?_of_callPath? hcall).symm
  rw [hevents, List.map_filterMap, List.filterMap_map]
  exact List.filterMap_congr hrecords

/-! ### The trace -/

/-- What the journal of a run tells of its calls. Its debug records name the paths whose calls went
through, and so does a result. What is reported of a call is what came of it: a removal, a path that
was gone already, or nothing of the call that ends the run, whose path no record names. -/
structure TracesCalls (listed : Except RunFault Listing) (plan : Listing → List Planned)
    (outcome : Except RunFault RunResult) (journal : List Record) (calls : List (Call FileSystem)) :
    Prop where
  removed : journal.filterMap Record.removedText? = (removedBy calls).map Path.text
  result : ∀ result, outcome = .ok result → result.removed = removedBy calls
  reports : ∃ made : List (PlannedCall FileSystem), made.map PlannedCall.call = calls ∧
    removalsIn journal = made.flatMap PlannedCall.events ∧
      ∀ l, listed = .ok l → CarriedOut (plan l) made (faultOf outcome)
  aborted : ∀ fault, outcome = .error fault → (listed = .error fault ∧ calls = []) ∨
    ∃ front c stage cause, calls = front ++ [c] ∧ c.outcome = .error cause ∧
      cause.isMissing = false ∧ fault = RunFault.inStage stage cause ∧
        ∀ record ∈ journal, ∀ p, record.event.callPath? = some p → p.text ≠ c.path.text

/-- No report is about the path of a call that ends the run: the calls before it on the same path
would have settled that nothing is there. -/
theorem callPath?_ne_of_fatal? {made : List (PlannedCall FileSystem)} {c : PlannedCall FileSystem}
    {fault : Fault} (hfront : ∀ d ∈ made, d.call.fatal? = none)
    (hfatal : c.call.fatal? = some fault)
    (hpairs : ((made ++ [c]).map PlannedCall.call).Pairwise fun c d =>
      c.fatal? = none → d.path = c.path → d.foundMissing = true) :
    ∀ event ∈ (made ++ [c]).flatMap PlannedCall.events, event.callPath? ≠ some c.call.path := by
  intro event hevent hpath
  rw [List.flatMap_append, List.flatMap_singleton, PlannedCall.events_of_fatal? hfatal,
    List.append_nil, List.mem_flatMap] at hevent
  obtain ⟨d, hd, hevent⟩ := hevent
  obtain ⟨houtcome, hpresent⟩ := Call.error_of_fatal? hfatal
  rw [List.map_append, List.pairwise_append] at hpairs
  have hmissing := hpairs.2.2 d.call (List.mem_map_of_mem hd) c.call (by simp) (hfront d hd)
    (Option.some.inj (hpath.symm.trans (d.callPath?_events event hevent)))
  rw [Call.foundMissing, houtcome] at hmissing
  exact absurd hmissing (Bool.eq_false_iff.1 hpresent)

theorem tracesCalls_of_carriedOut {plan : Listing → List Planned}
    {outcome : Except RunFault RunResult} {made : List (PlannedCall FileSystem)}
    (hcarried : CarriedOut (plan l) made (faultOf outcome))
    (hreports : removalsIn journal = made.flatMap PlannedCall.events)
    (habs : ∀ e ∈ plan l, e.path.isAbsolute = true)
    (hpairs : (made.map PlannedCall.call).Pairwise fun c d =>
      c.fatal? = none → d.path = c.path → d.foundMissing = true)
    (hresult : ∀ result, outcome = .ok result →
      result.removed = removedBy (made.map PlannedCall.call)) :
    TracesCalls (.ok l) plan outcome journal (made.map PlannedCall.call) := by
  have hpaths : ∀ event ∈ removalsIn journal, ∀ p, event.callPath? = some p →
      p.isAbsolute = true := by
    intro event hevent p hp
    rw [hreports, List.mem_flatMap] at hevent
    obtain ⟨d, hd, hevent⟩ := hevent
    obtain rfl := Option.some.inj (hp.symm.trans (d.callPath?_events event hevent))
    rw [d.path_eq]
    exact habs d.planned (hcarried.planned_mem d hd)
  have hremoved := removedTexts_eq hpaths
  rw [hreports, removed_events] at hremoved
  refine ⟨hremoved, hresult, ⟨made, rfl, hreports, fun l' hl' => ?_⟩, fun fault hfault => ?_⟩
  · obtain rfl := Except.ok.inj hl'
    exact hcarried
  · rw [hfault] at hcarried
    rcases hcarried.fatal?_eq with ⟨hnone, -⟩ | ⟨front, c, cause, rfl, hfront, hfatal, hstop⟩
    · cases hnone
    · obtain ⟨houtcome, hpresent⟩ := Call.error_of_fatal? hfatal
      -- a path that was removed before is only found missing, so the failed call is on another one
      have hunnamed := callPath?_ne_of_fatal? hfront hfatal hpairs
      refine .inr ⟨front.map PlannedCall.call, c.call, c.planned.stage, cause, by simp, houtcome,
        hpresent, Option.some.inj hstop, fun record hrecord p hp htext => ?_⟩
      have hremoval : record.event ∈ removalsIn journal :=
        mem_removalsIn.2 ⟨by rw [hp]; rfl, record, hrecord, rfl⟩
      exact hunnamed _ (hreports ▸ hremoval) (Path.text_injective htext ▸ hp)

theorem tracesCalls_of_unlisted {fault : RunFault} {plan : Listing → List Planned}
    (hnone : removalsIn journal = []) :
    TracesCalls (.error fault) plan (.error fault) journal [] where
  removed := by
    rw [removedTexts_eq (by simp [hnone]), hnone]
    rfl
  result result hresult := by cases hresult
  reports := ⟨[], rfl, hnone, fun l hl => by cases hl⟩
  aborted fault' hfault := .inl ⟨congrArg _ (Except.error.inj hfault), rfl⟩

/-- No call of a run on a file system finds anything under the path of an earlier call. -/
theorem prune_pairwise_foundMissing (fs : FileSystem) (root : Path) (faults : List (String × Fault))
    (rule : PreservationRule) (used : List String) (policies : PolicySet) :
    ((diskTools faults rule).observed.prune root used policies
        ⟨⟨fs, []⟩, []⟩).2.world.calls.Pairwise fun c d =>
      c.fatal? = none → d.path = c.path → d.foundMissing = true := by
  have hask : ∀ p v, Maintains (· = v) (diskHoldsEntry p) := fun p v => Maintains.query _
  obtain ⟨plan, hrecorded, hplan⟩ := prune_records (t := diskTools faults rule) root used policies
    (fun _ => diskSnapshot_maintains root) hask fs []
  refine hrecorded.linked.pairwise_foundMissing fun c hc => ⟨hrecorded.made c hc, ?_⟩
  obtain ⟨e, he, -, hpath⟩ := hrecorded.planned c hc
  obtain ⟨l, r, hlisted, he⟩ := hplan e he
  rw [hpath]
  exact absolute_of_mem_plan hlisted e he

theorem observed_snapshot {listed : Except RunFault Listing}
    (h : diskSnapshot root ⟨fs, []⟩ = (listed, r)) :
    (diskTools faults rule).observed.snapshot root ⟨⟨fs, []⟩, []⟩ =
      (listed, ⟨⟨fs, []⟩, r.journal⟩) := by
  have hworld : (diskSnapshot root ⟨fs, []⟩).2.world = fs :=
    diskSnapshot_maintains (I := (· = fs)) root ⟨fs, []⟩ rfl
  rw [h] at hworld
  show (diskSnapshot root).unobserved ⟨⟨fs, []⟩, []⟩ = _
  unfold Action.unobserved
  rw [h, ← hworld]

/-- A run that has made its listing carries out the plan for it, and reports what came of each
call. -/
theorem observed_prune_carriedOut (h : diskSnapshot root ⟨fs, []⟩ = (.ok l, r)) :
    let observed := (diskTools faults rule).observed.prune root used policies ⟨⟨fs, []⟩, []⟩
    ∃ made : List (PlannedCall FileSystem), made.map PlannedCall.call = observed.2.world.calls ∧
      removalsIn observed.2.journal = made.flatMap PlannedCall.events ∧
      CarriedOut (l.plan Listing.nestedVendors rule used policies) made (faultOf observed.1) := by
  intro observed
  have hsuits : (diskTools faults rule).Suits (Dwindled fs)
      (l.plan Listing.nestedVendors rule used policies) := diskTools_suits h
  have htraced := pruneListing_traced hsuits ⟨⟨fs, []⟩, r.journal⟩ ⟨fun _ _ hn => hn, rfl⟩
  have hran : observed = (diskTools faults rule).observed.pruneListing l used policies
      ⟨⟨fs, []⟩, r.journal⟩ := Tools.prune_run (observed_snapshot h) used policies
  rw [← hran] at htraced
  obtain ⟨-, made, hcalls, hreports, hcarried⟩ := htraced
  have hquiet : removalsIn r.journal = [] := by
    have hsame := diskSnapshot_quietly root ⟨fs, []⟩
    rwa [h] at hsame
  rw [hquiet] at hreports
  exact ⟨made, hcalls.symm, hreports, hcarried⟩

/-- The journal of a run on a file system, however the run ends, is a trace of its calls, which
carry out the plan for what is listed. -/
theorem prune_traces (fs : FileSystem) (root : Path) (faults : List (String × Fault))
    (rule : PreservationRule) (used : List String) (policies : PolicySet) :
    let ended := (diskTools faults rule).prune root used policies ⟨fs, []⟩
    let observed := (diskTools faults rule).observed.prune root used policies ⟨⟨fs, []⟩, []⟩
    ended = (observed.1, ⟨observed.2.world.world, observed.2.journal⟩) ∧
      TracesCalls (diskSnapshot root ⟨fs, []⟩).1
        (fun l => l.plan Listing.nestedVendors rule used policies) ended.1 ended.2.journal
        observed.2.world.calls := by
  intro ended observed
  have hshows : ended = (observed.1, ⟨observed.2.world.world, observed.2.journal⟩) :=
    prune_shows (diskTools faults rule) root used policies ⟨⟨fs, []⟩, []⟩
  have houtcome : ended.1 = observed.1 := congrArg Prod.fst hshows
  have hjournal : ended.2.journal = observed.2.journal := congrArg (fun x => x.2.journal) hshows
  refine ⟨hshows, ?_⟩
  rw [houtcome, hjournal]
  rcases hsnapshot : diskSnapshot root ⟨fs, []⟩ with ⟨fault | l, r⟩
  · have hran : observed = (.error fault, ⟨⟨fs, []⟩, r.journal⟩) :=
      Action.bind_run_error (observed_snapshot hsnapshot)
    have hquiet := diskSnapshot_quietly root ⟨fs, []⟩
    rw [hsnapshot] at hquiet
    rw [hran]
    exact tracesCalls_of_unlisted hquiet
  · obtain ⟨made, hcalls, hreports, hcarried⟩ : ∃ made : List (PlannedCall FileSystem),
        made.map PlannedCall.call = observed.2.world.calls ∧
          removalsIn observed.2.journal = made.flatMap PlannedCall.events ∧
          CarriedOut (l.plan Listing.nestedVendors rule used policies) made (faultOf observed.1) :=
      observed_prune_carriedOut hsnapshot
    have hpairs := prune_pairwise_foundMissing fs root faults rule used policies
    have hresult : ∀ result, observed.1 = .ok result →
        result.removed = removedBy observed.2.world.calls := by
      intro result hran
      exact (prune_reports (diskTools faults rule) root used policies _ result _ rfl
        (Prod.ext hran rfl)).symm
    rw [← hcalls] at hpairs hresult ⊢
    exact tracesCalls_of_carriedOut hcarried hreports
      (absolute_of_mem_plan hsnapshot) hpairs hresult

end Disk

end VendorTree
