import VendorTree.Proofs.ActionSteps
import VendorTree.Proofs.SweepOrder

/-!
# The calls of a sweep

A sweep asks whether a directory holds an entry, and removes it if it does not. Both may fail, and
what they answer may depend on what was removed before. The calls come in turns, one for each
directory: the question, and right after the answer that nothing is in there the removal. A sweep
takes the turns in its order until one of them fails for good, so its calls follow from the set of
the directories alone.
-/

namespace VendorTree

variable {ε σ α : Type}

/-! ### Calls -/

/-- A call of a sweep with its outcome. -/
inductive SweepCall
  | asked (path : Path) (answer : Except Fault Bool)
  | removal (path : Path) (outcome : Except Fault Unit)

/-- The fault with which the call ends a sweep. A path that is missing when it is to be removed is
passed over. -/
def SweepCall.fault? : SweepCall → Option Fault
  | .asked _ (.error fault) => some fault
  | .removal _ (.error fault) => if fault.isMissing then none else some fault
  | _ => none

def SweepCall.askedPath? : SweepCall → Option Path
  | .asked path _ => some path
  | .removal _ _ => none

def SweepCall.removedPath? : SweepCall → Option Path
  | .removal path (.ok ()) => some path
  | _ => none

/-- The paths that the calls ask about, in the order of the calls. -/
def askedIn (calls : List SweepCall) : List Path := calls.filterMap SweepCall.askedPath?

/-- The paths that the calls remove, in the order of the calls. -/
def removedIn (calls : List SweepCall) : List Path := calls.filterMap SweepCall.removedPath?

/-- A world and the calls so far, oldest first. -/
structure Recording (σ : Type) where
  world : σ
  calls : List SweepCall

/-- The same work, whose outcome is recorded as a call. -/
def Action.recorded (call : Except ε α → SweepCall) (a : Action ε σ α) : Action ε (Recording σ) α :=
  fun r => match a ⟨r.world.world, r.journal⟩ with
    | (x, r') => (x, ⟨⟨r'.world, r.world.calls ++ [call x]⟩, r'.journal⟩)

/-- The same sweep, whose calls are recorded. -/
def recordedSweep (source : Source) (holdsEntry : EntryTest σ) (remove : Remover σ)
    (paths : List Path) : Action Fault (Recording σ) (List Path) :=
  sweep source (fun p => (holdsEntry p).recorded (.asked p))
    (fun p => (remove p).recorded (.removal p)) paths

/-! ### Turns -/

/-- What comes of a directory when its turn comes. -/
inductive Turn
  | unanswered (path : Path) (fault : Fault)
  | kept (path : Path)
  | tried (path : Path) (outcome : Except Fault Unit)

namespace Turn

def path : Turn → Path
  | .unanswered path _ => path
  | .kept path => path
  | .tried path _ => path

def calls : Turn → List SweepCall
  | .unanswered path fault => [.asked path (.error fault)]
  | .kept path => [.asked path (.ok true)]
  | .tried path outcome => [.asked path (.ok false), .removal path outcome]

/-- The fault with which the turn ends a sweep. -/
def fault? : Turn → Option Fault
  | .unanswered _ fault => some fault
  | .kept _ => none
  | .tried path outcome => (SweepCall.removal path outcome).fault?

theorem askedIn_calls (turn : Turn) : askedIn turn.calls = [turn.path] := by
  cases turn <;> rfl

theorem fault?_eq_none {turn : Turn} (h : ∀ c ∈ turn.calls, c.fault? = none) :
    turn.fault? = none := by
  rcases turn with ⟨path, cause⟩ | ⟨path⟩ | ⟨path, outcome⟩
  · exact h (.asked path (.error cause)) List.mem_cons_self
  · rfl
  · exact h (.removal path outcome) (List.mem_cons_of_mem _ List.mem_cons_self)

/-- A call of a turn, with the calls of the turn before and after it. -/
inductive HasCall : Turn → List SweepCall → SweepCall → List SweepCall → Prop
  | unanswered {p fault} : HasCall (.unanswered p fault) [] (.asked p (.error fault)) []
  | kept {p} : HasCall (.kept p) [] (.asked p (.ok true)) []
  | question {p outcome} :
    HasCall (.tried p outcome) [] (.asked p (.ok false)) [.removal p outcome]
  | removal {p outcome} :
    HasCall (.tried p outcome) [.asked p (.ok false)] (.removal p outcome) []

theorem hasCall_of_calls {turn : Turn} {first last : List SweepCall} {c : SweepCall}
    (h : turn.calls = first ++ c :: last) : turn.HasCall first c last := by
  rcases turn with ⟨p, fault⟩ | ⟨p⟩ | ⟨p, outcome⟩
  · rcases first with _ | ⟨d, first⟩
    · obtain ⟨rfl, rfl⟩ := List.cons.inj h
      exact .unanswered
    · simp [calls] at h
  · rcases first with _ | ⟨d, first⟩
    · obtain ⟨rfl, rfl⟩ := List.cons.inj h
      exact .kept
    · simp [calls] at h
  · rcases first with _ | ⟨d, _ | ⟨e, first⟩⟩
    · obtain ⟨rfl, rfl⟩ := List.cons.inj h
      exact .question
    · obtain ⟨rfl, htail⟩ := List.cons.inj h
      obtain ⟨rfl, rfl⟩ := List.cons.inj htail
      exact .removal
    · simp [calls] at h

end Turn

/-- A turn leads from a run to a run. -/
inductive TakesTurn (source : Source) (holdsEntry : EntryTest σ) (remove : Remover σ) :
    Run σ → Turn → Run σ → Prop
  | unanswered {p fault r r'} (hasked : holdsEntry p r = (.error fault, r')) :
    TakesTurn source holdsEntry remove r (.unanswered p fault) r'
  | kept {p r r'} (hasked : holdsEntry p r = (.ok true, r')) :
    TakesTurn source holdsEntry remove r (.kept p) r'
  | removed {p r r₁ r'} (hasked : holdsEntry p r = (.ok false, r₁))
    (hremoved : remove p r₁ = (.ok (), r')) :
    TakesTurn source holdsEntry remove r (.tried p (.ok ()))
      { r' with journal := r'.journal ++ [⟨source, .emptyDirRemoved p⟩] }
  | failed {p fault r r₁ r'} (hasked : holdsEntry p r = (.ok false, r₁))
    (hremoved : remove p r₁ = (.error fault, r')) :
    TakesTurn source holdsEntry remove r (.tried p (.error fault)) r'

section Turns

variable {source : Source} {holdsEntry : EntryTest σ} {remove : Remover σ} {r r' : Run σ}
  {turn : Turn} {rest : List Path}

theorem exists_takesTurn (source : Source) (holdsEntry : EntryTest σ)
    (remove : Remover σ) (p : Path)
    (r : Run σ) : ∃ turn r', turn.path = p ∧ TakesTurn source holdsEntry remove r turn r' := by
  rcases hasked : holdsEntry p r with ⟨fault | ⟨_ | _⟩, r₁⟩
  · exact ⟨.unanswered p fault, r₁, rfl, .unanswered hasked⟩
  · rcases hremoved : remove p r₁ with ⟨fault | ⟨⟨⟩⟩, r₂⟩
    · exact ⟨.tried p (.error fault), r₂, rfl, .failed hasked hremoved⟩
    · exact ⟨.tried p (.ok ()), _, rfl, .removed hasked hremoved⟩
  · exact ⟨.kept p, r₁, rfl, .kept hasked⟩

theorem sweepInOrder_run_of_fault {fault : Fault} (h : TakesTurn source holdsEntry remove r turn r')
    (hfault : turn.fault? = some fault) :
    sweepInOrder source holdsEntry remove (turn.path :: rest) r = (.error fault, r') := by
  cases h with
  | unanswered hasked =>
    obtain rfl := Option.some.inj hfault
    exact Action.bind_run_error hasked
  | kept hasked => cases hfault
  | removed hasked hremoved => cases hfault
  | @failed p cause r r₁ r' hasked hremoved =>
    have hcause : (if cause.isMissing then none else some cause) = some fault := hfault
    split at hcause
    · cases hcause
    rename_i hpresent
    obtain rfl := Option.some.inj hcause
    have htried : Action.unlessMissing (remove p) r₁ = (.error cause, r') := by
      rw [Action.unlessMissing_run_error hremoved, if_neg hpresent]
    exact (Action.bind_run_ok hasked).trans (Action.bind_run_error htried)

theorem sweepInOrder_run_of_none {outcome : Except Fault (List Path)} {r'' : Run σ}
    (h : TakesTurn source holdsEntry remove r turn r') (hnone : turn.fault? = none)
    (hrest : sweepInOrder source holdsEntry remove rest r' = (outcome, r'')) :
    sweepInOrder source holdsEntry remove (turn.path :: rest) r =
      (outcome.map (removedIn turn.calls ++ ·), r'') := by
  have hsame : outcome.map (([] : List Path) ++ ·) = outcome := by cases outcome <;> rfl
  cases h with
  | unanswered hasked => cases hnone
  | kept hasked =>
    refine (Action.bind_run_ok hasked).trans (hrest.trans ?_)
    exact congrArg (·, r'') hsame.symm
  | @removed p r r₁ r' hasked hremoved =>
    refine (Action.bind_run_ok hasked).trans ?_
    refine (Action.bind_run_ok (Action.unlessMissing_run_ok hremoved)).trans ?_
    rw [if_pos rfl, Action.note_bind_run]
    cases outcome with
    | error fault => exact Action.bind_run_error hrest
    | ok removed => exact Action.bind_run_ok hrest
  | @failed p cause r r₁ r' hasked hremoved =>
    have hcause : (if cause.isMissing then none else some cause) = none := hnone
    have hmissing : cause.isMissing = true := by simpa using hcause
    have htried : Action.unlessMissing (remove p) r₁ = (.ok false, r') := by
      rw [Action.unlessMissing_run_error hremoved, if_pos hmissing]
    refine (Action.bind_run_ok hasked).trans ((Action.bind_run_ok htried).trans (hrest.trans ?_))
    exact congrArg (·, r'') hsame.symm

theorem TakesTurn.recorded (h : TakesTurn source holdsEntry remove r turn r')
    (calls : List SweepCall) :
    TakesTurn source (fun p => (holdsEntry p).recorded (.asked p))
      (fun p => (remove p).recorded (.removal p)) ⟨⟨r.world, calls⟩, r.journal⟩ turn
      ⟨⟨r'.world, calls ++ turn.calls⟩, r'.journal⟩ := by
  have hrun {β : Type} {a : Action Fault σ β} {call : Except Fault β → SweepCall}
      {x : Except Fault β} {r r' : Run σ} (h : a r = (x, r')) (calls : List SweepCall) :
      a.recorded call ⟨⟨r.world, calls⟩, r.journal⟩ =
        (x, ⟨⟨r'.world, calls ++ [call x]⟩, r'.journal⟩) := by
    unfold Action.recorded
    rw [h]
  have hconcat (first last : SweepCall) : calls ++ [first] ++ [last] = calls ++ [first, last] :=
    List.append_assoc ..
  cases h with
  | unanswered hasked => exact .unanswered (hrun hasked calls)
  | kept hasked => exact .kept (hrun hasked calls)
  | @removed p r r₁ r' hasked hremoved =>
    let after : List SweepCall := calls ++ [.asked p (.ok false)] ++ [.removal p (.ok ())]
    rw [Turn.calls, ← hconcat]
    exact @TakesTurn.removed _ source _ _ p _ _
      (⟨⟨r'.world, after⟩, r'.journal⟩ : Run (Recording σ))
      (hrun hasked calls) (hrun hremoved _)
  | @failed p fault r r₁ r' hasked hremoved =>
    rw [Turn.calls, ← hconcat]
    exact .failed (hrun hasked calls) (hrun hremoved _)

end Turns

/-- The turns of the directories in this order, up to one that ends the sweep, and what comes of
it. -/
inductive InTurn : List Path → List Turn → Except Fault (List Path) → Prop
  | done : InTurn [] [] (.ok [])
  | next {turn : Turn} {turns rest outcome} (hnone : turn.fault? = none)
    (h : InTurn rest turns outcome) :
    InTurn (turn.path :: rest) (turn :: turns) (outcome.map (removedIn turn.calls ++ ·))
  | stop {turn : Turn} {rest fault} (hfault : turn.fault? = some fault) :
    InTurn (turn.path :: rest) [turn] (.error fault)

/-- A sweep goes on turn by turn, whether it is recorded or not. -/
theorem sweepInOrder_inTurn (source : Source) (holdsEntry : EntryTest σ) (remove : Remover σ)
    (order : List Path) (r : Run σ) (calls : List SweepCall) :
    ∃ turns outcome r', sweepInOrder source holdsEntry remove order r = (outcome, r') ∧
      sweepInOrder source (fun p => (holdsEntry p).recorded (.asked p))
          (fun p => (remove p).recorded (.removal p)) order ⟨⟨r.world, calls⟩, r.journal⟩ =
        (outcome, ⟨⟨r'.world, calls ++ turns.flatMap Turn.calls⟩, r'.journal⟩) ∧
      InTurn order turns outcome := by
  -- the recorded sweep takes the same turns, so one induction on the order is for both
  induction order generalizing r calls with
  | nil =>
    refine ⟨[], .ok [], r, rfl, ?_, .done⟩
    rw [List.flatMap_nil, List.append_nil]
    rfl
  | cons p rest ih =>
    obtain ⟨turn, r₁, rfl, htakes⟩ := exists_takesTurn source holdsEntry remove p r
    have hrecorded := htakes.recorded calls
    cases hfault : turn.fault? with
    | some fault =>
      refine ⟨[turn], .error fault, r₁, sweepInOrder_run_of_fault htakes hfault, ?_, .stop hfault⟩
      rw [List.flatMap_singleton]
      exact sweepInOrder_run_of_fault hrecorded hfault
    | none =>
      obtain ⟨turns, outcome, r', hrun, hrecordedRun, hturns⟩ := ih r₁ (calls ++ turn.calls)
      refine ⟨turn :: turns, _, r', sweepInOrder_run_of_none htakes hfault hrun, ?_,
        .next hfault hturns⟩
      rw [List.flatMap_cons, ← List.append_assoc]
      exact sweepInOrder_run_of_none hrecorded hfault hrecordedRun

/-! ### What the turns make of the calls -/

section Calls

variable {order : List Path} {turns : List Turn} {outcome : Except Fault (List Path)}
  {before after : List SweepCall} {c : SweepCall}

theorem askedIn_flatMap (turns : List Turn) :
    askedIn (turns.flatMap Turn.calls) = turns.map Turn.path := by
  induction turns with
  | nil => rfl
  | cons turn rest ih =>
    have hhead := turn.askedIn_calls
    unfold askedIn at ih hhead ⊢
    rw [List.flatMap_cons, List.filterMap_append, ih, hhead]
    rfl

theorem InTurn.prefix_order (h : InTurn order turns outcome) : turns.map Turn.path <+: order := by
  induction h with
  | done => exact List.prefix_rfl
  | next hnone h ih => exact List.cons_prefix_cons.2 ⟨rfl, ih⟩
  | stop hfault => exact List.cons_prefix_cons.2 ⟨rfl, List.nil_prefix⟩

theorem InTurn.stops {front back : List Turn} {turn : Turn} {fault : Fault}
    (h : InTurn order turns outcome) (hturns : turns = front ++ turn :: back)
    (hfault : turn.fault? = some fault) : back = [] ∧ outcome = .error fault := by
  induction h generalizing front with
  | done => simp at hturns
  | next hnone h ih =>
    cases front with
    | nil =>
      obtain ⟨rfl, rfl⟩ := List.cons.inj hturns
      rw [hnone] at hfault
      cases hfault
    | cons first front =>
      obtain ⟨hback, rfl⟩ := ih (List.cons.inj hturns).2
      exact ⟨hback, rfl⟩
  | stop hstop =>
    cases front with
    | nil =>
      obtain ⟨rfl, rfl⟩ := List.cons.inj hturns
      exact ⟨rfl, congrArg Except.error (Option.some.inj (hstop.symm.trans hfault))⟩
    | cons first front => simp at hturns

theorem InTurn.goes_on (h : InTurn order turns outcome)
    (hnone : ∀ turn ∈ turns, turn.fault? = none) :
    turns.map Turn.path = order ∧ outcome = .ok (removedIn (turns.flatMap Turn.calls)) := by
  induction h with
  | done => exact ⟨rfl, rfl⟩
  | @next turn turns rest outcome _ h ih =>
    obtain ⟨horder, rfl⟩ := ih fun t ht => hnone t (List.mem_cons_of_mem _ ht)
    refine ⟨by rw [List.map_cons, horder], ?_⟩
    rw [List.flatMap_cons, removedIn, removedIn, removedIn, List.filterMap_append]
    rfl
  | stop hfault =>
    rw [hnone _ List.mem_cons_self] at hfault
    cases hfault

/-- A call belongs to a turn. Before it come the calls of earlier turns and the earlier ones of its
own, and after it the later ones of its own and those of later turns. -/
theorem exists_turn_of_call (h : turns.flatMap Turn.calls = before ++ c :: after) :
    ∃ front turn back first last, turns = front ++ turn :: back ∧ turn.HasCall first c last ∧
      before = front.flatMap Turn.calls ++ first ∧ after = last ++ back.flatMap Turn.calls := by
  -- the call is one of the first turn, or it lies in the calls of the others
  induction turns generalizing before with
  | nil => simp at h
  | cons turn rest ih =>
    have hlater (later : List SweepCall) (hbefore : before = turn.calls ++ later)
        (hrest : rest.flatMap Turn.calls = later ++ c :: after) : ∃ front t back first last,
        turn :: rest = front ++ t :: back ∧ t.HasCall first c last ∧
          before = front.flatMap Turn.calls ++ first ∧
          after = last ++ back.flatMap Turn.calls := by
      obtain ⟨front, t, back, first, last, rfl, hcalls, rfl, hafter⟩ := ih hrest
      refine ⟨turn :: front, t, back, first, last, rfl, hcalls, ?_, hafter⟩
      rw [hbefore, List.flatMap_cons, List.append_assoc]
    rw [List.flatMap_cons, List.append_eq_append_iff] at h
    rcases h with ⟨later, hbefore, hrest⟩ | ⟨last, hcalls, hlast⟩
    · exact hlater later hbefore hrest
    · cases last with
      | nil => exact hlater [] (by rw [hcalls, List.append_nil, List.append_nil]) hlast.symm
      | cons d last =>
        obtain ⟨rfl, rfl⟩ := List.cons.inj hlast
        exact ⟨[], turn, rest, before, last, rfl, Turn.hasCall_of_calls hcalls, rfl, rfl⟩

end Calls

/-! ### The law -/

/-- The calls and the outcome are those of a sweep over the directories. -/
structure OrderlySweep (paths : List Path) (calls : List SweepCall)
    (outcome : Except Fault (List Path)) : Prop where
  /-- No directory is asked about twice, and none that is not given. -/
  asked_once : (askedIn calls).Nodup
  asked_given : ∀ p ∈ askedIn calls, p ∈ paths
  /-- By the time a directory is asked about, all those below it were. -/
  below_first : ∀ p ∈ paths, ∀ q answer before after, p.isBelow q = true →
    calls = before ++ .asked q answer :: after → p ∈ askedIn before
  /-- A directory is removed right after it was found empty, and only then. -/
  removal_of_empty : ∀ p outcome before after, calls = before ++ .removal p outcome :: after →
    ∃ earlier, before = earlier ++ [.asked p (.ok false)]
  empty_removed : ∀ p before after, calls = before ++ .asked p (.ok false) :: after →
    ∃ outcome later, after = .removal p outcome :: later
  /-- After a fault other than that of a missing path nothing is called, and the fault is the
  outcome. -/
  stops : ∀ c fault before after, calls = before ++ c :: after → c.fault? = some fault →
    after = [] ∧ outcome = .error fault
  /-- Without such a fault every directory is asked about, and the outcome is what was removed. -/
  goes_on : (∀ c ∈ calls, c.fault? = none) →
    (∀ p ∈ paths, p ∈ askedIn calls) ∧ outcome = .ok (removedIn calls)

theorem InTurn.orderly {paths : List Path} {turns : List Turn} {outcome : Except Fault (List Path)}
    (h : InTurn (sweepOrder paths) turns outcome) :
    OrderlySweep paths (turns.flatMap Turn.calls) outcome where
  asked_once := by
    rw [askedIn_flatMap]
    exact (nodup_sweepOrder paths).sublist h.prefix_order.sublist
  asked_given p hp := by
    rw [askedIn_flatMap] at hp
    exact mem_sweepOrder.1 (h.prefix_order.subset hp)
  below_first p hp q answer before after hbelow hcalls := by
    obtain ⟨front, turn, back, first, last, rfl, hcall, rfl, -⟩ := exists_turn_of_call hcalls
    -- the question is the first call of its turn, so what was asked before belongs to earlier turns
    have hfirst : first = [] ∧ turn.path = q := by cases hcall <;> exact ⟨rfl, rfl⟩
    obtain ⟨rfl, rfl⟩ := hfirst
    rw [List.append_nil, askedIn_flatMap]
    obtain ⟨unasked, horder⟩ := h.prefix_order
    rw [List.map_append, List.map_cons, List.append_assoc] at horder
    exact mem_before_of_isBelow hp hbelow horder.symm
  removal_of_empty p outcome before after hcalls := by
    obtain ⟨front, turn, back, first, last, -, hcall, rfl, -⟩ := exists_turn_of_call hcalls
    cases hcall
    exact ⟨_, rfl⟩
  empty_removed p before after hcalls := by
    obtain ⟨front, turn, back, first, last, -, hcall, -, rfl⟩ := exists_turn_of_call hcalls
    cases hcall
    exact ⟨_, _, rfl⟩
  stops c fault before after hcalls hfault := by
    obtain ⟨front, turn, back, first, last, hturns, hcall, -, rfl⟩ := exists_turn_of_call hcalls
    -- a call that stops the sweep is the last one of its turn
    have hlast : last = [] ∧ turn.fault? = some fault := by
      cases hcall with
      | unanswered => exact ⟨rfl, hfault⟩
      | kept => cases hfault
      | question => cases hfault
      | removal => exact ⟨rfl, hfault⟩
    obtain ⟨rfl, hstop⟩ := hlast
    obtain ⟨rfl, houtcome⟩ := h.stops hturns hstop
    exact ⟨rfl, houtcome⟩
  goes_on hnone := by
    have hturns : ∀ turn ∈ turns, turn.fault? = none := fun turn hturn =>
      Turn.fault?_eq_none fun c hc => hnone c (List.mem_flatMap.2 ⟨turn, hturn, hc⟩)
    obtain ⟨horder, houtcome⟩ := h.goes_on hturns
    refine ⟨fun p hp => ?_, houtcome⟩
    rw [askedIn_flatMap, horder]
    exact mem_sweepOrder.2 hp

/-- Whatever the questions and the removals come to, and however they depend on each other, a sweep
asks about each directory once at most and about what lies below it before, removes a directory
right after it was found empty, passes over one that is missing by then, and ends with any other
fault. Its calls and its outcome are the same for the same directories in another order or given
more than once. -/
theorem sweep_orderly (source : Source) (holdsEntry : EntryTest σ) (remove : Remover σ)
    (paths : List Path) (w : σ) (journal : List Record) :
    ∃ calls outcome w' journal',
      sweep source holdsEntry remove paths ⟨w, journal⟩ = (outcome, ⟨w', journal'⟩) ∧
      recordedSweep source holdsEntry remove paths ⟨⟨w, []⟩, journal⟩ =
        (outcome, ⟨⟨w', calls⟩, journal'⟩) ∧
      OrderlySweep paths calls outcome ∧
      ∀ paths', (∀ p, p ∈ paths' ↔ p ∈ paths) →
        recordedSweep source holdsEntry remove paths' ⟨⟨w, []⟩, journal⟩ =
          (outcome, ⟨⟨w', calls⟩, journal'⟩) := by
  obtain ⟨turns, outcome, r', hrun, hrecorded, hturns⟩ :=
    sweepInOrder_inTurn source holdsEntry remove (sweepOrder paths) ⟨w, journal⟩ []
  rw [List.nil_append] at hrecorded
  refine ⟨turns.flatMap Turn.calls, outcome, r'.world, r'.journal, hrun, hrecorded, hturns.orderly,
    fun paths' hsame => ?_⟩
  rw [recordedSweep, sweep, sweepOrder_eq_of_mem_iff hsame]
  exact hrecorded

/-- In a world of directories alone, a directory holds those that lie below it. -/
def holdsDirectory : EntryTest (List Path) := fun p =>
  Action.query fun dirs => .ok (dirs.any fun d => d.isBelow p)

/-- Take a directory out of such a world. -/
def takeDirectory : Remover (List Path) := fun p => Action.onWorld fun dirs =>
  if p ∈ dirs then (.ok (), dirs.filter fun d => d ≠ p)
  else (.error (.call ⟨.notFound, [p.text]⟩), dirs)

/-- One directory in another one, and a third that is not there any more. -/
theorem sweep_orderly_nested :
    let outer := Path.ofString "/v"
    let inner := Path.ofString "/v/a"
    let gone := Path.ofString "/v/b"
    (∀ p, p ∈ [outer, gone, inner, outer] ↔ p ∈ [inner, gone, outer]) ∧
    recordedSweep .cleanup holdsDirectory takeDirectory [outer, gone, inner, outer]
        ⟨⟨[outer, inner], []⟩, []⟩ =
      recordedSweep .cleanup holdsDirectory takeDirectory [inner, gone, outer]
        ⟨⟨[outer, inner], []⟩, []⟩ ∧
    (recordedSweep .cleanup holdsDirectory takeDirectory [inner, gone, outer]
        ⟨⟨[outer, inner], []⟩, []⟩).1 = .ok [inner, outer] := by
  intro outer inner gone
  have hsame (p : Path) : p ∈ [outer, gone, inner, outer] ↔ p ∈ [inner, gone, outer] := by
    simp only [List.mem_cons, List.not_mem_nil]
    grind
  obtain ⟨calls, outcome, w', journal', -, hrecorded, -, hreordered⟩ :=
    sweep_orderly .cleanup holdsDirectory takeDirectory [inner, gone, outer] [outer, inner] []
  refine ⟨hsame, (hreordered _ hsame).trans hrecorded.symm, ?_⟩
  rw [recordedSweep, sweep, sweepOrder_of_ordered (by decide +kernel) (by decide +kernel)]
  exact ok_of_toOption (by decide +kernel)

end VendorTree
